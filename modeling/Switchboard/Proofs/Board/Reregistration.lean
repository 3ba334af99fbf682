/-
Switchboard/Proofs/Board/Reregistration.lean

Who is listed although connections have a past.

A connection can have an identity and subscriptions before it is registered.
It has got them past the board, or it has been on the board before and was
taken off it, which leaves them as they are.  To register it is to enter its
name, and nothing else.

So a name is listed nowhere but where its connection belongs by its own
account (`Candid.operate`), but it is not listed everywhere where it belongs.
What the connection `Brings` is not on the lists: for a user this remains so
as long as it is on the board, and for a channel until the board makes it join
the channel or leave it.  These are all the gaps (`left_out_iff`).

A name may be had by several connections here, as long as no two of them are
registered at a time.
-/
import Switchboard.Proofs.Board.Listing

namespace Switchboard

open Connection (Act)

namespace Board

variable {b b' : Board} {id : ConnectionId} {l : LineNumber} {c : Connection} {o : Operation}
  {os : List Operation}

/-! ### Places -/

/-- Where a connection can be listed. -/
inductive Place where
  | user (name : String)
  | channel (name : String)

namespace Place

variable {p : Place}

/-- The connection belongs there, by its own account. -/
def Claimed (c : Connection) : Place → Prop
  | user name => c.user? = some name
  | channel name => name ∈ c.subscriptions

instance (c : Connection) : (p : Place) → Decidable (p.Claimed c)
  | user name => inferInstanceAs (Decidable (c.user? = some name))
  | channel name => inferInstanceAs (Decidable (name ∈ c.subscriptions))

/-- The name is listed there. -/
def Listed (b : Board) (id : ConnectionId) : Place → Prop
  | user name => id ∈ b.users.listed name
  | channel name => id ∈ b.channels.listed name

/-- Those who are offered what is sent there. -/
def recipients (b : Board) : Place → List LineNumber
  | user name => b.ofUser name
  | channel name => b.subscribers name

/-- By the act a connection joins the place or leaves it, whether it has belonged there or not. -/
def Turns (a : Act) : Place → Prop
  | user _ => False
  | channel name => a = .join name ∨ a = .leave name

/-- Whoever has just come to be belongs nowhere. -/
theorem not_claimed_of_new {capacity now : Nat} {as : List Act}
    (hc : Connection.new? id capacity now = some c) (has : ∀ a ∈ as, a = .close) (p : Place) :
    ¬ p.Claimed (c.run as) := by
  obtain ⟨-, rfl⟩ := Connection.new?_eq_some hc
  cases p with
  | user name =>
    intro hu
    obtain ⟨who, hi, -⟩ := Option.map_eq_some_iff.1 hu
    cases has _ (Connection.mem_of_identity_run rfl hi)
  | channel name =>
    have hj : .join name ∉ as := fun hm => Act.noConfusion (has _ hm)
    intro hm
    simpa [hj] using (Connection.mem_subscriptions_run fun h => hj h.1).1 hm

theorem mem_recipients (h : b.Grounded) (hl : b.registered[id]? = some l) :
    l ∈ p.recipients b ↔ p.Listed b id := by
  -- no other name leads to the connection
  have hfind : ∀ id', b.find? id' = some l ↔ id' = id := by
    intro id'
    constructor
    · exact fun hl' => h.registered_inj hl' hl
    · rintro rfl
      exact hl
  cases p with
  | user name => simp [recipients, Listed, ofUser_eq, hfind]
  | channel name => simp [recipients, Listed, subscribers_eq, hfind]

end Place

/-- The connection of that number belongs to the place, by its own account. -/
def Claims (b : Board) (l : LineNumber) (p : Place) : Prop :=
  ∃ c, b.lines[l]? = some c ∧ p.Claimed c

instance (b : Board) (l : LineNumber) (p : Place) : Decidable (b.Claims l p) :=
  inferInstanceAs (Decidable (∃ c ∈ b.lines[l]?, p.Claimed c))

/-- The name leads to a connection that belongs to the place, and is not listed there. -/
def LeavesOut (id : ConnectionId) (l : LineNumber) (p : Place) (b : Board) : Prop :=
  b.registered[id]? = some l ∧ b.Claims l p ∧ ¬ p.Listed b id

/-- A connection that can be registered under the name belongs to the place already. -/
def Brings (id : ConnectionId) (l : LineNumber) (p : Place) (b : Board) : Prop :=
  b.closing = false ∧ b.registered[id]? = none ∧
    ∃ c, b.lines[l]? = some c ∧ c.id = id ∧ p.Claimed c

instance (id : ConnectionId) (l : LineNumber) (p : Place) (b : Board) :
    Decidable (b.Brings id l p) :=
  inferInstanceAs (Decidable (b.closing = false ∧ b.registered[id]? = none ∧
    ∃ c ∈ b.lines[l]?, c.id = id ∧ p.Claimed c))

/-- After the operation the connection is not left out of the place: the board has made it join the
place or leave it, or it is on the board no more. -/
def Redresses (id : ConnectionId) (l : LineNumber) (p : Place) (b : Board) (o : Operation) : Prop :=
  (∃ a ∈ b.errands l o, p.Turns a) ∨ o = .call .shutdown ∨ (id, l) ∈ b.leavers o

/-! ### Orderly operations -/

/-- What a connection on the board says of itself is changed by way of the board only, and nobody is
registered under the name of another connection on the board. -/
def Operation.Orderly (b : Board) : Operation → Prop
  | .act l a => a.Telling → ∀ c ∈ b.lines[l]?, b.registered[c.id]? ≠ some l
  | .call (.enter id _ _) => b.registered[id]? = none
  | .register l => ∀ c ∈ b.lines[l]?, b.registered[c.id]? = none ∨ b.registered[c.id]? = some l
  | _ => True

instance : (a : Act) → Decidable a.Telling
  | .identify _ | .join _ | .leave _ => inferInstanceAs (Decidable True)
  | .send _ | .take | .close | .forsake | .touch _ => inferInstanceAs (Decidable False)

instance (b : Board) : (o : Operation) → Decidable (o.Orderly b)
  | .act l a => inferInstanceAs
      (Decidable (a.Telling → ∀ c ∈ b.lines[l]?, b.registered[c.id]? ≠ some l))
  | .call (.enter id _ _) => inferInstanceAs (Decidable (b.registered[id]? = none))
  | .register l => inferInstanceAs (Decidable
      (∀ c ∈ b.lines[l]?, b.registered[c.id]? = none ∨ b.registered[c.id]? = some l))
  | .make .. | .call (.unregister _) | .call (.identify _ _) | .call (.subscribe _ _)
  | .call (.unsubscribe _ _) | .call (.sweep _) | .call .shutdown | .call (.broadcast _)
  | .call (.toChannel _ _) | .call (.toUser _ _) | .call (.send _ _) | .call (.close _)
  | .call (.touch _ _) | .call (.receive _) | .call (.forsake _) | .call (.frame ..) =>
    inferInstanceAs (Decidable True)

theorem Operation.Orderly.unrivalled (h : o.Orderly b) : o.Unrivalled b := by
  cases o with
  | call k => cases k <;> exact h
  | register l => exact h
  | _ => trivial

theorem Operation.Orderly.mem_deeds (ho : o.Orderly b) (h : b.Grounded)
    (hl : b.registered[id]? = some l) {a : Act} (ha : a.Telling) :
    a ∈ b.deeds l o ↔ a ∈ b.errands l o := by
  obtain ⟨c, hc, rfl⟩ := h.named hl
  refine mem_deeds_iff ha ?_
  rintro rfl
  exact ho ha c hc hl

/-- The board is grounded, and nobody is listed under a channel but registered connections that have
subscribed to it. -/
structure Candid (b : Board) : Prop extends Grounded b where
  channels : ∀ {id : ConnectionId} {channel : String}, id ∈ b.channels.listed channel →
    ∃ l, b.registered[id]? = some l ∧ b.Avows l channel

theorem candid_empty (policy : Policy) : (Board.empty policy).Candid where
  toGrounded := grounded_empty policy
  channels := by simp [Board.empty]

/-- Whoever is listed is registered, and belongs there. -/
theorem Candid.claims {p : Place} (h : b.Candid) (hp : p.Listed b id) :
    ∃ l, b.registered[id]? = some l ∧ b.Claims l p := by
  cases p with
  | user name =>
    obtain ⟨c, hc, hu⟩ := h.users hp
    obtain ⟨l, hl, hc⟩ := holder?_eq_some.1 hc
    exact ⟨l, hl, c, hc, hu⟩
  | channel name => exact h.channels hp

/-- **Orderly operations keep a board candid**, whatever the past of those who are registered. -/
theorem Candid.operate (h : b.Candid) (ho : o.Orderly b) : (b.operate o).Candid := by
  refine ⟨h.toGrounded.operate ho.unrivalled, fun {id channel} hm => ?_⟩
  rcases (h.mem_listed_operate o id channel).1 hm with ⟨l, hl, hj⟩ | ⟨hm, hv, hs, hd⟩
  · -- it has just been made to join the channel
    obtain ⟨-, hleavers, hs⟩ := errand_cases (a := .join channel) trivial hj
    obtain ⟨c, hc, -⟩ := h.named hl
    rcases registered_operate hl ho.unrivalled with ⟨hl', -⟩ | ⟨-, hs' | hd⟩
    · refine ⟨l, hl', _, getElem?_operate_of_some hc o, ?_⟩
      exact (mem_subscriptions_operate c l b o).2 (.inl (errands_subset l b o hj))
    · exact absurd hs' hs
    · rw [hleavers] at hd
      cases hd
  · -- it has been there before, and has not left
    obtain ⟨l, hl, havows⟩ := h.channels hm
    obtain ⟨c, hc, hsub⟩ := havows
    rcases registered_operate hl ho.unrivalled with ⟨hl', -⟩ | ⟨-, hs' | hd'⟩
    · refine ⟨l, hl', _, getElem?_operate_of_some hc o, ?_⟩
      refine (mem_subscriptions_operate c l b o).2 (.inr ⟨hsub, ?_⟩)
      rw [ho.mem_deeds h.toGrounded hl (a := .leave channel) trivial]
      exact fun hv' => hv ⟨l, hl, hv'⟩
    · exact absurd hs' hs
    · exact absurd ⟨l, hd', c, hc, hsub⟩ hd

/-! ### Who is left out -/

/-- Nobody who stays on the board is left out for the first time, and whoever has been left out
remains so until the board turns to the place. -/
theorem Candid.leavesOut_of_stays {p : Place} (h : b.Candid) (ho : o.Orderly b)
    (hl : b.registered[id]? = some l) (hs : o ≠ .call .shutdown) (hd : (id, l) ∉ b.leavers o) :
    (b.operate o).Claims l p ∧ ¬ p.Listed (b.operate o) id ↔
      (b.Claims l p ∧ ¬ p.Listed b id) ∧ ¬ ∃ a ∈ b.errands l o, p.Turns a := by
  obtain ⟨c, hc, -⟩ := h.named hl
  have hafter : (b.operate o).Claims l p ↔ p.Claimed (c.run (b.deeds l o)) := by
    simp [Claims, getElem?_operate_of_some hc o]
  have hbefore : b.Claims l p ↔ p.Claimed c := by simp [Claims, hc]
  -- it is not taken off under another number either
  have hnot : ∀ l', (id, l') ∉ b.leavers o := by
    intro l' hd'
    cases hl.symm.trans (registered_of_mem_leavers hd')
    exact hd hd'
  rw [hafter, hbefore]
  cases p with
  | user name =>
    have hlisted := h.mem_users_operate o id name
    simp only [hl, Option.some.injEq, exists_eq_left', hs, hnot, ne_eq, not_false_eq_true,
      exists_false, and_true] at hlisted
    simp only [Place.Claimed, Place.Listed, Place.Turns, hlisted, and_false, exists_false,
      not_false_eq_true, and_true, not_or]
    rcases hi : c.identity with - | who
    · -- if it has an identity now, the board has given it
      have hno : c.user? ≠ some name := by simp [Connection.user?, hi]
      refine iff_of_false ?_ fun hb => hno hb.1
      rintro ⟨hu, hgains, -⟩
      obtain ⟨who, hi', hname⟩ := Option.map_eq_some_iff.1 hu
      have hm := Connection.mem_of_identity_run hi hi'
      rw [ho.mem_deeds h.toGrounded hl (a := .identify who) trivial] at hm
      exact hgains ⟨⟨c, hc, hi⟩, who, hm, hname⟩
    · -- it has had one before, and has the same one
      have hgains : ¬ b.Gains l name (b.errands l o) := by
        rintro ⟨⟨c', hc', hi'⟩, -⟩
        cases hc.symm.trans hc'
        cases hi.symm.trans hi'
      simp [Connection.user?, Connection.identity_run hi, hi, hgains]
  | channel name =>
    have hlisted := h.mem_listed_operate o id name
    simp only [hl, Option.some.injEq, exists_eq_left', hs, hnot, ne_eq, not_false_eq_true,
      exists_false, false_and, and_true] at hlisted
    have hclaimed : name ∈ (c.run (b.deeds l o)).subscriptions ↔ _ :=
      mem_subscriptions_operate c l b o
    rw [ho.mem_deeds h.toGrounded hl (a := .join name) trivial,
      ho.mem_deeds h.toGrounded hl (a := .leave name) trivial] at hclaimed
    have hturns : (∃ a ∈ b.errands l o, (Place.channel name).Turns a) ↔
        .join name ∈ b.errands l o ∨ .leave name ∈ b.errands l o := by
      simp [Place.Turns, and_or_left, exists_or]
    simp only [Place.Claimed, Place.Listed, hlisted, hclaimed, hturns]
    grind

/-- Whoever comes onto the board is left out of where it belongs already. -/
theorem Candid.leavesOut_of_comes {p : Place} (h : b.Candid) (hn : b.registered[id]? = none) :
    (b.operate o).LeavesOut id l p ↔ o = .register l ∧ b.Brings id l p := by
  constructor
  · rintro ⟨hl, ⟨c, hc, hp⟩, -⟩
    rcases registered_operate_of_none hn hl with ⟨rfl, hopen, c₀, hc₀, hid⟩ | hnew
    · refine ⟨rfl, hopen, hn, c₀, hc₀, hid, ?_⟩
      -- it is registered as it is
      rw [getElem?_operate_of_some hc₀, deeds, if_neg (by simp [hopen])] at hc
      cases hc
      exact hp
    · obtain ⟨id', capacity, now, c₀, as, -, hnew, has, rfl⟩ := getElem?_operate_of_none hnew hc
      exact absurd hp (Place.not_claimed_of_new hnew has p)
  · rintro ⟨rfl, hopen, -, c, hc, rfl, hp⟩
    have hno : ¬ p.Listed b c.id := by
      intro hm
      obtain ⟨l', hl', -⟩ := h.claims hm
      cases hn.symm.trans hl'
    have e : b.operate (.register l) = { b with registered := b.registered.insert c.id l } := by
      rcases register_cases hc with ⟨hclosing, -⟩ | ⟨-, e⟩
      · cases hopen.symm.trans hclosing
      · exact e
    rw [e]
    refine ⟨by simp, ⟨c, hc, hp⟩, ?_⟩
    cases p with
    | _ => exact hno

/-- **How connections are left out**: they are registered with a past; and how they are not any
more. -/
theorem Candid.leavesOut_operate {p : Place} (h : b.Candid) (ho : o.Orderly b) :
    (b.operate o).LeavesOut id l p ↔
      o = .register l ∧ b.Brings id l p ∨ b.LeavesOut id l p ∧ ¬ b.Redresses id l p o := by
  rcases hl : b.registered[id]? with - | l₀
  · rw [h.leavesOut_of_comes hl]
    simp [LeavesOut, hl]
  · have hno : ¬ b.Brings id l p := fun hb => by cases hl.symm.trans hb.2.1
    rcases registered_operate hl ho.unrivalled with ⟨hl', hs, hd⟩ | ⟨hn', hgone⟩
    · by_cases e : l₀ = l
      · subst e
        have hstays := h.leavesOut_of_stays (p := p) ho hl hs hd
        simp only [LeavesOut, Redresses, hl, hl', hs, hd, hno, true_and, and_false, or_false,
          false_or]
        exact hstays
      · simp [LeavesOut, hl, hl', e, hno]
    · -- it is taken off the board
      refine iff_of_false (fun hout => by cases hn'.symm.trans hout.1) ?_
      rintro (⟨-, hb⟩ | ⟨⟨hl', -⟩, hr⟩)
      · exact hno hb
      · cases hl.symm.trans hl'
        exact hr (.inr hgone)

/-! ### Runs -/

/-- A message to all goes to whoever belongs to a user, by its own account. -/
theorem mem_everyone_iff_claims (hl : b.registered[id]? = some l) :
    l ∈ b.everyone ↔ ∃ user, b.Claims l (.user user) := by
  rw [mem_everyone]
  constructor
  · rintro ⟨c, -, hc, hi⟩
    obtain ⟨who, hi⟩ := Option.isSome_iff_exists.1 hi
    exact ⟨who.user, c, hc, by rw [Place.Claimed, Connection.user?, hi, Option.map_some]⟩
  · rintro ⟨user, c, hc, hu⟩
    obtain ⟨who, hi, -⟩ := Option.map_eq_some_iff.1 hu
    exact ⟨c, ⟨id, hl⟩, hc, Option.isSome_iff_exists.2 ⟨who, hi⟩⟩

/-- **A past is not made up for by a registration.**  In a run whose operations are orderly nobody
is listed but whoever is registered and belongs to the place, and under a user nobody is listed
twice.  A message to a user or to a channel is offered to those who are listed there, and one to all
to whoever has an identity.  But a connection on the board is left out of a place where it belongs
if it has belonged there already when it was registered, and this has not been redressed since; and
it is left out of no other. -/
theorem left_out_iff {policy : Policy} {os : List Operation}
    (ho : (Board.empty policy).Throughout Operation.Orderly os) :
    let b := (Board.empty policy).through os
    (∀ id p, p.Listed b id → ∃ l, b.registered[id]? = some l ∧ b.Claims l p) ∧
    (∀ user, (b.users.listed user).Nodup) ∧
    ∀ id l, b.registered[id]? = some l →
      (l ∈ b.everyone ↔ ∃ user, b.Claims l (.user user)) ∧
      ∀ p, (l ∈ p.recipients b ↔ p.Listed b id) ∧
        (b.Claims l p → (¬ p.Listed b id ↔ ∃ os₁ os₂, os = os₁ ++ .register l :: os₂ ∧
          ((Board.empty policy).through os₁).Brings id l p ∧
          ((Board.empty policy).through (os₁ ++ [.register l])).Throughout
            (fun b o => ¬ b.Redresses id l p o) os₂)) := by
  intro b
  have hempty := candid_empty policy
  have hb : b.Candid := ho.keeps Candid.operate hempty
  refine ⟨fun id p hp => hb.claims hp, hb.once, fun id l hl => ⟨mem_everyone_iff_claims hl, ?_⟩⟩
  intro p
  refine ⟨Place.mem_recipients hb.toGrounded hl, fun hclaims => ?_⟩
  have hblank : ¬ (Board.empty policy).LeavesOut id l p := by
    rintro ⟨hl', -⟩
    simp [Board.empty] at hl'
  have hout : b.LeavesOut id l p ↔ ¬ p.Listed b id := by simp [LeavesOut, hl, hclaims]
  rw [← hout, ho.iff_since (fun b => b.LeavesOut id l p) (fun b => b.Brings id l p)
    (fun b o => b.Redresses id l p o) Candid.operate Candid.leavesOut_operate hempty]
  simp only [hblank, false_and, false_or]

/-- A connection has an identity and two subscriptions.  It is taken off the board, and registered
again. -/
def homecoming : List Operation :=
  [.call (.enter 1 4 0), .call (.identify 1 ⟨"ann", "a"⟩), .call (.subscribe 1 "doc"),
    .call (.subscribe 1 "news"), .call (.unregister 1), .register 0]

/-- It is listed again where it subscribes again, and nowhere else. -/
theorem left_out_iff_homecoming :
    let b := (Board.empty .standard).through (homecoming ++ [.call (.subscribe 1 "news")])
    (Board.empty .standard).Throughout Operation.Orderly
        (homecoming ++ [.call (.subscribe 1 "news")]) ∧
      b.registered[1]? = some 0 ∧ 0 ∈ b.everyone ∧ 1 ∉ b.users.listed "ann" ∧
      1 ∉ b.channels.listed "doc" ∧ 0 ∈ b.subscribers "news" := by
  intro b
  have ho : (Board.empty .standard).Throughout Operation.Orderly
      (homecoming ++ [.call (.subscribe 1 "news")]) := by decide +kernel
  have hl : b.registered[1]? = some 0 := by decide +kernel
  have hnews : 1 ∈ b.channels.listed "news" := by decide +kernel
  have hann : b.Claims 0 (.user "ann") := by decide +kernel
  have hdoc : b.Claims 0 (.channel "doc") := by decide +kernel
  obtain ⟨-, -, hplaces⟩ := left_out_iff ho
  obtain ⟨heveryone, hplaces⟩ := hplaces 1 0 hl
  have herrands : ∀ a ∈ ((Board.empty .standard).through homecoming).errands 0
      (.call (.subscribe 1 "news")), a = .join "news" := by
    intro a ha
    change a ∈ plainActs 0 _ (.subscribe 1 "news") at ha
    rw [plainActs] at ha
    split at ha
    · exact (mem_aimed.1 ha).2
    · cases ha
  -- it is left out of what it has brought, but for what it has subscribed to again
  have hout : ∀ p, b.Claims 0 p →
      ((Board.empty .standard).through (homecoming.take 5)).Brings 1 0 p →
      ¬ p.Turns (.join "news") → ¬ p.Listed b 1 := by
    intro p hclaims hbrings hturns
    refine ((hplaces p).2 hclaims).2 ⟨homecoming.take 5, [_], rfl, hbrings, ?_, trivial⟩
    rintro (⟨a, ha, hp⟩ | hs | hd)
    · rw [herrands a ha] at hp
      exact hturns hp
    · cases hs
    · cases hd
  refine ⟨ho, hl, heveryone.2 ⟨"ann", hann⟩, ?_, ?_, (hplaces (.channel "news")).1.2 hnews⟩
  · exact hout (.user "ann") hann (by decide +kernel) id
  · exact hout (.channel "doc") hdoc (by decide +kernel) (by simp [Place.Turns])

/-- It has an identity and a subscription, and gets what is sent to all, but nothing of what is
sent to its user or its channel. -/
theorem not_listed_homecoming :
    let b := (Board.empty .standard).through homecoming
    (Board.empty .standard).Throughout Operation.Orderly homecoming ∧ b.registered[1]? = some 0 ∧
      b.Claims 0 (.user "ann") ∧ b.Claims 0 (.channel "doc") ∧ b.everyone = [0] ∧
      b.ofUser "ann" = [] ∧ b.subscribers "doc" = [] ∧ b.stats = ⟨1, 0, 0⟩ := by
  decide +kernel

end Board

end Switchboard
