/-
Switchboard/Proofs/Board/Strangers.lean

What reaches a client that has not proved its identity.

Delivery to a channel does not ask who its subscribers are.  It relies on
nobody having subscribed without an identity, which is asked of every request
that comes in a frame.  So in a run in which clients subscribe by their frames
only, a stranger, that is a connection without an identity, is in no channel
(`Reserved`), and no call sends it anything but the reply to a frame of its
own; and of these there are three kinds, pongs, errors and refusals.

A call is gone through as a list of acts of the stranger's connection: but
for that reply they are all `Mild`.
-/
import Switchboard.Proofs.Board.Acts
import Switchboard.Proofs.Board.Fanout

namespace Switchboard

open Connection (Act)

/-- The bodies that a stranger is answered with. -/
def Body.ForStrangers : Body → Prop
  | .pong _ | .error .. => True
  | .authResult result => result.success = false
  | _ => False

/-- An act that neither sends a message nor joins a channel. -/
def Connection.Act.Mild : Act → Prop
  | .send _ | .join _ => False
  | _ => True

namespace Board

variable {b b' : Board} {l : LineNumber} {c : Connection} {k : Call} {ks : List Call}
  {policy : Policy} {check : Check} {now : Nat} {draw : Draw} {content : Bytes} {m : Envelope}

/-- A call that leaves it to the clients' frames to subscribe them, and sends nothing to a single
connection. -/
def Call.ThroughFrames : Call → Prop
  | .subscribe .. | .send .. => False
  | _ => True

instance : (k : Call) → Decidable k.ThroughFrames
  | .subscribe .. | .send .. => inferInstanceAs (Decidable False)
  | .enter .. | .unregister _ | .identify .. | .unsubscribe .. | .sweep _ | .shutdown
  | .broadcast _ | .toChannel .. | .toUser .. | .close _ | .touch .. | .receive _ | .forsake _
  | .frame .. => inferInstanceAs (Decidable True)

/-- A call that neither sends anything to a given connection as such nor subscribes it. -/
def Call.Spares (l : LineNumber) (b : Board) : Call → Prop
  | .subscribe id _ => b.find? id ≠ some l
  | .send l' _ => l' ≠ l
  | _ => True

/-- Strangers are in no channel. -/
def Reserved (b : Board) : Prop :=
  ∀ (l : LineNumber) (c : Connection), b.lines[l]? = some c → c.identity = none →
    c.subscriptions = ∅

/-! ### Calls that are not about the stranger -/

theorem not_mem_everyone (hc : b.lines[l]? = some c) (hi : c.identity = none) :
    l ∉ b.everyone := by
  rw [mem_everyone]
  rintro ⟨c', -, hc', hp⟩
  cases hc.symm.trans hc'
  simp [Connection.isIdentified, hi] at hp

theorem InStep.not_mem_ofUser (h : b.InStep) (hc : b.lines[l]? = some c)
    (hi : c.identity = none) (user : String) : l ∉ b.ofUser user := by
  rw [h.mem_ofUser]
  rintro ⟨c', -, hc', hp⟩
  cases hc.symm.trans hc'
  simp [Connection.user?, hi] at hp

theorem Reserved.not_mem_subscribers (hb : b.Reserved) (h : b.InStep) (hc : b.lines[l]? = some c)
    (hi : c.identity = none) (channel : String) : l ∉ b.subscribers channel := by
  rw [h.mem_subscribers]
  rintro ⟨c', -, hc', hp⟩
  cases hc.symm.trans hc'
  simp [hb l c hc hi] at hp

/-- **No call reaches a stranger** with a message unless it is meant for the stranger alone. -/
theorem Reserved.mild_plainActs (hb : b.Reserved) (h : b.InStep) (hc : b.lines[l]? = some c)
    (hi : c.identity = none) (hk : k.Spares l b) : ∀ a ∈ plainActs l b k, a.Mild := by
  intro a ha
  cases k with
  | enter | unregister | frame => cases ha
  | subscribe id channel =>
    -- the name leads to someone else
    have hno : l ∉ (b.find? id).toList := by
      rw [Option.mem_toList]
      exact hk
    rw [plainActs] at ha
    split at ha
    · rw [aimed_eq_nil hno] at ha
      cases ha
    · cases ha
  | unsubscribe id channel =>
    rw [plainActs] at ha
    split at ha
    · rw [(mem_aimed.1 ha).2]
      trivial
    · cases ha
  | broadcast m =>
    rw [plainActs, aimed_eq_nil (not_mem_everyone hc hi)] at ha
    cases ha
  | toChannel channel m =>
    rw [plainActs, aimed_eq_nil (hb.not_mem_subscribers h hc hi channel)] at ha
    cases ha
  | toUser user m =>
    rw [plainActs, aimed_eq_nil (h.not_mem_ofUser hc hi user)] at ha
    cases ha
  | send l' m =>
    have hno : l ∉ [l'] := fun hm => hk (List.mem_singleton.1 hm).symm
    rw [plainActs, aimed_eq_nil hno] at ha
    cases ha
  | identify id who | sweep now | shutdown | close l' | touch l' now | receive l' | forsake l' =>
    rw [(mem_aimed.1 ha).2]
    trivial

/-! ### Frames -/

/-- What a client asks for does not concern another that is a stranger; and what a stranger asks for
itself is no subscription. -/
theorem InStep.spares_request? {l' : LineNumber} (h : b.InStep) (hc : b.lines[l]? = some c)
    (hi : c.identity = none) (hk : b.request? check now draw l' m = some k) : k.Spares l b := by
  rw [request?] at hk
  rcases hc' : b.lines[l']? with - | c'
  · simp [hc'] at hk
  · simp only [hc'] at hk
    cases hb : m.body with
    | subscribe channel =>
      simp only [hb] at hk
      split at hk
      · rename_i hident
        cases hk
        intro hfind
        -- whoever is registered under the client's name is the client
        obtain rfl : l = l' := h.line_eq_of_registered hfind hc'
        cases hc.symm.trans hc'
        simp [Connection.isIdentified, hi] at hident
      · cases hk
    | auth token =>
      simp only [hb] at hk
      split at hk
      · cases hk
      · split at hk <;> cases hk
        trivial
    | publish channel data =>
      simp only [hb] at hk
      split at hk
      · split at hk <;> cases hk
        trivial
      · cases hk
    | unsubscribe channel =>
      simp only [hb] at hk
      split at hk <;> cases hk
      trivial
    | ping =>
      simp only [hb] at hk
      cases hk
      trivial
    | _ => simp [hb] at hk

/-- **What a call is to a stranger**: nothing but mild acts, and after these perhaps the reply to a
frame of its own. -/
theorem Reserved.acts_cases (hb : b.Reserved) (h : b.InStep) (hc : b.lines[l]? = some c)
    (hi : c.identity = none) (hk : k.ThroughFrames) : ∃ as, (∀ a ∈ as, a.Mild) ∧
      (b.acts l k = as ∨ ∃ check now draw content m, k = .frame check now draw l content ∧
        b.reply? check now draw l content = some m ∧ b.acts l k = as ++ [.send m]) := by
  by_cases hp : k.Plain
  · refine ⟨b.acts l k, ?_, .inl rfl⟩
    rw [acts_of_plain hp]
    refine hb.mild_plainActs h hc hi ?_
    cases k with
    | subscribe | send => exact hk.elim
    | _ => trivial
  · cases k with
    | frame check now draw l' content =>
      have hmild : ∀ a ∈ b.trace (plainActs l) (b.asked? check now draw l' content).toList,
          a.Mild := by
        rw [asked?]
        rcases Envelope.ofBytes draw.received content with f | m
        · simp [trace, logged]
        · rcases e : b.request? check now draw l' m with - | k
          · simp [e, trace, logged]
          · simpa [e, trace, logged] using
              hb.mild_plainActs h hc hi (h.spares_request? hc hi e)
      refine ⟨_, hmild, ?_⟩
      rw [acts_frame]
      rcases e : b.reply? check now draw l' content with - | m
      · exact .inl (List.append_nil _)
      · by_cases hl : l' = l
        · subst hl
          exact .inr ⟨check, now, draw, content, m, rfl, e, by simp [aimed]⟩
        · left
          have hno : l ∉ [l'] := fun hm => hl (List.mem_singleton.1 hm).symm
          simp [aimed_eq_nil hno]
    | _ => exact absurd trivial hp

/-! ### Replies -/

/-- What comes of a stranger's request. -/
inductive Rebuff (b : Board) (l : LineNumber) (id : ConnectionId) : Outcome × Board → Prop where
  | pong (time : Instant) (now : Nat) : Rebuff b l id (.answer (.pong time), b.touch l now)
  | fault (f : Fault) : Rebuff b l id (.fault f, b)
  | broken : Rebuff b l id (.broken, b)
  | refused (reason : String) : Rebuff b l id (.answer (.authResult (.refused reason)), b)
  /-- The client is a stranger no longer. -/
  | accepted {b' : Board} (who : Identity) : b.identify id who = .ok b' →
      Rebuff b l id (.answer (.authResult (.accepted who)), b')

theorem rebuff_dispatch (hc : b.lines[l]? = some c) (hi : c.identity = none) (check : Check)
    (now : Nat) (draw : Draw) (m : Envelope) :
    Rebuff b l c.id (b.dispatch check now draw l m) := by
  have hno : ¬ c.isIdentified = true := by simp [Connection.isIdentified, hi]
  rw [dispatch, hc]
  cases m.body with
  | ping => exact .pong m.time now
  | auth token =>
    simp only [authenticate, if_neg hno]
    cases check draw.session token with
    | broken => exact .broken
    | refused reason => exact .refused reason
    | accepted who =>
      obtain ⟨b', hok, e⟩ | ⟨f, -, e⟩ :=
        answering_cases b (.authResult (.accepted who)) (b.identify c.id who)
      · simp only [e]
        exact .accepted who hok
      · simp only [e]
        exact .fault f
  | subscribe channel | unsubscribe channel | publish channel data =>
    simp only [if_neg hno]
    exact .fault _
  | _ => exact .fault _

theorem InStep.identity_identify {who : Identity} (h : b.InStep) (hc : b.lines[l]? = some c)
    (hb : b.identify c.id who = .ok b') :
    ∃ c', b'.lines[l]? = some c' ∧ c'.identity = some who := by
  obtain ⟨l', c', hl', hc', -, rfl⟩ := identify_eq_ok hb
  obtain rfl : l' = l := h.line_eq_of_registered hl' hc
  exact ⟨_, getElem?_modify_self hc', rfl⟩

/-- **A stranger is answered by a pong, an error or a refusal**, unless the frame has made it
known. -/
theorem InStep.forStrangers_reply? (h : b.InStep) (hc : b.lines[l]? = some c)
    (hi : c.identity = none) (hm : b.reply? check now draw l content = some m) :
    m.body.ForStrangers ∨ ∃ c', (b.after (.frame check now draw l content)).lines[l]? = some c' ∧
      c'.identity ≠ none := by
  show _ ∨ ∃ c', (b.handleFrame check now draw l content).2.lines[l]? = some c' ∧ _
  rw [reply?] at hm
  rw [Board.handleFrame]
  rcases hof : Envelope.ofBytes draw.received content with failure | request
  · simp only [hof, Option.some.injEq] at hm
    rw [← hm]
    exact .inl trivial
  · simp only [hof] at hm ⊢
    have hr := rebuff_dispatch hc hi check now draw request
    rw [handle] at hm ⊢
    generalize b.dispatch check now draw l request = result at hr hm ⊢
    cases hr with
    | pong | fault =>
      cases hm
      exact .inl trivial
    | refused =>
      cases hm
      exact .inl rfl
    | broken => cases hm
    | accepted who hok =>
      cases hm
      right
      obtain ⟨c', hc', hwho⟩ := h.identity_identify hc hok
      let reply := Envelope.reply draw.reply request (.authResult (.accepted who))
      -- and it stays known while the reply is put into its queue
      have hknown : (c'.run (aimed l [l] (.send reply))).identity = some who :=
        Connection.run_keeps (P := fun c => c.identity = some who)
          (fun a h => Connection.identity_after a h) hwho _
      refine ⟨c'.run (aimed l [l] (.send reply)), ?_, by simp [hknown]⟩
      show (offer _ l reply).2.lines[l]? = _
      rw [getElem?_offer, getElem?_modify_after, hc']
      rfl

/-! ### Runs -/

theorem subscriptions_after {a : Act} (ha : a.Mild ∨ ∃ m, a = .send m)
    (hs : c.subscriptions = ∅) : (c.after a).subscriptions = ∅ := by
  cases a with
  | send m =>
    rcases c.send_cases m with ⟨e, -⟩ | ⟨f, e⟩ <;>
      simpa [Connection.after, Connection.orKeep, e, Connection.push] using hs
  | take => exact (Connection.subscriptions_eq_of_standing c.standing_receive).trans hs
  | identify who =>
    rcases e : c.identity with - | old <;>
      simpa [Connection.after, Connection.orKeep, Connection.identify, e] using hs
  | join channel => simp [Act.Mild] at ha
  | leave channel => simp [Connection.after, Connection.leave, hs]
  | _ => exact hs

theorem subscriptions_run {as : List Act} (has : ∀ a ∈ as, a.Mild ∨ ∃ m, a = .send m)
    (hs : c.subscriptions = ∅) : (c.run as).subscriptions = ∅ := by
  induction as generalizing c with
  | nil => exact hs
  | cons a as ih =>
    obtain ⟨ha, has⟩ := List.forall_mem_cons.1 has
    exact ih has (subscriptions_after ha hs)

theorem reserved_empty (policy : Policy) : (Board.empty policy).Reserved := by
  intro l c hc
  simp [Board.empty] at hc

/-- No call gives a stranger a channel. -/
theorem Reserved.after (hb : b.Reserved) (h : b.InStep) (hk : k.ThroughFrames) :
    (b.after k).Reserved := by
  intro l c' hc' hi'
  rcases hc : b.lines[l]? with - | c
  · -- it has come to be by the call, and is blank
    obtain ⟨id, capacity, now, c₀, as, -, hnew, has, rfl⟩ := getElem?_after_of_none hc hc'
    obtain ⟨-, rfl⟩ := Connection.new?_eq_some hnew
    refine subscriptions_run (fun a ha => .inl ?_) rfl
    rw [has a ha]
    trivial
  · rw [getElem?_after_of_some hc] at hc'
    cases hc'
    have hi := Connection.identity_eq_none_of_run hi'
    refine subscriptions_run ?_ (hb l c hc hi)
    intro a ha
    obtain ⟨as, has, e | ⟨_, _, _, _, m, -, -, e⟩⟩ := hb.acts_cases h hc hi hk
    · rw [e] at ha
      exact .inl (has a ha)
    · rw [e] at ha
      rcases List.mem_append.1 ha with ha | ha
      · exact .inl (has a ha)
      · exact .inr ⟨m, List.mem_singleton.1 ha⟩

theorem Reserved.run (hb : b.Reserved) (h : b.InStep) (hf : FreshRun b ks)
    (hks : ∀ k ∈ ks, k.ThroughFrames) : (b.run ks).Reserved := by
  induction ks generalizing b with
  | nil => exact hb
  | cons k ks ih =>
    obtain ⟨hk, hks⟩ := List.forall_mem_cons.1 hks
    exact ih (hb.after h hk) (h.after k hf.1) hf.2 hks

/-- **What one call sends to a stranger** that is one still afterwards. -/
theorem Reserved.accepted_cases {c' : Connection} (hb : b.Reserved) (h : b.InStep)
    (hk : k.ThroughFrames) (hc' : (b.after k).lines[l]? = some c') (hi' : c'.identity = none)
    (hm : m ∈ b.accepted l k) : m.body.ForStrangers ∧ ∃ check now draw content,
      k = .frame check now draw l content ∧ b.reply? check now draw l content = some m := by
  rcases hc : b.lines[l]? with - | c
  · simp [accepted, hc] at hm
  · have hrun := getElem?_after_of_some hc k
    cases hc'.symm.trans hrun
    have hi := Connection.identity_eq_none_of_run hi'
    simp only [accepted, hc] at hm
    have hsend := Connection.exists_send_of_mem_accepted hm
    obtain ⟨as, has, e | ⟨check, now, draw, content, m', rfl, hreply, e⟩⟩ :=
      hb.acts_cases h hc hi hk
    · rw [e] at hsend
      exact (has _ hsend).elim
    · rw [e] at hsend
      rcases List.mem_append.1 hsend with hs | hs
      · exact (has _ hs).elim
      · obtain rfl : m = m' := by simpa using hs
        refine ⟨?_, check, now, draw, content, rfl, hreply⟩
        rcases h.forStrangers_reply? hc hi hreply with hbody | ⟨c', hc', hne⟩
        · exact hbody
        · -- otherwise it would be a stranger no longer
          cases hc'.symm.trans hrun
          exact absurd hi' hne

theorem InStep.not_listed (h : b.InStep) (hb : b.Reserved) (hc : b.lines[l]? = some c)
    (hi : c.identity = none) :
    (∀ user : String, c.id ∉ b.users.listed user) ∧
      ∀ channel : String, c.id ∉ b.channels.listed channel := by
  -- whoever holds the name is the connection itself
  have hself : ∀ c', b.holder? c.id = some c' → c' = c := by
    intro c' hc'
    obtain ⟨l', hl', hc'⟩ := holder?_eq_some.1 hc'
    obtain rfl : l' = l := h.line_eq_of_registered hl' hc
    exact Option.some.inj (hc'.symm.trans hc)
  constructor
  · intro user hu
    obtain ⟨c', hc', hp⟩ := (h.users user c.id).1 hu
    rw [hself c' hc', Connection.user?, hi] at hp
    cases hp
  · intro channel hm
    obtain ⟨c', hc', hp⟩ := (h.channels channel c.id).1 hm
    rw [hself c' hc', hb l c hc hi] at hp
    simp at hp

/-- **Strangers get nothing but replies.**  In a run in which clients subscribe by their frames
only, whatever was accepted for a connection that has no identity was the reply to a frame of its
own, and a pong, an error or a refusal; nothing else ever waits for it, and the connection is listed
neither under a user nor under a channel. -/
theorem stranger_gets_replies {policy : Policy} {ks : List Call}
    (hf : FreshRun (Board.empty policy) ks) (hks : ∀ k ∈ ks, k.ThroughFrames) {l : LineNumber}
    {c : Connection} (hc : ((Board.empty policy).run ks).lines[l]? = some c)
    (hi : c.identity = none) :
    (∀ ks₁ k ks₂, ks = ks₁ ++ k :: ks₂ →
      ∀ m ∈ ((Board.empty policy).run ks₁).accepted l k, m.body.ForStrangers ∧
        ∃ check now draw content, k = .frame check now draw l content ∧
          ((Board.empty policy).run ks₁).reply? check now draw l content = some m) ∧
    (∀ m ∈ c.outbox.waiting, ∃ ks₁ k ks₂, ks = ks₁ ++ k :: ks₂ ∧
      m ∈ ((Board.empty policy).run ks₁).accepted l k) ∧
    (∀ user : String, c.id ∉ ((Board.empty policy).run ks).users.listed user) ∧
    ∀ channel : String, c.id ∉ ((Board.empty policy).run ks).channels.listed channel := by
  have hreach : Reachable policy (Board.empty policy) := .empty
  have hempty := reserved_empty policy
  refine ⟨?_, ?_, (hreach.run hf).inStep.not_listed (hempty.run hreach.inStep hf hks) hc hi⟩
  · rintro ks₁ k ks₂ rfl m hm
    obtain ⟨hf₁, hf₂⟩ := freshRun_append.1 hf
    have hks₁ : ∀ k ∈ ks₁, k.ThroughFrames := fun k hk => hks k (List.mem_append_left _ hk)
    have hk : k.ThroughFrames := hks k (by simp)
    have hb := hempty.run hreach.inStep hf₁ hks₁
    have h := (hreach.run hf₁).inStep
    -- the connection is there after the call, since something was accepted for it before
    rcases h₁ : ((Board.empty policy).run ks₁).lines[l]? with - | c₁
    · simp [accepted, h₁] at hm
    · have hc₂ := getElem?_after_of_some h₁ k
      have hend : ∀ c', ((((Board.empty policy).run ks₁).after k).run ks₂).lines[l]? = some c' →
          c'.identity = none := by
        intro c' hc'
        rw [run_append] at hc
        cases hc'.symm.trans hc
        exact hi
      exact hb.accepted_cases h hk hc₂ (identity_eq_none_of_run hc₂ hend) hm
  · intro m hm
    rcases mem_waiting_run hc hm with ⟨c₀, hc₀, -⟩ | ht
    · simp [Board.empty] at hc₀
    · exact mem_logged.1 ht

/-- A check that takes everyone for Ann. -/
def trusting : Check := fun session _ => .accepted ⟨"ann", session⟩

/-- What is drawn for every frame. -/
def drawn : Draw := ⟨3, noon, noon, noon, "s"⟩

/-- A client sends a text. -/
def speak (l : LineNumber) (text : String) : Call := .frame trusting 0 drawn l (Utf8.ofString text)

/-- Of two clients one proves who it is, and both ask for a channel.  Then something is delivered to
the channel and to everyone. -/
def gathering : List Call :=
  [.enter 1 4 0, .enter 2 4 0,
    speak 0 "\x7b\"type\":\"auth\",\"data\":\x7b\"token\":\"t\"\x7d\x7d",
    speak 0 "\x7b\"type\":\"subscribe\",\"data\":\x7b\"channel\":\"doc\"\x7d\x7d",
    speak 1 "\x7b\"type\":\"subscribe\",\"data\":\x7b\"channel\":\"doc\"\x7d\x7d",
    speak 1 "\x7b\"type\":\"ping\"\x7d",
    .toChannel "doc" (.new noon .ping), .broadcast (.new noon .ping)]

/-- The other is a stranger still.  It has got two replies, and the first client four messages. -/
theorem stranger_gets_replies_gathering :
    FreshRun (Board.empty .standard) gathering ∧ (∀ k ∈ gathering, k.ThroughFrames) ∧
      (((Board.empty .standard).run gathering).waiting 0).length = 4 ∧
      ∃ c, ((Board.empty .standard).run gathering).lines[1]? = some c ∧ c.identity = none ∧
        c.outbox.size = 2 ∧ ∀ m ∈ c.outbox.waiting, m.body.ForStrangers := by
  have hf : FreshRun (Board.empty .standard) gathering := by decide +kernel
  have hks : ∀ k ∈ gathering, k.ThroughFrames := by decide
  have hc : (((Board.empty .standard).run gathering).lines[1]?).map
      (fun c => (c.identity, c.outbox.size)) = some (none, 2) := by decide +kernel
  obtain ⟨c, hc, e⟩ := Option.map_eq_some_iff.1 hc
  obtain ⟨hi, hsize⟩ : c.identity = none ∧ c.outbox.size = 2 := by simpa using e
  obtain ⟨hreplies, hwaiting, -⟩ := stranger_gets_replies hf hks hc hi
  refine ⟨hf, hks, by decide +kernel, c, hc, hi, hsize, fun m hm => ?_⟩
  obtain ⟨ks₁, k, ks₂, e, hm⟩ := hwaiting m hm
  exact (hreplies ks₁ k ks₂ e m hm).1

end Board

end Switchboard
