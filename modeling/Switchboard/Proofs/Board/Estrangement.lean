/-
Switchboard/Proofs/Board/Estrangement.lean

What is left of a connection that is taken off the board.

To take a connection off the lists of channels the board goes by what the
connection says of itself.  But a connection can leave a channel past the
board, by a method of its own, and then it is listed under a channel of which
it says nothing any more: it is `Estranged`.  There is no other way to become
so (`Known.estranged_operate`), and it lasts until the connection is made to
join the channel, until the board makes it leave it, or until the end.

Whoever is taken off the board in the meantime stays on that list, and for
its sake the channel is kept as well (`lingers_iff`).  All other traces of it
are gone.
-/
import Switchboard.Proofs.Board.Listing

namespace Switchboard.Board

open Connection (Act)

variable {b b' : Board} {id : ConnectionId} {l : LineNumber} {c : Connection} {k : Call}
  {o : Operation} {os : List Operation} {channel user : String}

/-- The connection of that number is listed under a channel. -/
def Lists (b : Board) (l : LineNumber) (channel : String) : Prop :=
  ∃ c, b.lines[l]? = some c ∧ c.id ∈ b.channels.listed channel

/-- The connection of that number is listed under a channel, and does not know of it. -/
def Estranged (b : Board) (l : LineNumber) (channel : String) : Prop :=
  ∃ c, b.lines[l]? = some c ∧ c.id ∈ b.channels.listed channel ∧ channel ∉ c.subscriptions

/-- After the operation the connection is not estranged from the channel: it is made to join the
channel, the board makes it leave it, or nobody is listed any more. -/
def Reconciles (l : LineNumber) (channel : String) (b : Board) (o : Operation) : Prop :=
  .join channel ∈ b.deeds l o ∨ .leave channel ∈ b.errands l o ∨ o = .call .shutdown

/-- None of several operations reconciles the connection with the channel. -/
def Unreconciled (l : LineNumber) (channel : String) : Board → List Operation → Prop :=
  Throughout fun b o => ¬ b.Reconciles l channel o

/-! ### One connection, one name -/

/-- Where no two connections have the same name, what the board does to the connection of a name it
does to the only one that has it. -/
theorem Founded.exists_errand_iff (h : b.Founded) (hc : b.lines[l]? = some c) {a : Act}
    (ha : a.Telling) :
    (∃ l', b.registered[c.id]? = some l' ∧ a ∈ b.errands l' o) ↔ a ∈ b.errands l o := by
  constructor
  · rintro ⟨l', hl', hm⟩
    rwa [h.line_eq_of_registered hl' hc] at hm
  · intro hm
    obtain ⟨⟨id, hl⟩, -⟩ := errand_cases ha hm
    obtain rfl := h.id_eq hl hc
    exact ⟨l, hl, hm⟩

/-- Who is listed under a channel after an operation, connection by connection. -/
theorem Founded.mem_listed_line (h : b.Founded) (hc : b.lines[l]? = some c) (o : Operation)
    (channel : String) : c.id ∈ (b.operate o).channels.listed channel ↔
      .join channel ∈ b.errands l o ∨
      c.id ∈ b.channels.listed channel ∧ .leave channel ∉ b.errands l o ∧ o ≠ .call .shutdown ∧
        ¬ ((c.id, l) ∈ b.leavers o ∧ channel ∈ c.subscriptions) := by
  have hgone : (∃ l', (c.id, l') ∈ b.leavers o ∧ b.Avows l' channel) ↔
      (c.id, l) ∈ b.leavers o ∧ channel ∈ c.subscriptions := by
    rw [← avows_iff hc]
    refine ⟨?_, fun hm => ⟨l, hm⟩⟩
    rintro ⟨l', hm, havows⟩
    obtain rfl := h.line_eq_of_registered (registered_of_mem_leavers hm) hc
    exact ⟨hm, havows⟩
  rw [h.mem_listed_operate, h.exists_errand_iff hc (a := .join channel) trivial,
    h.exists_errand_iff hc (a := .leave channel) trivial, hgone]

/-- The board is founded, and nobody is listed under a channel but by the name of a connection. -/
structure Known (b : Board) : Prop extends Founded b where
  channels : ∀ {id : ConnectionId} {channel : String}, b.Unused id →
    id ∉ b.channels.listed channel

theorem known_empty (policy : Policy) : (Board.empty policy).Known where
  toFounded := founded_empty policy
  channels := by simp [Board.empty]

theorem Known.operate (h : b.Known) (ho : o.Fresh b) : (b.operate o).Known := by
  refine ⟨h.toFounded.operate o ho, fun {id channel} hu hm => ?_⟩
  -- the connections that there were are there, and have their names
  have hbefore : b.Unused id := by
    rintro c hc rfl
    obtain ⟨l, hl⟩ := List.mem_iff_getElem?.1 hc
    have hl' := getElem?_operate_of_some hl o
    exact hu _ (List.mem_of_getElem? hl') (c.id_run _)
  rcases (h.mem_listed_operate o id channel).1 hm with ⟨l, hl, -⟩ | ⟨hm, -⟩
  · obtain ⟨c, hc, hid⟩ := h.named hl
    exact hbefore c (List.mem_of_getElem? hc) hid
  · exact h.channels hbefore hm

theorem Known.through (h : b.Known) (hf : b.Throughout Operation.Fresh os) :
    (b.through os).Known :=
  hf.keeps Known.operate h

/-- Whoever has just come to be is listed nowhere. -/
theorem Known.not_mem_listed (h : b.Known) (ho : o.Fresh b) (hn : b.lines[l]? = none)
    (hc : (b.operate o).lines[l]? = some c) : c.id ∉ (b.operate o).channels.listed channel := by
  obtain ⟨id, capacity, now, c₀, as, ho', hnew, -, rfl⟩ := getElem?_operate_of_none hn hc
  obtain ⟨-, rfl⟩ := Connection.new?_eq_some hnew
  rw [Connection.id_run]
  rcases ho' with rfl | rfl
  · rw [(indices_operate b _ fun _ => Operation.noConfusion).2]
    exact h.channels ho
  · rw [show (b.operate (.call (.enter id capacity now))).channels = b.channels from
      (indices_enter b id capacity now).2]
    exact h.channels ho

/-! ### How connections are estranged -/

/-- **How connections are estranged**: they leave past the board a channel under which they are
listed; and how they are not any more. -/
theorem Known.estranged_operate (h : b.Known) (ho : o.Fresh b) :
    (b.operate o).Estranged l channel ↔
      o = .act l (.leave channel) ∧ b.Lists l channel ∨
        b.Estranged l channel ∧ ¬ b.Reconciles l channel o := by
  rcases hc : b.lines[l]? with - | c
  · -- it has come to be just now, if it has at all
    have hno : ¬ (b.operate o).Estranged l channel := by
      rintro ⟨c, hc', hm, -⟩
      exact h.not_mem_listed ho hc hc' hm
    refine iff_of_false hno ?_
    rintro (⟨-, c, hc', -⟩ | ⟨⟨c, hc', -⟩, -⟩) <;> cases hc.symm.trans hc'
  · have hafter : (b.operate o).Estranged l channel ↔
        c.id ∈ (b.operate o).channels.listed channel ∧
          channel ∉ (c.run (b.deeds l o)).subscriptions := by
      simp [Estranged, getElem?_operate_of_some hc o, Connection.id_run]
    have hbefore : b.Estranged l channel ↔
        c.id ∈ b.channels.listed channel ∧ channel ∉ c.subscriptions := by simp [Estranged, hc]
    have hlists : b.Lists l channel ↔ c.id ∈ b.channels.listed channel := by simp [Lists, hc]
    rw [hafter, hbefore, hlists, h.mem_listed_line hc, mem_subscriptions_operate, Reconciles]
    by_cases hleave : o = .act l (.leave channel)
    · subst hleave
      simpa [deeds, errands, leavers, mem_aimed] using fun hm _ => hm
    · have hj : .join channel ∈ b.errands l o → .join channel ∈ b.deeds l o :=
        fun hm => errands_subset l b o hm
      have hv : .leave channel ∈ b.deeds l o ↔ .leave channel ∈ b.errands l o :=
        mem_deeds_iff trivial hleave
      rw [hv]
      grind

/-- How a connection has come to be estranged in the course of a run. -/
theorem Known.estranged_through (h : b.Known) (hf : b.Throughout Operation.Fresh os) :
    (b.through os).Estranged l channel ↔
      b.Estranged l channel ∧ Unreconciled l channel b os ∨
      ∃ os₁ os₂, os = os₁ ++ .act l (.leave channel) :: os₂ ∧ (b.through os₁).Lists l channel ∧
        Unreconciled l channel (b.through (os₁ ++ [.act l (.leave channel)])) os₂ :=
  hf.iff_since (fun b => b.Estranged l channel) (fun b => b.Lists l channel)
    (Reconciles l channel) Known.operate estranged_operate h

/-! ### Leaving the board -/

theorem fresh_of_mem_dropped (hd : (id, l) ∈ b.dropped k) : k.Fresh b := by
  cases k with
  | enter => cases hd
  | _ => trivial

theorem ne_shutdown_of_mem_dropped (hd : (id, l) ∈ b.dropped k) : k ≠ .shutdown := by
  rintro rfl
  cases hd

/-- To be taken off the board is at most to be closed. -/
theorem eq_close_of_mem_dropped {l' : LineNumber} {a : Act} (hd : (id, l) ∈ b.dropped k)
    (ha : a ∈ b.acts l' k) : a = .close := by
  cases k with
  | unregister id' => cases ha
  | sweep now => exact (mem_aimed.1 ha).2
  | _ => cases hd

theorem Known.after_of_mem_dropped (h : b.Known) (hd : (id, l) ∈ b.dropped k) :
    (b.after k).Known :=
  h.operate (o := .call k) (fresh_of_mem_dropped hd)

/-- **What is left under a channel** of a connection that is taken off the board. -/
theorem Founded.mem_listed_of_dropped (h : b.Founded) (hd : (c.id, l) ∈ b.dropped k)
    (hc : b.lines[l]? = some c) (channel : String) :
    c.id ∈ (b.after k).channels.listed channel ↔ b.Estranged l channel := by
  have hj : .join channel ∉ b.errands l (.call k) :=
    fun hm => Act.noConfusion (eq_close_of_mem_dropped hd hm)
  have hv : .leave channel ∉ b.errands l (.call k) :=
    fun hm => Act.noConfusion (eq_close_of_mem_dropped hd hm)
  have hgone : (c.id, l) ∈ b.leavers (.call k) := hd
  show c.id ∈ (b.operate (.call k)).channels.listed channel ↔ _
  rw [h.mem_listed_line hc]
  simp [hj, hv, hgone, ne_shutdown_of_mem_dropped hd, Estranged, hc]

/-- Nobody gets onto a list by that. -/
theorem Grounded.channels_subset_of_dropped (h : b.Grounded) (hd : (id, l) ∈ b.dropped k)
    {id' : ConnectionId} (hm : id' ∈ (b.after k).channels.listed channel) :
    id' ∈ b.channels.listed channel := by
  rcases (h.mem_listed_after k id' channel).1 hm with ⟨l', -, hj⟩ | ⟨hm, -⟩
  · cases eq_close_of_mem_dropped hd hj
  · exact hm

theorem Grounded.users_subset_of_dropped (h : b.Grounded) (hd : (id, l) ∈ b.dropped k)
    {id' : ConnectionId} (hm : id' ∈ (b.after k).users.listed user) :
    id' ∈ b.users.listed user := by
  rcases (h.mem_users_after k id' user).1 hm with ⟨l', -, -, who, hi, -⟩ | ⟨hm, -⟩
  · cases eq_close_of_mem_dropped hd hi
  · exact hm

/-- Whoever is taken off the board is listed under no user any more, and a user that had no other
connection is gone. -/
theorem Known.users_of_dropped (h : b.Known) (hd : (id, l) ∈ b.dropped k) (user : String) :
    id ∉ (b.after k).users.listed user ∧
      (b.users.listed user = [id] → user ∉ (b.after k).users) := by
  have h' := h.after_of_mem_dropped hd
  have hno : id ∉ (b.after k).users.listed user :=
    h'.not_mem_users (registered_after_of_mem_dropped hd) user
  refine ⟨hno, fun hone => ?_⟩
  rw [UserIndex.mem_iff_listed_ne_nil h'.usersTight, not_not]
  refine List.eq_nil_iff_forall_not_mem.2 fun id' hm => ?_
  have hbefore := h.users_subset_of_dropped hd hm
  rw [hone, List.mem_singleton] at hbefore
  exact hno (hbefore ▸ hm)

/-- A channel that had no other subscriber is gone as well, unless the connection is left there. -/
theorem Known.channel_of_dropped (h : b.Known) (hd : (c.id, l) ∈ b.dropped k)
    (hc : b.lines[l]? = some c) (hone : ∀ id', id' ∈ b.channels.listed channel ↔ id' = c.id) :
    channel ∈ (b.after k).channels ↔ b.Estranged l channel := by
  have h' := h.after_of_mem_dropped hd
  rw [ChannelIndex.mem_iff_exists h'.channelsTight, ← h.mem_listed_of_dropped hd hc]
  constructor
  · rintro ⟨id', hm⟩
    rwa [(hone id').1 (h.channels_subset_of_dropped hd hm)] at hm
  · exact fun hm => ⟨c.id, hm⟩

/-- Whoever is left under a channel stays there. -/
theorem Known.estranged_of_dropped (h : b.Known) (hd : (id, l) ∈ b.dropped k)
    (he : b.Estranged l channel) : (b.after k).Estranged l channel := by
  refine (h.estranged_operate (o := .call k) (fresh_of_mem_dropped hd)).2 (.inr ⟨he, ?_⟩)
  rintro (hj | hv | hs)
  · cases eq_close_of_mem_dropped hd hj
  · cases eq_close_of_mem_dropped hd hv
  · exact ne_shutdown_of_mem_dropped hd (Operation.call.inj hs)

/-- **Whoever is taken off the board leaves nothing behind but estranged channels.**  A connection
whose name is unregistered, or that is swept, is neither registered nor listed under a user any
more, and a user that had no other connection is gone.  But it stays listed under every channel
that it was listed under and has left past the board, and not been reconciled with since: there
alone, but there as long as it is not reconciled with it, and so long the channel is kept. -/
theorem lingers_iff {policy : Policy} {os : List Operation}
    (hf : (Board.empty policy).Throughout Operation.Fresh os) {k : Call} {id : ConnectionId}
    {l : LineNumber} (hd : (id, l) ∈ ((Board.empty policy).through os).dropped k) :
    let b := (Board.empty policy).through os
    (b.after k).registered[id]? = none ∧
    (∀ user, id ∉ (b.after k).users.listed user ∧
      (b.users.listed user = [id] → user ∉ (b.after k).users)) ∧
    ∀ channel,
      (id ∈ (b.after k).channels.listed channel ↔ ∃ os₁ os₂,
        os = os₁ ++ .act l (.leave channel) :: os₂ ∧
        ((Board.empty policy).through os₁).Lists l channel ∧ Unreconciled l channel
          ((Board.empty policy).through (os₁ ++ [.act l (.leave channel)])) os₂) ∧
      ((∀ id', id' ∈ b.channels.listed channel ↔ id' = id) →
        (channel ∈ (b.after k).channels ↔ id ∈ (b.after k).channels.listed channel)) ∧
      (id ∈ (b.after k).channels.listed channel → ∀ os',
        (b.after k).Throughout Operation.Fresh os' →
        Unreconciled l channel (b.after k) os' →
        id ∈ ((b.after k).through os').channels.listed channel) := by
  intro b
  have hempty := known_empty policy
  have hb : b.Known := hempty.through hf
  obtain ⟨c, hc, rfl⟩ := hb.named (registered_of_mem_dropped hd)
  refine ⟨registered_after_of_mem_dropped hd, hb.users_of_dropped hd, fun channel => ⟨?_, ?_, ?_⟩⟩
  · have hblank : ¬ (Board.empty policy).Estranged l channel := by
      rintro ⟨c', hc', -⟩
      cases hc'
    rw [hb.mem_listed_of_dropped hd hc, hempty.estranged_through hf]
    simp [hblank]
  · intro hone
    rw [hb.channel_of_dropped hd hc hone, hb.mem_listed_of_dropped hd hc]
  · intro hm os' hf' hu
    have h' := hb.after_of_mem_dropped hd
    have he := hb.estranged_of_dropped hd ((hb.mem_listed_of_dropped hd hc channel).1 hm)
    obtain ⟨c', hc', hm', -⟩ := (h'.estranged_through hf').2 (.inl ⟨he, hu⟩)
    -- the connection keeps its name
    have hline := getElem?_through_of_some hc (.call k :: os')
    cases hc'.symm.trans hline
    rwa [Connection.id_run] at hm'

/-- A connection has subscribed to two channels.  It leaves one of them past the board. -/
def quarrel : List Operation :=
  [.call (.enter 1 4 0), .call (.identify 1 ⟨"ann", "a"⟩), .call (.subscribe 1 "doc"),
    .call (.subscribe 1 "news"), .act 0 (.leave "doc")]

/-- Its name is unregistered, and is left under the channel that it has left, also when another
connection has come; the user and the other channel are gone. -/
theorem lingers_iff_quarrel :
    let b := (Board.empty .standard).through quarrel
    (Board.empty .standard).Throughout Operation.Fresh quarrel ∧ b.users.listed "ann" = [1] ∧
      "ann" ∉ (b.after (.unregister 1)).users ∧
      1 ∈ (b.after (.unregister 1)).channels.listed "doc" ∧
      1 ∉ (b.after (.unregister 1)).channels.listed "news" ∧
      1 ∈ ((b.after (.unregister 1)).through [.call (.enter 2 4 0)]).channels.listed "doc" := by
  intro b
  have hf : (Board.empty .standard).Throughout Operation.Fresh quarrel := by decide +kernel
  have hd : (1, 0) ∈ b.dropped (.unregister 1) := mem_dropped_unregister.2 ⟨rfl, by decide +kernel⟩
  have hone : b.users.listed "ann" = [1] := by decide +kernel
  obtain ⟨-, husers, hchannels⟩ := lingers_iff hf hd
  have hlists : ((Board.empty .standard).through (quarrel.take 4)).Lists 0 "doc" :=
    ⟨_, rfl, by decide +kernel⟩
  have hdoc : 1 ∈ (b.after (.unregister 1)).channels.listed "doc" :=
    (hchannels "doc").1.2 ⟨quarrel.take 4, [], rfl, hlists, trivial⟩
  have hnews : 1 ∉ (b.after (.unregister 1)).channels.listed "news" := by
    intro hm
    obtain ⟨os₁, os₂, e, -⟩ := (hchannels "news").1.1 hm
    have hleft : .act 0 (.leave "news") ∈ quarrel := by simp [e]
    simp [quarrel] at hleft
  refine ⟨hf, hone, (husers "ann").2 hone, hdoc, hnews, ?_⟩
  exact (hchannels "doc").2.2 hdoc _ (by decide +kernel)
    (by simp [Unreconciled, Throughout, Reconciles, deeds, errands, acts, plainActs])

/-- Nobody is registered any more, and yet there is a channel, with a subscriber. -/
theorem not_gone_quarrel :
    let b := (Board.empty .standard).through (quarrel ++ [.call (.unregister 1)])
    (Board.empty .standard).Throughout Operation.Fresh (quarrel ++ [.call (.unregister 1)]) ∧
      b.registered[1]? = none ∧ 1 ∈ b.channels.listed "doc" ∧ b.subscriberCount "doc" = 1 ∧
      b.stats = ⟨0, 0, 1⟩ := by
  decide +kernel

end Switchboard.Board
