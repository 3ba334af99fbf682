/-
Switchboard/Proofs/Board/SlowPeer.lean

A slow client holds up nobody.

Two runs go side by side: they make the same calls, but the queue of one
connection has another capacity in each, and more or less is taken from it.
A `Stride` is what the two do next, and `InStride` says what is asked of
them: whoever enters has a new name, and only the queue of the one connection
is treated unlike.

Then the two boards agree at every moment but for that queue, and so do the
messages that others have taken: nobody can tell from what it gets how slow
the one connection is, but from the counts of acknowledgements, which tell of
one connection more or less (`slow_peer_unnoticed`).
-/
import Switchboard.Proofs.Board.Parallel
import Switchboard.Proofs.Board.Strangers

namespace Switchboard

/-- Is there a queue of that capacity? -/
def Outbox.Fits (capacity : Nat) : Prop := 0 < capacity ∧ capacity ≤ greatestCapacity

instance (capacity : Nat) : Decidable (Outbox.Fits capacity) :=
  inferInstanceAs (Decidable (0 < capacity ∧ capacity ≤ Outbox.greatestCapacity))

namespace Board

open Connection (Matches)

variable {b b' : Board} {d l : LineNumber} {k : Call} {ss : List Stride}

/-- A call by which something is taken from the queue of a connection, or nothing will be any
more. -/
def Call.Drains (d : LineNumber) : Call → Prop
  | .receive l | .forsake l => l = d
  | _ => False

instance (d : LineNumber) : (k : Call) → Decidable (k.Drains d)
  | .receive l | .forsake l => inferInstanceAs (Decidable (l = d))
  | .enter .. | .unregister _ | .identify .. | .subscribe .. | .unsubscribe .. | .sweep _
  | .shutdown | .broadcast _ | .toChannel .. | .toUser .. | .send .. | .close _ | .touch ..
  | .frame .. => inferInstanceAs (Decidable False)

/-- What two runs side by side do next. -/
inductive Stride where
  /-- Both make a call. -/
  | both (k : Call)
  /-- A connection enters, with another capacity in each of them. -/
  | enter (id : ConnectionId) (capacity capacity' now : Nat)
  | left (k : Call)
  | right (k : Call)

/-- The calls of the run on the left. -/
def Stride.leftCalls : Stride → List Call
  | .both k | .left k => [k]
  | .enter id capacity _ now => [.enter id capacity now]
  | .right _ => []

/-- The calls of the run on the right. -/
def Stride.rightCalls : Stride → List Call
  | .both k | .right k => [k]
  | .enter id _ capacity now => [.enter id capacity now]
  | .left _ => []

/-- Whoever enters has a new name, and only the one connection is treated unlike. -/
def Stride.Allowed (d : LineNumber) (b : Board) : Stride → Prop
  | .both k => k.Fresh b
  | .enter id capacity capacity' _ =>
    b.Unused id ∧ b.lines.length = d ∧ Outbox.Fits capacity ∧ Outbox.Fits capacity'
  | .left k | .right k => k.Drains d

instance (d : LineNumber) (b : Board) : (s : Stride) → Decidable (s.Allowed d b)
  | .both k => inferInstanceAs (Decidable (k.Fresh b))
  | .enter id capacity capacity' _ => inferInstanceAs (Decidable
      (b.Unused id ∧ b.lines.length = d ∧ Outbox.Fits capacity ∧ Outbox.Fits capacity'))
  | .left k | .right k => inferInstanceAs (Decidable (k.Drains d))

/-- Two runs go side by side, the one on the left from the board given. -/
def InStride (d : LineNumber) : Board → List Stride → Prop
  | _, [] => True
  | b, s :: ss => s.Allowed d b ∧ InStride d (b.run s.leftCalls) ss

instance (d : LineNumber) : (b : Board) → (ss : List Stride) → Decidable (InStride d b ss)
  | _, [] => inferInstanceAs (Decidable True)
  | b, s :: ss =>
    have := instDecidableInStride d (b.run s.leftCalls) ss
    inferInstanceAs (Decidable (s.Allowed d b ∧ InStride d (b.run s.leftCalls) ss))

theorem InStride.of_prefix {ss' : List Stride} (h : InStride d b ss) (hp : ss' <+: ss) :
    InStride d b ss' := by
  induction ss' generalizing b ss with
  | nil => trivial
  | cons s ss' ih =>
    obtain ⟨rest, rfl⟩ := hp
    exact ⟨h.1, ih h.2 (List.prefix_append ss' rest)⟩

/-! ### One stride -/

/-- The queue of the connection that does not matter may be any on the left. -/
theorem AgreeBut.anyLeft (h : AgreeBut d b b') {f : Connection → Connection}
    (hf : ∀ c, f c = { c with outbox := (f c).outbox }) : AgreeBut d (b.modify d f) b' := by
  have hid : b'.modify d id = b' := by rw [Board.modify, List.modify_id]
  rw [← hid]
  refine h.modify fun c c' _ _ hm => ⟨?_, fun hn => absurd rfl hn⟩
  rw [hf c]
  exact hm.rest

/-- And so it may on the right. -/
theorem AgreeBut.anyRight (h : AgreeBut d b b') {f : Connection → Connection}
    (hf : ∀ c, f c = { c with outbox := (f c).outbox }) : AgreeBut d b (b'.modify d f) := by
  have hid : b.modify d id = b := by rw [Board.modify, List.modify_id]
  rw [← hid]
  refine h.modify fun c c' _ _ hm => ⟨?_, fun hn => absurd rfl hn⟩
  rw [hf c', hm.rest]
  rfl

theorem receive_rest (c : Connection) : c.receive = { c with outbox := c.receive.outbox } := by
  rw [Connection.receive_eq]

theorem AgreeBut.drainLeft (h : AgreeBut d b b') (hk : k.Drains d) :
    AgreeBut d (b.after k) b' := by
  cases k with
  | receive l =>
    cases hk
    exact h.anyLeft receive_rest
  | forsake l =>
    cases hk
    exact h.anyLeft fun _ => rfl
  | _ => exact hk.elim

theorem AgreeBut.drainRight (h : AgreeBut d b b') (hk : k.Drains d) :
    AgreeBut d b (b'.after k) := by
  cases k with
  | receive l =>
    cases hk
    exact h.anyRight receive_rest
  | forsake l =>
    cases hk
    exact h.anyRight fun _ => rfl
  | _ => exact hk.elim

theorem Call.Drains.fresh (hk : k.Drains d) (b : Board) : k.Fresh b := by
  cases k with
  | enter => exact hk.elim
  | _ => trivial

/-- A call that drains one queue takes nothing from another. -/
theorem Call.Drains.taken_eq (hk : k.Drains d) (hl : l ≠ d) (b : Board) : b.taken l k = [] := by
  rw [taken]
  split
  · refine Connection.taken_eq_nil ?_ _
    rintro a ha rfl
    rw [eq_receive_of_mem_acts ha] at hk
    exact hl hk
  · rfl

theorem new?_of_fits {id : ConnectionId} {capacity : Nat} (h : Outbox.Fits capacity) (now : Nat) :
    Connection.new? id capacity now = some ⟨id, ⟨capacity, [], true⟩, none, now, false, ∅⟩ := by
  have ho : Outbox.new? capacity = some ⟨capacity, [], true⟩ := if_pos h
  rw [Connection.new?, ho]
  rfl

theorem trace_singleton {α : Type} (entry : Board → Call → List α) (b : Board) (k : Call) :
    b.trace entry [k] = entry b k := List.append_nil _

/-- Two boards agree still after a stride, and so do the messages that others have taken. -/
theorem AgreeBut.stride (h : AgreeBut d b b') (hb : b.InStep) {s : Stride} (hs : s.Allowed d b) :
    AgreeBut d (b.run s.leftCalls) (b'.run s.rightCalls) ∧ (b.run s.leftCalls).InStep ∧
      ∀ l ≠ d, List.Forall₂ Envelope.Near (b.trace (Board.taken l) s.leftCalls)
        (b'.trace (Board.taken l) s.rightCalls) := by
  cases s with
  | both k =>
    refine ⟨h.after hb k, hb.after k hs, fun l hl => ?_⟩
    simp only [Stride.leftCalls, Stride.rightCalls, trace_singleton]
    exact h.taken hl k
  | enter id capacity capacity' now =>
    obtain ⟨hu, hd, hfits, hfits'⟩ := hs
    refine ⟨h.enter ?_, hb.enter hu capacity now, fun l hl => ?_⟩
    · rw [new?_of_fits hfits, new?_of_fits hfits']
      -- it is the connection that does not matter
      exact .some ⟨rfl, fun hn => absurd hd hn⟩
    · have hnil : ∀ (b : Board) (capacity : Nat),
          Board.taken l b (.enter id capacity now) = [] := by
        intro b capacity
        rw [Board.taken]
        split <;> rfl
      simp only [Stride.leftCalls, Stride.rightCalls, trace_singleton, hnil]
      exact .nil
  | left k =>
    refine ⟨h.drainLeft hs, hb.after k (Call.Drains.fresh hs b), fun l hl => ?_⟩
    simp only [Stride.leftCalls, trace_singleton, Call.Drains.taken_eq hs hl b]
    exact .nil
  | right k =>
    refine ⟨h.drainRight hs, hb, fun l hl => ?_⟩
    simp only [Stride.rightCalls, trace_singleton, Call.Drains.taken_eq hs hl b']
    exact .nil

/-! ### Two runs -/

theorem trace_append {α : Type} (entry : Board → Call → List α) (b : Board) (ks ks' : List Call) :
    b.trace entry (ks ++ ks') = b.trace entry ks ++ (b.run ks).trace entry ks' :=
  logged_append after entry b ks ks'

/-- Two boards agree still after any number of strides. -/
theorem AgreeBut.strides (h : AgreeBut d b b') (hb : b.InStep) (hs : InStride d b ss) :
    AgreeBut d (b.run (ss.flatMap Stride.leftCalls)) (b'.run (ss.flatMap Stride.rightCalls)) ∧
      (b.run (ss.flatMap Stride.leftCalls)).InStep ∧
      ∀ l ≠ d, List.Forall₂ Envelope.Near (b.trace (Board.taken l) (ss.flatMap Stride.leftCalls))
        (b'.trace (Board.taken l) (ss.flatMap Stride.rightCalls)) := by
  induction ss generalizing b b' with
  | nil => exact ⟨h, hb, fun _ _ => .nil⟩
  | cons s ss ih =>
    obtain ⟨h₁, hb₁, htaken₁⟩ := h.stride hb hs.1
    obtain ⟨h₂, hb₂, htaken₂⟩ := ih h₁ hb₁ hs.2
    simp only [List.flatMap_cons, run_append, trace_append]
    exact ⟨h₂, hb₂, fun l hl => List.rel_append (htaken₁ l hl) (htaken₂ l hl)⟩

/-- **A slow client holds up nobody.**  Two runs that differ only in the capacity of the queue of
one connection and in what is taken from it agree at every moment: the indices are the same, all
connections are the same but for their queues, and the queues of all others, and what they have
received, differ only in the counts of acknowledgements, by one at most.  So do the results of all
deliveries to many. -/
theorem slow_peer_unnoticed (policy : Policy) (d : LineNumber) (ss : List Stride)
    (h : InStride d (Board.empty policy) ss) : ∀ ss', ss' <+: ss →
      let b := (Board.empty policy).run (ss'.flatMap Stride.leftCalls)
      let b' := (Board.empty policy).run (ss'.flatMap Stride.rightCalls)
      AgreeBut d b b' ∧
        (∀ l ≠ d, List.Forall₂ Envelope.Near
          ((Board.empty policy).trace (taken l) (ss'.flatMap Stride.leftCalls))
          ((Board.empty policy).trace (taken l) (ss'.flatMap Stride.rightCalls))) ∧
        (∀ m, WithinOne (b.broadcast m).1 (b'.broadcast m).1) ∧
        (∀ channel m, WithinOne (b.toChannel channel m).1 (b'.toChannel channel m).1) ∧
        ∀ user m, WithinOne (b.toUser user m).1 (b'.toUser user m).1 := by
  intro ss' hprefix b b'
  obtain ⟨hagree, hb, htaken⟩ :=
    (agreeBut_empty d policy).strides (inStep_empty policy) (h.of_prefix hprefix)
  exact ⟨hagree, htaken, hagree.withinOne_broadcast hb, hagree.withinOne_toChannel hb,
    hagree.withinOne_toUser hb⟩

/-- Two clients are in a channel, one of them with room for a single message on the left and for
four on the right, where it takes one in between.  The other publishes twice. -/
def uneven : List Stride :=
  [.both (.enter 1 8 0), .enter 2 1 4 0, .both (.identify 1 ⟨"ann", "a"⟩),
    .both (.identify 2 ⟨"bob", "b"⟩), .both (.subscribe 1 "doc"), .both (.subscribe 2 "doc"),
    .both (speak 0 "\x7b\"type\":\"publish\",\"data\":\x7b\"channel\":\"doc\"\x7d\x7d"),
    .right (.receive 1),
    .both (speak 0 "\x7b\"type\":\"publish\",\"data\":\x7b\"channel\":\"doc\"\x7d\x7d")]

/-- The second message is for one on the left and for two on the right. -/
theorem slow_peer_unnoticed_uneven :
    InStride 1 (Board.empty .standard) uneven ∧
      let b := (Board.empty .standard).run (uneven.flatMap Stride.leftCalls)
      let b' := (Board.empty .standard).run (uneven.flatMap Stride.rightCalls)
      AgreeBut 1 b b' ∧ (b.toChannel "doc" (.new noon .ping)).1 = 1 ∧
        (b'.toChannel "doc" (.new noon .ping)).1 = 2 := by
  have h : InStride 1 (Board.empty .standard) uneven := by decide +kernel
  obtain ⟨hagree, -⟩ := slow_peer_unnoticed .standard 1 uneven h uneven (List.prefix_rfl)
  exact ⟨h, hagree, by decide +kernel, by decide +kernel⟩

end Board

end Switchboard
