/-
Switchboard/Proofs/Board/Delivery.lean

What an offer of messages comes to.  A connection `accepts` or it does not,
and if it does its queue grows by the message; so an offer to several
connections, each named once, is one map over all connections, and its
answer a count.  The order in which they are offered the message does not
show in the result.
-/
import Switchboard.Proofs.Board.Alike

namespace Switchboard

/-! ### One connection -/

namespace Connection

variable {c : Connection} {m : Envelope}

/-- Is the connection open, does anyone take its messages, and is there room for one more? -/
def accepts (c : Connection) : Bool :=
  !c.closed && c.outbox.attended && c.outbox.waiting.length < c.outbox.capacity

/-- The connection with a message more at the end of its queue. -/
def push (m : Envelope) (c : Connection) : Connection :=
  { c with outbox := { c.outbox with waiting := c.outbox.waiting ++ [m] } }

/-- Whoever accepts has the message at the end of its queue. -/
theorem send_of_accepts (h : c.accepts = true) : c.send m = .ok (c.push m) := by
  simp only [accepts, Bool.and_eq_true, Bool.not_eq_true', decide_eq_true_eq] at h
  obtain ⟨⟨hc, ha⟩, hr⟩ := h
  have hp : c.outbox.put m = .ok { c.outbox with waiting := c.outbox.waiting ++ [m] } := by
    rw [Outbox.put, if_neg (by simp [ha]), if_neg (Nat.not_le_of_lt hr)]
  rw [send, if_neg (by simp [hc]), hp]
  rfl

/-- Whoever does not says why. -/
theorem send_of_not_accepts (h : c.accepts = false) : ∃ f, c.send m = .error f := by
  rw [send]
  split
  · exact ⟨_, rfl⟩
  · rename_i hc
    rw [Outbox.put]
    split
    · exact ⟨_, rfl⟩
    · rename_i ha
      have hr : c.outbox.capacity ≤ c.outbox.waiting.length := by
        simp only [Bool.not_eq_true, Bool.not_eq_false'] at hc ha
        simpa [accepts, hc, ha] using h
      rw [if_pos hr]
      exact ⟨_, rfl⟩

end Connection

namespace Board

variable {b : Board} {l : LineNumber} {m : Envelope}

/-! ### One offer -/

/-- Does the connection of that number accept a message? -/
def accepts (b : Board) (l : LineNumber) : Bool := b.lines[l]?.any Connection.accepts

/-- On the board, whoever accepts is counted and has the message. -/
theorem offer_of_accepts (h : b.accepts l = true) :
    b.offer l m = (true, b.modify l (Connection.push m)) := by
  rcases e : b.lines[l]? with - | c
  · simp [accepts, e] at h
  · have hc : c.accepts = true := by simpa [accepts, e] using h
    have hs : b.send l m = .ok (b.modify l fun _ => c.push m) := by
      rw [Board.send, e]
      simp only [Connection.send_of_accepts hc]
      rfl
    rw [offer, hs]
    refine congrArg (Prod.mk true) ?_
    have hl : (b.modify l fun _ => c.push m).lines = (b.modify l (Connection.push m)).lines := by
      refine List.ext_getElem? fun l' => ?_
      rw [getElem?_modify, getElem?_modify]
      split
      · rename_i h'
        subst h'
        rw [e, Option.map_some, Option.map_some]
      · rfl
    exact congrArg (fun lines => { b with lines }) hl

theorem offer_of_not_accepts (h : b.accepts l = false) : b.offer l m = (false, b) := by
  rcases e : b.lines[l]? with - | c
  · rw [offer, Board.send, e]
  · have hc : c.accepts = false := by simpa [accepts, e] using h
    obtain ⟨f, hf⟩ := Connection.send_of_not_accepts (m := m) hc
    have hs : b.send l m = .error f := by
      rw [Board.send, e]
      simp only [hf]
      rfl
    rw [offer, hs]

/-- Messages are no matter for the indices. -/
theorem alike_offer (b : Board) (l : LineNumber) (m : Envelope) : Alike b (b.offer l m).2 := by
  cases h : b.accepts l with
  | true =>
    rw [offer_of_accepts h]
    exact alike_modify fun _ _ => rfl
  | false =>
    rw [offer_of_not_accepts h]
    exact Alike.refl b

/-! ### Several offers -/

theorem alike_offerAll (m : Envelope) (ls : List LineNumber) (b : Board) :
    Alike b (offerAll m ls b).2 := by
  induction ls generalizing b with
  | nil => exact Alike.refl b
  | cons l ls ih => exact (alike_offer b l m).trans (ih _)

/-- The board after a message has been put into the queues of those connections of a list that
accept it. -/
def handOut (b : Board) (m : Envelope) (ls : List LineNumber) : Board :=
  { b with lines := b.lines.mapIdx fun l c => if l ∈ ls ∧ c.accepts = true then c.push m else c }

/-- What handing out makes of each connection, whoever is on the list. -/
theorem getElem?_handOut (b : Board) (m : Envelope) (ls : List LineNumber) (l : LineNumber) :
    (b.handOut m ls).lines[l]? =
      b.lines[l]?.map fun c => if l ∈ ls ∧ c.accepts = true then c.push m else c := by
  rw [handOut, List.getElem?_mapIdx]

/-- Whether one connection accepts does not depend on the others. -/
theorem accepts_modify_ne {l' : LineNumber} {f : Connection → Connection} (h : l ≠ l') :
    (b.modify l f).accepts l' = b.accepts l' := by
  rw [accepts, accepts, getElem?_modify_ne h]

theorem handOut_nil (b : Board) (m : Envelope) : b.handOut m [] = b := by
  refine congrArg (fun lines => { b with lines }) (List.ext_getElem? fun l => ?_)
  refine (getElem?_handOut b m [] l).trans ?_
  simp

/-- Handing out to one connection and then to others, of which it is none, is handing out to all of
them. -/
theorem handOut_cons_of_accepts {ls : List LineNumber} (hl : l ∉ ls) (h : b.accepts l = true) :
    (b.modify l (Connection.push m)).handOut m ls = b.handOut m (l :: ls) := by
  refine congrArg (fun lines => { b with lines }) (List.ext_getElem? fun l' => ?_)
  have hl' := getElem?_handOut (b.modify l (Connection.push m)) m ls l'
  rw [getElem?_modify] at hl'
  refine hl'.trans (Eq.trans ?_ (getElem?_handOut b m (l :: ls) l').symm)
  by_cases e : l = l'
  · -- it is none of the others, so it gets the message once
    subst e
    rcases ec : b.lines[l]? with - | c
    · simp
    · have hc : c.accepts = true := by simpa [accepts, ec] using h
      simp [hl, hc]
  · simp [e, Ne.symm e]

/-- Whoever does not accept may as well not be on the list. -/
theorem handOut_cons_of_not_accepts {ls : List LineNumber} (h : b.accepts l = false) :
    b.handOut m ls = b.handOut m (l :: ls) := by
  refine congrArg (fun lines => { b with lines }) (List.ext_getElem? fun l' => ?_)
  refine (getElem?_handOut b m ls l').trans (Eq.trans ?_ (getElem?_handOut b m (l :: ls) l').symm)
  by_cases e : l' = l
  · subst e
    rcases ec : b.lines[l']? with - | c
    · rfl
    · have hc : c.accepts = false := by simpa [accepts, ec] using h
      simp [hc]
  · simp [e]

/-- Connections that are each named once get the message once if they accept it, and their number
is the answer. -/
theorem offerAll_eq {ls : List LineNumber} (hn : ls.Nodup) :
    offerAll m ls b = (ls.countP b.accepts, b.handOut m ls) := by
  induction ls generalizing b with
  | nil => rw [offerAll, handOut_nil, List.countP_nil]
  | cons l ls ih =>
    obtain ⟨hl, hn⟩ := List.nodup_cons.1 hn
    cases h : b.accepts l with
    | true =>
      -- the others accept after this offer what they accepted before it
      have hsame : ls.countP (b.modify l (Connection.push m)).accepts = ls.countP b.accepts := by
        refine List.countP_congr fun l' hl' => ?_
        rw [accepts_modify_ne (ne_of_mem_of_not_mem hl' hl).symm]
      rw [offerAll, offer_of_accepts h]
      simp only [ih hn, if_true]
      rw [hsame, handOut_cons_of_accepts hl h, List.countP_cons_of_pos h, Nat.add_comm]
    | false =>
      rw [offerAll, offer_of_not_accepts h]
      simp only [ih hn, Bool.false_eq_true, if_false, Nat.zero_add]
      rw [handOut_cons_of_not_accepts h, List.countP_cons_of_neg (by simp [h])]

end Board

end Switchboard
