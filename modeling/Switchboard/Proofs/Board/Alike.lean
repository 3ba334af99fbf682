/-
Switchboard/Proofs/Board/Alike.lean

What may happen to connections without the indices having to follow.

The indices depend on three things of a connection: its name, its identity
and its subscriptions.  Two boards are `Alike` if they agree on these and on
everything else but queues, signs of life and closings.  Most operations
lead to a board that is alike, and whatever is said of the indices carries
over to it at once.
-/
import Mathlib
import Switchboard.Board.Delivery

namespace Switchboard

namespace Connection

/-- What a connection counts for in the indices: its name, its identity and its subscriptions. -/
def standing (c : Connection) : ConnectionId × Option Identity × Std.ExtTreeSet String :=
  (c.id, c.identity, c.subscriptions)

variable {c d : Connection}

/-- What the indices are made from has the name in it. -/
theorem id_eq_of_standing (h : c.standing = d.standing) : c.id = d.id := congrArg (·.1) h

theorem identity_eq_of_standing (h : c.standing = d.standing) : c.identity = d.identity :=
  congrArg (·.2.1) h

/-- And so whose connection it is. -/
theorem user?_eq_of_standing (h : c.standing = d.standing) : c.user? = d.user? := by
  rw [user?, user?, identity_eq_of_standing h]

theorem subscriptions_eq_of_standing (h : c.standing = d.standing) :
    c.subscriptions = d.subscriptions :=
  congrArg (·.2.2) h

end Connection

namespace Board

/-- The indices are the same, and every connection counts for the same in them. -/
structure Alike (b b' : Board) : Prop where
  policy : b'.policy = b.policy
  registered : b'.registered = b.registered
  users : b'.users = b.users
  channels : b'.channels = b.channels
  closing : b'.closing = b.closing
  lines : b'.lines.map Connection.standing = b.lines.map Connection.standing

variable {b b' b'' : Board} {l : LineNumber}

theorem Alike.refl (b : Board) : Alike b b := ⟨rfl, rfl, rfl, rfl, rfl, rfl⟩

theorem Alike.trans (h : Alike b b') (h' : Alike b' b'') : Alike b b'' where
  policy := h'.policy.trans h.policy
  registered := h'.registered.trans h.registered
  users := h'.users.trans h.users
  channels := h'.channels.trans h.channels
  closing := h'.closing.trans h.closing
  lines := h'.lines.trans h.lines

/-- What a number leads to counts for the same on both boards. -/
theorem Alike.map_standing (h : Alike b b') (l : LineNumber) :
    b'.lines[l]?.map Connection.standing = b.lines[l]?.map Connection.standing := by
  rw [← List.getElem?_map, ← List.getElem?_map, h.lines]

/-- Every connection has its counterpart, which stands as it does. -/
theorem Alike.exists_line (h : Alike b b') {c : Connection} (hc : b.lines[l]? = some c) :
    ∃ c', b'.lines[l]? = some c' ∧ c'.standing = c.standing := by
  have hm := h.map_standing l
  rw [hc, Option.map_some] at hm
  exact Option.map_eq_some_iff.1 hm

/-! ### Changing one connection -/

/-- A change of one connection, seen from any other. -/
theorem getElem?_modify (b : Board) (l l' : LineNumber) (f : Connection → Connection) :
    (b.modify l f).lines[l']? = if l = l' then b.lines[l']?.map f else b.lines[l']? := by
  rw [Board.modify, List.getElem?_modify]
  split <;> simp

theorem getElem?_modify_self {c : Connection} {f : Connection → Connection}
    (h : b.lines[l]? = some c) : (b.modify l f).lines[l]? = some (f c) := by
  rw [getElem?_modify, if_pos rfl, h, Option.map_some]

theorem getElem?_modify_ne {l' : LineNumber} {f : Connection → Connection} (h : l ≠ l') :
    (b.modify l f).lines[l']? = b.lines[l']? := by
  rw [getElem?_modify, if_neg h]

/-- What a change does not touch of a connection is the same of all connections. -/
theorem map_modify {α : Type} {g : Connection → α} {f : Connection → Connection}
    (hf : ∀ c, b.lines[l]? = some c → g (f c) = g c) :
    (b.modify l f).lines.map g = b.lines.map g := by
  refine List.ext_getElem? fun l' => ?_
  rw [List.getElem?_map, List.getElem?_map, getElem?_modify]
  split
  · rename_i h
    subst h
    rcases e : b.lines[l]? with - | c
    · rfl
    · exact congrArg some (hf c e)
  · rfl

/-- A connection may be changed as long as it stands as before. -/
theorem alike_modify {f : Connection → Connection}
    (hf : ∀ c, b.lines[l]? = some c → (f c).standing = c.standing) : Alike b (b.modify l f) :=
  ⟨rfl, rfl, rfl, rfl, rfl, map_modify hf⟩

/-- To be closed or heard of is no matter for the indices. -/
theorem alike_close (b : Board) (l : LineNumber) : Alike b (b.close l) :=
  alike_modify fun _ _ => rfl

theorem alike_touch (b : Board) (l : LineNumber) (now : Nat) : Alike b (b.touch l now) :=
  alike_modify fun _ _ => rfl

end Board

end Switchboard
