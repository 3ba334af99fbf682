/-
Switchboard/Proofs/Service/Steady.lean

What does not change with what happens.

No event changes the rules by which tokens are checked, and the clock moves only
when time passes: whatever is done to a service, it does at the same moment.
And what a client does at its socket does not reach the sockets of others.
-/
import Switchboard.Proofs.Service.Events

namespace Switchboard.Service

variable {s s' : Service} {k k' : SocketNumber}

/-- Neither the time changes nor the check of tokens. -/
structure Steady (s s' : Service) : Prop where
  clock : s'.clock = s.clock
  check : s'.check = s.check

theorem Steady.refl (s : Service) : Steady s s := ⟨rfl, rfl⟩

theorem Steady.trans {u : Service} (h : Steady s s') (h' : Steady s' u) : Steady s u :=
  ⟨h'.clock.trans h.clock, h'.check.trans h.check⟩

/-- Whatever is done to a socket takes no time. -/
theorem steady_modifyServed (s : Service) (k : SocketNumber) (f : Served → Served) :
    Steady s (s.modifyServed k f) := by
  rw [modifyServed]
  split <;> exact ⟨rfl, rfl⟩

/-- Nor does the coming of a client, admitted or not. -/
theorem steady_join (s : Service) (a : Bool) : Steady s (s.join a) := by
  by_cases ha : s.Admits
  · rw [join_of_admits ha]
    exact ⟨rfl, rfl⟩
  · rw [join_of_not_admits ha]
    exact ⟨rfl, rfl⟩

/-- The service after a message has been handled, before the reader goes on. -/
def handled (s : Service) (l : LineNumber) (content : Bytes) : Service :=
  { s with
    board := (s.board.handleFrame s.check s.clock s.draw l content).2, drawn := s.drawn + 1 }

theorem steady_hear (s : Service) (k : SocketNumber) (f : Incoming) : Steady s (s.hear k f) := by
  rcases hear_cases s k f with e | ⟨l, v, content, -, -, -, -, e⟩ | ⟨g, -, e⟩
  · rw [e]
    exact .refl s
  · rw [e]
    have hhandled : Steady s (s.handled l content) := ⟨rfl, rfl⟩
    exact hhandled.trans (steady_modifyServed _ k _)
  · rw [e]
    exact steady_modifyServed s k g

theorem steady_breakOff (s : Service) (k : SocketNumber) : Steady s (s.breakOff k) := by
  rw [breakOff]
  split
  · exact .refl s
  · split
    · exact .refl s
    · exact steady_modifyServed s k _

theorem steady_finish (s : Service) (k : SocketNumber) : Steady s (s.finish k) := by
  rcases hv : s.served? k with - | ⟨l, v⟩
  · rw [finish, hv]
    exact .refl s
  · rw [finish_eq hv]
    split
    · exact ⟨rfl, rfl⟩
    · exact .refl s

/-- Nor does the settling, in which sockets take their turns and sweepers come due. -/
theorem steady_settle (s : Service) : Steady s s.settle := by
  have hall : ∀ (ks : List SocketNumber) (u : Service), Steady u (ks.foldl runSocket u) := by
    intro ks
    induction ks with
    | nil => exact .refl
    | cons k ks ih =>
      exact fun u => ((steady_modifyServed u k _).trans (steady_finish _ k)).trans (ih _)
  have hsweep : Steady s s.runSweepers := ⟨rfl, rfl⟩
  exact hsweep.trans (hall _ s.runSweepers)

/-- The check of tokens is always the same. -/
theorem check_after (s : Service) (e : Event) : (s.after e).check = s.check := by
  have hsettle : ∀ {u : Service}, u.check = s.check → u.settle.check = s.check :=
    fun {u} hu => (steady_settle u).check.trans hu
  cases e with
  | call c => exact hsettle rfl
  | sweeper => exact hsettle rfl
  | accept a => exact hsettle (steady_join s a).check
  | receive k f => exact hsettle (steady_hear s k f).check
  | endOfFrames k => exact hsettle (steady_breakOff s k).check
  | vanish k =>
    rw [Service.after, vanish, vanish_eq]
    exact hsettle (steady_modifyServed s k _).check
  | sever k => exact hsettle (steady_modifyServed s k _).check
  | stop k => rfl
  | resume k => exact hsettle (steady_modifyServed s k _).check
  | forget => rfl
  | elapse milliseconds =>
    refine passTo_of_arrive (R := fun s u => u.check = s.check) (fun h h' => h'.trans h) ?_ _ _ s
    exact fun s now => (steady_settle { s with clock := now }).check

/-- No run changes the check of tokens. -/
theorem check_run (s : Service) (es : List Event) : (s.run es).check = s.check := by
  induction es generalizing s with
  | nil => rfl
  | cons e es ih => exact (ih (s.after e)).trans (check_after s e)

/-- The rules do not depend on any socket. -/
theorem policy_modifyServed (s : Service) (k : SocketNumber) (f : Served → Served) :
    (s.modifyServed k f).policy = s.policy := by
  rw [modifyServed]
  split <;> rfl

/-! ### The sockets of others -/

/-- What is done to one socket leaves the others alone. -/
theorem socket_modifyServed_ne (hk : k' ≠ k) (s : Service) (f : Served → Served) :
    (s.modifyServed k' f).sockets[k]? = s.sockets[k]? := by
  rw [modifyServed]
  split
  · exact List.getElem?_set_ne hk
  · rfl

/-- So does what one client sends. -/
theorem socket_hear_ne (hk : k' ≠ k) (s : Service) (f : Incoming) :
    (s.hear k' f).sockets[k]? = s.sockets[k]? := by
  rcases hear_cases s k' f with e | ⟨l, v, content, -, -, -, -, e⟩ | ⟨g, -, e⟩
  · rw [e]
  · rw [e]
    exact socket_modifyServed_ne hk (s.handled l content) _
  · rw [e]
    exact socket_modifyServed_ne hk s g

theorem socket_breakOff_ne (hk : k' ≠ k) (s : Service) :
    (s.breakOff k').sockets[k]? = s.sockets[k]? := by
  rw [breakOff]
  split
  · rfl
  · split
    · rfl
    · exact socket_modifyServed_ne hk s _

/-- Whoever comes is put last. -/
theorem socket_join (hk : k < s.sockets.length) (a : Bool) :
    (s.join a).sockets[k]? = s.sockets[k]? := by
  by_cases ha : s.Admits
  · rw [join_of_admits ha]
    exact List.getElem?_append_left hk
  · rw [join_of_not_admits ha]
    exact List.getElem?_append_left hk

end Switchboard.Service
