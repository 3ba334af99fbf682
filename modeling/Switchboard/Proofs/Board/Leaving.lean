/-
Switchboard/Proofs/Board/Leaving.lean

Whoever leaves the board is closed.

A sweep and the end of the service close what they take off the board, and so
does the finish of a socket (`LeavesClosed`).  Only one call takes a
connection off and leaves it as it is, which is to unregister its name
(`leavesClosed_after`); and it changes no connection at all.
-/
import Switchboard.Proofs.Board.Acts
import Switchboard.Proofs.Board.Fanout

namespace Switchboard.Board

variable {b b' b'' : Board} {l l' : LineNumber} {id : ConnectionId} {k : Call}

/-- A connection that is registered is so afterwards, or it is closed. -/
def LeavesClosed (l : LineNumber) (b b' : Board) : Prop :=
  ∀ id : ConnectionId, b.registered[id]? = some l →
    b'.registered[id]? = some l ∨ ∃ c, b'.lines[l]? = some c ∧ c.closed = true

theorem LeavesClosed.trans (h : LeavesClosed l b b') (h' : LeavesClosed l b' b'')
    (ho : b'.Onward b'') : LeavesClosed l b b'' := by
  intro id hid
  rcases h id hid with hid' | ⟨c, hc, hcl⟩
  · exact h' id hid'
  · obtain ⟨c', hc', -, hcl'⟩ := ho.line hc
    exact .inr ⟨c', hc', hcl' hcl⟩

theorem leavesClosed_of_eq (h : b'.registered = b.registered) : LeavesClosed l b b' := by
  intro id hid
  rw [h]
  exact .inl hid

/-- Connections are closed, and every name that is given up leads to one of them. -/
theorem InStep.leavesClosed (h : b.InStep) {ls : List LineNumber}
    (hlines : b'.lines[l]? = b.lines[l]?.map (·.run (aimed l ls .close)))
    (hleft : ∀ id : ConnectionId, b.registered[id]? = some l →
      b'.registered[id]? = some l ∨ l ∈ ls) : LeavesClosed l b b' := by
  intro id hid
  rcases hleft id hid with hid' | hl
  · exact .inl hid'
  · obtain ⟨c, hc, -⟩ := h.named hid
    refine .inr ⟨_, ?_, Connection.closed_run_of_mem (mem_aimed.2 ⟨hl, rfl⟩) c⟩
    rw [hlines, hc]
    rfl

/-! ### Dismissal, sweeps and the end -/

theorem getElem?_dismiss (b : Board) (id : ConnectionId) (l : LineNumber) :
    (b.dismiss id).lines[l]? =
      b.lines[l]?.map (·.run (aimed l b.registered[id]?.toList .close)) := by
  rcases e : b.registered[id]? with - | l'
  · rw [dismiss, unregister, e]
    exact (map_run_nil _).symm
  · rw [dismiss, unregister, e, ← lines_drop b id l']
    exact getElem?_modify_after _ l' .close l

theorem InStep.leavesClosed_dismiss (h : b.InStep) (l : LineNumber) (id : ConnectionId) :
    LeavesClosed l b (b.dismiss id) := by
  refine h.leavesClosed (getElem?_dismiss b id l) fun id' hid' => ?_
  by_cases e : id = id'
  · -- it is the connection itself
    right
    rw [e, hid']
    exact List.mem_singleton_self l
  · left
    rw [registered_dismiss, Std.ExtTreeMap.getElem?_erase, if_neg (by simpa using e)]
    exact hid'

theorem registered_removeAll (gone : List (ConnectionId × LineNumber)) (b : Board)
    (id : ConnectionId) : (gone.foldl (fun b r => b.remove r.1 r.2) b).registered[id]? =
      if id ∈ gone.map Prod.fst then none else b.registered[id]? := by
  induction gone generalizing b with
  | nil => simp
  | cons r gone ih =>
    rw [List.foldl_cons, ih, registered_remove, Std.ExtTreeMap.getElem?_erase]
    by_cases h : r.1 = id
    · simp [h]
    · have hne : id ≠ r.1 := Ne.symm h
      simp only [List.map_cons, List.mem_cons, hne, false_or]
      simp [h]

/-- **Whoever is swept is closed.** -/
theorem InStep.leavesClosed_sweep (h : b.InStep) (l : LineNumber) (now : Nat) :
    LeavesClosed l b (b.sweep now).2 := by
  have hlines := getElem?_after_plain (b := b) (k := .sweep now) trivial id l
  refine h.leavesClosed hlines fun id hid => ?_
  have hreg : (b.sweep now).2.registered[id]? =
      if id ∈ (b.stale now).map Prod.fst then none else b.registered[id]? :=
    registered_removeAll _ b id
  by_cases hm : id ∈ (b.stale now).map Prod.fst
  · right
    obtain ⟨r, hr, rfl⟩ := List.mem_map.1 hm
    have hl : r.2 = l := Option.some.inj ((registered_of_mem_stale hr).symm.trans hid)
    exact List.mem_map.2 ⟨r, hr, hl⟩
  · left
    rw [hreg, if_neg hm]
    exact hid

/-- **At the end everyone is closed.** -/
theorem InStep.leavesClosed_shutdown (h : b.InStep) (l : LineNumber) :
    LeavesClosed l b b.shutdown.2 := by
  have hlines := getElem?_after_plain (b := b) (k := .shutdown) trivial id l
  exact h.leavesClosed hlines fun id hid => .inr (mem_values.2 ⟨id, hid⟩)

/-! ### Calls -/

theorem FrameEffect.registered (e : FrameEffect b b') : b'.registered = b.registered := by
  cases e with
  | nothing => rfl
  | touch l now => rfl
  | identify _ _ hb =>
    obtain ⟨l, c, -, -, -, rfl⟩ := identify_eq_ok hb
    rfl
  | subscribe _ _ hb =>
    obtain ⟨l, c, -, -, rfl⟩ := subscribe_eq_ok hb
    rfl
  | unsubscribe _ _ hb =>
    obtain ⟨l, c, -, -, rfl⟩ := unsubscribe_eq_ok hb
    rfl
  | publish channel m => exact (alike_offerAll m _ b).registered

theorem registered_handleFrame (b : Board) (check : Check) (now : Nat) (draw : Draw)
    (l : LineNumber) (content : Bytes) :
    (b.handleFrame check now draw l content).2.registered = b.registered := by
  obtain ⟨b', he, e | ⟨m, e⟩⟩ := handleFrame_cases b check now draw l content
  · rw [e]
    exact he.registered
  · rw [e, (alike_offer b' l m).registered]
    exact he.registered

theorem registered_orKeep {r : Except Fault Board}
    (hr : ∀ b', r = .ok b' → b'.registered = b.registered) :
    (b.orKeep r).registered = b.registered := by
  cases r with
  | ok b' => exact hr b' rfl
  | error f => rfl

theorem register_cases {c : Connection} (hc : b.lines[l]? = some c) :
    (b.closing = true ∧ (b.register l).2 = b.close l) ∨
      (b.closing = false ∧
        (b.register l).2 = { b with registered := b.registered.insert c.id l }) := by
  cases h : b.closing <;> simp [register, hc, h]

/-- Whoever has come to be has the name given, which leads where it has led before. -/
theorem line_open? {capacity now : Nat} (ho : b.open? id capacity now = some (l, b')) :
    b'.registered = b.registered ∧ ∃ c, b'.lines[l]? = some c ∧ c.id = id := by
  obtain ⟨outbox, rfl, rfl⟩ := open?_eq_some ho
  exact ⟨rfl, ⟨id, outbox, none, now, false, ∅⟩, by simp, rfl⟩

/-- Whoever enters is registered as the newest connection, if at all. -/
theorem registered_enter_cases (b : Board) (id : ConnectionId) (capacity now : Nat) :
    (b.enter id capacity now).registered = b.registered ∨
      (b.enter id capacity now).registered = b.registered.insert id b.lines.length := by
  rw [enter]
  rcases e : b.open? id capacity now with - | ⟨l, b'⟩
  · exact .inl rfl
  · obtain ⟨hregistered, c, hc, rfl⟩ := line_open? e
    obtain ⟨outbox, rfl, -⟩ := open?_eq_some e
    rcases register_cases hc with ⟨-, e'⟩ | ⟨-, e'⟩
    · left
      simp only [e']
      exact hregistered
    · right
      simp only [e', hregistered]

theorem InStep.leavesClosed_enter (h : b.InStep) (hu : b.Unused id) (l : LineNumber)
    (capacity now : Nat) : LeavesClosed l b (b.enter id capacity now) := by
  rcases registered_enter_cases b id capacity now with e | e
  · exact leavesClosed_of_eq e
  · -- the name that is registered has led nowhere before
    intro id' hid'
    left
    have hne : id ≠ id' := by
      rintro rfl
      rw [h.registered_eq_none hu] at hid'
      cases hid'
    rw [e, Std.ExtTreeMap.getElem?_insert, if_neg (by simpa using hne)]
    exact hid'

/-- Whoever enters and is not closed at once is registered. -/
theorem registered_enter {c : Connection} {capacity now : Nat} (hn : b.lines[l]? = none)
    (hc : (b.enter id capacity now).lines[l]? = some c) (hopen : c.closed = false) :
    (b.enter id capacity now).registered[c.id]? = some l := by
  rw [Board.enter] at hc ⊢
  rcases e : b.open? id capacity now with - | ⟨l', b'⟩
  · simp only [e] at hc
    cases hn.symm.trans hc
  · obtain ⟨outbox, rfl, rfl⟩ := open?_eq_some e
    have hnew : (b.lines ++ [⟨id, outbox, none, now, false, ∅⟩])[b.lines.length]? =
        some ⟨id, outbox, none, now, false, ∅⟩ := by simp
    -- the new connection is the only one that has not been there
    have hl : ∀ {c : Connection}, (b.lines ++ [⟨id, outbox, none, now, false, ∅⟩])[l]? = some c →
        l = b.lines.length := by
      intro c hc
      have hlt := (List.getElem?_eq_some_iff.1 hc).1
      have hge := List.getElem?_eq_none_iff.1 hn
      rw [List.length_append, List.length_singleton] at hlt
      exact Nat.le_antisymm (Nat.lt_succ_iff.1 hlt) hge
    simp only [e, register, hnew] at hc ⊢
    by_cases hclosing : b.closing = true
    · -- the end has begun, and it would be closed
      simp only [if_pos hclosing, close] at hc
      rw [getElem?_modify] at hc
      split at hc
      · obtain ⟨c', -, rfl⟩ := Option.map_eq_some_iff.1 hc
        cases hopen
      · rename_i hne
        exact absurd (hl hc).symm hne
    · simp only [if_neg hclosing] at hc ⊢
      obtain rfl := hl hc
      cases hnew.symm.trans hc
      simp

/-- **Whoever leaves by a call is closed by it**, unless its name is unregistered. -/
theorem InStep.leavesClosed_after (h : b.InStep) (hf : k.Fresh b)
    (hk : ∀ id, k = .unregister id → b.registered[id]? ≠ some l) :
    LeavesClosed l b (b.after k) := by
  cases k with
  | enter id capacity now => exact h.leavesClosed_enter hf l capacity now
  | unregister id =>
    intro id' hid'
    left
    have hne : id ≠ id' := by
      rintro rfl
      exact hk id rfl hid'
    show (b.unregister id).2.registered[id']? = _
    rw [registered_unregister, Std.ExtTreeMap.getElem?_erase, if_neg (by simpa using hne)]
    exact hid'
  | identify id who =>
    exact leavesClosed_of_eq
      (registered_orKeep fun _ hb => (FrameEffect.identify id who hb).registered)
  | subscribe id channel =>
    exact leavesClosed_of_eq
      (registered_orKeep fun _ hb => (FrameEffect.subscribe id channel hb).registered)
  | unsubscribe id channel =>
    exact leavesClosed_of_eq
      (registered_orKeep fun _ hb => (FrameEffect.unsubscribe id channel hb).registered)
  | sweep now => exact h.leavesClosed_sweep l now
  | shutdown => exact h.leavesClosed_shutdown l
  | broadcast m => exact leavesClosed_of_eq (alike_offerAll m _ b).registered
  | toChannel channel m => exact leavesClosed_of_eq (alike_offerAll m _ b).registered
  | toUser user m => exact leavesClosed_of_eq (alike_offerAll m _ b).registered
  | send l' m => exact leavesClosed_of_eq (alike_orKeep_send b l' m).registered
  | close l' | touch l' now | receive l' | forsake l' => exact leavesClosed_of_eq rfl
  | frame check now draw l' content =>
    exact leavesClosed_of_eq (registered_handleFrame b check now draw l' content)

/-- A name that is not registered is listed nowhere. -/
theorem InStep.unlisted (h : b.InStep) (hn : b.registered[id]? = none) :
    (∀ user : String, id ∉ b.users.listed user) ∧
      ∀ channel : String, id ∉ b.channels.listed channel := by
  have hno : b.holder? id = none := by rw [holder?, hn]; rfl
  constructor
  · intro user hu
    obtain ⟨c, hc, -⟩ := (h.users user id).1 hu
    cases hno.symm.trans hc
  · intro channel hm
    obtain ⟨c, hc, -⟩ := (h.channels channel id).1 hm
    cases hno.symm.trans hc

/-- To unregister a name changes no connection. -/
theorem lines_unregister (b : Board) (id : ConnectionId) : (b.unregister id).2.lines = b.lines := by
  rw [unregister]
  split
  · rfl
  · exact lines_drop b id _

end Switchboard.Board
