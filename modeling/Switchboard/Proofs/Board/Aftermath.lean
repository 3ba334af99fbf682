/-
Switchboard/Proofs/Board/Aftermath.lean

What becomes of a board after its end.

Calls are not all that can happen to a board.  A connection may be made a
while before it is registered, one may be registered that has been before,
and a connection may be changed by whoever holds it, past the board.
`Operation` lists all this together with the calls.

A board is `Disbanded` once the end has begun and the indices are empty.
None of the operations takes that back, and none opens a connection again: the
board `Wanes`.  So whatever is asked of it from then on is refused, and this
is told operation by operation in `Refuses`.
-/
import Switchboard.Proofs.Board.Acts
import Switchboard.Proofs.Board.Fanout

namespace Switchboard

/-- To be closed again changes nothing. -/
theorem Connection.run_replicate_close (c : Connection) (n : Nat) :
    c.close.2.run (List.replicate n .close) = c.close.2 := by
  induction n with
  | zero => rfl
  | succ n ih => exact ih

namespace Board

variable {b b' b'' : Board} {l : LineNumber}

/-- The end has begun, and nobody is on the board. -/
structure Disbanded (b : Board) : Prop where
  closing : b.closing = true
  registered : b.registered = ∅
  users : b.users = ∅
  channels : b.channels = ∅

/-- Is there a connection of that number, and is it closed? -/
def ClosedAt (b : Board) (l : LineNumber) : Prop := ∃ c, b.lines[l]? = some c ∧ c.closed = true

/-! ### Operations -/

/-- Whatever can be done to a board and its connections. -/
inductive Operation where
  | call (k : Call)
  /-- A connection is made, and not registered yet. -/
  | make (id : ConnectionId) (capacity now : Nat)
  /-- A connection is registered, for the first time or again. -/
  | register (l : LineNumber)
  /-- Something is done to a connection itself. -/
  | act (l : LineNumber) (a : Connection.Act)

/-- The board after an operation. -/
def operate (b : Board) : Operation → Board
  | .call k => b.after k
  | .make id capacity now =>
    match b.open? id capacity now with
    | some (_, b') => b'
    | none => b
  | .register l => (b.register l).2
  | .act l a => b.modify l (·.after a)

/-! ### Waning -/

/-- Nobody comes to a board that is disbanded, and whoever is closed stays so. -/
structure Wanes (b b' : Board) : Prop where
  disbanded : b.Disbanded → b'.Disbanded
  closed : ∀ {l : LineNumber}, b.ClosedAt l → b'.ClosedAt l

theorem Wanes.refl (b : Board) : Wanes b b := ⟨id, id⟩

theorem Wanes.trans (h : Wanes b b') (h' : Wanes b' b'') : Wanes b b'' :=
  ⟨h'.disbanded ∘ h.disbanded, h'.closed ∘ h.closed⟩

/-- Whoever is closed stays so. -/
theorem Onward.closedAt (h : Onward b b') (hl : b.ClosedAt l) : b'.ClosedAt l := by
  obtain ⟨c, hc, hcl⟩ := hl
  obtain ⟨c', hc', -, hcl'⟩ := h.line hc
  exact ⟨c', hc', hcl' hcl⟩

theorem Alike.disbanded (a : Alike b b') (h : b.Disbanded) : b'.Disbanded :=
  ⟨a.closing.trans h.closing, a.registered.trans h.registered, a.users.trans h.users,
    a.channels.trans h.channels⟩

/-- A connection may be changed, as long as that does not open it. -/
theorem wanes_modify {f : Connection → Connection}
    (hf : ∀ c, b.lines[l]? = some c → c.closed = true → (f c).closed = true) :
    Wanes b (b.modify l f) := by
  refine ⟨fun h => ⟨h.closing, h.registered, h.users, h.channels⟩, ?_⟩
  rintro l' ⟨c, hc, hcl⟩
  by_cases e : l = l'
  · subst e
    exact ⟨f c, getElem?_modify_self hc, hf c hc hcl⟩
  · exact ⟨c, (getElem?_modify_ne e).trans hc, hcl⟩

theorem wanes_close (b : Board) (l : LineNumber) : Wanes b (b.close l) :=
  wanes_modify fun _ _ _ => rfl

/-- One that is made is new, and opens no other. -/
theorem wanes_open? {id : ConnectionId} {capacity now : Nat}
    (h : b.open? id capacity now = some (l, b')) : Wanes b b' := by
  obtain ⟨outbox, -, rfl⟩ := open?_eq_some h
  exact ⟨fun h => ⟨h.closing, h.registered, h.users, h.channels⟩, (onward_append b _).closedAt⟩

/-- A connection that is registered gets into no index once the end has begun. -/
theorem wanes_register (b : Board) (l : LineNumber) : Wanes b (b.register l).2 := by
  rcases hc : b.lines[l]? with - | c
  · have e : b.register l = (false, b) := by rw [register, hc]
    rw [e]
    exact .refl b
  · rcases hcl : b.closing with - | -
    · have e : (b.register l).2 = { b with registered := b.registered.insert c.id l } := by
        simp [register, hc, hcl]
      rw [e]
      refine ⟨fun h => ?_, id⟩
      -- the end has not begun
      rw [h.closing] at hcl
      cases hcl
    · have e : (b.register l).2 = b.close l := by simp [register, hc, hcl]
      rw [e]
      exact wanes_close b l

/-! ### Nothing is brought about by name -/

theorem Disbanded.getElem?_registered (h : b.Disbanded) (id : ConnectionId) :
    b.registered[id]? = none := by
  rw [h.registered, Std.ExtTreeMap.getElem?_empty]

/-- No name leads to anyone any more. -/
theorem Disbanded.find_eq (h : b.Disbanded) (id : ConnectionId) :
    b.find id = .error (.notFound id) :=
  find_of_find?_eq_none (h.getElem?_registered id)

/-- Nobody is given an identity. -/
theorem Disbanded.identify_eq (h : b.Disbanded) (id : ConnectionId) (who : Identity) :
    b.identify id who = .error (.notFound id) := by
  rw [identify, h.find_eq]
  rfl

/-- Nobody is there to be taken off. -/
theorem Disbanded.unregister_eq (h : b.Disbanded) (id : ConnectionId) :
    b.unregister id = (none, b) := by
  rw [unregister, h.getElem?_registered]

/-- Nobody is stale. -/
theorem Disbanded.stale_eq (h : b.Disbanded) (now : Nat) : b.stale now = [] := by
  rw [stale, h.registered]
  rfl

/-- A sweep finds nobody. -/
theorem Disbanded.sweep_eq (h : b.Disbanded) (now : Nat) : b.sweep now = (0, b) := by
  rw [sweep, h.stale_eq]
  rfl

/-- Another end finds nobody to close. -/
theorem Disbanded.shutdown_eq (h : b.Disbanded) : b.shutdown = (0, b) := by
  obtain ⟨policy, lines, registered, users, channels, closing⟩ := b
  obtain ⟨rfl, rfl, rfl, rfl⟩ := h
  rfl

/-- The end leaves nobody on the board. -/
theorem disbanded_shutdown (b : Board) : b.shutdown.2.Disbanded :=
  (alike_closeAll b.registered.values _).disbanded ⟨rfl, rfl, rfl, rfl⟩

/-- What succeeds on behalf of a name cannot have been done on a board that is disbanded. -/
theorem FrameEffect.disbanded (e : FrameEffect b b') (h : b.Disbanded) : b'.Disbanded := by
  cases e with
  | nothing => exact h
  | touch l now => exact (alike_touch b l now).disbanded h
  | identify id who hb => cases (h.identify_eq id who).symm.trans hb
  | subscribe id channel hb =>
    obtain ⟨l, -, hl, -⟩ := subscribe_eq_ok hb
    cases (h.getElem?_registered id).symm.trans hl
  | unsubscribe id channel hb =>
    obtain ⟨l, -, hl, -⟩ := unsubscribe_eq_ok hb
    cases (h.getElem?_registered id).symm.trans hl
  | publish channel m => exact (alike_offerAll m _ b).disbanded h

theorem Disbanded.orKeep {r : Except Fault Board} (h : b.Disbanded)
    (hr : ∀ b', r = .ok b' → FrameEffect b b') : (b.orKeep r).Disbanded := by
  cases r with
  | ok b' => exact (hr b' rfl).disbanded h
  | error f => exact h

/-- **No call founds the board again.** -/
theorem Disbanded.after (h : b.Disbanded) (k : Call) : (b.after k).Disbanded := by
  cases k with
  | enter id capacity now =>
    show (b.enter id capacity now).Disbanded
    rw [enter]
    rcases e : b.open? id capacity now with - | ⟨l, b'⟩
    · exact h
    · exact (wanes_register b' l).disbanded ((wanes_open? e).disbanded h)
  | unregister id =>
    show (b.unregister id).2.Disbanded
    rw [h.unregister_eq]
    exact h
  | identify id who => exact h.orKeep fun _ hb => .identify id who hb
  | subscribe id channel => exact h.orKeep fun _ hb => .subscribe id channel hb
  | unsubscribe id channel => exact h.orKeep fun _ hb => .unsubscribe id channel hb
  | sweep now =>
    show (b.sweep now).2.Disbanded
    rw [h.sweep_eq]
    exact h
  | shutdown => exact disbanded_shutdown b
  | broadcast m => exact (alike_offerAll m _ b).disbanded h
  | toChannel channel m => exact (alike_offerAll m _ b).disbanded h
  | toUser user m => exact (alike_offerAll m _ b).disbanded h
  | send l m => exact (alike_orKeep_send b l m).disbanded h
  | close l => exact (alike_close b l).disbanded h
  | touch l now => exact (alike_touch b l now).disbanded h
  | receive l => exact (alike_modify fun c _ => c.standing_receive).disbanded h
  | forsake l => exact (alike_modify (f := Connection.forsake) fun _ _ => rfl).disbanded h
  | frame check now draw l content =>
    obtain ⟨b', he, e | ⟨m, e⟩⟩ := handleFrame_cases b check now draw l content
    · show (b.handleFrame check now draw l content).2.Disbanded
      rw [e]
      exact he.disbanded h
    · -- the reply goes to the client's own queue, which is in no index
      show (b.handleFrame check now draw l content).2.Disbanded
      rw [e]
      exact (alike_offer b' l m).disbanded (he.disbanded h)

theorem wanes_after (b : Board) (k : Call) : Wanes b (b.after k) :=
  ⟨fun h => h.after k, (onward_after b k).closedAt⟩

/-- **No operation brings anyone back.** -/
theorem wanes_operate (b : Board) (o : Operation) : Wanes b (b.operate o) := by
  cases o with
  | call k => exact wanes_after b k
  | make id capacity now =>
    rcases e : b.open? id capacity now with - | ⟨l, b'⟩
    · simp only [operate, e]
      exact .refl b
    · simp only [operate, e]
      exact wanes_open? e
  | register l => exact wanes_register b l
  | act l a => exact wanes_modify fun _ _ => Connection.closed_after a

/-! ### What is refused -/

/-- The answers of a board on which nothing can be done any more. -/
structure Refuses (b : Board) : Prop where
  stats : b.stats = ⟨0, 0, 0⟩
  /-- Whoever would be registered is closed instead. -/
  register : ∀ l, b.register l = (false, b.close l)
  identify : ∀ id who, b.identify id who = .error (.notFound id)
  subscribe : ∀ id channel, checkChannel channel = .ok () →
    b.subscribe id channel = .error (.notFound id)
  unsubscribe : ∀ id channel, checkChannel channel = .ok () →
    b.unsubscribe id channel = .error (.notFound id)
  broadcast : ∀ m, b.broadcast m = (0, b)
  toChannel : ∀ channel m, b.toChannel channel m = (0, b)
  toUser : ∀ user m, b.toUser user m = (0, b)
  sweep : ∀ now, b.sweep now = (0, b)
  shutdown : b.shutdown = (0, b)

/-- Whoever would be registered is turned away and closed. -/
theorem Disbanded.register_eq (h : b.Disbanded) (l : LineNumber) :
    b.register l = (false, b.close l) := by
  rcases hc : b.lines[l]? with - | c
  · -- nobody is there to be closed
    have hlines : b.lines.modify l (fun c => c.close.2) = b.lines :=
      List.modify_eq_self (List.getElem?_eq_none_iff.1 hc)
    rw [register, hc, close, modify, hlines]
  · simp [register, hc, h.closing]

/-- All together. -/
theorem Disbanded.refuses (h : b.Disbanded) : b.Refuses where
  stats := by
    rw [stats, h.registered, h.users, h.channels]
    rfl
  register := h.register_eq
  identify := h.identify_eq
  subscribe id channel hch := by
    rw [subscribe, hch, h.find_eq]
    rfl
  unsubscribe id channel hch := by
    rw [unsubscribe, hch, h.find_eq]
    rfl
  broadcast m := by
    rw [broadcast, everyone, h.registered]
    rfl
  toChannel channel m := by
    rw [toChannel, subscribers, h.channels, Std.ExtTreeMap.getElem?_empty]
    rfl
  toUser user m := by
    rw [toUser, ofUser, h.users, Std.ExtTreeMap.getElem?_empty]
    rfl
  sweep := h.sweep_eq
  shutdown := h.shutdown_eq

/-- Whoever is registered is closed by the end, and not changed in any other way. -/
theorem getElem?_shutdown {id : ConnectionId} {c : Connection} (hl : b.registered[id]? = some l)
    (hc : b.lines[l]? = some c) : b.shutdown.2.lines[l]? = some c.close.2 := by
  have hmem : l ∈ b.registered.values := mem_values.2 ⟨id, hl⟩
  obtain ⟨n, hn⟩ := Nat.exists_eq_succ_of_ne_zero (List.count_pos_iff.2 hmem).ne'
  have hacts : b.acts l .shutdown = .close :: List.replicate n .close := by
    show List.replicate (b.registered.values.count l) _ = _
    rw [hn, List.replicate_succ]
  have hafter := getElem?_after_of_some hc .shutdown
  rw [hacts, Connection.run_cons] at hafter
  exact hafter.trans (congrArg some (c.run_replicate_close n))

/-! ### Before the end -/

/-- The end begins only with the shutdown: nothing else marks the board. -/
theorem closing_drop (b : Board) (id : ConnectionId) (l : LineNumber) :
    (b.drop id l).closing = b.closing := by
  rw [drop]
  split <;> rfl

theorem closing_unregister (b : Board) (id : ConnectionId) :
    (b.unregister id).2.closing = b.closing := by
  rw [unregister]
  split
  · rfl
  · exact closing_drop b id _

theorem closing_dismiss (b : Board) (id : ConnectionId) :
    (b.dismiss id).closing = b.closing := by
  have hu := closing_unregister b id
  rw [dismiss]
  rcases e : b.unregister id with ⟨- | l, b'⟩ <;> rw [e] at hu <;> exact hu

theorem closing_sweep (b : Board) (now : Nat) : (b.sweep now).2.closing = b.closing := by
  have hall : ∀ (rs : List (ConnectionId × LineNumber)) (b : Board),
      (rs.foldl (fun b r => b.remove r.1 r.2) b).closing = b.closing := by
    intro rs
    induction rs with
    | nil => exact fun _ => rfl
    | cons r rs ih => exact fun b => (ih _).trans (closing_drop b r.1 r.2)
  exact hall _ b

theorem closing_enter (b : Board) (id : ConnectionId) (capacity now : Nat) :
    (b.enter id capacity now).closing = b.closing := by
  have hregister : ∀ (b : Board) (l : LineNumber), (b.register l).2.closing = b.closing := by
    intro b l
    rw [register]
    split
    · rfl
    · split <;> rfl
  rw [enter]
  rcases e : b.open? id capacity now with - | ⟨l, b'⟩
  · rfl
  · obtain ⟨outbox, -, rfl⟩ := open?_eq_some e
    exact hregister _ l

/-- Nor does any frame. -/
theorem FrameEffect.closing_eq (e : FrameEffect b b') : b'.closing = b.closing := by
  cases e with
  | nothing => rfl
  | touch l now => rfl
  | identify id who hb =>
    obtain ⟨_, _, -, -, -, rfl⟩ := identify_eq_ok hb
    rfl
  | subscribe id channel hb =>
    obtain ⟨_, _, -, -, rfl⟩ := subscribe_eq_ok hb
    rfl
  | unsubscribe id channel hb =>
    obtain ⟨_, _, -, -, rfl⟩ := unsubscribe_eq_ok hb
    rfl
  | publish channel m => exact (alike_offerAll m _ b).closing

/-- **The end does not begin** but when it is called for. -/
theorem closing_after {k : Call} (hk : k ≠ .shutdown) : (b.after k).closing = b.closing := by
  have hkeep : ∀ r : Except Fault Board, (∀ b', r = .ok b' → FrameEffect b b') →
      (b.orKeep r).closing = b.closing := by
    rintro (f | b') hr
    · rfl
    · exact (hr b' rfl).closing_eq
  cases k with
  | shutdown => exact absurd rfl hk
  | enter id capacity now => exact closing_enter b id capacity now
  | unregister id => exact closing_unregister b id
  | identify id who => exact hkeep _ fun _ hb => .identify id who hb
  | subscribe id channel => exact hkeep _ fun _ hb => .subscribe id channel hb
  | unsubscribe id channel => exact hkeep _ fun _ hb => .unsubscribe id channel hb
  | sweep now => exact closing_sweep b now
  | broadcast m => exact (alike_offerAll m _ b).closing
  | toChannel channel m => exact (alike_offerAll m _ b).closing
  | toUser user m => exact (alike_offerAll m _ b).closing
  | send l m => exact (alike_orKeep_send b l m).closing
  | close l | touch l now | receive l | forsake l => rfl
  | frame check now draw l content =>
    obtain ⟨b', he, e | ⟨m, e⟩⟩ := handleFrame_cases b check now draw l content
    · show (b.handleFrame check now draw l content).2.closing = _
      rw [e]
      exact he.closing_eq
    · show (b.handleFrame check now draw l content).2.closing = _
      rw [e]
      exact (alike_offer b' l m).closing.trans he.closing_eq

end Board

end Switchboard
