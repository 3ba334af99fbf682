/-
Switchboard/Proofs/Board/Onward.lean

What no call takes back.

Connections keep their numbers and their names, a closed one stays closed,
and no connection that has once left the board comes back: whatever is
registered was registered before or is new.  A board is `Onward` of another
if it is so, which holds of every call.
-/
import Switchboard.Proofs.Board.Consistency

namespace Switchboard.Board

/-- Connections keep number and name, what was closed is closed, and what is registered was so or
is new. -/
structure Onward (b b' : Board) : Prop where
  policy : b'.policy = b.policy
  line : ∀ {l : LineNumber} {c : Connection}, b.lines[l]? = some c →
    ∃ c', b'.lines[l]? = some c' ∧ c'.id = c.id ∧ (c.closed = true → c'.closed = true)
  registered : ∀ {id : ConnectionId} {l : LineNumber}, b'.registered[id]? = some l →
    b.registered[id]? = some l ∨ b.lines.length ≤ l

variable {b b' b'' : Board} {l : LineNumber} {id : ConnectionId}

theorem Onward.refl (b : Board) : Onward b b := ⟨rfl, fun h => ⟨_, h, rfl, fun hc => hc⟩, .inl⟩

/-- Connections are only ever added. -/
theorem Onward.length_le (h : Onward b b') : b.lines.length ≤ b'.lines.length := by
  by_contra hlt
  have hl : b'.lines.length < b.lines.length := Nat.lt_of_not_le hlt
  -- the first number past the end of the new board leads nowhere there, but did so before
  obtain ⟨c', hc', -⟩ := h.line (List.getElem?_eq_getElem hl)
  have hlt' : b'.lines.length < b'.lines.length := (List.getElem?_eq_some_iff.1 hc').1
  exact absurd hlt' (Nat.lt_irrefl _)

theorem Onward.trans (h : Onward b b') (h' : Onward b' b'') : Onward b b'' where
  policy := h'.policy.trans h.policy
  line := by
    intro l c hc
    obtain ⟨c', hc', hid, hcl⟩ := h.line hc
    obtain ⟨c'', hc'', hid', hcl'⟩ := h'.line hc'
    exact ⟨c'', hc'', hid'.trans hid, hcl' ∘ hcl⟩
  registered := by
    intro id l hl
    rcases h'.registered hl with hl | hl
    · exact h.registered hl
    · -- new on the second board is new on the first
      exact .inr (Nat.le_trans h.length_le hl)

/-- What is not registered does not become so. -/
theorem Onward.unregistered (h : Onward b b') (hl : l < b.lines.length)
    (hn : ∀ id : ConnectionId, b.registered[id]? ≠ some l) (id : ConnectionId) :
    b'.registered[id]? ≠ some l := by
  intro e
  rcases h.registered e with e | hge
  · exact hn id e
  · exact absurd hl (Nat.not_lt.2 hge)

/-- Whoever is open has been open before, under the same name. -/
theorem Onward.open_before (h : Onward b b') {c c' : Connection} (hc : b.lines[l]? = some c)
    (hc' : b'.lines[l]? = some c') (hopen : c'.closed = false) :
    c'.id = c.id ∧ c.closed = false := by
  obtain ⟨c'', hc'', hid, hcl⟩ := h.line hc
  cases hc'.symm.trans hc''
  refine ⟨hid, Bool.eq_false_iff.2 fun hclosed => ?_⟩
  rw [hcl hclosed] at hopen
  cases hopen

/-! ### Changes of one connection -/

/-- A connection may be changed as long as it keeps its name and stays closed if it is. -/
theorem onward_modify {f : Connection → Connection}
    (hf : ∀ c, b.lines[l]? = some c → (f c).id = c.id ∧ (c.closed = true → (f c).closed = true)) :
    Onward b (b.modify l f) := by
  refine ⟨rfl, ?_, .inl⟩
  intro l' c hc
  by_cases h : l = l'
  · subst h
    exact ⟨f c, getElem?_modify_self hc, hf c hc⟩
  · exact ⟨c, (getElem?_modify_ne h).trans hc, rfl, fun hcl => hcl⟩

theorem onward_close (b : Board) (l : LineNumber) : Onward b (b.close l) :=
  onward_modify fun _ _ => ⟨rfl, fun _ => rfl⟩

theorem onward_touch (b : Board) (l : LineNumber) (now : Nat) : Onward b (b.touch l now) :=
  onward_modify fun _ _ => ⟨rfl, fun hc => hc⟩

/-- A message is put into a queue that is still the same connection's. -/
theorem onward_offer (b : Board) (l : LineNumber) (m : Envelope) : Onward b (b.offer l m).2 := by
  cases h : b.accepts l with
  | true =>
    rw [offer_of_accepts h]
    exact onward_modify fun _ _ => ⟨rfl, fun hc => hc⟩
  | false =>
    rw [offer_of_not_accepts h]
    exact .refl b

theorem onward_offerAll (m : Envelope) (ls : List LineNumber) (b : Board) :
    Onward b (offerAll m ls b).2 := by
  induction ls generalizing b with
  | nil => exact .refl b
  | cons l ls ih => exact (onward_offer b l m).trans (ih _)

/-! ### The indices -/

/-- Indices of users and channels do not matter here. -/
theorem Onward.index (h : Onward b b') (users : UserIndex) (channels : ChannelIndex) :
    Onward b { b' with users, channels } :=
  ⟨h.policy, h.line, h.registered⟩

/-- The indices may lose a name, but not get one back. -/
theorem onward_erase (b : Board) (id : ConnectionId) (users : UserIndex) (channels : ChannelIndex) :
    Onward b { b with registered := b.registered.erase id, users, channels } := by
  refine ⟨rfl, (Onward.refl b).line, ?_⟩
  intro id' l hl
  rw [Std.ExtTreeMap.getElem?_erase] at hl
  split at hl
  · -- the name that is erased leads nowhere
    cases hl
  · exact .inl hl

/-- To drop a connection takes its name from the indices and changes nothing else. -/
theorem onward_drop (b : Board) (id : ConnectionId) (l : LineNumber) : Onward b (b.drop id l) := by
  rw [drop]
  split
  · exact onward_erase b id b.users b.channels
  · exact onward_erase b id _ _

theorem onward_unregister (b : Board) (id : ConnectionId) : Onward b (b.unregister id).2 := by
  rw [unregister]
  split
  · exact .refl b
  · exact onward_drop b id _

/-- An identity is given to a connection that is registered already. -/
theorem onward_identify {who : Identity} (h : b.identify id who = .ok b') : Onward b b' := by
  obtain ⟨l, c, -, hc, -, rfl⟩ := identify_eq_ok h
  refine (onward_modify ?_).index _ _
  intro c' hc'
  cases hc.symm.trans hc'
  exact ⟨rfl, fun hcl => hcl⟩

/-- So is a channel. -/
theorem onward_subscribe {channel : String} (h : b.subscribe id channel = .ok b') :
    Onward b b' := by
  obtain ⟨l, c, -, -, rfl⟩ := subscribe_eq_ok h
  have hm : Onward b (b.modify l fun c => (c.join channel).2) :=
    onward_modify fun _ _ => ⟨rfl, fun hcl => hcl⟩
  exact hm.index b.users (b.channels.join channel id)

theorem onward_unsubscribe {channel : String} (h : b.unsubscribe id channel = .ok b') :
    Onward b b' := by
  obtain ⟨l, c, -, -, rfl⟩ := unsubscribe_eq_ok h
  have hm : Onward b (b.modify l fun c => (c.leave channel).2) :=
    onward_modify fun _ _ => ⟨rfl, fun hcl => hcl⟩
  exact hm.index b.users (b.channels.leave channel id)

/-! ### Entering, sweeps and the end -/

/-- A new connection comes after all others, and is registered later if at all. -/
theorem onward_append (b : Board) (c : Connection) :
    Onward b { b with lines := b.lines ++ [c] } := by
  refine ⟨rfl, ?_, .inl⟩
  intro l c' hc'
  have hl := (List.getElem?_eq_some_iff.1 hc').1
  exact ⟨c', (List.getElem?_append_left hl).trans hc', rfl, fun h => h⟩

/-- A new connection is registered. -/
theorem onward_register_new (b : Board) (c : Connection) :
    Onward b (({ b with lines := b.lines ++ [c] } : Board).register b.lines.length).2 := by
  have hc : (b.lines ++ [c])[b.lines.length]? = some c := by simp
  rw [register, hc]
  simp only
  split
  · -- the end has begun, and the connection is closed instead
    exact (onward_append b c).trans (onward_close _ _)
  · refine ⟨rfl, (onward_append b c).line, ?_⟩
    intro id l hl
    rw [Std.ExtTreeMap.getElem?_insert] at hl
    split at hl
    · cases hl
      exact .inr (Nat.le_refl _)
    · exact .inl hl

/-- A connection that comes is new, with a line of its own. -/
theorem onward_enter (b : Board) (id : ConnectionId) (capacity now : Nat) :
    Onward b (b.enter id capacity now) := by
  rw [Board.enter]
  rcases e : b.open? id capacity now with - | ⟨l, b'⟩
  · exact .refl b
  · obtain ⟨outbox, rfl, rfl⟩ := open?_eq_some e
    exact onward_register_new b _

/-- To remove several is to remove one after the other. -/
theorem onward_removeAll (gone : List (ConnectionId × LineNumber)) (b : Board) :
    Onward b (gone.foldl (fun b r => b.remove r.1 r.2) b) := by
  induction gone generalizing b with
  | nil => exact .refl b
  | cons r gone ih => exact ((onward_drop b r.1 r.2).trans (onward_close _ r.2)).trans (ih _)

theorem onward_sweep (b : Board) (now : Nat) : Onward b (b.sweep now).2 := onward_removeAll _ b

theorem onward_closeAll (ls : List LineNumber) (b : Board) : Onward b (ls.foldl close b) := by
  induction ls generalizing b with
  | nil => exact .refl b
  | cons l ls ih => exact (onward_close b l).trans (ih _)

/-- The end empties the indices and closes connections. -/
theorem onward_shutdown (b : Board) : Onward b b.shutdown.2 := by
  -- the board is emptied first, and then everyone is closed
  refine Onward.trans ?_ (onward_closeAll _ _)
  refine ⟨rfl, (Onward.refl b).line, ?_⟩
  intro id l hl
  simp at hl

/-- To come is to be made and to be registered. -/
theorem enter_eq {capacity now : Nat} {c : Connection}
    (h : Connection.new? id capacity now = some c) : b.enter id capacity now =
      (({ b with lines := b.lines ++ [c] } : Board).register b.lines.length).2 := by
  have ho : b.open? id capacity now =
      some (b.lines.length, { b with lines := b.lines ++ [c] }) := by
    rw [open?, h]
    rfl
  rw [Board.enter, ho]

/-- Whoever enters is closed exactly if the end has begun. -/
theorem getElem?_enter {capacity now : Nat} {c : Connection}
    (h : Connection.new? id capacity now = some c) :
    ∃ c', (b.enter id capacity now).lines[b.lines.length]? = some c' ∧ c'.closed = b.closing := by
  have hopen : c.closed = false := by
    obtain ⟨outbox, -, rfl⟩ := Option.map_eq_some_iff.1 h
    rfl
  have hc : (b.lines ++ [c])[b.lines.length]? = some c := by simp
  rw [enter_eq h, register, hc]
  simp only
  split
  · rename_i hcl
    exact ⟨c.close.2, getElem?_modify_self hc, hcl.symm⟩
  · rename_i hcl
    exact ⟨c, hc, hopen.trans (Bool.eq_false_iff.2 hcl).symm⟩

/-! ### Calls -/

/-- A frame does nothing but what requests do. -/
theorem FrameEffect.onward (e : FrameEffect b b') : Onward b b' := by
  cases e with
  | nothing => exact .refl b
  | touch l now => exact onward_touch b l now
  | identify _ _ hb => exact onward_identify hb
  | subscribe _ _ hb => exact onward_subscribe hb
  | unsubscribe _ _ hb => exact onward_unsubscribe hb
  | publish channel m => exact onward_offerAll m _ b

/-- Nor does its handling, whatever is answered. -/
theorem onward_handleFrame (b : Board) (check : Check) (now : Nat) (draw : Draw) (l : LineNumber)
    (content : Bytes) : Onward b (b.handleFrame check now draw l content).2 := by
  obtain ⟨b', he, e | ⟨m, e⟩⟩ := handleFrame_cases b check now draw l content
  · rw [e]
    exact he.onward
  · -- and the message is answered
    rw [e]
    exact he.onward.trans (onward_offer b' l m)

/-- What fails changes nothing. -/
theorem onward_orKeep {r : Except Fault Board} (hr : ∀ b', r = .ok b' → Onward b b') :
    Onward b (b.orKeep r) := by
  cases r with
  | ok b' => exact hr b' rfl
  | error f => exact .refl b

theorem onward_send {m : Envelope} (h : b.send l m = .ok b') : Onward b b' := by
  have ho := onward_offer b l m
  rw [offer, h] at ho
  exact ho

/-- To take a message closes nothing. -/
theorem closed_receive (c : Connection) : c.receive.closed = c.closed := by
  rw [Connection.receive]
  split <;> rfl

/-- No call takes back what is for good. -/
theorem onward_after (b : Board) (k : Call) : Onward b (b.after k) := by
  cases k with
  | enter id capacity now => exact onward_enter b id capacity now
  | unregister id => exact onward_unregister b id
  | identify id who => exact onward_orKeep fun _ => onward_identify
  | subscribe id channel => exact onward_orKeep fun _ => onward_subscribe
  | unsubscribe id channel => exact onward_orKeep fun _ => onward_unsubscribe
  | sweep now => exact onward_sweep b now
  | shutdown => exact onward_shutdown b
  | broadcast m => exact onward_offerAll m _ b
  | toChannel channel m => exact onward_offerAll m _ b
  | toUser user m => exact onward_offerAll m _ b
  | send l m => exact onward_orKeep fun _ => onward_send
  | close l => exact onward_close b l
  | touch l now => exact onward_touch b l now
  | receive l =>
    refine onward_modify fun c _ => ⟨Connection.id_eq_of_standing c.standing_receive, fun hc => ?_⟩
    rwa [closed_receive]
  | forsake l => exact onward_modify fun _ _ => ⟨rfl, fun hc => hc⟩
  | frame check now draw l content => exact onward_handleFrame b check now draw l content

/-! ### Dismissal -/

/-- A connection leaves the board by its name, and whatever was registered under the name is
closed. -/
def dismiss (b : Board) (id : ConnectionId) : Board :=
  match b.unregister id with
  | (some l, b) => b.close l
  | (none, b) => b

/-- A socket that is done with has its connection closed and taken off. -/
theorem onward_dismiss (b : Board) (id : ConnectionId) : Onward b (b.dismiss id) := by
  have hu := onward_unregister b id
  rw [dismiss]
  rcases e : b.unregister id with ⟨- | l, b'⟩
  · rw [e] at hu
    exact hu
  · rw [e] at hu
    exact hu.trans (onward_close b' l)

theorem InStep.dismiss (h : b.InStep) (id : ConnectionId) : (b.dismiss id).InStep := by
  have hu := h.unregister id
  rw [Board.dismiss]
  rcases e : b.unregister id with ⟨- | l, b'⟩
  · rw [e] at hu
    exact hu
  · rw [e] at hu
    exact hu.of_alike (alike_close b' l)

/-- Of the names only its own goes. -/
theorem registered_dismiss (b : Board) (id : ConnectionId) :
    (b.dismiss id).registered = b.registered.erase id := by
  rw [← registered_unregister, dismiss]
  rcases b.unregister id with ⟨- | l, b'⟩ <;> rfl

theorem lines_drop (b : Board) (id : ConnectionId) (l : LineNumber) :
    (b.drop id l).lines = b.lines := by
  rw [drop]
  split <;> rfl

/-- Where all names are different, a name belongs to one connection. -/
theorem line_eq_of_distinct (h : (b.lines.map Connection.id).Nodup) {c c' : Connection}
    {l' : LineNumber} (hc : b.lines[l]? = some c) (hc' : b.lines[l']? = some c')
    (hid : c.id = c'.id) : l = l' := by
  have hm : (b.lines.map Connection.id)[l]? = some c.id := by rw [List.getElem?_map, hc]; rfl
  have hm' : (b.lines.map Connection.id)[l']? = some c.id := by
    rw [List.getElem?_map, hc', hid]
    rfl
  obtain ⟨hl, e⟩ := List.getElem?_eq_some_iff.1 hm
  obtain ⟨hl', e'⟩ := List.getElem?_eq_some_iff.1 hm'
  exact (h.getElem_inj_iff).1 (e.trans e'.symm)

/-- A name leads to the connection that has it. -/
theorem InStep.line_eq_of_registered (h : b.InStep) {c : Connection} {l' : LineNumber}
    (hl : b.registered[c.id]? = some l') (hc : b.lines[l]? = some c) : l' = l := by
  obtain ⟨c', hc', hid⟩ := h.named hl
  exact line_eq_of_distinct h.distinct hc' hc hid

/-- When a closed connection leaves by its name, no connection is changed. -/
theorem InStep.lines_dismiss (h : b.InStep) {c : Connection} (hc : b.lines[l]? = some c)
    (hcl : c.closed = true) : (b.dismiss c.id).lines = b.lines := by
  rw [Board.dismiss, Board.unregister]
  rcases e : b.registered[c.id]? with - | l'
  · -- it had left before
    rfl
  · -- what is registered under the name is this connection itself
    obtain rfl : l' = l := h.line_eq_of_registered e hc
    have hself : c.close.2 = c := by
      cases c
      cases hcl
      rfl
    refine List.ext_getElem? fun i => ?_
    show ((b.drop c.id l').close l').lines[i]? = _
    rw [Board.close, getElem?_modify, lines_drop]
    split
    · rename_i hi
      rw [← hi, hc, Option.map_some, hself]
    · rfl

end Switchboard.Board
