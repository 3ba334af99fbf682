/-
Switchboard/Proofs/Service/Sound.lean

The sockets of a service and the connections that they serve.

A service is `Sound` if its board is in step, every socket has a connection
of its own, and the state of each socket is `Proper`: a finished one has no
connection on the board, nothing is held in a way that is broken off, nothing
waits for longer than is allowed, and no writer takes its leave from a
connection that is open.

The state of a socket has two parts, in the board and in the list of
sockets, and changes of one and of the other are followed one at a time:
`Sound.withBoard` is about the board, `Sound.putServed` about one socket,
and `Sound.runSocket` about the turn of a socket, in which it may finish.
-/
import Switchboard.Proofs.Board.Onward
import Switchboard.Proofs.Service.Run
import Switchboard.Proofs.Socket.Pumps

namespace Switchboard

/-! ### The state of a socket -/

/-- A finished socket has ended and left the board, nothing is held in a way that is broken off,
what waits is in time, and the writer is loyal. -/
structure Served.Proper (b : Board) (now : Nat) (l : LineNumber) (v : Served) : Prop where
  finished : v.socket.finished = true → v.connection.closed = true ∧ v.socket.reader = .ended ∧
    v.socket.writer = .ended ∧ ∀ id : ConnectionId, b.registered[id]? ≠ some l
  void : v.socket.pipe.Void
  timely : v.Timely b.policy now
  loyal : v.Loyal

namespace Served

variable {b b' : Board} {now now' : Nat} {l : LineNumber} {v v' : Served}

/-- A socket that goes on as sockets do stays proper. -/
theorem Proper.onward (h : v.Proper b now l) (ho : v.Onward v') (ht : v'.Timely b.policy now)
    (hloyal : v'.Loyal) : v'.Proper b now l where
  finished := by
    intro hf
    obtain ⟨hc, hr, hw, hn⟩ := h.finished (ho.finished.symm.trans hf)
    exact ⟨ho.closed hc, ho.reader hr, ho.writer hw, hn⟩
  void := ho.void h.void
  timely := ht
  loyal := hloyal

/-- The board goes on, and the time too. -/
theorem Proper.withBoard {c' : Connection} (h : v.Proper b now l) (ho : b.Onward b')
    (hl : l < b.lines.length) (hc : v.connection.closed = true → c'.closed = true)
    (hnow : now ≤ now') : Proper b' now' l ⟨c', v.socket⟩ where
  finished := by
    intro hf
    obtain ⟨hcl, hr, hw, hn⟩ := h.finished hf
    exact ⟨hc hcl, hr, hw, ho.unregistered hl hn⟩
  void := h.void
  timely := by
    intro deadline hw
    rw [ho.policy]
    exact Nat.le_trans (h.timely deadline hw) (Nat.add_le_add_right hnow _)
  loyal := h.loyal.imp_left (Or.imp_left hc)

/-- The state of a socket that is told the end of the stream, with its connection closed. -/
def concluded (v : Served) : Served :=
  ⟨v.connection.close.2, { v.socket with pipe := v.socket.pipe.put .ended, finished := true }⟩

/-- A socket does what is due, and is finished if both pumps have ended. -/
def turn (p : Policy) (now : Nat) (v : Served) : Served :=
  let v := v.run p now
  if v.socket.pumpsEnded && !v.socket.finished then v.concluded else v

end Served

namespace Service

/-! ### Looking at sockets -/

variable {s s' : Service} {k k' : SocketNumber} {l l' : LineNumber} {v v' w : Served}

/-- Whom a socket serves, by its line. -/
theorem served?_eq_some : s.served? k = some (l, v) ↔
    s.sockets[k]? = some v.socket ∧ v.socket.line = some l ∧
      s.board.lines[l]? = some v.connection := by
  constructor
  · intro h
    obtain ⟨socket, hk, h⟩ := Option.bind_eq_some_iff.1 h
    obtain ⟨l', hl, h⟩ := Option.bind_eq_some_iff.1 h
    obtain ⟨c, hc, h⟩ := Option.bind_eq_some_iff.1 h
    cases h
    exact ⟨hk, hl, hc⟩
  · rintro ⟨hk, hl, hc⟩
    rw [served?, hk]
    show (do let l ← v.socket.line; let c ← s.board.lines[l]?; some (l, Served.mk c v.socket)) = _
    rw [hl]
    show (do let c ← s.board.lines[l]?; some (l, Served.mk c v.socket)) = _
    rw [hc]
    rfl

/-- A change of a socket that serves somebody is put in its place. -/
theorem modifyServed_eq (hv : s.served? k = some (l, v)) (f : Served → Served) :
    s.modifyServed k f = s.putServed k l (f v) := by
  rw [modifyServed, hv]

/-- A socket that serves nobody is not changed. -/
theorem modifyServed_eq_self (hv : s.served? k = none) (f : Served → Served) :
    s.modifyServed k f = s := by
  rw [modifyServed, hv]

theorem served?_putServed (hv : s.served? k = some (l, v)) (hl : v'.socket.line = v.socket.line) :
    (s.putServed k l v').served? k = some (l, v') := by
  obtain ⟨hk, hline, hc⟩ := served?_eq_some.1 hv
  have hlt : k < s.sockets.length := (List.getElem?_eq_some_iff.1 hk).1
  refine served?_eq_some.2 ⟨List.getElem?_set_self hlt, hl.trans hline, ?_⟩
  exact Board.getElem?_modify_self hc

theorem putServed_putServed (s : Service) (k : SocketNumber) (l : LineNumber) (v v' : Served) :
    (s.putServed k l v).putServed k l v' = s.putServed k l v' := by
  simp only [putServed, Board.modify, List.set_set, List.modify_modify_eq, Function.comp_def]

/-! ### Sound services -/

/-- Every socket has a connection of its own, and all is proper. -/
structure Sound (s : Service) : Prop where
  inStep : s.board.InStep
  line_lt : ∀ {k : SocketNumber} {x : Socket} {l : LineNumber}, s.sockets[k]? = some x →
    x.line = some l → l < s.board.lines.length
  alone : ∀ {k k' : SocketNumber} {x x' : Socket} {l : LineNumber}, s.sockets[k]? = some x →
    s.sockets[k']? = some x' → x.line = some l → x'.line = some l → k = k'
  proper : ∀ {k : SocketNumber} {l : LineNumber} {v : Served}, s.served? k = some (l, v) →
    v.Proper s.board s.clock l

/-- **At first** there is nobody to serve. -/
theorem sound_start (policy : Policy) (check : Check) (supply : Nat → Draw) :
    (start policy check supply).Sound where
  inStep := Board.inStep_empty policy
  line_lt h := by cases h
  alone h := by cases h
  proper h := by cases h

/-- With the sockets as they were, a service is sound again if its sockets are proper. -/
theorem Sound.of_lines (h : s.Sound) (hi : s'.board.InStep)
    (hlen : s.board.lines.length ≤ s'.board.lines.length)
    (hsockets : ∀ k : SocketNumber, s'.sockets[k]?.map Socket.line = s.sockets[k]?.map Socket.line)
    (hproper : ∀ {k : SocketNumber} {l : LineNumber} {v : Served},
      s'.served? k = some (l, v) → v.Proper s'.board s'.clock l) : s'.Sound := by
  -- every socket was there before, with the same connection
  have hback : ∀ {k : SocketNumber} {x : Socket}, s'.sockets[k]? = some x →
      ∃ y, s.sockets[k]? = some y ∧ y.line = x.line := by
    intro k x hx
    have hm := hsockets k
    rw [hx] at hm
    exact Option.map_eq_some_iff.1 hm.symm
  refine ⟨hi, ?_, ?_, hproper⟩
  · intro k x l hx hl
    obtain ⟨y, hy, hyl⟩ := hback hx
    exact Nat.lt_of_lt_of_le (h.line_lt hy (hyl.trans hl)) hlen
  · intro k k' x x' l hx hx' hl hl'
    obtain ⟨y, hy, hyl⟩ := hback hx
    obtain ⟨y', hy', hyl'⟩ := hback hx'
    exact h.alone hy hy' (hyl.trans hl) (hyl'.trans hl')

/-! ### Changes of the board -/

/-- What a socket and its connection become when the board goes on. -/
theorem served?_withBoard (ho : s.board.Onward s'.board) (hs : s'.sockets[k]? = s.sockets[k]?)
    (hv : s.served? k = some (l, v)) :
    ∃ c', s'.served? k = some (l, ⟨c', v.socket⟩) ∧
      (v.connection.closed = true → c'.closed = true) := by
  obtain ⟨hk, hl, hc⟩ := served?_eq_some.1 hv
  obtain ⟨c', hc', -, hcl⟩ := ho.line hc
  exact ⟨c', served?_eq_some.2 ⟨hs.trans hk, hl, hc'⟩, hcl⟩

/-- A socket serves what it has served before. -/
theorem Sound.exists_served? (h : s.Sound) (hs : s'.sockets[k]? = s.sockets[k]?)
    (hv : s'.served? k = some (l, v)) : ∃ c, s.served? k = some (l, ⟨c, v.socket⟩) := by
  obtain ⟨hk, hl, -⟩ := served?_eq_some.1 hv
  rw [hs] at hk
  have hlt := h.line_lt hk hl
  exact ⟨s.board.lines[l], served?_eq_some.2 ⟨hk, hl, List.getElem?_eq_getElem hlt⟩⟩

/-- A socket that is as it was stays proper when the board and the clock go on. -/
theorem Sound.proper_withBoard (h : s.Sound) (ho : s.board.Onward s'.board)
    (hs : s'.sockets[k]? = s.sockets[k]?) (hnow : s.clock ≤ s'.clock)
    (hv : s'.served? k = some (l, v)) : v.Proper s'.board s'.clock l := by
  obtain ⟨c, hv₀⟩ := h.exists_served? hs hv
  obtain ⟨c', hv', hcl⟩ := served?_withBoard ho hs hv₀
  obtain ⟨hk, hl, -⟩ := served?_eq_some.1 hv₀
  have hvc : v = ⟨c', v.socket⟩ := congrArg Prod.snd (Option.some.inj (hv.symm.trans hv'))
  rw [hvc]
  exact (h.proper hv₀).withBoard ho (h.line_lt hk hl) hcl hnow

/-- The board and the clock go on. -/
theorem Sound.withBoard (h : s.Sound) (hi : s'.board.InStep) (ho : s.board.Onward s'.board)
    (hs : s'.sockets = s.sockets) (hnow : s.clock ≤ s'.clock) : s'.Sound := by
  have hk : ∀ k : SocketNumber, s'.sockets[k]? = s.sockets[k]? := fun k => by rw [hs]
  refine h.of_lines hi ho.length_le (fun k => by rw [hk]) ?_
  exact fun {k l v} hv => h.proper_withBoard ho (hk k) hnow hv

/-- A socket is added, for a connection that is new. -/
theorem Sound.append (h : s.Sound) {x : Socket} (hs : s'.sockets = s.sockets ++ [x])
    (hi : s'.board.InStep) (ho : s.board.Onward s'.board) (hnow : s.clock ≤ s'.clock)
    (hx : ∀ l, x.line = some l → l = s.board.lines.length ∧ l < s'.board.lines.length ∧
      ∀ c, (Served.mk c x).Proper s'.board s'.clock l) : s'.Sound := by
  -- a socket is one of the old or the one that is added
  have hsocket : ∀ {k : SocketNumber} {y : Socket}, s'.sockets[k]? = some y →
      s'.sockets[k]? = s.sockets[k]? ∨ k = s.sockets.length ∧ y = x := by
    intro k y hy
    rw [hs] at hy ⊢
    rcases Nat.lt_trichotomy k s.sockets.length with hlt | rfl | hgt
    · exact .inl (List.getElem?_append_left hlt)
    · rw [List.getElem?_concat_length] at hy
      exact .inr ⟨rfl, (Option.some.inj hy).symm⟩
    · rw [List.getElem?_eq_none (by simpa using hgt)] at hy
      cases hy
  refine ⟨hi, ?_, ?_, ?_⟩
  · intro k y l hy hl
    rcases hsocket hy with he | ⟨-, rfl⟩
    · exact Nat.lt_of_lt_of_le (h.line_lt (he.symm.trans hy) hl) ho.length_le
    · exact (hx l hl).2.1
  · -- an old socket has an old connection, and the new one a new connection
    intro k k' y y' l hy hy' hl hl'
    rcases hsocket hy with he | ⟨hk, rfl⟩
    · rcases hsocket hy' with he' | ⟨-, rfl⟩
      · exact h.alone (he.symm.trans hy) (he'.symm.trans hy') hl hl'
      · have hlt := h.line_lt (he.symm.trans hy) hl
        exact absurd (hx l hl').1 (Nat.ne_of_lt hlt)
    · rcases hsocket hy' with he' | ⟨hk', -⟩
      · have hlt := h.line_lt (he'.symm.trans hy') hl'
        exact absurd (hx l hl).1 (Nat.ne_of_lt hlt)
      · exact hk.trans hk'.symm
  · intro k l v hv
    obtain ⟨hk, hl, -⟩ := served?_eq_some.1 hv
    rcases hsocket hk with he | ⟨-, hvx⟩
    · exact h.proper_withBoard ho he hnow hv
    · have hp := (hx l (hvx ▸ hl)).2.2 v.connection
      rw [← hvx] at hp
      exact hp

/-! ### Changes of a socket -/

/-- No two sockets serve the same connection, so none is changed with another. -/
theorem Sound.served?_putServed_ne (h : s.Sound) (hv : s.served? k = some (l, v)) (hk : k ≠ k')
    (v' : Served) : (s.putServed k l v').served? k' = s.served? k' := by
  obtain ⟨hx, hl, -⟩ := served?_eq_some.1 hv
  have hs : (s.putServed k l v').sockets[k']? = s.sockets[k']? := List.getElem?_set_ne hk
  rw [served?, served?, hs]
  rcases e : s.sockets[k']? with - | x
  · rfl
  · rcases e' : x.line with - | l'
    · simp only [bind, Option.bind, e']
    · -- no two sockets have one connection
      have hne : l ≠ l' := by
        rintro rfl
        exact hk (h.alone hx e hl e')
      have hc : (s.putServed k l v').board.lines[l']? = s.board.lines[l']? :=
        Board.getElem?_modify_ne hne
      simp only [bind, Option.bind, e', hc]

theorem Sound.served?_modifyServed_ne (h : s.Sound) (hk : k' ≠ k) (f : Served → Served) :
    (s.modifyServed k' f).served? k = s.served? k := by
  rcases hv : s.served? k' with - | ⟨l', v⟩
  · rw [modifyServed_eq_self hv]
  · rw [modifyServed_eq hv]
    exact h.served?_putServed_ne hv hk _

/-- A socket and its connection change, and the board with them. -/
def putWithBoard (s : Service) (k : SocketNumber) (l : LineNumber) (v : Served) (b : Board) :
    Service :=
  { s.putServed k l v with board := b }

theorem served?_congr (hb : s'.board.lines = s.board.lines) (hs : s'.sockets = s.sockets)
    (k : SocketNumber) : s'.served? k = s.served? k := by
  rw [served?, served?, hs, hb]

/-- After a change of one socket the others are as they were. -/
structure Turned (k : SocketNumber) (f : Served → Served) (s s' : Service) : Prop where
  sound : s'.Sound
  board : s.board.Onward s'.board
  length : s'.sockets.length = s.sockets.length
  clock : s'.clock = s.clock
  sweepers : s'.sweepers = s.sweepers
  own : s'.served? k = (s.served? k).map fun r => (r.1, f r.2)
  others : ∀ k' : SocketNumber, k ≠ k' → s'.served? k' = s.served? k'

theorem Turned.policy {f : Served → Served} (t : Turned k f s s') : s'.policy = s.policy :=
  t.board.policy

theorem Turned.trans {f g : Served → Served} {u : Service} (t : Turned k f s s')
    (t' : Turned k g s' u) : Turned k (g ∘ f) s u where
  sound := t'.sound
  board := t.board.trans t'.board
  length := t'.length.trans t.length
  clock := t'.clock.trans t.clock
  sweepers := t'.sweepers.trans t.sweepers
  own := by rw [t'.own, t.own, Option.map_map]; rfl
  others k' hk := (t'.others k' hk).trans (t.others k' hk)

theorem Turned.congr {f g : Served → Served} (t : Turned k f s s')
    (hfg : ∀ {l : LineNumber} {v : Served}, s.served? k = some (l, v) → f v = g v) :
    Turned k g s s' where
  __ := t
  own := by
    rw [t.own]
    rcases hv : s.served? k with - | ⟨l, v⟩
    · rfl
    · exact congrArg (fun w => some (l, w)) (hfg hv)

/-- Where nobody is served, nothing changes. -/
theorem turned_self (h : s.Sound) (hv : s.served? k = none) (f : Served → Served) :
    Turned k f s s :=
  ⟨h, .refl _, rfl, rfl, rfl, by rw [hv]; rfl, fun _ _ => rfl⟩

/-- A socket may be changed together with the board. -/
theorem turned_putWithBoard (h : s.Sound) (hv : s.served? k = some (l, v)) {f : Served → Served}
    {b : Board} (hlines : b.lines = (s.putServed k l (f v)).board.lines) (hi : b.InStep)
    (ho : s.board.Onward b) (hl : (f v).socket.line = v.socket.line)
    (hp : (f v).Proper b s.clock l) : Turned k f s (s.putWithBoard k l (f v) b) := by
  have hsame : ∀ i, (s.putWithBoard k l (f v) b).served? i = (s.putServed k l (f v)).served? i :=
    served?_congr hlines rfl
  have hown : (s.putWithBoard k l (f v) b).served? k = some (l, f v) :=
    (hsame k).trans (served?_putServed hv hl)
  have hothers : ∀ k' : SocketNumber, k ≠ k' →
      (s.putWithBoard k l (f v) b).served? k' = s.served? k' :=
    fun k' hk => (hsame k').trans (h.served?_putServed_ne hv hk _)
  refine ⟨h.of_lines hi ho.length_le ?_ ?_, ho, List.length_set, rfl, rfl, ?_, hothers⟩
  · intro i
    show (s.sockets.set k (f v).socket)[i]?.map Socket.line = _
    by_cases hik : k = i
    · subst hik
      obtain ⟨hx, -, -⟩ := served?_eq_some.1 hv
      rw [List.getElem?_set_self (List.getElem?_eq_some_iff.1 hx).1, hx]
      exact congrArg some hl
    · rw [List.getElem?_set_ne hik]
  · intro i l' u hu
    by_cases hik : k = i
    · subst hik
      cases hown.symm.trans hu
      exact hp
    · -- the other sockets are proper, and the board goes on
      rw [hothers i hik] at hu
      obtain ⟨hx, hl', -⟩ := served?_eq_some.1 hu
      exact (h.proper hu).withBoard ho (h.line_lt hx hl') id (Nat.le_refl _)
  · rw [hv]
    exact hown

/-- A socket and its connection go on. -/
theorem turned_putServed (h : s.Sound) (hv : s.served? k = some (l, v)) {f : Served → Served}
    (ho : v.Onward (f v)) (ht : (f v).Timely s.policy s.clock) (hloyal : (f v).Loyal) :
    Turned k f s (s.putServed k l (f v)) := by
  obtain ⟨hx, hl, hc⟩ := served?_eq_some.1 hv
  have hstanding : ∀ c, s.board.lines[l]? = some c → (f v).connection.standing = c.standing := by
    intro c hc'
    cases hc.symm.trans hc'
    exact ho.standing
  have hb : s.board.Onward (s.putServed k l (f v)).board := by
    refine Board.onward_modify fun c hc' => ?_
    have hid := Connection.id_eq_of_standing (hstanding c hc')
    cases hc.symm.trans hc'
    exact ⟨hid, ho.closed⟩
  have hp := (h.proper hv).onward ho ht hloyal
  exact turned_putWithBoard h hv rfl (h.inStep.of_alike (Board.alike_modify hstanding)) hb ho.line
    (hp.withBoard hb (h.line_lt hx hl) id (Nat.le_refl _))

/-- Or by itself. -/
theorem turned_modifyServed (h : s.Sound) {f : Served → Served}
    (hf : ∀ {l : LineNumber} {v : Served}, s.served? k = some (l, v) →
      v.Onward (f v) ∧ (f v).Timely s.policy s.clock ∧ (f v).Loyal) :
    Turned k f s (s.modifyServed k f) := by
  rcases hv : s.served? k with - | ⟨l, v⟩
  · rw [modifyServed_eq_self hv]
    exact turned_self h hv f
  · rw [modifyServed_eq hv]
    obtain ⟨ho, ht, hloyal⟩ := hf hv
    exact turned_putServed h hv ho ht hloyal

/-! ### The turn of a socket -/

/-- A socket whose pumps have both ended leaves the board. -/
theorem turned_conclude (h : s.Sound) (hv : s.served? k = some (l, v))
    (he : v.socket.reader = .ended ∧ v.socket.writer = .ended) :
    Turned k Served.concluded s (s.putWithBoard k l v.concluded
      ((s.putServed k l v.concluded).board.dismiss v.connection.id)) := by
  obtain ⟨hx, hl, hc⟩ := served?_eq_some.1 hv
  have hstanding : ∀ c, s.board.lines[l]? = some c →
      v.concluded.connection.standing = c.standing := by
    intro c hc'
    cases hc.symm.trans hc'
    rfl
  have hb : s.board.Onward (s.putServed k l v.concluded).board := by
    refine Board.onward_modify fun c hc' => ?_
    cases hc.symm.trans hc'
    exact ⟨rfl, fun _ => rfl⟩
  have hi : (s.putServed k l v.concluded).board.InStep :=
    h.inStep.of_alike (Board.alike_modify hstanding)
  have hc' : (s.putServed k l v.concluded).board.lines[l]? = some v.concluded.connection :=
    Board.getElem?_modify_self hc
  -- it is closed already, so its leaving the board changes no connection
  have hlines := hi.lines_dismiss hc' rfl
  have hd := hb.trans (Board.onward_dismiss _ v.connection.id)
  refine turned_putWithBoard h hv hlines (hi.dismiss _) hd rfl ?_
  refine ⟨fun _ => ⟨rfl, he.1, he.2, ?_⟩, (h.proper hv).void.put .ended, ?_, .inl (.inl rfl)⟩
  · -- a name that still led to the connection would be its own, which is erased
    intro id hid
    have hr : ((s.putServed k l v.concluded).board.registered.erase v.connection.id)[id]? =
        some l := by
      rw [← Board.registered_dismiss]
      exact hid
    rw [Std.ExtTreeMap.getElem?_erase] at hr
    split at hr
    · cases hr
    · rename_i hne
      obtain ⟨c, hcl, hcid⟩ := hi.named hr
      cases hc'.symm.trans hcl
      exact hne (Std.LawfulEqCmp.compare_eq_iff_eq.2 hcid)
  · intro _ hw
    change v.socket.writer.wait? = _ at hw
    rw [he.2] at hw
    cases hw

/-- What a socket does last: its connection is dismissed when both pumps have ended. -/
theorem finish_eq (hv : s.served? k = some (l, v)) : s.finish k =
    if v.socket.pumpsEnded && !v.socket.finished then
      s.putWithBoard k l v.concluded
        ((s.putServed k l v.concluded).board.dismiss v.connection.id)
    else s := by
  -- whatever leaves the board is the same on both sides
  rcases e : (s.putServed k l ⟨v.connection.close.2, { v.socket with
    pipe := v.socket.pipe.put .ended, finished := true }⟩).board.unregister v.connection.id
    with ⟨- | l', b⟩
  all_goals
    have e' : (s.putServed k l v.concluded).board.unregister v.connection.id = _ := e
    rw [finish, hv]
    simp only [e, Board.dismiss, e']
    rfl

/-- **The turn of a socket**: its pumps do what is due, and if they have both ended it is
finished. -/
theorem turned_runSocket (h : s.Sound) (k : SocketNumber) :
    Turned k (Served.turn s.policy s.clock) s (s.runSocket k) := by
  rcases hv : s.served? k with - | ⟨l, v⟩
  · have hrun : s.runSocket k = s := by
      rw [runSocket, modifyServed_eq_self hv, finish, hv]
    rw [hrun]
    exact turned_self h hv _
  · have t : Turned k (Served.run s.policy s.clock) s (s.putServed k l (v.run s.policy s.clock)) :=
      turned_putServed h hv (Served.onward_run _ _ v) (h.proper hv).timely.run
        (h.proper hv).loyal.run
    have hv' := t.own
    rw [hv, Option.map_some] at hv'
    rw [runSocket, modifyServed_eq hv, finish_eq hv']
    split
    · -- both pumps have ended, and the socket has not been finished before
      rename_i he
      obtain ⟨hended, -⟩ := Bool.and_eq_true_iff.1 he
      have he' := Bool.and_eq_true_iff.1 hended
      have hc := turned_conclude t.sound hv' ⟨eq_of_beq he'.1, eq_of_beq he'.2⟩
      refine (t.trans hc).congr fun {l' u} hu => ?_
      cases hv.symm.trans hu
      show (v.run s.policy s.clock).concluded = _
      rw [Served.turn, if_pos he]
    · -- it goes on, or was finished in an earlier turn
      rename_i he
      refine t.congr fun {l' u} hu => ?_
      cases hv.symm.trans hu
      rw [Served.turn, if_neg he]

end Service

end Switchboard
