/-
Switchboard/Proofs/Service/Tending.lean

What a service does to a connection of its own accord.

Sweepers and pumps work when nobody calls.  To one connection all that they
do is a list of acts, by which no message is accepted; if a socket serves the
connection, the messages taken are conveyed to its client, and otherwise it is
only closed.  And a connection that leaves the board in the course of this is
closed.  `Tended` says all this of one connection, and it is shown of every
step in which a service settles, and so of the passing of time.
-/
import Switchboard.Proofs.Board.Leaving
import Switchboard.Proofs.Service.Events
import Switchboard.Proofs.Socket.Conveyance

namespace Switchboard.Service

open Connection (Act)

variable {s s' s'' : Service} {k : SocketNumber} {l l' : LineNumber} {v v' : Served}
  {c : Connection}

/-- No socket serves the connection. -/
def Unserved (s : Service) (l : LineNumber) : Prop :=
  ∀ (k : SocketNumber) (x : Socket), s.sockets[k]? = some x → x.line ≠ some l

/-- What is done to a connection in one go, of which nothing is a call. -/
structure Tended (l : LineNumber) (s s' : Service) : Prop where
  line : ∀ k : SocketNumber, s'.sockets[k]?.map Socket.line = s.sockets[k]?.map Socket.line
  vacant : s.board.lines[l]? = none → s'.board.lines[l]? = none
  acts : ∀ c, s.board.lines[l]? = some c → ∃ as, (∀ a ∈ as, a.OfPump) ∧
    s'.board.lines[l]? = some (c.run as) ∧
    (∀ (k : SocketNumber) (x' : Socket), s'.sockets[k]? = some x' → x'.line = some l →
      ∃ x, s.sockets[k]? = some x ∧ x.Conveys x' ((c.taken as).map Envelope.wire)) ∧
    (s.Unserved l → ∀ a ∈ as, a = .close)
  onward : s.board.Onward s'.board
  left : s.board.LeavesClosed l s'.board

/-- Who is served depends on the lines of the sockets. -/
theorem unserved_iff (h : ∀ k : SocketNumber,
    s'.sockets[k]?.map Socket.line = s.sockets[k]?.map Socket.line) :
    s'.Unserved l ↔ s.Unserved l := by
  have hiff : ∀ {u : Service}, u.Unserved l ↔
      ∀ k : SocketNumber, u.sockets[k]?.map Socket.line ≠ some (some l) := by
    intro u
    refine forall_congr' fun k => ?_
    rcases u.sockets[k]? with - | x <;> simp
  rw [hiff, hiff]
  exact forall_congr' fun k => by rw [h k]

theorem Tended.trans (t : Tended l s s') (t' : Tended l s' s'') : Tended l s s'' where
  line k := (t'.line k).trans (t.line k)
  vacant := t'.vacant ∘ t.vacant
  acts := by
    intro c hc
    obtain ⟨as, has, hc', hx, hu⟩ := t.acts c hc
    obtain ⟨as', has', hc'', hx', hu'⟩ := t'.acts _ hc'
    refine ⟨as ++ as', fun a ha => (List.mem_append.1 ha).elim (has a) (has' a), ?_, ?_, ?_⟩
    · rw [Connection.run_append]
      exact hc''
    · intro k x'' hk hl
      obtain ⟨x', hk', hconv'⟩ := hx' k x'' hk hl
      obtain ⟨x, hk'', hconv⟩ := hx k x' hk' (hconv'.line.symm.trans hl)
      refine ⟨x, hk'', ?_⟩
      rw [Connection.taken_append, List.map_append]
      exact hconv.trans hconv'
    · intro hun a ha
      exact (List.mem_append.1 ha).elim (hu hun a) (hu' ((unserved_iff t.line).2 hun) a)
  onward := t.onward.trans t'.onward
  left := t.left.trans t'.left t'.onward

/-! ### The board -/

/-- Connections are closed, and those that leave the board are among them. -/
theorem tended_closings (hs : s'.sockets = s.sockets) {as : List Act} (has : ∀ a ∈ as, a = .close)
    (hlines : s'.board.lines[l]? = s.board.lines[l]?.map (·.run as))
    (ho : s.board.Onward s'.board) (hleft : s.board.LeavesClosed l s'.board) : Tended l s s' where
  line k := by rw [hs]
  vacant hn := by
    rw [hlines, hn]
    rfl
  acts := by
    intro c hc
    refine ⟨as, fun a ha => ?_, ?_, fun k x' hk hl => ?_, fun _ => has⟩
    · rw [has a ha]
      trivial
    · rw [hlines, hc]
      rfl
    · rw [Connection.taken_of_closings has]
      exact ⟨x', hs ▸ hk, .refl x'⟩
  onward := ho
  left := hleft

/-- Neither the board nor a socket changes. -/
theorem tended_of_eq (hb : s'.board = s.board) (hs : s'.sockets = s.sockets) : Tended l s s' := by
  have hnone : ∀ a ∈ ([] : List Act), a = .close := by simp
  refine tended_closings hs hnone ?_ ?_ (Board.leavesClosed_of_eq (by rw [hb]))
  · rw [hb]
    exact (Board.map_run_nil _).symm
  · rw [hb]
    exact .refl s.board

theorem Tended.refl (l : LineNumber) (s : Service) : Tended l s s := tended_of_eq rfl rfl

/-- Whoever is dismissed is closed, and nothing else is done to anybody. -/
theorem tended_dismiss (hi : s.board.InStep) (id : ConnectionId) :
    Tended l s { s with board := s.board.dismiss id } :=
  tended_closings rfl (fun _ ha => (Board.mem_aimed.1 ha).2) (Board.getElem?_dismiss _ id l)
    (Board.onward_dismiss _ id) (hi.leavesClosed_dismiss l id)

/-- So is whoever is swept away. -/
theorem tended_sweep (hi : s.board.InStep) (now : Nat) :
    Tended l s { s with board := (s.board.sweep now).2 } :=
  tended_closings rfl (fun _ ha => (Board.mem_aimed.1 ha).2)
    (Board.getElem?_after_plain (k := .sweep now) trivial id l) (Board.onward_sweep _ now)
    (hi.leavesClosed_sweep l now)

theorem tended_sweepAll (now : Nat) (ws : List Sweeper) (b : Board) (hi : b.InStep)
    (hs : s.board = b) : Tended l s { s with board := (sweepAll now ws b).2 } := by
  induction ws generalizing b s with
  | nil => exact tended_of_eq hs.symm rfl
  | cons w ws ih =>
    -- the first sweeps or leaves the board alone, and then come the others
    have hone : (sweepOne now w b).2.InStep ∧
        Tended l s { s with board := (sweepOne now w b).2 } := by
      rcases sweepOne_eq_or now w b with e | e
      · rw [e]
        exact ⟨hi, tended_of_eq hs.symm rfl⟩
      · rw [e]
        subst hs
        exact ⟨hi.sweep now, tended_sweep hi now⟩
    rw [sweepAll_cons]
    exact hone.2.trans (ih (s := { s with board := (sweepOne now w b).2 }) _ hone.1 rfl)

theorem tended_runSweepers (hi : s.board.InStep) : Tended l s s.runSweepers := by
  have h := tended_sweepAll (l := l) s.clock s.sweepers s.board hi rfl
  exact h.trans (tended_of_eq rfl rfl)

/-! ### Sockets -/

/-- A socket is the one that is put, or it is what it was. -/
theorem socket_putServed {i : SocketNumber} {x : Socket}
    (h : (s.putServed k l' v').sockets[i]? = some x) :
    (k = i ∧ x = v'.socket) ∨ k ≠ i ∧ s.sockets[i]? = some x := by
  have hset : (s.sockets.set k v'.socket)[i]? = some x := h
  by_cases hik : k = i
  · subst hik
    rw [List.getElem?_set_self (by simpa using (List.getElem?_eq_some_iff.1 hset).1)] at hset
    exact .inl ⟨rfl, (Option.some.inj hset).symm⟩
  · rw [List.getElem?_set_ne hik] at hset
    exact .inr ⟨hik, hset⟩

/-- The pumps of a socket work, and its connection with them. -/
theorem tended_putServed (h : s.Sound) (hv : s.served? k = some (l', v)) (hw : v.Works v') :
    Tended l s (s.putServed k l' v') := by
  obtain ⟨hk, hl', hc'⟩ := served?_eq_some.1 hv
  obtain ⟨as, has, hrun, hconv⟩ := hw
  refine ⟨fun i => ?_, fun hn => ?_, fun c hc => ?_, ?_, fun id hid => .inl hid⟩
  · show (s.sockets.set k v'.socket)[i]?.map Socket.line = _
    by_cases hik : k = i
    · subst hik
      rw [List.getElem?_set_self (List.getElem?_eq_some_iff.1 hk).1, hk]
      exact congrArg some hconv.line
    · rw [List.getElem?_set_ne hik]
  · show (s.board.modify l' _).lines[l]? = none
    rw [Board.getElem?_modify, hn]
    split <;> rfl
  · by_cases hl : l' = l
    · -- it is the connection of the socket
      subst hl
      cases hc'.symm.trans hc
      refine ⟨as, has, ?_, fun i x' hi hline => ?_, fun hun => absurd hl' (hun k _ hk)⟩
      · rw [← hrun]
        exact Board.getElem?_modify_self hc
      · rcases socket_putServed hi with ⟨rfl, rfl⟩ | ⟨hik, hi⟩
        · exact ⟨v.socket, hk, hconv⟩
        · -- no other socket has it
          exact absurd (h.alone hk hi hl' hline) hik
    · refine ⟨[], by simp, (Board.getElem?_modify_ne hl).trans hc, fun i x' hi hline => ?_,
        by simp⟩
      rcases socket_putServed hi with ⟨rfl, rfl⟩ | ⟨-, hi⟩
      · have he : some l' = some l := hl'.symm.trans (hconv.line.symm.trans hline)
        exact absurd (Option.some.inj he) hl
      · exact ⟨x', hi, .refl x'⟩
  · refine Board.onward_modify fun c hc => ?_
    cases hc'.symm.trans hc
    rw [hrun]
    exact ⟨Connection.id_run _ as, fun hcl => Connection.closed_run hcl as⟩

/-- A socket does to its own connection what its pumps do. -/
theorem tended_modifyServed (h : s.Sound) {f : Served → Served}
    (hf : ∀ {l : LineNumber} {v : Served}, s.served? k = some (l, v) → v.Works (f v)) :
    Tended l s (s.modifyServed k f) := by
  rcases hv : s.served? k with - | ⟨l', v⟩
  · rw [modifyServed_eq_self hv]
    exact .refl l s
  · rw [modifyServed_eq hv]
    exact tended_putServed h hv (hf hv)

theorem tended_stop (k : SocketNumber) : Tended l s (s.stop k) := by
  refine ⟨fun i => ?_, id, fun c hc => ?_, .refl s.board, fun id hid => .inl hid⟩
  · show (s.sockets.modify k fun x => { x with pipe := x.pipe.stop })[i]?.map Socket.line = _
    rw [List.getElem?_modify]
    rcases s.sockets[i]? with - | x
    · rfl
    · by_cases hik : k = i <;> simp [hik]
  refine ⟨[], by simp, hc, fun i x' hi hl => ?_, by simp⟩
  have hm : (s.sockets.modify k fun x => { x with pipe := x.pipe.stop })[i]? = some x' := hi
  rw [List.getElem?_modify] at hm
  obtain ⟨x, hx, e⟩ := Option.map_eq_some_iff.1 hm
  refine ⟨x, hx, ?_⟩
  rw [← e]
  split
  · exact Socket.conveys_stop
  · exact .refl x

/-- **The turn of a socket.** -/
theorem tended_runSocket (h : s.Sound) (k : SocketNumber) : Tended l s (s.runSocket k) := by
  rcases hv : s.served? k with - | ⟨l', v⟩
  · have hrun : s.runSocket k = s := by rw [runSocket, modifyServed_eq_self hv, finish, hv]
    rw [hrun]
    exact .refl l s
  · have hworks := Served.works_run s.policy s.clock v
    have t : Turned k (Served.run s.policy s.clock) s (s.putServed k l' (v.run s.policy s.clock)) :=
      turned_putServed h hv (Served.onward_run _ _ v) (h.proper hv).timely.run
        (h.proper hv).loyal.run
    have hv' := t.own
    rw [hv, Option.map_some] at hv'
    have htend : Tended l s (s.putServed k l' (v.run s.policy s.clock)) :=
      tended_putServed h hv hworks
    rw [runSocket, modifyServed_eq hv, finish_eq hv']
    split
    · -- both pumps have ended, and the connection is closed before it leaves
      let u := s.putServed k l' (v.run s.policy s.clock)
      have hclosed : Tended l u (u.putServed k l' (v.run s.policy s.clock).concluded) :=
        tended_putServed t.sound hv' (Served.works_concluded _)
      have hi : (u.putServed k l' (v.run s.policy s.clock).concluded).board.InStep := by
        refine t.sound.inStep.of_alike (Board.alike_modify fun c hc => ?_)
        cases (served?_eq_some.1 hv').2.2.symm.trans hc
        rfl
      exact (htend.trans hclosed).trans (tended_dismiss hi _)
    · exact htend

/-- So settling tends to everybody. -/
theorem tended_settle (h : s.Sound) (hp : s.Punctual) : Tended l s s.settle := by
  have hsweep : Tended l s s.runSweepers := tended_runSweepers h.inStep
  have hall : ∀ n, Tended l s.runSweepers ((List.range n).foldl runSocket s.runSweepers) := by
    intro n
    induction n with
    | zero => exact .refl l _
    | succ n ih =>
      rw [List.range_succ, List.foldl_append]
      exact ih.trans (tended_runSocket (turnedTo_foldl (h.runSweepers hp) n).sound n)
  exact hsweep.trans (hall _)

/-- **However much time passes**, connections are no more than tended. -/
theorem tended_elapse (h : s.AtRest) (milliseconds : Nat) :
    Tended l s (s.elapse milliseconds) := by
  refine (h.elapse (P := Tended l s) ?_ (.refl l s) milliseconds).2
  intro u t hu ht hs
  have hnow : Tended l u { u with clock := t } := tended_of_eq rfl rfl
  exact (hs.trans hnow).trans (tended_settle (hu.sound.atClock ht.1) ht.2)

end Switchboard.Service
