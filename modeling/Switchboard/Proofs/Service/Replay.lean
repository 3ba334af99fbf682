/-
Switchboard/Proofs/Service/Replay.lean

The history of a connection in a running service.

An event has two parts.  First comes what the event itself is, `begun`: a
call to the board, made from outside or by the handling of a frame, or the
coming of a client.  Then everyone does what follows, and to a connection
this is no more than tending (`tended_after`).  So all that is accepted for a
connection is accepted by calls, and is read off the events, `accepted`.

A run gives a connection its history: the acts that lead from a blank
connection to the one that is there (`exists_history`).  What the history
takes is what was taken by calls, if no socket serves the connection, and
otherwise what has been conveyed to the client of the socket.
-/
import Switchboard.Proofs.Service.Tending

namespace Switchboard

/-- A connection with a queue of the capacity given that has just come to be, and of which nobody
has taken a message: it is blank, but may have been closed or forsaken. -/
def Connection.Newborn (capacity : Nat) (c : Connection) : Prop :=
  ∃ id now c₀ as, new? id capacity now = some c₀ ∧ (∀ a ∈ as, a.OfPump ∧ a ≠ .take) ∧
    c = c₀.run as

theorem Connection.newborn_run {id : ConnectionId} {capacity now : Nat} {c : Connection}
    {as : List Act} (h : new? id capacity now = some c) (has : ∀ a ∈ as, a = .close) :
    (c.run as).Newborn capacity := by
  refine ⟨id, now, c, as, h, fun a ha => ?_, rfl⟩
  rw [has a ha]
  exact ⟨trivial, by simp⟩

theorem Connection.Newborn.forsake {capacity : Nat} {c : Connection} (h : c.Newborn capacity) :
    c.forsake.Newborn capacity := by
  obtain ⟨id, now, c₀, as, hnew, has, rfl⟩ := h
  refine ⟨id, now, c₀, as ++ [.forsake], hnew, fun a ha => ?_, ?_⟩
  · rcases List.mem_append.1 ha with ha | ha
    · exact has a ha
    · rw [List.mem_singleton.1 ha]
      exact ⟨trivial, by simp⟩
  · rw [run_append]
    rfl

theorem Connection.Newborn.capacity_eq {capacity : Nat} {c : Connection} (h : c.Newborn capacity) :
    c.outbox.capacity = capacity := by
  obtain ⟨id, now, c₀, as, hnew, -, rfl⟩ := h
  rw [capacity_run, (new?_eq_some hnew).2]

namespace Service

open Connection (Act)

variable {s s' : Service} {k : SocketNumber} {l l' : LineNumber} {v : Served} {c : Connection}
  {e : Event} {es es' : List Event} {f : Incoming}

/-! ### What an event is -/

/-- The call that a frame makes when a reader takes it in. -/
def heard? (s : Service) (k : SocketNumber) (f : Incoming) : Option Board.Call :=
  match s.served? k with
  | none => none
  | some (l, v) =>
    match v.socket.reader with
    | .ended => none
    | .reading _ =>
      if f.unreadable s.policy.maxFrame then none
      else f.content?.map fun content => .frame s.check s.clock s.draw l content

/-- What is heard is a message, and is handled. -/
theorem heard?_eq_some {c : Board.Call} (h : s.heard? k f = some c) :
    ∃ l content, c = .frame s.check s.clock s.draw l content := by
  rw [heard?] at h
  split at h
  · cases h
  · split at h
    · cases h
    · split at h
      · cases h
      · obtain ⟨content, -, rfl⟩ := Option.map_eq_some_iff.1 h
        exact ⟨_, content, rfl⟩

/-- The call to the board that an event makes. -/
def call? (s : Service) : Event → Option Board.Call
  | .call c => some c
  | .receive k f => s.heard? k f
  | _ => none

/-- The service after what an event makes of it by itself, before anyone does what follows. -/
def begun (s : Service) : Event → Service
  | .accept a => s.join a
  | .forget => s.forget
  | e => { s with board := s.board.run (s.call? e).toList }

/-- The capacity of the queue that is made if a connection comes to be by the event. -/
def Event.capacity? (p : Policy) : Event → Option Nat
  | .accept _ => some p.queueCapacity
  | .call (.enter _ capacity _) => some capacity
  | _ => none

/-- The acts that an event is to a connection by itself. -/
def acts (l : LineNumber) (s : Service) (e : Event) : List Act :=
  match s.call? e with
  | some c => s.board.acts l c
  | none => []

/-- The messages that a connection accepts in the course of an event. -/
def accepted (l : LineNumber) (s : Service) (e : Event) : List Envelope :=
  match s.call? e with
  | some c => s.board.accepted l c
  | none => []

/-- The messages that a call takes from the queue of a connection. -/
def collected (l : LineNumber) (s : Service) (e : Event) : List Envelope :=
  match s.call? e with
  | some c => s.board.taken l c
  | none => []

/-- What has come to a client since it was last forgotten. -/
def arrived (s : Service) (k : SocketNumber) : List Outgoing :=
  (s.sockets[k]?.map fun x => x.pipe.received).getD []

/-- What has come to a client and is forgotten by the event. -/
def forgotten (k : SocketNumber) (s : Service) : Event → List Outgoing
  | .forget => s.arrived k
  | _ => []

/-- What is written down in the course of several events. -/
def trace {α : Type} (entry : Service → Event → List α) (s : Service) (es : List Event) : List α :=
  logged after entry s es

/-- All that comes to a client in the course of several events. -/
def receipts (k : SocketNumber) (s : Service) (es : List Event) : List Outgoing :=
  s.trace (forgotten k) es ++ (s.run es).arrived k

/-! ### What follows -/

theorem tended_hangUp (h : s.Sound) (k : SocketNumber) (parting : Parting) :
    Tended l s (s.hangUp k parting) :=
  tended_modifyServed h fun {_ v} _ => v.works_hangUp parting

theorem tended_breakOff (h : s.Sound) (k : SocketNumber) : Tended l s (s.breakOff k) := by
  rw [breakOff]
  split
  · exact .refl l s
  · split
    · exact .refl l s
    · exact tended_hangUp h k _

theorem tended_resume (h : s.Sound) (k : SocketNumber) :
    Tended l s (s.modifyServed k fun v =>
      let probed := v.socket.pipe.held.contains .ping
      let v := v.withPipe v.socket.pipe.resume
      if probed then v.answerProbe s.policy s.clock else v) := by
  refine tended_modifyServed h fun {_ v} _ => ?_
  simp only
  split
  · exact (Served.works_resume v).trans (Served.works_answerProbe _ _ _)
  · exact Served.works_resume v

theorem tended_sever (h : s.Sound) (k : SocketNumber) :
    Tended l s (s.modifyServed k fun v => v.withPipe v.socket.pipe.vanish) :=
  tended_modifyServed h fun {_ v} _ => v.works_vanish

/-- A client vanishes, and is hung up on if anyone has read from it. -/
theorem tended_vanish (h : s.Sound) (k : SocketNumber) :
    Tended l s ((s.modifyServed k fun v => v.withPipe v.socket.pipe.vanish).breakOff k) := by
  rw [vanish_eq]
  refine tended_modifyServed h fun {_ v} _ => ?_
  rw [Served.vanished]
  split
  · exact v.works_vanish
  · exact v.works_vanish.trans (Served.works_hangUp _ _)

/-- A message is handled, and what follows for the reader. -/
theorem tended_takeMessage (h : s.Sound) (k : SocketNumber) (l' : LineNumber) (content : Bytes) :
    Tended l { s with board := s.board.after (.frame s.check s.clock s.draw l' content) }
      (s.takeMessage k l' content) := by
  let u : Service := { s with
    board := (s.board.handleFrame s.check s.clock s.draw l' content).2, drawn := s.drawn + 1 }
  have hu : u.Sound := h.withBoard (h.inStep.handleFrame ..) (Board.onward_handleFrame ..) rfl
    (Nat.le_refl _)
  have hdrawn : Tended l { s with
      board := s.board.after (.frame s.check s.clock s.draw l' content) } u := tended_of_eq rfl rfl
  refine hdrawn.trans (tended_modifyServed hu fun {_ v} _ => ?_)
  show v.Works (if (s.board.handleFrame s.check s.clock s.draw l' content).1 then _ else _)
  split
  · exact Served.works_extend _ v
  · exact Served.works_reader v _

theorem tended_hear (h : s.Sound) (k : SocketNumber) (f : Incoming) :
    Tended l (s.begun (.receive k f)) (s.hear k f) := by
  show Tended l { s with board := s.board.run (s.heard? k f).toList } _
  rw [hear, heard?]
  rcases hv : s.served? k with - | ⟨l', v⟩
  · exact .refl l s
  · rcases hr : v.socket.reader with deadline | -
    · simp only [hr]
      split
      · -- it is too large, or is none
        exact tended_hangUp h k _
      · cases f with
        | text content | binary content => exact tended_takeMessage h k l' content
        | ping content => exact tended_modifyServed h fun {_ v} _ => v.works_echo _ content
        | pong content => exact tended_modifyServed h fun {_ v} _ => Served.works_signOfLife _ _ v
        | close farewell => exact tended_hangUp h k _
    · simp only [hr]
      exact .refl l s

/-- **What follows an event** is no more than tending. -/
theorem tended_after (h : s.AtRest) (he : e.Fresh s) : Tended l (s.begun e) (s.after e) := by
  have hs := h.sound
  -- whatever is stirred settles
  have hsettle : ∀ {u : Service}, Stirred s u → Tended l u u.settle :=
    fun t => tended_settle t.sound (t.ahead h.ahead).punctual
  cases e with
  | call c => exact hsettle (stirred_call hs c he)
  | sweeper =>
    have hnew : Tended l s
        { s with sweepers := s.sweepers ++ [.first s.policy s.clock] } := tended_of_eq rfl rfl
    exact hnew.trans (hsettle (stirred_sweeper hs))
  | accept a =>
    have t := stirred_join hs he a
    exact tended_settle t.sound (t.ahead h.ahead).punctual
  | receive k f => exact (tended_hear hs k f).trans (hsettle (stirred_hear hs k f))
  | endOfFrames k => exact (tended_breakOff hs k).trans (hsettle (stirred_breakOff hs k))
  | vanish k => exact (tended_vanish hs k).trans (hsettle (stirred_vanish hs k))
  | sever k => exact (tended_sever hs k).trans (hsettle (stirred_sever hs k))
  | stop k => exact tended_stop k
  | resume k => exact (tended_resume hs k).trans (hsettle (stirred_resume hs k))
  | forget => exact .refl l s.forget
  | elapse milliseconds => exact tended_elapse h milliseconds

/-! ### What comes first -/

theorem getElem?_admitted_cases (s : Service) (l : LineNumber) :
    s.admitted.lines[l]? = s.board.lines[l]? ∨
      s.board.lines[l]? = none ∧
        ∃ c, s.admitted.lines[l]? = some c ∧ c.Newborn s.policy.queueCapacity := by
  have henter := Board.getElem?_enter_cases s.board s.draw.connection s.policy.queueCapacity
    s.clock l
  rw [admitted]
  split
  · rcases henter with e | ⟨hn, c, as, hnew, has, e⟩
    · exact .inl e
    · exact .inr ⟨hn, _, e, Connection.newborn_run hnew has⟩
  · -- nobody takes the messages of the newcomer
    rw [Board.getElem?_modify]
    rcases henter with e | ⟨hn, c, as, hnew, has, e⟩
    · left
      rw [e]
      split
      · rename_i hl
        rw [← hl, List.getElem?_eq_none (Nat.le_refl _)]
        rfl
      · rfl
    · right
      have hborn := Connection.newborn_run hnew has
      rw [e]
      split
      · exact ⟨hn, _, rfl, hborn.forsake⟩
      · exact ⟨hn, _, rfl, hborn⟩

/-- The connection of a client that comes is new, and the others are as they were. -/
theorem getElem?_join_cases (s : Service) (a : Bool) (l : LineNumber) :
    (s.join a).board.lines[l]? = s.board.lines[l]? ∨
      s.board.lines[l]? = none ∧
        ∃ c, (s.join a).board.lines[l]? = some c ∧ c.Newborn s.policy.queueCapacity := by
  by_cases ha : s.Admits
  · rw [join_of_admits ha]
    exact getElem?_admitted_cases s l
  · rw [join_of_not_admits ha]
    exact .inl rfl

/-- What an event makes of a connection by itself are its acts. -/
theorem getElem?_begun_of_some (hc : s.board.lines[l]? = some c) (e : Event) :
    (s.begun e).board.lines[l]? = some (c.run (s.acts l e)) := by
  have hcall : ∀ o : Option Board.Call, (s.board.run o.toList).lines[l]? =
      some (c.run (match o with | some k => s.board.acts l k | none => [])) := by
    rintro (- | k)
    · exact hc
    · exact Board.getElem?_after_of_some hc k
  cases e with
  | accept a =>
    rcases getElem?_join_cases s a l with h | ⟨hn, -⟩
    · exact h.trans hc
    · cases hn.symm.trans hc
  | forget => exact hc
  | _ => exact hcall _

/-- Whoever comes to be by an event is blank at first, with a queue of the capacity asked for. -/
theorem newborn_of_begun (hn : s.board.lines[l]? = none)
    (hc : (s.begun e).board.lines[l]? = some c) :
    ∃ capacity, e.capacity? s.policy = some capacity ∧ c.Newborn capacity := by
  -- a call by which a connection comes to be is one that enters it
  have hcall : ∀ o : Option Board.Call, (s.board.run o.toList).lines[l]? = some c →
      ∃ id capacity now, o = some (.enter id capacity now) ∧ c.Newborn capacity := by
    rintro (- | k) hk
    · cases hn.symm.trans hk
    · obtain ⟨id, capacity, now, c₀, as, rfl, hnew, has, rfl⟩ :=
        Board.getElem?_after_of_none hn hk
      exact ⟨id, capacity, now, rfl, Connection.newborn_run hnew has⟩
  cases e with
  | accept a =>
    rcases getElem?_join_cases s a l with h | ⟨-, c', h, hborn⟩
    · cases hn.symm.trans (h.symm.trans hc)
    · cases h.symm.trans hc
      exact ⟨_, rfl, hborn⟩
  | forget => cases hn.symm.trans hc
  | call k =>
    obtain ⟨id, capacity, now, hk, hborn⟩ := hcall (some k) hc
    cases hk
    exact ⟨capacity, rfl, hborn⟩
  | receive k f =>
    obtain ⟨id, capacity, now, hk, -⟩ := hcall (s.heard? k f) hc
    obtain ⟨l', content, hframe⟩ := heard?_eq_some hk
    cases hframe
  | _ => cases hn.symm.trans hc

/-- A socket was there before the event and has forgotten something, or it has come with the event
and with a connection of its own. -/
theorem getElem?_sockets_begun {x : Socket} (hx : (s.begun e).sockets[k]? = some x) :
    s.sockets[k]? = some (x.recalling (s.forgotten k e)) ∨
      s.sockets[k]? = none ∧ s.forgotten k e = [] ∧
        (x.line = none ∨
          x.line = some s.board.lines.length ∧ x.pipe = Pipe.fresh s.policy.host.room) := by
  cases e with
  | accept a =>
    have happend : ∀ {y : Socket}, (s.sockets ++ [y])[k]? = some x →
        s.sockets[k]? = some x ∨ s.sockets[k]? = none ∧ x = y := by
      intro y hy
      rcases Nat.lt_or_ge k s.sockets.length with hk | hk
      · exact .inl ((List.getElem?_append_left hk).symm.trans hy)
      · rw [List.getElem?_append_right hk] at hy
        have hy' := List.mem_singleton.1 (List.mem_of_getElem? hy)
        exact .inr ⟨List.getElem?_eq_none hk, hy'⟩
    have hj : (s.join a).sockets[k]? = some x := hx
    by_cases ha : s.Admits
    · rw [join_of_admits ha] at hj
      rcases happend hj with h | ⟨hn, rfl⟩
      · exact .inl h
      · exact .inr ⟨hn, rfl, .inr ⟨rfl, rfl⟩⟩
    · rw [join_of_not_admits ha] at hj
      rcases happend hj with h | ⟨hn, rfl⟩
      · exact .inl h
      · exact .inr ⟨hn, rfl, .inl rfl⟩
  | forget =>
    left
    have hf : s.forget.sockets[k]? = some x := hx
    rw [forget, List.getElem?_map] at hf
    obtain ⟨y, hy, rfl⟩ := Option.map_eq_some_iff.1 hf
    simp [forgotten, arrived, hy, Socket.recalling]
  | _ => exact .inl hx

/-- A socket that serves a connection that is there has served it before. -/
theorem socket_before {x : Socket} (hc : s.board.lines[l]? = some c)
    (hx : (s.begun e).sockets[k]? = some x) (hl : x.line = some l) :
    s.sockets[k]? = some (x.recalling (s.forgotten k e)) := by
  rcases getElem?_sockets_begun hx with hold | ⟨-, -, hno | ⟨hlen, -⟩⟩
  · exact hold
  · cases hl.symm.trans hno
  · -- a socket that comes has a connection of its own
    have hlt := (List.getElem?_eq_some_iff.1 hc).1
    exact absurd (Option.some.inj (hl.symm.trans hlen)) (Nat.ne_of_lt hlt)

/-- A socket that serves a connection that was not there has come with it. -/
theorem socket_new {x : Socket} (h : s.Sound) (hn : s.board.lines[l]? = none)
    (hx : (s.begun e).sockets[k]? = some x) (hl : x.line = some l) :
    s.sockets[k]? = none ∧ s.forgotten k e = [] ∧ x.pipe = Pipe.fresh s.policy.host.room := by
  rcases getElem?_sockets_begun hx with hold | ⟨hnone, hforgotten, hno | ⟨-, hfresh⟩⟩
  · have hlt := h.line_lt hold hl
    rw [List.getElem?_eq_getElem hlt] at hn
    cases hn
  · cases hl.symm.trans hno
  · exact ⟨hnone, hforgotten, hfresh⟩

/-- Sockets stay where they are, with their connections. -/
theorem sockets_begun {x : Socket} (hx : s.sockets[k]? = some x) (e : Event) :
    ∃ x', (s.begun e).sockets[k]? = some x' ∧ x'.line = x.line := by
  cases e with
  | accept a =>
    have hk := (List.getElem?_eq_some_iff.1 hx).1
    refine ⟨x, ?_, rfl⟩
    show (s.join a).sockets[k]? = some x
    by_cases ha : s.Admits
    · rw [join_of_admits ha]
      exact (List.getElem?_append_left hk).trans hx
    · rw [join_of_not_admits ha]
      exact (List.getElem?_append_left hk).trans hx
  | forget =>
    refine ⟨{ x with pipe := { x.pipe with received := [] } }, ?_, rfl⟩
    show s.forget.sockets[k]? = _
    rw [forget, List.getElem?_map, hx]
    rfl
  | _ => exact ⟨x, hx, rfl⟩

/-- What comes first takes back nothing. -/
theorem onward_begun (s : Service) (e : Event) : s.board.Onward (s.begun e).board := by
  have hcall : ∀ o : Option Board.Call, s.board.Onward (s.board.run o.toList) := by
    rintro (- | k)
    · exact .refl _
    · exact Board.onward_after s.board k
  cases e with
  | accept a =>
    show s.board.Onward (s.join a).board
    by_cases ha : s.Admits
    · rw [join_of_admits ha]
      exact onward_admitted s
    · rw [join_of_not_admits ha]
      exact .refl _
  | forget => exact .refl _
  | _ => exact hcall _

theorem onward_event (h : s.AtRest) (he : e.Fresh s) : s.board.Onward (s.after e).board :=
  (onward_begun s e).trans (tended_after (l := 0) h he).onward

/-- Sockets stay where they are, with their connections. -/
theorem exists_socket_after {x : Socket} (h : s.AtRest) (he : e.Fresh s)
    (hx : s.sockets[k]? = some x) : ∃ x', (s.after e).sockets[k]? = some x' ∧ x'.line = x.line := by
  obtain ⟨x', hx', hl'⟩ := sockets_begun hx e
  have hline := (tended_after (l := 0) h he).line k
  rw [hx'] at hline
  obtain ⟨x'', hx'', hl''⟩ := Option.map_eq_some_iff.1 hline
  exact ⟨x'', hx'', hl''.trans hl'⟩

/-- A socket serves what it has served before. -/
theorem exists_served?_after (h : s.AtRest) (he : e.Fresh s) (hv : s.served? k = some (l, v)) :
    ∃ v', (s.after e).served? k = some (l, v') := by
  obtain ⟨hx, hl, hc⟩ := served?_eq_some.1 hv
  obtain ⟨x', hx', hl'⟩ := exists_socket_after h he hx
  obtain ⟨c', hc', -⟩ := (onward_event h he).line hc
  exact ⟨⟨c', x'⟩, served?_eq_some.2 ⟨hx', hl'.trans hl, hc'⟩⟩

/-! ### Runs -/

/-- No run takes back anything. -/
theorem onward_run (h : s.AtRest) (hf : FreshRun s es) : s.board.Onward (s.run es).board := by
  induction es generalizing s with
  | nil => exact .refl _
  | cons e es ih => exact (onward_event h hf.1).trans (ih (h.after hf.1).atRest hf.2)

theorem trace_append {α : Type} (entry : Service → Event → List α) (s : Service)
    (es es' : List Event) :
    s.trace entry (es ++ es') = s.trace entry es ++ (s.run es).trace entry es' :=
  logged_append after entry s es es'

theorem trace_concat {α : Type} (entry : Service → Event → List α) (s : Service) (es : List Event)
    (e : Event) : s.trace entry (es ++ [e]) = s.trace entry es ++ entry (s.run es) e := by
  rw [trace_append]
  exact congrArg (_ ++ ·) (List.append_nil _)

theorem tended_concat (h : s.AtRest) (hf : FreshRun s (es ++ [e])) :
    Tended l ((s.run es).begun e) (s.run (es ++ [e])) := by
  obtain ⟨hf, he⟩ := freshRun_concat.1 hf
  rw [run_concat]
  exact tended_after (h.run hf).1 he

theorem entries_of_none (hn : s.board.lines[l]? = none) (e : Event) :
    s.accepted l e = [] ∧ s.collected l e = [] := by
  rw [accepted, collected]
  rcases s.call? e with - | k
  · exact ⟨rfl, rfl⟩
  · simp [Board.accepted, Board.taken, hn]

theorem entries_of_some (hc : s.board.lines[l]? = some c) (e : Event) :
    s.accepted l e = c.accepted (s.acts l e) ∧ s.collected l e = c.taken (s.acts l e) := by
  rw [acts, accepted, collected]
  rcases s.call? e with - | k
  · exact ⟨rfl, rfl⟩
  · simp [Board.accepted, Board.taken, hc]

/-- Nothing is written down of a connection before it has come to be. -/
theorem trace_eq_nil_of_none (h : s.AtRest) (hf : FreshRun s es)
    (hn : (s.run es).board.lines[l]? = none) :
    s.trace (accepted l) es = [] ∧ s.trace (collected l) es = [] := by
  induction es using List.reverseRecOn with
  | nil => exact ⟨rfl, rfl⟩
  | append_singleton es e ih =>
    obtain ⟨hf, he⟩ := freshRun_concat.1 hf
    have hn' : (s.run es).board.lines[l]? = none := by
      rcases e' : (s.run es).board.lines[l]? with - | c
      · rfl
      · obtain ⟨c', hc', -⟩ := (onward_event (h.run hf).1 he).line e'
        rw [run_concat, hc'] at hn
        cases hn
    obtain ⟨ha, hc⟩ := ih hf hn'
    obtain ⟨ha', hc'⟩ := entries_of_none hn' e
    rw [trace_concat, trace_concat, ha, hc, ha', hc']
    exact ⟨rfl, rfl⟩

/-- Nothing is forgotten of what has come to a client before it has come itself. -/
theorem trace_forgotten_eq_nil (h : s.AtRest) (hf : FreshRun s es)
    (hn : (s.run es).sockets[k]? = none) : s.trace (forgotten k) es = [] := by
  induction es using List.reverseRecOn with
  | nil => rfl
  | append_singleton es e ih =>
    obtain ⟨hf, he⟩ := freshRun_concat.1 hf
    have hn' : (s.run es).sockets[k]? = none := by
      rcases e' : (s.run es).sockets[k]? with - | x
      · rfl
      · obtain ⟨x', hx', -⟩ := sockets_begun e' e
        have hline := (tended_after (l := 0) (h.run hf).1 he).line k
        rw [run_concat] at hn
        rw [hn, hx'] at hline
        cases hline
    rw [trace_concat, ih hf hn']
    cases e with
    | forget => simp [forgotten, arrived, hn']
    | _ => rfl

/-- A history of a connection: the acts by which it has become what it is, and by which is accepted
and taken what the events of a run tell. -/
structure History (s : Service) (es : List Event) (l : LineNumber) (c₀ : Connection)
    (as : List Act) : Prop where
  line : (s.run es).board.lines[l]? = some (c₀.run as)
  accepted : c₀.accepted as = s.trace (accepted l) es
  collected : (s.run es).Unserved l → c₀.taken as = s.trace (collected l) es
  inOrder : ∀ (k : SocketNumber) (x : Socket), (s.run es).sockets[k]? = some x →
    x.line = some l → x.InOrder
  conveyed : (∀ e ∈ es, e ≠ .call (.receive l)) → ∀ (k : SocketNumber) (x : Socket),
    (s.run es).sockets[k]? = some x → x.line = some l → ∃ x₀ : Socket,
      x₀.pipe = Pipe.fresh s.policy.host.room ∧
        x₀.Conveys (x.recalling (s.trace (forgotten k) es)) ((c₀.taken as).map Envelope.wire)

/-- No event takes a message from the queue by itself but the one that is called for it. -/
theorem not_mem_acts (he : e ≠ .call (.receive l)) : .take ∉ s.acts l e := by
  intro hm
  rw [acts] at hm
  rcases hcall : s.call? e with - | k
  · simp [hcall] at hm
  · simp only [hcall] at hm
    obtain rfl := Board.eq_receive_of_mem_acts hm
    cases e with
    | call c =>
      cases hcall
      exact he rfl
    | receive k f =>
      obtain ⟨l', content, hframe⟩ := heard?_eq_some hcall
      cases hframe
    | _ => cases hcall

/-- A connection comes to be, and its history begins. -/
theorem History.begins (h : s.AtRest) (hf : FreshRun s (es ++ [e]))
    (hn : (s.run es).board.lines[l]? = none)
    (hc : (s.run (es ++ [e])).board.lines[l]? = some c) : ∃ id capacity now c₀ as,
      Connection.new? id capacity now = some c₀ ∧ History s (es ++ [e]) l c₀ as := by
  have ht : Tended l ((s.run es).begun e) (s.run (es ++ [e])) := tended_concat h hf
  obtain ⟨hf, -⟩ := freshRun_concat.1 hf
  have hentries := entries_of_none hn e
  obtain ⟨haccepted, hcollected⟩ := trace_eq_nil_of_none h hf hn
  rcases hb : ((s.run es).begun e).board.lines[l]? with - | c₁
  · cases (ht.vacant hb).symm.trans hc
  obtain ⟨capacity, -, id, now, c₀, as, hnew, has, rfl⟩ := newborn_of_begun hn hb
  obtain ⟨as', has', hc', hx, hclosings⟩ := ht.acts _ hb
  have htaken : c₀.taken as = [] := Connection.taken_eq_nil (fun a ha => (has a ha).2) c₀
  -- a socket that serves it has come with it
  have hsocket : ∀ {k : SocketNumber} {x : Socket}, ((s.run es).begun e).sockets[k]? = some x →
      x.line = some l →
        x.pipe = Pipe.fresh s.policy.host.room ∧ s.trace (forgotten k) (es ++ [e]) = [] := by
    intro k x hk hl
    obtain ⟨hnone, hforgotten, hfresh⟩ := socket_new (h.run hf).1.sound hn hk hl
    rw [(h.run hf).2] at hfresh
    rw [trace_concat, trace_forgotten_eq_nil h hf hnone, hforgotten]
    exact ⟨hfresh, rfl⟩
  refine ⟨id, capacity, now, c₀, as ++ as', hnew, ?_, ?_, fun hun => ?_, fun k x hk hl => ?_,
    fun _ k x hk hl => ?_⟩
  · rw [Connection.run_append]
    exact hc'
  · rw [trace_concat, haccepted, hentries.1]
    refine Connection.accepted_of_pump (fun a ha => ?_) c₀
    exact (List.mem_append.1 ha).elim (fun ha => (has a ha).1) (has' a)
  · have hall := hclosings ((unserved_iff ht.line).1 hun)
    rw [trace_concat, hcollected, hentries.2, Connection.taken_append, htaken,
      Connection.taken_of_closings hall]
  · obtain ⟨x', hk', hconv⟩ := hx k x hk hl
    refine (hconv.inOrder fun _ => ?_)
    rw [(hsocket hk' (hconv.line.symm.trans hl)).1]
    rfl
  · obtain ⟨x', hk', hconv⟩ := hx k x hk hl
    obtain ⟨hfresh, hforgotten⟩ := hsocket hk' (hconv.line.symm.trans hl)
    refine ⟨x', hfresh, ?_⟩
    rw [hforgotten, Connection.taken_append, htaken]
    exact hconv

/-- The history of a connection goes on. -/
theorem History.goesOn {c₀ : Connection} {as : List Act} (hist : History s es l c₀ as)
    (h : s.AtRest) (hf : FreshRun s (es ++ [e])) : ∃ as', History s (es ++ [e]) l c₀ as' := by
  have ht : Tended l ((s.run es).begun e) (s.run (es ++ [e])) := tended_concat h hf
  have hb := getElem?_begun_of_some hist.line e
  obtain ⟨as', has', hc', hx, hclosings⟩ := ht.acts _ hb
  have hentries := entries_of_some hist.line e
  -- the history goes on by what the event does by itself, and by what follows
  refine ⟨as ++ ((s.run es).acts l e ++ as'), ?_, ?_, fun hun => ?_, fun k x hk hl => ?_,
    fun hno k x hk hl => ?_⟩
  · rw [Connection.run_append, Connection.run_append]
    exact hc'
  · rw [trace_concat, Connection.accepted_append, Connection.accepted_append, hist.accepted,
      hentries.1, Connection.accepted_of_pump has', List.append_nil]
  · have hall := hclosings ((unserved_iff ht.line).1 hun)
    have hun' : (s.run es).Unserved l := by
      intro k x hk hl
      obtain ⟨x', hk', hl'⟩ := sockets_begun hk e
      exact (unserved_iff ht.line).1 hun k x' hk' (hl'.trans hl)
    rw [trace_concat, Connection.taken_append, Connection.taken_append, hist.collected hun',
      hentries.2, Connection.taken_of_closings hall, List.append_nil]
  · obtain ⟨x', hk', hconv'⟩ := hx k x hk hl
    have hl' : x'.line = some l := hconv'.line.symm.trans hl
    have hin := hist.inOrder k (x'.recalling ((s.run es).forgotten k e))
      (socket_before hist.line hk' hl') hl'
    exact hconv'.inOrder hin
  · obtain ⟨hno, hne⟩ : (∀ e ∈ es, e ≠ .call (.receive l)) ∧ e ≠ .call (.receive l) := by
      simpa [or_imp, forall_and] using hno
    have hnil : (c₀.run as).taken ((s.run es).acts l e) = [] :=
      Connection.taken_eq_nil (fun a ha e' => not_mem_acts hne (e' ▸ ha)) _
    obtain ⟨x', hk', hconv'⟩ := hx k x hk hl
    have hl' : x'.line = some l := hconv'.line.symm.trans hl
    obtain ⟨x₀, hfresh, hconv⟩ := hist.conveyed hno k _ (socket_before hist.line hk' hl') hl'
    refine ⟨x₀, hfresh, ?_⟩
    rw [Socket.recalling_recalling] at hconv
    rw [trace_concat, Connection.taken_append, Connection.taken_append, hnil, List.nil_append,
      List.map_append]
    exact hconv.trans (hconv'.recalling _)

/-- **Every connection that has come to be in a run has a history.** -/
theorem exists_history (h : s.AtRest) (hn : s.board.lines[l]? = none) (hf : FreshRun s es)
    (hc : (s.run es).board.lines[l]? = some c) : ∃ id capacity now c₀ as,
      Connection.new? id capacity now = some c₀ ∧ History s es l c₀ as := by
  induction es using List.reverseRecOn generalizing c with
  | nil => cases hn.symm.trans hc
  | append_singleton es e ih =>
    rcases hold : (s.run es).board.lines[l]? with - | c'
    · exact History.begins h hf hold hc
    · obtain ⟨id, capacity, now, c₀, as, hnew, hist⟩ := ih (freshRun_concat.1 hf).1 hold
      obtain ⟨as', hist'⟩ := hist.goesOn h hf
      exact ⟨id, capacity, now, c₀, as', hnew, hist'⟩

/-- **The queue of a connection is made when the connection comes to be**, and keeps the capacity
that was asked for then. -/
theorem exists_origin (h : s.AtRest) (hn : s.board.lines[l]? = none) (hf : FreshRun s es)
    (hc : (s.run es).board.lines[l]? = some c) : ∃ es₁ e es₂, es = es₁ ++ e :: es₂ ∧
      (s.run es₁).board.lines[l]? = none ∧ ((s.run (es₁ ++ [e])).board.lines[l]?).isSome ∧
      e.capacity? s.policy = some c.outbox.capacity := by
  induction es using List.reverseRecOn generalizing c with
  | nil => cases hn.symm.trans hc
  | append_singleton es e ih =>
    have ht : Tended l ((s.run es).begun e) (s.run (es ++ [e])) := tended_concat h hf
    obtain ⟨hf, -⟩ := freshRun_concat.1 hf
    rcases hold : (s.run es).board.lines[l]? with - | c'
    · rcases hb : ((s.run es).begun e).board.lines[l]? with - | c₁
      · cases (ht.vacant hb).symm.trans hc
      · obtain ⟨capacity, hmade, hborn⟩ := newborn_of_begun hold hb
        obtain ⟨as, -, hc', -⟩ := ht.acts _ hb
        cases hc.symm.trans hc'
        refine ⟨es, e, [], rfl, hold, by rw [hc]; rfl, ?_⟩
        rw [Connection.capacity_run, hborn.capacity_eq, ← hmade, (h.run hf).2]
    · obtain ⟨es₁, e₁, es₂, rfl, hnone, hsome, hmade⟩ := ih hf hold
      obtain ⟨as, -, hc', -⟩ := ht.acts _ (getElem?_begun_of_some hold e)
      cases hc.symm.trans hc'
      refine ⟨es₁, e₁, es₂ ++ [e], by simp, hnone, hsome, ?_⟩
      rw [Connection.capacity_run, Connection.capacity_run]
      exact hmade

/-! ### What comes to a client -/

/-- What has come to a client in a run, as texts, and what is on its way to it. -/
theorem onWay_recalling_forgotten {x : Socket} (hx : (s.run es).sockets[k]? = some x) :
    (x.recalling (s.trace (forgotten k) es)).onWay =
      Outgoing.texts (s.receipts k es) ++ Outgoing.texts x.pipe.held := by
  rw [Socket.onWay_recalling, Socket.onWay, Outgoing.texts_append, receipts, Outgoing.texts_append,
    arrived, hx, List.append_assoc]
  rfl

/-- **Nothing is sent through a socket that is mute**: no texts come to the client but those that
have come already or are on their way. -/
theorem receipts_of_mute (h : s.AtRest) (hf : FreshRun s es) {x : Socket}
    (hx : s.sockets[k]? = some x) (hl : x.line = some l) (hm : x.Mute) :
    ∃ x', (s.run es).sockets[k]? = some x' ∧ x'.line = some l ∧ x'.Mute ∧
      (x'.recalling (s.trace (forgotten k) es)).onWay <+: x.onWay := by
  induction es using List.reverseRecOn with
  | nil => exact ⟨x, hx, hl, hm, List.prefix_rfl⟩
  | append_singleton es e ih =>
    have ht : Tended l ((s.run es).begun e) (s.run (es ++ [e])) := tended_concat h hf
    obtain ⟨hf, -⟩ := freshRun_concat.1 hf
    have hrest := (h.run hf).1
    obtain ⟨x₁, hx₁, hl₁, hm₁, hp₁⟩ := ih hf
    -- the socket has forgotten something, and then it is tended
    obtain ⟨x₂, hx₂, hl₂⟩ := sockets_begun hx₁ e
    obtain ⟨x₃, hx₃, hl₃⟩ : ∃ x₃, (s.run (es ++ [e])).sockets[k]? = some x₃ ∧
        x₃.line = x₂.line := by
      have hline := ht.line k
      rw [hx₂] at hline
      exact Option.map_eq_some_iff.1 hline
    have hl₃' : x₃.line = some l := by rw [hl₃, hl₂, hl₁]
    have hb := getElem?_begun_of_some (List.getElem?_eq_getElem (hrest.sound.line_lt hx₁ hl₁)) e
    obtain ⟨as, -, -, hconveys, -⟩ := ht.acts _ hb
    obtain ⟨x₂', hx₂', hconv⟩ := hconveys k x₃ hx₃ hl₃'
    cases hx₂.symm.trans hx₂'
    rcases getElem?_sockets_begun hx₂ with hold | ⟨hnone, -⟩
    · cases hx₁.symm.trans hold
      rw [Socket.recalling_recalling, ← trace_concat] at hp₁
      have hm₂ : x₂.Mute := hm₁
      exact ⟨x₃, hx₃, hl₃', hconv.mute hm₂, ((hconv.recalling _).silent hm₂).trans hp₁⟩
    · cases hx₁.symm.trans hnone

end Service

end Switchboard
