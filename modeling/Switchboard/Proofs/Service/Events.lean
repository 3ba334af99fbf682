/-
Switchboard/Proofs/Service/Events.lean

What an event does to a service at rest.

Whatever happens, every socket goes on, and the service comes to rest again:
that is `AtRest.after`.  What a frame comes to is told by `hear_cases`: nothing,
if nobody reads it, a message that is handled, or a change of the socket.  Whoever
comes has a connection, if one can be made, and a socket with pumps of its own.

Each kind of event has one lemma: most are stirs of the service that settle
afterwards; what clients have received or stop taking is set aside without
settling, `Aside`; and time settles as often as a timer is due.
-/
import Switchboard.Proofs.Service.Stir

namespace Switchboard

/-- The message that a frame brings. -/
def Incoming.content? : Incoming → Option Bytes
  | .text content | .binary content => some content
  | _ => none

namespace Service

variable {s s' : Service} {k : SocketNumber} {l : LineNumber} {v : Served}

/-! ### Calls and sweepers -/

/-- A call is an operation of the board. -/
theorem stirred_call (h : s.Sound) (c : Board.Call) (hc : c.Fresh s.board) :
    Stirred s { s with board := s.board.after c } :=
  stirred_withBoard h (h.inStep.after c hc) (Board.onward_after s.board c) rfl rfl rfl

/-- A sweeper that begins its work is not due at once. -/
theorem stirred_sweeper (h : s.Sound) :
    Stirred s { s with sweepers := s.sweepers ++ [.first s.policy s.clock] } := by
  refine ⟨h.withBoard h.inStep (.refl _) rfl (Nat.le_refl _), rfl, ?_, fun _ => id,
    fun k => kept_of_eq rfl rfl, writer_of_socket rfl⟩
  intro ha w hw
  rcases List.mem_append.1 hw with hw | hw
  · exact ha w hw
  · obtain rfl := List.mem_singleton.1 hw
    intro due hd
    show s.clock + 1 ≤ due ∧ 0 < s.policy.sweepEvery
    rw [Sweeper.first] at hd
    split at hd
    · cases hd
    · cases hd
      omega

/-! ### Frames -/

/-- The reader of a socket takes in a frame, and its handling breaks down. -/
def Falls (s : Service) (k : SocketNumber) (f : Incoming) : Prop :=
  ∃ l v content, s.served? k = some (l, v) ∧ v.socket.reader ≠ .ended ∧
    f.unreadable s.policy.maxFrame = false ∧ f.content? = some content ∧
    s.board.BreaksDown s.check s.draw l content

/-- A client that is hung up on has its connection closed. -/
theorem stirred_hangUp (h : s.Sound) (k : SocketNumber) (parting : Parting) :
    Stirred s (s.hangUp k parting) :=
  stirred_modifyServed h fun {_ v} _ => Served.bears_hangUp v parting

/-- A message is handled, and the deadline of the reader moves, or the reader falls. -/
theorem stirred_takeMessage (h : s.Sound) (k : SocketNumber) (l : LineNumber) (content : Bytes) :
    Stirred s (s.takeMessage k l content) := by
  let u : Service := { s with
    board := (s.board.handleFrame s.check s.clock s.draw l content).2, drawn := s.drawn + 1 }
  have hu : Stirred s u :=
    stirred_withBoard h (h.inStep.handleFrame ..) (Board.onward_handleFrame ..) rfl rfl rfl
  rcases hdone : (s.board.handleFrame s.check s.clock s.draw l content).1 with - | -
  · have he : s.takeMessage k l content = u.modifyServed k Served.fallen := by
      rw [takeMessage]
      simp only [hdone]
      rfl
    rw [he]
    exact hu.trans (stirred_modifyServed hu.sound fun {_ v} _ => v.bears_fallen)
  · -- the reader goes on, with a new deadline
    have he : s.takeMessage k l content = u.modifyServed k (Served.extend s.policy) := by
      rw [takeMessage]
      simp only [hdone, if_true]
      have hp : u.policy = s.policy := (Board.onward_handleFrame ..).policy
      show u.modifyServed k (fun v => v.extend u.policy) = _
      rw [hp]
    rw [he]
    exact hu.trans (stirred_modifyServed hu.sound fun {_ v} _ => Served.bears_extend s.policy v)

/-- A frame that is read is taken in. -/
theorem hear_eq_take {f : Incoming} (hv : s.served? k = some (l, v))
    (hr : v.socket.reader ≠ .ended) (hu : f.unreadable s.policy.maxFrame = false) :
    s.hear k f = s.take k l f := by
  rw [hear, hv]
  cases hreader : v.socket.reader with
  | ended => exact absurd hreader hr
  | reading deadline => simp only [hreader, hu, Bool.false_eq_true, if_false]

/-- **What a frame comes to**: nothing, if nobody reads it; a message that is handled; or a change
of the socket. -/
theorem hear_cases (s : Service) (k : SocketNumber) (f : Incoming) :
    s.hear k f = s ∨
      (∃ l v content, s.served? k = some (l, v) ∧ v.socket.reader ≠ .ended ∧
        f.unreadable s.policy.maxFrame = false ∧ f.content? = some content ∧
        s.hear k f = s.takeMessage k l content) ∨
      ∃ g : Served → Served, (∀ v : Served, v.Bears (g v)) ∧ s.hear k f = s.modifyServed k g := by
  rcases hv : s.served? k with - | ⟨l, v⟩
  · exact .inl (by rw [hear, hv])
  · by_cases hr : v.socket.reader = .ended
    · -- nobody reads the frame
      exact .inl (by rw [hear, hv]; simp only [hr])
    · right
      by_cases hu : f.unreadable s.policy.maxFrame = true
      · -- it is too large, or is none
        refine .inr ⟨_, fun v => v.bears_hangUp .farewell, ?_⟩
        rw [hear, hv]
        cases hreader : v.socket.reader with
        | ended => exact absurd hreader hr
        | reading deadline =>
          simp only [hreader, if_pos hu]
          rfl
      · have hu' : f.unreadable s.policy.maxFrame = false := by simpa using hu
        have he := hear_eq_take hv hr hu'
        cases f with
        | text content | binary content => exact .inl ⟨l, v, content, rfl, hr, hu', rfl, he⟩
        | ping content => exact .inr ⟨_, fun v => v.bears_echo s.policy content, he⟩
        | pong content => exact .inr ⟨_, fun v => v.bears_signOfLife s.policy s.clock, he⟩
        | close farewell => exact .inr ⟨_, fun v => v.bears_hangUp _, he⟩

/-- A frame is handled, or a change of the socket that brings it. -/
theorem stirred_hear (h : s.Sound) (k : SocketNumber) (f : Incoming) :
    Stirred s (s.hear k f) := by
  rcases hear_cases s k f with e | ⟨l, v, content, hv, hr, hu, hcontent, e⟩ | ⟨g, hg, e⟩
  · rw [e]
    exact stirred_self h
  · rw [e]
    exact stirred_takeMessage h k l content
  · rw [e]
    exact stirred_modifyServed h fun {_ v} _ => hg v

/-- The reader of a socket falls, and nothing else happens. -/
theorem hear_of_falls {f : Incoming} (hv : s.served? k = some (l, v)) (hf : s.Falls k f) :
    s.hear k f = ({ s with drawn := s.drawn + 1 } : Service).putServed k l v.fallen := by
  obtain ⟨l', v', content, hv', hr, hu, hcontent, hb⟩ := hf
  cases hv.symm.trans hv'
  have htake : s.hear k f = s.takeMessage k l content := by
    rw [hear_eq_take hv hr hu]
    cases f with
    | text _ | binary _ =>
      cases hcontent
      rfl
    | _ => cases hcontent
  rw [htake, takeMessage, hb.handleFrame_eq]
  have hdrawn : ({ s with drawn := s.drawn + 1 } : Service).served? k = some (l, v) := hv
  exact modifyServed_eq hdrawn Served.fallen

/-! ### Breaking off, vanishing and going on -/

/-- A client that nobody reads may break off unnoticed. -/
theorem breakOff_of_ended (hv : s.served? k = some (l, v)) (hr : v.socket.reader = .ended) :
    s.breakOff k = s := by
  rw [breakOff, hv]
  simp only [hr]

/-- A client that is read is hung up on in silence. -/
theorem breakOff_of_reading {deadline : Nat} (hv : s.served? k = some (l, v))
    (hr : v.socket.reader = .reading deadline) : s.breakOff k = s.hangUp k .silence := by
  rw [breakOff, hv]
  simp only [hr]

theorem stirred_breakOff (h : s.Sound) (k : SocketNumber) : Stirred s (s.breakOff k) := by
  rw [breakOff]
  split
  · exact stirred_self h
  · split
    · exact stirred_self h
    · exact stirred_hangUp h k _

/-- Vanishing and being hung up on are one change of a socket. -/
theorem vanish_eq (s : Service) (k : SocketNumber) :
    (s.modifyServed k fun v => v.withPipe v.socket.pipe.vanish).breakOff k =
      s.modifyServed k Served.vanished := by
  rcases hv : s.served? k with - | ⟨l, v⟩
  · rw [modifyServed_eq_self hv, modifyServed_eq_self hv, breakOff, hv]
  · have hv' : (s.putServed k l (v.withPipe v.socket.pipe.vanish)).served? k =
        some (l, v.withPipe v.socket.pipe.vanish) := served?_putServed hv rfl
    rw [modifyServed_eq hv, modifyServed_eq hv]
    cases hr : v.socket.reader with
    | ended => rw [breakOff_of_ended hv' hr, Served.vanished_of_ended hr]
    | reading deadline =>
      rw [breakOff_of_reading hv' hr, Served.vanished_of_reading hr, hangUp, modifyServed_eq hv',
        putServed_putServed]
      rfl

theorem stirred_vanish (h : s.Sound) (k : SocketNumber) :
    Stirred s ((s.modifyServed k fun v => v.withPipe v.socket.pipe.vanish).breakOff k) := by
  rw [vanish_eq]
  exact stirred_modifyServed h fun {_ v} _ => v.bears_vanished

/-- A way that breaks off holds nothing any more. -/
theorem stirred_sever (h : s.Sound) (k : SocketNumber) :
    Stirred s (s.modifyServed k fun v => v.withPipe v.socket.pipe.vanish) :=
  stirred_modifyServed h fun {_ v} _ => v.bears_vanish

theorem stirred_resume (h : s.Sound) (k : SocketNumber) :
    Stirred s (s.modifyServed k fun v =>
      let probed := v.socket.pipe.held.contains .ping
      let v := v.withPipe v.socket.pipe.resume
      if probed then v.answerProbe s.policy s.clock else v) := by
  refine stirred_modifyServed h fun {_ v} _ => ?_
  simp only
  split
  · exact v.bears_resume.trans (Served.bears_answerProbe _ _ _)
  · exact v.bears_resume

/-! ### Coming -/

/-- The board after a client has come. -/
def admitted (s : Service) : Board :=
  let b := s.board.enter s.draw.connection s.policy.queueCapacity s.clock
  if s.policy.Probes s.clock then b else b.modify s.board.lines.length Connection.forsake

/-- Can a connection be made for a client that comes? -/
def Admits (s : Service) : Prop :=
  (Connection.new? s.draw.connection s.policy.queueCapacity s.clock).isSome

/-- The socket of a client that comes. -/
def newcomer (s : Service) (answersProbes : Bool) : Socket :=
  Socket.fresh s.policy s.board.lines.length s.clock answersProbes

/-- A new writer has broken down if the clock cannot tell its first probe. -/
theorem writer_fresh_eq_ended {p : Policy} {now : Nat} {a : Bool} :
    (Socket.fresh p l now a).writer = .ended ↔ ¬ p.Probes now := by
  rw [Socket.fresh]
  by_cases h : p.Probes now
  · simp [Writer.first_of_probes h, h]
  · simp [Writer.first_of_not_probes h, h]

/-- A new writer does not wait. -/
theorem wait?_fresh {p : Policy} {now : Nat} {a : Bool} :
    (Socket.fresh p l now a).writer.wait? = none := by
  rw [Socket.fresh]
  by_cases h : p.Probes now
  · simp only [Writer.first_of_probes h]
    rfl
  · simp only [Writer.first_of_not_probes h]
    rfl

/-- Otherwise it is ready. -/
theorem loyal_fresh {p : Policy} {now : Nat} {a : Bool} {c : Connection} :
    (⟨c, Socket.fresh p l now a⟩ : Served).Loyal := by
  by_cases h : p.Probes now
  · exact .inl (.inr (by simp only [Socket.fresh, Writer.first_of_probes h]; trivial))
  · exact .inr (writer_fresh_eq_ended.2 h)

/-- For a client that is not let in there is only a socket without a line. -/
theorem join_of_not_admits (h : ¬ s.Admits) (a : Bool) :
    s.join a = { s with
      drawn := s.drawn + 1, sockets := s.sockets ++ [Socket.still s.policy a] } := by
  have hn : Connection.new? s.draw.connection s.policy.queueCapacity s.clock = none := by
    simpa [Admits] using h
  have ho : s.board.open? s.draw.connection
      ({ s with drawn := s.drawn + 1 } : Service).policy.queueCapacity s.clock = none :=
    congrArg (Option.map _) hn
  rw [join]
  simp only [ho]
  rfl

/-- For one that is, there is a connection besides. -/
theorem join_of_admits (h : s.Admits) (a : Bool) :
    s.join a = { s with
      drawn := s.drawn + 1, board := s.admitted, sockets := s.sockets ++ [s.newcomer a] } := by
  obtain ⟨c, hc⟩ := Option.isSome_iff_exists.1 h
  have ho : s.board.open? s.draw.connection
      ({ s with drawn := s.drawn + 1 } : Service).policy.queueCapacity s.clock =
      some (s.board.lines.length, { s.board with lines := s.board.lines ++ [c] }) :=
    congrArg (Option.map _) hc
  rw [admitted, Board.enter_eq hc, join]
  simp only [ho, writer_fresh_eq_ended, ite_not]
  rfl

theorem onward_admitted (s : Service) : s.board.Onward s.admitted := by
  have he := Board.onward_enter s.board s.draw.connection s.policy.queueCapacity s.clock
  rw [admitted]
  split
  · exact he
  · exact he.trans (Board.onward_modify fun _ _ => ⟨rfl, id⟩)

/-- The newcomer is registered like any other. -/
theorem inStep_admitted (h : s.Sound) (hu : s.board.Unused s.draw.connection) :
    s.admitted.InStep := by
  have he := h.inStep.enter hu s.policy.queueCapacity s.clock
  rw [admitted]
  split
  · exact he
  · exact he.of_alike (Board.alike_modify fun _ _ => rfl)

/-- The new connection is closed exactly if the end has begun. -/
theorem getElem?_admitted (h : s.Admits) :
    ∃ c, s.admitted.lines[s.board.lines.length]? = some c ∧ c.closed = s.board.closing := by
  obtain ⟨c, hc⟩ := Option.isSome_iff_exists.1 h
  obtain ⟨c', hc', hcl⟩ := Board.getElem?_enter hc
  rw [admitted]
  split
  · exact ⟨c', hc', hcl⟩
  · -- its writer has broken down, which closes nothing
    exact ⟨c'.forsake, Board.getElem?_modify_self hc', hcl⟩

/-- With a socket added that does not wait, everyone else goes on. -/
theorem stirred_append (h : s.Sound) {x : Socket} (hs : s'.sockets = s.sockets ++ [x])
    (hx : x.line ≠ none → x.writer.wait? = none) (hsound : s'.Sound)
    (ho : s.board.Onward s'.board) (hw : s'.sweepers = s.sweepers) (hc : s'.clock = s.clock) :
    Stirred s s' := by
  have hold : ∀ k < s.sockets.length, s'.sockets[k]? = s.sockets[k]? := fun k hk => by
    rw [hs]
    exact List.getElem?_append_left hk
  refine ⟨hsound, ho.policy, ahead_congr hw ho.policy hc, fun t ht k l v hv deadline hd => ?_,
    fun k => ?_, fun {k l v v'} hv => ?_⟩
  · rcases Nat.lt_or_ge k s.sockets.length with hk | hk
    · obtain ⟨c, hv₀⟩ := h.exists_served? (hold k hk) hv
      exact ht k l ⟨c, v.socket⟩ hv₀ deadline hd
    · -- it is the one that has been added
      obtain ⟨hv', hl, -⟩ := served?_eq_some.1 hv
      rw [hs, List.getElem?_append_right hk] at hv'
      have hlast : v.socket = x := List.mem_singleton.1 (List.mem_of_getElem? hv')
      rw [hlast] at hd hl
      rw [hx (by simp [hl])] at hd
      cases hd
  · rcases Nat.lt_or_ge k s.sockets.length with hk | hk
    · exact h.kept_withBoard ho (hold k hk)
    · have hnone : s.served? k = none := served?_eq_none_of_length_le hk
      exact ⟨fun hlt => absurd hlt (Nat.not_lt.2 hk), fun hlt => absurd hlt (Nat.not_lt.2 hk),
        fun hv => by cases hnone.symm.trans hv⟩
  · have hk := (List.getElem?_eq_some_iff.1 (served?_eq_some.1 hv).1).1
    exact writer_of_socket (hold k hk) hv

/-- Whoever comes leaves the others as they are. -/
theorem stirred_join (h : s.Sound) (hu : s.board.Unused s.draw.connection) (a : Bool) :
    Stirred s (s.join a) := by
  by_cases ha : s.Admits
  · rw [join_of_admits ha]
    have ho := onward_admitted s
    obtain ⟨c, hc, -⟩ := getElem?_admitted ha
    have hlt := (List.getElem?_eq_some_iff.1 hc).1
    refine stirred_append h rfl (fun _ => wait?_fresh) ?_ ho rfl rfl
    refine h.append rfl (inStep_admitted h hu) ho (Nat.le_refl _) ?_
    intro l hl
    cases hl
    refine ⟨rfl, hlt, fun c => ⟨fun hf => (by cases hf), fun hg => (by cases hg), ?_,
      loyal_fresh⟩⟩
    intro deadline hw
    cases wait?_fresh.symm.trans hw
  · -- nobody is admitted, and the socket of the client is still
    rw [join_of_not_admits ha]
    refine stirred_append h rfl (fun hno => absurd rfl hno) ?_ (.refl _) rfl rfl
    exact h.append rfl h.inStep (.refl _) (Nat.le_refl _) fun l hl => (by cases hl)

/-- What serves the newcomer, if anything does. -/
theorem served?_join_of_admits (h : s.Admits) (a : Bool) :
    ∃ c, (s.join a).served? s.sockets.length =
      some (s.board.lines.length, ⟨c, s.newcomer a⟩) ∧ c.closed = s.board.closing := by
  obtain ⟨c, hc, hcl⟩ := getElem?_admitted h
  rw [join_of_admits h]
  exact ⟨c, served?_eq_some.2 ⟨List.getElem?_concat_length, rfl, hc⟩, hcl⟩

theorem served?_join_of_not_admits (h : ¬ s.Admits) (a : Bool) :
    (s.join a).served? s.sockets.length = none := by
  rw [join_of_not_admits h, served?]
  simp [Socket.still]

/-! ### Clients that stop taking, and what they have received -/

/-- A change of what clients have received or take is none that matters. -/
structure Aside (s s' : Service) : Prop where
  board : s'.board = s.board
  clock : s'.clock = s.clock
  sweepers : s'.sweepers = s.sweepers
  socket : ∀ k : SocketNumber, ∃ f : Pipe → Pipe,
    (∀ pipe, (f pipe).room = pipe.room ∧ (f pipe).gone = pipe.gone ∧ (f pipe).held = pipe.held) ∧
      s'.sockets[k]? = s.sockets[k]?.map fun x => { x with pipe := f x.pipe }

/-- To stop taking is none of the service's business. -/
theorem aside_stop (s : Service) (k : SocketNumber) : Aside s (s.stop k) := by
  refine ⟨rfl, rfl, rfl, fun i => ?_⟩
  by_cases hik : k = i
  · refine ⟨Pipe.stop, fun _ => ⟨rfl, rfl, rfl⟩, ?_⟩
    rw [stop, List.getElem?_modify]
    simp [hik]
  · refine ⟨id, fun _ => ⟨rfl, rfl, rfl⟩, ?_⟩
    rw [stop, List.getElem?_modify]
    simp [hik]

/-- Nor is it that what has come is forgotten. -/
theorem aside_forget (s : Service) : Aside s s.forget :=
  ⟨rfl, rfl, rfl, fun _ => ⟨fun pipe => { pipe with received := [] }, fun _ => ⟨rfl, rfl, rfl⟩,
    List.getElem?_map⟩⟩

/-- Every socket serves the same connection as before. -/
theorem Aside.served? (a : Aside s s') (k : SocketNumber) : ∃ f : Pipe → Pipe,
    (∀ pipe, (f pipe).room = pipe.room ∧ (f pipe).gone = pipe.gone ∧ (f pipe).held = pipe.held) ∧
      s'.served? k = (s.served? k).map fun r => (r.1, r.2.withPipe (f r.2.socket.pipe)) := by
  obtain ⟨f, hf, hk⟩ := a.socket k
  refine ⟨f, hf, ?_⟩
  rw [Service.served?, Service.served?, hk, a.board]
  rcases s.sockets[k]? with - | x
  · rfl
  · rcases hl : x.line with - | l
    · simp [hl]
    · rcases hc : s.board.lines[l]? with - | c <;> simp [hl, hc, Served.withPipe]

theorem Aside.exists_served? (a : Aside s s') (hv : s'.served? k = some (l, v)) :
    ∃ u pipe, s.served? k = some (l, u) ∧ v = u.withPipe pipe ∧
      pipe.room = u.socket.pipe.room ∧ pipe.gone = u.socket.pipe.gone ∧
      pipe.held = u.socket.pipe.held := by
  obtain ⟨f, hf, hs⟩ := a.served? k
  rw [hs, Option.map_eq_some_iff] at hv
  obtain ⟨⟨l', u⟩, hu, e⟩ := hv
  cases e
  exact ⟨u, f u.socket.pipe, hu, rfl, hf _⟩

/-- The service is at rest as before. -/
theorem Aside.atRest (a : Aside s s') (h : s.AtRest) : s'.AtRest := by
  refine ⟨?_, ?_, ahead_congr a.sweepers (congrArg Board.policy a.board) a.clock h.ahead⟩
  · refine h.sound.of_lines (by rw [a.board]; exact h.sound.inStep) (by rw [a.board]) ?_ ?_
    · intro k
      obtain ⟨f, -, hk⟩ := a.socket k
      rw [hk, Option.map_map]
      rfl
    · intro k l v hv
      obtain ⟨u, pipe, hu, rfl, -, hgone, hheld⟩ := a.exists_served? hv
      have hp := h.sound.proper hu
      rw [a.board, a.clock]
      exact hp.onward (Served.onward_withPipe fun hvoid hg => hheld.trans (hvoid (hgone ▸ hg)))
        hp.timely hp.loyal
  · intro k l v hv
    obtain ⟨u, pipe, hu, rfl, hroom, hgone, hheld⟩ := a.exists_served? hv
    have hi := h.idle hu
    rw [a.clock]
    refine ⟨⟨hi.quiet.reader, hi.quiet.parted, ?_⟩, hi.finished⟩
    intro deadline hw
    -- no frame is taken, so there is no more room than before
    obtain ⟨hdone, hd⟩ := hi.quiet.waits deadline hw
    refine ⟨?_, hd⟩
    show (pipe.gone || !pipe.isOverfull) = false
    rw [Pipe.isOverfull, hroom, hgone, hheld]
    exact hdone

theorem Aside.length_le (a : Aside s s') (k : SocketNumber) (hk : k < s.sockets.length) :
    k < s'.sockets.length := by
  obtain ⟨f, -, hs⟩ := a.socket k
  rw [List.getElem?_eq_getElem hk] at hs
  exact (List.getElem?_eq_some_iff.1 hs).1

theorem Aside.kept (a : Aside s s') (k : SocketNumber) : Kept k s s' where
  length := a.length_le k
  vacant := by
    intro _ hn
    obtain ⟨f, -, hs⟩ := a.served? k
    rw [hs, hn]
    rfl
  served := by
    intro l v hv
    obtain ⟨f, hf, hs⟩ := a.served? k
    refine ⟨v.withPipe (f v.socket.pipe), ?_, ⟨id, id, id⟩⟩
    rw [hs, hv]
    rfl

theorem Aside.calmed (a : Aside s s') (h : s.AtRest) : Calmed s s' :=
  ⟨a.atRest h, congrArg Board.policy a.board, fun k => a.kept k⟩

/-! ### Time -/

/-- Everyone goes on as time passes. -/
theorem calmed_elapse (h : s.AtRest) (milliseconds : Nat) : Calmed s (s.elapse milliseconds) := by
  have hpass : (s.elapse milliseconds).AtRest ∧ (s.elapse milliseconds).policy = s.policy ∧
      ∀ k, Kept k s (s.elapse milliseconds) := by
    refine h.elapse (P := fun u => u.policy = s.policy ∧ ∀ k, Kept k s u) ?_
      ⟨rfl, fun _ => kept_of_eq rfl rfl⟩ milliseconds
    -- the clock moves on to the next stop, and the service settles there
    rintro u t hu ht ⟨hp, hk⟩
    have hsound := hu.sound.atClock ht.1
    refine ⟨(onward_settle hsound ht.2).policy.trans hp, fun k => ?_⟩
    have hnow : Kept k u { u with clock := t } := kept_of_eq rfl rfl
    exact ((hk k).trans hnow).trans (kept_settle hsound ht.2 k)
  exact ⟨hpass.1, hpass.2.1, hpass.2.2⟩

/-! ### Events -/

/-- **After every event a service is at rest again**, and every socket has gone on. -/
theorem AtRest.after (h : s.AtRest) {e : Event} (he : e.Fresh s) : Calmed s (s.after e) := by
  have hs := h.sound
  cases e with
  | call c => exact (stirred_call hs c he).calmed h
  | sweeper => exact (stirred_sweeper hs).calmed h
  | accept a => exact (stirred_join hs he a).calmed h
  | receive k f => exact (stirred_hear hs k f).calmed h
  | endOfFrames k => exact (stirred_breakOff hs k).calmed h
  | vanish k => exact (stirred_vanish hs k).calmed h
  | sever k => exact (stirred_sever hs k).calmed h
  | stop k => exact (aside_stop s k).calmed h
  | resume k => exact (stirred_resume hs k).calmed h
  | forget => exact (aside_forget s).calmed h
  | elapse milliseconds => exact calmed_elapse h milliseconds

/-- After every run a service is at rest, by the same rules. -/
theorem AtRest.run {es : List Event} (h : s.AtRest) (hf : FreshRun s es) :
    (s.run es).AtRest ∧ (s.run es).policy = s.policy := by
  induction es generalizing s with
  | nil => exact ⟨h, rfl⟩
  | cons e es ih =>
    have hc := h.after hf.1
    obtain ⟨hr, hp⟩ := ih hc.atRest hf.2
    exact ⟨hr, hp.trans hc.policy⟩

end Service

end Switchboard
