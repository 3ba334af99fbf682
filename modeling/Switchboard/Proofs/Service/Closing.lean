/-
Switchboard/Proofs/Service/Closing.lean

How a connection ends as a whole.

A connection of a socket ends in one of many ways: its client takes its leave,
breaks off, vanishes, sends what cannot be read or gives no sign of life in
time; a frame finds no room in time, or cannot be sent since the way is broken
off; the connection is closed by a call, with the end of the service or in a
sweep; or it was refused from the beginning.  `Ends` lists them.  All of them
lead to the same: the connection is closed (`closed_of_ends`), and then, as soon
as its writer does not wait for room any more, both pumps have ended, the
connection is found in no index, and its client is sent nothing more.
`ends_altogether` says so of every run in which no pump of the socket breaks
down.
-/
import Switchboard.Proofs.Service.Registration

namespace Switchboard

/-- A frame whose time is over fails the writer. -/
theorem Served.Overdue.closed_run {p : Policy} {now : Nat} {v : Served} (h : v.Overdue p now) :
    (v.run p now).connection.closed = true := by
  by_contra hno
  have hopen := Bool.eq_false_iff.2 hno
  have hnot : v.connection.closed = false := Bool.eq_false_iff.2 fun hc =>
    absurd (hopen.symm.trans ((onward_run p now v).closed hc)) (by simp)
  have ht : v.InTime now := fun deadline hr => by
    by_contra hd
    exact absurd (hopen.symm.trans (closed_run_of_lapsed hr (Nat.le_of_not_lt hd))) (by simp)
  exact hno ((closed_run_iff hnot ht).2 (.inr h))

namespace Service

variable {s s' : Service} {k : SocketNumber} {l : LineNumber} {v : Served} {e : Event}
  {es : List Event} {f : Incoming}

/-- The connection of a socket is closed. -/
def Closed (s : Service) (k : SocketNumber) (l : LineNumber) : Prop :=
  ∃ v, s.served? k = some (l, v) ∧ v.connection.closed = true

theorem Kept.closed (hk : Kept k s s') (h : s.Closed k l) : s'.Closed k l := by
  obtain ⟨v, hv, hc⟩ := h
  obtain ⟨v', hv', hp⟩ := hk.served hv
  exact ⟨v', hv', hp.closed hc⟩

/-- What an event by itself has closed stays closed as the service settles. -/
theorem AtRest.closed_of_stirring (h : s.AtRest) (hf : e.Fresh s) (he : e.Settling)
    (hc : (s.stirring e).Closed k l) : (s.after e).Closed k l := by
  have t := stirred_stirring h.sound hf he
  rw [after_eq_settle he]
  exact (kept_settle t.sound (t.ahead h.ahead).punctual k).closed hc

/-- A connection one of whose pumps has ended is closed already, and stays so. -/
theorem AtRest.closed_of_ended (h : s.AtRest) (hf : e.Fresh s) (hk : s.Accounts k False)
    (hv : s.served? k = some (l, v))
    (hended : v.socket.reader = .ended ∨ v.socket.writer = .ended) : (s.after e).Closed k l :=
  ((h.after hf).kept k).closed ⟨v, hv, (h.unharmed_iff.2 hk l v hv hended).1⟩

/-! ### At a moment -/

/-- **Time runs out** for a socket that is doomed. -/
theorem closed_elapse {deadline milliseconds : Nat} (h : s.AtRest)
    (hv : s.served? k = some (l, v)) (hd : v.Doomed deadline)
    (ht : deadline ≤ s.clock + milliseconds) : (s.elapse milliseconds).Closed k l := by
  -- at every stop the socket takes its turn, with its connection as it is or closed
  have hturn : ∀ {u : Service} {now : Nat} {w : Served}, u.AtRest → u.Within now →
      u.served? k = some (l, w) → w.Doomed deadline → ∃ w' : Served, w'.Doomed deadline ∧
        (u.arrive now).served? k = some (l, w'.turn u.policy now) := by
    intro u now w hu hnow hw hdoomed
    obtain ⟨c, hw', haway, hstay⟩ := hu.sound.served?_moment hnow hw
    refine ⟨⟨c, w.socket⟩, hdoomed.withConnection fun hc => ?_, hw'⟩
    by_cases hswept : u.SweepsAway now l
    · exact haway hswept
    · rw [hstay hswept]
      exact hc
  obtain ⟨u, hu, ⟨w, hw, hdoomed⟩, hwithin, e⟩ := h.elapse_eq_arrive
    (P := fun u => ∃ w, u.served? k = some (l, w) ∧ w.Doomed deadline) (by
      rintro u t hu ht ⟨w, hw, hdoomed⟩
      obtain ⟨w', hdoomed', hw'⟩ := hturn hu ht hw hdoomed
      exact ⟨_, hw', hdoomed'.turn⟩) ⟨v, hv, hd⟩ milliseconds
  -- at the last stop the time has come
  obtain ⟨w', hdoomed', hw'⟩ := hturn hu hwithin hw hdoomed
  rw [e]
  exact ⟨_, hw', hdoomed'.closed_turn ht⟩

/-- **What cannot be sent** closes the connection, at whatever moment. -/
theorem AtRest.closed_of_moment {m : Service × Nat} (h : s.AtRest) (hf : e.Fresh s)
    (hm : m ∈ s.moments e) (hv : m.1.served? k = some (l, v))
    (hfails : v.Fruitless m.2 ∨ v.Overdue m.1.policy m.2) : (s.after e).Closed k l := by
  refine h.after_by_moments (P := fun u ms => ∀ m ∈ ms, ∀ v, m.1.served? k = some (l, v) →
    v.Fruitless m.2 ∨ v.Overdue m.1.policy m.2 → u.Closed k l) hf (by simp) ?_ m hm v hv hfails
  intro u now ms hs hw ih m' hm' v' hv' hfails'
  rcases List.mem_append.1 hm' with hm' | hm'
  · have hkept : Kept k u { u with clock := now } := kept_of_eq rfl rfl
    exact (hkept.trans (kept_settle (hs.atClock hw.1) hw.2 k)).closed (ih m' hm' v' hv' hfails')
  · obtain rfl := List.mem_singleton.1 hm'
    obtain ⟨c, hturn, haway, hstay⟩ := hs.served?_moment hw hv'
    refine ⟨_, hturn, ?_⟩
    by_cases hswept : u.SweepsAway now l
    · exact (Served.proceeds_turn _ _ _).closed (haway hswept)
    · rw [hstay hswept]
      exact Served.closed_turn (hfails'.elim Served.Fruitless.closed_run Served.Overdue.closed_run)

/-! ### What ends a connection -/

/-- An event that ends the connection of a socket. -/
inductive Ends (s : Service) (k : SocketNumber) (l : LineNumber) : Event → Prop
  /-- The client takes its leave. -/
  | farewell {v : Served} (f : Option Farewell) : s.served? k = some (l, v) →
      Ends s k l (.receive k (.close f))
  /-- A frame of the client cannot be read. -/
  | unreadable {v : Served} {f : Incoming} : s.served? k = some (l, v) →
      f.unreadable s.policy.maxFrame = true → Ends s k l (.receive k f)
  /-- The client's own probe cannot be answered, since the way to it is broken off. -/
  | unanswered {v : Served} (content : Bytes) : s.served? k = some (l, v) →
      v.socket.pipe.gone = true → Ends s k l (.receive k (.ping content))
  /-- The client sends no more. -/
  | endOfFrames {v : Served} : s.served? k = some (l, v) → Ends s k l (.endOfFrames k)
  /-- The client vanishes: nothing can be read from it nor written to it any more. -/
  | vanish {v : Served} : s.served? k = some (l, v) → Ends s k l (.vanish k)
  /-- The reader has waited for a sign of life for too long. -/
  | lapse {v : Served} {deadline milliseconds : Nat} : s.served? k = some (l, v) →
      v.socket.reader = .reading deadline → v.answers = false →
      deadline ≤ s.clock + milliseconds → Ends s k l (.elapse milliseconds)
  /-- A frame has waited for room for too long. -/
  | timeOut {v : Served} {deadline due milliseconds : Nat} : s.served? k = some (l, v) →
      v.socket.writer = .blocked deadline due → deadline ≤ s.clock + milliseconds →
      Ends s k l (.elapse milliseconds)
  /-- Something cannot be sent at a moment: the way to the client is broken off, or a frame finds no
  room and its time is over. -/
  | failedWrite {v : Served} {m : Service × Nat} {e : Event} : m ∈ s.moments e →
      m.1.served? k = some (l, v) → v.Fruitless m.2 ∨ v.Overdue m.1.policy m.2 → Ends s k l e
  /-- The connection is closed by a call. -/
  | close {v : Served} : s.served? k = some (l, v) → Ends s k l (.call (.close l))
  /-- The connection is found stale in a sweep. -/
  | sweep {v : Served} {id : ConnectionId} {now : Nat} : s.served? k = some (l, v) →
      (id, l) ∈ s.board.stale now → Ends s k l (.call (.sweep now))
  /-- The service ends. -/
  | shutdown {v : Served} {id : ConnectionId} : s.served? k = some (l, v) →
      s.board.registered[id]? = some l → Ends s k l (.call .shutdown)
  /-- The connection leaves the board in whatever way, as when a sweeper is due, but not because its
  name is unregistered from outside. -/
  | leave {v : Served} {id : ConnectionId} {e : Event} : s.served? k = some (l, v) →
      s.board.registered[id]? = some l → (s.after e).board.registered[id]? ≠ some l →
      e ≠ .call (.unregister id) → Ends s k l e
  /-- The client comes when the service has ended, and is refused. -/
  | refuse (answersProbes : Bool) : k = s.sockets.length → l = s.board.lines.length → s.Admits →
      s.board.closing = true → Ends s k l (.accept answersProbes)
  /-- One of the pumps has ended, for whatever reason. -/
  | pump {v : Served} {e : Event} : (s.after e).served? k = some (l, v) →
      v.socket.reader = .ended ∨ v.socket.writer = .ended → Ends s k l e

/-- A call by which a connection is closed. -/
theorem closed_call {c : Board.Call} (h : s.AtRest) (hc : c.Fresh s.board)
    (hv : s.served? k = some (l, v)) (hm : .close ∈ s.board.acts l c) :
    (s.after (.call c)).Closed k l := by
  obtain ⟨hx, hl, hline⟩ := served?_eq_some.1 hv
  refine h.closed_of_stirring (e := .call c) hc trivial
    ⟨⟨v.connection.run (s.board.acts l c), v.socket⟩, ?_, Connection.closed_run_of_mem hm _⟩
  exact served?_eq_some.2 ⟨hx, hl, Board.getElem?_after_of_some hline c⟩

/-- A frame by which a client is hung up on, or the reader ends. -/
theorem closed_receive (h : s.AtRest) (hk : s.Accounts k False)
    (hk' : (s.after (.receive k f)).Accounts k False) (hv : s.served? k = some (l, v))
    (hf : ∀ deadline w, v.socket.reader = .reading deadline →
      (s.hear k f).served? k = some (l, w) →
      w.connection.closed = true ∨ w.socket.reader = .ended) :
    (s.after (.receive k f)).Closed k l := by
  cases hr : v.socket.reader with
  | ended => exact h.closed_of_ended trivial hk hv (.inl hr)
  | reading deadline =>
    have t := stirred_hear h.sound k f
    obtain ⟨w, hw, -⟩ := (t.kept k).served hv
    obtain ⟨w', hw', hp⟩ := (kept_settle t.sound (t.ahead h.ahead).punctual k).served hw
    have hrest := (h.after (e := .receive k f) trivial).atRest
    rcases hf deadline w hr hw with hc | hended
    · exact ⟨w', hw', hp.closed hc⟩
    · exact ⟨w', hw', (hrest.unharmed_iff.2 hk' l w' hw' (.inl (hp.reader hended))).1⟩

theorem closed_endOfFrames (h : s.AtRest) (hk : s.Accounts k False)
    (hv : s.served? k = some (l, v)) : (s.after (.endOfFrames k)).Closed k l := by
  cases hr : v.socket.reader with
  | ended => exact h.closed_of_ended trivial hk hv (.inl hr)
  | reading deadline =>
    refine h.closed_of_stirring (e := .endOfFrames k) trivial trivial ?_
    rw [stirring, breakOff_of_reading hv hr, hangUp]
    exact ⟨_, served?_modifyServed hv rfl, rfl⟩

theorem closed_vanish (h : s.AtRest) (hk : s.Accounts k False) (hv : s.served? k = some (l, v)) :
    (s.after (.vanish k)).Closed k l := by
  cases hr : v.socket.reader with
  | ended => exact h.closed_of_ended trivial hk hv (.inl hr)
  | reading deadline =>
    refine h.closed_of_stirring (e := .vanish k) trivial trivial ?_
    rw [stirring, vanish_eq]
    refine ⟨_, served?_modifyServed hv v.bears_vanished.onward.line, ?_⟩
    rw [Served.vanished_of_reading hr]
    rfl

/-- The client's own probe, on a way that is broken off. -/
theorem closed_ping {deadline : Nat} {w : Served} {content : Bytes}
    (hv : s.served? k = some (l, v)) (hr : v.socket.reader = .reading deadline)
    (hg : v.socket.pipe.gone = true) (hw : (s.hear k (.ping content)).served? k = some (l, w)) :
    w.connection.closed = true ∨ w.socket.reader = .ended := by
  by_cases hread : (Incoming.ping content).unreadable s.policy.maxFrame = true
  · exact .inl (closed_hear hv hr (.inr hread) hw)
  · rw [hear_eq_take hv (by simp [hr]) (Bool.eq_false_iff.2 hread), take,
      served?_modifyServed hv (v.bears_echo _ _).onward.line] at hw
    cases hw
    by_cases hended : (v.echo s.policy content).socket.reader = .ended
    · exact .inr hended
    · refine .inl (Served.echo_of_gone content hg ?_)
      rw [Served.reader_extend (v := v.withPipe (v.socket.pipe.put (.pong content))) hr]
      rw [(Served.reader_echo content hr).1] at hended
      exact hended

/-- **Whatever ends a connection closes it.** -/
theorem closed_of_ends (h : s.AtRest) (he : e.Fresh s) (hk : s.Accounts k False)
    (hk' : (s.after e).Accounts k False) (hends : s.Ends k l e) : (s.after e).Closed k l := by
  cases hends with
  | farewell f hv =>
    exact closed_receive h hk hk' hv fun _ _ hr hw => .inl (closed_hear hv hr (.inl ⟨f, rfl⟩) hw)
  | unreadable hv hf =>
    exact closed_receive h hk hk' hv fun _ _ hr hw => .inl (closed_hear hv hr (.inr hf) hw)
  | unanswered content hv hg =>
    exact closed_receive h hk hk' hv fun _ _ hr hw => closed_ping hv hr hg hw
  | endOfFrames hv => exact closed_endOfFrames h hk hv
  | vanish hv => exact closed_vanish h hk hv
  | lapse hv hr ha hd => exact closed_elapse h hv (.inr (.inl ⟨hr, ha⟩)) hd
  | timeOut hv hw hd =>
    have hroom := ((h.idle hv).quiet.waits _ (by rw [hw]; rfl)).1
    exact closed_elapse h hv (.inr (.inr ⟨_, hw, hroom⟩)) hd
  | failedWrite hm hv hfails => exact h.closed_of_moment he hm hv hfails
  | close hv => exact closed_call h he hv (Board.mem_aimed.2 ⟨List.mem_singleton_self l, rfl⟩)
  | @sweep _ _ now hv hstale =>
    have hm : l ∈ (s.board.stale now).map Prod.snd := List.mem_map.2 ⟨_, hstale, rfl⟩
    exact closed_call h he hv (Board.mem_aimed.2 ⟨hm, rfl⟩)
  | shutdown hv hid =>
    exact closed_call h he hv (Board.mem_aimed.2 ⟨Board.mem_values.2 ⟨_, hid⟩, rfl⟩)
  | @leave _ id _ hv hid hleft hno =>
    obtain ⟨v', hv'⟩ := exists_served?_after h he hv
    obtain ⟨c, hc, hcl⟩ := closed_of_leaving h he hid hleft hno
    cases hc.symm.trans (served?_eq_some.1 hv').2.2
    exact ⟨v', hv', hcl⟩
  | refuse a hk hl ha hclosing =>
    subst hk hl
    obtain ⟨c, hc, hcl⟩ := served?_join_of_admits ha a
    exact h.closed_of_stirring (e := .accept a) he trivial ⟨_, hc, hcl.trans hclosing⟩
  | pump hv hended => exact ⟨_, hv, ((h.after he).atRest.unharmed_iff.2 hk' l _ hv hended).1⟩

/-! ### What is left -/

/-- Nothing is left of a connection but a socket that is silent: both pumps have ended, the name is
in no index, and nothing will come to the client but what is on its way already, which is nothing
if the client takes what comes. -/
structure Gone (s : Service) (k : SocketNumber) (v : Served) : Prop where
  reader : v.socket.reader = .ended
  writer : v.socket.writer = .ended
  registered : s.board.registered[v.connection.id]? = none
  users : ∀ user : String, v.connection.id ∉ s.board.users.listed user
  channels : ∀ channel : String, v.connection.id ∉ s.board.channels.listed channel
  silent : ∀ es, FreshRun s es → Outgoing.texts (s.receipts k es) <+:
    Outgoing.texts (s.arrived k ++ v.socket.pipe.held)
  taken : v.socket.pipe.taking = true → v.socket.pipe.held = []

/-- At rest nothing is left of a connection that is closed, unless its writer waits for room. -/
theorem AtRest.gone (h : s.AtRest) (hv : s.served? k = some (l, v))
    (hcl : v.connection.closed = true) (hw : v.socket.writer.wait? = none)
    (hin : v.socket.InOrder) : s.Gone k v := by
  obtain ⟨hx, hl, hc⟩ := served?_eq_some.1 hv
  obtain ⟨hr, hends⟩ := h.stopped hv hcl
  have hended : v.socket.writer = .ended := hends.eq_ended fun deadline hd => by
    cases hw.symm.trans hd
  have hno := h.unregistered hv hr hended
  have hnone : s.board.registered[v.connection.id]? = none := by
    rcases hid : s.board.registered[v.connection.id]? with - | l'
    · rfl
    · -- what is registered under the name would be the connection itself
      obtain rfl : l' = l := h.sound.inStep.line_eq_of_registered hid hc
      exact absurd hid (hno _)
  obtain ⟨husers, hchannels⟩ := h.sound.inStep.unlisted hnone
  refine ⟨hr, hended, hnone, husers, hchannels, fun es hf => ?_, hin⟩
  obtain ⟨x', hx', -, -, hp⟩ := receipts_of_mute h hf hx hl (.inr hended)
  rw [onWay_recalling_forgotten hx'] at hp
  have harrived : s.arrived k = v.socket.pipe.received := by rw [arrived, hx]; rfl
  rw [harrived]
  exact (List.prefix_append _ _).trans hp

/-! ### All together -/

/-- **A connection ends as a whole.**  If no pump of its socket breaks down, then whatever ends a
connection, it is closed from then on, and of all the closings in its history exactly one has found
it open.  Its reader ends, and its writer at the latest when the time of three waits for room is
over; and as soon as its writer waits for nothing more, nothing is left of it. -/
theorem ends_altogether (policy : Policy) (check : Check) (supply : Nat → Draw)
    {es₁ es₂ : List Event} {e : Event} {k : SocketNumber} {l : LineNumber}
    (hf : FreshRun (start policy check supply) (es₁ ++ e :: es₂))
    (hno : ∀ es e', es ++ [e'] <+: es₁ ++ e :: es₂ →
      ¬ ((start policy check supply).run es).BreaksDown k e')
    (hends : ((start policy check supply).run es₁).Ends k l e) :
    ∃ v, ((start policy check supply).run (es₁ ++ e :: es₂)).served? k = some (l, v) ∧
      v.connection.closed = true ∧
      (((start policy check supply).run (es₁ ++ [e])).clock + 3 * policy.writeWait ≤
        ((start policy check supply).run (es₁ ++ e :: es₂)).clock →
        v.socket.writer = .ended) ∧
      v.socket.reader = .ended ∧
      (v.socket.writer.wait? = none →
        ((start policy check supply).run (es₁ ++ e :: es₂)).Gone k v) ∧
      (∃ id capacity now c₀ as, Connection.new? id capacity now = some c₀ ∧
        History (start policy check supply) (es₁ ++ e :: es₂) l c₀ as) ∧
      ∀ id capacity now c₀ as, Connection.new? id capacity now = some c₀ →
        History (start policy check supply) (es₁ ++ e :: es₂) l c₀ as →
        c₀.closings as = 1 := by
  have h := atRest_start policy check supply
  obtain ⟨hf₁, he, hf₂⟩ := freshRun_append.1 hf
  obtain ⟨hrest, hpolicy⟩ := h.run hf₁
  have hafter := hrest.after he
  have hrun : (start policy check supply).run (es₁ ++ e :: es₂) =
      (((start policy check supply).run es₁).after e).run es₂ := run_append _ es₁ (e :: es₂)
  -- without a break no pump ends but by a closing
  have hunharmed := (unharmed_run_iff h hf fun l v hv => by cases hv).2
    fun es e' hp hb => hno es e' hp hb.1
  obtain ⟨v₁, hv₁, hcl₁⟩ := closed_of_ends hrest he (hunharmed es₁ (List.prefix_append _ _))
    (run_concat _ es₁ e ▸ hunharmed (es₁ ++ [e]) (by simp)) hends
  -- what is closed goes on ending, and not beyond its time
  have hstopped := hafter.atRest.stopped hv₁ hcl₁
  have hending : Ending _ k l _ := ⟨v₁, hv₁, hcl₁, hstopped.2⟩
  have hend := (hafter.atRest.run hf₂).1
  obtain ⟨v, hv, hcl, -⟩ := hending.run hafter.atRest hf₂
  obtain ⟨hx, hl, hline⟩ := served?_eq_some.1 hv
  rw [← hrun] at hend hv hx hline
  have hhistory := exists_history (l := l) h rfl hf hline
  have hin : v.socket.InOrder := by
    obtain ⟨_, _, _, _, _, -, hist⟩ := hhistory
    exact hist.inOrder k _ hx hl
  refine ⟨v, hv, hcl, fun ht => ?_, (hend.stopped hv hcl).1,
    fun hw => hend.gone hv hcl hw hin, hhistory, fun id capacity now c₀ as hnew hist => ?_⟩
  · have hp : (((start policy check supply).run es₁).after e).policy = policy :=
      hafter.policy.trans hpolicy
    rw [run_concat, hrun] at ht
    obtain ⟨v', hv', -, -, hended, -⟩ := hafter.atRest.over hv₁ hcl₁ hf₂ (by rw [hp]; exact ht)
    rw [← hrun] at hv'
    cases hv.symm.trans hv'
    exact hended
  · -- the connection was open at first, and is closed now
    have hopen : c₀.closed = false := by rw [(Connection.new?_eq_some hnew).2]
    have hlast : c₀.run as = v.connection := Option.some.inj (hist.line.symm.trans hline)
    rw [Connection.closings_eq hopen, hlast, if_pos hcl]

/-- A client comes, takes its leave, and some time passes. -/
def brief : List Event := [.accept true] ++ .receive 0 (.close none) :: [.elapse 30000]

/-- Nothing is left of the connection. -/
theorem ends_altogether_brief :
    FreshRun (start .standard fragile draws) brief ∧
      ∃ v, ((start .standard fragile draws).run brief).served? 0 = some (0, v) ∧
        v.connection.closed = true ∧ ((start .standard fragile draws).run brief).Gone 0 v := by
  have hf : FreshRun (start .standard fragile draws) brief := by decide +kernel
  have hv : (((start .standard fragile draws).run [.accept true]).served? 0).map Prod.fst =
      some 0 := by decide +kernel
  obtain ⟨⟨l, v⟩, hv, e⟩ := Option.map_eq_some_iff.1 hv
  obtain rfl : l = 0 := e
  have hframes : ∀ es f, es ++ [.receive 0 f] <+: brief →
      ¬ (((start .standard fragile draws).run es).Falls 0 f ∨
        ((start .standard fragile draws).run es).Overreads 0 f) := by
    -- the one frame brings no message, and the client is hung up on
    intro es f hp
    have hmem : Event.receive 0 f ∈ brief := hp.subset (by simp)
    obtain rfl : f = .close none := by simpa [brief] using hmem
    rintro (⟨_, _, _, _, _, _, hcontent, _⟩ | ⟨l, v, w, hv, hr, hw, hopen, -⟩)
    · cases hcontent
    · cases hreader : v.socket.reader with
      | ended => exact hr hreader
      | reading deadline =>
        exact absurd (hopen.symm.trans (closed_hear hv hreader (.inl ⟨_, rfl⟩) hw)) (by simp)
  have hno := (atRest_start .standard fragile draws).not_breaksDown hf (by decide +kernel)
    (by decide +kernel) hframes
  obtain ⟨w, hw, hcl, htime, -, hgone, -, -⟩ :=
    ends_altogether .standard fragile draws hf hno (.farewell none hv)
  have hended : w.socket.writer = .ended := htime (by decide +kernel)
  exact ⟨hf, w, hw, hcl, hgone (by rw [hended]; rfl)⟩

end Service

end Switchboard
