/-
Switchboard/Proofs/Service/Signs.lean

The signs of life of a client.

A client gives a sign of life with a pong and with a ping message, in frames of
its own or, if it is one that does so, in answer to the probes that come to it.
`signs` reads off from an event the times of these, as far as anyone reads
them, and `lastSign` the time of the last in the course of a run.

What an event by itself makes of a socket that waits is `Weathers`: the account
of the last sign of life goes on, whatever else the client sends, and the
connection is closed by the events that `Discards` lists and by no other.  It
goes on too once the reader has broken down over a sign of life after which the
clock cannot tell its deadline: from then on nothing is read.  A check of tokens
that breaks down would take the reader with it, and whoever touches a connection
from outside would give a sign of life in place of its client; both are excluded
from the start.
-/
import Switchboard.Proofs.Board.Touching
import Switchboard.Proofs.Service.Health

namespace Switchboard

/-- Is a frame, as it is read, a sign of life: a pong or a ping message? -/
def Incoming.greets (received : Stamp) : Incoming → Bool
  | .pong _ => true
  | .text content | .binary content => Envelope.isPing received content
  | .ping _ | .close _ => false

/-- The connection is open and was last heard of at the time `t`, and from then on the reader
waits, if the clock can tell until when. -/
structure Served.Biding (p : Policy) (a : Bool) (t : Nat) (v : Served) : Prop where
  isOpen : v.connection.closed = false
  lastSeen : v.connection.lastSeen = t
  reader : v.socket.reader = .upTo p (t + p.readWait)
  answersProbes : v.socket.answersProbes = a

namespace Served

variable {p : Policy} {a : Bool} {n t now : Nat} {v : Served}

theorem Biding.awaiting (h : v.Biding p a t) (now : Nat) :
    v.Awaiting p a v.probed t now (.upTo p (t + p.readWait)) := by
  have hself := awaiting_self v p now
  rwa [h.answersProbes, h.lastSeen, h.reader] at hself

/-- Whatever is read has the reader wait anew from the last sign of life. -/
theorem Biding.extend {deadline : Nat} (hr : v.socket.reader = .reading deadline)
    (hopen : v.connection.closed = false) (hseen : v.connection.lastSeen = t)
    (ha : v.socket.answersProbes = a) : (v.extend p).Biding p a t where
  isOpen := (congrArg Connection.closed (connection_extend p v)).trans hopen
  lastSeen := (congrArg Connection.lastSeen (connection_extend p v)).trans hseen
  reader := hseen ▸ reader_extend hr
  answersProbes := (answersProbes_extend p v).trans ha

theorem Awaiting.biding (h : v.Awaiting p a n t now (.upTo p (t + p.readWait)))
    (hopen : v.connection.closed = false) : v.Biding p a v.connection.lastSeen := by
  refine ⟨hopen, rfl, ?_, h.answersProbes⟩
  rw [h.reader, h.lastSeen]
  split <;> rfl

/-- The reader has time until it has waited for long enough. -/
theorem Biding.inTime_iff (h : v.Biding p a t) : v.InTime now ↔ ¬ p.Lapsed t now := by
  constructor
  · rintro hin ⟨hreads, hle⟩
    exact absurd (hin _ (h.reader.trans (Reader.upTo_of_lt hreads))) (Nat.not_lt.2 hle)
  · intro hno deadline hr
    rw [h.reader] at hr
    obtain rfl := Reader.upTo_eq_reading hr
    by_contra hle
    refine hno ⟨?_, Nat.le_of_not_lt hle⟩
    by_contra hlate
    cases hr.symm.trans (Reader.upTo_eq_ended.2 hlate)

/-- A reader that reads does so until the time after the last sign of life. -/
theorem Biding.reads {deadline : Nat} (h : v.Biding p a t)
    (hr : v.socket.reader = .reading deadline) : p.Reads t := by
  by_contra hlate
  have hended := h.reader.trans (Reader.upTo_eq_ended.2 hlate)
  cases hr.symm.trans hended

end Served

namespace Service

variable {s u : Service} {k k' : SocketNumber} {l : LineNumber} {v w : Served} {e : Event}
  {es : List Event} {p : Policy} {a : Bool} {came n t now : Nat}

/-! ### Signs of life -/

/-- Does the event bring a frame of the client that is read and is a sign of life? -/
def greets (k : SocketNumber) (s : Service) : Event → Bool
  | .receive k' f => k' == k &&
    match s.served? k with
    | some (_, v) => v.socket.reader != .ended && !f.unreadable s.policy.maxFrame &&
        f.greets s.draw.received
    | none => false
  | _ => false

/-- Has the client sent an answer that is read: has a probe come to it that it answers, and somebody
read before, and is its connection open still? -/
def answered (k : SocketNumber) (s s' : Service) : Bool :=
  match s.served? k, s'.served? k with
  | some (_, v), some (_, v') =>
    decide (v'.Heard v.socket.answersProbes v.probed v.socket.reader) && !v'.connection.closed
  | _, _ => false

/-- The times, of several moments, at which the client has sent an answer that is read. -/
def answersAt (k : SocketNumber) (ms : List (Service × Nat)) : List Nat :=
  ms.flatMap fun m => if answered k m.1 (m.1.arrive m.2) then [m.2] else []

/-- The times at which signs of life of a client are read in the course of an event. -/
def signs (k : SocketNumber) (s : Service) (e : Event) : List Nat :=
  match e with
  | .elapse _ => answersAt k (s.moments e)
  | _ => if greets k s e || answered k s (s.after e) then [s.clock] else []

/-- The time of the last sign of life of a client in the course of several events: if it has given
none, the time at which it came. -/
def lastSign (k : SocketNumber) (came : Nat) (s : Service) (es : List Event) : Nat :=
  (s.trace (signs k) es).getLastD came

theorem getLastD_append (xs ys : List Nat) (t : Nat) :
    (xs ++ ys).getLastD t = ys.getLastD (xs.getLastD t) := by
  rw [List.getLastD_eq_getLast?, List.getLastD_eq_getLast?, List.getLastD_eq_getLast?,
    List.getLast?_append, Option.getD_or]

theorem lastSign_concat (k : SocketNumber) (came : Nat) (s : Service) (es : List Event)
    (e : Event) :
    lastSign k came s (es ++ [e]) = (signs k (s.run es) e).getLastD (lastSign k came s es) := by
  rw [lastSign, trace_concat, getLastD_append]
  rfl

theorem reads_of_greets (hv : s.served? k = some (l, v)) (h : greets k s e = true) :
    v.socket.reader ≠ .ended := by
  intro hr
  cases e with
  | receive k' f => simp [greets, hv, hr] at h
  | _ => cases h

theorem signs_of_not_elapse (he : ∀ milliseconds, e ≠ .elapse milliseconds) : signs k s e =
    if greets k s e || answered k s (s.after e) then [s.clock] else [] := by
  cases e with
  | elapse milliseconds => exact absurd rfl (he milliseconds)
  | _ => rfl

theorem signs_of_settling (he : e.Settling) : signs k s e =
    if greets k s e || answered k s (s.after e) then [s.clock] else [] :=
  signs_of_not_elapse fun _ htime => by
    rw [htime] at he
    exact he

theorem answersAt_append (k : SocketNumber) (ms ms' : List (Service × Nat)) :
    answersAt k (ms ++ ms') = answersAt k ms ++ answersAt k ms' := List.flatMap_append

theorem answersAt_singleton (k : SocketNumber) (m : Service × Nat) :
    answersAt k [m] = if answered k m.1 (m.1.arrive m.2) then [m.2] else [] :=
  List.flatMap_singleton _ m

theorem answered_eq {v' : Served} (hv : s.served? k = some (l, v))
    (hv' : u.served? k = some (l, v')) : answered k s u =
      (decide (v'.Heard v.socket.answersProbes v.probed v.socket.reader) &&
        !v'.connection.closed) := by
  rw [answered, hv, hv']

/-! ### Events by themselves -/

/-- Does anyone read what the client sends? -/
def Hears (s : Service) (k : SocketNumber) : Prop :=
  ∃ l v, s.served? k = some (l, v) ∧ v.socket.reader ≠ .ended

theorem not_hears (hv : s.served? k = some (l, v)) (hr : v.socket.reader = .ended) :
    ¬ s.Hears k := by
  rintro ⟨l', v', hv', hreads⟩
  cases hv.symm.trans hv'
  exact hreads hr

/-- The client sends a probe of its own, which cannot be answered since the way to it is broken
off. -/
def Unanswered (s : Service) (k : SocketNumber) (e : Event) : Prop :=
  ∃ content l v, e = .receive k (.ping content) ∧ s.served? k = some (l, v) ∧
    v.socket.pipe.gone = true

/-- An event that closes the connection by itself: a call does, or the client, as far as anyone
reads what it sends: it takes its leave, sends what cannot be read or answered, breaks off or
vanishes. -/
def Discards (s : Service) (k : SocketNumber) (l : LineNumber) : Event → Prop
  | .call c => c.Closes s.board l
  | e => s.Hears k ∧ (s.Parts k l e ∨ s.Unanswered k e)

/-- What an event by itself makes of a socket that waits: it keeps the account of the last sign of
life, which may be one that it brings, and it closes the connection if it is one that does. -/
def Weathers (k : SocketNumber) (l : LineNumber) (a : Bool) (n t now : Nat) (ended : Prop)
    (u : Service) : Prop :=
  ∃ w, u.served? k = some (l, w) ∧ (w.connection.closed = true ↔ ended) ∧
    (¬ ended → w.Awaiting u.policy a n t now (.upTo u.policy (t + u.policy.readWait)))

theorem weathers_of_eq (hv : s.served? k = some (l, v)) (hb : v.Biding s.policy a t)
    (hu : u.served? k = s.served? k) (hp : u.policy = s.policy) {ended : Prop} (hno : ¬ ended) :
    u.Weathers k l a v.probed t now ended := by
  refine ⟨v, hu.trans hv, iff_of_false (by simp [hb.isOpen]) hno, fun _ => ?_⟩
  rw [hp]
  exact hb.awaiting now

/-- The connection is closed. -/
theorem weathers_of_closed (hw : u.served? k = some (l, w)) (hc : w.connection.closed = true)
    {ended : Prop} (hended : ended) : u.Weathers k l a n t now ended :=
  ⟨w, hw, iff_of_true hc hended, fun h => absurd hended h⟩

/-- Acts that are no touches leave the last sign of life as it is. -/
theorem weathers_of_acts {as : List Connection.Act} (hb : v.Biding p a t)
    (hu : u.served? k = some (l, ⟨v.connection.run as, v.socket⟩)) (hp : u.policy = p)
    (hno : ∀ t, .touch t ∉ as) {ended : Prop} (hended : .close ∈ as ↔ ended) :
    u.Weathers k l a v.probed t now ended := by
  refine ⟨_, hu, ?_, fun _ => ?_⟩
  · rw [← hended, Connection.closed_run_iff]
    simp [hb.isOpen]
  · rw [hp]
    exact (hb.awaiting now).unmoved
      ⟨fun hc => Connection.closed_run hc as, Connection.lastSeen_run hno, rfl, rfl, rfl⟩

theorem not_close_mem_acts_frame (l' : LineNumber) (content : Bytes) :
    .close ∉ s.board.acts l (.frame s.check s.clock s.draw l' content) := by
  rw [Board.close_mem_acts_iff]
  exact id

/-- The frame of another client. -/
theorem Sound.weathers_hear_ne (h : s.Sound) (hv : s.served? k = some (l, v))
    (hb : v.Biding s.policy a t) (hk : k' ≠ k) (f : Incoming) {ended : Prop} (hno : ¬ ended) :
    (s.hear k' f).Weathers k l a v.probed t now ended := by
  rcases hear_cases s k' f with e | ⟨l', v', content, hv', -, -, -, e⟩ | ⟨g, -, e⟩
  · rw [e]
    exact weathers_of_eq hv hb rfl rfl hno
  · obtain ⟨hx, hl, -⟩ := served?_eq_some.1 hv
    obtain ⟨hx', hl', -⟩ := served?_eq_some.1 hv'
    have hne : l' ≠ l := fun hll => hk (h.alone hx' hx hl' (hll ▸ hl))
    have hhandled : (s.handled l' content).Sound := h.handled l' content
    have hserved := served?_handled hv l' content
    rw [e]
    refine weathers_of_acts hb ((hhandled.served?_modifyServed_ne hk _).trans hserved) ?_ ?_ ?_
    · exact (policy_modifyServed (s.handled l' content) k' _).trans
        (Board.onward_handleFrame ..).policy
    · intro t' hm
      have hlt := h.line_lt hx' hl'
      exact hne ((Board.touch_mem_acts_frame hlt).1 hm).1
    · exact iff_of_false (not_close_mem_acts_frame l' content) hno
  · rw [e]
    exact weathers_of_eq hv hb (h.served?_modifyServed_ne hk g) (policy_modifyServed s k' g) hno

/-- A change of the socket itself. -/
theorem weathers_modifyServed {f : Served → Served} (hv : s.served? k = some (l, v))
    (hl : (f v).socket.line = v.socket.line) {ended : Prop} (hno : ¬ ended)
    (hopen : (f v).connection.closed = false)
    (hf : (f v).Awaiting s.policy a n t now (.upTo s.policy (t + s.policy.readWait))) :
    (s.modifyServed k f).Weathers k l a n t now ended := by
  refine ⟨f v, served?_modifyServed hv hl, iff_of_false (by simp [hopen]) hno, fun _ => ?_⟩
  rw [policy_modifyServed]
  exact hf

/-- A message of the client itself. -/
theorem weathers_takeMessage {deadline : Nat} (h : s.Sound) (hv : s.served? k = some (l, v))
    (hb : v.Biding s.policy a t) (hr : v.socket.reader = .reading deadline)
    (hcheck : ∀ session token, s.check session token ≠ .broken) (content : Bytes) {ended : Prop}
    (hno : ¬ ended) : (s.takeMessage k l content).Weathers k l a v.probed
      (if Envelope.isPing s.draw.received content then s.clock else t) now ended := by
  obtain ⟨hx, hl, -⟩ := served?_eq_some.1 hv
  have hserved := served?_handled hv l content
  have hlt := h.line_lt hx hl
  have hp := policy_handled s l content
  have hopen : ((v.connection.run (s.board.acts l (.frame s.check s.clock s.draw l content))).closed
      = false) := by
    refine Bool.eq_false_iff.2 fun hc => ?_
    rcases Connection.closed_run_iff.1 hc with hc | hm
    · exact absurd (hb.isOpen.symm.trans hc) (by simp)
    · exact not_close_mem_acts_frame l content hm
  rw [takeMessage_eq (Board.not_breaksDown hcheck)]
  refine weathers_modifyServed hserved (Served.onward_extend _ _).line hno ?_ ?_
  · rw [Served.connection_extend]
    exact hopen
  · have hseen : (v.connection.run
        (s.board.acts l (.frame s.check s.clock s.draw l content))).lastSeen =
          if Envelope.isPing s.draw.received content then s.clock else t := by
      by_cases hping : Envelope.isPing s.draw.received content = true
      · -- the message is a sign of life
        rw [if_pos hping]
        refine Connection.lastSeen_run_of_touch (fun t' hm => ?_) ?_
        · exact ((Board.touch_mem_acts_frame hlt).1 hm).2.1
        · exact (Board.touch_mem_acts_frame hlt).2 ⟨rfl, rfl, hping⟩
      · rw [if_neg hping]
        refine (Connection.lastSeen_run fun t' hm => ?_).trans hb.lastSeen
        exact hping ((Board.touch_mem_acts_frame hlt).1 hm).2.2
    have hafter : (Served.extend s.policy ⟨v.connection.run
        (s.board.acts l (.frame s.check s.clock s.draw l content)), v.socket⟩).Biding s.policy a
          (if Envelope.isPing s.draw.received content then s.clock else t) :=
      .extend hr hopen hseen hb.answersProbes
    have hwaits := hafter.awaiting now
    rw [Served.probed_extend] at hwaits
    rw [hp]
    exact hwaits

/-- A reader that goes on closes the connection if it cannot answer the client's own probe. -/
theorem closed_unanswered {deadline : Nat} {content : Bytes} (hv : s.served? k = some (l, v))
    (hb : v.Biding s.policy a t) (hr : v.socket.reader = .reading deadline)
    (hg : v.socket.pipe.gone = true) (hw : (s.hear k (.ping content)).served? k = some (l, w)) :
    w.connection.closed = true := by
  by_cases hread : (Incoming.ping content).unreadable s.policy.maxFrame = true
  · exact closed_hear hv hr (.inr hread) hw
  · rw [hear_eq_take hv (by simp [hr]) (Bool.eq_false_iff.2 hread), take,
      served?_modifyServed hv (v.bears_echo _ _).onward.line] at hw
    cases hw
    have hafter : ((v.withPipe (v.socket.pipe.put (.pong content))).extend s.policy).Biding
        s.policy a t := .extend hr hb.isOpen hb.lastSeen hb.answersProbes
    refine Served.echo_of_gone content hg ?_
    rw [hafter.reader, Reader.upTo_of_lt (hb.reads hr)]
    simp

/-- The client's own probe, to which the reader has a way to answer. -/
theorem weathers_echo {deadline : Nat} (hv : s.served? k = some (l, v))
    (hb : v.Biding s.policy a t) (hr : v.socket.reader = .reading deadline)
    (hway : v.socket.pipe.gone = false) (content : Bytes) {ended : Prop} (hno : ¬ ended) :
    (s.modifyServed k (·.echo s.policy content)).Weathers k l a v.probed t now ended := by
  have hafter : ((v.withPipe (v.socket.pipe.put (.pong content))).extend s.policy).Biding
      s.policy a t := .extend hr hb.isOpen hb.lastSeen hb.answersProbes
  have hwaits := hafter.awaiting now
  rw [Served.probed_extend, Served.probed_put (by simp)] at hwaits
  refine weathers_modifyServed hv (v.bears_echo _ _).onward.line hno ?_ ?_
  · rw [Served.echo_of_way content hway]
    exact hafter.isOpen
  · rw [Served.echo_of_way content hway]
    exact hwaits

/-- An answer that the client sends of itself. -/
theorem weathers_signOfLife {deadline : Nat} (hv : s.served? k = some (l, v))
    (hb : v.Biding s.policy a t) (hr : v.socket.reader = .reading deadline) {ended : Prop}
    (hno : ¬ ended) :
    (s.modifyServed k (·.signOfLife s.policy s.clock)).Weathers k l a v.probed s.clock now
      ended := by
  have hafter : (v.signOfLife s.policy s.clock).Biding s.policy a s.clock := by
    rw [Served.signOfLife_of_reading hr]
    exact .extend hr hb.isOpen rfl hb.answersProbes
  have hprobed : (v.signOfLife s.policy s.clock).probed = v.probed := by
    rw [Served.signOfLife_of_reading hr]
    exact Served.probed_extend _ _
  have hwaits := hafter.awaiting now
  rw [hprobed] at hwaits
  exact weathers_modifyServed hv (v.bears_signOfLife _ _).onward.line hno hafter.isOpen hwaits

/-- A frame of the client itself. -/
theorem weathers_hear (h : s.Sound) (hv : s.served? k = some (l, v)) (hb : v.Biding s.policy a t)
    (hcheck : ∀ session token, s.check session token ≠ .broken) (f : Incoming) :
    (s.hear k f).Weathers k l a v.probed (if greets k s (.receive k f) then s.clock else t)
      s.clock (s.Discards k l (.receive k f)) := by
  cases hr : v.socket.reader with
  | ended =>
    -- nobody reads it
    have hgreets : greets k s (.receive k f) = false := by simp [greets, hv, hr]
    have hsame : s.hear k f = s := by
      rw [hear, hv]
      simp only [hr]
    rw [hsame, hgreets]
    exact weathers_of_eq hv hb rfl rfl fun hd => not_hears hv hr hd.1
  | reading deadline =>
    have hreads : v.socket.reader ≠ .ended := by simp [hr]
    by_cases hdiscards : s.Discards k l (.receive k f)
    · obtain ⟨w, hw, -⟩ := served?_stirring h (e := .receive k f) trivial hv
      refine weathers_of_closed hw ?_ hdiscards
      obtain ⟨-, hparts | ⟨content, l', v', he, hv', hg⟩⟩ := hdiscards
      · exact closed_hear hv hr hparts.2 hw
      · cases he
        cases hv.symm.trans hv'
        exact closed_unanswered hv hb hr hg hw
    · have hclose : ∀ farewell, f ≠ .close farewell := fun farewell e =>
        hdiscards ⟨⟨l, v, hv, hreads⟩, .inl ⟨rfl, .inl ⟨farewell, e⟩⟩⟩
      have hread : f.unreadable s.policy.maxFrame = false := Bool.eq_false_iff.2 fun hu =>
        hdiscards ⟨⟨l, v, hv, hreads⟩, .inl ⟨rfl, .inr hu⟩⟩
      have hgreets : greets k s (.receive k f) = f.greets s.draw.received := by
        simp [greets, hv, hreads, hread]
      rw [hgreets, hear_eq_take hv hreads hread]
      cases f with
      | text content | binary content =>
        exact weathers_takeMessage h hv hb hr hcheck content hdiscards
      | ping content =>
        have hway : v.socket.pipe.gone = false := Bool.eq_false_iff.2 fun hg =>
          hdiscards ⟨⟨l, v, hv, hreads⟩, .inr ⟨content, l, v, rfl, hv, hg⟩⟩
        exact weathers_echo hv hb hr hway content hdiscards
      | pong content => exact weathers_signOfLife hv hb hr hdiscards
      | close farewell => exact absurd rfl (hclose farewell)

/-- A client that takes what comes to it again. -/
theorem Sound.weathers_resume (h : s.Sound) (hv : s.served? k = some (l, v))
    (hb : v.Biding s.policy a t) {ended : Prop} (hno : ¬ ended) :
    (s.stirring (.resume k)).Weathers k l a v.probed t s.clock ended := by
  have hwaits := @Served.awaiting_resumed s.policy s.clock v (h.proper hv).void
  rw [hb.answersProbes, hb.lastSeen, hb.reader] at hwaits
  refine weathers_modifyServed (f := Served.resumed s.policy s.clock) hv
    (v.bears_resumed _ _).onward.line hno ?_ hwaits
  rw [Served.closed_resumed]
  exact hb.isOpen

/-- What no client that is read does of itself closes nothing, unless it is a call. -/
theorem not_discards (hcall : ∀ c, e ≠ .call c)
    (hping : ∀ content, e ≠ .receive k (.ping content)) (hparts : ¬ s.Parts k l e) :
    ¬ s.Discards k l e := by
  cases e with
  | call c => exact absurd rfl (hcall c)
  | _ =>
    rintro ⟨-, hp | ⟨content, -, -, he, -⟩⟩
    · exact hparts hp
    · exact hping content he

/-- A client sends no more. -/
theorem Sound.weathers_endOfFrames (h : s.Sound) (hv : s.served? k = some (l, v))
    (hb : v.Biding s.policy a t) (k' : SocketNumber) :
    (s.breakOff k').Weathers k l a v.probed t now (s.Discards k l (.endOfFrames k')) := by
  by_cases hk : k' = k
  · subst hk
    cases hr : v.socket.reader with
    | ended =>
      rw [breakOff_of_ended hv hr]
      exact weathers_of_eq hv hb rfl rfl fun hd => not_hears hv hr hd.1
    | reading deadline =>
      rw [breakOff_of_reading hv hr, hangUp]
      exact weathers_of_closed (served?_modifyServed hv rfl) rfl
        ⟨⟨l, v, hv, by simp [hr]⟩, .inl rfl⟩
  · have hno : ¬ s.Discards k l (.endOfFrames k') := not_discards (by simp) (by simp) hk
    rw [breakOff]
    split
    · exact weathers_of_eq hv hb rfl rfl hno
    · split
      · exact weathers_of_eq hv hb rfl rfl hno
      · exact weathers_of_eq hv hb (h.served?_modifyServed_ne hk _) (policy_modifyServed s k' _)
          hno

/-- A client vanishes. -/
theorem Sound.weathers_vanish (h : s.Sound) (hv : s.served? k = some (l, v))
    (hb : v.Biding s.policy a t) (k' : SocketNumber) :
    (s.modifyServed k' Served.vanished).Weathers k l a v.probed t now
      (s.Discards k l (.vanish k')) := by
  by_cases hk : k' = k
  · subst hk
    have hline : v.vanished.socket.line = v.socket.line := v.bears_vanished.onward.line
    cases hr : v.socket.reader with
    | ended =>
      have hleft := Served.vanished_of_ended hr
      refine weathers_modifyServed hv hline (fun hd => not_hears hv hr hd.1) ?_ ?_
      · rw [hleft]
        exact hb.isOpen
      · rw [hleft]
        exact (hb.awaiting now).unmoved ⟨id, rfl, rfl, rfl, rfl⟩
    | reading deadline =>
      refine weathers_of_closed (served?_modifyServed hv hline) ?_
        ⟨⟨l, v, hv, by simp [hr]⟩, .inl rfl⟩
      rw [Served.vanished_of_reading hr]
      rfl
  · exact weathers_of_eq hv hb (h.served?_modifyServed_ne hk _) (policy_modifyServed s k' _)
      (not_discards (by simp) (by simp) hk)

/-- **An event by itself** keeps the account of the last sign of life. -/
theorem AtRest.weathers_stirring (h : s.AtRest) (he : e.Settling)
    (hcheck : ∀ session token, s.check session token ≠ .broken)
    (hno : ∀ c, e = .call c → ∀ t, .touch t ∉ s.board.acts l c)
    (hv : s.served? k = some (l, v)) (hb : v.Biding s.policy a t) :
    (s.stirring e).Weathers k l a v.probed (if greets k s e then s.clock else t) s.clock
      (s.Discards k l e) := by
  have hs := h.sound
  cases e with
  | call c =>
    obtain ⟨hx, hl, hc⟩ := served?_eq_some.1 hv
    have hserved : (s.stirring (.call c)).served? k =
        some (l, ⟨v.connection.run (s.board.acts l c), v.socket⟩) :=
      served?_eq_some.2 ⟨hx, hl, Board.getElem?_after_of_some hc c⟩
    exact weathers_of_acts hb hserved (Board.onward_after s.board c).policy (hno c rfl)
      Board.close_mem_acts_iff
  | sweeper => exact weathers_of_eq hv hb rfl rfl (not_discards (by simp) (by simp) id)
  | accept a' =>
    have hp : (s.join a').policy = s.policy := by
      by_cases ha : s.Admits
      · rw [join_of_admits ha]
        exact (onward_admitted s).policy
      · rw [join_of_not_admits ha]
        rfl
    exact weathers_of_eq hv hb ((served?_join hv a').trans hv.symm) hp
      (not_discards (by simp) (by simp) id)
  | receive k' f =>
    by_cases hk : k' = k
    · subst hk
      exact weathers_hear hs hv hb hcheck f
    · have hgreets : greets k s (.receive k' f) = false := by simp [greets, hk]
      rw [hgreets, if_neg (by simp)]
      exact hs.weathers_hear_ne hv hb hk f
        (not_discards (by simp) (by simp [hk]) fun hd => hk hd.1)
  | endOfFrames k' => exact hs.weathers_endOfFrames hv hb k'
  | vanish k' =>
    rw [stirring, vanish_eq]
    exact hs.weathers_vanish hv hb k'
  | sever k' =>
    have hno : ¬ s.Discards k l (.sever k') := not_discards (by simp) (by simp) id
    by_cases hk : k' = k
    · subst hk
      exact weathers_modifyServed (f := fun w => w.withPipe w.socket.pipe.vanish) hv rfl hno
        hb.isOpen ((hb.awaiting s.clock).unmoved ⟨id, rfl, rfl, rfl, rfl⟩)
    · exact weathers_of_eq hv hb (hs.served?_modifyServed_ne hk _) (policy_modifyServed s k' _) hno
  | resume k' =>
    have hno : ¬ s.Discards k l (.resume k') := not_discards (by simp) (by simp) id
    by_cases hk : k' = k
    · subst hk
      exact hs.weathers_resume hv hb hno
    · exact weathers_of_eq hv hb (hs.served?_modifyServed_ne hk _) (policy_modifyServed s k' _) hno
  | stop | forget | elapse => exact he.elim

end Service

end Switchboard
