/-
Switchboard/Proofs/Service/Answering.lean

A client that answers its probes stays.

Three timers run for a client: the writer probes it every interval, counted
from its coming; the reader gives up when it has waited too long since the
last sign of life; and sweepers, begun at any time, remove whoever has been
silent for longer than is allowed.  The settings that are accepted tie them
together: whoever answers every probe within a delay with which the policy is
`Patient` is in time for the other two.

Of the times, `t` is that of a sign of life and `due` that of the next probe.
`Paced` says how they lie about the clock, and what carries a run is its last
part: the clock is never further from `t` than an interval and the delay.  For
a client that answers at once this is so because the clock does not pass a
probe.  For any other it is so because the first probe after `t`, had its time
been over, would have been answered, and later than `t`.
-/
import Switchboard.Proofs.Service.Health
import Switchboard.Settings.Basic

namespace Switchboard

/-- The rules leave time enough to a client that answers every probe within the delay given. -/
structure Policy.Patient (p : Policy) (delay : Nat) : Prop where
  probing : 0 < p.probeEvery
  reading : p.probeEvery + delay < p.readWait
  sweeping : p.probeEvery + delay ≤ p.staleAfter

theorem Policy.Patient.on {p : Policy} {delay : Nat} (h : p.Patient delay) (host : Host) :
    (p.on host).Patient delay := ⟨h.probing, h.reading, h.sweeping⟩

/-- Where the clock can tell until when a client may be silent, it can tell when the next probe is
due. -/
theorem Policy.Patient.probes {p : Policy} {delay now : Nat} (h : p.Patient delay)
    (hreads : p.Reads now) : p.Probes now := by
  refine ⟨h.probing.ne', ?_⟩
  have hshorter := h.reading
  have hlt : now + p.readWait < p.host.horizon := hreads
  omega

/-- Under settings that are accepted, there is time for a client that answers at once. -/
theorem Settings.patient {settings : Settings} {p : Policy}
    (h : settings.outcome = .policy p) : p.Patient 0 := by
  rw [outcome] at h
  rcases e : settings.objection? with - | reason
  · simp only [e] at h
    split at h
    · cases h
    · cases h
      rw [objection?] at e
      split_ifs at e with hqueue hintervals hwait hmultiplier
      obtain ⟨hprobe, -⟩ := not_or.1 hintervals
      -- the stale age is a multiple of the interval
      have hstale : settings.probeSeconds * 1 ≤ settings.probeSeconds * settings.staleMultiplier :=
        Nat.mul_le_mul_left _ (by omega)
      refine ⟨?_, ?_, ?_⟩ <;> simp only [Policy.seconds] <;> omega
  · simp [e] at h

namespace Service

variable {s : Service} {k : SocketNumber} {l : LineNumber} {v : Served} {e : Event}
  {es : List Event} {p : Policy} {a : Bool} {came delay now now' t due : Nat}

/-! ### Clients that answer -/

/-- All that the events of a run are told of the time is the present. -/
def TimedRun : Service → List Event → Prop
  | _, [] => True
  | s, e :: es => e.Timed s ∧ TimedRun (s.after e) es

instance : (s : Service) → (es : List Event) → Decidable (TimedRun s es)
  | _, [] => inferInstanceAs (Decidable True)
  | s, e :: es =>
    have := instDecidableTimedRun (s.after e) es
    inferInstanceAs (Decidable (e.Timed s ∧ TimedRun (s.after e) es))

/-- The socket serves the connection of that number, and the connection is open. -/
def Connected (s : Service) (k : SocketNumber) (l : LineNumber) : Prop :=
  ∃ v, s.served? k = some (l, v) ∧ v.connection.closed = false

/-- The client sends its answers within the delay: as often as an event begins while it is connected
and ends more than the delay after a probe, a pong has been received since that probe, and no later
than the delay after it. -/
def Answers (s : Service) (k : SocketNumber) (l : LineNumber) (came every delay : Nat)
    (es : List Event) : Prop :=
  ∀ es₁ e, es₁ ++ [e] <+: es → (s.run es₁).Connected k l →
    ∀ n, 0 < n → came + n * every + delay < ((s.run es₁).after e).clock →
      ∃ es₂ content es₃, es₁ = es₂ ++ .receive k (.pong content) :: es₃ ∧
        came + n * every ≤ (s.run es₂).clock ∧ (s.run es₂).clock ≤ came + n * every + delay

/-- What is asked of the events after the coming of a client at the socket `k`: whoever else comes
has a new name, the times are those of the clock, which can tell all that are needed, the client
takes what comes to it and the way to it does not break off, and it answers the probes, of its own
accord at once or by pongs that it sends within the delay. -/
structure Answering (s : Service) (k : SocketNumber) (l : LineNumber) (a : Bool)
    (came delay : Nat) (es : List Event) : Prop where
  fresh : FreshRun s es
  timed : TimedRun s es
  fits : s.policy.Reads (s.run es).clock
  takes : .stop k ∉ es
  reached : .sever k ∉ es
  answers : a = true ∨ s.Answers k l came s.policy.probeEvery delay es

/-- No timer has a reason to end the connection: the deadline of the reader is still to come, the
connection is not stale, and the next probe is due within an interval, at one of the times that are
counted from the coming of the client. -/
structure Sustained (p : Policy) (came now : Nat) (v : Served) : Prop where
  reader : ∃ deadline, v.socket.reader = .reading deadline ∧ now < deadline
  fresh : v.connection.isStale p.staleAfter now = false
  writer : ∃ n, v.socket.writer = .ready (came + n * p.probeEvery) ∧
    now < came + n * p.probeEvery ∧ came + n * p.probeEvery ≤ now + p.probeEvery

/-! ### How the times lie -/

/-- The time `t` has come and the time `due` of the next probe has not; both are counted from the
coming of the client, and the clock has not left the one too far behind. -/
structure Paced (p : Policy) (a : Bool) (came delay now t due : Nat) : Prop where
  arrived : came ≤ t
  since : t ≤ now
  ahead : now < due
  near : due ≤ now + p.probeEvery
  beat : ∃ n, due = came + n * p.probeEvery
  atOnce : a = true → due ≤ t + p.probeEvery
  patience : now ≤ t + p.probeEvery + delay

theorem Paced.read (h : Paced p a came delay now t due) (hp : p.Patient delay) :
    now < t + p.readWait := by
  have := h.patience
  have := hp.reading
  omega

theorem Paced.fresh (h : Paced p a came delay now t due) (hp : p.Patient delay) :
    now ≤ t + p.staleAfter := by
  have := h.patience
  have := hp.sweeping
  omega

/-- At the latest when the probe is due the client answers it, or there is time left for it. -/
theorem Paced.patience_until (h : Paced p a came delay now t due) (hdue : now' ≤ due)
    (hans : a = true ∨ now' ≤ t + p.probeEvery + delay) : now' ≤ t + p.probeEvery + delay := by
  rcases hans with ha | hle
  · have := h.atOnce ha
    omega
  · exact hle

/-- The clock moves on, but not to the probe. -/
theorem Paced.waiting (h : Paced p a came delay now t due) (hle : now ≤ now') (hlt : now' < due)
    (hpatience : now' ≤ t + p.probeEvery + delay) : Paced p a came delay now' t due where
  arrived := h.arrived
  since := h.since.trans hle
  ahead := hlt
  near := h.near.trans (Nat.add_le_add_right hle _)
  beat := h.beat
  atOnce := h.atOnce
  patience := hpatience

/-- The probe is sent, and the next is due an interval later. -/
theorem Paced.probing (h : Paced p a came delay now t due) (hp : 0 < p.probeEvery)
    (hpatience : due ≤ t + p.probeEvery + delay) :
    Paced p a came delay due (if a then due else t) (due + p.probeEvery) where
  arrived := by
    have := h.arrived
    have := h.since
    have := h.ahead
    split <;> omega
  since := by
    have := h.since
    have := h.ahead
    split <;> omega
  ahead := Nat.lt_add_of_pos_right hp
  near := Nat.le_refl _
  beat := by
    obtain ⟨n, rfl⟩ := h.beat
    exact ⟨n + 1, by rw [Nat.succ_mul, Nat.add_assoc]⟩
  atOnce ha := by simp [ha]
  patience := by split <;> omega

/-- A later sign of life. -/
theorem Paced.sign {t' : Nat} (h : Paced p a came delay now t due) (htt' : t ≤ t')
    (ht' : t' ≤ now) : Paced p a came delay now t' due where
  arrived := h.arrived.trans htt'
  since := ht'
  ahead := h.ahead
  near := h.near
  beat := h.beat
  atOnce ha := (h.atOnce ha).trans (Nat.add_le_add_right htt' _)
  patience := by
    have := h.patience
    omega

/-! ### Steps -/

/-- The socket thrives, and its times lie as they should. -/
def Thriving (s : Service) (k : SocketNumber) (l : LineNumber) (a : Bool) (came delay t : Nat) :
    Prop :=
  ∃ due, s.Thrives k l a t due ∧ Paced s.policy a came delay s.clock t due

theorem Thriving.connected (h : s.Thriving k l a came delay t) : s.Connected k l := by
  obtain ⟨due, ⟨v, hv, hh⟩, -⟩ := h
  exact ⟨v, hv, hh.live.1⟩

theorem Thriving.sustained (h : s.Thriving k l a came delay t) (hp : s.policy.Patient delay)
    (hv : s.served? k = some (l, v)) : Sustained s.policy came s.clock v := by
  obtain ⟨due, ⟨w, hw, hh⟩, hpaced⟩ := h
  cases hv.symm.trans hw
  obtain ⟨deadline, hr, hd⟩ := hh.reader
  obtain ⟨n, rfl⟩ := hpaced.beat
  exact ⟨⟨deadline, hr, (hpaced.read hp).trans_le hd⟩, hh.live.isStale (hpaced.fresh hp),
    n, hh.writer, hpaced.ahead, hpaced.near⟩

/-- **A stop of the clock.**  If the probe is due it is sent, and answered by a client that answers
at once. -/
theorem Thriving.arrive (h : s.Thriving k l a came delay t) (hs : s.AtRest)
    (hp : s.policy.Patient delay) (hr : s.Reaches now) (hfits : s.policy.Reads now)
    (hans : a = true ∨ now ≤ t + s.policy.probeEvery + delay) :
    ∃ t', t ≤ t' ∧ (s.arrive now).Thriving k l a came delay t' := by
  obtain ⟨due, hthrives, hpaced⟩ := h
  have hw := hs.within_of_reaches hr
  have hdue : now ≤ due := hthrives.le_due hr hpaced.ahead
  have hpatience := hpaced.patience_until hdue hans
  have hread : now < t + s.policy.readWait := by
    have := hp.reading
    omega
  have hfresh : now ≤ t + s.policy.staleAfter := by
    have := hp.sweeping
    omega
  have hpolicy := policy_arrive hs hw
  have hclock := clock_arrive hs hw
  rcases Nat.lt_or_eq_of_le hdue with hlt | rfl
  · refine ⟨t, Nat.le_refl t, due, hthrives.arrive_waiting hs hw hread hfresh hlt, ?_⟩
    rw [hpolicy, hclock]
    exact hpaced.waiting hr.1 hlt hpatience
  · have hlater : t ≤ if a then now else t := by
      have := hpaced.since
      have := hr.1
      split <;> omega
    refine ⟨_, hlater, _, hthrives.arrive_probing hs hw hread hfresh hfits, ?_⟩
    rw [hpolicy, hclock]
    exact hpaced.probing hp.probing hpatience

/-- However much time passes, from stop to stop. -/
theorem Thriving.elapse {milliseconds : Nat} (h : s.Thriving k l a came delay t) (hs : s.AtRest)
    (hp : s.policy.Patient delay) (hfits : s.policy.Reads (s.clock + milliseconds))
    (hans : a = true ∨ s.clock + milliseconds ≤ t + s.policy.probeEvery + delay) :
    ∃ t', t ≤ t' ∧ (s.elapse milliseconds).Thriving k l a came delay t' := by
  let P (u : Service) : Prop :=
    u.policy = s.policy ∧ ∃ t', t ≤ t' ∧ u.Thriving k l a came delay t'
  have hP : P (s.elapse milliseconds) := by
    refine hs.elapse_of_stops (P := P) ?_ ⟨rfl, t, Nat.le_refl t, h⟩
    rintro u now hu hr hle ⟨hpolicy, t₁, ht₁, hthriving⟩
    have hans' : a = true ∨ now ≤ t₁ + u.policy.probeEvery + delay := by
      rw [hpolicy]
      exact hans.imp_right fun hle' => by omega
    obtain ⟨t₂, ht₂, hthriving'⟩ := hthriving.arrive hu (hpolicy.symm ▸ hp) hr
      (hpolicy.symm ▸ hfits.mono hle) hans'
    exact ⟨(policy_arrive hu (hu.within_of_reaches hr)).trans hpolicy, t₂, ht₁.trans ht₂,
      hthriving'⟩
  exact hP.2

/-- **One event.**  Unless the client parts, its socket goes on thriving, from the time of a pong on
if it sends one. -/
theorem Thriving.after (h : s.Thriving k l a came delay t) (hs : s.AtRest)
    (hp : s.policy.Patient delay) (hcheck : ∀ session token, s.check session token ≠ .broken)
    (he : e.Fresh s) (htimed : e.Timed s) (hfits : s.policy.Reads (s.after e).clock)
    (hno : ¬ s.Parts k l e) (hstop : e ≠ .stop k) (hsever : e ≠ .sever k)
    (hans : a = true ∨ (s.after e).clock ≤ t + s.policy.probeEvery + delay) :
    ∃ t', t ≤ t' ∧ (s.after e).Thriving k l a came delay t' ∧
      ∀ content, e = .receive k (.pong content) → s.clock ≤ t' := by
  by_cases htime : ∃ milliseconds, e = .elapse milliseconds
  · obtain ⟨milliseconds, rfl⟩ := htime
    have hans' : a = true ∨ s.clock + milliseconds ≤ t + s.policy.probeEvery + delay := by
      rw [← clock_elapse hs]
      exact hans
    have hfits' : s.policy.Reads (s.clock + milliseconds) := by
      rw [← clock_elapse hs]
      exact hfits
    obtain ⟨t', htt', hthriving⟩ := h.elapse hs hp hfits' hans'
    exact ⟨t', htt', hthriving, by simp⟩
  · obtain ⟨due, hthrives, hpaced⟩ := h
    obtain ⟨hclock, t', htt', ht', hthrives', hpong⟩ :=
      hthrives.after hs hcheck he htimed hpaced.since (hfits.mono (hs.le_clock_after he))
        (hpaced.read hp) (hpaced.fresh hp) hpaced.ahead hno hstop hsever
        fun milliseconds e' => htime ⟨milliseconds, e'⟩
    refine ⟨t', htt', ⟨due, hthrives', ?_⟩, fun content e' => (hpong content e').ge⟩
    rw [(hs.after he).policy, hclock]
    exact hpaced.sign htt' ht'

/-! ### Coming -/

/-- The connection of a client that comes before the end has begun. -/
theorem getElem?_admitted_open (ha : s.Admits) (hopen : s.board.closing = false)
    (hprobes : s.policy.Probes s.clock) :
    ∃ c, s.admitted.lines[s.board.lines.length]? = some c ∧ c.closed = false ∧
      c.lastSeen = s.clock := by
  obtain ⟨c, hc⟩ := Option.isSome_iff_exists.1 ha
  have hline : (s.board.lines ++ [c])[s.board.lines.length]? = some c := by simp
  refine ⟨c, ?_, ?_⟩
  · rw [admitted, if_pos hprobes, Board.enter_eq hc, Board.register, hline]
    simp [hopen]
  · rw [(Connection.new?_eq_some hc).2]
    exact ⟨rfl, rfl⟩

/-- A client that comes before the end has begun thrives. -/
theorem thriving_accept (h : s.AtRest) (hfresh : s.board.Unused s.draw.connection)
    (hp : s.policy.Patient delay) (hfits : s.policy.Reads s.clock) (ha : s.Admits)
    (hopen : s.board.closing = false) (a : Bool) :
    (s.accept a).Thriving s.sockets.length s.board.lines.length a s.clock delay s.clock := by
  have hprobes := hp.probes hfits
  obtain ⟨c, hc, hc_open, hseen⟩ := getElem?_admitted_open ha hopen hprobes
  have hpolicy : s.admitted.policy = s.policy := (onward_admitted s).policy
  have hjoin : (s.join a).Thrives s.sockets.length s.board.lines.length a s.clock
      (s.clock + s.policy.probeEvery) := by
    rw [join_of_admits ha]
    refine ⟨⟨c, s.newcomer a⟩, served?_eq_some.2 ⟨List.getElem?_concat_length, rfl, hc⟩, ?_⟩
    show Served.Hale s.admitted.policy a s.clock _ _
    rw [hpolicy]
    exact ⟨⟨hc_open, hseen.ge⟩, hseen.symm ▸ hfits, ⟨_, Reader.upTo_of_lt hfits, Nat.le_refl _⟩,
      Writer.first_of_probes hprobes, rfl, rfl, rfl, rfl⟩
  have hread : s.clock < s.clock + s.policy.readWait := by
    have := hp.reading
    omega
  have hnext : s.clock < s.clock + s.policy.probeEvery := Nat.lt_add_of_pos_right hp.probing
  obtain ⟨hclock, hthrives⟩ :=
    hjoin.settle h (stirred_join h.sound hfresh a) (steady_join s a).clock hread hnext
  have hrules : (s.accept a).policy = s.policy := (h.after (e := .accept a) hfresh).policy
  refine ⟨_, hthrives, ?_⟩
  have hnow : (s.accept a).clock = s.clock := hclock
  rw [hrules, hnow]
  exact ⟨Nat.le_refl _, Nat.le_refl _, hnext, Nat.le_refl _, ⟨1, by rw [Nat.one_mul]⟩,
    fun _ => Nat.le_refl _, by omega⟩

theorem Closed.not_connected (h : s.Closed k l) : ¬ s.Connected k l := by
  rintro ⟨v, hv, hopen⟩
  obtain ⟨w, hw, hclosed⟩ := h
  cases hv.symm.trans hw
  exact absurd (hopen.symm.trans hclosed) (by simp)

/-- Nobody else is connected by coming. -/
theorem admits_of_connected (h : s.AtRest) (hfresh : s.board.Unused s.draw.connection)
    (hc : (s.accept a).Connected s.sockets.length s.board.lines.length) :
    s.Admits ∧ s.board.closing = false := by
  have t := stirred_join h.sound hfresh a
  have ha : s.Admits := by
    by_contra ha
    obtain ⟨v, hv, -⟩ := hc
    rw [accept, served?_settle_of_ahead t.sound (t.ahead h.ahead),
      served?_join_of_not_admits ha] at hv
    cases hv
  refine ⟨ha, Bool.eq_false_iff.2 fun hclosing => ?_⟩
  -- the connection would have been closed at once
  obtain ⟨c, hv, hcl⟩ := served?_join_of_admits ha a
  have hclosed : (s.stirring (.accept a)).Closed _ _ := ⟨_, hv, hcl.trans hclosing⟩
  exact (h.closed_of_stirring (e := .accept a) hfresh trivial hclosed).not_connected hc

/-! ### Runs -/

theorem timedRun_append {es' : List Event} :
    TimedRun s (es ++ es') ↔ TimedRun s es ∧ TimedRun (s.run es) es' := by
  induction es generalizing s with
  | nil => exact ⟨fun h => ⟨trivial, h⟩, fun h => h.2⟩
  | cons e es ih =>
    show e.Timed s ∧ TimedRun (s.after e) (es ++ es') ↔ _
    rw [ih]
    exact and_assoc.symm

theorem Answering.of_prefix {es' : List Event} (h : s.Answering k l a came delay es')
    (hs : s.AtRest) (hp : es <+: es') : s.Answering k l a came delay es := by
  obtain ⟨rest, rfl⟩ := hp
  obtain ⟨hf, hrest⟩ := freshRun_append.1 h.fresh
  refine ⟨hf, (timedRun_append.1 h.timed).1, ?_, fun hm => h.takes (List.mem_append_left _ hm),
    fun hm => h.reached (List.mem_append_left _ hm), h.answers.imp_right fun hans es₁ e hp => ?_⟩
  · have hle := (hs.run hf).1.le_clock_run hrest
    rw [← run_append] at hle
    exact h.fits.mono hle
  · exact hans es₁ e (hp.trans (List.prefix_append es rest))

/-- Whoever is connected after an event was so before it. -/
theorem connected_before (h : s.AtRest) (he : e.Fresh s) (hk : k < s.sockets.length)
    (hc : (s.after e).Connected k l) : s.Connected k l := by
  obtain ⟨v', hv', hopen⟩ := hc
  have hkept := (h.after he).kept k
  rcases hv : s.served? k with - | ⟨l₀, v⟩
  · cases (hkept.vacant hk hv).symm.trans hv'
  · obtain ⟨w, hw, hproceeds⟩ := hkept.served hv
    cases hw.symm.trans hv'
    refine ⟨v, hv, Bool.eq_false_iff.2 fun hclosed => ?_⟩
    exact absurd ((hproceeds.closed hclosed).symm.trans hopen) (by simp)

/-- An event by which the client parts breaks down no pump. -/
theorem Parts.not_breaksDown (hparts : s.Parts k l e) (hs : s.AtRest) (he : e.Fresh s)
    (hcheck : ∀ session token, s.check session token ≠ .broken)
    (hreads : s.policy.Reads (s.after e).clock) (hprobes : s.policy.Probes (s.after e).clock) :
    ¬ s.BreaksDown k e := by
  intro hb
  obtain ⟨f, rfl, ⟨_, _, _, _, _, _, _, hbreaks⟩ | ⟨l', v, w, hv, hr, hw, hopen, -⟩⟩ :=
    hs.exists_frame_of_breaksDown he hreads hprobes hb
  · exact Board.not_breaksDown hcheck hbreaks
  · cases hreader : v.socket.reader with
    | ended => exact hr hreader
    | reading deadline =>
      -- the client is hung up on
      exact absurd (hopen.symm.trans (closed_hear hv hreader hparts.2 hw)) (by simp)

/-- When the client parts, its connection is closed. -/
theorem Thriving.closed_of_parts (h : s.Thriving k l a came delay t) (hs : s.AtRest)
    (hp : s.policy.Patient delay) (he : e.Fresh s)
    (hcheck : ∀ session token, s.check session token ≠ .broken)
    (hfits : s.policy.Reads (s.after e).clock) (hparts : s.Parts k l e) :
    (s.after e).Closed k l := by
  obtain ⟨due, ⟨v, hv, hh⟩, -⟩ := h
  have hk : s.Accounts k False := by
    intro l' v' hv'
    cases hv.symm.trans hv'
    exact .inr (.inl ⟨hh.reader_ne_ended, by rw [hh.writer]; trivial, not_false⟩)
  have hk' := (hs.unharmed_after_iff he hk).2 fun hb =>
    hparts.not_breaksDown hs he hcheck hfits (hp.probes hfits) hb.1
  exact closed_of_ends hs he hk hk' (hparts.ends hv)

/-- The client has sent its pongs at the time given or before. -/
def PongsUntil (s : Service) (k : SocketNumber) (t : Nat) (es : List Event) : Prop :=
  ∀ es₂ content es₃, es = es₂ ++ .receive k (.pong content) :: es₃ → (s.run es₂).clock ≤ t

theorem PongsUntil.concat {t' : Nat} (h : s.PongsUntil k t es) (htt' : t ≤ t')
    (he : ∀ content, e = .receive k (.pong content) → (s.run es).clock ≤ t') :
    s.PongsUntil k t' (es ++ [e]) := by
  intro es₂ content es₃ heq
  rcases List.eq_nil_or_concat es₃ with rfl | ⟨es₄, e', rfl⟩
  · -- it is the last event
    obtain ⟨rfl, hlast⟩ := List.append_inj' heq rfl
    exact he content (List.head_eq_of_cons_eq hlast)
  · rw [List.concat_eq_append, ← List.cons_append, ← List.append_assoc] at heq
    exact (h es₂ content es₄ (List.append_inj' heq rfl).1).trans htt'

/-- A client that answers every probe is never far from its last pong: had the time been over of the
first probe after that, it would have been answered. -/
theorem Answers.patience {every : Nat} {es₁ : List Event} (h : s.Answers k l came every delay es)
    (hevery : 0 < every) (hp : es₁ ++ [e] <+: es) (hc : (s.run es₁).Connected k l)
    (ht : came ≤ t) (hpongs : s.PongsUntil k t es₁) :
    ((s.run es₁).after e).clock ≤ t + every + delay := by
  by_contra hlate
  have hdiv := Nat.div_add_mod (t - came) every
  have hmod := Nat.mod_lt (t - came) hevery
  have hfirst : came + ((t - came) / every + 1) * every =
      came + every * ((t - came) / every) + every := by ring
  obtain ⟨es₂, content, es₃, he, hle, -⟩ :=
    h es₁ e hp hc ((t - came) / every + 1) (Nat.succ_pos _) (by omega)
  have hpong := hpongs es₂ content es₃ he
  omega

/-- What holds of a client that answers, as far as a run has come: as long as it is connected it
thrives, and has done so since its last pong. -/
structure Keeps (s : Service) (k : SocketNumber) (l : LineNumber) (a : Bool) (came delay : Nat)
    (es : List Event) : Prop where
  atRest : (s.run es).AtRest
  policy : (s.run es).policy = s.policy
  length : k < (s.run es).sockets.length
  thriving : (s.run es).Connected k l →
    ∃ t, (s.run es).Thriving k l a came delay t ∧ s.PongsUntil k t es

/-- **One more event** that does not part with the client. -/
theorem Keeps.goesOn (h : s.Keeps k l a came delay es) (hp : s.policy.Patient delay)
    (hcheck : ∀ session token, s.check session token ≠ .broken)
    (hans : s.Answering k l a came delay (es ++ [e])) (hc : (s.run es).Connected k l)
    (hno : ¬ (s.run es).Parts k l e) :
    ∃ t, (s.run (es ++ [e])).Thriving k l a came delay t ∧ s.PongsUntil k t (es ++ [e]) := by
  obtain ⟨t, hthriving, hpongs⟩ := h.thriving hc
  have he : e.Fresh (s.run es) := (freshRun_concat.1 hans.fresh).2
  have htimed : e.Timed (s.run es) := (timedRun_append.1 hans.timed).2.1
  have hstop : e ≠ .stop k := by
    rintro rfl
    exact hans.takes (List.mem_append_right _ (List.mem_singleton_self _))
  have hsever : e ≠ .sever k := by
    rintro rfl
    exact hans.reached (List.mem_append_right _ (List.mem_singleton_self _))
  have hfits : (s.run es).policy.Reads ((s.run es).after e).clock := by
    rw [h.policy, ← run_concat]
    exact hans.fits
  have hcame : came ≤ t := by
    obtain ⟨due, -, hpaced⟩ := hthriving
    exact hpaced.arrived
  have htime : a = true ∨
      ((s.run es).after e).clock ≤ t + (s.run es).policy.probeEvery + delay := by
    rw [h.policy]
    exact hans.answers.imp_right fun hanswers =>
      hanswers.patience hp.probing List.prefix_rfl hc hcame hpongs
  obtain ⟨t', htt', hthriving', hpong⟩ := hthriving.after h.atRest (h.policy ▸ hp)
    (by rw [check_run]; exact hcheck) he htimed hfits hno hstop hsever htime
  rw [run_concat]
  exact ⟨t', hthriving', hpongs.concat htt' hpong⟩

theorem Keeps.concat (h : s.Keeps k l a came delay es) (hp : s.policy.Patient delay)
    (hcheck : ∀ session token, s.check session token ≠ .broken)
    (hans : s.Answering k l a came delay (es ++ [e])) : s.Keeps k l a came delay (es ++ [e]) := by
  have he : e.Fresh (s.run es) := (freshRun_concat.1 hans.fresh).2
  have hcheck' : ∀ session token, (s.run es).check session token ≠ .broken := by
    rw [check_run]
    exact hcheck
  have hafter := h.atRest.after he
  have hsocket := exists_socket_after h.atRest he (List.getElem?_eq_getElem h.length)
  refine ⟨?_, ?_, ?_, fun hc => ?_⟩
  · rw [run_concat]
    exact hafter.atRest
  · rw [run_concat]
    exact hafter.policy.trans h.policy
  · rw [run_concat]
    obtain ⟨x', hx', -⟩ := hsocket
    exact (List.getElem?_eq_some_iff.1 hx').1
  · -- it was connected before, and has not parted, which would have closed its connection
    have hc' := hc
    rw [run_concat] at hc'
    have hbefore := connected_before h.atRest he h.length hc'
    obtain ⟨t, hthriving, -⟩ := h.thriving hbefore
    refine h.goesOn hp hcheck hans hbefore fun hparts => ?_
    refine (hthriving.closed_of_parts h.atRest (h.policy.symm ▸ hp) he hcheck' ?_
      hparts).not_connected hc'
    rw [h.policy, ← run_concat]
    exact hans.fits

/-- A client that has just come. -/
theorem keeps_accept (h : s.AtRest) (hfresh : s.board.Unused s.draw.connection)
    (hp : s.policy.Patient delay) (hfits : s.policy.Reads s.clock) (a : Bool) :
    (s.accept a).Keeps s.sockets.length s.board.lines.length a s.clock delay [] := by
  have hafter := h.after (e := .accept a) hfresh
  have t := stirred_join h.sound hfresh a
  have hlength : (s.accept a).sockets.length = (s.join a).sockets.length :=
    (turnedTo_settle t.sound (t.ahead h.ahead).punctual).length
  refine ⟨hafter.atRest, rfl, ?_, fun hc => ?_⟩
  · show s.sockets.length < (s.accept a).sockets.length
    rw [hlength]
    by_cases ha : s.Admits
    · rw [join_of_admits ha]
      simp
    · rw [join_of_not_admits ha]
      simp
  · obtain ⟨ha, hopen⟩ := admits_of_connected h hfresh hc
    exact ⟨s.clock, thriving_accept h hfresh hp hfits ha hopen a, fun _ _ _ e => by simp at e⟩

/-- **Run lemma.** -/
theorem Keeps.run (h : s.Keeps k l a came delay []) (hp : s.policy.Patient delay)
    (hcheck : ∀ session token, s.check session token ≠ .broken)
    (hans : s.Answering k l a came delay es) : s.Keeps k l a came delay es := by
  induction es using List.reverseRecOn with
  | nil => exact h
  | append_singleton es e ih =>
    exact (ih (hans.of_prefix h.atRest (List.prefix_append es [e]))).concat hp hcheck hans

/-! ### All together -/

/-- **A client that answers its probes stays.**  Under settings that are accepted, with sweepers
begun at any time and whatever else happens, neither the deadline of its reader nor a sweep ever
ends the connection of a client that answers every probe at once, or within a delay for which the
policy leaves time: as long as it is open both lie ahead, and no event closes it but one that parts
with the client. -/
theorem answering_stays {settings : Settings} {policy : Policy}
    (hpolicy : settings.outcome = .policy policy) (host : Host) (check : Check)
    (hcheck : ∀ session token, check session token ≠ .broken) (supply : Nat → Draw) {delay : Nat}
    (hdelay : delay = 0 ∨ policy.probeEvery + delay < policy.readWait ∧
      policy.probeEvery + delay ≤ policy.staleAfter)
    {es₀ es : List Event} {a : Bool} {s : Service}
    (hf : FreshRun (start (policy.on host) check supply) (es₀ ++ [.accept a]))
    (hs : (start (policy.on host) check supply).run es₀ = s)
    (hans : (s.accept a).Answering s.sockets.length s.board.lines.length a s.clock delay es) :
    (s.Admits → s.board.closing = false →
      (s.accept a).Connected s.sockets.length s.board.lines.length) ∧
    ∀ es₁, es₁ <+: es →
      ((s.accept a).run es₁).Connected s.sockets.length s.board.lines.length →
      (∀ v, ((s.accept a).run es₁).served? s.sockets.length = some (s.board.lines.length, v) →
        Sustained policy s.clock ((s.accept a).run es₁).clock v) ∧
      ∀ e, es₁ ++ [e] <+: es →
        ¬ ((s.accept a).run es₁).Parts s.sockets.length s.board.lines.length e →
        (((s.accept a).run es₁).after e).Connected s.sockets.length s.board.lines.length := by
  obtain ⟨hf₀, hfresh⟩ := freshRun_concat.1 hf
  obtain ⟨hrest, hrules⟩ := (atRest_start (policy.on host) check supply).run hf₀
  rw [hs] at hfresh hrest hrules
  have hrules : s.policy = policy.on host := hrules
  have hp : s.policy.Patient delay := by
    rw [hrules]
    have hp₀ := (Settings.patient hpolicy).on host
    rcases hdelay with rfl | ⟨hread, hsweep⟩
    · exact hp₀
    · exact ⟨hp₀.probing, hread, hsweep⟩
  have hchecks : (s.accept a).check = check := by
    rw [show (s.accept a).check = s.check from check_after s (.accept a), ← hs, check_run]
    rfl
  have hcheck' : ∀ session token, (s.accept a).check session token ≠ .broken := by
    rw [hchecks]
    exact hcheck
  have hrules' : (s.accept a).policy = s.policy := (hrest.after (e := .accept a) hfresh).policy
  have hp' : (s.accept a).policy.Patient delay := hrules'.symm ▸ hp
  have hbegun := (hrest.after (e := .accept a) hfresh).atRest
  have hfits : s.policy.Reads s.clock := by
    have hle := (hrest.le_clock_after (e := .accept a) hfresh).trans
      (hbegun.le_clock_run hans.fresh)
    have hlast := hans.fits
    rw [hrules'] at hlast
    exact hlast.mono hle
  have hkeeps := fun es₁ (hp₁ : es₁ <+: es) =>
    (keeps_accept hrest hfresh hp hfits a).run hp' hcheck' (hans.of_prefix hbegun hp₁)
  refine ⟨fun ha hopen => (thriving_accept hrest hfresh hp hfits ha hopen a).connected,
    fun es₁ hp₁ hc => ⟨fun v hv => ?_, fun e hpe hno => ?_⟩⟩
  · obtain ⟨t, hthriving, -⟩ := (hkeeps es₁ hp₁).thriving hc
    have hpolicy₁ := ((hkeeps es₁ hp₁).policy.trans hrules').trans hrules
    have hsustained := hthriving.sustained (by rw [hpolicy₁, ← hrules]; exact hp) hv
    rw [hpolicy₁] at hsustained
    exact ⟨hsustained.reader, hsustained.fresh, hsustained.writer⟩
  · obtain ⟨t, hthriving, -⟩ :=
      (hkeeps es₁ hp₁).goesOn hp' hcheck' (hans.of_prefix hbegun hpe) hc hno
    rw [← run_concat]
    exact hthriving.connected

/-- A check that refuses every token. -/
def firm : Check := fun _ _ => .refused "invalid token"

/-- A client has come to a service with a sweeper. -/
def awaited : Service := ((start .standard firm draws).run [.sweeper]).accept false

/-- It answers the first probe after half an interval. -/
def late : List Event := [.elapse 45000, .receive 0 (.pong []), .elapse 30000]

/-- That is within 20 seconds, and the time for the second probe is not over when the run ends. -/
theorem answers_late : awaited.Answers 0 0 0 30000 20000 late := by
  intro es₁ e hp _ n hn hlt
  rcases es₁ with - | ⟨e₁, - | ⟨e₂, - | ⟨e₃, es₁⟩⟩⟩
  · obtain rfl : e = .elapse 45000 := by simpa [late] using hp
    have hclock : ((awaited.run []).after (.elapse 45000)).clock = 45000 := by decide +kernel
    omega
  · obtain ⟨rfl, rfl⟩ : e₁ = .elapse 45000 ∧ e = .receive 0 (.pong []) := by
      simpa [late] using hp
    have hclock : ((awaited.run [.elapse 45000]).after (.receive 0 (.pong []))).clock =
        45000 := by decide +kernel
    omega
  · -- by then the time of the first probe is over, which has been answered
    obtain ⟨rfl, rfl, rfl⟩ :
        e₁ = .elapse 45000 ∧ e₂ = .receive 0 (.pong []) ∧ e = .elapse 30000 := by
      simpa [late] using hp
    have hclock : ((awaited.run [.elapse 45000, .receive 0 (.pong [])]).after
        (.elapse 30000)).clock = 75000 := by decide +kernel
    obtain rfl : n = 1 := by omega
    have hpong : (awaited.run [.elapse 45000]).clock = 45000 := by decide +kernel
    exact ⟨[.elapse 45000], [], [], rfl, by omega, by omega⟩
  · simp [late] at hp

/-- The client stays, when the wait of the reader has long been over since it came, and before it
has answered the second probe. -/
theorem answering_stays_late :
    FreshRun (start .standard firm draws) ([.sweeper] ++ [.accept false]) ∧
      awaited.Answering 0 0 false 0 20000 late ∧
      ∃ v, (awaited.run late).served? 0 = some (0, v) ∧ v.connection.closed = false ∧
        Sustained .standard 0 75000 v := by
  have hf : FreshRun (start .standard firm draws) ([.sweeper] ++ [.accept false]) := by
    decide +kernel
  have hevery : awaited.policy.probeEvery = 30000 := by decide +kernel
  have hans : awaited.Answering 0 0 false 0 20000 late :=
    ⟨by decide +kernel, by decide +kernel, by decide +kernel, by simp [late], by simp [late],
      .inr (hevery ▸ answers_late)⟩
  have hpolicy : Settings.standard.outcome = .policy .standard := by rfl
  obtain ⟨-, hstays⟩ := answering_stays hpolicy .standard firm (by simp [firm]) draws
    (.inr (by decide)) hf rfl hans
  have hserved : ((awaited.run late).served? 0).map (fun r => (r.1, r.2.connection.closed)) =
      some (0, false) := by decide +kernel
  obtain ⟨⟨l, v⟩, hv, hr⟩ := Option.map_eq_some_iff.1 hserved
  obtain ⟨rfl, hopen⟩ : l = 0 ∧ v.connection.closed = false := by simpa using hr
  obtain ⟨hsustained, -⟩ := hstays late List.prefix_rfl ⟨v, hv, hopen⟩
  have hclock : (awaited.run late).clock = 75000 := by decide +kernel
  have hlast := hsustained v hv
  exact ⟨hf, hans, v, hv, hopen, hclock ▸ hlast⟩

end Service

end Switchboard
