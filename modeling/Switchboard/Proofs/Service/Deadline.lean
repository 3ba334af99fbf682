/-
Switchboard/Proofs/Service/Deadline.lean

The deadline of a client that is not heard of.

From the last sign of life of its client on the reader waits, exactly so long as
the policy says.  `Ousts` lists what else can end a connection: what its client
or a call does to it, a sweep that finds it stale, a frame that has waited for
room for too long or cannot be sent at all, and the breaking down of both pumps.
`Abides` is the account of a connection at any time: it is closed if there has
been such a cause, or else as soon as no time is left since the last sign of
life.  It is kept by every moment, every event and every run.

The main statement, `open_until_deadline`, is that a connection is open as long
as nothing else has ended it and the reader has time, and not a moment longer;
and that nothing is left of it once it is closed, unless the writer still waits
for room.  If there is a deadline that the clock cannot tell, the reader breaks
down, and has time for ever.
-/
import Switchboard.Proofs.Service.Answering
import Switchboard.Proofs.Service.Signs

namespace Switchboard.Service

variable {s u : Service} {k k' : SocketNumber} {l : LineNumber} {v w : Served} {e : Event}
  {es : List Event} {p : Policy} {a : Bool} {came n t now : Nat}

/-! ### What else ends a connection -/

/-- A moment at which something else than the deadline of the reader ends the connection: a sweep
is due that finds it stale, there is something to send and the way is broken off, a frame has waited
for room for too long, or both pumps have broken down. -/
def Cuts (k : SocketNumber) (l : LineNumber) (m : Service × Nat) : Prop :=
  m.1.SweepsAway m.2 l ∨ ∃ v, m.1.served? k = some (l, v) ∧
    (v.Fruitless m.2 ∨ v.Overdue m.1.policy m.2 ∨ ¬ v.Runs)

/-- An event in the course of which something else than the deadline of the reader ends the
connection. -/
def Ousts (s : Service) (k : SocketNumber) (l : LineNumber) (e : Event) : Prop :=
  s.Discards k l e ∨ ∃ m ∈ s.moments e, Cuts k l m

/-! ### Moments -/

/-- A moment keeps the account of the last sign of life, and whoever is still open after it is in
time. -/
theorem Sound.expects_moment (h : u.Sound) (hw : u.Within now) (hv : u.served? k = some (l, v))
    (hx : v.Awaiting u.policy a n t now (.upTo u.policy (t + u.policy.readWait))) (ht : t ≤ now) :
    ∃ v', (u.arrive now).served? k = some (l, v') ∧ (v'.connection.closed = true ∨
      v'.Awaiting u.policy a n t now (.upTo u.policy (t + u.policy.readWait)) ∧
        v'.InTime now) := by
  obtain ⟨c, hv', haway, hstay⟩ := h.served?_moment hw hv
  refine ⟨_, hv', ?_⟩
  by_cases hs : u.SweepsAway now l
  · exact .inl ((Served.proceeds_turn _ _ _).closed (haway hs))
  · obtain rfl := hstay hs
    by_cases hopen : (v.turn u.policy now).connection.closed = true
    · exact .inl hopen
    · have hexpects : v.Expects u.policy a n t now _ := .inr hx
      exact .inr ⟨hexpects.turn.resolve_left hopen, hx.inTime_turn ht (Bool.eq_false_iff.2 hopen)⟩

/-- Whoever has no pump left is finished. -/
theorem Sound.closed_of_not_runs (h : u.Sound) (hw : u.Within now) (hv : u.served? k = some (l, v))
    (hopen : v.connection.closed = false) (hruns : ¬ v.Runs) : (u.arrive now).Closed k l := by
  obtain ⟨hr, hworks⟩ := not_or.1 hruns
  have hended : v.socket.writer = .ended := by
    by_contra hno
    exact hworks (((h.proper hv).loyal.resolve_right hno).resolve_left (by simp [hopen]))
  obtain ⟨c, hv', -⟩ := h.served?_moment hw hv
  have hp := Served.proceeds_turn u.policy now ⟨c, v.socket⟩
  have hrest := h.atRest_arrive hw
  have hfinished := (hrest.idle hv').finished (hp.reader (not_not.1 hr)) (hp.writer hended)
  exact ⟨_, hv', ((hrest.sound.proper hv').finished hfinished).1⟩

/-- **What closes a connection at a moment** is what cuts it off, or the deadline of the reader. -/
theorem Sound.closed_moment_iff (h : u.Sound) (hw : u.Within now)
    (hv : u.served? k = some (l, v)) (hopen : v.connection.closed = false) :
    (u.arrive now).Closed k l ↔ Cuts k l (u, now) ∨ ¬ v.InTime now := by
  obtain ⟨c, hv', haway, hstay⟩ := h.served?_moment hw hv
  constructor
  · rintro ⟨v', hv'', hc⟩
    cases hv'.symm.trans hv''
    by_contra hno
    obtain ⟨hcuts, hin⟩ := not_or.1 hno
    obtain ⟨hswept, hfails⟩ := not_or.1 hcuts
    obtain rfl := hstay hswept
    have hruns : v.Runs := not_not.1 fun hruns => hfails ⟨v, hv, .inr (.inr hruns)⟩
    rcases (Served.closed_turn_iff hopen hruns (not_not.1 hin)).1 hc with hway | hroom
    · exact hfails ⟨v, hv, .inl hway⟩
    · exact hfails ⟨v, hv, .inr (.inl hroom)⟩
  · rintro ((hswept | ⟨v', hv'', hfails⟩) | hlate)
    · exact ⟨_, hv', (Served.proceeds_turn _ _ _).closed (haway hswept)⟩
    · cases hv.symm.trans hv''
      by_cases hswept : u.SweepsAway now l
      · exact ⟨_, hv', (Served.proceeds_turn _ _ _).closed (haway hswept)⟩
      · obtain rfl := hstay hswept
        rcases hfails with hway | hroom | hruns
        · exact ⟨_, hv', Served.closed_turn hway.closed_run⟩
        · exact ⟨_, hv', Served.closed_turn hroom.closed_run⟩
        · exact h.closed_of_not_runs hw hv hopen hruns
    · obtain ⟨deadline, hr, hd⟩ : ∃ deadline, v.socket.reader = .reading deadline ∧
          deadline ≤ now := by
        simpa [Served.InTime] using hlate
      exact ⟨_, hv', Served.closed_turn (Served.closed_run_of_lapsed hr hd)⟩

/-! ### Closed connections -/

theorem not_closed_of_open (hv : s.served? k = some (l, v)) (hopen : v.connection.closed = false) :
    ¬ s.Closed k l := by
  rintro ⟨w, hw, hcl⟩
  cases hv.symm.trans hw
  exact absurd (hopen.symm.trans hcl) (by simp)

theorem Closed.after (hc : s.Closed k l) (h : s.AtRest) (hf : e.Fresh s) :
    (s.after e).Closed k l := ((h.after hf).kept k).closed hc

theorem Closed.arrive (hc : u.Closed k l) (h : u.Sound) (hw : u.Within now) :
    (u.arrive now).Closed k l := by
  have hnow : Kept k u { u with clock := now } := kept_of_eq rfl rfl
  exact (hnow.trans (kept_settle (h.atClock hw.1) hw.2 k)).closed hc

/-- Nobody reads the answers of a client whose connection is closed. -/
theorem answered_eq_false (hc : u.Closed k l) (s : Service) : answered k s u = false := by
  obtain ⟨v', hv', hcl⟩ := hc
  rw [answered, hv']
  rcases s.served? k with - | ⟨l', v⟩
  · rfl
  · simp [hcl]

theorem answersAt_of_closed (hc : (u.arrive now).Closed k l) : answersAt k [(u, now)] = [] := by
  rw [answersAt_singleton, answered_eq_false hc]
  rfl

/-- Nor its frames. -/
theorem AtRest.greets_eq_false (h : s.AtRest) (hc : s.Closed k l) (e : Event) :
    greets k s e = false := by
  obtain ⟨v, hv, hcl⟩ := hc
  have hended : v.socket.reader = .ended := (h.idle hv).quiet.reader hcl
  cases e with
  | receive k' f => simp [greets, hv, hended]
  | _ => rfl

/-- **No sign of life is read any more** once the connection is closed. -/
theorem AtRest.signs_of_closed (h : s.AtRest) (hf : e.Fresh s) (hc : s.Closed k l) :
    signs k s e = [] := by
  by_cases he : ∃ milliseconds, e = .elapse milliseconds
  · obtain ⟨milliseconds, rfl⟩ := he
    -- it is closed at every stop of the clock
    have hall := h.after_by_moments (P := fun u ms => u.Closed k l ∧ answersAt k ms = []) hf
      ⟨hc, rfl⟩ (by
        rintro u now ms hs hw ⟨hclosed, hnil⟩
        have hclosed' := hclosed.arrive hs hw
        refine ⟨hclosed', ?_⟩
        rw [answersAt_append, hnil, answersAt_of_closed hclosed']
        rfl)
    exact hall.2
  · rw [signs_of_not_elapse fun milliseconds e' => he ⟨milliseconds, e'⟩, h.greets_eq_false hc,
      answered_eq_false (hc.after h hf)]
    rfl

/-! ### The account -/

/-- The socket serves the connection.  If it is open it was last heard of at the time `t`, and the
reader has time. -/
def Bides (s : Service) (k : SocketNumber) (l : LineNumber) (a : Bool) (t : Nat) : Prop :=
  t ≤ s.clock ∧ ∃ v, s.served? k = some (l, v) ∧ (v.connection.closed = true ∨
    v.Biding s.policy a t ∧ ¬ s.policy.Lapsed t s.clock)

theorem Bides.biding (h : s.Bides k l a t) (hopen : ¬ s.Closed k l) :
    ∃ v, s.served? k = some (l, v) ∧ v.Biding s.policy a t ∧ ¬ s.policy.Lapsed t s.clock := by
  obtain ⟨-, v, hv, hcases⟩ := h
  exact ⟨v, hv, hcases.resolve_left fun hcl => hopen ⟨v, hv, hcl⟩⟩

/-- The account of a connection that was last heard of at the time `t`: it is closed if there was
another cause, or else as soon as the reader has no time left. -/
structure Abides (s : Service) (k : SocketNumber) (l : LineNumber) (a : Bool) (t : Nat)
    (cause : Prop) : Prop where
  bides : s.Bides k l a t
  closed_iff : s.Closed k l ↔ cause ∨ s.policy.Lapsed t s.clock

variable {cause cause' : Prop}

theorem Abides.of_iff (h : s.Abides k l a t cause) (hiff : cause ↔ cause') :
    s.Abides k l a t cause' :=
  ⟨h.bides, h.closed_iff.trans (or_congr_left hiff)⟩

theorem Abides.not_cause (h : s.Abides k l a t cause) (hopen : ¬ s.Closed k l) : ¬ cause :=
  fun hcause => hopen (h.closed_iff.2 (.inl hcause))

theorem Closed.abides (hc : s.Closed k l) (ht : t ≤ s.clock)
    (hwhy : cause ∨ s.policy.Lapsed t s.clock) : s.Abides k l a t cause := by
  obtain ⟨v, hv, hcl⟩ := id hc
  exact ⟨⟨ht, v, hv, .inl hcl⟩, iff_of_true hc hwhy⟩

theorem abides_of_biding (hv : s.served? k = some (l, v)) (hb : v.Biding s.policy a t)
    (ht : t ≤ s.clock) (hin : ¬ s.policy.Lapsed t s.clock) (hno : ¬ cause) :
    s.Abides k l a t cause :=
  ⟨⟨ht, v, hv, .inr ⟨hb, hin⟩⟩,
    iff_of_false (not_closed_of_open hv hb.isOpen) (not_or.2 ⟨hno, hin⟩)⟩

/-- Whoever is still open after a moment was last heard of then, if a probe has come and is
answered, or else when it was before. -/
theorem Sound.biding_moment (h : u.Sound) (hw : u.Within now) (hv : u.served? k = some (l, v))
    (hx : v.Awaiting u.policy a n t now (.upTo u.policy (t + u.policy.readWait))) (ht : t ≤ now)
    (hopen : ¬ (u.arrive now).Closed k l) : ∃ v', (u.arrive now).served? k = some (l, v') ∧
      v'.Biding u.policy a
        (if v'.Heard a n (.upTo u.policy (t + u.policy.readWait)) then now else t) ∧
      ¬ u.policy.Lapsed
        (if v'.Heard a n (.upTo u.policy (t + u.policy.readWait)) then now else t) now := by
  obtain ⟨v', hv', hcases⟩ := h.expects_moment hw hv hx ht
  obtain ⟨hx', hin⟩ := hcases.resolve_left fun hcl => hopen ⟨v', hv', hcl⟩
  have hb' := hx'.biding (Bool.eq_false_iff.2 fun hcl => hopen ⟨v', hv', hcl⟩)
  refine ⟨v', hv', ?_⟩
  rw [← hx'.lastSeen]
  exact ⟨hb', hb'.inTime_iff.1 hin⟩

/-- An answer is read if somebody has read before. -/
theorem answered_eq_decide {v' : Served} (hv : s.served? k = some (l, v))
    (hv' : u.served? k = some (l, v')) (ha : v.socket.answersProbes = a)
    (hopen : v'.connection.closed = false) :
    answered k s u = decide (v'.Heard a v.probed v.socket.reader) := by
  rw [answered_eq hv hv', ha, hopen]
  simp

theorem ite_le {p : Prop} [Decidable p] (ht : t ≤ now) : (if p then now else t) ≤ now := by
  split
  · exact Nat.le_refl now
  · exact ht

/-- Once its time is over, it is over. -/
theorem lapsed_mono {now' : Nat} (h : p.Lapsed t now) (hle : now ≤ now') : p.Lapsed t now' :=
  ⟨h.1, h.2.trans hle⟩

/-- **One moment.** -/
theorem Abides.arrive (h : u.Abides k l a t cause) (hs : u.Sound) (hw : u.Within now) :
    (u.arrive now).Abides k l a ((answersAt k [(u, now)]).getLastD t)
      (cause ∨ Cuts k l (u, now)) := by
  have hclock := hs.clock_arrive hw
  have hpolicy := hs.policy_arrive hw
  have ht : t ≤ now := h.bides.1.trans hw.1
  by_cases hc : (u.arrive now).Closed k l
  · rw [answersAt_of_closed hc]
    refine hc.abides (hclock.symm ▸ ht) ?_
    rw [hpolicy, hclock]
    by_cases hold : u.Closed k l
    · exact (h.closed_iff.1 hold).imp .inl fun hlapsed => lapsed_mono hlapsed hw.1
    · obtain ⟨v, hv, hb, -⟩ := h.bides.biding hold
      refine ((hs.closed_moment_iff hw hv hb.isOpen).1 hc).imp .inr fun hlate => ?_
      exact not_not.1 fun hno => hlate (hb.inTime_iff.2 hno)
  · have hold : ¬ u.Closed k l := fun hcl => hc (hcl.arrive hs hw)
    obtain ⟨v, hv, hb, -⟩ := h.bides.biding hold
    obtain ⟨v', hv', hb', hin⟩ := hs.biding_moment hw hv (hb.awaiting now) ht hc
    have hlast : (answersAt k [(u, now)]).getLastD t =
        if v'.Heard a v.probed (.upTo u.policy (t + u.policy.readWait)) then now else t := by
      rw [answersAt_singleton, answered_eq_decide hv hv' hb.answersProbes hb'.isOpen, hb.reader]
      by_cases hheard : v'.Heard a v.probed (.upTo u.policy (t + u.policy.readWait)) <;>
        simp [hheard]
    rw [hlast]
    refine abides_of_biding hv' (hpolicy.symm ▸ hb') ?_ ?_ ?_
    · exact hclock.symm ▸ ite_le ht
    · rw [hclock, hpolicy]
      exact hin
    · have hiff := hs.closed_moment_iff hw hv hb.isOpen
      exact not_or.2 ⟨h.not_cause hold, fun hcuts => hc (hiff.2 (.inl hcuts))⟩

/-! ### Events -/

/-- An event that is set aside, after which nobody settles: a client stops taking what comes to it,
or it is forgotten what has come. -/
theorem served?_aside (he : (∃ k', e = .stop k') ∨ e = .forget) (hv : s.served? k = some (l, v)) :
    ∃ pipe, (s.after e).served? k = some (l, v.withPipe pipe) ∧
      (v.withPipe pipe).probed ≤ v.probed := by
  obtain ⟨hx, hl, hc⟩ := served?_eq_some.1 hv
  rcases he with ⟨k', rfl⟩ | rfl
  · by_cases hk : k' = k
    · refine ⟨v.socket.pipe.stop, served?_eq_some.2 ⟨?_, hl, hc⟩, Nat.le_refl _⟩
      show (s.stop k').sockets[k]? = _
      simp [stop, hx, hk, Served.withPipe]
    · refine ⟨v.socket.pipe, served?_eq_some.2 ⟨?_, hl, hc⟩, Nat.le_refl _⟩
      show (s.stop k').sockets[k]? = _
      simp [stop, hx, hk, Served.withPipe]
  · refine ⟨{ v.socket.pipe with received := [] }, served?_eq_some.2 ⟨?_, hl, hc⟩, Nat.zero_le _⟩
    show s.forget.sockets[k]? = _
    rw [forget, List.getElem?_map, hx]
    rfl

/-- What an event makes of a socket that waits. -/
def Advances (s : Service) (k : SocketNumber) (l : LineNumber) (a : Bool) (t : Nat) (e : Event) :
    Prop :=
  (s.after e).Abides k l a ((signs k s e).getLastD t) (s.Ousts k l e)

/-- Time passes. -/
theorem Bides.elapse (h : s.Bides k l a t) (hs : s.AtRest) (hopen : ¬ s.Closed k l)
    (milliseconds : Nat) : s.Advances k l a t (.elapse milliseconds) := by
  obtain ⟨v, hv, hb, hin⟩ := h.biding hopen
  have hall := hs.after_by_moments (e := .elapse milliseconds) (P := fun u ms =>
    u.Abides k l a ((answersAt k ms).getLastD t) (∃ m ∈ ms, Cuts k l m)) trivial ?_ ?_
  · exact hall.of_iff (or_iff_right (by simp [Discards, Parts, Unanswered])).symm
  · exact abides_of_biding hv hb h.1 hin (by simp)
  · intro u now ms hu hw ih
    rw [answersAt_append, getLastD_append]
    refine (ih.arrive hu hw).of_iff ?_
    simp [or_and_right, exists_or]

/-- A client stops taking what comes to it, or it is forgotten what has come. -/
theorem Bides.aside (h : s.Bides k l a t) (hopen : ¬ s.Closed k l)
    (he : (∃ k', e = .stop k') ∨ e = .forget) : s.Advances k l a t e := by
  obtain ⟨v, hv, hb, hin⟩ := h.biding hopen
  obtain ⟨pipe, hv', hprobed⟩ := served?_aside he hv
  have hstill : (s.after e).clock = s.clock ∧ (s.after e).policy = s.policy ∧
      s.moments e = [] ∧ ¬ s.Discards k l e ∧ greets k s e = false ∧
      ∀ milliseconds, e ≠ .elapse milliseconds := by
    rcases he with ⟨k', rfl⟩ | rfl <;>
      exact ⟨rfl, rfl, rfl, by simp [Discards, Parts, Unanswered], rfl, by simp⟩
  obtain ⟨hclock, hpolicy, hmoments, hdiscards, hgreets, htime⟩ := hstill
  have hnone : signs k s e = [] := by
    have hanswered : answered k s (s.after e) = false := by
      rw [answered_eq hv hv', decide_eq_false (Served.not_heard_of_le hprobed)]
      rfl
    rw [signs_of_not_elapse htime, hgreets, hanswered]
    rfl
  have hb' : (v.withPipe pipe).Biding s.policy a t :=
    ⟨hb.isOpen, hb.lastSeen, hb.reader, hb.answersProbes⟩
  rw [Advances, hnone]
  refine abides_of_biding hv' (hpolicy.symm ▸ hb') (hclock.symm ▸ h.1) ?_ ?_
  · rw [hclock, hpolicy]
    exact hin
  · rintro (hd | ⟨m, hm, -⟩)
    · exact hdiscards hd
    · rw [hmoments] at hm
      cases hm

/-- A reader that has time left has no less for a sign of life that comes now. -/
theorem not_lapsed_of_greets (hv : s.served? k = some (l, v)) (hb : v.Biding s.policy a t)
    (hle : t ≤ s.clock) (hin : ¬ s.policy.Lapsed t s.clock) (e : Event) :
    ¬ s.policy.Lapsed (if greets k s e then s.clock else t) s.clock := by
  split
  · rename_i hgreets
    rintro ⟨-, hlate⟩
    obtain ⟨deadline, hr⟩ : ∃ deadline, v.socket.reader = .reading deadline := by
      cases hr : v.socket.reader with
      | reading deadline => exact ⟨deadline, rfl⟩
      | ended => exact absurd hr (reads_of_greets hv hgreets)
    exact hin ⟨hb.reads hr, by omega⟩
  · exact hin

/-- The last sign of life after an event that takes no time: an answer to a probe, a frame that the
event brings, or the one before. -/
theorem getLastD_signs {v' : Served} (he : e.Settling) (hv : s.served? k = some (l, v))
    (hb : v.Biding s.policy a t) (hv' : (s.after e).served? k = some (l, v'))
    (hopen : v'.connection.closed = false) : (signs k s e).getLastD t =
      if v'.Heard a v.probed (.upTo s.policy
        ((if greets k s e then s.clock else t) + s.policy.readWait)) then s.clock
      else if greets k s e then s.clock else t := by
  rw [signs_of_settling he, answered_eq_decide hv hv' hb.answersProbes hopen, hb.reader]
  rcases hg : greets k s e with - | -
  · by_cases hheard : v'.Heard a v.probed (.upTo s.policy (t + s.policy.readWait)) <;>
      simp [hheard]
  · simp

/-- Whatever sign of life an event brings that takes no time is from now. -/
theorem getLastD_signs_le (he : e.Settling) (hle : t ≤ s.clock) :
    (signs k s e).getLastD t ≤ s.clock := by
  rw [signs_of_settling he]
  split
  · exact Nat.le_refl _
  · exact hle

/-- An event after which the service settles at once. -/
theorem Bides.settling (h : s.Bides k l a t) (hs : s.AtRest) (hf : e.Fresh s) (he : e.Settling)
    (hcheck : ∀ session token, s.check session token ≠ .broken)
    (hno : ∀ c, e = .call c → ∀ t, .touch t ∉ s.board.acts l c) (hopen : ¬ s.Closed k l) :
    s.Advances k l a t e := by
  obtain ⟨v, hv, hb, hin⟩ := h.biding hopen
  obtain ⟨w, hw, hclosed, hwaits⟩ := hs.weathers_stirring he hcheck hno hv hb
  have hnow := hs.settlesNow hf he
  have hpolicy : (s.after e).policy = s.policy := (hs.after hf).policy
  rw [hnow.policy] at hwaits
  have hcuts : s.Ousts k l e ↔ s.Discards k l e ∨ Cuts k l (s.stirring e, s.clock) := by
    rw [Ousts, moments_of_settling he]
    simp
  have hlast := getLastD_signs_le (k := k) he h.1
  -- the reader had time left before, and has not less now
  have hin' := not_lapsed_of_greets hv hb h.1 hin e
  have hiff : ¬ s.Discards k l e →
      ((s.after e).Closed k l ↔ Cuts k l (s.stirring e, s.clock)) := by
    intro hd
    have hwopen : w.connection.closed = false :=
      Bool.eq_false_iff.2 fun hcl => hd (hclosed.1 hcl)
    rw [← hnow.arrive, hnow.sound.closed_moment_iff hnow.within hw hwopen]
    exact or_iff_left (not_not.2 ((hwaits hd).inTime (ite_le h.1) hin'))
  by_cases hc : (s.after e).Closed k l
  · refine hc.abides (hnow.clock.symm ▸ hlast) (.inl (hcuts.2 ?_))
    by_cases hd : s.Discards k l e
    · exact .inl hd
    · exact .inr ((hiff hd).1 hc)
  · have hd : ¬ s.Discards k l e := by
      intro hd
      have hstirred : (s.stirring e).Closed k l := ⟨w, hw, hclosed.2 hd⟩
      exact hc (hnow.arrive ▸ hstirred.arrive hnow.sound hnow.within)
    have hwaits' := hwaits hd
    rw [← hnow.policy] at hwaits'
    obtain ⟨v', hv', hb', hlt'⟩ := hnow.sound.biding_moment hnow.within hw hwaits' (ite_le h.1)
      (hnow.arrive.symm ▸ hc)
    rw [hnow.arrive] at hv'
    rw [hnow.policy] at hb' hlt'
    have hsign := getLastD_signs he hv hb hv' hb'.isOpen
    rw [Advances, hsign]
    refine abides_of_biding hv' (hpolicy.symm ▸ hb') ?_ ?_ ?_
    · rw [hnow.clock, ← hsign]
      exact hlast
    · rw [hnow.clock, hpolicy]
      exact hlt'
    · rw [hcuts]
      exact not_or.2 ⟨hd, fun hcut => hc ((hiff hd).2 hcut)⟩

/-- **One event.**  Unless its connection is closed already, the event closes it if and only if
something else than the deadline ends it or no time is left for a new sign of life. -/
theorem Bides.after (h : s.Bides k l a t) (hs : s.AtRest) (hf : e.Fresh s)
    (hcheck : ∀ session token, s.check session token ≠ .broken)
    (hno : ∀ c, e = .call c → ∀ t, .touch t ∉ s.board.acts l c) (hopen : ¬ s.Closed k l) :
    s.Advances k l a t e := by
  by_cases he : e.Settling
  · exact h.settling hs hf he hcheck hno hopen
  · cases e with
    | elapse milliseconds => exact h.elapse hs hopen milliseconds
    | stop k' => exact h.aside hopen (.inl ⟨k', rfl⟩)
    | forget => exact h.aside hopen (.inr rfl)
    | _ => exact absurd trivial he

/-! ### Coming -/

/-- The connection of a client that comes was last heard of as it came. -/
theorem lastSeen_admitted {c : Connection}
    (hc : s.admitted.lines[s.board.lines.length]? = some c) : c.lastSeen = s.clock := by
  have henter : ∀ c, (s.board.enter s.draw.connection s.policy.queueCapacity s.clock).lines[
      s.board.lines.length]? = some c → c.lastSeen = s.clock := by
    intro c hc
    rcases Board.getElem?_enter_cases s.board s.draw.connection s.policy.queueCapacity s.clock
      s.board.lines.length with hsame | ⟨-, c₀, as, hnew, has, hline⟩
    · rw [hsame, List.getElem?_eq_none (Nat.le_refl _)] at hc
      cases hc
    · cases hline.symm.trans hc
      have hno : ∀ t, .touch t ∉ as := fun t hm => by cases has _ hm
      rw [Connection.lastSeen_run hno, (Connection.new?_eq_some hnew).2]
  rw [admitted] at hc
  split at hc
  · exact henter c hc
  · -- its writer has broken down, which is no sign of life
    rw [Board.getElem?_modify, if_pos rfl] at hc
    obtain ⟨c', hc', rfl⟩ := Option.map_eq_some_iff.1 hc
    exact henter c' hc'

/-- All that cuts a newcomer off is that both of its pumps have broken down: no sweep is due
already, and nothing of its waits or cannot be sent. -/
theorem AtRest.cuts_join_iff {c : Connection} (h : s.AtRest)
    (hf : s.board.Unused s.draw.connection) (a : Bool)
    (hv : (s.join a).served? k = some (l, ⟨c, s.newcomer a⟩)) :
    Cuts k l (s.join a, s.clock) ↔ ¬ (s.policy.Reads s.clock ∨ s.policy.Probes s.clock) := by
  have hruns : (⟨c, s.newcomer a⟩ : Served).Runs ↔
      s.policy.Reads s.clock ∨ s.policy.Probes s.clock := by
    refine or_congr (Iff.not_left Reader.upTo_eq_ended) ?_
    by_cases hp : s.policy.Probes s.clock
    · refine iff_of_true ?_ hp
      show (Writer.first s.policy (s.clock + s.policy.probeEvery)).Works
      rw [Writer.first_of_probes hp]
      trivial
    · refine iff_of_false (fun hworks => ?_) hp
      rw [show (s.newcomer a).writer = .ended from writer_fresh_eq_ended.2 hp] at hworks
      exact hworks
  constructor
  · rintro (⟨-, ⟨w, hw, due, hd, hle⟩, -⟩ | ⟨w, hw, hway | hroom | hno⟩)
    · have hlt := ((stirred_join h.sound hf a).ahead h.ahead w hw due hd).1
      rw [(steady_join s a).clock] at hlt
      exact absurd (hlt.trans hle) (Nat.not_succ_le_self _)
    · cases hv.symm.trans hw
      cases hway.1
    · cases hv.symm.trans hw
      have hflows : (⟨c, s.newcomer a⟩ : Served).Flows := ⟨rfl, rfl, wait?_fresh⟩
      exact absurd hroom hflows.not_overdue
    · cases hv.symm.trans hw
      exact fun hp => hno (hruns.2 hp)
  · exact fun hno => .inr ⟨_, hv, .inr (.inr fun hp => hno (hruns.1 hp))⟩

/-- What keeps a client out that comes: the end has begun, or both of its pumps break down at
once. -/
def KeepsOut (s : Service) : Prop :=
  s.board.closing = true ∨ ¬ (s.policy.Reads s.clock ∨ s.policy.Probes s.clock)

/-- **A client comes**, and waits unless it is kept out or there is no time to wait. -/
theorem abides_accept (h : s.AtRest) (hf : s.board.Unused s.draw.connection) (ha : s.Admits)
    (a : Bool) :
    (s.accept a).Abides s.sockets.length s.board.lines.length a s.clock s.KeepsOut := by
  have hnow : s.SettlesNow (.accept a) := h.settlesNow hf trivial
  have hsound : (s.join a).Sound := hnow.sound
  have hwithin : (s.join a).Within s.clock := hnow.within
  have harrive : (s.join a).arrive s.clock = s.accept a := hnow.arrive
  have hclock : (s.accept a).clock = s.clock := hnow.clock
  have hpolicy : (s.join a).policy = s.policy := hnow.policy
  have hpolicy' : (s.accept a).policy = s.policy := (h.after (e := .accept a) hf).policy
  obtain ⟨c, hv, hcl⟩ := served?_join_of_admits ha a
  rcases hclosing : s.board.closing with - | -
  · have hseen : c.lastSeen = s.clock := by
      refine lastSeen_admitted (s := s) ?_
      have hline := (served?_eq_some.1 hv).2.2
      rw [join_of_admits ha] at hline
      exact hline
    have hb : (⟨c, s.newcomer a⟩ : Served).Biding s.policy a s.clock :=
      ⟨hcl.trans hclosing, hseen, rfl, rfl⟩
    have hkept : s.KeepsOut ↔ ¬ (s.policy.Reads s.clock ∨ s.policy.Probes s.clock) :=
      or_iff_right (by simp [hclosing])
    have hiff := hsound.closed_moment_iff hwithin hv hb.isOpen
    rw [harrive, h.cuts_join_iff hf a hv, ← hkept] at hiff
    by_cases hc : (s.accept a).Closed s.sockets.length s.board.lines.length
    · refine hc.abides hclock.ge ((hiff.1 hc).imp_right fun hlate => ?_)
      rw [hpolicy', hclock]
      exact not_not.1 fun hno => hlate (hb.inTime_iff.2 hno)
    · have hwaits := hb.awaiting s.clock
      rw [← hpolicy] at hwaits
      obtain ⟨v', hv', hb', hin⟩ := hsound.biding_moment hwithin hv hwaits (Nat.le_refl _)
        (harrive.symm ▸ hc)
      rw [ite_self, hpolicy] at hb' hin
      rw [harrive] at hv'
      refine abides_of_biding hv' (hpolicy'.symm ▸ hb') hclock.ge ?_ fun hno =>
        hc (hiff.2 (.inl hno))
      rw [hclock, hpolicy']
      exact hin
  · have hjoined : (s.join a).Closed s.sockets.length s.board.lines.length :=
      ⟨_, hv, hcl.trans hclosing⟩
    have hc : (s.accept a).Closed s.sockets.length s.board.lines.length :=
      harrive ▸ hjoined.arrive hsound hwithin
    exact hc.abides hclock.ge (.inl (.inl hclosing))

/-! ### Runs -/

/-- Nothing but the deadline of its reader has ended the connection in the course of several
events. -/
def Spared (s : Service) (k : SocketNumber) (l : LineNumber) (es : List Event) : Prop :=
  ∀ es₁ e, es₁ ++ [e] <+: es → ¬ (s.run es₁).Ousts k l e

/-- No call from outside gives the connection a sign of life in place of its client. -/
def Untouched (s : Service) (l : LineNumber) (es : List Event) : Prop :=
  ∀ es₁ c, es₁ ++ [.call c] <+: es → ∀ t, .touch t ∉ (s.run es₁).board.acts l c

theorem spared_concat : s.Spared k l (es ++ [e]) ↔
    s.Spared k l es ∧ ¬ (s.run es).Ousts k l e := by
  constructor
  · exact fun h => ⟨fun es₁ e' hp => h es₁ e' (hp.trans (List.prefix_append _ _)),
      h es e List.prefix_rfl⟩
  · rintro ⟨h, hlast⟩ es₁ e' hp
    rcases List.prefix_concat_iff.1 hp with heq | hp
    · obtain ⟨rfl, hsame⟩ := List.append_inj' heq rfl
      cases hsame
      exact hlast
    · exact h es₁ e' hp

/-- The account as far as a run has come: the client may have been refused, or something else may
have ended its connection since. -/
def Outlasts (s : Service) (k : SocketNumber) (l : LineNumber) (a : Bool) (came : Nat)
    (refused : Prop) (es : List Event) : Prop :=
  (s.run es).Abides k l a (lastSign k came s es) (refused ∨ ¬ s.Spared k l es)

/-- **One more event.** -/
theorem Outlasts.concat {refused : Prop} (h : s.Outlasts k l a came refused es) (hs : s.AtRest)
    (hf : FreshRun s (es ++ [e])) (hcheck : ∀ session token, s.check session token ≠ .broken)
    (hno : s.Untouched l (es ++ [e])) : s.Outlasts k l a came refused (es ++ [e]) := by
  obtain ⟨hf, he⟩ := freshRun_concat.1 hf
  have hrest := (hs.run hf).1
  rw [Outlasts, run_concat, lastSign_concat]
  by_cases hc : (s.run es).Closed k l
  · -- it stays closed, and no sign of life is read
    rw [hrest.signs_of_closed he hc]
    have hle := hrest.le_clock_after he
    refine (hc.after hrest he).abides (h.bides.1.trans hle) ?_
    refine (h.closed_iff.1 hc).imp (Or.imp_right fun hn hall => hn (spared_concat.1 hall).1) ?_
    rw [(hrest.after he).policy]
    exact fun hlapsed => lapsed_mono hlapsed hle
  · obtain ⟨hnot, hall⟩ := not_or.1 (h.not_cause hc)
    have hall := not_not.1 hall
    have hcheck' : ∀ session token, (s.run es).check session token ≠ .broken := by
      rw [check_run]
      exact hcheck
    have hnext := h.bides.after hrest he hcheck'
      (fun c hec => hno es c (hec ▸ List.prefix_rfl)) hc
    refine hnext.of_iff ?_
    rw [spared_concat]
    simp only [hnot, hall, true_and, not_not, false_or]

/-- **Run lemma.** -/
theorem Outlasts.run {refused : Prop} (h : s.Outlasts k l a came refused []) (hs : s.AtRest)
    (hf : FreshRun s es) (hcheck : ∀ session token, s.check session token ≠ .broken)
    (hno : s.Untouched l es) : s.Outlasts k l a came refused es := by
  induction es using List.reverseRecOn with
  | nil => exact h
  | append_singleton es e ih =>
    have hbefore : s.Outlasts k l a came refused es := ih (freshRun_concat.1 hf).1
      fun es₁ c hp => hno es₁ c (hp.trans (List.prefix_append _ _))
    exact hbefore.concat hs hf hcheck hno

/-- **The deadline of a client.**  Let a client be admitted, and be given no sign of life by anybody
else.  Its connection is open if and only if the end had not begun and one of its pumps could begin
its work, nothing else has ended it since, and less time than the reader waits has passed since the
last sign of life of the client, if that is a time that the clock can tell; the reader then waits
from that sign on, whatever else the client has sent.  Once the connection is closed its reader has
ended, and nothing is left of it unless the writer waits for room. -/
theorem open_until_deadline (policy : Policy) {check : Check}
    (hcheck : ∀ session token, check session token ≠ .broken) (supply : Nat → Draw)
    {es₀ es : List Event} {a : Bool} {s : Service}
    (hf : FreshRun (start policy check supply) (es₀ ++ .accept a :: es))
    (hs : (start policy check supply).run es₀ = s) (ha : s.Admits)
    (hno : (s.accept a).Untouched s.board.lines.length es) :
    ∃ v, ((s.accept a).run es).served? s.sockets.length = some (s.board.lines.length, v) ∧
      (v.connection.closed = false ↔ s.board.closing = false ∧
        (policy.Reads s.clock ∨ policy.Probes s.clock) ∧
        (s.accept a).Spared s.sockets.length s.board.lines.length es ∧
        (policy.Reads (lastSign s.sockets.length s.clock (s.accept a) es) →
          ((s.accept a).run es).clock <
            lastSign s.sockets.length s.clock (s.accept a) es + policy.readWait)) ∧
      (v.connection.closed = false →
        v.connection.lastSeen = lastSign s.sockets.length s.clock (s.accept a) es ∧
        v.socket.reader =
          .upTo policy (lastSign s.sockets.length s.clock (s.accept a) es + policy.readWait)) ∧
      (v.connection.closed = true → v.socket.reader = .ended ∧
        (v.socket.writer.wait? = none → ((s.accept a).run es).Gone s.sockets.length v)) := by
  have h := atRest_start policy check supply
  have hrun : (start policy check supply).run (es₀ ++ .accept a :: es) = (s.accept a).run es := by
    rw [run_append, hs]
    rfl
  obtain ⟨hf₀, hfresh, hf₁⟩ := freshRun_append.1 hf
  obtain ⟨hrest, hpolicy⟩ := h.run hf₀
  have hsure : s.check = check := hs ▸ check_run _ es₀
  rw [hs] at hrest hpolicy hfresh hf₁
  have hafter := hrest.after hfresh
  have hp : (s.accept a).policy = policy := hafter.policy.trans hpolicy
  have hbegun : (s.accept a).Outlasts s.sockets.length s.board.lines.length a s.clock
      s.KeepsOut [] := by
    refine (abides_accept hrest hfresh ha a).of_iff (or_iff_left (not_not.2 ?_)).symm
    intro es₁ e hpre
    simp at hpre
  have hlasts := hbegun.run hafter.atRest hf₁ (fun session token => ?_) hno
  · obtain ⟨hbides, hclosed⟩ := hlasts
    obtain ⟨-, v, hv, hcases⟩ := id hbides
    have hend := (hafter.atRest.run hf₁).1
    have hpolicy' : ((s.accept a).run es).policy = policy := (hafter.atRest.run hf₁).2.trans hp
    refine ⟨v, hv, ?_, fun hopen => ?_, fun hcl => ⟨(hend.stopped hv hcl).1, fun hw => ?_⟩⟩
    · have hiff : ((s.accept a).run es).Closed s.sockets.length s.board.lines.length ↔
          v.connection.closed = true :=
        ⟨fun ⟨w, hw, hcl⟩ => by cases hv.symm.trans hw; exact hcl, fun hcl => ⟨v, hv, hcl⟩⟩
      have hrules : s.policy = policy := hpolicy
      rw [← Bool.not_eq_true, ← hiff, hclosed, hpolicy', KeepsOut, hrules, not_or, not_or, not_or,
        not_not, not_not, and_assoc, and_assoc, Bool.not_eq_true, Policy.not_lapsed_iff]
    · obtain ⟨hb, -⟩ := hcases.resolve_left (by simp [hopen])
      rw [hpolicy'] at hb
      exact ⟨hb.lastSeen, hb.reader⟩
    · obtain ⟨hx, hl, hline⟩ := served?_eq_some.1 hv
      rw [← hrun] at hx hline
      obtain ⟨_, _, _, _, _, -, hist⟩ := exists_history h rfl hf hline
      exact hend.gone hv hcl hw (hist.inOrder _ _ hx hl)
  · have hkeeps : (s.accept a).check = s.check := check_after s (.accept a)
    rw [hkeeps, hsure]
    exact hcheck session token

/-- A client that does not answer probes gives one sign of life.  What it sends later, until just
before its deadline, is none. -/
def quiet : List Event :=
  [.elapse 10000, .receive 0 (.pong []), .elapse 30000, .receive 0 (.ping []),
    .receive 0 (.binary [0]), .elapse 29999]

/-- It is open until its deadline, and at the deadline nothing is left of it. -/
theorem open_until_deadline_quiet :
    FreshRun (start .standard firm draws) ([.sweeper] ++ .accept false :: (quiet ++ [.elapse 1])) ∧
      awaited.Untouched 0 (quiet ++ [.elapse 1]) ∧
      (∃ v, (awaited.run quiet).served? 0 = some (0, v) ∧ v.connection.closed = false ∧
        v.connection.lastSeen = 10000 ∧ v.socket.reader = .reading 70000) ∧
      ∃ v, (awaited.run (quiet ++ [.elapse 1])).served? 0 = some (0, v) ∧
        v.connection.closed = true ∧ (awaited.run (quiet ++ [.elapse 1])).Gone 0 v := by
  have hf : FreshRun (start .standard firm draws)
      ([.sweeper] ++ .accept false :: (quiet ++ [.elapse 1])) := by decide +kernel
  have hf' : FreshRun (start .standard firm draws) ([.sweeper] ++ .accept false :: quiet) := by
    decide +kernel
  have hadmits : ((start .standard firm draws).run [.sweeper]).Admits := by
    rw [Admits]
    decide +kernel
  have huntouched : awaited.Untouched 0 (quiet ++ [.elapse 1]) := by
    intro es₁ c hp
    have hc : .call c ∈ quiet ++ [.elapse 1] := hp.subset (by simp)
    simp [quiet] at hc
  have huntouched' : awaited.Untouched 0 quiet :=
    fun es₁ c hp => huntouched es₁ c (hp.trans (List.prefix_append _ _))
  have hsign : lastSign 0 0 awaited quiet = 10000 := by decide +kernel
  have hopen : ((awaited.run quiet).served? 0).map (fun r => r.2.connection.closed) =
      some false := by decide +kernel
  have hclosed : ((awaited.run (quiet ++ [.elapse 1])).served? 0).map (fun r =>
      (r.2.connection.closed, r.2.socket.writer.wait?)) = some (true, none) := by
    decide +kernel
  obtain ⟨v, hv, -, hwaits, -⟩ :=
    open_until_deadline .standard (by simp [firm]) draws hf' rfl hadmits huntouched'
  obtain ⟨w, hw, -, -, hends⟩ :=
    open_until_deadline .standard (by simp [firm]) draws hf rfl hadmits huntouched
  have hv' : (awaited.run quiet).served? 0 = some (0, v) := hv
  have hw' : (awaited.run (quiet ++ [.elapse 1])).served? 0 = some (0, w) := hw
  rw [hv'] at hopen
  rw [hw'] at hclosed
  obtain ⟨hcl, hwriter⟩ : w.connection.closed = true ∧ w.socket.writer.wait? = none := by
    simpa using hclosed
  have hvopen : v.connection.closed = false := by simpa using hopen
  obtain ⟨hseen, hreader⟩ := hwaits hvopen
  refine ⟨hf, huntouched, ⟨v, hv', hvopen, hseen.trans hsign, hreader.trans ?_⟩, w, hw', hcl,
    (hends hcl).2 hwriter⟩
  have hdeadline : lastSign 0 0 awaited quiet + Policy.standard.readWait = 70000 :=
    congrArg (· + Policy.standard.readWait) hsign
  exact (congrArg (Reader.upTo .standard) hdeadline).trans (by decide)

end Switchboard.Service
