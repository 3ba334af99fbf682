/-
Switchboard/Proofs/Service/Settle.lean

What follows at once, and what time brings.

When a service settles, the sweepers do what is due and then every socket
takes its turn, alone with its connection: `served?_settle` says what
becomes of each.  Afterwards the service is `AtRest`: it is sound, every
socket is quiet, a socket whose pumps have both ended is finished, and the
next sweep lies ahead.  Since the clock stops at every time at which
something is due, a service that is at rest comes to rest again however much
time passes.
-/
import Switchboard.Proofs.Service.Sound

namespace Switchboard

/-- A sweeper that goes on sweeps at the time given or later, and again after that. -/
def Sweeper.NotBefore (p : Policy) (t : Nat) (w : Sweeper) : Prop :=
  ∀ due : Nat, w.due = some due → t ≤ due ∧ 0 < p.sweepEvery

/-- A sweeper that is not due before a time is not due before an earlier one. -/
theorem Sweeper.NotBefore.mono {p : Policy} {t t' : Nat} {w : Sweeper} (h : w.NotBefore p t')
    (ht : t ≤ t') : w.NotBefore p t := by
  intro due hd
  obtain ⟨hle, hpos⟩ := h due hd
  exact ⟨Nat.le_trans ht hle, hpos⟩

/-- A socket that has nothing left to do. -/
structure Served.Idle (now : Nat) (v : Served) : Prop where
  quiet : v.Quiet now
  finished : v.socket.reader = .ended → v.socket.writer = .ended → v.socket.finished = true

/-- After its turn a socket has nothing left to do. -/
theorem Served.idle_turn (p : Policy) (now : Nat) (v : Served) : (v.turn p now).Idle now := by
  have hq := quiet_run p now v
  by_cases he : ((v.run p now).socket.pumpsEnded && !(v.run p now).socket.finished) = true
  · -- both pumps have ended, so that nothing more can become of them
    rw [turn, if_pos he]
    have hended := Bool.and_eq_true_iff.1 (Bool.and_eq_true_iff.1 he).1
    have hw : (v.run p now).concluded.socket.writer = .ended := eq_of_beq hended.2
    refine ⟨⟨fun _ => eq_of_beq hended.1, parted_of_ended hw, waits_of_ended hw⟩, fun _ _ => rfl⟩
  · rw [turn, if_neg he]
    refine ⟨hq, fun hr hw => ?_⟩
    have hended : (v.run p now).socket.pumpsEnded = true := by
      rw [Socket.pumpsEnded, hr, hw]
      rfl
    simpa [hended] using he

namespace Service

variable {s s' : Service} {k : SocketNumber} {l : LineNumber} {v : Served} {b : Board} {now : Nat}

/-! ### Sweepers -/

/-- A sweeper removes what is stale or leaves the board alone, and its next sweep lies ahead. -/
theorem sweepOne_cases {w : Sweeper} (h : w.NotBefore b.policy now) :
    (sweepOne now w b).1.NotBefore b.policy (now + 1) ∧
      ((sweepOne now w b).2 = b ∨
        w.due = some now ∧ (sweepOne now w b).2 = (b.sweep now).2) := by
  by_cases hc : b.closing = true
  · -- when the end has begun the sweeper stops
    have e : sweepOne now w b = (⟨none⟩, b) := by rw [sweepOne, if_pos hc]
    rw [e]
    exact ⟨fun _ hd => (by cases hd), .inl rfl⟩
  · rcases hw : w.due with - | due
    · have e : sweepOne now w b = (w, b) := by rw [sweepOne, if_neg hc, hw]
      rw [e]
      exact ⟨fun _ hd => (by cases hw.symm.trans hd), .inl rfl⟩
    · obtain ⟨hle, hpos⟩ := h due hw
      by_cases hdue : due ≤ now
      · have e : sweepOne now w b = (⟨some (due + b.policy.sweepEvery)⟩, (b.sweep now).2) := by
          rw [sweepOne, if_neg hc, hw]
          exact if_pos hdue
        -- it is not late, since the clock does not pass a sweep
        have hnow : due = now := Nat.le_antisymm hdue hle
        rw [e]
        refine ⟨?_, .inr ⟨congrArg some hnow, rfl⟩⟩
        intro next hnext
        cases hnext
        exact ⟨by omega, hpos⟩
      · have e : sweepOne now w b = (w, b) := by
          rw [sweepOne, if_neg hc, hw]
          exact if_neg hdue
        rw [e]
        refine ⟨?_, .inl rfl⟩
        intro next hnext
        cases hw.symm.trans hnext
        exact ⟨by omega, hpos⟩

theorem sweepAll_cons (now : Nat) (w : Sweeper) (ws : List Sweeper) (b : Board) :
    sweepAll now (w :: ws) b = ((sweepOne now w b).1 :: (sweepAll now ws (sweepOne now w b).2).1,
      (sweepAll now ws (sweepOne now w b).2).2) := rfl

/-- Whenever it comes, a sweeper sweeps now or leaves the board alone. -/
theorem sweepOne_eq_or (now : Nat) (w : Sweeper) (b : Board) :
    (sweepOne now w b).2 = b ∨ (sweepOne now w b).2 = (b.sweep now).2 := by
  rw [sweepOne]
  split
  · exact .inl rfl
  · split
    · split
      · exact .inr rfl
      · exact .inl rfl
    · exact .inl rfl

/-- A sweep removes and closes, and does nothing else. -/
theorem onward_sweepOne {w : Sweeper} (h : w.NotBefore b.policy now) :
    b.Onward (sweepOne now w b).2 := by
  rcases (sweepOne_cases h).2 with e | ⟨-, e⟩
  · rw [e]
    exact .refl b
  · rw [e]
    exact Board.onward_sweep b now

theorem inStep_sweepOne {w : Sweeper} (h : w.NotBefore b.policy now) (hb : b.InStep) :
    (sweepOne now w b).2.InStep := by
  rcases (sweepOne_cases h).2 with e | ⟨-, e⟩
  · rw [e]
    exact hb
  · rw [e]
    exact hb.sweep now

/-- **What the sweepers do**, one after the other, and when they are due next. -/
theorem sweepAll_spec {ws : List Sweeper} (h : ∀ w ∈ ws, w.NotBefore b.policy now)
    (hb : b.InStep) : b.Onward (sweepAll now ws b).2 ∧ (sweepAll now ws b).2.InStep ∧
      ∀ w ∈ (sweepAll now ws b).1, w.NotBefore b.policy (now + 1) := by
  induction ws generalizing b with
  | nil => exact ⟨.refl b, hb, fun w hw => by cases hw⟩
  | cons w ws ih =>
    obtain ⟨hw, hws⟩ := List.forall_mem_cons.1 h
    have ho := onward_sweepOne hw
    -- what the first has swept has still the same policy for the others
    have hp := ho.policy
    rw [← hp] at hws
    obtain ⟨ho', hb', hall⟩ := ih hws (inStep_sweepOne hw hb)
    rw [sweepAll_cons]
    refine ⟨ho.trans ho', hb', ?_⟩
    rw [hp] at hall
    exact List.forall_mem_cons.2 ⟨(sweepOne_cases hw).1, hall⟩

/-- Sweepers that are not due leave the board alone. -/
theorem sweepAll_eq_of_ahead {ws : List Sweeper}
    (h : ∀ w ∈ ws, w.NotBefore b.policy (now + 1)) : (sweepAll now ws b).2 = b := by
  induction ws with
  | nil => rfl
  | cons w ws ih =>
    obtain ⟨hw, hws⟩ := List.forall_mem_cons.1 h
    have he : (sweepOne now w b).2 = b := by
      rcases (sweepOne_cases (hw.mono (Nat.le_succ now))).2 with e | ⟨hd, -⟩
      · exact e
      · -- it would be due now, but is due later
        exact absurd (hw now hd).1 (Nat.not_succ_le_self now)
    rw [sweepAll_cons, he]
    exact ih hws

/-- No sweeper has missed its time. -/
def Punctual (s : Service) : Prop := ∀ w ∈ s.sweepers, w.NotBefore s.policy s.clock

/-- Every sweep lies ahead. -/
def Ahead (s : Service) : Prop := ∀ w ∈ s.sweepers, w.NotBefore s.policy (s.clock + 1)

/-- Whoever is ahead of the sweepers is in time for them. -/
theorem Ahead.punctual (h : s.Ahead) : s.Punctual :=
  fun w hw => (h w hw).mono (Nat.le_succ s.clock)

theorem onward_runSweepers (h : s.Sound) (hp : s.Punctual) :
    s.board.Onward s.runSweepers.board :=
  (sweepAll_spec hp h.inStep).1

theorem Sound.runSweepers (h : s.Sound) (hp : s.Punctual) : s.runSweepers.Sound :=
  h.withBoard (sweepAll_spec hp h.inStep).2.1 (onward_runSweepers h hp) rfl (Nat.le_refl _)

/-- After their round no sweeper is due. -/
theorem ahead_runSweepers (h : s.Sound) (hp : s.Punctual) : s.runSweepers.Ahead := by
  intro w hw
  have hpolicy : s.runSweepers.policy = s.policy := (onward_runSweepers h hp).policy
  rw [hpolicy]
  exact (sweepAll_spec hp h.inStep).2.2 w hw

/-- Nothing is swept before its time. -/
theorem board_runSweepers (ha : s.Ahead) : s.runSweepers.board = s.board := sweepAll_eq_of_ahead ha

/-! ### All sockets in turn -/

/-- After every socket up to a number has had its turn, these have done so and the others are as
they were. -/
structure TurnedTo (n : Nat) (s s' : Service) : Prop where
  sound : s'.Sound
  board : s.board.Onward s'.board
  length : s'.sockets.length = s.sockets.length
  clock : s'.clock = s.clock
  sweepers : s'.sweepers = s.sweepers
  turned : ∀ k < n, s'.served? k =
    (s.served? k).map fun r => (r.1, r.2.turn s.policy s.clock)
  waiting : ∀ k, n ≤ k → s'.served? k = s.served? k

/-- Socket after socket takes its turn. -/
theorem turnedTo_foldl (h : s.Sound) (n : Nat) :
    TurnedTo n s ((List.range n).foldl runSocket s) := by
  induction n with
  | zero =>
    exact ⟨h, .refl _, rfl, rfl, rfl, fun k hk => absurd hk (Nat.not_lt_zero k), fun _ _ => rfl⟩
  | succ n ih =>
    rw [List.range_succ, List.foldl_append]
    show TurnedTo (n + 1) s (runSocket ((List.range n).foldl runSocket s) n)
    have t := turned_runSocket ih.sound n
    have hp : ((List.range n).foldl runSocket s).policy = s.policy := ih.board.policy
    refine ⟨t.sound, ih.board.trans t.board, t.length.trans ih.length, t.clock.trans ih.clock,
      t.sweepers.trans ih.sweepers, ?_, ?_⟩
    · intro k hk
      rcases Nat.lt_succ_iff_lt_or_eq.1 hk with hlt | rfl
      · rw [t.others k (Nat.ne_of_gt hlt), ih.turned k hlt]
      · -- its own turn comes last, and finds it as it was
        rw [t.own, ih.waiting k (Nat.le_refl k), hp, ih.clock]
    · intro k hk
      rw [t.others k (Nat.ne_of_lt hk), ih.waiting k (Nat.le_of_succ_le hk)]

/-- There are no other sockets. -/
theorem served?_eq_none_of_length_le (h : s.sockets.length ≤ k) : s.served? k = none := by
  rw [served?, List.getElem?_eq_none h]
  rfl

theorem turnedTo_settle (h : s.Sound) (hp : s.Punctual) :
    TurnedTo s.sockets.length s.runSweepers s.settle :=
  turnedTo_foldl (h.runSweepers hp) _

/-- **What settling makes of a socket**: its turn comes after that of the sweepers. -/
theorem served?_settle (h : s.Sound) (hp : s.Punctual) (k : SocketNumber) :
    s.settle.served? k =
      (s.runSweepers.served? k).map fun r => (r.1, r.2.turn s.policy s.clock) := by
  have t := turnedTo_settle h hp
  have hpolicy : s.runSweepers.policy = s.policy := (onward_runSweepers h hp).policy
  rcases Nat.lt_or_ge k s.sockets.length with hk | hk
  · rw [t.turned k hk, hpolicy]
    rfl
  · have hnone : s.runSweepers.served? k = none := served?_eq_none_of_length_le hk
    rw [t.waiting k hk, hnone]
    rfl

/-- Before a sweep is due, settling is the turns of the sockets. -/
theorem served?_settle_of_ahead (h : s.Sound) (ha : s.Ahead) (k : SocketNumber) :
    s.settle.served? k = (s.served? k).map fun r => (r.1, r.2.turn s.policy s.clock) := by
  have hlines : s.runSweepers.board.lines = s.board.lines := by rw [board_runSweepers ha]
  have hb : s.runSweepers.served? k = s.served? k := served?_congr hlines rfl k
  rw [served?_settle h ha.punctual, hb]

/-! ### Rest -/

/-- A service in which nothing is left to do but to wait. -/
structure AtRest (s : Service) : Prop where
  sound : s.Sound
  idle : ∀ {k : SocketNumber} {l : LineNumber} {v : Served}, s.served? k = some (l, v) →
    v.Idle s.clock
  ahead : s.Ahead

/-- **At first** all is at rest. -/
theorem atRest_start (policy : Policy) (check : Check) (supply : Nat → Draw) :
    (start policy check supply).AtRest where
  sound := sound_start policy check supply
  idle h := by cases h
  ahead w hw := by cases hw

theorem clock_settle (h : s.Sound) (hp : s.Punctual) : s.settle.clock = s.clock :=
  (turnedTo_settle h hp).clock

theorem onward_settle (h : s.Sound) (hp : s.Punctual) : s.board.Onward s.settle.board :=
  (onward_runSweepers h hp).trans (turnedTo_settle h hp).board

/-- **A service that settles comes to rest.** -/
theorem atRest_settle (h : s.Sound) (hp : s.Punctual) : s.settle.AtRest := by
  have t := turnedTo_settle h hp
  refine ⟨t.sound, ?_, ?_⟩
  · intro k l v hv
    rw [served?_settle h hp, Option.map_eq_some_iff] at hv
    obtain ⟨⟨l', u⟩, -, e⟩ := hv
    cases e
    rw [clock_settle h hp]
    exact Served.idle_turn s.policy s.clock u
  · intro w hw
    rw [t.sweepers] at hw
    have hw' := ahead_runSweepers h hp w hw
    have hpolicy : s.settle.policy = s.runSweepers.policy := t.board.policy
    rw [hpolicy, t.clock]
    exact hw'

/-! ### The passing of time -/

theorem mem_due {w : Sweeper} {due : Nat} (hw : w ∈ s.sweepers) (hd : w.due = some due) :
    due ∈ s.due := by
  refine List.mem_append_left _ (List.mem_flatMap.2 ⟨w, hw, ?_⟩)
  rw [hd]
  exact List.mem_singleton_self due

/-- Whoever waits for room has something to do when the time of that is over. -/
theorem mem_due_of_wait {deadline : Nat} (hv : s.served? k = some (l, v))
    (hd : v.socket.writer.wait? = some deadline) : deadline ∈ s.due := by
  have hx := List.mem_of_getElem? (served?_eq_some.1 hv).1
  refine List.mem_append_right _ (List.mem_flatMap.2 ⟨_, hx, List.mem_append_right _ ?_⟩)
  cases hw : v.socket.writer <;> rw [hw] at hd <;> cases hd
  all_goals exact List.mem_singleton_self deadline

/-- What is due next comes before all else that is due. -/
theorem nextDue_eq_some {t : Nat} (h : s.nextDue = some t) :
    s.clock < t ∧ ∀ d ∈ s.due, s.clock < d → t ≤ d := by
  obtain ⟨hm, hle⟩ := List.min?_eq_some_iff.1 h
  refine ⟨of_decide_eq_true (List.mem_filter.1 hm).2, fun d hd hlt => ?_⟩
  exact hle d (List.mem_filter.2 ⟨hd, decide_eq_true hlt⟩)

theorem nextDue_eq_none (h : s.nextDue = none) : ∀ d ∈ s.due, ¬ s.clock < d := by
  intro d hd hlt
  have hm : d ∈ s.due.filter (s.clock < ·) := List.mem_filter.2 ⟨hd, decide_eq_true hlt⟩
  rw [List.min?_eq_none_iff.1 h] at hm
  cases hm

/-- Nobody waits for room until before the time given. -/
def OnTime (s : Service) (t : Nat) : Prop :=
  ∀ (k : SocketNumber) (l : LineNumber) (v : Served), s.served? k = some (l, v) →
    ∀ deadline, v.socket.writer.wait? = some deadline → t ≤ deadline

/-- May the clock come to that time without passing a sweep, or the end of a wait for room? -/
structure Within (s : Service) (t : Nat) : Prop where
  le : s.clock ≤ t
  punctual : ∀ w ∈ s.sweepers, w.NotBefore s.policy t
  onTime : s.OnTime t

/-- Time alone makes nothing unsound. -/
theorem Sound.atClock (h : s.Sound) {t : Nat} (ht : s.clock ≤ t) :
    ({ s with clock := t } : Service).Sound :=
  h.withBoard h.inStep (.refl _) rfl ht

theorem atRest_arrive {t : Nat} (h : s.AtRest) (ht : s.Within t) : (s.arrive t).AtRest :=
  atRest_settle (h.sound.atClock ht.1) ht.2

theorem clock_arrive {t : Nat} (h : s.AtRest) (ht : s.Within t) : (s.arrive t).clock = t :=
  clock_settle (h.sound.atClock ht.1) ht.2

/-- May the clock come to that time without passing any at which something is due? -/
def Reaches (s : Service) (t : Nat) : Prop := s.clock ≤ t ∧ ∀ d ∈ s.due, s.clock < d → t ≤ d

/-- At rest nothing is overdue. -/
theorem AtRest.onTime (h : s.AtRest) : s.OnTime s.clock :=
  fun _ _ _ hv deadline hd => Nat.le_of_lt ((h.idle hv).quiet.waits deadline hd).2

/-- So nothing is by the next time at which something is due. -/
theorem AtRest.within_of_reaches {t : Nat} (h : s.AtRest) (ht : s.Reaches t) : s.Within t where
  le := ht.1
  punctual w hw due hd :=
    ⟨ht.2 due (mem_due hw hd) (h.ahead w hw due hd).1, (h.ahead w hw due hd).2⟩
  onTime _ _ _ hv deadline hd :=
    ht.2 deadline (mem_due_of_wait hv hd) ((h.idle hv).quiet.waits deadline hd).2

theorem reaches_next {t : Nat} (h : s.nextDue = some t) : s.Reaches t :=
  ⟨Nat.le_of_lt (nextDue_eq_some h).1, (nextDue_eq_some h).2⟩

/-- The clock may come to a time before the next at which something is due. -/
theorem reaches_target {target : Nat} (hle : s.clock ≤ target)
    (hnext : ∀ t, s.nextDue = some t → target ≤ t) : s.Reaches target := by
  refine ⟨hle, fun d hd hlt => ?_⟩
  rcases e : s.nextDue with - | t
  · exact absurd hlt (nextDue_eq_none e d hd)
  · exact Nat.le_trans (hnext t e) ((nextDue_eq_some e).2 d hd hlt)

/-- However much time passes, in the end the clock comes to the target from a service at rest, which
has kept what every arrival keeps, and passes no time at which something is due. -/
theorem AtRest.passTo_eq_arrive {P : Service → Prop} {target n : Nat}
    (hP : ∀ {s : Service} {t : Nat}, s.AtRest → s.Reaches t → t ≤ target → P s → P (s.arrive t))
    (h : s.AtRest) (hs : P s) (hle : s.clock ≤ target) (hn : target ≤ s.clock + n) :
    ∃ u : Service, u.AtRest ∧ P u ∧ u.Reaches target ∧ s.passTo target n = u.arrive target := by
  induction n generalizing s with
  | zero =>
    -- no time is left, so nothing can be passed
    have hnow : target = s.clock := Nat.le_antisymm hn hle
    refine ⟨s, h, hs, reaches_target hle fun t ht => ?_, rfl⟩
    exact hnow.le.trans (Nat.le_of_lt (nextDue_eq_some ht).1)
  | succ n ih =>
    rw [Service.passTo]
    rcases e : s.nextDue with - | t
    · refine ⟨s, h, hs, reaches_target hle fun t ht => ?_, rfl⟩
      cases e.symm.trans ht
    · simp only
      split
      · -- something is due on the way, and the clock stops there first
        rename_i ht
        have hw := h.within_of_reaches (reaches_next e)
        have hlt := (nextDue_eq_some e).1
        have hc := clock_arrive h hw
        exact ih (atRest_arrive h hw) (hP h (reaches_next e) (Nat.le_of_lt ht) hs) (by omega)
          (by omega)
      · rename_i ht
        refine ⟨s, h, hs, reaches_target hle fun t' ht' => ?_, rfl⟩
        cases e.symm.trans ht'
        exact Nat.le_of_not_lt ht

/-- However long it takes, time passes by one arrival after another. -/
theorem passTo_of_arrive {R : Service → Service → Prop}
    (htrans : ∀ {s u w : Service}, R s u → R u w → R s w)
    (harrive : ∀ (s : Service) (t : Nat), R s (s.arrive t)) (target n : Nat) (s : Service) :
    R s (s.passTo target n) := by
  induction n generalizing s with
  | zero => exact harrive s target
  | succ n ih =>
    rw [Service.passTo]
    split
    · split
      · exact htrans (harrive s _) (ih _)
      · exact harrive s target
    · exact harrive s target

/-- What is kept at every stop on the way and on arrival is kept when time passes. -/
theorem AtRest.elapse_of_stops {P : Service → Prop} {milliseconds : Nat}
    (hP : ∀ {u : Service} {t : Nat}, u.AtRest → u.Reaches t → t ≤ s.clock + milliseconds → P u →
      P (u.arrive t)) (h : s.AtRest) (hs : P s) : P (s.elapse milliseconds) := by
  obtain ⟨u, hu, hPu, hr, e⟩ :=
    h.passTo_eq_arrive hP hs (Nat.le_add_right _ _) (Nat.le_refl (s.clock + milliseconds))
  have he : s.elapse milliseconds = u.arrive (s.clock + milliseconds) := e
  rw [he]
  exact hP hu hr (Nat.le_refl _) hPu

theorem AtRest.elapse_eq_arrive {P : Service → Prop}
    (hP : ∀ {s : Service} {t : Nat}, s.AtRest → s.Within t → P s → P (s.arrive t))
    (h : s.AtRest) (hs : P s) (milliseconds : Nat) : ∃ u : Service, u.AtRest ∧ P u ∧
      u.Within (s.clock + milliseconds) ∧
      s.elapse milliseconds = u.arrive (s.clock + milliseconds) := by
  obtain ⟨u, hu, hPu, hr, e⟩ := h.passTo_eq_arrive
    (fun hu hr _ hPu => hP hu (hu.within_of_reaches hr) hPu) hs (Nat.le_add_right _ _)
    (Nat.le_refl (s.clock + milliseconds))
  exact ⟨u, hu, hPu, hu.within_of_reaches hr, e⟩

/-- What every arrival keeps is kept however much time passes. -/
theorem AtRest.elapse {P : Service → Prop}
    (hP : ∀ {s : Service} {t : Nat}, s.AtRest → s.Within t → P s → P (s.arrive t))
    (h : s.AtRest) (hs : P s) (milliseconds : Nat) :
    (s.elapse milliseconds).AtRest ∧ P (s.elapse milliseconds) := by
  obtain ⟨u, hu, hPu, hw, e⟩ := h.elapse_eq_arrive hP hs milliseconds
  rw [e]
  exact ⟨atRest_arrive hu hw, hP hu hw hPu⟩

end Service

end Switchboard
