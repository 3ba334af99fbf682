/-
Switchboard/Proofs/Service/Sweeping.lean

The schedule of one sweeper.

The main statement, `swept_on_schedule`, is about a run with one sweeper that
has an interval and goes on to the end.  Its rounds come at every interval from
its beginning on and at no other time, however the run is divided into events.
Each removes exactly those who are stale from the board of the service and leaves
nobody who is; so that a connection which nothing else affects is removed in the
first round that comes later than its last sign of life allows, and in none
before, and is found in no index of the service from then on.

That there is one sweeper and no end is kept by every event but the two that
begin these (`Persists`), and `Sweeps` counts the rounds that have been: by one
moment, one event and one run.  A sweeper whose first round would come at a time
that the clock cannot tell ends at once, and there are none (`Unswept`).
-/
import Switchboard.Proofs.Service.Answering
import Switchboard.Proofs.Service.Rounds

namespace Switchboard.Service

variable {s s' u : Service} {e : Event} {es : List Event} {now : Nat} {id : ConnectionId}
  {l : LineNumber} {t : Nat}

/-! ### Neither the end nor another sweeper -/

/-- Neither has the end begun nor a sweeper, or gone on. -/
structure Persists (s s' : Service) : Prop where
  closing : s'.board.closing = s.board.closing
  sweepers : s'.sweepers = s.sweepers

theorem Persists.refl (s : Service) : Persists s s := ⟨rfl, rfl⟩

theorem Persists.trans (h : Persists s s') (h' : Persists s' u) : Persists s u :=
  ⟨h'.closing.trans h.closing, h'.sweepers.trans h.sweepers⟩

theorem persists_modifyServed (s : Service) (k : SocketNumber) (f : Served → Served) :
    Persists s (s.modifyServed k f) := by
  rw [modifyServed]
  split <;> exact ⟨rfl, rfl⟩

theorem persists_hear (s : Service) (k : SocketNumber) (f : Incoming) :
    Persists s (s.hear k f) := by
  rcases hear_cases s k f with e | ⟨l, v, content, -, -, -, -, e⟩ | ⟨g, -, e⟩
  · rw [e]
    exact .refl s
  · rw [e]
    have hhandled : Persists s (s.handled l content) :=
      ⟨Board.closing_after (k := .frame s.check s.clock s.draw l content) (by simp), rfl⟩
    exact hhandled.trans (persists_modifyServed _ k _)
  · rw [e]
    exact persists_modifyServed s k g

theorem persists_join (s : Service) (a : Bool) : Persists s (s.join a) := by
  by_cases ha : s.Admits
  · rw [join_of_admits ha]
    refine ⟨?_, rfl⟩
    have henter := Board.closing_enter s.board s.draw.connection s.policy.queueCapacity s.clock
    show s.admitted.closing = _
    rw [admitted]
    split <;> exact henter
  · rw [join_of_not_admits ha]
    exact ⟨rfl, rfl⟩

theorem persists_breakOff (s : Service) (k : SocketNumber) : Persists s (s.breakOff k) := by
  rw [breakOff]
  split
  · exact .refl s
  · split
    · exact .refl s
    · exact persists_modifyServed s k _

/-- No event by itself begins the end or a sweeper but the two that do. -/
theorem persists_stirring (he : e ≠ .sweeper) (hend : e ≠ .call .shutdown) :
    Persists s (s.stirring e) := by
  cases e with
  | call c => exact ⟨Board.closing_after fun hc => hend (congrArg Event.call hc), rfl⟩
  | sweeper => exact absurd rfl he
  | accept a => exact persists_join s a
  | receive k f => exact persists_hear s k f
  | endOfFrames k => exact persists_breakOff s k
  | vanish k => exact (persists_modifyServed s k _).trans (persists_breakOff _ k)
  | sever k | resume k => exact persists_modifyServed s k _
  | stop | forget | elapse => exact ⟨rfl, rfl⟩

theorem persists_runSocket (s : Service) (k : SocketNumber) : Persists s (s.runSocket k) := by
  have hfinish : ∀ u : Service, Persists u (u.finish k) := by
    intro u
    rcases hv : u.served? k with - | ⟨l, v⟩
    · rw [finish, hv]
      exact .refl u
    · rw [finish_eq hv]
      split
      · exact ⟨Board.closing_dismiss _ _, rfl⟩
      · exact .refl u
  exact (persists_modifyServed s k _).trans (hfinish _)

theorem closing_sweepAll (now : Nat) (ws : List Sweeper) (b : Board) :
    (sweepAll now ws b).2.closing = b.closing := by
  induction ws generalizing b with
  | nil => rfl
  | cons w ws ih =>
    rw [sweepAll_cons]
    rcases sweepOne_eq_or now w b with e | e
    · rw [e]
      exact ih b
    · rw [e]
      exact (ih _).trans (Board.closing_sweep b now)

/-- When a service settles the sweepers alone go on. -/
theorem persists_settle (u : Service) : Persists u.runSweepers u.settle := by
  have hall : ∀ (ks : List SocketNumber) (u : Service), Persists u (ks.foldl runSocket u) := by
    intro ks
    induction ks with
    | nil => exact .refl
    | cons k ks ih => exact fun u => (persists_runSocket u k).trans (ih _)
  exact hall _ u.runSweepers

/-- At a moment as well. -/
theorem persists_arrive (u : Service) (now : Nat) :
    (u.arrive now).board.closing = u.board.closing ∧
      (u.arrive now).sweepers = (sweepAll now u.sweepers u.board).1 := by
  have h := persists_settle { u with clock := now }
  exact ⟨h.closing.trans (closing_sweepAll now u.sweepers u.board), h.sweepers⟩

/-- There are as many sweepers as before. -/
theorem length_sweepAll (now : Nat) (ws : List Sweeper) (b : Board) :
    (sweepAll now ws b).1.length = ws.length := by
  induction ws generalizing b with
  | nil => rfl
  | cons w ws ih => exact congrArg (· + 1) (ih _)

theorem length_sweepers_after (hs : s.AtRest) (hf : e.Fresh s) (he : e ≠ .sweeper)
    (hend : e ≠ .call .shutdown) : (s.after e).sweepers.length = s.sweepers.length ∧
      ∀ m ∈ s.moments e, m.1.sweepers.length = s.sweepers.length := by
  have hp := persists_stirring (s := s) he hend
  refine hs.after_by_moments (P := fun u ms => u.sweepers.length = s.sweepers.length ∧
    ∀ m ∈ ms, m.1.sweepers.length = s.sweepers.length) hf
    ⟨congrArg List.length hp.sweepers, by simp⟩ ?_
  rintro u now ms - - ⟨hu, hms⟩
  refine ⟨?_, List.forall_mem_append.2 ⟨hms, List.forall_mem_singleton.2 hu⟩⟩
  rw [(persists_arrive u now).2, length_sweepAll, hu]

theorem length_sweepers_run (hs : s.AtRest) (hf : FreshRun s es)
    (hno : ∀ e ∈ es, e ≠ .sweeper ∧ e ≠ .call .shutdown) :
    (s.run es).sweepers.length = s.sweepers.length ∧
      ∀ m ∈ s.trace moments es, m.1.sweepers.length = s.sweepers.length := by
  induction es using List.reverseRecOn with
  | nil => exact ⟨rfl, fun m hm => by cases hm⟩
  | append_singleton es e ih =>
    obtain ⟨hf, he⟩ := freshRun_concat.1 hf
    obtain ⟨hlength, hms⟩ := ih hf fun e' he' => hno e' (List.mem_append_left _ he')
    obtain ⟨hsweeper, hend⟩ := hno e (by simp)
    obtain ⟨hlength', hms'⟩ := length_sweepers_after (hs.run hf).1 he hsweeper hend
    rw [run_concat, trace_concat]
    refine ⟨hlength'.trans hlength, List.forall_mem_append.2 ⟨hms, fun m hm => ?_⟩⟩
    exact (hms' m hm).trans hlength

/-- **With one sweeper the rounds are those of the service**: it holds each of them at one of the
moments of the run, and at a moment at which it holds none its board stays as it is. -/
theorem heldAt_of_run (hs : s.AtRest) (hf : FreshRun s es)
    (hno : ∀ e ∈ es, e ≠ .sweeper ∧ e ≠ .call .shutdown) (hlone : s.sweepers.length ≤ 1) :
    (∀ r ∈ s.trace rounds es, ∃ m ∈ s.trace moments es, r.HeldAt m) ∧
      ∀ m ∈ s.trace moments es, (∀ r ∈ s.trace rounds es, ¬ r.HeldAt m) →
        m.1.boardSwept m.2 = m.1.board := by
  have hall := (length_sweepers_run hs hf hno).2
  have htrace : s.trace rounds es = roundsOf (s.trace moments es) := trace_rounds s es
  rw [htrace]
  have hheld := fun m hm => heldAt_of_lone (m := m) ((hall m hm).le.trans hlone)
  refine ⟨fun r hr => ?_, fun m hm hnone => (hheld m hm).2 (List.eq_nil_iff_forall_not_mem.2 ?_)⟩
  · obtain ⟨m, hm, hr⟩ := List.mem_flatMap.1 hr
    exact ⟨m, hm, (hheld m hm).1 r hr⟩
  · exact fun r hr => hnone r (List.mem_flatMap.2 ⟨m, hm, hr⟩) ((hheld m hm).1 r hr)

/-! ### The schedule -/

/-- No sweeper is at work, and the end has not begun. -/
structure Unswept (u : Service) : Prop where
  begun : u.board.closing = false
  sweepers : ∀ w ∈ u.sweepers, w.due = none

theorem sweepAll_of_ended {b : Board} {ws : List Sweeper} (hb : b.closing = false)
    (h : ∀ w ∈ ws, w.due = none) : sweepAll now ws b = (ws, b) ∧ roundsAt now ws b = [] := by
  induction ws with
  | nil => exact ⟨rfl, rfl⟩
  | cons w ws ih =>
    obtain ⟨hw, hws⟩ := List.forall_mem_cons.1 h
    obtain ⟨hall, hnone⟩ := ih hws
    have hone : sweepOne now w b = (w, b) := by
      rw [sweepOne, if_neg (by simp [hb]), hw]
    have hdue : ¬ (b.closing = false ∧ w.Due now) := by
      rintro ⟨-, due, hd, -⟩
      cases hw.symm.trans hd
    rw [sweepAll_cons, hone, hall, roundsAt, if_neg hdue]
    exact ⟨rfl, hnone⟩

theorem Unswept.of_persists (h : s.Unswept) (hp : Persists s u) : u.Unswept :=
  ⟨hp.closing.trans h.begun, hp.sweepers ▸ h.sweepers⟩

theorem Unswept.arrive (h : u.Unswept) (now : Nat) :
    (u.arrive now).Unswept ∧ roundsAt now u.sweepers u.board = [] := by
  obtain ⟨hclosing, hsweepers⟩ := persists_arrive u now
  obtain ⟨hall, hnone⟩ : sweepAll now u.sweepers u.board = (u.sweepers, u.board) ∧
      roundsAt now u.sweepers u.board = [] := sweepAll_of_ended h.begun h.sweepers
  rw [hall] at hsweepers
  exact ⟨⟨hclosing.trans h.begun, hsweepers ▸ h.sweepers⟩, hnone⟩

/-- Without a sweeper there are no rounds. -/
theorem Unswept.after (h : (s.stirring e).Unswept) (hs : s.AtRest) (hf : e.Fresh s) :
    (s.after e).Unswept ∧ s.rounds e = [] := by
  refine hs.after_by_moments (P := fun u ms => u.Unswept ∧ roundsOf ms = []) hf ⟨h, rfl⟩ ?_
  rintro u now ms - - ⟨hu, hms⟩
  obtain ⟨hu', hnone⟩ := hu.arrive now
  exact ⟨hu', by rw [roundsOf_concat, hms, hnone]; rfl⟩

theorem Unswept.run (h : s.Unswept) (hs : s.AtRest) (hf : FreshRun s es)
    (hno : ∀ e ∈ es, e ≠ .sweeper ∧ e ≠ .call .shutdown) :
    (s.run es).Unswept ∧ s.trace rounds es = [] := by
  induction es using List.reverseRecOn with
  | nil => exact ⟨h, rfl⟩
  | append_singleton es e ih =>
    obtain ⟨hf, he⟩ := freshRun_concat.1 hf
    obtain ⟨hu, hnone⟩ := ih hf fun e' he' => hno e' (List.mem_append_left _ he')
    obtain ⟨hsweeper, hend⟩ := hno e (by simp)
    have hstirred := hu.of_persists (persists_stirring hsweeper hend)
    obtain ⟨hu', hnone'⟩ := hstirred.after (hs.run hf).1 he
    rw [run_concat, trace_concat, hnone, hnone']
    exact ⟨hu', rfl⟩

/-- The times of the first `n` rounds of a sweeper that has begun at the time `t`. -/
def schedule (p : Policy) (t n : Nat) : List Nat :=
  (List.range' 1 n).map fun k => t + k * p.sweepEvery

theorem schedule_add (p : Policy) (t n d : Nat) : schedule p t (n + d) =
    schedule p t n ++ (List.range' (n + 1) d).map fun k => t + k * p.sweepEvery := by
  rw [schedule, schedule, ← List.map_append, Nat.add_comm n 1, List.range'_append_1]

theorem schedule_succ (p : Policy) (t n : Nat) :
    schedule p t (n + 1) = schedule p t n ++ [t + (n + 1) * p.sweepEvery] := schedule_add p t n 1

/-- The rounds that have come since. -/
theorem schedule_append_eq {p : Policy} {n m : Nat} {ts : List Nat}
    (h : schedule p t n ++ ts = schedule p t m) :
    ts = (List.range' (n + 1) (m - n)).map fun k => t + k * p.sweepEvery := by
  have hle : n ≤ m := by
    have hlength := congrArg List.length h
    simp only [schedule, List.length_append, List.length_map, List.length_range'] at hlength
    omega
  obtain ⟨d, rfl⟩ := Nat.exists_eq_add_of_le hle
  rw [schedule_add] at h
  rw [Nat.add_sub_cancel_left]
  exact List.append_cancel_left h

/-- The next round of a sweeper is one interval later, once it has had one. -/
theorem sweepOne_fst (hb : b.closing = false) (due : Nat) : (sweepOne now ⟨some due⟩ b).1 =
    if due ≤ now then ⟨some (due + b.policy.sweepEvery)⟩ else ⟨some due⟩ := by
  rw [sweepOne, if_neg (by simp [hb])]
  dsimp only
  split <;> rfl

/-- The one sweeper has begun at the time `t`, and has had `n` rounds. -/
structure Sweeps (p : Policy) (t n : Nat) (u : Service) : Prop where
  policy : u.policy = p
  begun : u.board.closing = false
  sweepers : u.sweepers = [⟨some (t + (n + 1) * p.sweepEvery)⟩]
  le_clock : t + n * p.sweepEvery ≤ u.clock

theorem Sweeps.of_persists {p : Policy} {n : Nat} (h : Sweeps p t n s) (hp : Persists s u)
    (hpolicy : u.policy = s.policy) (hclock : u.clock = s.clock) : Sweeps p t n u :=
  ⟨hpolicy.trans h.policy, hp.closing.trans h.begun, hp.sweepers.trans h.sweepers,
    hclock.symm ▸ h.le_clock⟩

/-- **One moment**: the next round is due, or it lies ahead. -/
theorem Sweeps.arrive {p : Policy} {n : Nat} (h : Sweeps p t n u) (hs : u.Sound)
    (hw : u.Within now) : ∃ m, Sweeps p t m (u.arrive now) ∧
      schedule p t n ++ (roundsAt now u.sweepers u.board).map Round.time = schedule p t m := by
  obtain ⟨hclosing, hsweepers⟩ := persists_arrive u now
  have hclock := hs.clock_arrive hw
  have hpolicy := (hs.policy_arrive hw).trans h.policy
  have hp : u.board.policy = p := h.policy
  have hnow : now ≤ t + (n + 1) * p.sweepEvery :=
    (hw.2 _ (by rw [h.sweepers]; exact List.mem_singleton_self _) _ rfl).1
  rw [h.sweepers] at hsweepers ⊢
  by_cases hdue : t + (n + 1) * p.sweepEvery ≤ now
  · have hone : roundsAt now [⟨some (t + (n + 1) * p.sweepEvery)⟩] u.board = [⟨now, u.board⟩] :=
      if_pos ⟨h.begun, _, rfl, hdue⟩
    refine ⟨n + 1, ⟨hpolicy, hclosing.trans h.begun, hsweepers.trans ?_, ?_⟩, ?_⟩
    · rw [sweepAll_cons, sweepOne_fst h.begun, if_pos hdue, hp, Nat.add_assoc, ← Nat.succ_mul]
      rfl
    · exact hclock.symm ▸ hdue
    · rw [hone, schedule_succ, Nat.le_antisymm hnow hdue]
      rfl
  · have hnone : roundsAt now [⟨some (t + (n + 1) * p.sweepEvery)⟩] u.board = [] := by
      refine if_neg ?_
      rintro ⟨-, due, hd, hle⟩
      cases hd
      exact hdue hle
    refine ⟨n, ⟨hpolicy, hclosing.trans h.begun, hsweepers.trans ?_, ?_⟩, ?_⟩
    · rw [sweepAll_cons, sweepOne_fst h.begun, if_neg hdue]
      rfl
    · exact hclock.symm ▸ h.le_clock.trans hw.1
    · rw [hnone]
      exact List.append_nil _

/-- **One event.** -/
theorem Sweeps.after {p : Policy} {n : Nat} (h : Sweeps p t n (s.stirring e)) (hs : s.AtRest)
    (hf : e.Fresh s) : ∃ m, Sweeps p t m (s.after e) ∧
      schedule p t n ++ (s.rounds e).map Round.time = schedule p t m := by
  refine hs.after_by_moments (P := fun u ms => ∃ m, Sweeps p t m u ∧
    schedule p t n ++ (roundsOf ms).map Round.time = schedule p t m) hf
    ⟨n, h, List.append_nil _⟩ ?_
  rintro u now ms hu hw ⟨m, hsweeps, hms⟩
  obtain ⟨m', hsweeps', hm'⟩ := hsweeps.arrive hu hw
  refine ⟨m', hsweeps', ?_⟩
  rw [roundsOf_concat, List.map_append, ← List.append_assoc, hms, hm']

/-- **Run lemma.** -/
theorem Sweeps.run {p : Policy} {n : Nat} (h : Sweeps p t n s) (hs : s.AtRest)
    (hf : FreshRun s es) (hno : ∀ e ∈ es, e ≠ .sweeper ∧ e ≠ .call .shutdown) :
    ∃ m, Sweeps p t m (s.run es) ∧
      schedule p t n ++ (s.trace rounds es).map Round.time = schedule p t m := by
  induction es using List.reverseRecOn with
  | nil => exact ⟨n, h, List.append_nil _⟩
  | append_singleton es e ih =>
    obtain ⟨hf, he⟩ := freshRun_concat.1 hf
    obtain ⟨m, hm, hlog⟩ := ih hf fun e' he' => hno e' (List.mem_append_left _ he')
    obtain ⟨hsweeper, hend⟩ := hno e (by simp)
    have hrest := (hs.run hf).1
    have hstirred : Sweeps p t m ((s.run es).stirring e) :=
      hm.of_persists (persists_stirring hsweeper hend) (hrest.policy_stirring he)
        (steady_stirring _ e).clock
    obtain ⟨m', hm', hlog'⟩ := hstirred.after hrest he
    refine ⟨m', run_concat s es e ▸ hm', ?_⟩
    rw [trace_concat, List.map_append, ← List.append_assoc, hlog, hlog']

/-- The next round lies ahead. -/
theorem Sweeps.ahead {p : Policy} {n : Nat} (h : Sweeps p t n u) (hs : u.AtRest) :
    u.clock < t + (n + 1) * p.sweepEvery ∧ 0 < p.sweepEvery := by
  obtain ⟨hlt, hpos⟩ := hs.ahead _ (by rw [h.sweepers]; exact List.mem_singleton_self _) _ rfl
  exact ⟨hlt, h.policy ▸ hpos⟩

/-- As many rounds have been as there were intervals. -/
theorem Sweeps.count_eq {p : Policy} {n : Nat} (h : Sweeps p t n u) (hs : u.AtRest) :
    n = (u.clock - t) / p.sweepEvery := by
  have hle := h.le_clock
  have hlt := (h.ahead hs).1
  refine (Nat.div_eq_of_lt_le ?_ ?_).symm
  · omega
  · omega

/-- Where a sweeper begins there is none before. -/
theorem Unswept.sweeps {p : Policy} (h : s.Unswept) (hnone : s.sweepers = []) (hs : s.AtRest)
    (hp : s.policy = p) (hpos : 0 < p.sweepEvery)
    (hfits : s.clock + p.sweepEvery < p.host.horizon) :
    Sweeps p s.clock 0 s.startSweeper ∧ s.rounds .sweeper = [] := by
  have hstirred : Sweeps p s.clock 0 (s.stirring .sweeper) := by
    refine ⟨hp, h.begun, ?_, ?_⟩
    · have hno : ¬ (p.sweepEvery = 0 ∨ p.host.horizon ≤ s.clock + p.sweepEvery) := by omega
      rw [stirring, hnone, hp, Sweeper.first, if_neg hno, Nat.zero_add, Nat.one_mul]
      rfl
    · rw [Nat.zero_mul]
      exact Nat.le_refl _
  obtain ⟨m, hm, htimes⟩ := hstirred.after (e := .sweeper) hs trivial
  have hm' : Sweeps p s.clock m s.startSweeper := hm
  have hnow : s.startSweeper.clock = s.clock :=
    (hs.settlesNow (e := .sweeper) trivial trivial).clock
  -- no time has passed
  have hzero : m = 0 := by
    have hle := hm'.le_clock
    rw [hnow] at hle
    exact (Nat.mul_eq_zero.1 (by omega)).resolve_right hpos.ne'
  subst hzero
  exact ⟨hm', List.map_eq_nil_iff.1 htimes⟩

/-- If the clock cannot tell when its first round is, it ends at once. -/
theorem Unswept.startSweeper (h : s.Unswept) (hs : s.AtRest)
    (hlate : s.policy.host.horizon ≤ s.clock + s.policy.sweepEvery) :
    s.startSweeper.Unswept ∧ s.rounds .sweeper = [] := by
  have hstirred : (s.stirring .sweeper).Unswept := by
    refine ⟨h.begun, List.forall_mem_append.2 ⟨h.sweepers, List.forall_mem_singleton.2 ?_⟩⟩
    rw [Sweeper.first, if_pos (.inr hlate)]
  exact hstirred.after (e := .sweeper) hs trivial

/-- There are no rounds before a sweeper begins, nor as it does. -/
theorem trace_sweeper {es₀ : List Event} (hs : u.run es₀ = s) (hnone : u.trace rounds es₀ = [])
    (hnone' : s.rounds .sweeper = []) :
    u.trace rounds (es₀ ++ .sweeper :: es) = s.startSweeper.trace rounds es := by
  rw [trace_append, hnone, List.nil_append, hs]
  show s.rounds .sweeper ++ _ = _
  rw [hnone']
  rfl

/-- The rounds after the first `n` up to the one with the number `m`, as a log has them: in turn,
each at its time. -/
structure Spaced (p : Policy) (t n m : Nat) (log : List Round) : Prop where
  sorted : log.Pairwise fun r r' => r.time < r'.time
  time : ∀ r ∈ log, ∃ j, n < j ∧ j ≤ m ∧ r.time = t + j * p.sweepEvery
  exists_round : ∀ j, n < j → j ≤ m → ∃ r ∈ log, r.time = t + j * p.sweepEvery

theorem spaced_of_schedule {p : Policy} {n m : Nat} {log : List Round} (hpos : 0 < p.sweepEvery)
    (h : schedule p t n ++ log.map Round.time = schedule p t m) : Spaced p t n m log := by
  have htimes := schedule_append_eq h
  refine ⟨?_, fun r hr => ?_, fun j hn hm => ?_⟩
  · rw [← List.pairwise_map (f := Round.time), htimes]
    refine (List.pairwise_lt_range' 1).map _ fun j j' hlt => ?_
    exact Nat.add_lt_add_left (Nat.mul_lt_mul_of_pos_right hlt hpos) t
  · have htime : r.time ∈ log.map Round.time := List.mem_map_of_mem hr
    rw [htimes] at htime
    obtain ⟨j, hj, e⟩ := List.mem_map.1 htime
    rw [List.mem_range'_1] at hj
    exact ⟨j, by omega, by omega, e.symm⟩
  · have htime : t + j * p.sweepEvery ∈ log.map Round.time := by
      rw [htimes]
      exact List.mem_map.2 ⟨j, List.mem_range'_1.2 (by omega), rfl⟩
    exact List.mem_map.1 htime

/-- **A connection that nothing else affects**, as the sweeper comes round: until the first round
that comes too late for it, it stays as it is, and that round removes it. -/
theorem Sweeps.removes {p : Policy} {n k came : Nat} (h : Sweeps p came n s) (hs : s.AtRest)
    (hf : FreshRun s es) (hno : ∀ e ∈ es, e ≠ .sweeper ∧ e ≠ .call .shutdown)
    (hi : s.board.Idles id l t) (hr : s.RetainsAll (Board.Idles id l t) es)
    (hnext : s.clock < came + k * p.sweepEvery) (hlate : t + p.staleAfter < came + k * p.sweepEvery)
    (hfirst : ∀ j < k, s.clock < came + j * p.sweepEvery →
      came + j * p.sweepEvery ≤ t + p.staleAfter) :
    (∀ r ∈ s.trace rounds es, r.time < came + k * p.sweepEvery → r.swept.Idles id l t) ∧
      ((s.run es).clock < came + k * p.sweepEvery → (s.run es).board.Idles id l t) ∧
      (came + k * p.sweepEvery ≤ (s.run es).clock → (s.run es).board.Removed id l ∧
        ∃ r ∈ s.trace rounds es, r.time = came + k * p.sweepEvery ∧ r.board.Idles id l t ∧
          r.swept.Removed id l) := by
  obtain ⟨m, hm, htimes⟩ := h.run hs hf hno
  obtain ⟨hrest, -⟩ := hs.run hf
  obtain ⟨hahead, hpos⟩ := h.ahead hs
  have hspaced := spaced_of_schedule hpos htimes
  have hpast := past_trace hs hf
  rw [h.policy] at hpast
  have hearly : ∀ r ∈ s.trace rounds es, r.time < came + k * p.sweepEvery →
      r.time ≤ t + p.staleAfter := by
    intro r hmem ht
    obtain ⟨j, hnj, -, e⟩ := hspaced.time r hmem
    rw [e] at ht ⊢
    have hjk : j < k := Nat.lt_of_mul_lt_mul_right (a := p.sweepEvery) (by omega)
    have hle : (n + 1) * p.sweepEvery ≤ j * p.sweepEvery := Nat.mul_le_mul_right _ hnj
    exact hfirst j hjk (hahead.trans_le (by omega))
  obtain ⟨hfound, hend⟩ := (hr.linked hs hf).idles hi hpast hspaced.sorted hearly
  refine ⟨fun r hmem ht => ?_, fun hclock => hend fun r hmem => ?_, fun hclock => ?_⟩
  · exact (hpast r hmem).idles_swept (hfound r hmem ht.le) (hearly r hmem ht)
  · obtain ⟨j, -, hjm, e⟩ := hspaced.time r hmem
    have hle : j * p.sweepEvery ≤ m * p.sweepEvery := Nat.mul_le_mul_right _ hjm
    have hclock' := hm.le_clock
    omega
  · have hnk : n < k := by
      have hle := h.le_clock
      exact Nat.lt_of_mul_lt_mul_right (a := p.sweepEvery) (by omega)
    have hkm : k < m + 1 := by
      have hlt := (hm.ahead hrest).1
      exact Nat.lt_of_mul_lt_mul_right (a := p.sweepEvery) (by omega)
    obtain ⟨r, hmem, e⟩ := hspaced.exists_round k hnk (by omega)
    have hi' := hfound r hmem e.le
    have hgone := (hpast r hmem).removed_swept hi' (e.symm ▸ hlate)
    exact ⟨(hpast r hmem).removed hrest.sound.inStep hgone, r, hmem, e, hi', hgone⟩

/-- A sweeper keeps to its schedule in the course of several events: its rounds come at every
interval from its beginning on, and a connection that nothing else affects is removed in the first
that comes too late for it. -/
structure OnSchedule (p : Policy) (came : Nat) (s : Service) (es : List Event) : Prop where
  lone : s.sweepers.length ≤ 1
  times : (s.trace rounds es).map Round.time =
    schedule p came (((s.run es).clock - came) / p.sweepEvery)
  removes : ∀ es₁ es₂, es = es₁ ++ es₂ → ∀ (id : ConnectionId) (l : LineNumber) (t : Nat),
    (s.run es₁).board.Idles id l t → (s.run es₁).RetainsAll (Board.Idles id l t) es₂ →
    ∀ k, (s.run es₁).clock < came + k * p.sweepEvery →
      t + p.staleAfter < came + k * p.sweepEvery →
      (∀ j < k, (s.run es₁).clock < came + j * p.sweepEvery →
        came + j * p.sweepEvery ≤ t + p.staleAfter) →
      (∀ r ∈ (s.run es₁).trace rounds es₂, r.time < came + k * p.sweepEvery →
        r.swept.Idles id l t) ∧
      ((s.run es).clock < came + k * p.sweepEvery → (s.run es).board.Idles id l t) ∧
      (came + k * p.sweepEvery ≤ (s.run es).clock → (s.run es).board.Removed id l ∧
        ∃ r ∈ s.trace rounds es, r.time = came + k * p.sweepEvery ∧ r.board.Idles id l t ∧
          r.swept.Removed id l)

theorem Sweeps.onSchedule {p : Policy} {came : Nat} (h : Sweeps p came 0 s) (hs : s.AtRest)
    (hf : FreshRun s es) (hno : ∀ e ∈ es, e ≠ .sweeper ∧ e ≠ .call .shutdown) :
    OnSchedule p came s es where
  lone := by rw [h.sweepers, List.length_singleton]
  times := by
    obtain ⟨n, hn, htimes⟩ := h.run hs hf hno
    rw [← hn.count_eq (hs.run hf).1]
    exact htimes
  removes := by
    rintro es₁ es₂ rfl id l t hi hr k hnext hlate hfirst
    obtain ⟨hf₁, hf₂⟩ := freshRun_append.1 hf
    obtain ⟨n₁, hn₁, -⟩ := h.run hs hf₁ fun e he => hno e (List.mem_append_left es₂ he)
    obtain ⟨hkept, hend, hlast⟩ := hn₁.removes (hs.run hf₁).1 hf₂
      (fun e he => hno e (List.mem_append_right es₁ he)) hi hr hnext hlate hfirst
    rw [run_append]
    refine ⟨hkept, hend, fun hclock => ?_⟩
    obtain ⟨hgone, r, hmem, hround⟩ := hlast hclock
    exact ⟨hgone, r, trace_append rounds s es₁ es₂ ▸ List.mem_append_right _ hmem, hround⟩

/-- No round is due of a sweeper that has ended at once, before the time that the clock cannot
tell. -/
theorem Unswept.onSchedule {p : Policy} {came : Nat} (h : s.Unswept)
    (hlone : s.sweepers.length ≤ 1) (hs : s.AtRest) (hf : FreshRun s es)
    (hno : ∀ e ∈ es, e ≠ .sweeper ∧ e ≠ .call .shutdown) (hcame : came ≤ s.clock)
    (hpos : 0 < p.sweepEvery) (hnext : (s.run es).clock < came + p.sweepEvery) :
    OnSchedule p came s es where
  lone := hlone
  times := by
    have hzero : ((s.run es).clock - came) / p.sweepEvery = 0 := Nat.div_eq_of_lt (by omega)
    rw [(h.run hs hf hno).2, hzero]
    rfl
  removes := by
    rintro es₁ es₂ rfl id l t hi hr k hk - -
    obtain ⟨hf₁, hf₂⟩ := freshRun_append.1 hf
    obtain ⟨h₁, -⟩ := h.run hs hf₁ fun e he => hno e (List.mem_append_left es₂ he)
    have hrest₁ := (hs.run hf₁).1
    obtain ⟨-, hnone⟩ := h₁.run hrest₁ hf₂ fun e he => hno e (List.mem_append_right es₁ he)
    have hidles := hr.linked hrest₁ hf₂
    have hle := hrest₁.le_clock_run hf₂
    rw [hnone] at hidles ⊢
    rw [run_append] at hnext ⊢
    refine ⟨by simp, fun _ => hidles hi, fun hclock => ?_⟩
    -- it would be the first round or a later one
    rcases k with - | k
    · have hle₁ := hs.le_clock_run hf₁
      omega
    · rw [Nat.succ_mul] at hclock
      omega

/-- **A sweeper begins**, where there is none before. -/
theorem Unswept.begins {p : Policy} (h : s.Unswept) (hnone : s.sweepers = []) (hs : s.AtRest)
    (hp : s.policy = p) (hpos : 0 < p.sweepEvery) (hf : FreshRun s.startSweeper es)
    (hno : ∀ e ∈ es, e ≠ .sweeper ∧ e ≠ .call .shutdown)
    (hclock : (s.startSweeper.run es).clock < p.host.horizon) :
    s.rounds .sweeper = [] ∧ OnSchedule p s.clock s.startSweeper es := by
  have hbegun : s.startSweeper.AtRest := (hs.after (e := .sweeper) trivial).atRest
  rcases Nat.lt_or_ge (s.clock + p.sweepEvery) p.host.horizon with hfits | hlate
  · obtain ⟨hsweeps, hnone'⟩ := h.sweeps hnone hs hp hpos hfits
    exact ⟨hnone', hsweeps.onSchedule hbegun hf hno⟩
  · obtain ⟨hunswept, hnone'⟩ := h.startSweeper hs (hp.symm ▸ hlate)
    have hnow := (hs.settlesNow (e := .sweeper) trivial trivial).clock
    refine ⟨hnone', hunswept.onSchedule ?_ hbegun hf hno hnow.ge hpos (hclock.trans_le hlate)⟩
    have hsweepers : s.startSweeper.sweepers.length = (s.sweepers ++ [_]).length :=
      (congrArg List.length (persists_arrive (s.stirring .sweeper) s.clock).2).trans
        (length_sweepAll _ _ _)
    rw [hsweepers, hnone]
    exact Nat.le_refl 1

/-- **The rounds of one sweeper.**  Let a sweeper with an interval begin, and no other sweeper nor
the end, and let the clock tell all the times of the run.  It has a round at every interval from its
beginning on and at no other time, whatever happens and however time is divided.  The service holds
each of these rounds as it comes to its time, and sweeps its board at no other moment.  A round
removes exactly those who are closed or have not been heard of for too long, leaves nobody
registered who is, and whoever is closed or removed in it stays so.

So a connection that nothing else takes off or closes is found and left alone by every round until
the first that comes too long after the last sign of life before it, and is removed by that one: the
service has its name in no index any more.  If it gives no sign of life any more, that is the first
round by which the time allowed is over. -/
theorem swept_on_schedule (policy : Policy) (hpos : 0 < policy.sweepEvery) (check : Check)
    (supply : Nat → Draw) {es₀ es : List Event} {s : Service}
    (hf : FreshRun (start policy check supply) (es₀ ++ .sweeper :: es))
    (hs : (start policy check supply).run es₀ = s)
    (hno : ∀ e ∈ es₀ ++ es, e ≠ .sweeper ∧ e ≠ .call .shutdown)
    (hclock : (s.startSweeper.run es).clock < policy.host.horizon) :
    let log := (start policy check supply).trace rounds (es₀ ++ .sweeper :: es)
    let u := s.startSweeper.run es
    log.map Round.time = schedule policy s.clock ((u.clock - s.clock) / policy.sweepEvery) ∧
      (∀ r ∈ log, (∃ m ∈ s.startSweeper.trace moments es, r.HeldAt m) ∧
        r.board.policy = policy ∧ r.board.Swept r.time r.swept ∧
        (∀ l, r.swept.ClosedAt l → u.board.ClosedAt l) ∧
        ∀ id l, r.swept.Removed id l → u.board.Removed id l) ∧
      (∀ m ∈ s.startSweeper.trace moments es, (∀ r ∈ log, ¬ r.HeldAt m) →
        m.1.boardSwept m.2 = m.1.board) ∧
      (∀ es₁ es₂, es = es₁ ++ es₂ → ∀ (id : ConnectionId) (l : LineNumber),
        (s.startSweeper.run es₁).board.Stays id l →
        (s.startSweeper.run es₁).RetainsAll (Board.Stays id l) es₂ →
        (∀ log₁ r log₂, (s.startSweeper.run es₁).trace rounds es₂ = log₁ ++ r :: log₂ →
          (∀ r' ∈ log₁, r'.InTime policy id l) → ∃ t, r.board.Idles id l t ∧
            (r.time ≤ t + policy.staleAfter → r.swept.Idles id l t) ∧
            (t + policy.staleAfter < r.time →
              r.swept.Removed id l ∧ u.board.Removed id l)) ∧
        ((∀ r ∈ (s.startSweeper.run es₁).trace rounds es₂, r.InTime policy id l) →
          u.board.Stays id l)) ∧
      ∀ es₁ es₂, es = es₁ ++ es₂ → ∀ (id : ConnectionId) (l : LineNumber) (t : Nat),
        (s.startSweeper.run es₁).board.Idles id l t →
        (s.startSweeper.run es₁).RetainsAll (Board.Idles id l t) es₂ →
        ∀ k, (s.startSweeper.run es₁).clock < s.clock + k * policy.sweepEvery →
          t + policy.staleAfter < s.clock + k * policy.sweepEvery →
          (∀ j < k, (s.startSweeper.run es₁).clock < s.clock + j * policy.sweepEvery →
            s.clock + j * policy.sweepEvery ≤ t + policy.staleAfter) →
          (∀ r ∈ (s.startSweeper.run es₁).trace rounds es₂,
            r.time < s.clock + k * policy.sweepEvery → r.swept.Idles id l t) ∧
          (u.clock < s.clock + k * policy.sweepEvery → u.board.Idles id l t) ∧
          (s.clock + k * policy.sweepEvery ≤ u.clock → u.board.Removed id l ∧ ∃ r ∈ log,
            r.time = s.clock + k * policy.sweepEvery ∧ r.board.Idles id l t ∧
              r.swept.Removed id l) := by
  intro log u
  have h := atRest_start policy check supply
  obtain ⟨hf₀, -, hf₁⟩ := freshRun_append.1 hf
  have hno₀ := fun e he => hno e (List.mem_append_left es he)
  have hno₁ := fun e he => hno e (List.mem_append_right es₀ he)
  obtain ⟨hrest, hpolicy⟩ := h.run hf₀
  obtain ⟨hunswept, hnone⟩ := Unswept.run (s := start policy check supply)
    ⟨rfl, fun w hw => by cases hw⟩ h hf₀ hno₀
  have hlength := (length_sweepers_run h hf₀ hno₀).1
  rw [hs] at hunswept hrest hpolicy hf₁ hlength
  have hpolicy : s.policy = policy := hpolicy
  have hempty : s.sweepers = [] := List.length_eq_zero_iff.1 hlength
  have hafter := hrest.after (e := .sweeper) trivial
  have hbegun : s.startSweeper.AtRest := hafter.atRest
  have hpolicy' : s.startSweeper.policy = policy := hafter.policy.trans hpolicy
  have hrestu : u.AtRest := (hbegun.run hf₁).1
  obtain ⟨hnone', hsched⟩ := hunswept.begins hempty hrest hpolicy hpos hf₁ hno₁ hclock
  have hlog : log = s.startSweeper.trace rounds es := trace_sweeper hs hnone hnone'
  obtain ⟨hheld, hstill⟩ := heldAt_of_run hbegun hf₁ hno₁ hsched.lone
  rw [hlog]
  refine ⟨hsched.times, fun r hr => ?_, hstill, ?_, hsched.removes⟩
  · have hpast := past_trace hbegun hf₁ r hr
    exact ⟨hheld r hr, hpast.policy.trans hpolicy', hpast.inStep.swept r.time,
      fun _ => hpast.onward.closedAt, fun _ _ => hpast.removed hrestu.sound.inStep⟩
  · rintro es₁ es₂ rfl id l hi hr
    obtain ⟨hf₁, hf₂⟩ := freshRun_append.1 hf₁
    obtain ⟨hrest₁, hpolicy₁⟩ := hbegun.run hf₁
    have hfinds := hr.finds hrest₁ hf₂ hi
    rw [hpolicy₁, hpolicy', ← run_append] at hfinds
    exact hfinds

/-- After five seconds a sweeper begins, and ten seconds later a connection comes. -/
def attended : Service :=
  (((start .standard firm draws).run [.elapse 5000]).startSweeper).run
    [.elapse 10000, .call (.enter 7 4 15000)]

/-- It stays as it is in the second round, and is removed in the third. -/
theorem swept_on_schedule_attended :
    FreshRun (start .standard firm draws) ([.elapse 5000] ++ .sweeper ::
        [.elapse 10000, .call (.enter 7 4 15000), .elapse 100000]) ∧
      attended.board.Idles 7 0 15000 ∧
      ((start .standard firm draws).trace rounds ([.elapse 5000] ++ .sweeper ::
        [.elapse 10000, .call (.enter 7 4 15000), .elapse 100000])).map Round.time =
          [35000, 65000, 95000] ∧
      (∀ r ∈ attended.trace rounds [.elapse 100000], r.time < 95000 → r.swept.Idles 7 0 15000) ∧
      (attended.run [.elapse 100000]).board.Removed 7 0 ∧
      ∃ r ∈ (start .standard firm draws).trace rounds ([.elapse 5000] ++ .sweeper ::
        [.elapse 10000, .call (.enter 7 4 15000), .elapse 100000]),
        r.time = 95000 ∧ r.swept.Removed 7 0 := by
  have hf : FreshRun (start .standard firm draws) ([.elapse 5000] ++ .sweeper ::
      [.elapse 10000, .call (.enter 7 4 15000), .elapse 100000]) := by decide +kernel
  have hidles : attended.board.Idles 7 0 15000 := by
    refine ⟨by decide +kernel, ?_⟩
    have hline : (attended.board.lines[0]?).map (fun c => (c.closed, c.lastSeen)) =
        some (false, 15000) := by decide +kernel
    obtain ⟨c, hc, e⟩ := Option.map_eq_some_iff.1 hline
    exact ⟨c, hc, by simpa using e⟩
  -- nobody is at a socket
  have hsockets : ∀ m ∈ attended.moments (.elapse 100000), m.1.sockets.length = 0 := by
    decide +kernel
  have hwaits : attended.Retains (Board.Idles 7 0 15000) (.elapse 100000) := by
    refine ⟨id, fun m hm hi => ?_⟩
    have hnobody : m.1.sockets = [] := List.length_eq_zero_iff.1 (hsockets m hm)
    rw [arrive, settle, hnobody]
    exact hi
  have hpos : 0 < Policy.standard.sweepEvery := by decide +kernel
  have hclock : (((start .standard firm draws).run [.elapse 5000]).startSweeper.run
      [.elapse 10000, .call (.enter 7 4 15000), .elapse 100000]).clock <
        Policy.standard.host.horizon := by
    decide +kernel
  obtain ⟨htimes, -, -, -, hall⟩ :=
    swept_on_schedule .standard hpos firm draws hf rfl (by simp) hclock
  obtain ⟨hkept, -, hremoved⟩ := hall [.elapse 10000, .call (.enter 7 4 15000)] [.elapse 100000] rfl
    7 0 15000 hidles hwaits.retainsAll 3 (by decide +kernel) (by decide +kernel) (by decide +kernel)
  refine ⟨hf, hidles, htimes.trans ?_, hkept, ?_⟩
  · decide +kernel
  · obtain ⟨hgone, r, hr, htime, -, hswept⟩ := hremoved (by decide +kernel)
    have hend : attended.run [.elapse 100000] =
        ((start .standard firm draws).run [.elapse 5000]).startSweeper.run
          [.elapse 10000, .call (.enter 7 4 15000), .elapse 100000] :=
      (run_append _ [.elapse 10000, .call (.enter 7 4 15000)] [.elapse 100000]).symm
    rw [hend]
    exact ⟨hgone, r, hr, htime, hswept⟩

end Switchboard.Service
