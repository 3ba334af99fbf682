/-
Switchboard/Proofs/Settings/Outcome.lean

What settings come to.

`Usable` settings are those to which there is no objection.  They have a
policy exactly if their stale age, a multiple of the probe interval, is a
duration; if it is none, nothing is said and no policy comes of them
(`stale_age_fits_iff`).  No objection looks at the product of the two, so
that the command line can bring this about.  It takes an interval of more
than a hundred years: what the command line gives is `InRange`, argument by
argument and variable by variable, and with a multiplier in range every
shorter interval has a stale age.
-/
import Switchboard.Proofs.Json.Formed
import Switchboard.Startup

namespace Switchboard.Settings

variable {s s' : Settings} {p : Policy}

/-! ### Usable settings -/

/-- Settings to which there is no objection. -/
structure Usable (s : Settings) : Prop where
  queue : 0 < s.queueCapacity
  probing : 0 < s.probeSeconds
  sweeping : 0 < s.sweepSeconds
  waiting : s.probeSeconds < s.readWaitSeconds
  slack : 2 ≤ s.staleMultiplier

theorem objection?_eq_none_iff : s.objection? = none ↔ s.Usable := by
  rw [objection?]
  constructor
  · intro h
    split_ifs at h with hqueue hintervals hwait hslack
    obtain ⟨hprobe, hsweep⟩ := not_or.1 hintervals
    exact ⟨by omega, by omega, by omega, by omega, by omega⟩
  · intro h
    have hintervals : ¬ (s.probeSeconds = 0 ∨ s.sweepSeconds = 0) :=
      not_or.2 ⟨Nat.ne_of_gt h.probing, Nat.ne_of_gt h.sweeping⟩
    rw [if_neg (Nat.ne_of_gt h.queue), if_neg hintervals, if_neg (Nat.not_le.2 h.waiting),
      if_neg (Nat.not_lt.2 h.slack)]

/-- Is the stale age one that can be represented? -/
def StaleAgeFits (s : Settings) : Prop := s.probeSeconds * s.staleMultiplier ≤ longestDuration

/-- The policy of usable settings, as far as their stale age fits. -/
theorem outcome_eq_policy_iff : s.outcome = .policy p ↔ s.Usable ∧ s.StaleAgeFits ∧
    p = { queueCapacity := s.queueCapacity
          probeEvery := Policy.seconds s.probeSeconds
          readWait := Policy.seconds s.readWaitSeconds
          writeWait := Policy.seconds s.writeWaitSeconds
          sweepEvery := Policy.seconds s.sweepSeconds
          staleAfter := Policy.seconds (s.probeSeconds * s.staleMultiplier)
          maxFrame := s.maxFrameBytes } := by
  rw [← objection?_eq_none_iff, StaleAgeFits, outcome]
  rcases s.objection? with - | reason
  · simp only [true_and]
    split
    · rename_i hlong
      exact iff_of_false (by simp) fun h => absurd h.1 (Nat.not_le.2 hlong)
    · rename_i hfits
      rw [Outcome.policy.injEq]
      exact ⟨fun h => ⟨Nat.not_lt.1 hfits, h.symm⟩, fun h => h.2.symm⟩
  · simp

theorem outcome_eq_overflow_iff : s.outcome = .overflow ↔ s.Usable ∧ ¬ s.StaleAgeFits := by
  rw [← objection?_eq_none_iff, StaleAgeFits, outcome]
  rcases s.objection? with - | reason
  · simp only [true_and, Nat.not_le]
    split
    · rename_i hlong
      exact iff_of_true rfl hlong
    · rename_i hfits
      exact iff_of_false (by simp) hfits
  · simp

/-- A refusal gives the objection as its reason. -/
theorem outcome_eq_rejected_iff {t : Trouble} :
    s.outcome = .rejected t ↔ ∃ reason, s.objection? = some reason ∧ t = .settings reason := by
  rw [outcome]
  rcases s.objection? with - | reason
  · simp only
    split <;> simp
  · simp only [Outcome.rejected.injEq, Option.some.injEq, exists_eq_left']
    exact eq_comm

/-! ### The command line -/

/-- Settings whose numbers are of the width that they are read with. -/
structure InRange (s : Settings) : Prop where
  queue : s.queueCapacity < 2 ^ 64
  probing : s.probeSeconds < 2 ^ 64
  waiting : s.readWaitSeconds < 2 ^ 64
  writing : s.writeWaitSeconds < 2 ^ 64
  sweeping : s.sweepSeconds < 2 ^ 64
  multiplier : s.staleMultiplier < 2 ^ 32
  frame : s.maxFrameBytes < 2 ^ 64

theorem inRange_standard : standard.InRange :=
  ⟨by decide, by decide, by decide, by decide, by decide, by decide, by decide⟩

theorem le_of_unsigned? {bound n : Nat} {cs : List Char} (h : unsigned? bound cs = some n) :
    n ≤ bound := by
  obtain ⟨m, -, h⟩ := Option.bind_eq_some_iff.1 h
  split at h
  · rename_i hm
    cases h
    exact hm
  · cases h

theorem lt_of_count64? {n : Nat} {cs : List Char} (h : count64? cs = some n) : n < 2 ^ 64 :=
  Nat.lt_succ_of_le (le_of_unsigned? h)

theorem lt_of_count32? {n : Nat} {cs : List Char} (h : count32? cs = some n) : n < 2 ^ 32 := by
  rw [count32?.eq_def] at h
  split at h
  · -- behind a minus sign there is only a zero
    obtain ⟨m, -, h⟩ := Option.bind_eq_some_iff.1 h
    split at h
    · cases h
      decide
    · cases h
  · exact Nat.lt_succ_of_le (le_of_unsigned? h)

/-- An option leaves the settings in range, as its value is read with a bound. -/
theorem InRange.set {o : Opt} {value : String} (h : s.InRange) (hs : s.set o value = .ok s') :
    s'.InRange := by
  cases o with
  | bind | tokens =>
    cases hs
    exact ⟨h.queue, h.probing, h.waiting, h.writing, h.sweeping, h.multiplier, h.frame⟩
  | queueCapacity =>
    simp only [Settings.set] at hs
    split at hs <;> cases hs
    rename_i n hn
    exact { h with queue := lt_of_count64? hn }
  | probeSeconds =>
    simp only [Settings.set] at hs
    split at hs <;> cases hs
    rename_i n hn
    exact { h with probing := lt_of_count64? hn }
  | readWaitSeconds =>
    simp only [Settings.set] at hs
    split at hs <;> cases hs
    rename_i n hn
    exact { h with waiting := lt_of_count64? hn }
  | writeWaitSeconds =>
    simp only [Settings.set] at hs
    split at hs <;> cases hs
    rename_i n hn
    exact { h with writing := lt_of_count64? hn }
  | sweepSeconds =>
    simp only [Settings.set] at hs
    split at hs <;> cases hs
    rename_i n hn
    exact { h with sweeping := lt_of_count64? hn }
  | staleMultiplier =>
    simp only [Settings.set] at hs
    split at hs <;> cases hs
    rename_i n hn
    exact { h with multiplier := lt_of_count32? hn }
  | maxFrameBytes =>
    simp only [Settings.set] at hs
    split at hs <;> cases hs
    rename_i n hn
    exact { h with frame := lt_of_count64? hn }

variable {l l' : Line} {q q' : Pending}

theorem InRange.take {o : Opt} {value : String} (h : l.settings.InRange)
    (hl : l.take o value = .ok l') : l'.settings.InRange := by
  rw [Line.take] at hl
  split at hl
  · cases hl
  · obtain ⟨s, hs, hl⟩ := bind_eq_ok hl
    cases hl
    exact h.set hs

theorem InRange.settle (h : l.settings.InRange) (hl : l.settle q = .ok l') :
    l'.settings.InRange := by
  cases q with
  | none =>
    cases hl
    exact h
  | awaiting o => cases hl
  | holding o value => exact h.take hl

theorem InRange.long {cs : List Char} (h : l.settings.InRange)
    (hl : l.long q cs = .ok (l', q')) : l'.settings.InRange := by
  rw [Line.long] at hl
  simp only at hl
  split at hl
  · -- the value comes with the name
    obtain ⟨l₁, hl₁, hl⟩ := bind_eq_ok hl
    obtain ⟨l₂, hl₂, hl⟩ := bind_eq_ok hl
    cases hl
    exact (h.settle hl₁).take hl₂
  · obtain ⟨l₁, hl₁, hl⟩ := bind_eq_ok hl
    cases hl
    exact h.settle hl₁
  · -- no flag leaves a line behind
    split at hl
    · split at hl
      · cases hl
      · obtain ⟨_, -, hl⟩ := bind_eq_ok hl
        cases hl
    · cases hl

theorem InRange.readArguments {arguments : List String} (h : l.settings.InRange)
    (hl : readArguments l q arguments = .ok l') : l'.settings.InRange := by
  induction arguments generalizing l q with
  | nil => exact h.settle hl
  | cons a arguments ih =>
    rw [Settings.readArguments.eq_def] at hl
    simp only at hl
    split at hl
    · -- a lone pair of dashes ends the line
      split at hl
      · exact h.settle hl
      · cases hl
    · obtain ⟨⟨l₁, q₁⟩, hl₁, hl⟩ := bind_eq_ok hl
      exact ih (h.long hl₁) hl
    · cases hl
    · split at hl
      · exact ih h hl
      · cases hl

theorem InRange.readVariables {environment : List (String × String)} {os : List Opt}
    (h : l.settings.InRange) (hs : readVariables environment l os = .ok s) : s.InRange := by
  induction os generalizing l with
  | nil =>
    cases hs
    exact h
  | cons o os ih =>
    rw [Settings.readVariables] at hs
    split at hs
    · split at hs
      · exact ih h hs
      · obtain ⟨s₁, hs₁, hs⟩ := bind_eq_ok hs
        exact ih (l := ⟨s₁, l.given⟩) (h.set hs₁) hs
    · exact ih h hs

/-- **Whatever the command line gives is in range.** -/
theorem inRange_ofArguments {arguments : List String} {environment : List (String × String)}
    (h : ofArguments arguments environment = .ok s) : s.InRange := by
  obtain ⟨l, hl, h⟩ := bind_eq_ok h
  have hline : l.settings.InRange := InRange.readArguments (l := ⟨standard, []⟩) inRange_standard hl
  exact hline.readVariables h

/-- With a multiplier in range, an interval of up to 2 ^ 32 + 1 seconds has a stale age. -/
theorem InRange.staleAgeFits (h : s.InRange) (hprobe : s.probeSeconds ≤ 2 ^ 32 + 1) :
    s.StaleAgeFits := by
  have hmultiplier : s.staleMultiplier ≤ 2 ^ 32 - 1 := Nat.le_pred_of_lt h.multiplier
  exact Nat.mul_le_mul hprobe hmultiplier

/-! ### The start -/

theorem withPolicy_ne_breakdown (s : Settings) (p : Policy) :
    Startup.withPolicy s p ≠ .breakdown := by
  rw [Startup.withPolicy]
  split
  · simp [Startup.refusal, Startup.breakdown]
  · split <;> simp [Startup.refusal, Startup.breakdown]

/-- The process breaks down as it starts exactly if the stale age that it is given does not fit. -/
theorem breakdown_iff {arguments : List String} {environment : List (String × String)} :
    Startup.ofArguments arguments environment = .breakdown ↔
      ∃ s, ofArguments arguments environment = .ok s ∧ s.Usable ∧ ¬ s.StaleAgeFits := by
  simp only [← outcome_eq_overflow_iff]
  rw [Startup.ofArguments]
  rcases ofArguments arguments environment with e | s
  · cases e <;> simp [Startup.usage, Startup.breakdown]
  · rcases h : s.outcome with p | t | -
    · simp [h, withPolicy_ne_breakdown]
    · simp [h, Startup.refusal, Startup.breakdown]
    · simp [h]

/-! ### All together -/

/-- **Usable settings have a policy unless their stale age is too long.**  Settings that are not
usable are rejected with a reason; the others have a policy, with the stale age asked for and at
least twice the probe interval, or come to nothing.  So does the process that is started with them,
and by command line and environment that takes an interval of more than 2 ^ 32 + 1 seconds. -/
theorem stale_age_fits_iff (s : Settings) :
    ((∃ reason, s.outcome = .rejected (.settings reason)) ↔ ¬ s.Usable) ∧
    ((∃ p, s.outcome = .policy p ∧ p.probeEvery = Policy.seconds s.probeSeconds ∧
        p.staleAfter = s.staleMultiplier * p.probeEvery ∧ 2 * p.probeEvery ≤ p.staleAfter) ↔
      s.Usable ∧ s.probeSeconds * s.staleMultiplier < 2 ^ 64) ∧
    (s.outcome = .overflow ↔ s.Usable ∧ 2 ^ 64 ≤ s.probeSeconds * s.staleMultiplier) ∧
    ∀ arguments environment,
      (Startup.ofArguments arguments environment = .breakdown ↔
        ∃ s, ofArguments arguments environment = .ok s ∧ s.outcome = .overflow) ∧
      ∀ s, ofArguments arguments environment = .ok s → s.probeSeconds ≤ 2 ^ 32 + 1 →
        s.outcome ≠ .overflow := by
  have hfits : s.StaleAgeFits ↔ s.probeSeconds * s.staleMultiplier < 2 ^ 64 := Nat.lt_succ_iff.symm
  refine ⟨?_, ?_, ?_, fun arguments environment => ⟨?_, fun s hs hprobe ho => ?_⟩⟩
  · rw [← objection?_eq_none_iff, ← ne_eq, Option.ne_none_iff_exists']
    simp [outcome_eq_rejected_iff]
  · rw [← hfits]
    constructor
    · rintro ⟨p, hp, -⟩
      obtain ⟨husable, hage, -⟩ := outcome_eq_policy_iff.1 hp
      exact ⟨husable, hage⟩
    · rintro ⟨husable, hage⟩
      have hslack := husable.slack
      refine ⟨_, outcome_eq_policy_iff.2 ⟨husable, hage, rfl⟩, rfl, ?_, ?_⟩
      · simp only [Policy.seconds]
        ring
      · simp only [Policy.seconds]
        rw [← Nat.mul_assoc, Nat.mul_comm 2]
        exact Nat.mul_le_mul_right 1000 (Nat.mul_le_mul_left s.probeSeconds hslack)
  · rw [outcome_eq_overflow_iff, hfits, Nat.not_lt]
  · simp only [breakdown_iff, outcome_eq_overflow_iff]
  · exact (outcome_eq_overflow_iff.1 ho).2 ((inRange_ofArguments hs).staleAgeFits hprobe)

/-- An interval of 2 ^ 63 seconds, and the usual multiplier. -/
def aeons : List String :=
  ["--ping-interval-secs", "9223372036854775808", "--pong-wait-secs", "9223372036854775809"]

/-- Not whatever the command line gives is answered by a refusal or by a policy. -/
theorem not_answered_aeons : ¬ ∀ arguments environment s,
    ofArguments arguments environment = .ok s →
    (∃ reason, s.outcome = .rejected (.settings reason)) ∨ ∃ p, s.outcome = .policy p := by
  intro hall
  have hs : ofArguments aeons [] =
      .ok { standard with probeSeconds := 2 ^ 63, readWaitSeconds := 2 ^ 63 + 1 } := by rfl
  have ho : ({ standard with probeSeconds := 2 ^ 63, readWaitSeconds := 2 ^ 63 + 1 } :
      Settings).outcome = .overflow := by rfl
  rcases hall _ _ _ hs with ⟨reason, h⟩ | ⟨p, h⟩
  · cases ho.symm.trans h
  · cases ho.symm.trans h

end Switchboard.Settings
