/-
Switchboard/Proofs/Service/Moments.lean

The moments at which everyone does what is due.

After most events the service settles once, at the present time.  While time
passes it settles at every stop of the clock.  `moments` lists these moments,
each with the service as it is just before and with the time that it is.

An event is then seen in two parts: what it is by itself, `stirring`, and the
moments that follow.  `AtRest.after_by_moments` is the induction over them,
for what holds of the service together with the moments so far: in each of them
the clock comes to a time without passing a sweep or the end of a wait.
-/
import Switchboard.Proofs.Board.Sweeping
import Switchboard.Proofs.Service.Aftermath
import Switchboard.Proofs.Service.Steady

namespace Switchboard

/-- Is the next sweep due by the time given? -/
def Sweeper.Due (now : Nat) (w : Sweeper) : Prop := ∃ due, w.due = some due ∧ due ≤ now

namespace Service

variable {s u : Service} {e : Event} {now : Nat} {k : SocketNumber} {l : LineNumber} {v : Served}
  {b : Board} {w : Sweeper} {ws : List Sweeper} {c : Connection}

/-! ### What an event is by itself -/

/-- The service after an event, before anyone does what follows. -/
def stirring (s : Service) : Event → Service
  | .call c => { s with board := s.board.after c }
  | .sweeper => { s with sweepers := s.sweepers ++ [.first s.policy s.clock] }
  | .accept a => s.join a
  | .receive k f => s.hear k f
  | .endOfFrames k => s.breakOff k
  | .vanish k => (s.modifyServed k fun v => v.withPipe v.socket.pipe.vanish).breakOff k
  | .sever k => s.modifyServed k fun v => v.withPipe v.socket.pipe.vanish
  | .stop k => s.stop k
  | .resume k => s.modifyServed k fun v =>
      let probed := v.socket.pipe.held.contains .ping
      let v := v.withPipe v.socket.pipe.resume
      if probed then v.answerProbe s.policy s.clock else v
  | .forget => s.forget
  | .elapse _ => s

/-- An event after which the service settles, and once only. -/
def Event.Settling : Event → Prop
  | .stop _ | .forget | .elapse _ => False
  | _ => True

/-- An event that takes no time is followed by a settling. -/
theorem after_eq_settle (he : e.Settling) : s.after e = (s.stirring e).settle := by
  cases e with
  | stop | forget | elapse => exact he.elim
  | _ => rfl

/-- An event by itself leaves a service sound, and nobody is late by it. -/
theorem stirred_stirring (h : s.Sound) (hf : e.Fresh s) (he : e.Settling) :
    Stirred s (s.stirring e) := by
  cases e with
  | call c => exact stirred_call h c hf
  | sweeper => exact stirred_sweeper h
  | accept a => exact stirred_join h hf a
  | receive k f => exact stirred_hear h k f
  | endOfFrames k => exact stirred_breakOff h k
  | vanish k => exact stirred_vanish h k
  | sever k => exact stirred_sever h k
  | resume k => exact stirred_resume h k
  | stop | forget | elapse => exact he.elim

/-- By itself an event takes no time. -/
theorem steady_stirring (s : Service) (e : Event) : Steady s (s.stirring e) := by
  cases e with
  | accept a => exact steady_join s a
  | receive k f => exact steady_hear s k f
  | endOfFrames k => exact steady_breakOff s k
  | vanish k =>
    rw [stirring, vanish_eq]
    exact steady_modifyServed s k _
  | sever k => exact steady_modifyServed s k _
  | resume k => exact steady_modifyServed s k _
  | call | sweeper | stop | forget | elapse => exact ⟨rfl, rfl⟩

/-! ### What follows -/

/-- The service comes to rest at a moment, even if it has just been stirred. -/
theorem Sound.atRest_arrive (h : u.Sound) (hw : u.Within now) : (u.arrive now).AtRest :=
  atRest_settle (h.atClock hw.1) hw.2

/-- To arrive at a time is to have it on the clock. -/
theorem Sound.clock_arrive (h : u.Sound) (hw : u.Within now) : (u.arrive now).clock = now :=
  clock_settle (h.atClock hw.1) hw.2

theorem Sound.onward_arrive (h : u.Sound) (hw : u.Within now) :
    u.board.Onward (u.arrive now).board :=
  onward_settle (h.atClock hw.1) hw.2

theorem Sound.policy_arrive (h : u.Sound) (hw : u.Within now) :
    (u.arrive now).policy = u.policy :=
  (h.onward_arrive hw).policy

/-- The stops of the clock on its way to a time, each with the service before it. -/
def stopsTo (target : Nat) : (milliseconds : Nat) → Service → List (Service × Nat)
  | 0, s => [(s, target)]
  | n + 1, s =>
    match s.nextDue with
    | some t => if t < target then (s, t) :: (s.arrive t).stopsTo target n else [(s, target)]
    | none => [(s, target)]

/-- The moments in the course of an event at which everyone does what is due: the service just
before, and the time. -/
def moments (s : Service) : Event → List (Service × Nat)
  | .elapse milliseconds => s.stopsTo (s.clock + milliseconds) milliseconds
  | .stop _ | .forget => []
  | e => [(s.stirring e, s.clock)]

/-- It has one moment, which is now. -/
theorem moments_of_settling (he : e.Settling) : s.moments e = [(s.stirring e, s.clock)] := by
  cases e with
  | stop | forget | elapse => exact he.elim
  | _ => rfl

/-- **From moment to moment** until the clock has come to its target. -/
theorem AtRest.passTo_by_stops {P : Service → List (Service × Nat) → Prop} {target n : Nat}
    {ms : List (Service × Nat)} (h : s.AtRest) (hs : P s ms)
    (hP : ∀ {u : Service} {now : Nat} {ms : List (Service × Nat)}, u.Sound → u.Within now →
      P u ms → P (u.arrive now) (ms ++ [(u, now)]))
    (hle : s.clock ≤ target) (hn : target ≤ s.clock + n) :
    P (s.passTo target n) (ms ++ s.stopsTo target n) := by
  -- the last stop is the target itself
  have hlast : s.Reaches target → P (s.arrive target) (ms ++ [(s, target)]) :=
    fun hr => hP h.sound (h.within_of_reaches hr) hs
  induction n generalizing s ms with
  | zero =>
    refine hlast (reaches_target hle fun t ht => ?_)
    exact hn.trans (Nat.le_of_lt (nextDue_eq_some ht).1)
  | succ n ih =>
    rw [passTo, stopsTo]
    rcases e : s.nextDue with - | t
    · refine hlast (reaches_target hle fun t ht => ?_)
      cases e.symm.trans ht
    · by_cases ht : t < target
      · simp only [if_pos ht]
        have hr := reaches_next e
        have hw := h.within_of_reaches hr
        have hlt := (nextDue_eq_some e).1
        have hc := clock_arrive h hw
        have hrest := atRest_arrive h hw
        have hstop := hP h.sound hw hs
        rw [← List.singleton_append, ← List.append_assoc]
        exact ih hrest hstop (by omega) (by omega) fun hr' =>
          hP hrest.sound (hrest.within_of_reaches hr') hstop
      · simp only [if_neg ht]
        refine hlast (reaches_target hle fun t' ht' => ?_)
        cases e.symm.trans ht'
        exact Nat.le_of_not_lt ht

/-- The one moment of an event after which the service settles at once: it is now. -/
structure SettlesNow (s : Service) (e : Event) : Prop where
  sound : (s.stirring e).Sound
  within : (s.stirring e).Within s.clock
  arrive : (s.stirring e).arrive s.clock = s.after e
  clock : (s.after e).clock = s.clock
  policy : (s.stirring e).policy = s.policy

/-- So the service settles once. -/
theorem AtRest.settlesNow (h : s.AtRest) (hf : e.Fresh s) (he : e.Settling) :
    s.SettlesNow e := by
  have t := stirred_stirring h.sound hf he
  have hnow := (steady_stirring s e).clock
  have hwithin : (s.stirring e).Within s.clock :=
    ⟨hnow.le, fun w hw => hnow ▸ (t.ahead h.ahead).punctual w hw, t.onTime _ h.onTime⟩
  have hafter : (s.stirring e).arrive s.clock = s.after e := by
    rw [after_eq_settle he, Service.arrive, ← hnow]
  refine ⟨t.sound, hwithin, hafter, ?_, t.policy⟩
  rw [← hafter]
  exact t.sound.clock_arrive hwithin

/-- **From moment to moment** in the course of an event. -/
theorem AtRest.after_by_moments {P : Service → List (Service × Nat) → Prop} (h : s.AtRest)
    (hf : e.Fresh s) (hs : P (s.stirring e) [])
    (hP : ∀ {u : Service} {now : Nat} {ms : List (Service × Nat)}, u.Sound → u.Within now →
      P u ms → P (u.arrive now) (ms ++ [(u, now)])) : P (s.after e) (s.moments e) := by
  by_cases he : e.Settling
  · have hnow := h.settlesNow hf he
    rw [moments_of_settling he, ← hnow.arrive]
    exact hP hnow.sound hnow.within hs
  · cases e with
    | elapse milliseconds =>
      exact h.passTo_by_stops hs hP (Nat.le_add_right _ _) (Nat.le_refl _)
    | stop | forget => exact hs
    | _ => exact absurd trivial he

/-- The clock does not go back. -/
theorem AtRest.le_clock_after (h : s.AtRest) (hf : e.Fresh s) : s.clock ≤ (s.after e).clock := by
  refine h.after_by_moments (P := fun u _ => s.clock ≤ u.clock) hf (steady_stirring s e).clock.ge ?_
  intro u now _ hs hw hle
  exact hle.trans (hw.1.trans (hs.clock_arrive hw).ge)

/-- **Time does not run backwards.** -/
theorem AtRest.le_clock_run {es : List Event} (h : s.AtRest) (hf : FreshRun s es) :
    s.clock ≤ (s.run es).clock := by
  induction es generalizing s with
  | nil => exact Nat.le_refl _
  | cons e es ih => exact (h.le_clock_after hf.1).trans (ih (h.after hf.1).atRest hf.2)

/-- No event changes the rules. -/
theorem AtRest.policy_stirring (h : s.AtRest) (hf : e.Fresh s) :
    (s.stirring e).policy = s.policy := by
  by_cases he : e.Settling
  · exact (h.settlesNow hf he).policy
  · cases e with
    | stop | forget | elapse => rfl
    | _ => exact absurd trivial he

/-- The moments of an event are not later than its end, and all by the same rules. -/
theorem AtRest.mem_moments (h : s.AtRest) (hf : e.Fresh s) :
    ∀ m ∈ s.moments e, m.1.policy = s.policy ∧ m.2 ≤ (s.after e).clock := by
  refine (h.after_by_moments (P := fun u ms => u.policy = s.policy ∧
    ∀ m ∈ ms, m.1.policy = s.policy ∧ m.2 ≤ u.clock) hf ⟨h.policy_stirring hf, by simp⟩ ?_).2
  rintro u now ms hs hw ⟨hp, hms⟩
  have hclock := hs.clock_arrive hw
  refine ⟨(hs.policy_arrive hw).trans hp, List.forall_mem_append.2 ⟨fun m hm => ?_, ?_⟩⟩
  · obtain ⟨hp', hle⟩ := hms m hm
    exact ⟨hp', hle.trans (hw.1.trans hclock.ge)⟩
  · exact List.forall_mem_singleton.2 ⟨hp, hclock.ge⟩

/-! ### Sweepers at a moment -/

/-- A sweeper that is due sweeps. -/
theorem sweepOne_of_due (hb : b.closing = false) (hw : w.Due now) :
    (sweepOne now w b).2 = (b.sweep now).2 := by
  obtain ⟨due, hd, hle⟩ := hw
  rw [sweepOne, if_neg (by simp [hb]), hd]
  simp only [if_pos hle]

/-- And one that is not does nothing. -/
theorem sweepOne_of_not_due (h : b.closing = true ∨ ¬ w.Due now) : (sweepOne now w b).2 = b := by
  rw [sweepOne]
  split
  · rfl
  · rename_i hb
    split
    · rename_i due hd
      rw [if_neg fun hle => h.elim hb fun hno => hno ⟨due, hd, hle⟩]
    · rfl

/-- A sweep is due that finds the connection stale. -/
structure SweepsAway (s : Service) (now : Nat) (l : LineNumber) : Prop where
  begun : s.board.closing = false
  due : ∃ w ∈ s.sweepers, w.Due now
  stale : ∃ id, (id, l) ∈ s.board.stale now

/-- A sweeper either closes a connection or does not find it stale. -/
theorem getElem?_sweepAll_of_not_stale (hno : ∀ id, (id, l) ∉ b.stale now) (ws : List Sweeper) :
    (sweepAll now ws b).2.lines[l]? = b.lines[l]? := by
  induction ws generalizing b with
  | nil => rfl
  | cons w ws ih =>
    rw [sweepAll_cons]
    rcases sweepOne_eq_or now w b with e | e
    · rw [e]
      exact ih hno
    · rw [e]
      exact (ih (Board.not_mem_stale_sweep hno)).trans (Board.getElem?_sweep_of_not_mem hno)

theorem sweepAll_of_not_due (h : b.closing = true ∨ ∀ w ∈ ws, ¬ w.Due now) :
    (sweepAll now ws b).2 = b := by
  induction ws with
  | nil => rfl
  | cons w ws ih =>
    have hone : (sweepOne now w b).2 = b :=
      sweepOne_of_not_due (h.imp_right fun hno => hno w List.mem_cons_self)
    rw [sweepAll_cons, hone]
    exact ih (h.imp_right fun hno w' hw' => hno w' (List.mem_cons_of_mem w hw'))

/-- The first sweeper that is due closes whoever is stale. -/
theorem closedAt_sweepAll (hb : b.closing = false) (hw : ∃ w ∈ ws, w.Due now)
    (hstale : ∃ id, (id, l) ∈ b.stale now) (hc : b.lines[l]? = some c) :
    (sweepAll now ws b).2.ClosedAt l := by
  induction ws with
  | nil => simp at hw
  | cons w ws ih =>
    rw [sweepAll_cons]
    by_cases hd : w.Due now
    · obtain ⟨id, hm⟩ := hstale
      rw [sweepOne_of_due hb hd]
      exact (wanes_sweepAll now ws _).closed ⟨_, Board.getElem?_sweep_of_mem hm hc, rfl⟩
    · rw [sweepOne_of_not_due (.inr hd)]
      obtain ⟨w', hw', hd'⟩ := hw
      rcases List.mem_cons.1 hw' with rfl | hw'
      · exact absurd hd' hd
      · exact ih ⟨w', hw', hd'⟩

/-! ### Sockets at a moment -/

/-- **What a moment makes of a socket**: it takes its turn, with its connection as it is or closed
by a sweeper. -/
theorem Sound.served?_moment (h : u.Sound) (hw : u.Within now) (hv : u.served? k = some (l, v)) :
    ∃ c, (u.arrive now).served? k = some (l, (⟨c, v.socket⟩ : Served).turn u.policy now) ∧
      (u.SweepsAway now l → c.closed = true) ∧ (¬ u.SweepsAway now l → c = v.connection) := by
  obtain ⟨hx, hl, hc⟩ := served?_eq_some.1 hv
  have hsound := h.atClock hw.1
  obtain ⟨c, hc', hcases⟩ : ∃ c, (sweepAll now u.sweepers u.board).2.lines[l]? = some c ∧
      ((u.SweepsAway now l → c.closed = true) ∧ (¬ u.SweepsAway now l → c = v.connection)) := by
    by_cases haway : u.SweepsAway now l
    · obtain ⟨c, hc', hcl⟩ := closedAt_sweepAll haway.begun haway.due haway.stale hc
      exact ⟨c, hc', fun _ => hcl, fun hno => absurd haway hno⟩
    · refine ⟨v.connection, ?_, fun h => absurd h haway, fun _ => rfl⟩
      by_cases hstale : ∃ id, (id, l) ∈ u.board.stale now
      · rw [sweepAll_of_not_due]
        · exact hc
        · -- nobody sweeps
          rcases hb : u.board.closing with - | -
          · exact .inr fun w hw hd => haway ⟨hb, ⟨w, hw, hd⟩, hstale⟩
          · exact .inl rfl
      · rw [getElem?_sweepAll_of_not_stale fun id hm => hstale ⟨id, hm⟩]
        exact hc
  refine ⟨c, ?_, hcases⟩
  have hswept : ({ u with clock := now } : Service).runSweepers.served? k =
      some (l, ⟨c, v.socket⟩) := served?_eq_some.2 ⟨hx, hl, hc'⟩
  rw [arrive, served?_settle hsound hw.2, hswept]
  rfl

end Service

end Switchboard
