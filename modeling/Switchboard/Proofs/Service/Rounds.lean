/-
Switchboard/Proofs/Service/Rounds.lean

The rounds of the sweepers.

A `Round` is one sweep, with its time and the board that it finds, and `rounds`
reads off from the moments of an event the rounds of the sweepers in the course
of it.  If there is one sweeper, the service holds each of these rounds as it
comes to the time, and its board changes in no other way before the sockets have
their turns (`heldAt_of_lone`).  `Past` is what is known of a round for good once
it is over: whoever has been removed in it stays so.

For what becomes of a connection from one round to the next, `Linked` says that
the log of the rounds accounts for a property of the board: nothing but a round
takes it away.  It does so for a run (`RetainsAll.linked`) in which neither an
event by itself nor a socket in its turn takes the property away.
-/
import Switchboard.Proofs.Board.Sweeping
import Switchboard.Proofs.Service.Moments
import Switchboard.Proofs.Service.Replay

namespace Switchboard

instance (now : Nat) (w : Sweeper) : Decidable (w.Due now) :=
  decidable_of_iff (w.due.any (· ≤ now) = true) (by simp [Sweeper.Due, Option.any_eq_true])

/-- A sweep: its time and the board that it finds. -/
structure Round where
  time : Nat
  board : Board

/-- The board that a round leaves behind. -/
def Round.swept (r : Round) : Board := (r.board.sweep r.time).2

/-- The board of the service as it comes to a time, when the sweepers have done what is due and
nobody else has done anything yet. -/
def Service.boardSwept (u : Service) (now : Nat) : Board :=
  ({ u with clock := now } : Service).runSweepers.board

/-- The service holds the round as it comes to a time: the round finds the board of the service, and
the service goes on with the one that it leaves behind. -/
structure Round.HeldAt (r : Round) (m : Service × Nat) : Prop where
  time : r.time = m.2
  board : r.board = m.1.board
  swept : m.1.boardSwept m.2 = r.swept

namespace Board

variable {id : ConnectionId} {l : LineNumber} {t : Nat} {b : Board}

/-- The connection is registered under the name and open, and was last heard of at the time `t`. -/
structure Idles (id : ConnectionId) (l : LineNumber) (t : Nat) (b : Board) : Prop where
  registered : b.registered[id]? = some l
  line : ∃ c, b.lines[l]? = some c ∧ c.closed = false ∧ c.lastSeen = t

/-- The connection is registered under the name and open, whenever it was last heard of. -/
def Stays (id : ConnectionId) (l : LineNumber) (b : Board) : Prop := ∃ t, b.Idles id l t

/-- The connection is closed, and the name is in no index. -/
structure Removed (id : ConnectionId) (l : LineNumber) (b : Board) : Prop where
  line : ∃ c, b.lines[l]? = some c ∧ c.id = id ∧ c.closed = true
  registered : b.registered[id]? = none
  users : ∀ user : String, id ∉ b.users.listed user
  channels : ∀ channel : String, id ∉ b.channels.listed channel

/-- It stays so: no other connection has the name. -/
theorem Removed.onward {b' : Board} (h : b.Removed id l) (ho : b.Onward b') (hi : b'.InStep) :
    b'.Removed id l := by
  obtain ⟨c, hc, hid, hcl⟩ := h.line
  obtain ⟨c', hc', hid', hcl'⟩ := ho.line hc
  have hname : c'.id = id := hid'.trans hid
  have hnone : b'.registered[id]? = none := by
    rcases hreg : b'.registered[id]? with - | l'
    · rfl
    · obtain rfl : l' = l := hi.line_eq_of_registered (hname.symm ▸ hreg) hc'
      rcases ho.registered hreg with hold | hnew
      · cases hold.symm.trans h.registered
      · exact absurd (List.getElem?_eq_some_iff.1 hc).1 (Nat.not_lt.2 hnew)
  obtain ⟨husers, hchannels⟩ := hi.unlisted hnone
  exact ⟨⟨c', hc', hname, hcl' hcl⟩, hnone, husers, hchannels⟩

end Board

/-- If the connection is there when the round comes, it has been heard of in time. -/
def Round.InTime (p : Policy) (id : ConnectionId) (l : LineNumber) (r : Round) : Prop :=
  ∀ t, r.board.Idles id l t → r.time ≤ t + p.staleAfter

namespace Service

variable {s u : Service} {e : Event} {es : List Event} {now : Nat} {b b₀ b' : Board}
  {w : Sweeper} {ws : List Sweeper} {r : Round} {log log' : List Round} {P : Board → Prop}
  {id : ConnectionId} {l : LineNumber} {t : Nat}

/-! ### Rounds -/

/-- The rounds of several sweepers, in turn, at a time. -/
def roundsAt (now : Nat) : List Sweeper → Board → List Round
  | [], _ => []
  | w :: ws, b =>
    if b.closing = false ∧ w.Due now then ⟨now, b⟩ :: roundsAt now ws (b.sweep now).2
    else roundsAt now ws b

/-- The rounds of the sweepers in the course of several moments. -/
def roundsOf (ms : List (Service × Nat)) : List Round :=
  ms.flatMap fun m => roundsAt m.2 m.1.sweepers m.1.board

/-- The rounds of the sweepers in the course of an event. -/
def rounds (s : Service) (e : Event) : List Round := roundsOf (s.moments e)

theorem roundsOf_concat (ms : List (Service × Nat)) (m : Service × Nat) :
    roundsOf (ms ++ [m]) = roundsOf ms ++ roundsAt m.2 m.1.sweepers m.1.board := by
  rw [roundsOf, List.flatMap_append, List.flatMap_singleton]
  rfl

/-- So the rounds of a run are those of its moments. -/
theorem trace_rounds (s : Service) (es : List Event) :
    s.trace rounds es = roundsOf (s.trace moments es) := by
  induction es generalizing s with
  | nil => rfl
  | cons e es ih =>
    show s.rounds e ++ _ = roundsOf (s.moments e ++ (s.after e).trace moments es)
    rw [roundsOf, List.flatMap_append]
    exact congrArg (s.rounds e ++ ·) (ih (s.after e))

/-- A sweeper has a round, or leaves the board alone. -/
theorem roundsAt_cons_cases (now : Nat) (w : Sweeper) (ws : List Sweeper) (b : Board) :
    (b.closing = false ∧ w.Due now ∧ (sweepOne now w b).2 = (b.sweep now).2 ∧
        roundsAt now (w :: ws) b = ⟨now, b⟩ :: roundsAt now ws (b.sweep now).2) ∨
      ((b.closing = true ∨ ¬ w.Due now) ∧ (sweepOne now w b).2 = b ∧
        roundsAt now (w :: ws) b = roundsAt now ws b) := by
  by_cases h : b.closing = false ∧ w.Due now
  · exact .inl ⟨h.1, h.2, sweepOne_of_due h.1 h.2, if_pos h⟩
  · have hno : b.closing = true ∨ ¬ w.Due now := by
      by_cases hb : b.closing = true
      · exact .inl hb
      · exact .inr fun hd => h ⟨Bool.eq_false_iff.2 hb, hd⟩
    exact .inr ⟨hno, sweepOne_of_not_due hno, if_neg h⟩

/-- With one sweeper, the rounds at a time are those that the service holds; and if there are none,
its board stays as it is. -/
theorem heldAt_of_lone {m : Service × Nat} (h : m.1.sweepers.length ≤ 1) :
    (∀ r ∈ roundsAt m.2 m.1.sweepers m.1.board, r.HeldAt m) ∧
      (roundsAt m.2 m.1.sweepers m.1.board = [] → m.1.boardSwept m.2 = m.1.board) := by
  have hboard : m.1.boardSwept m.2 = (sweepAll m.2 m.1.sweepers m.1.board).2 := rfl
  rcases hw : m.1.sweepers with - | ⟨w, - | ⟨w', ws⟩⟩
  · rw [hw] at hboard
    exact ⟨by simp [roundsAt], fun _ => hboard⟩
  · rw [hw, sweepAll_cons] at hboard
    rcases roundsAt_cons_cases m.2 w [] m.1.board with ⟨-, -, hone, hrounds⟩ | ⟨-, hone, hrounds⟩
    · rw [hrounds]
      refine ⟨fun r hr => ?_, fun hnil => by cases hnil⟩
      obtain rfl : r = ⟨m.2, m.1.board⟩ := by simpa [roundsAt] using hr
      exact ⟨rfl, rfl, hboard.trans hone⟩
    · rw [hrounds]
      exact ⟨by simp [roundsAt], fun _ => hboard.trans hone⟩
  · rw [hw] at h
    simp at h

/-- What is known of every round once it is over: the board has been in step with its connections,
and has gone on since. -/
structure Past (p : Policy) (b : Board) (r : Round) : Prop where
  inStep : r.board.InStep
  policy : r.board.policy = p
  onward : r.swept.Onward b

theorem Past.removed {p : Policy} (h : Past p b r) (hi : b.InStep) (hr : r.swept.Removed id l) :
    b.Removed id l := hr.onward h.onward hi

theorem onward_sweepAll (now : Nat) (ws : List Sweeper) (b : Board) :
    b.Onward (sweepAll now ws b).2 := by
  induction ws generalizing b with
  | nil => exact .refl b
  | cons w ws ih =>
    rw [sweepAll_cons]
    rcases sweepOne_eq_or now w b with e | e
    · rw [e]
      exact ih b
    · rw [e]
      exact (Board.onward_sweep b now).trans (ih _)

theorem past_sweepAll (hb : b.InStep) :
    ∀ r ∈ roundsAt now ws b, Past b.policy (sweepAll now ws b).2 r := by
  induction ws generalizing b with
  | nil => simp [roundsAt]
  | cons w ws ih =>
    rw [sweepAll_cons]
    rcases roundsAt_cons_cases now w ws b with ⟨-, -, hone, hrounds⟩ | ⟨-, hone, hrounds⟩
    · rw [hone, hrounds]
      have hpolicy : (b.sweep now).2.policy = b.policy := (Board.onward_sweep b now).policy
      refine List.forall_mem_cons.2 ⟨⟨hb, rfl, onward_sweepAll now ws _⟩, ?_⟩
      exact hpolicy ▸ ih (hb.sweep now)
    · rw [hone, hrounds]
      exact ih hb

/-- The rounds of an event. -/
theorem past_rounds (h : s.AtRest) (hf : e.Fresh s) :
    ∀ r ∈ s.rounds e, Past s.policy (s.after e).board r := by
  refine (h.after_by_moments (P := fun u ms => u.policy = s.policy ∧
    ∀ r ∈ roundsOf ms, Past s.policy u.board r) hf
    ⟨h.policy_stirring hf, by simp [roundsOf]⟩ ?_).2
  rintro u now ms hu hw ⟨hp, hms⟩
  have hturns := (turnedTo_settle (hu.atClock hw.1) hw.2).board
  refine ⟨(hu.policy_arrive hw).trans hp, ?_⟩
  rw [roundsOf_concat]
  refine List.forall_mem_append.2 ⟨fun r hr => ?_, fun r hr => ?_⟩
  · have hpast := hms r hr
    exact ⟨hpast.inStep, hpast.policy, hpast.onward.trans (hu.onward_arrive hw)⟩
  · have hpast := past_sweepAll hu.inStep r hr
    exact ⟨hpast.inStep, hpast.policy.trans hp, hpast.onward.trans hturns⟩

/-- The rounds of a run. -/
theorem past_trace (h : s.AtRest) (hf : FreshRun s es) :
    ∀ r ∈ s.trace rounds es, Past s.policy (s.run es).board r := by
  induction es using List.reverseRecOn with
  | nil => exact fun r hr => by cases hr
  | append_singleton es e ih =>
    obtain ⟨hf, he⟩ := freshRun_concat.1 hf
    obtain ⟨hrest, hpolicy⟩ := h.run hf
    rw [trace_concat, run_concat]
    refine List.forall_mem_append.2 ⟨fun r hr => ?_, hpolicy ▸ past_rounds hrest he⟩
    have hpast := ih hf r hr
    exact ⟨hpast.inStep, hpast.policy, hpast.onward.trans (onward_event hrest he)⟩

/-! ### From one round to the next -/

/-- What holds at first is lost in no other way than by a round: it holds until the first round,
from each to the next and from the last on. -/
def Linked (P : Board → Prop) : Board → List Round → Board → Prop
  | b₀, [], b => P b₀ → P b
  | b₀, r :: rs, b => (P b₀ → P r.board) ∧ Linked P r.swept rs b

theorem Linked.of_imp (h : P b₀ → P b) (hl : Linked P b log b') : Linked P b₀ log b' := by
  cases log with
  | nil => exact fun h₀ => hl (h h₀)
  | cons r log => exact ⟨fun h₀ => hl.1 (h h₀), hl.2⟩

theorem Linked.trans (h : Linked P b₀ log b) (h' : Linked P b log' b') :
    Linked P b₀ (log ++ log') b' := by
  induction log generalizing b₀ with
  | nil => exact h'.of_imp h
  | cons r log ih => exact ⟨h.1, ih h.2⟩

theorem linked_sweepAll (P : Board → Prop) (now : Nat) (ws : List Sweeper) (b : Board) :
    Linked P b (roundsAt now ws b) (sweepAll now ws b).2 := by
  induction ws generalizing b with
  | nil => exact id
  | cons w ws ih =>
    rw [sweepAll_cons]
    rcases roundsAt_cons_cases now w ws b with ⟨-, -, hone, hrounds⟩ | ⟨-, hone, hrounds⟩
    · rw [hone, hrounds]
      exact ⟨id, ih _⟩
    · rw [hone, hrounds]
      exact ih b

/-- Nothing but the sweepers takes away what holds of the board, in the course of an event: neither
the event by itself nor any socket in its turn. -/
structure Retains (P : Board → Prop) (s : Service) (e : Event) : Prop where
  stirring : P s.board → P (s.stirring e).board
  turns : ∀ m ∈ s.moments e, P (sweepAll m.2 m.1.sweepers m.1.board).2 → P (m.1.arrive m.2).board

/-- **One event.** -/
theorem Retains.linked (h : Retains P s e) (hs : s.AtRest) (hf : e.Fresh s) :
    Linked P s.board (s.rounds e) (s.after e).board := by
  have hall := hs.after_by_moments (P := fun u ms => ms <+: s.moments e →
    Linked P s.board (roundsOf ms) u.board) hf (fun _ => h.stirring) ?_
  · exact hall List.prefix_rfl
  · intro u now ms _ _ ih hp
    have hm : (u, now) ∈ s.moments e := hp.subset (by simp)
    have hbefore := ih ((List.prefix_append _ _).trans hp)
    have hturns : Linked P (sweepAll now u.sweepers u.board).2 [] (u.arrive now).board :=
      h.turns _ hm
    rw [roundsOf_concat]
    have hround := (linked_sweepAll P now u.sweepers u.board).trans hturns
    rw [List.append_nil] at hround
    exact hbefore.trans hround

/-- Nothing but the sweepers takes away what holds of the board, in the course of several events. -/
def RetainsAll (P : Board → Prop) (s : Service) (es : List Event) : Prop :=
  ∀ es₁ e, es₁ ++ [e] <+: es → Retains P (s.run es₁) e

theorem Retains.retainsAll (h : Retains P s e) : s.RetainsAll P [e] := by
  intro es₁ e' hp
  obtain ⟨rfl, rfl⟩ : es₁ = [] ∧ e' = e := by
    rcases es₁ with - | ⟨e₁, es₁⟩
    · simpa using hp
    · simp at hp
  exact h

/-- **Run lemma.** -/
theorem RetainsAll.linked (h : s.RetainsAll P es) (hs : s.AtRest) (hf : FreshRun s es) :
    Linked P s.board (s.trace rounds es) (s.run es).board := by
  induction es using List.reverseRecOn with
  | nil => exact id
  | append_singleton es e ih =>
    obtain ⟨hf, he⟩ := freshRun_concat.1 hf
    have hbefore := ih (fun es₁ e' hp => h es₁ e' (hp.trans (List.prefix_append _ _))) hf
    rw [trace_concat, run_concat]
    exact hbefore.trans ((h es e List.prefix_rfl).linked (hs.run hf).1 he)

/-- As long as what holds is not lost by a round either, it goes on to hold. -/
theorem Linked.split (h : Linked P b₀ (log ++ log') b) (h₀ : P b₀)
    (hkept : ∀ r ∈ log, P r.board → P r.swept) : ∃ b₁, P b₁ ∧ Linked P b₁ log' b := by
  induction log generalizing b₀ with
  | nil => exact ⟨b₀, h₀, h⟩
  | cons r log ih =>
    obtain ⟨hr, hlog⟩ := List.forall_mem_cons.1 hkept
    exact ih h.2 (hr (h.1 h₀)) hlog

/-- If it is kept by all rounds of a kind, it holds until the first that is not of that kind. -/
theorem Linked.holds {Q : Round → Prop} (h : Linked P b₀ log b) (h₀ : P b₀)
    (hkept : ∀ r ∈ log, Q r → P r.board → P r.swept) :
    (∀ log₁ r log₂, log = log₁ ++ r :: log₂ → (∀ r' ∈ log₁, Q r') → P r.board) ∧
      ((∀ r ∈ log, Q r) → P b) := by
  constructor
  · rintro log₁ r log₂ rfl hall
    obtain ⟨b₁, h₁, hrest⟩ :=
      h.split h₀ fun r' hr' => hkept r' (List.mem_append_left _ hr') (hall r' hr')
    exact hrest.1 h₁
  · intro hall
    rw [← List.append_nil log] at h
    obtain ⟨b₁, h₁, hrest⟩ := h.split h₀ fun r hr => hkept r hr (hall r hr)
    exact hrest h₁

/-! ### What a round does to a connection -/

/-- A round leaves alone whoever has been heard of in time. -/
theorem Past.idles_swept {p : Policy} (h : Past p b r) (hr : r.board.Idles id l t)
    (ht : r.time ≤ t + p.staleAfter) : r.swept.Idles id l t := by
  obtain ⟨hid, c, hc, hopen, hseen⟩ := hr
  have hfresh : c.isStale r.board.policy.staleAfter r.time = false := by
    rw [← Bool.not_eq_true, Connection.isStale_eq_true, h.policy, hseen]
    simp [hopen, ht]
  obtain ⟨hc', hid', -, -⟩ := (h.inStep.swept r.time).kept hid hc hfresh
  exact ⟨hid', c, hc', hopen, hseen⟩

/-- And removes whoever has not. -/
theorem Past.removed_swept {p : Policy} (h : Past p b r) (hr : r.board.Idles id l t)
    (ht : t + p.staleAfter < r.time) : r.swept.Removed id l := by
  obtain ⟨hid, c, hc, -, hseen⟩ := hr
  obtain ⟨c', hc', hname⟩ := h.inStep.named hid
  cases hc.symm.trans hc'
  have hstale : c.isStale r.board.policy.staleAfter r.time = true := by
    rw [Connection.isStale_eq_true, h.policy, hseen]
    exact .inr ht
  obtain ⟨hline, hid', husers, hchannels⟩ := (h.inStep.swept r.time).removed hid hc hstale
  exact ⟨⟨_, hline, hname, rfl⟩, hid', husers, hchannels⟩

/-- **A connection that nothing else takes off or closes** is found by every round until one has
come too late for it. -/
theorem Linked.stays {p : Policy} (h : Linked (Board.Stays id l) b₀ log b) (h₀ : b₀.Stays id l)
    (hpast : ∀ r ∈ log, Past p b' r) :
    (∀ log₁ r log₂, log = log₁ ++ r :: log₂ → (∀ r' ∈ log₁, r'.InTime p id l) →
        r.board.Stays id l) ∧
      ((∀ r ∈ log, r.InTime p id l) → b.Stays id l) := by
  refine h.holds h₀ ?_
  rintro r hr ht ⟨t, hi⟩
  exact ⟨t, (hpast r hr).idles_swept hi (ht t hi)⟩

/-- Each round of a run so finds it until one has come too late for it, leaves it alone if it has
been heard of in time, and removes it for good if not. -/
theorem RetainsAll.finds (h : s.RetainsAll (Board.Stays id l) es) (hs : s.AtRest)
    (hf : FreshRun s es) (h₀ : s.board.Stays id l) :
    (∀ log₁ r log₂, s.trace rounds es = log₁ ++ r :: log₂ →
        (∀ r' ∈ log₁, r'.InTime s.policy id l) → ∃ t, r.board.Idles id l t ∧
          (r.time ≤ t + s.policy.staleAfter → r.swept.Idles id l t) ∧
          (t + s.policy.staleAfter < r.time →
            r.swept.Removed id l ∧ (s.run es).board.Removed id l)) ∧
      ((∀ r ∈ s.trace rounds es, r.InTime s.policy id l) → (s.run es).board.Stays id l) := by
  have hpast := past_trace hs hf
  have hstep := (hs.run hf).1.sound.inStep
  obtain ⟨hfound, hend⟩ := (h.linked hs hf).stays h₀ hpast
  refine ⟨fun log₁ r log₂ hsplit hall => ?_, hend⟩
  obtain ⟨t, ht⟩ := hfound log₁ r log₂ hsplit hall
  have hround := hpast r (hsplit ▸ List.mem_append_right _ List.mem_cons_self)
  refine ⟨t, ht, hround.idles_swept ht, fun hlate => ?_⟩
  have hgone := hround.removed_swept ht hlate
  exact ⟨hgone, hround.removed hstep hgone⟩

/-- A connection of which nothing is heard, when every round before a time is early enough: it is
found by all of these, and by a round at that time. -/
theorem Linked.idles {p : Policy} {late : Nat} (h : Linked (Board.Idles id l t) b₀ log b)
    (h₀ : b₀.Idles id l t) (hpast : ∀ r ∈ log, Past p b' r)
    (hsorted : log.Pairwise fun r r' => r.time < r'.time)
    (hearly : ∀ r ∈ log, r.time < late → r.time ≤ t + p.staleAfter) :
    (∀ r ∈ log, r.time ≤ late → r.board.Idles id l t) ∧
      ((∀ r ∈ log, r.time < late) → b.Idles id l t) := by
  have hkept : ∀ r ∈ log, r.time < late → r.board.Idles id l t → r.swept.Idles id l t :=
    fun r hr ht hi => (hpast r hr).idles_swept hi (hearly r hr ht)
  obtain ⟨hsplit, hend⟩ := h.holds h₀ hkept
  refine ⟨fun r hr ht => ?_, hend⟩
  obtain ⟨log₁, log₂, rfl⟩ := List.append_of_mem hr
  refine hsplit log₁ r log₂ rfl fun r' hr' => ?_
  have hbefore := (List.pairwise_append.1 hsorted).2.2 r' hr' r List.mem_cons_self
  exact hbefore.trans_le ht

end Service

end Switchboard
