/-
Switchboard/Proofs/Service/Ending.lean

How the two pumps of a socket end.

A socket is to end as a whole: whichever of its pumps ends, the connection
is closed, the other pump ends, and the connection leaves the board.  The
reader does so at once.  So does the writer, unless it has to wait for room: for
the frame that it is at, for the farewell and for the closing of the way, and for
none of these longer than the policy allows.  `EndsTogether` says so of a socket
at one moment.

What breaks this is a pump that breaks down while nothing else closes the
connection: it closes nothing, and the other pump goes on.  `Breaks` says so of
an event, and the main statement, `endsTogether_iff`, that a run keeps the promise
to a socket up to some event if and only if it does not break it before.
-/
import Switchboard.Proofs.Service.Breaking

namespace Switchboard

/-- A writer that takes its leave does not wait beyond its time. -/
theorem Writer.EndsBy.eq_ended {wait t : Nat} {w : Writer} (h : w.EndsBy wait t)
    (hw : ∀ deadline, w.wait? = some deadline → t < deadline) : w = .ended := by
  cases w with
  | ready _ => exact h.elim
  | blocked deadline _ =>
    have hlt := hw deadline rfl
    have hle : deadline + 2 * wait ≤ t := h
    omega
  | parting deadline =>
    have hlt := hw deadline rfl
    have hle : deadline + wait ≤ t := h
    omega
  | closing deadline => exact absurd h (Nat.not_le.2 (hw deadline rfl))
  | ended => rfl

/-- After its turn a writer whose connection is closed has ended in time. -/
theorem Served.endsBy_turn {p : Policy} {now t : Nat} {v : Served}
    (h : v.socket.writer.EndsBy p.writeWait t) (hc : v.connection.closed = true)
    (hw : ∀ deadline, v.socket.writer.wait? = some deadline → now ≤ deadline) :
    (v.turn p now).socket.writer.EndsBy p.writeWait t := by
  have hrun := Served.Lasts.run (h.lasts hw) hc
  rw [turn]
  split
  · exact hrun
  · exact hrun

namespace Service

variable {s u : Service} {k : SocketNumber} {l : LineNumber} {v : Served} {e : Event}
  {es : List Event} {now t : Nat}

/-! ### The promise -/

/-- The pumps of a socket are stopped: the reader has ended, and the writer has too or takes its
leave, which is over after three waits. -/
def Stopped (s : Service) (x : Socket) : Prop :=
  x.reader = .ended ∧ x.writer.EndsBy s.policy.writeWait (s.clock + 3 * s.policy.writeWait)

/-- If a pump of a socket has ended, the connection is closed and both pumps are stopped; and when
both have ended, the connection has left the board. -/
def EndsTogether (s : Service) (k : SocketNumber) : Prop :=
  ∀ l v, s.served? k = some (l, v) → v.socket.reader = .ended ∨ v.socket.writer = .ended →
    v.connection.closed = true ∧ s.Stopped v.socket ∧
      (v.socket.writer = .ended → ∀ id : ConnectionId, s.board.registered[id]? ≠ some l)

/-- At rest the pumps of a closed connection are stopped. -/
theorem AtRest.stopped (h : s.AtRest) (hv : s.served? k = some (l, v))
    (hcl : v.connection.closed = true) : s.Stopped v.socket :=
  have hquiet := (h.idle hv).quiet
  ⟨hquiet.reader hcl, Writer.endsBy_of_wait (hquiet.parted hcl) (h.sound.proper hv).timely⟩

/-- When both pumps have ended, the connection has left the board. -/
theorem AtRest.unregistered (h : s.AtRest) (hv : s.served? k = some (l, v))
    (hr : v.socket.reader = .ended) (hw : v.socket.writer = .ended) (id : ConnectionId) :
    s.board.registered[id]? ≠ some l :=
  ((h.sound.proper hv).finished ((h.idle hv).finished hr hw)).2.2.2 id

/-- At rest, a socket keeps its promise if no pump has ended while its connection is open. -/
theorem AtRest.unharmed_iff (h : s.AtRest) : s.EndsTogether k ↔ s.Accounts k False := by
  constructor
  · intro hk l v hv
    by_cases hc : v.connection.closed = true
    · exact .inl hc
    · -- a pump that had ended would have closed it
      have hr : v.socket.reader ≠ .ended := fun hr => hc (hk l v hv (.inl hr)).1
      have hw : v.socket.writer ≠ .ended := fun hw => hc (hk l v hv (.inr hw)).1
      have hworks := ((h.sound.proper hv).loyal.resolve_right hw).resolve_left hc
      exact .inr (.inl ⟨hr, hworks, not_false⟩)
  · intro hk l v hv hended
    have hc : v.connection.closed = true := by
      rcases hk l v hv with hc | ⟨hr, hworks, -⟩ | ⟨-, hno⟩
      · exact hc
      · rcases hended with hended | hended
        · exact absurd hended hr
        · rw [hended] at hworks
          exact hworks.elim
      · exact hno.elim
    have hs := h.stopped hv hc
    exact ⟨hc, hs, h.unregistered hv hs.1⟩

/-! ### What breaks it -/

/-- An event that breaks the promise to a socket: in the course of it one of the pumps breaks down,
and the connection is not closed by anything else. -/
def Breaks (s : Service) (k : SocketNumber) (e : Event) : Prop :=
  s.BreaksDown k e ∧ ∃ l v, (s.after e).served? k = some (l, v) ∧ v.connection.closed = false

/-- **One event** harms a socket exactly if it breaks the promise. -/
theorem AtRest.unharmed_after_iff (h : s.AtRest) (hf : e.Fresh s) (hk : s.Accounts k False) :
    (s.after e).Accounts k False ↔ ¬ s.Breaks k e := by
  have haccount := h.accounts_after hf hk
  constructor
  · rintro hk' ⟨hb, l, v, hv, hopen⟩
    -- the account says that a pump has ended, and the promise that none has
    obtain ⟨hr, hworks, -⟩ : v.socket.reader ≠ .ended ∧ v.socket.writer.Works ∧ ¬ False := by
      simpa [hopen] using hk' l v hv
    rcases haccount l v hv with hc | ⟨-, -, hno⟩ | ⟨hr' | hw', -⟩
    · exact absurd (hc.symm.trans hopen) (by simp)
    · exact hno hb
    · exact hr hr'
    · rw [hw'] at hworks
      exact hworks
  · intro hno l v hv
    rcases haccount l v hv with hc | ⟨hr, hworks, -⟩ | ⟨-, hb⟩
    · exact .inl hc
    · exact .inr (.inl ⟨hr, hworks, not_false⟩)
    · by_cases hc : v.connection.closed = true
      · exact .inl hc
      · exact absurd ⟨hb, l, v, hv, Bool.eq_false_iff.2 hc⟩ hno

/-! ### Runs -/

/-- A run leaves a socket unharmed throughout exactly if no event of it breaks the promise. -/
theorem unharmed_run_iff (h : s.AtRest) (hf : FreshRun s es) (hk : s.Accounts k False) :
    (∀ es₁, es₁ <+: es → (s.run es₁).Accounts k False) ↔
      ∀ es₁ e, es₁ ++ [e] <+: es → ¬ (s.run es₁).Breaks k e := by
  -- both sides speak of the first event and of the rest, and so does the step
  induction es generalizing s with
  | nil =>
    constructor
    · intro _ es₁ e hp
      simp at hp
    · intro _ es₁ hp
      obtain rfl := List.prefix_nil.1 hp
      exact hk
  | cons e es ih =>
    have hstep := h.unharmed_after_iff (k := k) hf.1 hk
    constructor
    · intro hall es₁ e' hp
      have hk' : (s.after e).Accounts k False := hall [e] (List.prefix_append [e] es)
      have hrest := (ih (h.after hf.1).atRest hf.2 hk').1 fun es₂ hp₂ =>
        hall (e :: es₂) (List.prefix_cons_inj e |>.2 hp₂)
      cases es₁ with
      | nil =>
        obtain ⟨rfl, -⟩ := List.cons_prefix_cons.1 hp
        exact hstep.1 hk'
      | cons e₁ es₁ =>
        obtain ⟨rfl, hp'⟩ := List.cons_prefix_cons.1 hp
        exact hrest es₁ e' hp'
    · intro hno es₁ hp
      rcases List.prefix_cons_iff.1 hp with rfl | ⟨es₂, rfl, hp₂⟩
      · exact hk
      · have hk' : (s.after e).Accounts k False := hstep.2 (hno [] e (List.prefix_append [e] es))
        refine (ih (h.after hf.1).atRest hf.2 hk').2 (fun es₃ e' hp₃ => ?_) es₂ hp₂
        exact hno (e :: es₃) e' (List.cons_prefix_cons.2 ⟨rfl, hp₃⟩)

/-- As long as the clock can tell the times of a run, only frames break a pump down. -/
theorem AtRest.not_breaksDown (h : s.AtRest) (hf : FreshRun s es)
    (hreads : s.policy.Reads (s.run es).clock) (hprobes : s.policy.Probes (s.run es).clock)
    (hframes : ∀ es₁ f, es₁ ++ [.receive k f] <+: es →
      ¬ ((s.run es₁).Falls k f ∨ (s.run es₁).Overreads k f))
    (es₁ : List Event) (e : Event) (hp : es₁ ++ [e] <+: es) : ¬ (s.run es₁).BreaksDown k e := by
  intro hb
  obtain ⟨es₂, rfl⟩ := id hp
  obtain ⟨hf₁, hf₂⟩ := freshRun_append.1 hf
  obtain ⟨hf₁, he⟩ := freshRun_concat.1 hf₁
  obtain ⟨hrest, hpolicy⟩ := h.run hf₁
  have hle := (hrest.after he).atRest.le_clock_run (run_concat s es₁ e ▸ hf₂)
  rw [← run_concat, ← run_append] at hle
  obtain ⟨f, rfl, hcause⟩ := hrest.exists_frame_of_breaksDown he
    (by rw [hpolicy, ← run_concat]; exact hreads.mono hle)
    (by rw [hpolicy, ← run_concat]; exact hprobes.mono hle) hb
  exact hframes es₁ f hp hcause

/-! ### Sockets that are ending -/

/-- A socket that is ending: its connection is closed, and its writer has ended by the time
given. -/
def Ending (s : Service) (k : SocketNumber) (l : LineNumber) (t : Nat) : Prop :=
  ∃ v, s.served? k = some (l, v) ∧ v.connection.closed = true ∧
    v.socket.writer.EndsBy s.policy.writeWait t

/-- At no moment does a writer that takes its leave wait anew beyond its time. -/
theorem Ending.arrive (hk : u.Ending k l t) (h : u.Sound) (hw : u.Within now) :
    (u.arrive now).Ending k l t := by
  obtain ⟨v, hv, hc, hends⟩ := hk
  obtain ⟨c, hturn, haway, hstay⟩ := h.served?_moment hw hv
  have hcl : c.closed = true := by
    by_cases hswept : u.SweepsAway now l
    · exact haway hswept
    · rw [hstay hswept]
      exact hc
  refine ⟨_, hturn, (Served.proceeds_turn _ _ _).closed hcl, ?_⟩
  rw [h.policy_arrive hw]
  exact Served.endsBy_turn hends hcl (hw.onTime k l v hv)

/-- Whatever happens, a socket that is ending goes on ending. -/
theorem Ending.after (hk : s.Ending k l t) (h : s.AtRest) (hf : e.Fresh s) :
    (s.after e).Ending k l t := by
  refine h.after_by_moments (P := fun u _ => u.Ending k l t) hf ?_ fun hs hw hk => hk.arrive hs hw
  obtain ⟨v, hv, hc, hends⟩ := hk
  obtain ⟨w, hw, hp, hwriter⟩ := served?_stirring h.sound hf hv
  refine ⟨w, hw, hp.closed hc, ?_⟩
  rw [hwriter, h.policy_stirring hf]
  exact hends

theorem Ending.run (hk : s.Ending k l t) (h : s.AtRest) (hf : FreshRun s es) :
    (s.run es).Ending k l t := by
  induction es generalizing s with
  | nil => exact hk
  | cons e es ih => exact ih (hk.after h hf.1) (h.after hf.1).atRest hf.2

/-- All is over with a socket: both pumps have ended and the connection has left the board. -/
def Over (s : Service) (k : SocketNumber) (l : LineNumber) : Prop :=
  ∃ v, s.served? k = some (l, v) ∧ v.connection.closed = true ∧ v.socket.reader = .ended ∧
    v.socket.writer = .ended ∧ ∀ id : ConnectionId, s.board.registered[id]? ≠ some l

/-- No socket is ending beyond its time. -/
theorem Ending.over (hk : s.Ending k l t) (h : s.AtRest) (ht : t ≤ s.clock) : s.Over k l := by
  obtain ⟨v, hv, hc, hends⟩ := hk
  have hquiet := (h.idle hv).quiet
  have hr := hquiet.reader hc
  -- whatever waits has time left
  have hw := hends.eq_ended fun deadline hw => ht.trans_lt (hquiet.waits deadline hw).2
  exact ⟨v, hv, hc, hr, hw, h.unregistered hv hr hw⟩

/-- **All is over after three waits** with a socket whose connection is closed. -/
theorem AtRest.over (h : s.AtRest) (hv : s.served? k = some (l, v))
    (hcl : v.connection.closed = true) (hf : FreshRun s es)
    (ht : s.clock + 3 * s.policy.writeWait ≤ (s.run es).clock) : (s.run es).Over k l :=
  have hending : s.Ending k l (s.clock + 3 * s.policy.writeWait) :=
    ⟨v, hv, hcl, (h.stopped hv hcl).2⟩
  (hending.run h hf).over (h.run hf).1 ht

/-- **How the pumps of a socket end.**  A run keeps the promise to a socket throughout if and only
if no event of it breaks it.  And where the promise is kept and a pump has ended, nothing more is
needed than the time of three waits for room: once that is over, so is all with the socket. -/
theorem endsTogether_iff (policy : Policy) (check : Check) (supply : Nat → Draw)
    {es : List Event} (hf : FreshRun (start policy check supply) es) (k : SocketNumber) :
    ((∀ es₁, es₁ <+: es → ((start policy check supply).run es₁).EndsTogether k) ↔
      ∀ es₁ e, es₁ ++ [e] <+: es → ¬ ((start policy check supply).run es₁).Breaks k e) ∧
    ∀ es₁ es₂, es = es₁ ++ es₂ → ∀ l v,
      ((start policy check supply).run es₁).EndsTogether k →
      ((start policy check supply).run es₁).served? k = some (l, v) →
      v.socket.reader = .ended ∨ v.socket.writer = .ended →
      ((start policy check supply).run es₁).clock + 3 * policy.writeWait ≤
        ((start policy check supply).run es).clock →
      ((start policy check supply).run es).Over k l := by
  have h := atRest_start policy check supply
  have hrest : ∀ es₁, es₁ <+: es → ((start policy check supply).run es₁).AtRest ∧
      ((start policy check supply).run es₁).policy = policy := by
    rintro es₁ ⟨es₂, rfl⟩
    exact h.run (freshRun_append.1 hf).1
  constructor
  · rw [← unharmed_run_iff h hf fun l v hv => by cases hv]
    exact forall₂_congr fun es₁ hp => (hrest es₁ hp).1.unharmed_iff
  · rintro es₁ es₂ rfl l v hk hv hended htime
    obtain ⟨hs, hpolicy⟩ := hrest es₁ (List.prefix_append es₁ es₂)
    -- the promise at the earlier moment says that the connection is closed
    obtain ⟨hc, -⟩ := hk l v hv hended
    rw [run_append] at htime ⊢
    exact hs.over hv hc (freshRun_append.1 hf).2 (by rw [hpolicy]; exact htime)

/-! ### A client that breaks down and one that vanishes -/

/-- A check that breaks down at one token. -/
def fragile : Check := fun _ token => if token = "boom" then .broken else .refused "invalid token"

/-- The moment at which all is drawn. -/
def moment : Instant :=
  ((Date.ofNumbers? 2024 5 17).bind fun date => Instant.ofNumbers? date 12 0 0 0).get (by decide)

/-- Every draw has a new name. -/
def draws (n : Nat) : Draw := ⟨n + 1, ⟨"a", moment⟩, ⟨"b", moment⟩, ⟨"c", moment⟩, "s"⟩

/-- A client sends the token at which the check breaks down. -/
def boom : Incoming :=
  .text (Utf8.ofString "\x7b\"type\":\"auth\",\"data\":\x7b\"token\":\"boom\"\x7d\x7d")

/-- Of two clients one sends that token, and the other vanishes. -/
def twoClients : List Event :=
  [.accept true, .accept true, .receive 0 boom, .vanish 1, .elapse 30000]

/-- The socket of the client that vanishes keeps the promise, and in the end all is over with it. -/
theorem endsTogether_iff_twoClients :
    FreshRun (start .standard fragile draws) twoClients ∧
      (∀ es₁, es₁ <+: twoClients → ((start .standard fragile draws).run es₁).EndsTogether 1) ∧
      ((start .standard fragile draws).run twoClients).Over 1 1 := by
  have hf : FreshRun (start .standard fragile draws) twoClients := by decide +kernel
  obtain ⟨hiff, hover⟩ := endsTogether_iff .standard fragile draws hf 1
  have hframes : ∀ es₁ f, es₁ ++ [.receive 1 f] <+: twoClients →
      ¬ (((start .standard fragile draws).run es₁).Falls 1 f ∨
        ((start .standard fragile draws).run es₁).Overreads 1 f) := by
    -- the one frame is for the other socket
    intro es₁ f hp
    have hmem : Event.receive 1 f ∈ twoClients := hp.subset (by simp)
    simp [twoClients] at hmem
  have hkept := hiff.2 fun es₁ e hp hb => (atRest_start .standard fragile draws).not_breaksDown hf
    (by decide +kernel) (by decide +kernel) hframes es₁ e hp hb.1
  refine ⟨hf, hkept, ?_⟩
  have hv : (((start .standard fragile draws).run (twoClients.take 4)).served? 1).map
      (fun r => (r.1, r.2.socket.reader)) = some (1, .ended) := by decide +kernel
  obtain ⟨⟨l, v⟩, hv, e⟩ := Option.map_eq_some_iff.1 hv
  obtain ⟨rfl, hr⟩ : l = 1 ∧ v.socket.reader = .ended := by simpa using e
  have htime : ((start .standard fragile draws).run (twoClients.take 4)).clock +
      3 * Policy.standard.writeWait ≤ ((start .standard fragile draws).run twoClients).clock := by
    decide +kernel
  exact hover (twoClients.take 4) _ rfl 1 v (hkept _ (List.take_prefix 4 _)) hv (.inl hr) htime

/-- The socket of the other does not: the reader has ended, and the connection stays open. -/
theorem not_endsTogether_boom :
    ¬ ((start .standard fragile draws).run [.accept true, .receive 0 boom]).EndsTogether 0 := by
  intro h
  have hv : (((start .standard fragile draws).run [.accept true, .receive 0 boom]).served? 0).map
      (fun r => (r.2.socket.reader, r.2.connection.closed)) = some (.ended, false) := by
    decide +kernel
  obtain ⟨⟨l, v⟩, hv, e⟩ := Option.map_eq_some_iff.1 hv
  obtain ⟨hr, hopen⟩ : v.socket.reader = .ended ∧ v.connection.closed = false := by simpa using e
  exact absurd ((h l v hv (.inl hr)).1.symm.trans hopen) (by simp)

end Service

end Switchboard
