/-
Switchboard/Proofs/Board/Stepwise.lean

Requests carried out step by step.

A request changes the board in one place after the other, and in between it
may come to a check that fails.  Here such requests are written as `Work`, in
which every change is made at once and stays made whatever comes after it,
and each comes to the same as the operation in one piece (`on_dispatch`).

That a failure leaves no trace is then a matter of the order of the steps.
Those that only look come first, and they do no harm (`Inert`).  The step that
may fail after them changes nothing if it does (`Traceless`), and what follows
it cannot fail any more (`Never`).

A token is checked outside the board, and while this takes its time others may
change the board.  So the steps after the check cannot rely on those before,
and what they leave alone if they fail is the board that they have found.
-/
import Switchboard.Proofs.Board.Fanout

namespace Switchboard

/-- Something that is done to the board step by step, and may stop with a fault.  What has been
changed by then stays changed. -/
abbrev Work := ExceptT Fault (StateM Board)

/-- The request has not been granted: it has met a fault, or a proof of identity has failed. -/
def Outcome.Fails : Outcome → Prop
  | .answer (.authResult r) => r.success = false
  | .answer _ => False
  | .fault _ | .broken => True

namespace Work

variable {α β : Type} {b : Board} {l : LineNumber} {w : Work α} {k : α → Work β}

/-- What comes of the work, and the board that it leaves behind. -/
def on (w : Work α) (b : Board) : Except Fault α × Board := (ExceptT.run w).run b

/-! ### Steps -/

/-- A step that looks at the board, and may find that things are not as they should be. -/
def ask (g : Board → Except Fault α) : Work α := do
  match g (← get) with
  | .ok x => pure x
  | .error f => throw f

/-- A step that changes the board, and cannot fail. -/
def change (g : Board → α × Board) : Work α := modifyGet g

/-- A step that changes the board and has nothing to tell. -/
def update (g : Board → Board) : Work Unit := change fun b => ((), g b)

/-- Steps are done one after the other, up to the first that fails. -/
theorem on_bind (w : Work α) (k : α → Work β) (b : Board) :
    (w >>= k).on b = match w.on b with
      | (.ok x, b') => (k x).on b'
      | (.error f, b') => (.error f, b') := by
  simp only [on, ExceptT.run_bind, StateT.run_bind]
  rcases (ExceptT.run w).run b with ⟨f | x, b'⟩ <;> rfl

/-- To ask changes nothing. -/
theorem on_ask (g : Board → Except Fault α) (b : Board) : (ask g).on b = (g b, b) := by
  show on (match g b with
    | .ok x => pure x
    | .error f => throw f) b = _
  rcases g b with f | x <;> rfl

theorem on_ask_bind (g : Board → Except Fault α) (k : α → Work β) (b : Board) :
    (ask g >>= k).on b = match g b with
      | .ok x => (k x).on b
      | .error f => (.error f, b) := by
  rw [on_bind, on_ask]
  rcases g b with f | x <;> rfl

/-! ### Requests -/

/-- The connection of a number. -/
def line (l : LineNumber) : Work Connection :=
  ask fun b => match b.lines[l]? with
    | some c => .ok c
    | none => .error .closed

/-- The connection of a number is bound to an identity. -/
def mark (l : LineNumber) (who : Identity) : Work Unit := do
  let c ← line l
  let c ← ask fun _ => c.identify who
  update (·.modify l fun _ => c)

/-- Binds a registered connection to an identity, and then lists it. -/
def identify (id : ConnectionId) (who : Identity) : Work Unit := do
  let (l, _) ← ask (·.find id)
  mark l who
  update fun b => { b with users := b.users.join who.user id }

/-- Subscribes a registered connection, and then lists it. -/
def subscribe (id : ConnectionId) (channel : String) : Work Unit := do
  ask fun _ => checkChannel channel
  let (l, _) ← ask (·.find id)
  update (·.modify l fun c => (c.join channel).2)
  update fun b => { b with channels := b.channels.join channel id }

/-- Takes a subscription back, and then unlists it. -/
def unsubscribe (id : ConnectionId) (channel : String) : Work Unit := do
  ask fun _ => checkChannel channel
  let (l, _) ← ask (·.find id)
  update (·.modify l fun c => (c.leave channel).2)
  update fun b => { b with channels := b.channels.leave channel id }

/-- What follows from the verdict on a token.  Nothing is answered if the check has broken down. -/
def heed (id : ConnectionId) : Verdict → Work (Option Body)
  | .broken => pure none
  | .refused reason => pure (some (.authResult (.refused reason)))
  | .accepted who => do
    identify id who
    pure (some (.authResult (.accepted who)))

/-- A client tries to prove its identity.  Others may change the board while the token is
checked. -/
def authenticate (meanwhile : Board → Board) (check : Check) (session : String) (c : Connection)
    (token : String) : Work (Option Body) := do
  ask fun _ => if c.isIdentified then .error .alreadyAuthenticated else .ok ()
  update meanwhile
  heed c.id (check session token)

/-- Refuses what a client without an identity may not ask for. -/
def require (c : Connection) : Work Unit :=
  ask fun _ => if c.isIdentified then .ok () else .error .notAuthenticated

/-- A client publishes to a channel. -/
def publish (notice : Stamp) (channel : String) (data : Json) : Work (Option Body) := do
  ask fun _ => checkChannel channel
  let n ← change (·.toChannel channel (Envelope.new notice (.notify channel publishEvent data)))
  pure (some (.publishAck channel n))

/-- Carries out the request of a message from a connection. -/
def dispatch (meanwhile : Board → Board) (check : Check) (now : Nat) (draw : Draw)
    (l : LineNumber) (m : Envelope) : Work (Option Body) := do
  let c ← line l
  match m.body with
  | .ping => do
    update (·.touch l now)
    pure (some (.pong m.time))
  | .auth token => authenticate meanwhile check draw.session c token
  | .subscribe channel => do
    require c
    subscribe c.id channel
    pure (some (.subscribeAck channel))
  | .unsubscribe channel => do
    require c
    unsubscribe c.id channel
    pure (some (.unsubscribeAck channel))
  | .publish channel data => do
    require c
    publish draw.notice channel data
  | other => throw (.unsupported other.kind)

/-! ### In one piece -/

/-- An operation on the board in one piece, as the outcome of work. -/
def inOne (b : Board) : Except Fault Board → Except Fault Unit × Board
  | .ok b' => (.ok (), b')
  | .error f => (.error f, b)

/-- What comes of a request. -/
def outcome : Except Fault (Option Body) → Outcome
  | .ok (some body) => .answer body
  | .ok none => .broken
  | .error f => .fault f

/-- The identity is given to the connection alone, the lists come after it. -/
theorem on_mark {c : Connection} (hc : b.lines[l]? = some c) (who : Identity) :
    (mark l who).on b = inOne b (do let c ← c.identify who; .ok (b.modify l fun _ => c)) := by
  rw [mark, line, on_ask_bind, hc]
  simp only [on_ask_bind]
  rcases c.identify who with f | c' <;> rfl

/-- **Step by step** a request comes to what it is on the board. -/
theorem on_identify (id : ConnectionId) (who : Identity) (b : Board) :
    (identify id who).on b = inOne b (b.identify id who) := by
  rw [identify, on_ask_bind, Board.identify]
  rcases hfind : b.find id with f | ⟨l, c⟩
  · rfl
  · simp only [on_bind, on_mark (Board.find_eq_ok hfind).2]
    simp only [bind, Except.bind]
    rcases c.identify who with f | c' <;> rfl

/-- A change on behalf of a registered connection that concerns a channel, in two steps. -/
theorem on_checked (id : ConnectionId) (channel : String) (g : LineNumber → Board → Board)
    (g' : Board → Board) (b : Board) :
    on (do
      ask fun _ => checkChannel channel
      let (l, _) ← ask (·.find id)
      update (g l)
      update g') b =
    inOne b (do checkChannel channel; let (l, _) ← b.find id; .ok (g' (g l b))) := by
  rw [on_ask_bind]
  rcases checkChannel channel with f | ⟨⟩
  · rfl
  · simp only [on_ask_bind]
    simp only [bind, Except.bind]
    rcases b.find id with f | ⟨l, c⟩ <;> rfl

theorem on_subscribe (id : ConnectionId) (channel : String) (b : Board) :
    (subscribe id channel).on b = inOne b (b.subscribe id channel) :=
  on_checked id channel (fun l b => b.modify l fun c => (c.join channel).2) _ b

theorem on_unsubscribe (id : ConnectionId) (channel : String) (b : Board) :
    (unsubscribe id channel).on b = inOne b (b.unsubscribe id channel) :=
  on_checked id channel (fun l b => b.modify l fun c => (c.leave channel).2) _ b

/-- Work whose success is reported, in one piece. -/
theorem on_reporting {w : Work Unit} {r : Except Fault Board} (body : Body)
    (h : w.on b = inOne b r) :
    Prod.map outcome id ((do w; pure (some body) : Work (Option Body)).on b) =
      b.answering body r := by
  rw [on_bind, h]
  cases r <;> rfl

/-- The same of a token, with what is answered. -/
theorem on_authenticate (check : Check) (session : String) (c : Connection) (token : String)
    (b : Board) : Prod.map outcome id ((authenticate id check session c token).on b) =
      b.authenticate check session c token := by
  rw [authenticate, on_ask_bind, Board.authenticate]
  by_cases hi : c.isIdentified
  · simp only [hi, if_true]
    rfl
  · simp only [hi]
    rcases check session token with who | reason | -
    · exact on_reporting _ (on_identify c.id who b)
    · rfl
    · rfl

/-- The same of a publication. -/
theorem on_publish (notice : Stamp) (channel : String) (data : Json) (b : Board) :
    Prod.map outcome id ((publish notice channel data).on b) = b.publish notice channel data := by
  rw [publish, on_ask_bind, Board.publish]
  rcases checkChannel channel with f | ⟨⟩ <;> rfl

/-- What may be asked for with an identity only. -/
theorem on_require (c : Connection) (w : Work (Option Body)) (b : Board) :
    Prod.map outcome id ((do require c; w).on b) =
      if c.isIdentified then Prod.map outcome id (w.on b) else (.fault .notAuthenticated, b) := by
  rw [require, on_ask_bind]
  cases c.isIdentified <;> rfl

/-- **A request step by step is the request in one piece**, if nobody else changes the board. -/
theorem on_dispatch (check : Check) (now : Nat) (draw : Draw) (l : LineNumber) (m : Envelope)
    (b : Board) : Prod.map outcome id ((dispatch id check now draw l m).on b) =
      b.dispatch check now draw l m := by
  rw [dispatch, line, on_ask_bind, Board.dispatch]
  rcases b.lines[l]? with - | c
  · rfl
  · simp only
    cases m.body with
    | auth token => exact on_authenticate check draw.session c token b
    | subscribe channel =>
      simp only [on_require]
      rw [on_reporting _ (on_subscribe c.id channel b)]
    | unsubscribe channel =>
      simp only [on_require]
      rw [on_reporting _ (on_unsubscribe c.id channel b)]
    | publish channel data =>
      simp only [on_require]
      rw [on_publish]
    | _ => rfl

/-! ### The order of the steps -/

/-- The work changes nothing, whatever comes of it. -/
def Inert (w : Work α) : Prop := ∀ b, (w.on b).2 = b

/-- Nothing of that kind ever comes of the work. -/
def Never (P : Except Fault α → Prop) (w : Work α) : Prop := ∀ b, ¬ P (w.on b).1

/-- If something of that kind comes of the work, it has changed nothing. -/
def Traceless (P : Except Fault α → Prop) (w : Work α) : Prop := ∀ b, P (w.on b).1 → (w.on b).2 = b

/-- The work has stopped with a fault. -/
def Faulty : Except Fault α → Prop
  | .error _ => True
  | .ok _ => False

/-- A request has been turned down: with a fault, or because an identity could not be proved. -/
def Denied (r : Except Fault (Option Body)) : Prop := (outcome r).Fails

section Steps

variable {P : Except Fault β → Prop}

theorem inert_ask (g : Board → Except Fault α) : Inert (ask g) := fun b => by rw [on_ask]

theorem inert_pure (x : α) : Inert (pure x) := fun _ => rfl

/-- A change does not fail. -/
theorem never_change (g : Board → α × Board) : Never Faulty (change g) := fun _ => id

/-- What changes nothing leaves no trace. -/
theorem Inert.traceless {w : Work β} (h : Inert w) : Traceless P w := fun b _ => h b

/-- Nor does what does not fail. -/
theorem Never.traceless {w : Work β} (h : Never P w) : Traceless P w := fun b hb => absurd hb (h b)

/-- Whoever has only looked so far has changed nothing. -/
theorem Inert.bind (h : Inert w) (hk : ∀ x, Traceless P (k x)) : Traceless P (w >>= k) := by
  intro b
  have hw := h b
  rw [on_bind]
  rcases hon : w.on b with ⟨f | x, b'⟩
  · intro _
    rwa [hon] at hw
  · rw [hon] at hw
    obtain rfl : b' = b := hw
    exact hk x b'

/-- A step that may fail comes before those that may not. -/
theorem Traceless.bind (h : Traceless Faulty w) (hk : ∀ x, Never P (k x)) :
    Traceless P (w >>= k) := by
  intro b
  have hw := h b
  rw [on_bind]
  rcases hon : w.on b with ⟨f | x, b'⟩
  · intro _
    rw [hon] at hw
    exact hw trivial
  · exact fun hx => absurd hx (hk x b')

theorem Never.bind (h : Never Faulty w) (hk : ∀ x, Never P (k x)) : Never P (w >>= k) := by
  intro b
  have hw := h b
  rw [on_bind]
  rcases hon : w.on b with ⟨f | x, b'⟩
  · rw [hon] at hw
    exact absurd trivial hw
  · exact hk x b'

end Steps

/-! ### Failures -/

/-- To give an identity fails before anything is changed. -/
theorem traceless_mark (l : LineNumber) (who : Identity) : Traceless Faulty (mark l who) :=
  (inert_ask _).bind fun _ => (inert_ask _).bind fun _ => (never_change _).traceless

/-- Whoever has an identity by then keeps it, and is not listed. -/
theorem traceless_identify (id : ConnectionId) (who : Identity) :
    Traceless Faulty (identify id who) :=
  (inert_ask _).bind fun _ => (traceless_mark _ who).bind fun _ => never_change _

/-- So does joining a channel. -/
theorem traceless_subscribe (id : ConnectionId) (channel : String) :
    Traceless Faulty (subscribe id channel) :=
  (inert_ask _).bind fun _ => (inert_ask _).bind fun _ =>
    ((never_change _).bind fun _ => never_change _).traceless

theorem traceless_unsubscribe (id : ConnectionId) (channel : String) :
    Traceless Faulty (unsubscribe id channel) :=
  (inert_ask _).bind fun _ => (inert_ask _).bind fun _ =>
    ((never_change _).bind fun _ => never_change _).traceless

/-- A token that is refused changes nothing. -/
theorem traceless_heed (id : ConnectionId) (verdict : Verdict) :
    Traceless Denied (heed id verdict) := by
  cases verdict with
  | broken => exact (inert_pure _).traceless
  | refused reason => exact (inert_pure _).traceless
  | accepted who =>
    -- what is answered after that is a success
    exact (traceless_identify id who).bind fun _ _ h => Bool.noConfusion h

/-- The board is left as it was, or as it was found after the check of the token. -/
theorem snd_on_authenticate {meanwhile : Board → Board} {check : Check} {session token : String}
    {c : Connection} (h : Denied ((authenticate meanwhile check session c token).on b).1) :
    ((authenticate meanwhile check session c token).on b).2 = b ∨
      ((authenticate meanwhile check session c token).on b).2 = meanwhile b := by
  rw [authenticate, on_ask_bind] at h ⊢
  split at h
  · exact .inr (traceless_heed _ _ (meanwhile b) h)
  · exact .inl rfl

/-- Whoever must be identified is asked for that first. -/
theorem traceless_require {c : Connection} {w : Work (Option Body)} (h : Traceless Denied w) :
    Traceless Denied (do require c; w) :=
  (inert_ask _).bind fun _ => h

theorem traceless_publish (notice : Stamp) (channel : String) (data : Json) :
    Traceless Denied (publish notice channel data) :=
  (inert_ask _).bind fun _ => ((never_change _).bind fun _ _ h => h).traceless

/-- A request that is denied leaves the board as it was, or as it has become meanwhile. -/
theorem snd_on_dispatch (meanwhile : Board → Board) {check : Check} {now : Nat} {draw : Draw}
    {m : Envelope} (h : Denied ((dispatch meanwhile check now draw l m).on b).1) :
    ((dispatch meanwhile check now draw l m).on b).2 = b ∨
      ((dispatch meanwhile check now draw l m).on b).2 = meanwhile b := by
  rw [dispatch, line, on_ask_bind] at h ⊢
  rcases hc : b.lines[l]? with - | c
  · exact .inl rfl
  · simp only [hc] at h ⊢
    cases hb : m.body with
    | auth token =>
      simp only [hb] at h
      exact snd_on_authenticate h
    | subscribe channel =>
      simp only [hb] at h
      refine .inl (traceless_require ?_ b h)
      exact (traceless_subscribe c.id channel).bind fun _ _ h => h
    | unsubscribe channel =>
      simp only [hb] at h
      refine .inl (traceless_require ?_ b h)
      exact (traceless_unsubscribe c.id channel).bind fun _ _ h => h
    | publish channel data =>
      simp only [hb] at h
      exact .inl (traceless_require (traceless_publish draw.notice channel data) b h)
    | ping =>
      simp only [hb] at h
      exact False.elim h
    | _ => exact .inl rfl

/-- **A request that is turned down leaves no trace**, and neither does an operation that ends with
a fault, although each makes its changes one by one: neither the indices nor any connection, with
its identity, its subscriptions, its closing, its last sign of life and its queue, differ from what
they were.  If the board changes while a token is checked, that is all by which it differs. -/
theorem failure_leaves_no_trace (b : Board) :
    (∀ check now draw l m,
      Prod.map outcome id ((dispatch id check now draw l m).on b) = b.dispatch check now draw l m ∧
      ((b.dispatch check now draw l m).1.Fails → (b.dispatch check now draw l m).2 = b) ∧
      ∀ meanwhile, Denied ((dispatch meanwhile check now draw l m).on b).1 →
        ((dispatch meanwhile check now draw l m).on b).2 = b ∨
          ((dispatch meanwhile check now draw l m).on b).2 = meanwhile b) ∧
    (∀ id who, (identify id who).on b = inOne b (b.identify id who) ∧
      ∀ f b', (identify id who).on b = (.error f, b') → b' = b) ∧
    (∀ id channel, (subscribe id channel).on b = inOne b (b.subscribe id channel) ∧
      ∀ f b', (subscribe id channel).on b = (.error f, b') → b' = b) ∧
    ∀ id channel, (unsubscribe id channel).on b = inOne b (b.unsubscribe id channel) ∧
      ∀ f b', (unsubscribe id channel).on b = (.error f, b') → b' = b := by
  have hfault : ∀ {w : Work Unit}, Traceless Faulty w → ∀ f b', w.on b = (.error f, b') →
      b' = b := by
    intro w hw f b' h
    have hb := hw b
    rw [h] at hb
    exact hb trivial
  refine ⟨fun check now draw l m => ⟨on_dispatch check now draw l m b, fun h => ?_,
      fun meanwhile => snd_on_dispatch meanwhile⟩,
    fun id who => ⟨on_identify id who b, hfault (traceless_identify id who)⟩,
    fun id channel => ⟨on_subscribe id channel b, hfault (traceless_subscribe id channel)⟩,
    fun id channel => ⟨on_unsubscribe id channel b, hfault (traceless_unsubscribe id channel)⟩⟩
  -- nobody changes the board while the token is checked
  rw [← on_dispatch] at h ⊢
  exact or_self_iff.1 (snd_on_dispatch id h)

/-- Two connections have the same name, which leads to the second, and that one has an identity.  A
third one has a name of its own. -/
def namesakes : Board :=
  Board.run (Board.empty .standard) [.enter 1 4 0, .enter 1 4 0, .identify 1 ⟨"ann", "a"⟩,
    .enter 2 4 0]

/-- Takes everyone for Bob. -/
def mistaken : Check := fun session _ => .accepted ⟨"bob", session⟩

/-- Of the namesakes the one without an identity is turned down after its token has been accepted,
because its name leads to the other; and so is the third one if it has got an identity meanwhile.
Nobody is called seven. -/
theorem failure_leaves_no_trace_namesakes :
    let draw : Draw := ⟨3, noon, noon, noon, "s"⟩
    let m := Envelope.new noon (.auth "t")
    let meanwhile (b : Board) := b.after (.identify 2 ⟨"cid", "c"⟩)
    namesakes.dispatch mistaken 0 draw 0 m = (.fault .alreadyAuthenticated, namesakes) ∧
      (dispatch meanwhile mistaken 0 draw 2 m).on namesakes =
        (.error .alreadyAuthenticated, meanwhile namesakes) ∧
      (subscribe 7 "doc").on namesakes = (.error (.notFound 7), namesakes) := by
  intro draw m meanwhile
  obtain ⟨hrequest, -, hsubscribe, -⟩ := failure_leaves_no_trace namesakes
  obtain ⟨-, hkept, -⟩ := hrequest mistaken 0 draw 0 m
  obtain ⟨-, -, hmeanwhile⟩ := hrequest mistaken 0 draw 2 m
  have hfault : (namesakes.dispatch mistaken 0 draw 0 m).1 = .fault .alreadyAuthenticated := rfl
  have hlate : ((dispatch meanwhile mistaken 0 draw 2 m).on namesakes).1 =
      .error .alreadyAuthenticated := rfl
  have hnobody : ((subscribe 7 "doc").on namesakes).1 = .error (.notFound 7) := rfl
  refine ⟨Prod.ext hfault (hkept (by rw [hfault]; trivial)), Prod.ext hlate ?_,
    Prod.ext hnobody ((hsubscribe 7 "doc").2 _ _ (Prod.ext hnobody rfl))⟩
  rcases hmeanwhile meanwhile (by rw [hlate]; trivial) with e | e
  · -- the identity that it has got meanwhile makes a difference
    have hi : (((dispatch meanwhile mistaken 0 draw 2 m).on namesakes).2.lines[2]?).map
        Connection.identity = some (some ⟨"cid", "c"⟩) := rfl
    rw [e] at hi
    exact absurd hi (by decide)
  · exact e

end Work

end Switchboard
