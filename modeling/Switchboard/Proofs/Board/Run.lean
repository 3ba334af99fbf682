/-
Switchboard/Proofs/Board/Run.lean

Runs of the board.

A `Call` is an operation with all that it is given, `Board.after` the board
that it leaves behind, and `Reachable` holds of every board that some run of
calls, in any order and with any arguments, makes of an empty one.  Calls
that fail are part of a run like the others.  One thing is asked of a run:
whoever enters has a name that no connection has had before, as names are
drawn by chance.

A frame can bring about any of several operations.  `FrameEffect` lists
them, so that what is to be shown of frames is shown case by case of these.
-/
import Switchboard.Board.Removal
import Switchboard.Proofs.Board.Delivery
import Switchboard.Request

namespace Switchboard

/-! ### The two ends of a queue's life -/

/-- The connection after its first message has been taken from the queue. -/
def Connection.receive (c : Connection) : Connection :=
  match c.outbox.take? with
  | some (_, outbox) => { c with outbox }
  | none => c

/-- The connection when nobody takes its messages any more. -/
def Connection.forsake (c : Connection) : Connection := { c with outbox := c.outbox.abandon }

theorem Connection.standing_receive (c : Connection) : c.receive.standing = c.standing := by
  rw [receive]
  split <;> rfl

namespace Board

/-! ### Calls -/

/-- An operation on the board. -/
inductive Call where
  /-- A connection of that name is made and registered. -/
  | enter (id : ConnectionId) (capacity now : Nat)
  | unregister (id : ConnectionId)
  | identify (id : ConnectionId) (who : Identity)
  | subscribe (id : ConnectionId) (channel : String)
  | unsubscribe (id : ConnectionId) (channel : String)
  | sweep (now : Nat)
  | shutdown
  | broadcast (m : Envelope)
  | toChannel (channel : String) (m : Envelope)
  | toUser (user : String) (m : Envelope)
  | send (l : LineNumber) (m : Envelope)
  | close (l : LineNumber)
  | touch (l : LineNumber) (now : Nat)
  /-- The first message of a queue is taken. -/
  | receive (l : LineNumber)
  /-- Nobody takes messages from a queue any more. -/
  | forsake (l : LineNumber)
  /-- A frame of a connection is handled, with a check of tokens of its own. -/
  | frame (check : Check) (now : Nat) (draw : Draw) (l : LineNumber) (content : Bytes)

/-- Makes a connection and registers it, unless no connection has that capacity. -/
def enter (b : Board) (id : ConnectionId) (capacity now : Nat) : Board :=
  match b.open? id capacity now with
  | some (l, b) => (b.register l).2
  | none => b

/-- The outcome of an operation that leaves the board alone if it fails. -/
def orKeep (b : Board) : Except Fault Board → Board
  | .ok b' => b'
  | .error _ => b

/-- The board after a call. -/
def after (b : Board) : Call → Board
  | .enter id capacity now => b.enter id capacity now
  | .unregister id => (b.unregister id).2
  | .identify id who => b.orKeep (b.identify id who)
  | .subscribe id channel => b.orKeep (b.subscribe id channel)
  | .unsubscribe id channel => b.orKeep (b.unsubscribe id channel)
  | .sweep now => (b.sweep now).2
  | .shutdown => b.shutdown.2
  | .broadcast m => (b.broadcast m).2
  | .toChannel channel m => (b.toChannel channel m).2
  | .toUser user m => (b.toUser user m).2
  | .send l m => b.orKeep (b.send l m)
  | .close l => b.close l
  | .touch l now => b.touch l now
  | .receive l => b.modify l Connection.receive
  | .forsake l => b.modify l Connection.forsake
  | .frame check now draw l content => (b.handleFrame check now draw l content).2

/-- No connection has had that name. -/
def Unused (b : Board) (id : ConnectionId) : Prop := ∀ c ∈ b.lines, c.id ≠ id

/-- Whoever enters has a name that is new. -/
def Call.Fresh (b : Board) : Call → Prop
  | .enter id _ _ => b.Unused id
  | _ => True

instance (b : Board) (id : ConnectionId) : Decidable (b.Unused id) :=
  inferInstanceAs (Decidable (∀ c ∈ b.lines, c.id ≠ id))

instance (b : Board) : (k : Call) → Decidable (k.Fresh b)
  | .enter id _ _ => inferInstanceAs (Decidable (b.Unused id))
  | .unregister _ | .identify _ _ | .subscribe _ _ | .unsubscribe _ _ | .sweep _ | .shutdown
  | .broadcast _ | .toChannel _ _ | .toUser _ _ | .send _ _ | .close _ | .touch _ _ | .receive _
  | .forsake _ | .frame .. => inferInstanceAs (Decidable True)

/-- Some run makes this board of an empty one. -/
inductive Reachable (policy : Policy) : Board → Prop where
  | empty : Reachable policy (Board.empty policy)
  | call {b : Board} (k : Call) : Reachable policy b → k.Fresh b → Reachable policy (b.after k)

/-- The board after several calls. -/
def run (b : Board) (ks : List Call) : Board := ks.foldl after b

/-- Whoever enters in the course of several calls has a name that is new. -/
def FreshRun : Board → List Call → Prop
  | _, [] => True
  | b, k :: ks => k.Fresh b ∧ FreshRun (b.after k) ks

instance : (b : Board) → (ks : List Call) → Decidable (FreshRun b ks)
  | _, [] => inferInstanceAs (Decidable True)
  | b, k :: ks =>
    have := instDecidableFreshRun (b.after k) ks
    inferInstanceAs (Decidable (k.Fresh b ∧ FreshRun (b.after k) ks))

theorem Reachable.run {policy : Policy} {b : Board} {ks : List Call} (h : Reachable policy b)
    (hk : FreshRun b ks) : Reachable policy (b.run ks) := by
  induction ks generalizing b with
  | nil => exact h
  | cons k ks ih => exact ih (h.call k hk.1) hk.2

/-! ### What operations that may fail come to -/

variable {b b' : Board} {id : ConnectionId} {l : LineNumber} {channel : String}

theorem find_eq_ok {c : Connection} (h : b.find id = .ok (l, c)) :
    b.registered[id]? = some l ∧ b.lines[l]? = some c := by
  rw [find] at h
  rcases e : b.registered[id]? with - | l'
  · simp [e] at h
  · rcases e' : b.lines[l']? with - | c'
    · simp [e, e'] at h
    · simp only [e, e', Except.ok.injEq, Prod.mk.injEq] at h
      obtain ⟨rfl, rfl⟩ := h
      exact ⟨rfl, e'⟩

theorem find_of {c : Connection} (hl : b.registered[id]? = some l) (hc : b.lines[l]? = some c) :
    b.find id = .ok (l, c) := by
  rw [find, hl]
  simp only [hc]

/-- Identifying binds a registered connection that has no identity yet, and lists it. -/
theorem identify_eq_ok {who : Identity} (h : b.identify id who = .ok b') :
    ∃ l c, b.registered[id]? = some l ∧ b.lines[l]? = some c ∧ c.identity = none ∧
      b' = { b.modify l (fun _ => { c with identity := some who }) with
        users := b.users.join who.user id } := by
  rw [Board.identify] at h
  rcases e : b.find id with f | ⟨l, c⟩
  · simp [e, bind, Except.bind] at h
  · obtain ⟨hl, hc⟩ := find_eq_ok e
    rcases ei : c.identity with - | old
    · simp only [e, bind, Except.bind, Connection.identify, ei, Except.ok.injEq] at h
      exact ⟨l, c, hl, hc, ei, h.symm⟩
    · simp [e, bind, Except.bind, Connection.identify, ei] at h

/-- A change on behalf of a registered connection that concerns a channel. -/
theorem checked_eq_ok {change : LineNumber → Board}
    (h : (do checkChannel channel; let (l, _) ← b.find id; .ok (change l)) = .ok b') :
    ∃ l c, b.registered[id]? = some l ∧ b.lines[l]? = some c ∧ b' = change l := by
  rcases ec : checkChannel channel with f | ⟨⟩
  · simp [ec, bind, Except.bind] at h
  · rcases e : b.find id with f | ⟨l, c⟩
    · simp [ec, e, bind, Except.bind] at h
    · obtain ⟨hl, hc⟩ := find_eq_ok e
      simp only [ec, e, bind, Except.bind, Except.ok.injEq] at h
      exact ⟨l, c, hl, hc, h.symm⟩

/-- Subscribing puts a channel to those of a registered connection, and lists it. -/
theorem subscribe_eq_ok (h : b.subscribe id channel = .ok b') :
    ∃ l c, b.registered[id]? = some l ∧ b.lines[l]? = some c ∧
      b' = { b.modify l (fun c => (c.join channel).2) with
        channels := b.channels.join channel id } :=
  checked_eq_ok h

/-- Unsubscribing takes a channel from those of a registered connection, and unlists it. -/
theorem unsubscribe_eq_ok (h : b.unsubscribe id channel = .ok b') :
    ∃ l c, b.registered[id]? = some l ∧ b.lines[l]? = some c ∧
      b' = { b.modify l (fun c => (c.leave channel).2) with
        channels := b.channels.leave channel id } :=
  checked_eq_ok h

/-! ### The names of channels -/

/-- A channel may have any name but the empty one, up to so many bytes. -/
theorem checkChannel_eq_ok_iff : checkChannel channel = .ok () ↔
    channel ≠ "" ∧ (Utf8.ofString channel).length ≤ longestChannel := by
  rw [checkChannel]
  by_cases h : channel.isEmpty ∨ longestChannel < (Utf8.ofString channel).length
  · rw [if_pos h]
    rw [String.isEmpty_iff] at h
    constructor
    · intro e
      cases e
    · rintro ⟨hne, hle⟩
      exact (h.elim hne (Nat.not_lt_of_le hle)).elim
  · rw [if_neg h]
    rw [String.isEmpty_iff, not_or, Nat.not_lt] at h
    exact ⟨fun _ => h, fun _ => rfl⟩

/-- Any other name is refused. -/
theorem checkChannel_eq_error (h : checkChannel channel ≠ .ok ()) :
    checkChannel channel = .error (.invalidChannel channel) := by
  rw [checkChannel] at h ⊢
  split
  · rfl
  · rename_i hno
    exact absurd (if_neg hno) h

/-! ### What a frame brings about -/

/-- What a message from a connection does to the board, before it is answered. -/
inductive FrameEffect (b : Board) : Board → Prop where
  | nothing : FrameEffect b b
  | touch (l : LineNumber) (now : Nat) : FrameEffect b (b.touch l now)
  | identify {b' : Board} (id : ConnectionId) (who : Identity) :
      b.identify id who = .ok b' → FrameEffect b b'
  | subscribe {b' : Board} (id : ConnectionId) (channel : String) :
      b.subscribe id channel = .ok b' → FrameEffect b b'
  | unsubscribe {b' : Board} (id : ConnectionId) (channel : String) :
      b.unsubscribe id channel = .ok b' → FrameEffect b b'
  | publish (channel : String) (m : Envelope) : FrameEffect b (b.toChannel channel m).2

theorem answering_cases (b : Board) (body : Body) (r : Except Fault Board) :
    (∃ b', r = .ok b' ∧ b.answering body r = (.answer body, b')) ∨
      (∃ f, r = .error f ∧ b.answering body r = (.fault f, b)) := by
  cases r with
  | ok b' => exact .inl ⟨b', rfl, rfl⟩
  | error f => exact .inr ⟨f, rfl, rfl⟩

/-- What is answered has the effect that it reports, and a fault has none. -/
theorem frameEffect_answering {body : Body} {r : Except Fault Board}
    (hr : ∀ b', r = .ok b' → FrameEffect b b') : FrameEffect b (b.answering body r).2 := by
  obtain ⟨b', hok, h⟩ | ⟨f, -, h⟩ := answering_cases b body r
  · rw [h]
    exact hr b' hok
  · rw [h]
    exact .nothing

theorem frameEffect_authenticate (b : Board) (check : Check) (session : String) (c : Connection)
    (token : String) : FrameEffect b (b.authenticate check session c token).2 := by
  rw [authenticate]
  split
  · exact .nothing
  · cases check session token with
    | broken => exact .nothing
    | refused reason => exact .nothing
    | accepted who => exact frameEffect_answering fun _ hb => .identify c.id who hb

theorem frameEffect_publish (b : Board) (notice : Stamp) (channel : String) (data : Json) :
    FrameEffect b (b.publish notice channel data).2 := by
  rw [Board.publish]
  cases checkChannel channel with
  | error f => exact .nothing
  | ok _ => exact .publish channel _

theorem frameEffect_dispatch (b : Board) (check : Check) (now : Nat) (draw : Draw)
    (l : LineNumber) (m : Envelope) : FrameEffect b (b.dispatch check now draw l m).2 := by
  rw [dispatch]
  rcases b.lines[l]? with - | c
  · exact .nothing
  · cases hb : m.body with
    | ping => exact .touch l now
    | auth token => exact frameEffect_authenticate b check draw.session c token
    | subscribe channel =>
      simp only
      split
      · exact frameEffect_answering fun _ hb => .subscribe c.id channel hb
      · -- whoever has no identity is told so
        exact .nothing
    | unsubscribe channel =>
      simp only
      split
      · exact frameEffect_answering fun _ hb => .unsubscribe c.id channel hb
      · exact .nothing
    | publish channel data =>
      simp only
      split
      · exact frameEffect_publish b draw.notice channel data
      · exact .nothing
    | _ => exact .nothing

theorem frameEffect_handle (b : Board) (check : Check) (now : Nat) (draw : Draw)
    (l : LineNumber) (m : Envelope) : FrameEffect b (b.handle check now draw l m).2 := by
  have h := frameEffect_dispatch b check now draw l m
  rw [handle]
  rcases e : b.dispatch check now draw l m with ⟨body | f | -, b'⟩ <;>
  · rw [e] at h
    exact h

/-- A frame has the effect of its message, and then the reply is offered to the client's queue, if
there is one. -/
theorem handleFrame_cases (b : Board) (check : Check) (now : Nat) (draw : Draw) (l : LineNumber)
    (content : Bytes) : ∃ b', FrameEffect b b' ∧
      ((b.handleFrame check now draw l content).2 = b' ∨
        ∃ m, (b.handleFrame check now draw l content).2 = (b'.offer l m).2) := by
  rw [handleFrame]
  rcases Envelope.ofBytes draw.received content with f | m
  · exact ⟨b, .nothing, .inr ⟨_, rfl⟩⟩
  · have h := frameEffect_handle b check now draw l m
    rcases e : b.handle check now draw l m with ⟨- | reply, b'⟩
    · rw [e] at h
      exact ⟨b', h, .inl (by simp [e])⟩
    · rw [e] at h
      exact ⟨b', h, .inr ⟨reply, by simp [e]⟩⟩

/-! ### Frames that break down -/

/-- The handling of a frame breaks down: a client without an identity tries to prove one, with a
token at which the check breaks down. -/
def BreaksDown (b : Board) (check : Check) (draw : Draw) (l : LineNumber) (content : Bytes) :
    Prop :=
  ∃ c m token, b.lines[l]? = some c ∧ c.identity = none ∧
    Envelope.ofBytes draw.received content = .ok m ∧ m.body = .auth token ∧
    check draw.session token = .broken

/-- A frame whose handling breaks down leaves no trace on the board. -/
theorem BreaksDown.handleFrame_eq {check : Check} {draw : Draw} {content : Bytes}
    (h : b.BreaksDown check draw l content) (now : Nat) :
    b.handleFrame check now draw l content = (false, b) := by
  obtain ⟨c, m, token, hc, hi, hm, hbody, htoken⟩ := h
  have hd : b.dispatch check now draw l m = (.broken, b) := by
    simp [dispatch, hc, hbody, authenticate, Connection.isIdentified, hi, htoken]
  have hh : b.handle check now draw l m = (none, b) := by rw [handle, hd]
  simp only [handleFrame, hm, hh]

/-- With a check that never breaks down, no frame does. -/
theorem not_breaksDown {check : Check} {draw : Draw} {content : Bytes}
    (hcheck : ∀ session token, check session token ≠ .broken) :
    ¬ b.BreaksDown check draw l content := by
  rintro ⟨c, m, token, -, -, -, -, hbroken⟩
  exact hcheck draw.session token hbroken

theorem answering_ne_broken (b : Board) (body : Body) (r : Except Fault Board) :
    (b.answering body r).1 ≠ .broken := by
  rcases answering_cases b body r with ⟨b', -, e⟩ | ⟨f, -, e⟩ <;>
  · rw [e]
    simp

theorem broken_dispatch {check : Check} {now : Nat} {draw : Draw} {m : Envelope}
    (h : (b.dispatch check now draw l m).1 = .broken) :
    ∃ c token, b.lines[l]? = some c ∧ c.identity = none ∧ m.body = .auth token ∧
      check draw.session token = .broken := by
  rw [dispatch] at h
  rcases hc : b.lines[l]? with - | c
  · simp [hc] at h
  · simp only [hc] at h
    cases hb : m.body with
    | auth token =>
      simp only [hb] at h
      rw [authenticate] at h
      by_cases hi : c.isIdentified = true
      · rw [if_pos hi] at h
        cases h
      · rw [if_neg hi] at h
        have hnone : c.identity = none := by simpa [Connection.isIdentified] using hi
        cases ht : check draw.session token with
        | broken => exact ⟨c, token, rfl, hnone, rfl, ht⟩
        | refused reason => simp [ht] at h
        | accepted who =>
          rw [ht] at h
          exact absurd h (answering_ne_broken _ _ _)
    | subscribe channel | unsubscribe channel =>
      simp only [hb] at h
      split at h
      · exact absurd h (answering_ne_broken _ _ _)
      · cases h
    | publish channel data =>
      simp only [hb] at h
      split at h
      · rw [Board.publish] at h
        cases e : checkChannel channel <;> simp [e] at h
      · cases h
    | _ => simp [hb] at h

/-- No other frame breaks down. -/
theorem breaksDown_of_not_done {check : Check} {now : Nat} {draw : Draw} {content : Bytes}
    (h : (b.handleFrame check now draw l content).1 = false) :
    b.BreaksDown check draw l content := by
  rw [handleFrame] at h
  rcases hm : Envelope.ofBytes draw.received content with f | m
  · simp [hm] at h
  · have hbroken : (b.dispatch check now draw l m).1 = .broken := by
      simp only [hm] at h
      rcases e : b.dispatch check now draw l m with ⟨body | f | -, b'⟩
      · simp [handle, e] at h
      · simp [handle, e] at h
      · rfl
    obtain ⟨c, token, hc, hi, hb, ht⟩ := broken_dispatch hbroken
    exact ⟨c, m, token, hc, hi, hm, hb, ht⟩

end Board

end Switchboard
