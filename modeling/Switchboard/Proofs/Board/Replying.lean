/-
Switchboard/Proofs/Board/Replying.lean

What a frame comes to, whatever it holds.

Everybody's queue is bounded, that of the sender of a frame as well, and the
reply to a frame is the last thing that is put there.  `heeding` is the board
at that moment: what the frame asks for has been done, and only the reply is
left.  If the frame has been published to a channel that its sender listens
to, the sender's own notice stands in the queue by then, and may have taken
the room that the reply would have needed.

How far the queue of the sender grows is a matter of its `room`: of the notice
and the reply, in this order, it takes so many.  Of everybody else a frame
changes nothing but the queues that a notice reaches.  The reason is that what
a client asks for is done on behalf of its name, and on a board whose indices
are in step the name of a connection leads to nobody else.
-/
import Switchboard.Proofs.Board.Publishing

namespace Switchboard

/-! ### Room -/

namespace Connection

variable {c : Connection} {m : Envelope} {a : Act}

/-- The number of messages that the connection still accepts. -/
def room (c : Connection) : Nat :=
  if c.closed = false ∧ c.outbox.attended = true then c.outbox.capacity - c.outbox.size else 0

theorem accepts_iff_room : c.accepts = true ↔ 0 < c.room := by
  rw [accepts, room, Outbox.size]
  split
  · rename_i h
    simp [h.1, h.2]
  · rename_i h
    simp only [Bool.and_eq_true, Bool.not_eq_true', decide_eq_true_eq]
    exact ⟨fun h' => absurd h'.1 h, fun h' => absurd h' (Nat.lt_irrefl 0)⟩

theorem room_push : (c.push m).room = c.room - 1 := by
  show (if c.closed = false ∧ c.outbox.attended = true then
    c.outbox.capacity - (c.outbox.waiting ++ [m]).length else 0) = _
  rw [room, Outbox.size, List.length_append]
  split
  · exact Nat.sub_add_eq _ _ _
  · rfl

/-- The connection when a message has been offered to it. -/
def offered (m : Envelope) (c : Connection) : Connection := if c.accepts then c.push m else c

theorem waiting_offered :
    (c.offered m).outbox.waiting = c.outbox.waiting ++ [m].take c.room := by
  rw [offered]
  split
  · rename_i h
    obtain ⟨n, hn⟩ := Nat.exists_eq_succ_of_ne_zero (accepts_iff_room.1 h).ne'
    rw [hn, List.take_succ_cons, List.take_nil]
    rfl
  · rename_i h
    have hn : c.room = 0 := by
      have := accepts_iff_room.not.1 h
      omega
    rw [hn, List.take_zero, List.append_nil]

theorem room_offered : (c.offered m).room = c.room - 1 := by
  rw [offered]
  split
  · exact room_push
  · rename_i h
    have := accepts_iff_room.not.1 h
    omega

/-- What is done to a connection for its own sake, and does not concern its queue. -/
def Act.Personal : Act → Prop
  | .touch _ | .identify _ | .join _ | .leave _ => True
  | _ => False

/-- What a connection accepts does not depend on who it is and what it listens to. -/
theorem queue_run {as : List Act} (h : ∀ a ∈ as, a.Personal) (c : Connection) :
    (c.run as).outbox = c.outbox ∧ (c.run as).closed = c.closed := by
  induction as generalizing c with
  | nil => exact ⟨rfl, rfl⟩
  | cons a as ih =>
    obtain ⟨ha, has⟩ := List.forall_mem_cons.1 h
    have hone : (c.after a).outbox = c.outbox ∧ (c.after a).closed = c.closed := by
      cases a with
      | touch _ | join _ | leave _ => exact ⟨rfl, rfl⟩
      | identify who =>
        rcases hi : c.identity with - | old <;>
          simp [Connection.after, Connection.orKeep, Connection.identify, hi]
      | _ => exact ha.elim
    obtain ⟨houtbox, hclosed⟩ := ih has (c.after a)
    exact ⟨houtbox.trans hone.1, hclosed.trans hone.2⟩

theorem room_run {as : List Act} (h : ∀ a ∈ as, a.Personal) (c : Connection) :
    (c.run as).room = c.room := by
  obtain ⟨houtbox, hclosed⟩ := queue_run h c
  rw [room, room, houtbox, hclosed]

end Connection

namespace Board

open Connection (Act)

variable {b : Board} {l l' : LineNumber} {c : Connection} {k : Call} {check : Check} {now : Nat}
  {draw : Draw} {content : Bytes} {m : Envelope} {channel : String} {data : Json}

/-! ### One offer -/

theorem getElem?_offered (hc : b.lines[l]? = some c) (m : Envelope) :
    (b.offer l m).2.lines[l]? = some (c.offered m) := by
  have ha : b.accepts l = c.accepts := by simp [Board.accepts, hc]
  rw [Connection.offered]
  split
  · rename_i h
    rw [offer_of_accepts (ha.trans h)]
    exact getElem?_modify_self hc
  · rename_i h
    rw [offer_of_not_accepts (ha.trans (by simpa using h))]
    exact hc

theorem getElem?_offer_ne (h : l ≠ l') (m : Envelope) :
    (b.offer l m).2.lines[l']? = b.lines[l']? := by
  rw [getElem?_offer]
  exact getElem?_modify_ne h

theorem waiting_eq (hc : b.lines[l]? = some c) : b.waiting l = c.outbox.waiting := by
  simp [waiting, hc]

theorem waiting_offer (hc : b.lines[l]? = some c) (m : Envelope) :
    (b.offer l m).2.waiting l = b.waiting l ++ [m].take c.room := by
  rw [waiting_eq (getElem?_offered hc m), waiting_eq hc, Connection.waiting_offered]

/-! ### Before the reply -/

/-- The board when the reply to a frame is made: what the frame asks for has been done. -/
def heeding (b : Board) (check : Check) (now : Nat) (draw : Draw) (l : LineNumber)
    (content : Bytes) : Board :=
  match Envelope.ofBytes draw.received content with
  | .error _ => b
  | .ok m => (b.dispatch check now draw l m).2

/-- The frame publishes something: its sender may do so, and the channel has a proper name. -/
def Publishes (b : Board) (draw : Draw) (l : LineNumber) (content : Bytes) (channel : String)
    (data : Json) : Prop :=
  ∃ c m, b.lines[l]? = some c ∧ c.isIdentified = true ∧
    Envelope.ofBytes draw.received content = .ok m ∧ m.body = .publish channel data ∧
    checkChannel channel = .ok ()

theorem Publishes.heeding_eq (h : b.Publishes draw l content channel data) :
    b.heeding check now draw l content = (b.toChannel channel (notice draw channel data)).2 := by
  obtain ⟨c, m, hc, hi, hm, hbody, hcheck⟩ := h
  rw [heeding, hm]
  simp only [dispatch, hc, hbody, hi, if_true, Board.publish, hcheck]
  rfl

/-- A call on behalf of a connection itself. -/
def Call.OnBehalf (l : LineNumber) (id : ConnectionId) : Call → Prop
  | .touch l' _ => l' = l
  | .identify id' _ | .subscribe id' _ | .unsubscribe id' _ => id' = id
  | _ => False

/-- What a client asks for is to publish something, or is done on its own behalf. -/
theorem request?_cases (hc : b.lines[l]? = some c)
    (hm : Envelope.ofBytes draw.received content = .ok m)
    (hk : b.request? check now draw l m = some k) :
    (∃ channel data, b.Publishes draw l content channel data) ∨ k.OnBehalf l c.id := by
  rw [request?, hc] at hk
  cases hbody : m.body with
  | publish channel data =>
    simp only [hbody] at hk
    rcases hcheck : checkChannel channel with f | ⟨⟩
    · simp [hcheck] at hk
    · simp only [hcheck] at hk
      split at hk
      · rename_i hi
        exact .inl ⟨channel, data, c, m, hc, hi, hm, hbody, hcheck⟩
      · cases hk
  | auth token =>
    simp only [hbody] at hk
    split at hk
    · cases hk
    · split at hk <;> cases hk
      exact .inr rfl
  | subscribe channel | unsubscribe channel =>
    simp only [hbody] at hk
    split at hk <;> cases hk
    exact .inr rfl
  | ping =>
    simp only [hbody] at hk
    cases hk
    exact .inr rfl
  | _ => simp [hbody] at hk

/-- The name of a connection leads to nobody else. -/
theorem InStep.line_eq_of_find? (h : b.InStep) (hc : b.lines[l]? = some c)
    (hl : b.find? c.id = some l') : l' = l := by
  obtain ⟨c', hc', hid⟩ := h.named hl
  exact line_eq_of_distinct h.distinct hc' hc hid

/-- What is done on behalf of a connection is done to it alone, and not to its queue. -/
theorem InStep.plainActs_onBehalf (h : b.InStep) (hc : b.lines[l]? = some c)
    (hk : k.OnBehalf l c.id) :
    (∀ a ∈ plainActs l b k, a.Personal) ∧ ∀ l', l ≠ l' → plainActs l' b k = [] := by
  have hnamed : ∀ {a : Act}, a.Personal →
      (∀ a' ∈ aimed l (b.find? c.id).toList a, a'.Personal) ∧
        ∀ l', l ≠ l' → aimed l' (b.find? c.id).toList a = [] := by
    intro a ha
    refine ⟨fun a' ha' => (mem_aimed.1 ha').2 ▸ ha, fun l' hne => aimed_eq_nil fun hl' => ?_⟩
    exact hne (h.line_eq_of_find? hc (Option.mem_toList.1 hl')).symm
  cases k with
  | touch l₁ now =>
    obtain rfl : l₁ = l := hk
    refine ⟨fun a ha => (mem_aimed.1 ha).2 ▸ trivial, fun l' hne => aimed_eq_nil ?_⟩
    simpa using hne.symm
  | identify id who =>
    obtain rfl : id = c.id := hk
    exact hnamed (a := .identify who) trivial
  | subscribe id channel | unsubscribe id channel =>
    obtain rfl : id = c.id := hk
    simp only [plainActs]
    -- nothing is done on a channel whose name is refused
    rcases checkChannel channel with f | ⟨⟩
    · exact ⟨by simp, fun _ _ => rfl⟩
    · exact hnamed trivial
  | _ => exact hk.elim

/-- **Nothing but a publication reaches anybody else**, and nothing else changes a queue before the
reply. -/
theorem InStep.heeding_quiet (h : b.InStep) (hc : b.lines[l]? = some c)
    (hno : ∀ channel data, ¬ b.Publishes draw l content channel data) (check : Check)
    (now : Nat) :
    (∃ c', (b.heeding check now draw l content).lines[l]? = some c' ∧
      c'.outbox.waiting = c.outbox.waiting ∧ c'.room = c.room) ∧
    ∀ l', l ≠ l' → (b.heeding check now draw l content).lines[l']? = b.lines[l']? := by
  rw [heeding]
  rcases hm : Envelope.ofBytes draw.received content with failure | m
  · exact ⟨⟨c, hc, rfl, rfl⟩, fun _ _ => rfl⟩
  · simp only [dispatch_eq_run]
    rcases hk : b.request? check now draw l m with - | k
    · exact ⟨⟨c, hc, rfl, rfl⟩, fun _ _ => rfl⟩
    · have hplain := (scripted_of_request? hk).plain
      obtain ⟨hown, hothers⟩ :=
        h.plainActs_onBehalf hc ((request?_cases hc hm hk).resolve_left fun ⟨ch, d, hp⟩ =>
          hno ch d hp)
      have hafter : ∀ i : LineNumber, (b.run (some k).toList).lines[i]? =
          b.lines[i]?.map (·.run (plainActs i b k)) :=
        getElem?_after_plain hplain.1 hplain.2
      refine ⟨⟨c.run (plainActs l b k), ?_, ?_, Connection.room_run hown c⟩, fun l' hne => ?_⟩
      · rw [hafter, hc]
        rfl
      · rw [(Connection.queue_run hown c).1]
      · rw [hafter, hothers l' hne]
        exact map_run_nil _

/-! ### The reply -/

/-- A reply is made to every frame, with a check that does not break down. -/
theorem exists_reply (hcheck : ∀ session token, check session token ≠ .broken) (b : Board)
    (now : Nat) (draw : Draw) (l : LineNumber) (content : Bytes) :
    ∃ reply, b.handleFrame check now draw l content =
        (true, ((b.heeding check now draw l content).offer l reply).2) ∧
      match Envelope.ofBytes draw.received content with
      | .error failure => reply = Envelope.new draw.reply (Fault.malformed failure).body
      | .ok m => ∃ body, reply = Envelope.reply draw.reply m body := by
  rw [handleFrame, heeding]
  rcases Envelope.ofBytes draw.received content with failure | m
  · exact ⟨_, rfl, rfl⟩
  · have hbroken : (b.dispatch check now draw l m).1 ≠ .broken := by
      intro h
      obtain ⟨c, token, -, -, -, ht⟩ := broken_dispatch h
      exact hcheck _ _ ht
    rcases e : b.dispatch check now draw l m with ⟨body | f | -, b'⟩
    · exact ⟨_, by simp [handle, e], body, rfl⟩
    · exact ⟨_, by simp [handle, e], f.body, rfl⟩
    · exact absurd (by rw [e]) hbroken

/-- The sender of a frame is told of what it publishes. -/
def IsTold (b : Board) (draw : Draw) (l : LineNumber) (c : Connection) (content : Bytes) : Prop :=
  ∃ channel data, b.Publishes draw l content channel data ∧ channel ∈ c.subscriptions

/-- What becomes of a frame and of the reply to it. -/
structure Answered (b : Board) (check : Check) (now : Nat) (draw : Draw) (l : LineNumber)
    (c : Connection) (content : Bytes) (reply : Envelope) : Prop where
  /-- The reply is offered to the queue of the sender, once, when all else has been done. -/
  last : b.handleFrame check now draw l content =
    (true, ((b.heeding check now draw l content).offer l reply).2)
  /-- It says what is wrong with a frame that is no message, or refers to the message. -/
  made : match Envelope.ofBytes draw.received content with
    | .error failure => reply = Envelope.new draw.reply (Fault.malformed failure).body
    | .ok m => ∃ body, reply = Envelope.reply draw.reply m body
  /-- If the sender has room by then, the reply is the last in its queue; and it has the room that
  it had before, but for one place if it is told of what it publishes. -/
  stored : ∃ c', (b.heeding check now draw l content).lines[l]? = some c' ∧
    c.room ≤ c'.room + 1 ∧ (¬ b.IsTold draw l c content → c'.room = c.room) ∧
    (0 < c'.room → (b.handleFrame check now draw l content).2.waiting l =
      c'.outbox.waiting ++ [reply])
  /-- If the sender is told of what it publishes, its queue takes the notice and the reply, in this
  order, as far as there is room. -/
  told : ∀ channel data, b.Publishes draw l content channel data → channel ∈ c.subscriptions →
    (b.handleFrame check now draw l content).2.waiting l =
      b.waiting l ++ [notice draw channel data, reply].take c.room
  /-- Otherwise it takes the reply if there is room. -/
  alone : ¬ b.IsTold draw l c content →
    (b.handleFrame check now draw l content).2.waiting l = b.waiting l ++ [reply].take c.room
  /-- Before a frame that is no message is answered, it has changed nothing. -/
  malformed : ∀ failure, Envelope.ofBytes draw.received content = .error failure →
    b.heeding check now draw l content = b
  /-- Whoever else awaits something published gets the notice once. -/
  reached : ∀ channel data, b.Publishes draw l content channel data → ∀ l' c', l ≠ l' →
    b.Awaits (fun c => c.subscriptions.contains channel) l' c' →
    (b.handleFrame check now draw l content).2.lines[l']? =
      some (c'.push (notice draw channel data))
  /-- Of anybody else nothing changes. -/
  others : ∀ l', l ≠ l' →
    (∀ channel data, b.Publishes draw l content channel data →
      ∀ c', ¬ b.Awaits (fun c => c.subscriptions.contains channel) l' c') →
    (b.handleFrame check now draw l content).2.lines[l']? = b.lines[l']?

/-- The sender's own notice takes the first place that is free. -/
theorem InStep.heeding_told (h : b.InStep) (hl : b.registered[c.id]? = some l)
    (hc : b.lines[l]? = some c) (hp : b.Publishes draw l content channel data)
    (hs : channel ∈ c.subscriptions) (check : Check) (now : Nat) :
    (b.heeding check now draw l content).lines[l]? =
      some (c.offered (notice draw channel data)) := by
  have hholds : b.Holds (fun c => c.subscriptions.contains channel) l c :=
    ⟨⟨c.id, hl⟩, hc, by simpa using hs⟩
  have d := h.delivers_toChannel channel (notice draw channel data)
  have hiff := accepts_iff hc
  have ha : b.accepts l = c.accepts := by simp [Board.accepts, hc]
  rw [hp.heeding_eq, Connection.offered]
  split
  · rename_i haccepts
    exact d.reached ⟨hholds, hiff.1 (ha.trans haccepts)⟩
  · rename_i haccepts
    refine (d.others fun c' hawaits => haccepts ?_).trans hc
    cases hc.symm.trans hawaits.1.2.1
    exact ha.symm.trans (hiff.2 hawaits.2)

/-- If there is no notice for the sender, its queue is the same until the reply comes. -/
theorem InStep.heeding_alone (h : b.InStep) (hc : b.lines[l]? = some c)
    (hno : ¬ b.IsTold draw l c content) (check : Check) (now : Nat) :
    ∃ c', (b.heeding check now draw l content).lines[l]? = some c' ∧
      c'.outbox.waiting = c.outbox.waiting ∧ c'.room = c.room := by
  by_cases hp : ∃ channel data, b.Publishes draw l content channel data
  · obtain ⟨channel, data, hp⟩ := hp
    refine ⟨c, ?_, rfl, rfl⟩
    rw [hp.heeding_eq]
    refine ((h.delivers_toChannel channel _).others fun c' hawaits => ?_).trans hc
    cases hc.symm.trans hawaits.1.2.1
    exact hno ⟨channel, data, hp, by simpa using hawaits.1.2.2⟩
  · exact (h.heeding_quiet hc (fun ch d h => hp ⟨ch, d, h⟩) check now).1

/-- The sender is there when the reply is made, and has lost one place at most. -/
theorem InStep.heeding_own (h : b.InStep) (hl : b.registered[c.id]? = some l)
    (hc : b.lines[l]? = some c) (check : Check) (now : Nat) (draw : Draw) (content : Bytes) :
    ∃ c', (b.heeding check now draw l content).lines[l]? = some c' ∧ c.room ≤ c'.room + 1 ∧
      (¬ b.IsTold draw l c content → c'.room = c.room) := by
  by_cases htold : b.IsTold draw l c content
  · obtain ⟨channel, data, hp, hs⟩ := id htold
    refine ⟨_, h.heeding_told hl hc hp hs check now, ?_, absurd htold⟩
    rw [Connection.room_offered]
    omega
  · obtain ⟨c', hc', -, hroom⟩ := h.heeding_alone hc htold check now
    exact ⟨c', hc', by omega, fun _ => hroom⟩

/-- **Every frame of a registered client is answered, and disturbs nobody.**  The reply is made once
and offered to the sender when all else has been done; it finds a place if two are free before, and
if one is, unless the sender's own notice takes it.  Of all the others nothing changes but the
queues that a notice reaches. -/
theorem frame_answered {policy : Policy} {b : Board} (h : Reachable policy b) {l : LineNumber}
    {c : Connection} (hl : b.registered[c.id]? = some l) (hc : b.lines[l]? = some c)
    {check : Check} (hcheck : ∀ session token, check session token ≠ .broken) (now : Nat)
    (draw : Draw) (content : Bytes) :
    ∃ reply, b.Answered check now draw l c content reply := by
  have hi := h.inStep
  obtain ⟨reply, hlast, hmade⟩ := exists_reply hcheck b now draw l content
  have hafter : (b.handleFrame check now draw l content).2 =
      ((b.heeding check now draw l content).offer l reply).2 := by rw [hlast]
  refine ⟨reply, hlast, hmade, ?_, ?_, ?_, ?_, ?_, ?_⟩
  · obtain ⟨c', hc', hle, hroom⟩ := hi.heeding_own hl hc check now draw content
    refine ⟨c', hc', hle, hroom, fun hpos => ?_⟩
    obtain ⟨n, hn⟩ := Nat.exists_eq_succ_of_ne_zero hpos.ne'
    rw [hafter, waiting_offer hc', waiting_eq hc', hn, List.take_succ_cons, List.take_nil]
  · intro channel data hp hs
    have hc' := hi.heeding_told hl hc hp hs check now
    -- the notice comes first, and the reply goes by the room that it has left
    rw [hafter, waiting_offer hc', waiting_eq hc', Connection.waiting_offered,
      Connection.room_offered, waiting_eq hc, List.append_assoc]
    have htake : ([notice draw channel data] ++ [reply]).take c.room =
        [notice draw channel data].take c.room ++ [reply].take (c.room - 1) := List.take_append
    exact congrArg _ htake.symm
  · intro hno
    obtain ⟨c', hc', hwaiting, hroom⟩ := hi.heeding_alone hc hno check now
    rw [hafter, waiting_offer hc', waiting_eq hc', hwaiting, hroom, waiting_eq hc]
  · intro failure hm
    rw [heeding, hm]
  · intro channel data hp l' c' hne hawaits
    rw [hafter, getElem?_offer_ne hne, hp.heeding_eq]
    exact (hi.delivers_toChannel channel _).reached hawaits
  · intro l' hne hno
    rw [hafter, getElem?_offer_ne hne]
    by_cases hp : ∃ channel data, b.Publishes draw l content channel data
    · obtain ⟨channel, data, hp⟩ := hp
      rw [hp.heeding_eq]
      exact (hi.delivers_toChannel channel _).others (hno channel data hp)
    · exact (hi.heeding_quiet hc (fun ch d h => hp ⟨ch, d, h⟩) check now).2 l' hne

/-- Two clients listen to a channel, and the one with an identity has room for a single message. -/
def crampedReadership : List Call :=
  [.enter 1 1 0, .enter 2 4 0, .identify 1 ⟨"ann", "a"⟩, .subscribe 1 "doc", .subscribe 2 "doc"]

/-- When that client publishes something, its own notice takes the place, and the acknowledgement is
dropped; the other client gets the notice too. -/
theorem frame_answered_cramped :
    FreshRun (Board.empty .standard) crampedReadership ∧
      let b := (Board.empty .standard).run crampedReadership
      let check : Check := fun _ _ => .refused "invalid token"
      ∃ c reply, b.registered[c.id]? = some 0 ∧ b.lines[0]? = some c ∧ c.room = 1 ∧
        b.IsTold noonDraw 0 c nameless ∧ b.Answered check 0 noonDraw 0 c nameless reply ∧
        ((b.handleFrame check 0 noonDraw 0 nameless).2.waiting 0).map Envelope.kind = [.notify] ∧
        ((b.handleFrame check 0 noonDraw 0 nameless).2.waiting 1).map Envelope.kind =
          [.notify] := by
  have hf : FreshRun (Board.empty .standard) crampedReadership := by decide +kernel
  refine ⟨hf, ?_⟩
  intro b check
  have hline : b.lines[0]?.map (fun c =>
      (c.id, c.room, c.isIdentified, c.subscriptions.contains "doc")) =
      some (1, 1, true, true) := by decide +kernel
  obtain ⟨c, hc, e⟩ := Option.map_eq_some_iff.1 hline
  obtain ⟨hid, hroom, hi, hs⟩ : c.id = 1 ∧ c.room = 1 ∧ c.isIdentified = true ∧
      c.subscriptions.contains "doc" = true := by simpa using e
  have hl : b.registered[c.id]? = some 0 := by
    rw [hid]
    decide +kernel
  have hm : Envelope.ofBytes noonDraw.received nameless = .ok ⟨"noon", noon.time,
      .publish "doc" (.list [.list [.integer (-5)], .record [("a", .list []), ("b", .integer 1)]]),
      none, none⟩ := by cbv
  have hk : checkChannel "doc" = .ok () := if_neg (by decide)
  have hcheck : ∀ session token, check session token ≠ .broken := by simp [check]
  obtain ⟨reply, hanswered⟩ :=
    frame_answered (Reachable.empty.run hf) hl hc hcheck 0 noonDraw nameless
  exact ⟨c, reply, hl, hc, hroom, ⟨_, _, ⟨c, _, hc, hi, hm, rfl, hk⟩, by simpa using hs⟩,
    hanswered, by decide +kernel, by decide +kernel⟩

end Board

end Switchboard
