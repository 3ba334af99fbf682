/-
Switchboard/Proofs/Board/Fanout.lean

Who gets a message that goes to many.

The board looks the connections up in its indices; the promise is about what
the connections say of themselves.  `Delivers` is the promise: every
registered connection of a sort that is open, is attended and has room gets
the message once, at the end of its queue, nothing else changes, and the
answer is the number of queues that grew.

An offer keeps it whenever its list names the registered connections of the
sort, each once, and in whatever order.  On a board whose indices are in
step the lists of the three ways of delivery do, and an acknowledgement of
something published reports the number of such a delivery.
-/
import Switchboard.Proofs.Board.Consistency

namespace Switchboard.Board

variable {b b' : Board} {id : ConnectionId} {l : LineNumber} {c : Connection} {m : Envelope}
variable {p : Connection → Bool} {ls : List LineNumber}

/-! ### The promise -/

/-- The connection of that number is registered and of a sort. -/
def Holds (b : Board) (p : Connection → Bool) (l : LineNumber) (c : Connection) : Prop :=
  (∃ id : ConnectionId, b.registered[id]? = some l) ∧ b.lines[l]? = some c ∧ p c = true

/-- The connection of that number is to get a message that goes to all of a sort: it is one of them,
open, attended, and has room. -/
def Awaits (b : Board) (p : Connection → Bool) (l : LineNumber) (c : Connection) : Prop :=
  b.Holds p l c ∧ c.closed = false ∧ c.outbox.attended = true ∧
    c.outbox.waiting.length < c.outbox.capacity

/-- The messages that wait for the connection of that number. -/
def waiting (b : Board) (l : LineNumber) : List Envelope :=
  (b.lines[l]?.map fun c => c.outbox.waiting).getD []

/-- How many queues of a board are longer on another. -/
def grown (b b' : Board) : Nat :=
  (List.range b.lines.length).countP fun l => (b.waiting l).length < (b'.waiting l).length

/-- What comes of a message to all of a sort, the answer being the number and the board. -/
structure Delivers (b : Board) (m : Envelope) (p : Connection → Bool) (result : Nat × Board) :
    Prop where
  /-- Whoever awaits the message has it once more, behind what waited before. -/
  reached : ∀ {l : LineNumber} {c : Connection}, b.Awaits p l c →
    result.2.lines[l]? = some { c with outbox := { c.outbox with
      waiting := c.outbox.waiting ++ [m] } }
  /-- Of everyone else nothing changes. -/
  others : ∀ {l : LineNumber}, (∀ c, ¬ b.Awaits p l c) → result.2.lines[l]? = b.lines[l]?
  /-- Nor does anything change beside the queues. -/
  rest : result.2 = { b with lines := result.2.lines }
  count : result.1 = b.grown result.2

/-! ### Offers -/

/-- Who accepts a message, by its state. -/
theorem accepts_iff (hc : b.lines[l]? = some c) : b.accepts l = true ↔
    c.closed = false ∧ c.outbox.attended = true ∧
      c.outbox.waiting.length < c.outbox.capacity := by
  simp [accepts, hc, Connection.accepts, and_assoc]

/-- Whoever is on the list and accepts is one of those that the message is for. -/
theorem awaits_iff (hm : ∀ l, l ∈ ls ↔ ∃ c, b.Holds p l c) (hc : b.lines[l]? = some c) :
    b.Awaits p l c ↔ l ∈ ls ∧ b.accepts l = true := by
  rw [Awaits, hm, accepts_iff hc]
  refine and_congr_left fun _ => ⟨fun h => ⟨c, h⟩, ?_⟩
  rintro ⟨c', h⟩
  have hcc : some c' = some c := h.2.1.symm.trans hc
  cases hcc
  exact h

/-- What handing out makes of a queue. -/
theorem waiting_handOut (b : Board) (m : Envelope) (ls : List LineNumber) (l : LineNumber) :
    (b.handOut m ls).waiting l =
      if l ∈ ls ∧ b.accepts l = true then b.waiting l ++ [m] else b.waiting l := by
  rw [waiting, waiting, getElem?_handOut, accepts]
  rcases b.lines[l]? with - | c
  · simp
  · by_cases h : l ∈ ls ∧ c.accepts = true
    · simp [h, Connection.push]
    · simp [h]

/-- Of the connections that a list names, those that accept the message are those whose queues
grow. -/
theorem countP_accepts_eq_grown (hn : ls.Nodup) :
    ls.countP b.accepts = b.grown (b.handOut m ls) := by
  rw [grown, List.countP_eq_length_filter, List.countP_eq_length_filter]
  refine List.Perm.length_eq ?_
  refine (List.perm_ext_iff_of_nodup (hn.filter _) (List.nodup_range.filter _)).2 fun l => ?_
  rw [List.mem_filter, List.mem_filter, waiting_handOut, List.mem_range]
  by_cases h : l ∈ ls ∧ b.accepts l = true
  · have hl : l < b.lines.length := by
      rcases e : b.lines[l]? with - | c
      · simp [accepts, e] at h
      · exact (List.getElem?_eq_some_iff.1 e).1
    simp [h, hl]
  · simp [h]

/-- An offer to the registered connections of a sort, each named once, reaches them as promised. -/
theorem delivers_offerAll (hn : ls.Nodup) (hm : ∀ l, l ∈ ls ↔ ∃ c, b.Holds p l c) :
    b.Delivers m p (offerAll m ls b) := by
  rw [offerAll_eq hn]
  refine ⟨?_, ?_, rfl, countP_accepts_eq_grown hn⟩
  · -- whoever awaits the message is on the list and accepts it
    intro l c h
    have hc := h.1.2.1
    obtain ⟨hl, ha⟩ := (awaits_iff hm hc).1 h
    have hca : c.accepts = true := by simpa [accepts, hc] using ha
    rw [getElem?_handOut, hc, Option.map_some, if_pos ⟨hl, hca⟩]
    rfl
  · intro l h
    rw [getElem?_handOut]
    rcases e : b.lines[l]? with - | c
    · rfl
    · have hno : ¬ (l ∈ ls ∧ c.accepts = true) := by
        rintro ⟨hl, hca⟩
        exact h c ((awaits_iff hm e).2 ⟨hl, by simpa [accepts, e] using hca⟩)
      rw [Option.map_some, if_neg hno]

/-- The order of an offer does not show in what comes of it. -/
theorem offerAll_perm {ls' : List LineNumber} (hn : ls.Nodup) (hp : ls'.Perm ls) :
    offerAll m ls' b = offerAll m ls b := by
  have hl : b.handOut m ls' = b.handOut m ls := by
    refine congrArg (fun lines => { b with lines }) (List.ext_getElem? fun l => ?_)
    refine (getElem?_handOut b m ls' l).trans (Eq.trans ?_ (getElem?_handOut b m ls l).symm)
    simp only [hp.mem_iff]
  rw [offerAll_eq hn, offerAll_eq (hp.nodup_iff.2 hn), hp.countP_eq, hl]

/-! ### The lists of the indices -/

theorem values_eq (t : Std.ExtTreeMap ConnectionId LineNumber) :
    t.values = t.toList.map Prod.snd := by
  obtain ⟨⟨t⟩⟩ := t
  induction t using Quotient.ind with
  | _ t =>
    show t.inner.values = (Std.DTreeMap.Internal.Impl.Const.toList t.inner).map Prod.snd
    rw [Std.DTreeMap.Internal.Impl.values_eq_map_snd,
      Std.DTreeMap.Internal.Impl.Const.toList_eq_toListModel_map, List.map_map]
    rfl

/-- The lines of the registered connections. -/
theorem mem_values :
    l ∈ b.registered.values ↔ ∃ id : ConnectionId, b.registered[id]? = some l := by
  rw [values_eq, List.mem_map]
  constructor
  · rintro ⟨⟨id, _⟩, hr, rfl⟩
    exact ⟨id, Std.ExtTreeMap.mem_toList_iff_getElem?_eq_some.1 hr⟩
  · rintro ⟨id, hl⟩
    exact ⟨(id, l), Std.ExtTreeMap.mem_toList_iff_getElem?_eq_some.2 hl, rfl⟩

/-- The numbers that names lead to are all different. -/
theorem InStep.nodup_values (h : b.InStep) : b.registered.values.Nodup := by
  rw [values_eq, List.Nodup, List.pairwise_map]
  refine List.Pairwise.imp_of_mem ?_ b.pairwise_registered
  -- two entries with one number would have one name
  rintro ⟨id, l⟩ ⟨id', l'⟩ hr hr' hne e
  cases e
  rw [Std.ExtTreeMap.mem_toList_iff_getElem?_eq_some] at hr hr'
  exact hne (h.registered_inj hr hr')

/-- Different names lead to different connections, so nobody is found twice. -/
theorem InStep.nodup_find {ids : List ConnectionId} (h : b.InStep) (hn : ids.Nodup) :
    (ids.filterMap b.find?).Nodup :=
  hn.filterMap fun _ _ _ hl hl' => h.registered_inj hl hl'

/-- Names that stand for the registered connections of a sort lead to these. -/
theorem mem_find {ids : List ConnectionId}
    (hids : ∀ id, id ∈ ids ↔ ∃ c, b.holder? id = some c ∧ p c = true) (l : LineNumber) :
    l ∈ ids.filterMap b.find? ↔ ∃ c, b.Holds p l c := by
  rw [List.mem_filterMap]
  constructor
  · rintro ⟨id, hid, hl⟩
    obtain ⟨c, hc, hp⟩ := (hids id).1 hid
    obtain ⟨l', hl', hc⟩ := holder?_eq_some.1 hc
    have e : some l' = some l := hl'.symm.trans hl
    cases e
    exact ⟨c, ⟨id, hl⟩, hc, hp⟩
  · rintro ⟨c, ⟨id, hl⟩, hc, hp⟩
    exact ⟨id, (hids id).2 ⟨c, holder?_of hl hc, hp⟩, hl⟩

/-- A message for everyone is for nobody twice. -/
theorem InStep.nodup_everyone (h : b.InStep) : b.everyone.Nodup := h.nodup_values.filter _

/-- Everyone is whoever is registered and has an identity. -/
theorem mem_everyone (l : LineNumber) :
    l ∈ b.everyone ↔ ∃ c, b.Holds Connection.isIdentified l c := by
  rw [everyone, List.mem_filter, mem_values, isIdentified]
  rcases e : b.lines[l]? with - | c <;> simp [Holds, e]

theorem subscribers_eq (b : Board) (channel : String) :
    b.subscribers channel = (b.channels.listed channel).toList.filterMap b.find? := by
  rw [subscribers, ChannelIndex.listed]
  rcases b.channels[channel]? with - | members <;> simp

theorem ofUser_eq (b : Board) (user : String) :
    b.ofUser user = (b.users.listed user).filterMap b.find? := by
  rw [ofUser, UserIndex.listed]
  rcases b.users[user]? with - | ids <;> simp

/-- A message for a channel is for nobody twice. -/
theorem InStep.nodup_subscribers (h : b.InStep) (channel : String) :
    (b.subscribers channel).Nodup := by
  rw [subscribers_eq]
  exact h.nodup_find (ChannelIndex.nodup_toList _)

/-- The members of a channel are those who have joined it. -/
theorem InStep.mem_subscribers (h : b.InStep) (channel : String) (l : LineNumber) :
    l ∈ b.subscribers channel ↔ ∃ c, b.Holds (fun c => c.subscriptions.contains channel) l c := by
  rw [subscribers_eq]
  refine mem_find (fun id => ?_) l
  rw [Std.ExtTreeSet.mem_toList, h.channels]
  simp only [Std.ExtTreeSet.contains_iff_mem]

/-- A message for a user is for no connection twice. -/
theorem InStep.nodup_ofUser (h : b.InStep) (user : String) : (b.ofUser user).Nodup := by
  rw [ofUser_eq]
  exact h.nodup_find (h.once user)

/-- The connections of a user are those with its identity. -/
theorem InStep.mem_ofUser (h : b.InStep) (user : String) (l : LineNumber) :
    l ∈ b.ofUser user ↔ ∃ c, b.Holds (fun c => c.user? == some user) l c := by
  rw [ofUser_eq]
  refine mem_find (fun id => ?_) l
  simp only [h.users, beq_iff_eq]

/-! ### The three ways of delivery -/

/-- **The three fan-outs** deliver to these. -/
theorem InStep.delivers_broadcast (h : b.InStep) (m : Envelope) :
    b.Delivers m Connection.isIdentified (b.broadcast m) :=
  delivers_offerAll h.nodup_everyone mem_everyone

theorem InStep.delivers_toChannel (h : b.InStep) (channel : String) (m : Envelope) :
    b.Delivers m (fun c => c.subscriptions.contains channel) (b.toChannel channel m) :=
  delivers_offerAll (h.nodup_subscribers channel) (h.mem_subscribers channel)

theorem InStep.delivers_toUser (h : b.InStep) (user : String) (m : Envelope) :
    b.Delivers m (fun c => c.user? == some user) (b.toUser user m) :=
  delivers_offerAll (h.nodup_ofUser user) (h.mem_ofUser user)

/-! ### Publishing -/

variable {check : Check} {now n : Nat} {draw : Draw} {channel : String} {data : Json}
variable {reply : Envelope}

/-- A message of a client that has an identity, to be published on a channel that may have its name,
goes to the channel, and the acknowledgement reports how many took it. -/
theorem handle_publish (hc : b.lines[l]? = some c) (hi : c.isIdentified = true)
    (hm : m.body = .publish channel data) (hk : checkChannel channel = .ok ()) :
    b.handle check now draw l m =
      let result := b.toChannel channel
        (Envelope.new draw.notice (.notify channel publishEvent data))
      (some (Envelope.reply draw.reply m (.publishAck channel result.1)), result.2) := by
  have hd : b.dispatch check now draw l m = b.publish draw.notice channel data := by
    rw [dispatch, hc]
    simp only [hm, hi, if_true]
  have hp : b.publish draw.notice channel data =
      let result := b.toChannel channel
        (Envelope.new draw.notice (.notify channel publishEvent data))
      (.answer (.publishAck channel result.1), result.2) := by
    rw [publish, hk]
  rw [handle, hd, hp]

/-- A request that only succeeds or fails is not answered with the count of a publication. -/
theorem answering_ne_publishAck {body : Body} {r : Except Fault Board}
    (hb : ∀ channel n, body ≠ .publishAck channel n) :
    b.answering body r ≠ (.answer (.publishAck channel n), b') := by
  intro e
  obtain ⟨b'', -, h⟩ | ⟨f, -, h⟩ := answering_cases b body r
  · rw [h] at e
    cases e
    exact hb _ _ rfl
  · rw [h] at e
    cases e

/-- Nor is a token. -/
theorem authenticate_ne_publishAck {session token : String} :
    b.authenticate check session c token ≠ (.answer (.publishAck channel n), b') := by
  intro e
  rw [authenticate] at e
  split at e
  · cases e
  · cases hv : check session token with
    | broken => simp [hv] at e
    | refused reason => simp [hv] at e
    | accepted who =>
      -- the answer is about the identity
      simp only [hv] at e
      exact answering_ne_publishAck (by simp) e

/-- A publication is answered with the count of its own channel only. -/
theorem publish_eq_publishAck {own : String} {notice : Stamp}
    (e : b.publish notice own data = (.answer (.publishAck channel n), b')) :
    own = channel ∧
      b.toChannel own (Envelope.new notice (.notify own publishEvent data)) = (n, b') := by
  rw [publish] at e
  cases hk : checkChannel own with
  | error f =>
    rw [hk] at e
    cases e
  | ok _ =>
    rw [hk] at e
    simp only [Prod.mk.injEq, Outcome.answer.injEq, Body.publishAck.injEq] at e
    exact ⟨e.1.1, Prod.ext e.1.2 e.2⟩

/-- Only of something published is it reported how many took it. -/
theorem dispatch_eq_publishAck
    (e : b.dispatch check now draw l m = (.answer (.publishAck channel n), b')) :
    ∃ data, m.body = .publish channel data ∧
      b.toChannel channel (Envelope.new draw.notice (.notify channel publishEvent data)) =
        (n, b') := by
  rw [dispatch] at e
  rcases hc : b.lines[l]? with - | c
  · rw [hc] at e
    cases e
  · simp only [hc] at e
    cases hm : m.body with
    | publish own data =>
      -- the one kind of message that is acknowledged so
      simp only [hm] at e
      split at e
      · obtain ⟨rfl, h⟩ := publish_eq_publishAck e
        exact ⟨data, rfl, h⟩
      · cases e
    | auth token =>
      simp only [hm] at e
      exact absurd e authenticate_ne_publishAck
    | subscribe own | unsubscribe own =>
      simp only [hm] at e
      split at e
      · exact absurd e (answering_ne_publishAck (by simp))
      · cases e
    | _ => simp [hm] at e

/-- So the count comes from the fan-out. -/
theorem handle_eq_publishAck (e : b.handle check now draw l m = (some reply, b'))
    (hr : reply.body = .publishAck channel n) :
    ∃ data, m.body = .publish channel data ∧
      b.toChannel channel (Envelope.new draw.notice (.notify channel publishEvent data)) =
        (n, b') := by
  rw [handle] at e
  rcases hd : b.dispatch check now draw l m with ⟨body | f | -, b''⟩
  · simp only [hd, Prod.mk.injEq, Option.some.injEq] at e
    obtain ⟨rfl, rfl⟩ := e
    have hbody : body = .publishAck channel n := hr
    rw [hbody] at hd
    exact dispatch_eq_publishAck hd
  · -- a fault is no acknowledgement
    simp only [hd, Prod.mk.injEq, Option.some.injEq] at e
    obtain ⟨rfl, -⟩ := e
    cases hr
  · simp [hd] at e

/-! ### Runs -/

/-- **Messages to many reach exactly those they are for, on every board that a run arrives at.**
Everyone with an identity, the subscribers of a channel and the connections of a user are told
apart by what the connections say of themselves; the order in which an index names them makes no
difference; and what an acknowledgement of something published reports is the number of queues
that its notification went into. -/
theorem reachable_delivers {policy : Policy} {b : Board} (h : Reachable policy b) (m : Envelope) :
    (b.Delivers m Connection.isIdentified (b.broadcast m) ∧
      ∀ ls : List LineNumber, ls.Perm b.everyone → offerAll m ls b = b.broadcast m) ∧
    (∀ channel : String,
      b.Delivers m (fun c => c.subscriptions.contains channel) (b.toChannel channel m) ∧
      ∀ ls : List LineNumber, ls.Perm (b.subscribers channel) →
        offerAll m ls b = b.toChannel channel m) ∧
    (∀ user : String,
      b.Delivers m (fun c => c.user? == some user) (b.toUser user m) ∧
      ∀ ls : List LineNumber, ls.Perm (b.ofUser user) → offerAll m ls b = b.toUser user m) ∧
    (∀ (check : Check) (now : Nat) (draw : Draw) (l : LineNumber) (c : Connection)
      (channel : String) (data : Json), b.lines[l]? = some c → c.isIdentified = true →
      m.body = .publish channel data → checkChannel channel = .ok () →
      ∃ n b', b.handle check now draw l m =
          (some (Envelope.reply draw.reply m (.publishAck channel n)), b') ∧
        b.Delivers (Envelope.new draw.notice (.notify channel publishEvent data))
          (fun c => c.subscriptions.contains channel) (n, b')) ∧
    (∀ (check : Check) (now : Nat) (draw : Draw) (l : LineNumber) (reply : Envelope) (b' : Board)
      (channel : String) (n : Nat), b.handle check now draw l m = (some reply, b') →
      reply.body = .publishAck channel n →
      ∃ data, m.body = .publish channel data ∧
        b.Delivers (Envelope.new draw.notice (.notify channel publishEvent data))
          (fun c => c.subscriptions.contains channel) (n, b')) := by
  have hs := h.inStep
  refine ⟨⟨hs.delivers_broadcast m, ?_⟩, ?_, ?_, ?_, ?_⟩
  · exact fun _ => offerAll_perm hs.nodup_everyone
  · exact fun channel =>
      ⟨hs.delivers_toChannel channel m, fun _ => offerAll_perm (hs.nodup_subscribers channel)⟩
  · exact fun user =>
      ⟨hs.delivers_toUser user m, fun _ => offerAll_perm (hs.nodup_ofUser user)⟩
  · intro check now draw l c channel data hc hi hm hk
    exact ⟨_, _, handle_publish hc hi hm hk, hs.delivers_toChannel channel _⟩
  · intro check now draw l reply b' channel n e hr
    obtain ⟨data, hm, hn⟩ := handle_eq_publishAck e hr
    have hd := hs.delivers_toChannel channel
      (Envelope.new draw.notice (.notify channel publishEvent data))
    rw [hn] at hd
    exact ⟨data, hm, hd⟩

/-- Noon on some day. -/
def noon : Stamp :=
  ⟨"noon", ⟨2024, 2, 29, by decide⟩, 12, 0, 0, 0, by decide, by decide, by decide, by decide⟩

/-- Of five subscribers one has no room any more, one is closed and one is no longer attended. -/
def party : List Call :=
  [.enter 1 4 0, .enter 2 1 0, .enter 3 4 0, .enter 4 4 0, .enter 5 4 0,
    .identify 1 ⟨"ann", "a"⟩, .identify 3 ⟨"ann", "c"⟩,
    .subscribe 1 "doc", .subscribe 2 "doc", .subscribe 3 "doc", .subscribe 4 "doc",
    .subscribe 5 "doc", .toUser "ann" (.new noon .ping), .send 1 (.new noon .ping), .close 2,
    .forsake 3]

theorem reachable_delivers_party :
    FreshRun (Board.empty .standard) party ∧
      ∃ b', (run (Board.empty .standard) party).handle (fun _ _ => .broken) 0
          ⟨6, noon, noon, noon, "s"⟩ 0 (.new noon (.publish "doc" .null)) =
          (some (.reply noon (.new noon (.publish "doc" .null)) (.publishAck "doc" 2)), b') ∧
        (run (Board.empty .standard) party).grown b' = 2 := by
  have hr : FreshRun (Board.empty .standard) party := by decide
  have hc : ((run (Board.empty .standard) party).lines[0]?.any Connection.isIdentified) = true := by
    decide
  obtain ⟨c, hc, hi⟩ := (Option.any_eq_true _ _).1 hc
  have hk : checkChannel "doc" = .ok () := if_neg (by decide)
  obtain ⟨-, -, -, hpublish, -⟩ := reachable_delivers
    (Reachable.run .empty hr) (.new noon (.publish "doc" .null))
  obtain ⟨n, b', hb, hd⟩ := hpublish (fun _ _ => .broken) 0 ⟨6, noon, noon, noon, "s"⟩ 0 c "doc"
    .null hc hi rfl hk
  have hn : n = 2 := by
    have h2 : (toChannel (run (Board.empty .standard) party) "doc"
      (.new noon (.notify "doc" publishEvent .null))).1 = 2 := by decide
    rw [handle_publish hc hi rfl hk] at hb
    simp only [Prod.mk.injEq, Option.some.injEq] at hb
    have hbody := congrArg Envelope.body hb.1
    simp only [Envelope.reply, Envelope.answering, Envelope.new, Body.publishAck.injEq] at hbody
    exact hbody.2.symm.trans h2
  subst hn
  exact ⟨hr, b', hb, hd.count.symm⟩

end Switchboard.Board
