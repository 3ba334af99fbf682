/-
Switchboard/Proofs/Board/Parallel.lean

Two boards that differ in the queue of one connection.

On boards that `AgreeBut d` the indices are the same, every connection is the
same but for its queue, and the queues of all but `d` hold the same messages.
One thing may differ in these messages: an acknowledgement counts those who
have been reached, and `d` may be one of them on one board and not on the
other.

Whatever is called of both boards alike leads to boards that agree as well.
No operation looks at a queue but to put a message into it or to take one
out, so that each of them is a change of connections that match into such as
match, `AgreeBut.modify`, and one of the indices that is made on both sides.
-/
import Switchboard.Proofs.Board.Acts
import Switchboard.Proofs.Board.Fanout

namespace Switchboard

/-! ### Messages -/

/-- Two counts that differ by one at most. -/
def WithinOne (n n' : Nat) : Prop := n ≤ n' + 1 ∧ n' ≤ n + 1

theorem withinOne_self (n : Nat) : WithinOne n n := ⟨Nat.le_succ n, Nat.le_succ n⟩

/-- Two bodies that are the same, or acknowledge the same with counts that differ by one at most. -/
inductive Body.Near : Body → Body → Prop where
  | same (body : Body) : Near body body
  | publishAck (channel : String) {n n' : Nat} :
      WithinOne n n' → Near (.publishAck channel n) (.publishAck channel n')

/-- Two messages that are the same but for the count of an acknowledgement. -/
structure Envelope.Near (m m' : Envelope) : Prop where
  body : m.body.Near m'.body
  rest : m' = { m with body := m'.body }

theorem Envelope.near_self (m : Envelope) : m.Near m := ⟨.same m.body, rfl⟩

/-- Replies to one request differ no more than what they say. -/
theorem Envelope.near_reply (stamp : Stamp) (request : Envelope) {body body' : Body}
    (h : body.Near body') : (reply stamp request body).Near (reply stamp request body') := by
  refine ⟨h, ?_⟩
  cases h with
  | same => rfl
  | publishAck => rfl

/-- Two outcomes of a request that differ at most in the count of an acknowledgement. -/
inductive Outcome.Near : Outcome → Outcome → Prop where
  | answer {body body' : Body} : body.Near body' → Near (.answer body) (.answer body')
  | fault (f : Fault) : Near (.fault f) (.fault f)
  | broken : Near .broken .broken

/-! ### Connections -/

/-- Two queues of one sort that hold the same messages but for the counts of acknowledgements. -/
structure Outbox.Near (o o' : Outbox) : Prop where
  capacity : o'.capacity = o.capacity
  attended : o'.attended = o.attended
  waiting : List.Forall₂ Envelope.Near o.waiting o'.waiting

theorem Outbox.near_self (o : Outbox) : o.Near o :=
  ⟨rfl, rfl, List.forall₂_same.2 fun m _ => m.near_self⟩

namespace Connection

variable {c c' : Connection} {slow : Prop} {m m' : Envelope}

/-- Two connections that are the same but for their queues, and have the same messages waiting
unless the connection is slow. -/
structure Matches (slow : Prop) (c c' : Connection) : Prop where
  rest : c' = { c with outbox := c'.outbox }
  queue : ¬ slow → c.outbox.Near c'.outbox

/-- A connection matches itself, slow or not. -/
theorem matches_self (slow : Prop) (c : Connection) : Matches slow c c :=
  ⟨rfl, fun _ => c.outbox.near_self⟩

/-- To take a message is to lose the first that waits. -/
theorem receive_eq (c : Connection) :
    c.receive = { c with outbox := { c.outbox with waiting := c.outbox.waiting.drop 1 } } := by
  obtain ⟨id, ⟨capacity, waiting, attended⟩, identity, lastSeen, closed, subscriptions⟩ := c
  cases waiting <;> rfl

theorem takes_eq (c : Connection) : c.takes .take = c.outbox.waiting.take 1 := by
  rcases e : c.outbox.waiting with - | ⟨m, rest⟩ <;> simp [takes, Outbox.take?, e]

/-- To be sent a message is to have it in the queue, if there is room. -/
theorem after_send_eq (c : Connection) (m : Envelope) :
    c.after (.send m) = if c.accepts then c.push m else c := by
  rcases h : c.accepts with - | -
  · obtain ⟨f, hf⟩ := send_of_not_accepts (m := m) h
    simp [after, orKeep, hf]
  · simp [after, orKeep, send_of_accepts h]

/-- Only the slow one may accept on one side and not on the other. -/
theorem Matches.accepts_eq (h : Matches slow c c') (hs : ¬ slow) : c'.accepts = c.accepts := by
  have hq := h.queue hs
  rw [accepts, accepts, h.rest, hq.capacity, hq.attended, hq.waiting.length_eq]

/-- A connection that matches does so still when both are sent a message. -/
theorem Matches.send (h : Matches slow c c') (hm : m.Near m') :
    Matches slow (c.after (.send m)) (c'.after (.send m')) := by
  rw [after_send_eq, after_send_eq]
  constructor
  · -- to be sent something is to have another queue at most
    obtain ⟨id, outbox, identity, lastSeen, closed, subscriptions⟩ := c
    obtain ⟨id', outbox', identity', lastSeen', closed', subscriptions'⟩ := c'
    cases h.rest
    split <;> split <;> rfl
  · intro hs
    have hq := h.queue hs
    rw [h.accepts_eq hs]
    split
    · exact ⟨hq.capacity, hq.attended, List.rel_append hq.waiting (.cons hm .nil)⟩
    · exact hq

/-- **An act on both sides** keeps the match. -/
theorem Matches.after (h : Matches slow c c') (a : Act) :
    Matches slow (c.after a) (c'.after a) := by
  by_cases ha : ∃ m, a = .send m
  · obtain ⟨m, rfl⟩ := ha
    exact h.send m.near_self
  · obtain ⟨id, outbox, identity, lastSeen, closed, subscriptions⟩ := c
    obtain ⟨id', outbox', identity', lastSeen', closed', subscriptions'⟩ := c'
    cases h.rest
    cases a with
    | send m => exact absurd ⟨m, rfl⟩ ha
    | take =>
      show Matches slow (receive _) (receive _)
      rw [receive_eq, receive_eq]
      refine ⟨rfl, fun hs => ?_⟩
      obtain ⟨hcapacity, hattended, hwaiting⟩ := h.queue hs
      exact ⟨hcapacity, hattended, List.forall₂_drop 1 hwaiting⟩
    | forsake => exact ⟨rfl, fun hs => ⟨(h.queue hs).capacity, rfl, .nil⟩⟩
    | identify who => cases identity <;> exact ⟨rfl, h.queue⟩
    | close | touch now | join channel | leave channel => exact ⟨rfl, h.queue⟩

/-- What is taken from the queues of two connections that match. -/
theorem Matches.takes (h : Matches slow c c') (hs : ¬ slow) :
    List.Forall₂ Envelope.Near (c.takes .take) (c'.takes .take) := by
  rw [takes_eq, takes_eq]
  exact List.forall₂_take 1 (h.queue hs).waiting

end Connection

namespace Board

open Connection (Matches)

variable {b b' : Board} {d l : LineNumber} {m m' : Envelope} {id : ConnectionId}

/-! ### Boards -/

/-- Two boards that are the same but for the queue of one connection and the counts of
acknowledgements. -/
structure AgreeBut (d : LineNumber) (b b' : Board) : Prop where
  policy : b'.policy = b.policy
  registered : b'.registered = b.registered
  users : b'.users = b.users
  channels : b'.channels = b.channels
  closing : b'.closing = b.closing
  line : ∀ l : LineNumber, Option.Rel (Matches (l = d)) b.lines[l]? b'.lines[l]?

theorem agreeBut_empty (d : LineNumber) (policy : Policy) :
    AgreeBut d (Board.empty policy) (Board.empty policy) :=
  ⟨rfl, rfl, rfl, rfl, rfl, fun _ => .none⟩

/-- A number leads to nobody on both boards, or to connections that match. -/
theorem AgreeBut.line_cases (h : AgreeBut d b b') (l : LineNumber) :
    b.lines[l]? = none ∧ b'.lines[l]? = none ∨
      ∃ c c', b.lines[l]? = some c ∧ b'.lines[l]? = some c' ∧ Matches (l = d) c c' := by
  have hl := h.line l
  rcases e : b.lines[l]? with - | c <;> rcases e' : b'.lines[l]? with - | c' <;>
    rw [e, e'] at hl <;> cases hl
  · exact .inl ⟨rfl, rfl⟩
  · exact .inr ⟨c, c', rfl, rfl, ‹_›⟩

theorem AgreeBut.length_eq (h : AgreeBut d b b') : b'.lines.length = b.lines.length := by
  have hnone : ∀ l : LineNumber, b.lines[l]? = none ↔ b'.lines[l]? = none := by
    intro l
    rcases h.line_cases l with ⟨e, e'⟩ | ⟨c, c', e, e', -⟩ <;> simp [e, e']
  refine Nat.le_antisymm ?_ ?_
  · exact List.getElem?_eq_none_iff.1 ((hnone _).1 (List.getElem?_eq_none (Nat.le_refl _)))
  · exact List.getElem?_eq_none_iff.1 ((hnone _).2 (List.getElem?_eq_none (Nat.le_refl _)))

/-- A change of one connection on both boards. -/
theorem AgreeBut.modify (h : AgreeBut d b b') {f g : Connection → Connection}
    (hfg : ∀ c c', b.lines[l]? = some c → b'.lines[l]? = some c' → Matches (l = d) c c' →
      Matches (l = d) (f c) (g c')) : AgreeBut d (b.modify l f) (b'.modify l g) := by
  refine ⟨h.policy, h.registered, h.users, h.channels, h.closing, fun i => ?_⟩
  rw [getElem?_modify, getElem?_modify]
  split
  · rename_i e
    subst e
    rcases h.line_cases l with ⟨e, e'⟩ | ⟨c, c', e, e', hm⟩
    · rw [e, e']
      exact .none
    · rw [e, e']
      exact .some (hfg c c' e e' hm)
  · exact h.line i

/-- So it keeps the boards in agreement. -/
theorem AgreeBut.act (h : AgreeBut d b b') (l : LineNumber) (a : Connection.Act) :
    AgreeBut d (b.modify l (·.after a)) (b'.modify l (·.after a)) :=
  h.modify fun _ _ _ _ hm => hm.after a

theorem AgreeBut.withUsers (h : AgreeBut d b b') (users : UserIndex) :
    AgreeBut d { b with users } { b' with users } :=
  ⟨h.policy, h.registered, rfl, h.channels, h.closing, h.line⟩

theorem AgreeBut.withChannels (h : AgreeBut d b b') (channels : ChannelIndex) :
    AgreeBut d { b with channels } { b' with channels } :=
  ⟨h.policy, h.registered, h.users, rfl, h.closing, h.line⟩

/-- Boards that agree do so after the same changes one after the other. -/
theorem AgreeBut.foldl {α : Type} {f : Board → α → Board}
    (hf : ∀ {b b' : Board} (x : α), AgreeBut d b b' → AgreeBut d (f b x) (f b' x))
    (h : AgreeBut d b b') (xs : List α) : AgreeBut d (xs.foldl f b) (xs.foldl f b') := by
  induction xs generalizing b b' with
  | nil => exact h
  | cons x xs ih => exact ih (hf x h)

/-! ### Entering and leaving -/

/-- A connection that comes is the slow one or the same on both sides. -/
theorem AgreeBut.append (h : AgreeBut d b b') {c c' : Connection}
    (hc : Matches (b.lines.length = d) c c') :
    AgreeBut d { b with lines := b.lines ++ [c] } { b' with lines := b'.lines ++ [c'] } := by
  refine ⟨h.policy, h.registered, h.users, h.channels, h.closing, fun l => ?_⟩
  have hlen := h.length_eq
  rcases Nat.lt_trichotomy l b.lines.length with hlt | rfl | hgt
  · rw [List.getElem?_append_left hlt, List.getElem?_append_left (hlen ▸ hlt)]
    exact h.line l
  · have e' : (b'.lines ++ [c'])[b.lines.length]? = some c' := by
      rw [← hlen, List.getElem?_concat_length]
    rw [List.getElem?_concat_length, e']
    exact .some hc
  · rw [List.getElem?_eq_none (by simpa using hgt),
      List.getElem?_eq_none (by simpa [hlen] using hgt)]
    exact .none

/-- To be registered is to be closed if the end has begun. -/
theorem register_of_line {c : Connection} (hc : b.lines[l]? = some c) : (b.register l).2 =
    if b.closing then b.close l else { b with registered := b.registered.insert c.id l } := by
  rw [Board.register, hc]
  simp only
  split <;> rfl

theorem AgreeBut.register (h : AgreeBut d b b') (l : LineNumber) :
    AgreeBut d (b.register l).2 (b'.register l).2 := by
  rcases h.line_cases l with ⟨e, e'⟩ | ⟨c, c', e, e', hm⟩
  · rw [Board.register, Board.register, e, e']
    exact h
  · have hid : c'.id = c.id := by rw [hm.rest]
    rw [register_of_line e, register_of_line e', h.closing, hid, h.registered]
    split
    · exact h.act l .close
    · exact ⟨h.policy, rfl, h.users, h.channels, rfl, h.line⟩

/-- The same connection enters both boards, with queues of different capacities if it is the one
that does not matter. -/
theorem AgreeBut.enter (h : AgreeBut d b b') {capacity capacity' now : Nat}
    (hnew : Option.Rel (Matches (b.lines.length = d)) (Connection.new? id capacity now)
      (Connection.new? id capacity' now)) :
    AgreeBut d (b.enter id capacity now) (b'.enter id capacity' now) := by
  rcases e : Connection.new? id capacity now with - | c <;>
    rcases e' : Connection.new? id capacity' now with - | c' <;> rw [e, e'] at hnew <;> cases hnew
  · rw [Board.enter, Board.enter, open?, open?, e, e']
    exact h
  · rw [enter_eq e, enter_eq e', h.length_eq]
    exact (h.append ‹_›).register _

theorem AgreeBut.drop (h : AgreeBut d b b') (id : ConnectionId) (l : LineNumber) :
    AgreeBut d (b.drop id l) (b'.drop id l) := by
  rcases h.line_cases l with ⟨e, e'⟩ | ⟨c, c', e, e', hm⟩
  · rw [Board.drop, Board.drop, e, e', h.registered]
    exact ⟨h.policy, rfl, h.users, h.channels, h.closing, h.line⟩
  · rw [Board.drop, Board.drop, e, e', h.registered, h.users, h.channels, hm.rest]
    exact ⟨h.policy, rfl, rfl, rfl, h.closing, h.line⟩

theorem AgreeBut.unregister (h : AgreeBut d b b') (id : ConnectionId) :
    AgreeBut d (b.unregister id).2 (b'.unregister id).2 := by
  rw [Board.unregister, Board.unregister, h.registered]
  split
  · exact h
  · exact h.drop id _

/-- Both boards find the same connections stale, since no queue matters to that. -/
theorem AgreeBut.stale_eq (h : AgreeBut d b b') (now : Nat) : b'.stale now = b.stale now := by
  rw [stale, stale, h.registered]
  refine congrArg (List.filter · _) (funext fun r => ?_)
  rcases h.line_cases r.2 with ⟨e, e'⟩ | ⟨c, c', e, e', hm⟩
  · simp only [isStale, e, e']
  · simp only [isStale, e, e', h.policy]
    -- whether a connection is stale does not depend on its queue
    rw [hm.rest]
    rfl

theorem AgreeBut.sweep (h : AgreeBut d b b') (now : Nat) :
    AgreeBut d (b.sweep now).2 (b'.sweep now).2 := by
  rw [Board.sweep, Board.sweep, h.stale_eq]
  exact h.foldl (fun r h => (h.drop r.1 r.2).act r.2 .close) _

theorem AgreeBut.shutdown (h : AgreeBut d b b') : AgreeBut d b.shutdown.2 b'.shutdown.2 := by
  have hemptied : AgreeBut d { b with registered := ∅, users := ∅, channels := ∅, closing := true }
      { b' with registered := ∅, users := ∅, channels := ∅, closing := true } :=
    ⟨h.policy, rfl, rfl, rfl, rfl, h.line⟩
  rw [Board.shutdown, Board.shutdown, h.registered]
  exact hemptied.foldl (fun l h => h.act l .close) _

/-! ### Offers -/

/-- Whoever is not the slow one accepts on both sides or on neither. -/
theorem AgreeBut.accepts_eq (h : AgreeBut d b b') (hl : l ≠ d) : b'.accepts l = b.accepts l := by
  rcases h.line_cases l with ⟨e, e'⟩ | ⟨c, c', e, e', hm⟩
  · rw [accepts, accepts, e, e']
  · rw [accepts, accepts, e, e']
    exact hm.accepts_eq hl

/-- What is offered is sent, if it is not refused. -/
theorem offer_snd (b : Board) (l : LineNumber) (m : Envelope) :
    (b.offer l m).2 = b.modify l (·.after (.send m)) := by
  have hlines : (b.offer l m).2.lines = (b.modify l (·.after (.send m))).lines :=
    List.ext_getElem? (getElem?_offer b l m)
  have hrest : (b.offer l m).2 = { b with lines := (b.offer l m).2.lines } := by
    rcases ha : b.accepts l with - | -
    · rw [offer_of_not_accepts ha]
    · rw [offer_of_accepts ha]
      rfl
  rw [hrest, hlines]
  rfl

theorem AgreeBut.offer (h : AgreeBut d b b') (l : LineNumber) (hm : m.Near m') :
    AgreeBut d (b.offer l m).2 (b'.offer l m').2 := by
  rw [offer_snd, offer_snd]
  exact h.modify fun _ _ _ _ hc => hc.send hm

theorem AgreeBut.offerAll (h : AgreeBut d b b') (m : Envelope) (ls : List LineNumber) :
    AgreeBut d (offerAll m ls b).2 (offerAll m ls b').2 := by
  rw [offerAll_eq_foldl, offerAll_eq_foldl]
  exact h.foldl (fun l h => h.offer l m.near_self) ls

/-- Two counts over a list differ by one at most if it is one element on which they do. -/
theorem withinOne_countP {p q : LineNumber → Bool} {ls : List LineNumber} (hn : ls.Nodup)
    (hpq : ∀ l, l ≠ d → p l = q l) : WithinOne (ls.countP p) (ls.countP q) := by
  have hrest : (ls.erase d).countP p = (ls.erase d).countP q := by
    refine List.countP_congr fun l hl => ?_
    rw [hpq l (hn.mem_erase_iff.1 hl).1]
  by_cases hd : d ∈ ls
  · have hperm := List.perm_cons_erase hd
    rw [hperm.countP_eq, hperm.countP_eq, List.countP_cons, List.countP_cons, hrest]
    constructor <;> split <;> split <;> omega
  · rw [List.erase_of_not_mem hd] at hrest
    rw [hrest]
    exact withinOne_self _

/-- An offer to several reaches the same on both boards, but for one connection. -/
theorem AgreeBut.withinOne_offerAll (h : AgreeBut d b b') (m : Envelope) {ls : List LineNumber}
    (hn : ls.Nodup) : WithinOne (Board.offerAll m ls b).1 (Board.offerAll m ls b').1 := by
  rw [offerAll_eq hn, offerAll_eq hn]
  exact withinOne_countP hn fun l hl => (h.accepts_eq hl).symm

theorem AgreeBut.isIdentified_eq (h : AgreeBut d b b') (l : LineNumber) :
    b'.isIdentified l = b.isIdentified l := by
  rcases h.line_cases l with ⟨e, e'⟩ | ⟨c, c', e, e', hm⟩
  · rw [isIdentified, isIdentified, e, e']
  · rw [isIdentified, isIdentified, e, e', hm.rest]
    rfl

/-- A message for everyone is for the same connections on both sides. -/
theorem AgreeBut.everyone_eq (h : AgreeBut d b b') : b'.everyone = b.everyone := by
  rw [everyone, everyone, h.registered]
  exact congrArg (List.filter · _) (funext h.isIdentified_eq)

theorem AgreeBut.find?_eq (h : AgreeBut d b b') : b'.find? = b.find? := by
  funext id
  rw [find?, find?, h.registered]

/-- So is one for a channel. -/
theorem AgreeBut.subscribers_eq (h : AgreeBut d b b') (channel : String) :
    b'.subscribers channel = b.subscribers channel := by
  rw [subscribers, subscribers, h.channels, h.find?_eq]

/-- So is one for a user. -/
theorem AgreeBut.ofUser_eq (h : AgreeBut d b b') (user : String) :
    b'.ofUser user = b.ofUser user := by
  rw [ofUser, ofUser, h.users, h.find?_eq]

/-- **A fan-out** keeps the agreement. -/
theorem AgreeBut.broadcast (h : AgreeBut d b b') (m : Envelope) :
    AgreeBut d (b.broadcast m).2 (b'.broadcast m).2 := by
  rw [Board.broadcast, Board.broadcast, h.everyone_eq]
  exact h.offerAll m _

theorem AgreeBut.toChannel (h : AgreeBut d b b') (channel : String) (m : Envelope) :
    AgreeBut d (b.toChannel channel m).2 (b'.toChannel channel m).2 := by
  rw [Board.toChannel, Board.toChannel, h.subscribers_eq]
  exact h.offerAll m _

theorem AgreeBut.toUser (h : AgreeBut d b b') (user : String) (m : Envelope) :
    AgreeBut d (b.toUser user m).2 (b'.toUser user m).2 := by
  rw [Board.toUser, Board.toUser, h.ofUser_eq]
  exact h.offerAll m _

/-- The counts differ by the slow one at most. -/
theorem AgreeBut.withinOne_broadcast (h : AgreeBut d b b') (hb : b.InStep) (m : Envelope) :
    WithinOne (b.broadcast m).1 (b'.broadcast m).1 := by
  rw [Board.broadcast, Board.broadcast, h.everyone_eq]
  exact h.withinOne_offerAll m hb.nodup_everyone

theorem AgreeBut.withinOne_toChannel (h : AgreeBut d b b') (hb : b.InStep) (channel : String)
    (m : Envelope) : WithinOne (b.toChannel channel m).1 (b'.toChannel channel m).1 := by
  rw [Board.toChannel, Board.toChannel, h.subscribers_eq]
  exact h.withinOne_offerAll m (hb.nodup_subscribers channel)

theorem AgreeBut.withinOne_toUser (h : AgreeBut d b b') (hb : b.InStep) (user : String)
    (m : Envelope) : WithinOne (b.toUser user m).1 (b'.toUser user m).1 := by
  rw [Board.toUser, Board.toUser, h.ofUser_eq]
  exact h.withinOne_offerAll m (hb.nodup_ofUser user)

/-! ### What may fail -/

/-- Two attempts fail alike, or lead to boards that agree. -/
inductive AgreeOrFail (d : LineNumber) : Except Fault Board → Except Fault Board → Prop where
  | ok {b b' : Board} : AgreeBut d b b' → AgreeOrFail d (.ok b) (.ok b')
  | error (f : Fault) : AgreeOrFail d (.error f) (.error f)

/-- What fails on both sides changes nothing on either. -/
theorem AgreeOrFail.orKeep {r r' : Except Fault Board} (hr : AgreeOrFail d r r')
    (h : AgreeBut d b b') : AgreeBut d (b.orKeep r) (b'.orKeep r') := by
  cases hr with
  | ok h' => exact h'
  | error f => exact h

/-- A name is unknown on both boards, or leads to connections that match. -/
theorem AgreeBut.find_cases (h : AgreeBut d b b') (id : ConnectionId) :
    (∃ f, b.find id = .error f ∧ b'.find id = .error f) ∨
      ∃ l c c', b.find id = .ok (l, c) ∧ b'.find id = .ok (l, c') ∧ Matches (l = d) c c' := by
  rcases e : b.registered[id]? with - | l
  · have e' : b'.registered[id]? = none := by rw [h.registered, e]
    exact .inl ⟨_, find_of_find?_eq_none e, find_of_find?_eq_none e'⟩
  · have e' : b'.registered[id]? = some l := by rw [h.registered, e]
    rcases h.line_cases l with ⟨hn, hn'⟩ | ⟨c, c', hc, hc', hm⟩
    · exact .inl ⟨.notFound id, by simp [find, e, hn], by simp [find, e', hn']⟩
    · exact .inr ⟨l, c, c', by simp [find, e, hc], by simp [find, e', hc'], hm⟩

/-- Whether a request fails does not depend on any queue either. -/
theorem AgreeBut.identify (h : AgreeBut d b b') (id : ConnectionId) (who : Identity) :
    AgreeOrFail d (b.identify id who) (b'.identify id who) := by
  rcases h.find_cases id with ⟨f, e, e'⟩ | ⟨l, c, c', e, e', hm⟩
  · rw [Board.identify, Board.identify, e, e']
    exact .error f
  · rw [Board.identify, Board.identify, e, e']
    rcases hi : c.identity with - | old
    · have hi' : c'.identity = none := by rw [hm.rest]; exact hi
      have hset := hm.after (.identify who)
      simp only [Connection.after, Connection.orKeep, Connection.identify, hi, hi'] at hset
      simp only [bind, Except.bind, Connection.identify, hi, hi', h.users]
      exact .ok ((h.modify fun _ _ _ _ _ => hset).withUsers _)
    · have hi' : c'.identity = some old := by rw [hm.rest]; exact hi
      simp only [bind, Except.bind, Connection.identify, hi, hi']
      exact .error _

/-- A change on behalf of a name that concerns a channel. -/
theorem AgreeBut.checked (h : AgreeBut d b b') (id : ConnectionId) (channel : String)
    (change change' : LineNumber → Board) (hc : ∀ l, AgreeBut d (change l) (change' l)) :
    AgreeOrFail d (do checkChannel channel; let (l, _) ← b.find id; .ok (change l))
      (do checkChannel channel; let (l, _) ← b'.find id; .ok (change' l)) := by
  rcases checkChannel channel with f | ⟨⟩
  · exact .error f
  · rcases h.find_cases id with ⟨f, e, e'⟩ | ⟨l, c, c', e, e', -⟩
    · rw [e, e']
      exact .error f
    · rw [e, e']
      exact .ok (hc l)

theorem AgreeBut.subscribe (h : AgreeBut d b b') (id : ConnectionId) (channel : String) :
    AgreeOrFail d (b.subscribe id channel) (b'.subscribe id channel) := by
  refine h.checked id channel
    (fun l => { b.modify l (fun c => (c.join channel).2) with
      channels := b.channels.join channel id })
    (fun l => { b'.modify l (fun c => (c.join channel).2) with
      channels := b'.channels.join channel id }) fun l => ?_
  rw [h.channels]
  exact (h.act l (.join channel)).withChannels _

theorem AgreeBut.unsubscribe (h : AgreeBut d b b') (id : ConnectionId) (channel : String) :
    AgreeOrFail d (b.unsubscribe id channel) (b'.unsubscribe id channel) := by
  refine h.checked id channel
    (fun l => { b.modify l (fun c => (c.leave channel).2) with
      channels := b.channels.leave channel id })
    (fun l => { b'.modify l (fun c => (c.leave channel).2) with
      channels := b'.channels.leave channel id }) fun l => ?_
  rw [h.channels]
  exact (h.act l (.leave channel)).withChannels _

/-! ### Frames -/

/-- Two requests come to outcomes that are near, and to boards that agree. -/
structure AnswerAlike (d : LineNumber) (r r' : Outcome × Board) : Prop where
  outcome : r.1.Near r'.1
  board : AgreeBut d r.2 r'.2

theorem AgreeOrFail.answering {r r' : Except Fault Board} (hr : AgreeOrFail d r r')
    (h : AgreeBut d b b') (body : Body) :
    AnswerAlike d (b.answering body r) (b'.answering body r') := by
  cases hr with
  | ok h' => exact ⟨.answer (.same body), h'⟩
  | error f => exact ⟨.fault f, h⟩

/-- A token is answered alike, since no queue matters to the check. -/
theorem AgreeBut.authenticate (h : AgreeBut d b b') (check : Check) (session : String)
    {c c' : Connection} {slow : Prop} (hm : Matches slow c c') (token : String) :
    AnswerAlike d (b.authenticate check session c token)
      (b'.authenticate check session c' token) := by
  rw [Board.authenticate, Board.authenticate, hm.rest]
  show AnswerAlike d (if c.isIdentified then _ else _) (if c.isIdentified then _ else _)
  split
  · exact ⟨.fault _, h⟩
  · cases check session token with
    | broken => exact ⟨.broken, h⟩
    | refused reason => exact ⟨.answer (.same _), h⟩
    | accepted who => exact (h.identify c.id who).answering h _

/-- A publication may be answered with another count. -/
theorem AgreeBut.publish (h : AgreeBut d b b') (hb : b.InStep) (notice : Stamp) (channel : String)
    (data : Json) :
    AnswerAlike d (b.publish notice channel data) (b'.publish notice channel data) := by
  rw [Board.publish, Board.publish]
  cases checkChannel channel with
  | error f => exact ⟨.fault f, h⟩
  | ok _ =>
    -- here the acknowledgements may differ
    exact ⟨.answer (.publishAck channel (h.withinOne_toChannel hb channel _)),
      h.toChannel channel _⟩

/-- Of all requests only that is answered differently. -/
theorem AgreeBut.dispatch (h : AgreeBut d b b') (hb : b.InStep) (check : Check) (now : Nat)
    (draw : Draw) (l : LineNumber) (m : Envelope) :
    AnswerAlike d (b.dispatch check now draw l m) (b'.dispatch check now draw l m) := by
  rcases h.line_cases l with ⟨e, e'⟩ | ⟨c, c', e, e', hm⟩
  · rw [Board.dispatch, Board.dispatch, e, e']
    exact ⟨.fault _, h⟩
  · have hid : c'.id = c.id := by rw [hm.rest]
    have hi : c'.isIdentified = c.isIdentified := by rw [hm.rest]; rfl
    rw [Board.dispatch, Board.dispatch, e, e']
    simp only [hid, hi]
    -- whoever may not ask is told so on both boards
    have hgate : ∀ {r r' : Outcome × Board}, AnswerAlike d r r' →
        AnswerAlike d (if c.isIdentified then r else (.fault .notAuthenticated, b))
          (if c.isIdentified then r' else (.fault .notAuthenticated, b')) := by
      intro r r' hr
      split
      · exact hr
      · exact ⟨.fault _, h⟩
    cases m.body with
    | ping => exact ⟨.answer (.same _), h.act l (.touch now)⟩
    | auth token => exact h.authenticate check draw.session hm token
    | subscribe channel => exact hgate ((h.subscribe c.id channel).answering h _)
    | unsubscribe channel => exact hgate ((h.unsubscribe c.id channel).answering h _)
    | publish channel data => exact hgate (h.publish hb draw.notice channel data)
    | _ => exact ⟨.fault _, h⟩

theorem AgreeBut.handle (h : AgreeBut d b b') (hb : b.InStep) (check : Check) (now : Nat)
    (draw : Draw) (l : LineNumber) (m : Envelope) :
    Option.Rel Envelope.Near (b.handle check now draw l m).1 (b'.handle check now draw l m).1 ∧
      AgreeBut d (b.handle check now draw l m).2 (b'.handle check now draw l m).2 := by
  obtain ⟨hout, hboard⟩ := h.dispatch hb check now draw l m
  rw [Board.handle, Board.handle]
  rcases e : b.dispatch check now draw l m with ⟨o, b₁⟩
  rcases e' : b'.dispatch check now draw l m with ⟨o', b₁'⟩
  rw [e, e'] at hout hboard
  cases hout with
  | answer hbody => exact ⟨.some (Envelope.near_reply _ _ hbody), hboard⟩
  | fault f => exact ⟨.some (Envelope.near_self _), hboard⟩
  | broken => exact ⟨.none, hboard⟩

/-- **A frame on both sides** keeps the agreement. -/
theorem AgreeBut.handleFrame (h : AgreeBut d b b') (hb : b.InStep) (check : Check) (now : Nat)
    (draw : Draw) (l : LineNumber) (content : Bytes) :
    AgreeBut d (b.handleFrame check now draw l content).2
      (b'.handleFrame check now draw l content).2 := by
  rw [Board.handleFrame, Board.handleFrame]
  rcases Envelope.ofBytes draw.received content with failure | m
  · exact h.offer l (Envelope.near_self _)
  · obtain ⟨hreply, hboard⟩ := h.handle hb check now draw l m
    rcases e : b.handle check now draw l m with ⟨r, b₁⟩
    rcases e' : b'.handle check now draw l m with ⟨r', b₁'⟩
    rw [e, e'] at hreply hboard
    simp only [e, e']
    cases hreply with
    | none => exact hboard
    | some hnear => exact hboard.offer l hnear

/-! ### Calls -/

/-- **Boards that agree do so after the same call.** -/
theorem AgreeBut.after (h : AgreeBut d b b') (hb : b.InStep) (k : Call) :
    AgreeBut d (b.after k) (b'.after k) := by
  cases k with
  | enter id capacity now =>
    refine h.enter ?_
    cases Connection.new? id capacity now with
    | none => exact .none
    | some c => exact .some (Connection.matches_self _ c)
  | unregister id => exact h.unregister id
  | identify id who => exact (h.identify id who).orKeep h
  | subscribe id channel => exact (h.subscribe id channel).orKeep h
  | unsubscribe id channel => exact (h.unsubscribe id channel).orKeep h
  | sweep now => exact h.sweep now
  | shutdown => exact h.shutdown
  | broadcast m => exact h.broadcast m
  | toChannel channel m => exact h.toChannel channel m
  | toUser user m => exact h.toUser user m
  | send l m =>
    rw [← offer_eq_after, ← offer_eq_after]
    exact h.offer l m.near_self
  | close l => exact h.act l .close
  | touch l now => exact h.act l (.touch now)
  | receive l => exact h.act l .take
  | forsake l => exact h.act l .forsake
  | frame check now draw l content => exact h.handleFrame hb check now draw l content

/-- The messages that the same call takes from the queue of a connection that matters. -/
theorem AgreeBut.taken (h : AgreeBut d b b') (hl : l ≠ d) (k : Call) :
    List.Forall₂ Envelope.Near (b.taken l k) (b'.taken l k) := by
  rcases h.line_cases l with ⟨e, e'⟩ | ⟨c, c', e, e', hm⟩
  · simp only [Board.taken, e, e']
    exact .nil
  · simp only [Board.taken, e, e']
    by_cases hk : k = .receive l
    · subst hk
      have hacts : ∀ b : Board, b.acts l (.receive l) = [.take] := fun b => by
        simp [acts, plainActs, aimed]
      rw [hacts, hacts]
      simpa [Connection.taken, Connection.book, logged] using hm.takes hl
    · -- no other call takes anything
      have hno : ∀ b : Board, ∀ a ∈ b.acts l k, a ≠ .take := by
        rintro b a ha rfl
        exact hk (eq_receive_of_mem_acts ha)
      rw [Connection.taken_eq_nil (hno b), Connection.taken_eq_nil (hno b')]
      exact .nil

end Board

end Switchboard
