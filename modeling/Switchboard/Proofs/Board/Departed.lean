/-
Switchboard/Proofs/Board/Departed.lean

What a client may still do when it is no longer on the board.

Whoever has been taken off keeps its identity, and for a while its frames may
still be read.  No request asks whether its sender is registered.  Those that
are carried out on behalf of a name do not find anybody of that name, and so
they are refused and change nothing.  To publish something takes no name: it
is done as for anybody else, and the subscribers of the channel get the notice
of somebody who is not there (`turned_away_iff`).
-/
import Switchboard.Proofs.Board.Replying

namespace Switchboard

/-- The channel that a request is about. -/
def Body.channel? : Body → Option String
  | .subscribe channel | .unsubscribe channel | .publish channel _ => some channel
  | _ => none

namespace Connection

variable {c : Connection} {m : Envelope}

theorem after_send (c : Connection) (m : Envelope) : c.after (.send m) = c.offered m := by
  show c.orKeep (c.send m) = _
  rw [offered]
  split
  · rename_i h
    rw [send_of_accepts h]
    rfl
  · rename_i h
    obtain ⟨f, hf⟩ := send_of_not_accepts (m := m) (by simpa using h)
    rw [hf]
    rfl

/-- Of the same message offered several times, a connection takes as many copies as it has room
for, and nothing else of it changes. -/
theorem run_sends (c : Connection) (m : Envelope) (n : Nat) :
    c.run (List.replicate n (.send m)) = { c with outbox := { c.outbox with
      waiting := c.outbox.waiting ++ (List.replicate n m).take c.room } } := by
  induction n generalizing c with
  | zero => simp [run]
  | succ n ih =>
    show (c.after (.send m)).run (List.replicate n (.send m)) = _
    rw [after_send, ih, room_offered, List.replicate_succ, offered]
    rcases e : c.room with - | r
    · -- whoever has no room takes none of them
      have h : ¬ c.accepts = true := by rw [accepts_iff_room, e]; exact Nat.lt_irrefl 0
      rw [if_neg h]
      simp
    · have h : c.accepts = true := by rw [accepts_iff_room, e]; exact Nat.succ_pos r
      rw [if_pos h, List.take_succ_cons]
      simp [push]

end Connection

namespace Board

variable {b b' : Board} {l l' : LineNumber} {c c' : Connection} {m : Envelope} {channel : String}
  {data : Json}

/-- Requests on behalf of a name that leads to nobody are refused, and change nothing. -/
theorem dispatch_of_departed (hc : b.lines[l]? = some c) (hi : c.isIdentified = true)
    (hn : b.registered[c.id]? = none) (hm : m.body.channel? = some channel)
    (hk : checkChannel channel = .ok ()) (hno : ∀ data, m.body ≠ .publish channel data)
    (check : Check) (now : Nat) (draw : Draw) :
    b.dispatch check now draw l m = (.fault (.notFound c.id), b) := by
  have hfind : b.find c.id = .error (.notFound c.id) := find_of_find?_eq_none hn
  rw [dispatch, hc]
  cases hb : m.body with
  | subscribe own =>
    obtain rfl : own = channel := by simpa [hb, Body.channel?] using hm
    have hs : b.subscribe c.id own = .error (.notFound c.id) := by
      rw [Board.subscribe, hk, hfind]
      rfl
    simp only [hi, if_true, hs]
    rfl
  | unsubscribe own =>
    obtain rfl : own = channel := by simpa [hb, Body.channel?] using hm
    have hs : b.unsubscribe c.id own = .error (.notFound c.id) := by
      rw [Board.unsubscribe, hk, hfind]
      rfl
    simp only [hi, if_true, hs]
    rfl
  | publish own data =>
    obtain rfl : own = channel := by simpa [hb, Body.channel?] using hm
    exact absurd hb (hno data)
  | _ => simp [hb, Body.channel?] at hm

/-- To publish something, one need not be on the board. -/
theorem dispatch_publish (hc : b.lines[l]? = some c) (hi : c.isIdentified = true)
    (hb : m.body = .publish channel data) (hk : checkChannel channel = .ok ()) (check : Check)
    (now : Nat) (draw : Draw) :
    b.dispatch check now draw l m =
      (.answer (.publishAck channel (b.toChannel channel (notice draw channel data)).1),
        (b.toChannel channel (notice draw channel data)).2) := by
  rw [dispatch, hc]
  simp only [hb, hi, if_true, publish, hk]
  rfl

/-- Whoever is listed under the channel gets a message to it as often as it is listed and has
room, and nothing else of anyone changes. -/
theorem getElem?_toChannel (hc : b.lines[l]? = some c) (channel : String) (m : Envelope) :
    (b.toChannel channel m).2.lines[l]? = some { c with outbox := { c.outbox with
      waiting := c.outbox.waiting ++
        (List.replicate ((b.subscribers channel).count l) m).take c.room } } := by
  rw [toChannel, getElem?_offerAll, hc, Option.map_some, aimed, Connection.run_sends]

/-- Boards that are alike differ in their connections only. -/
theorem Alike.rest (a : Alike b b') : b' = { b with lines := b'.lines } := by
  obtain ⟨hpolicy, hregistered, husers, hchannels, hclosing, -⟩ := a
  rw [← hpolicy, ← hregistered, ← husers, ← hchannels, ← hclosing]

/-- It has no effect at all exactly if no subscriber accepts it. -/
theorem toChannel_eq_self_iff (b : Board) (channel : String) (m : Envelope) :
    (b.toChannel channel m).2 = b ↔ ∀ l ∈ b.subscribers channel, b.accepts l = false := by
  constructor
  · intro h l hl
    rcases hc : b.lines[l]? with - | c
    · simp [Board.accepts, hc]
    · rw [Bool.eq_false_iff]
      intro ha
      -- the queue of somebody who accepts it is longer afterwards
      have hroom : 0 < c.room := by
        rw [← Connection.accepts_iff_room]
        simpa [Board.accepts, hc] using ha
      have hcount : 0 < (b.subscribers channel).count l := List.count_pos_iff.2 hl
      have hafter := getElem?_toChannel hc channel m
      rw [h, hc, Option.some.injEq] at hafter
      have hlength := congrArg (fun c => c.outbox.waiting.length) hafter
      simp only [List.length_append, List.length_take, List.length_replicate] at hlength
      omega
  · intro h
    have hlines : (b.toChannel channel m).2.lines = b.lines := by
      refine List.ext_getElem? fun l => ?_
      rcases hc : b.lines[l]? with - | c
      · rw [toChannel, getElem?_offerAll, hc]
        rfl
      · rw [getElem?_toChannel hc]
        by_cases hl : l ∈ b.subscribers channel
        · have hroom : c.room = 0 := by
            have ha : ¬ c.accepts = true := by simpa [Board.accepts, hc] using h l hl
            rw [Connection.accepts_iff_room] at ha
            omega
          simp [hroom]
        · simp [List.count_eq_zero.2 hl]
    have a : Alike b (b.toChannel channel m).2 := alike_offerAll m _ b
    rw [a.rest, hlines]

/-- What a request comes to whose sender is not on the board: it is refused because nobody is found,
and changes nothing. -/
def TurnedAway (b : Board) (check : Check) (now : Nat) (draw : Draw) (l : LineNumber)
    (c : Connection) (m : Envelope) : Prop :=
  b.dispatch check now draw l m = (.fault (.notFound c.id), b)

/-- **Whoever is no longer on the board is turned away, unless it publishes something.**  Then it is
answered as anybody else would be, and the notice goes to those who are listed under the channel;
neither the indices nor anything else changes, and nothing at all if none of these accepts it. -/
theorem turned_away_iff (b : Board) {l : LineNumber} {c : Connection} (hc : b.lines[l]? = some c)
    (hi : c.isIdentified = true) (hn : b.registered[c.id]? = none) {m : Envelope} {channel : String}
    (hm : m.body.channel? = some channel) (hk : checkChannel channel = .ok ()) (check : Check)
    (now : Nat) (draw : Draw) :
    (b.TurnedAway check now draw l c m ↔ ∀ data, m.body ≠ .publish channel data) ∧
    ∀ data, m.body = .publish channel data → ∃ (n : Nat) (b' : Board),
      b.dispatch check now draw l m = (.answer (.publishAck channel n), b') ∧
      b' = { b with lines := b'.lines } ∧
      (∀ (l' : LineNumber) (c' : Connection), b.lines[l']? = some c' →
        b'.lines[l']? = some { c' with outbox := { c'.outbox with
          waiting := c'.outbox.waiting ++ (List.replicate ((b.subscribers channel).count l')
            (notice draw channel data)).take c'.room } }) ∧
      (b' = b ↔ ∀ l' ∈ b.subscribers channel, b.accepts l' = false) := by
  refine ⟨⟨fun h data hb => ?_, fun hno => ?_⟩, fun data hb => ?_⟩
  · rw [TurnedAway, dispatch_publish hc hi hb hk] at h
    cases h
  · exact dispatch_of_departed hc hi hn hm hk hno check now draw
  · refine ⟨_, _, dispatch_publish hc hi hb hk check now draw, ?_, fun l' c' hc' => ?_, ?_⟩
    · exact (alike_offerAll _ _ b).rest
    · exact getElem?_toChannel hc' channel _
    · exact toChannel_eq_self_iff b channel _

/-- Of two clients the one with an identity has been taken off the board, and the other listens to a
channel. -/
def farewells : List Call :=
  [.enter 1 4 0, .enter 2 4 0, .identify 1 ⟨"ann", "a"⟩, .subscribe 2 "doc", .unregister 1]

/-- The client that is gone may not leave the channel, but it may publish there, and reaches the
other one. -/
theorem turned_away_iff_farewells :
    let b := (Board.empty .standard).run farewells
    let check : Check := fun _ _ => .refused "invalid token"
    ∃ c, b.lines[0]? = some c ∧ c.isIdentified = true ∧ b.registered[c.id]? = none ∧
      checkChannel "doc" = .ok () ∧
      b.TurnedAway check 0 noonDraw 0 c (.new noon (.unsubscribe "doc")) ∧
      ¬ b.TurnedAway check 0 noonDraw 0 c (.new noon (.publish "doc" .null)) ∧
      (b.dispatch check 0 noonDraw 0 (.new noon (.publish "doc" .null))).2 ≠ b := by
  intro b check
  have hline : b.lines[0]?.map (fun c => (c.id, c.isIdentified)) = some (1, true) := by
    decide +kernel
  obtain ⟨c, hc, e⟩ := Option.map_eq_some_iff.1 hline
  obtain ⟨hid, hi⟩ : c.id = 1 ∧ c.isIdentified = true := by simpa using e
  have hn : b.registered[c.id]? = none := by
    rw [hid]
    decide +kernel
  have hk : checkChannel "doc" = .ok () := if_neg (by decide)
  obtain ⟨haway, -⟩ := turned_away_iff b hc hi hn (m := .new noon (.unsubscribe "doc")) rfl hk check
    0 noonDraw
  obtain ⟨hpublish, hreaches⟩ := turned_away_iff b hc hi hn
    (m := .new noon (.publish "doc" .null)) rfl hk check 0 noonDraw
  refine ⟨c, hc, hi, hn, hk, haway.2 (fun _ h => by cases h), fun h => hpublish.1 h .null rfl, ?_⟩
  obtain ⟨n, b', hdispatch, -, -, hsame⟩ := hreaches .null rfl
  rw [hdispatch]
  have hlistens : 1 ∈ b.subscribers "doc" ∧ b.accepts 1 = true := by decide +kernel
  exact fun h => absurd (hsame.1 h 1 hlistens.1) (by simp [hlistens.2])

/-- Not everybody is turned away who is no longer on the board. -/
theorem not_turned_away_farewells :
    ¬ ∀ b : Board, Reachable .standard b → ∀ (l : LineNumber) (c : Connection),
      b.lines[l]? = some c → c.isIdentified = true → b.registered[c.id]? = none →
      ∀ (m : Envelope) (channel : String), m.body.channel? = some channel →
        checkChannel channel = .ok () → ∀ check now draw, b.TurnedAway check now draw l c m := by
  intro h
  have hf : FreshRun (Board.empty .standard) farewells := by decide +kernel
  have hline : ((Board.empty .standard).run farewells).lines[0]?.map
      (fun c => (c.id, c.isIdentified)) = some (1, true) := by decide +kernel
  obtain ⟨c, hc, e⟩ := Option.map_eq_some_iff.1 hline
  obtain ⟨hid, hi⟩ : c.id = 1 ∧ c.isIdentified = true := by simpa using e
  have hn : ((Board.empty .standard).run farewells).registered[c.id]? = none := by
    rw [hid]
    decide +kernel
  have hk : checkChannel "doc" = .ok () := if_neg (by decide)
  have haway := h _ (Reachable.empty.run hf) 0 c hc hi hn (.new noon (.publish "doc" .null)) "doc"
    rfl hk (fun _ _ => .broken) 0 noonDraw
  rw [TurnedAway, dispatch_publish hc hi rfl hk] at haway
  cases haway

end Board

end Switchboard
