/-
Switchboard/Proofs/Board/Publishing.lean

What is published arrives as it was published.

Data goes a long way from one client to another: it is read from a frame, put
into a notification, printed, and read again at the other end.  It comes out
the same because nothing on the way is lost and because the notification has
just the depth of the message that it came in: whatever nesting the reader has
let pass once, it lets pass again.

A frame by which something is published is two calls, the notification to the
channel and the acknowledgement to the publisher (`script_publish`), so that
what anyone accepts in the course of it is one of these two.
-/
import Switchboard.Proofs.Board.Acts
import Switchboard.Proofs.Board.Fanout
import Switchboard.Proofs.Envelope.Intake

namespace Switchboard

/-- The data of a message to be published has no data of its own: none of that name as a record, or
nothing behind the channel as a list. -/
def Json.LacksData : Json → Prop
  | .record ms => Members.find? "data" ms = none
  | .list items => items.length ≤ 1
  | _ => False

namespace Board

variable {b : Board} {l : LineNumber} {c : Connection} {m : Envelope} {draw : Draw}
  {content : Bytes} {channel : String} {data : Json}

/-- The notification of something published. -/
def notice (draw : Draw) (channel : String) (data : Json) : Envelope :=
  Envelope.new draw.notice (.notify channel publishEvent data)

/-- The calls of a frame by which something is published. -/
theorem script_publish (hc : b.lines[l]? = some c) (hi : c.isIdentified = true)
    (hm : Envelope.ofBytes draw.received content = .ok m) (hb : m.body = .publish channel data)
    (hk : checkChannel channel = .ok ()) (check : Check) (now : Nat) : ∃ n,
      b.script check now draw l content = [.toChannel channel (notice draw channel data),
        .send l (Envelope.reply draw.reply m (.publishAck channel n))] := by
  have hrequest : b.request? check now draw l m =
      some (.toChannel channel (notice draw channel data)) := by
    rw [request?, hc]
    simp only [hb, hk, hi, if_true]
    rfl
  have hreply : b.handle check now draw l m = _ := handle_publish hc hi hb hk
  refine ⟨(b.toChannel channel (notice draw channel data)).1, ?_⟩
  rw [script, reply?, hm]
  simp only [hrequest, hreply]
  rfl

/-- What such a frame is to a connection. -/
theorem acts_publish (hc : b.lines[l]? = some c) (hi : c.isIdentified = true)
    (hm : Envelope.ofBytes draw.received content = .ok m) (hb : m.body = .publish channel data)
    (hk : checkChannel channel = .ok ()) (check : Check) (now : Nat) (l' : LineNumber) : ∃ n,
      b.acts l' (.frame check now draw l content) =
        aimed l' (b.subscribers channel) (.send (notice draw channel data)) ++
          aimed l' [l] (.send (Envelope.reply draw.reply m (.publishAck channel n))) := by
  obtain ⟨n, hs⟩ := script_publish hc hi hm hb hk check now
  refine ⟨n, ?_⟩
  show b.trace (plainActs l') (b.script check now draw l content) = _
  rw [hs]
  simp only [trace, logged, plainActs, List.append_nil]

/-- Every subscriber that can take it gets the notification, as the first thing that it is sent. -/
theorem notice_mem_accepted (hc : b.lines[l]? = some c) (hi : c.isIdentified = true)
    (hm : Envelope.ofBytes draw.received content = .ok m) (hb : m.body = .publish channel data)
    (hk : checkChannel channel = .ok ()) (check : Check) (now : Nat) {l' : LineNumber}
    (hl : l' ∈ b.subscribers channel) (ha : b.accepts l' = true) :
    notice draw channel data ∈ b.accepted l' (.frame check now draw l content) := by
  obtain ⟨n, hacts⟩ := acts_publish hc hi hm hb hk check now l'
  rcases hc' : b.lines[l']? with - | c'
  · simp [accepts, hc'] at ha
  · have ha' : c'.accepts = true := by simpa [accepts, hc'] using ha
    obtain ⟨n', hn'⟩ := Nat.exists_eq_add_one.2 (List.count_pos_iff.2 hl)
    simp only [accepted, hc']
    rw [hacts, aimed, hn', List.replicate_succ, List.cons_append]
    refine List.mem_append_left _ ?_
    rw [Connection.puts, Connection.send_of_accepts ha']
    exact List.mem_singleton_self _

/-- Nobody accepts anything else, but the publisher its acknowledgement. -/
theorem eq_notice_of_mem_accepted (hc : b.lines[l]? = some c) (hi : c.isIdentified = true)
    (hm : Envelope.ofBytes draw.received content = .ok m) (hb : m.body = .publish channel data)
    (hk : checkChannel channel = .ok ()) {check : Check} {now : Nat} {l' : LineNumber}
    {m' : Envelope} (h : m' ∈ b.accepted l' (.frame check now draw l content)) :
    m' = notice draw channel data ∨ l' = l ∧ m'.kind = .publishAck := by
  obtain ⟨n, hacts⟩ := acts_publish hc hi hm hb hk check now l'
  rcases hc' : b.lines[l']? with - | c'
  · simp [accepted, hc'] at h
  · simp only [accepted, hc'] at h
    have hsend := Connection.exists_send_of_mem_accepted h
    rw [hacts, List.mem_append, mem_aimed, mem_aimed, List.mem_singleton] at hsend
    rcases hsend with ⟨-, he⟩ | ⟨hl, he⟩
    · cases he
      exact .inl rfl
    · cases he
      exact .inr ⟨hl, rfl⟩

/-- The data is as deep as a notification allows, and no deeper. -/
theorem portable_notice (hm : Envelope.ofBytes draw.received content = .ok m)
    (hb : m.body = .publish channel data) (hw : data.isWhole = true) :
    (notice draw channel data).body.Portable := by
  obtain ⟨k, d, hd, hbody, -⟩ := Envelope.ofBytes_eq_ok hm
  rw [hb] at hbody
  obtain ⟨rest, hread⟩ := Envelope.readWith_eq_ok hd
  exact ((Envelope.formed_readDraft hread).published hbody).portable hw

/-- Data that was left out is published as null. -/
theorem eq_null_of_lacksData (hm : Envelope.ofBytes draw.received content = .ok m)
    (hb : m.body = .publish channel data) {d : Envelope.Draft} {w : Json}
    (hd : Json.readWith Envelope.readDraft content = .ok (.publish, d))
    (hdata : d.data.join = some w) (hlacks : w.LacksData) : data = .null := by
  obtain ⟨k, d', hd', hbody, -⟩ := Envelope.ofBytes_eq_ok hm
  rw [hb] at hbody
  cases hd'.symm.trans hd
  have hread := Body.ofData_eq_publish hbody
  rw [hdata, Option.getD_some] at hread
  rcases Shape.publish_read_cases hread with ⟨ms, rfl, rfl⟩ | ⟨items, rfl, rfl⟩
  · have hnone : Members.find? "data" ms = none := hlacks
    rw [hnone, Option.getD_none]
  · have hlen : items.length ≤ 1 := hlacks
    rw [List.getElem?_eq_none hlen, Option.getD_none]

/-- **What is published reads back as it was published**, whoever gets it.  A client that has an
identity publishes data without doubles: then the notification goes to every subscriber that can
take it, nobody accepts anything else but the publisher its acknowledgement, and from the wire form
of the notification its reader has the channel, the event and the data that were published, in the
one message that all have.  Data that was left out is null. -/
theorem notice_reads_back (hc : b.lines[l]? = some c) (hi : c.isIdentified = true)
    (hm : Envelope.ofBytes draw.received content = .ok m) (hb : m.body = .publish channel data)
    (hk : checkChannel channel = .ok ()) (hw : data.isWhole = true) (check : Check) (now : Nat) :
    (∀ l' ∈ b.subscribers channel, b.accepts l' = true →
      notice draw channel data ∈ b.accepted l' (.frame check now draw l content)) ∧
    (∀ l' m', m' ∈ b.accepted l' (.frame check now draw l content) →
      m' = notice draw channel data ∨ l' = l ∧ m'.kind = .publishAck) ∧
    (∀ stamp, Envelope.ofBytes stamp (Utf8.ofString (notice draw channel data).wire) =
      .ok ⟨draw.notice.id, draw.notice.time, .notify channel "publish" data, none, none⟩) ∧
    (∀ d w, Json.readWith Envelope.readDraft content = .ok (.publish, d) →
      d.data.join = some w → w.LacksData → data = .null) :=
  ⟨fun _ hl' ha => notice_mem_accepted hc hi hm hb hk check now hl' ha,
    fun _ _ hm' => eq_notice_of_mem_accepted hc hi hm hb hk hm',
    fun stamp => Envelope.ofBytes_ofString_wire stamp (portable_notice hm hb hw),
    fun _ _ hd hdata hlacks => eq_null_of_lacksData hm hb hd hdata hlacks⟩

/-- A frame with few names in it: the envelope is a list, and so is what it carries. -/
def nameless : Bytes := Utf8.ofString
  "[null,\"publish\",\"2024-02-29T12:00:00Z\",[\"doc\",[[-5],\x7b\"b\":1,\"a\":[]\x7d]]]"

/-- All is drawn at noon. -/
def noonDraw : Draw := ⟨3, noon, noon, noon, "s"⟩

/-- Two clients have subscribed, and one of them has an identity. -/
def readership : List Call :=
  [.enter 1 4 0, .enter 2 4 0, .identify 1 ⟨"ann", "a"⟩, .subscribe 1 "doc", .subscribe 2 "doc"]

/-- What the client with the identity publishes by that frame, the other one reads. -/
theorem notice_reads_back_nameless : ∃ data : Json, data.isWhole = true ∧
    data.toText = "[[-5],\x7b\"a\":[],\"b\":1\x7d]" ∧
    notice noonDraw "doc" data ∈ (run (Board.empty .standard) readership).accepted 1
      (.frame (fun _ _ => .broken) 0 noonDraw 0 nameless) ∧
    Envelope.ofBytes noon (Utf8.ofString (notice noonDraw "doc" data).wire) =
      .ok ⟨"noon", noon.time, .notify "doc" "publish" data, none, none⟩ := by
  have hc : ((run (Board.empty .standard) readership).lines[0]?.any Connection.isIdentified) =
    true := by decide
  obtain ⟨c, hc, hi⟩ := (Option.any_eq_true _ _).1 hc
  have hm : Envelope.ofBytes noonDraw.received nameless = .ok ⟨"noon", noon.time,
      .publish "doc" (.list [.list [.integer (-5)], .record [("a", .list []), ("b", .integer 1)]]),
      none, none⟩ := by cbv
  have hk : checkChannel "doc" = .ok () := if_neg (by decide)
  have hw : (Json.list [.list [.integer (-5)], .record [("a", .list []), ("b", .integer 1)]]).isWhole
      = true := rfl
  obtain ⟨hreaches, -, hback, -⟩ := notice_reads_back hc hi hm rfl hk hw (fun _ _ => .broken) 0
  exact ⟨_, hw, by cbv, hreaches 1 (by decide) (by decide), hback noon⟩

end Board

end Switchboard
