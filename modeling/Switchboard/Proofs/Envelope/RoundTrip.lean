/-
Switchboard/Proofs/Envelope/RoundTrip.lean

A message is read back from its wire form.

Two things are read in turn: the envelope, from the text, by the loop over
the members of a record, and the body, from the value that came as data, by
its shape.  The first takes in one member after another, those that may be
left out included, and the draft that results has just what the message has,
so that no stamp is used.  The second inverts the body's data, kind by kind.
-/
import Switchboard.Envelope.Reader
import Switchboard.Envelope.Writer
import Switchboard.Proofs.Instant.RoundTrip
import Switchboard.Proofs.Json.RoundTrip

namespace Switchboard

open Json Utf8

/-! ### Bodies -/

/-- The body has nothing that the wire cannot carry: the data of a client is portable at the depth
that the message around it leaves, and a count fits 64 bits. -/
def Body.Portable : Body → Prop
  | .publish _ data | .notify _ _ data => data.Portable 125
  | .publishAck _ subscribers => subscribers < 2 ^ 64
  | _ => True

/-- Members whose names are some of those of an ascending list, in its order. -/
theorem ascending {ms : Members} (names : List String) (hs : (ms.map Prod.fst).Sublist names)
    (hn : (names.map String.toList).Pairwise (· < ·)) :
    ms.Pairwise fun m m' => m.1 < m'.1 := by
  have h : names.Pairwise (· < ·) := by
    simpa only [List.pairwise_map, String.lt_iff_toList_lt] using hn
  exact List.pairwise_map.1 (h.sublist hs)

/-- A member that may be left out brings no other name. -/
theorem names_optionalMember (name : String) (s : Option String) :
    ((optionalMember name s).map Prod.fst).Sublist [name] := by
  cases s with
  | none => exact List.nil_sublist _
  | some s => exact List.Sublist.refl _

theorem portable_of_mem_optionalMember {name : String} {s : Option String} {depth : Nat}
    {m : String × Json} (hm : m ∈ optionalMember name s) : m.2.Portable depth := by
  cases s with
  | none => cases hm
  | some s =>
    rw [List.mem_singleton.1 hm]
    exact .text s

/-- An authentication result can always be carried. -/
theorem portable_authResult (r : AuthResult) : (Body.authResult r).data.Portable 126 := by
  refine .record (ascending ["message", "sessionId", "success", "userId"] ?_ (by decide)) ?_
  · rw [List.map_append, List.map_append, List.map_cons]
    exact ((names_optionalMember _ _).append (names_optionalMember _ _)).append
      ((names_optionalMember _ _).cons_cons _)
  · intro m hm
    rw [List.mem_append, List.mem_append, List.mem_cons] at hm
    rcases hm with (hm | hm) | rfl | hm
    · exact portable_of_mem_optionalMember hm
    · exact portable_of_mem_optionalMember hm
    · exact .flag _
    · exact portable_of_mem_optionalMember hm

/-- The data of a body that the wire can carry is portable. -/
theorem Body.Portable.data {b : Body} (h : b.Portable) : b.data.Portable 126 := by
  have htext : ∀ s : String, (Json.text s).Portable 125 := fun s => .text s
  cases b with
  | ping => exact .record .nil (by simp)
  | pong _ | auth _ | subscribe _ | subscribeAck _ | unsubscribe _ | unsubscribeAck _ =>
    refine .record (List.pairwise_singleton _ _) ?_
    simp only [List.mem_singleton, forall_eq]
    exact .text _
  | authResult r => exact portable_authResult r
  | publish channel data =>
    refine .record (ascending ["channel", "data"] (.refl _) (by decide)) ?_
    simpa using ⟨htext channel, h⟩
  | publishAck channel n =>
    have hn : FitsInteger n := ⟨by omega, by exact_mod_cast h⟩
    refine .record (ascending ["channel", "subscriberCount"] (.refl _) (by decide)) ?_
    simpa using ⟨htext channel, Json.Portable.integer hn⟩
  | notify channel event data =>
    refine .record (ascending ["channel", "data", "event"] (.refl _) (by decide)) ?_
    simpa using ⟨htext channel, h, htext event⟩
  | error code message =>
    refine .record (ascending ["code", "message"] (.refl _) (by decide)) ?_
    simpa using ⟨htext code.name, htext message⟩

/-- A time that is printed is read back. -/
theorem readInstant_toJson (t : Instant) : readInstant t.toJson = .ok t := by
  rw [Instant.toJson, readInstant, instantOfText, String.toList_ofList, Instant.ofChars_text]

/-- So is a code. -/
theorem readCode_name (c : Code) : readCode (.text c.name) = .ok c := by
  rw [readCode, readChoice, choiceOfText, Code.ofName?_name]

/-- **A body is read back from its data.** -/
theorem Body.ofData_data (b : Body) : Body.ofData b.kind (some b.data) = .ok b := by
  cases b with
  | pong t =>
    show Body.pong <$> (do Shape.required "timestamp" (← some <$> readInstant t.toJson)) = _
    rw [readInstant_toJson]
    rfl
  | authResult r =>
    -- three members may be left out
    obtain ⟨success, user, session, message⟩ := r
    cases user <;> cases session <;> cases message <;> rfl
  | error code message =>
    show (fun p => Body.error p.1 p.2) <$> (do
      let c ← some <$> readCode (.text code.name)
      let s ← some <$> readString (.text message)
      .ok (← Shape.required "code" c, ← Shape.required "message" s)) = _
    rw [readCode_name]
    rfl
  | ping | auth _ | subscribe _ | subscribeAck _ | unsubscribe _ | unsubscribeAck _ | publish _ _
  | publishAck _ _ | notify _ _ _ => rfl

namespace Envelope

variable {rest : Bytes} {d d' : Draft} {m : Envelope}

/-! ### Values of a known type -/

/-- And so is whatever is made from a text. -/
theorem stringWith_render {α : Type} {want : Wanted} {make : String → Except Mismatch α}
    {s : String} {a : α} (h : make s = .ok a) (rest : Bytes) :
    stringWith want make (encode (render (.text s)) ++ rest) = .ok (a, rest) := by
  rw [render, encode_renderText, List.cons_append, List.append_assoc, List.singleton_append,
    stringWith, skipSpace_cons rfl]
  simp only [if_true, bind, Except.bind, readText_render, h]

/-- What is no null is read as a value that is there. -/
theorem optional_append {α : Type} {read : Bytes → Except Problem (α × Bytes)} {b : UInt8}
    {bs : Bytes} {a : α} (hs : isSpace b = false) (hb : b ≠ 110)
    (h : read (b :: bs) = .ok (a, rest)) : optional read (b :: bs) = .ok (some a, rest) := by
  rw [optional, skipSpace_cons hs]
  split
  · rename_i e
    exact absurd (List.cons.inj e).1 hb
  · rw [h]
    rfl

theorem optional_string (s : String) (rest : Bytes) :
    optional string (encode (render (.text s)) ++ rest) = .ok (some s, rest) := by
  have h : string (encode (render (.text s)) ++ rest) = .ok (s, rest) := stringWith_render rfl rest
  rw [render, encode_renderText, List.cons_append] at h ⊢
  exact optional_append rfl (by decide) h

theorem instant_toJson (t : Instant) (rest : Bytes) :
    instant (encode (render t.toJson) ++ rest) = .ok (t, rest) := by
  refine stringWith_render ?_ rest
  rw [instantOfText, String.toList_ofList, Instant.ofChars_text]

/-- A kind is read back from its name. -/
theorem kindValue_name (k : Kind) (rest : Bytes) :
    kindValue (encode (render (.text k.name)) ++ rest) = .ok (k, rest) := by
  have hk : kindOfText k.name = .ok k := by
    rw [kindOfText, choiceOfText, Kind.ofName?_name]
  have h : stringWith .choiceName kindOfText (encode (render (.text k.name)) ++ rest) =
      .ok (k, rest) := stringWith_render hk rest
  rw [render, encode_renderText, List.cons_append] at h ⊢
  rw [kindValue, skipSpace_cons rfl]
  simp only [if_true]
  exact h

/-- The data are read back as they are. -/
theorem dataValue_data {b : Body} (h : b.Portable) (hr : Delimits rest) :
    dataValue (encode (render b.data) ++ rest) = .ok (some b.data, rest) := by
  have hread := h.data.reads rest hr
  -- the data is a record, so it is not taken for a null
  obtain ⟨members, hm⟩ : ∃ members, b.data = .record members := by
    cases b <;> exact ⟨_, rfl⟩
  rw [hm, render, List.cons_append, encode_cons] at hread ⊢
  exact optional_append rfl (by decide) hread

/-! ### The members of the envelope -/

/-- A member that has not come before is taken in. -/
theorem once_eq {α : Type} {name : String} {old : Option α}
    {read : Bytes → Except Problem (α × Bytes)} {put : α → Draft} {bs : Bytes} {a : α}
    (ho : old = none) (h : read bs = .ok (a, rest)) :
    once name old read put (colon :: bs) = .ok (put a, rest) := by
  have hc : readColon (colon :: bs) = .ok bs := rfl
  subst ho
  simp only [once, bind, Except.bind, hc, h]

/-- Members are taken in one after the other. -/
theorem takes_append {ms ms' : Members} {d'' : Draft} (h : Takes Draft.step d ms d')
    (h' : Takes Draft.step d' ms' d'') : Takes Draft.step d (ms ++ ms') d'' := by
  induction h with
  | nil => exact h'
  | cons hstep _ ih => exact .cons hstep (ih h')

/-- Taking in one member. -/
theorem takes_one {k : String} {v : Json}
    (h : ∀ rest, Delimits rest →
      Draft.step d k (colon :: (encode (render v) ++ rest)) = .ok (d', rest)) :
    Takes Draft.step d [(k, v)] d' :=
  .cons h (.nil d')

/-- Each member of the envelope sets its own part of the draft, if that is open. -/
theorem takes_id (hd : d.id = none) (s : String) :
    Takes Draft.step d [("id", .text s)] { d with id := some (some s) } := by
  refine takes_one fun rest _ => ?_
  rw [Draft.step, if_pos rfl]
  exact once_eq hd (optional_string s rest)

theorem takes_kind (hd : d.kind = none) (k : Kind) :
    Takes Draft.step d [("type", .text k.name)] { d with kind := some k } := by
  refine takes_one fun rest _ => ?_
  rw [Draft.step, if_neg (by decide), if_pos rfl]
  exact once_eq hd (kindValue_name k rest)

theorem takes_time (hd : d.time = none) (t : Instant) :
    Takes Draft.step d [("timestamp", t.toJson)] { d with time := some t } := by
  refine takes_one fun rest _ => ?_
  rw [Draft.step, if_neg (by decide), if_neg (by decide), if_pos rfl]
  exact once_eq hd (instant_toJson t rest)

theorem takes_data {b : Body} (hd : d.data = none) (h : b.Portable) :
    Takes Draft.step d [("data", b.data)] { d with data := some (some b.data) } := by
  refine takes_one fun rest hr => ?_
  rw [Draft.step, if_neg (by decide), if_neg (by decide), if_neg (by decide), if_pos rfl]
  exact once_eq hd (dataValue_data h hr)

/-- A member that is left out leaves its part open. -/
theorem takes_requestId (hd : d.requestId = none) (s : Option String) :
    Takes Draft.step d (optionalMember "requestId" s) { d with requestId := s.map some } := by
  cases s with
  | none =>
    -- a member that is left out changes nothing
    rw [Option.map_none, ← hd]
    exact .nil d
  | some s =>
    refine takes_one fun rest _ => ?_
    rw [Draft.step, if_neg (by decide), if_neg (by decide), if_neg (by decide),
      if_neg (by decide), if_pos rfl]
    exact once_eq hd (optional_string s rest)

theorem takes_error (hd : d.error = none) (s : Option String) :
    Takes Draft.step d (optionalMember "error" s) { d with error := s.map some } := by
  cases s with
  | none =>
    rw [Option.map_none, ← hd]
    exact .nil d
  | some s =>
    refine takes_one fun rest _ => ?_
    rw [Draft.step, if_neg (by decide), if_neg (by decide), if_neg (by decide),
      if_neg (by decide), if_neg (by decide), if_pos rfl]
    exact once_eq hd (optional_string s rest)

/-- The draft that has just what a message has. -/
def draft (m : Envelope) : Draft where
  id := some (some m.id)
  kind := some m.kind
  time := some m.time
  data := some (some m.body.data)
  requestId := m.requestId.map some
  error := m.error.map some

theorem takes_members (h : m.body.Portable) : Takes Draft.step Draft.empty m.members m.draft := by
  have hid := takes_id (d := Draft.empty) rfl m.id
  have htype := takes_append hid (takes_kind rfl m.kind)
  have htime := takes_append htype (takes_time rfl m.time)
  have hdata := takes_append htime (takes_data rfl h)
  have hrequest := takes_append hdata (takes_requestId rfl m.requestId)
  exact takes_append hrequest (takes_error rfl m.error)

/-- The draft of a message makes that message. -/
theorem ofDraft_draft (stamp : Stamp) (m : Envelope) : ofDraft stamp m.draft m.body = m := by
  obtain ⟨id, time, body, requestId, error⟩ := m
  cases requestId <;> cases error <;> rfl

/-! ### The whole -/

/-- What is sent are the members of the message, in braces. -/
theorem ofString_wire (m : Envelope) :
    Utf8.ofString m.wire = openRecord :: (encode (renderMembers m.members) ++ [closeRecord]) := by
  rw [wire, toText, Utf8.ofString, String.toList_ofList, render, List.cons_append, encode_cons,
    encode_append]
  rfl

/-- So what is sent is read as the draft of the message. -/
theorem readWith_wire (h : m.body.Portable) :
    readWith readDraft (Utf8.ofString m.wire) = .ok (m.kind, m.draft) := by
  have hfold := foldMembers_render (takes_members h) []
  have hdraft : readDraft (Utf8.ofString m.wire) = .ok ((m.kind, m.draft), []) := by
    rw [ofString_wire, readDraft, skipSpace_cons rfl]
    simp only [if_true, bind, Except.bind, hfold]
    rfl
  rw [readWith, hdraft]
  rfl

theorem ofBytes_ofString_wire (stamp : Stamp) (h : m.body.Portable) :
    ofBytes stamp (Utf8.ofString m.wire) = .ok m := by
  rw [ofBytes, readWith_wire h]
  have hbody : Body.ofData m.kind m.draft.data.join = .ok m.body := Body.ofData_data m.body
  simp only [bind, Except.bind, hbody, ofDraft_draft]

/-- **A message is read back from its wire form**, and so its wire form comes out the same again.
The body may be of any kind, the time any that the calendar has; of the data that clients publish
it is asked that the wire can carry it. -/
theorem ofBytes_wire (stamp : Stamp) (m : Envelope) (h : m.body.Portable) :
    ofBytes stamp (Utf8.ofString m.wire) = .ok m ∧
      (ofBytes stamp (Utf8.ofString m.wire)).map wire = .ok m.wire := by
  have hm := ofBytes_ofString_wire stamp h
  refine ⟨hm, ?_⟩
  rw [hm]
  rfl

/-- A message with a name full of escapes, from a leap second of the year before the first, that
tells of both bounds of the integers, in members that are given in the wrong order. -/
def oddMessage : Envelope where
  id := "\"\\/\n\x01é🦀"
  time := ⟨⟨-1, 12, 31, by decide⟩, 23, 59, 60, 120000000, by decide, by decide, by decide,
    by decide⟩
  body := .notify "doc" publishEvent (.ofMembers [("z", .list [.integer (-2 ^ 63), .null]),
    ("a", .integer (2 ^ 64 - 1))])
  requestId := some ""
  error := none

theorem ofBytes_wire_oddMessage :
    oddMessage.body.Portable ∧
      ofBytes ⟨"spare", oddMessage.time⟩ (Utf8.ofString oddMessage.wire) = .ok oddMessage := by
  have hlow : (Json.integer (-2 ^ 63)).Portable 123 := .integer (by decide)
  have hhigh : (Json.integer (2 ^ 64 - 1)).Portable 124 := .integer (by decide)
  have hlist : (Json.list [.integer (-2 ^ 63), .null]).Portable 124 := by
    refine .list ?_
    simpa using ⟨hlow, Json.Portable.null⟩
  have h : oddMessage.body.Portable := by
    refine portable_ofMembers ?_
    simpa using ⟨hlist, hhigh⟩
  exact ⟨h, (ofBytes_wire _ oddMessage h).1⟩

end Envelope

end Switchboard
