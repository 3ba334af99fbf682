/-
Switchboard/Proofs/Envelope/Normal.lean

The normal form of a message's data.

The same body can be told in many ways.  Its data is a record or a list of
the members' values; a record may have members that nobody asks for, in any
order, and leave others out or set them to null; a time and a code have more
than one spelling.  Whatever is accepted, the body that comes of it has data
of its own, one record for each body, and that is accepted again and gives the
same body: one pass is enough (`normal_in_one_pass`).

Which ways amount to the same is said by `Body.ToldBy`, body by body: what a
record has to have under the names of the kind's `parts`, whatever else it
has.  A list is the record of its items under these names.  A shape is `Told`
in this way if both of its forms are; this is shown for one shape after the
other, from what is said of a single member and of a single item.
-/
import Switchboard.Proofs.Envelope.Intake

namespace Switchboard

open Json (Mismatch)

/-! ### Single values -/

/-- A text that may be left out, as a value. -/
def Json.ofText? : Option String → Json
  | some s => .text s
  | none => .null

/-- The name of a code is that of no other. -/
theorem Code.ofName?_eq_some {s : String} {c : Code} : Code.ofName? s = some c ↔ s = c.name := by
  constructor
  · intro h
    rw [Code.ofName?] at h
    have hname := List.find?_some h
    exact (eq_of_beq hname).symm
  · rintro rfl
    exact Code.ofName?_name c

namespace Json

variable {v : Json}

/-- What each reader of a single value accepts: a string is a text. -/
theorem readString_eq_ok {s : String} : readString v = .ok s ↔ v = .text s := by
  cases v <;> simp [readString]

/-- A flag is a truth value. -/
theorem readFlag_eq_ok {b : Bool} : readFlag v = .ok b ↔ v = .flag b := by
  cases v <;> simp [readFlag]

/-- A count is an integer that is not negative. -/
theorem readCount_eq_ok {n : Nat} : readCount v = .ok n ↔ v = .integer n := by
  cases v with
  | integer i =>
    rw [readCount]
    split
    · rename_i h
      obtain ⟨k, rfl⟩ := Int.eq_ofNat_of_zero_le h
      simp
    · rename_i h
      constructor
      · intro e
        cases e
      · intro e
        cases e
        exact absurd (Int.natCast_nonneg n) h
  | _ => simp [readCount]

/-- An optional string is a text or null. -/
theorem readOptionalString_eq_ok {s : Option String} :
    readOptionalString v = .ok s ↔ v = ofText? s := by
  cases v with
  | text t => cases s <;> simp [readOptionalString, readString, ofText?]
  | null => cases s <;> simp [readOptionalString, ofText?]
  | _ => cases s <;> simp [readOptionalString, readString, ofText?]

/-- A time is a text that tells one. -/
theorem readInstant_eq_ok {t : Instant} : readInstant v = .ok t ↔
    ∃ s, v = .text s ∧ Instant.ofChars s.toList = .ok t := by
  cases v with
  | text s =>
    rw [readInstant, instantOfText]
    rcases h : Instant.ofChars s.toList with f | t' <;> simp [h]
  | _ => simp [readInstant]

theorem choiceOfText_eq_ok {α : Type} {names : List String} {ofName? : String → Option α}
    {s : String} {a : α} : choiceOfText names ofName? s = .ok a ↔ ofName? s = some a := by
  rw [choiceOfText]
  rcases ofName? s with - | a' <;> simp

/-- A code is its name, or a record that has nothing but a null under that name. -/
theorem readCode_eq_ok {c : Code} : readCode v = .ok c ↔
    v = .text c.name ∨ v = .record [(c.name, .null)] := by
  have hword : ∀ s, choiceOfText (Code.all.map Code.name) Code.ofName? s = .ok c ↔ s = c.name :=
    fun s => choiceOfText_eq_ok.trans Code.ofName?_eq_some
  match v with
  | .text s =>
    show choiceOfText _ Code.ofName? s = .ok c ↔ _
    simp [hword]
  | .record [(s, w)] =>
    rw [readCode, readChoice, bind_eq_ok_iff]
    cases w <;> simp [hword]
  | .record [] | .record (_ :: _ :: _) => simp [readCode, readChoice]
  | .null | .flag _ | .integer _ | .double _ | .list _ => simp [readCode, readChoice]

end Json

namespace Shape

variable {α β : Type} {a : α} {name part part' : String} {parts index : Nat}
  {read : Json → Except Mismatch α} {read' : Json → Except Mismatch β} {ms : Members}
  {items rest : List Json} {s : Option String} {v : Json}

/-! ### Single members and items -/

/-- A member that is asked for is found and read, if it is there. -/
theorem member?_eq_ok : member? name read ms = .ok (some a) ↔
    ∃ v, ms.find? name = some v ∧ read v = .ok a := by
  rw [member?]
  rcases ms.find? name with - | v
  · simp
  · show some <$> read v = .ok (some a) ↔ _
    rcases h : read v with e | a' <;> simp [h, Functor.map, Except.map]

theorem required_eq_ok {x : Option α} : required name x = .ok a ↔ x = some a := by
  cases x <;> simp [required]

/-- The same of an item, by its place. -/
theorem item_eq_ok : item name parts index read items = .ok (a, rest) ↔
    (∃ v, items[0]? = some v ∧ read v = .ok a) ∧ rest = items.drop 1 := by
  cases items with
  | nil => simp [item]
  | cons v items =>
    rw [item, bind_eq_ok_iff]
    constructor
    · rintro ⟨a', ha, h⟩
      cases h
      exact ⟨⟨v, rfl, ha⟩, rfl⟩
    · rintro ⟨⟨w, hw, ha⟩, rfl⟩
      cases hw
      exact ⟨a, ha, rfl⟩

/-- An item that may be left out, of values with one spelling each: to be absent is to be null. -/
theorem itemOr_eq_ok {absent : α} (spell : α → Json) (hread : ∀ v a, read v = .ok a ↔ v = spell a)
    (hnull : spell absent = .null) : itemOr absent read items = .ok (a, rest) ↔
      items[0]?.getD .null = spell a ∧ rest = items.drop 1 := by
  cases items with
  | nil =>
    constructor
    · intro h
      cases h
      exact ⟨hnull.symm, rfl⟩
    · rintro ⟨h, rfl⟩
      have ha : read .null = .ok a := (hread _ _).2 h
      rw [(hread _ _).2 hnull.symm] at ha
      cases ha
      rfl
  | cons v items =>
    rw [itemOr, bind_eq_ok_iff]
    constructor
    · rintro ⟨a', ha, h⟩
      cases h
      exact ⟨(hread v a).1 ha, rfl⟩
    · rintro ⟨h, rfl⟩
      exact ⟨a, (hread v a).2 h, rfl⟩

theorem itemOr_text_eq_ok : itemOr none Json.readOptionalString items = .ok (s, rest) ↔
    items[0]?.getD .null = Json.ofText? s ∧ rest = items.drop 1 :=
  itemOr_eq_ok Json.ofText? (fun _ _ => Json.readOptionalString_eq_ok) rfl

theorem itemOr_data_eq_ok : itemOr .null .ok items = .ok (v, rest) ↔
    items[0]?.getD .null = v ∧ rest = items.drop 1 :=
  itemOr_eq_ok id (by simp) rfl

/-- Of a text that may be left out it only matters what is there, or null. -/
theorem member?_bind_join (name : String) (ms : Members) (f : Option String → Except Mismatch α) :
    (do f (← member? name Json.readOptionalString ms).join) =
      (do f (← Json.readOptionalString ((ms.find? name).getD .null))) := by
  rw [member?]
  rcases ms.find? name with - | v
  · rfl
  · show (do f (← some <$> Json.readOptionalString v).join) = (do f (← Json.readOptionalString v))
    rcases Json.readOptionalString v with e | s <;> rfl

/-- The members of an authentication result, in the order in which they are read. -/
theorem authResult_ofMembers (ms : Members) : authResult.ofMembers ms = (do
    let message ← Json.readOptionalString ((ms.find? "message").getD .null)
    let session ← Json.readOptionalString ((ms.find? "sessionId").getD .null)
    let success ← member? "success" Json.readFlag ms
    let user ← Json.readOptionalString ((ms.find? "userId").getD .null)
    .ok ⟨← required "success" success, user, session, message⟩) := by
  simp only [← member?_bind_join]
  rfl

/-- The items of a list under the names of the parts. -/
theorem find?_zip {names : List String} (hn : names.Nodup) {i : Nat} (h : names[i]? = some name)
    (items : List Json) : Members.find? name (names.zip items) = items[i]? := by
  induction names generalizing items i with
  | nil => cases h
  | cons first names ih =>
    obtain ⟨hfirst, hn⟩ := List.nodup_cons.1 hn
    cases items with
    | nil => rfl
    | cons v items =>
      rw [Members.find?, List.zip_cons_cons]
      cases i with
      | zero =>
        obtain rfl : first = name := by simpa using h
        exact List.lookup_cons_self
      | succ i =>
        rw [List.getElem?_cons_succ] at h
        have hne : name ≠ first := by
          rintro rfl
          exact hfirst (List.mem_of_getElem? h)
        rw [List.lookup_cons, beq_false_of_ne hne]
        exact ih hn h items

/-! ### Shapes -/

/-- A shape is told by what a record has under these names: records are read so, and a list is
the record of its items. -/
structure Told (s : Shape α) (names : List String) (tells : Members → α → Prop) : Prop where
  record : ∀ {ms a}, s.ofMembers ms = .ok a ↔ tells ms a
  list : ∀ {items a}, s.ofItems items = .ok (a, []) ↔
    tells (names.zip items) a ∧ items.length ≤ names.length

/-- **What a shape reads**, from a record or from a list. -/
theorem Told.read_eq_ok {s : Shape α} {names : List String} {tells : Members → α → Prop}
    (h : s.Told names tells) : s.read v = .ok a ↔
      (∃ ms, v = .record ms ∧ tells ms a) ∨
        ∃ items, v = .list items ∧ tells (names.zip items) a ∧ items.length ≤ names.length := by
  cases v with
  | record ms => simp [Shape.read, h.record]
  | list items =>
    rw [Shape.read, bind_eq_ok_iff]
    constructor
    · rintro ⟨⟨a', left⟩, hitems, hleft⟩
      simp only at hleft
      split at hleft
      · rename_i hnil
        cases hleft
        rw [List.isEmpty_iff.1 hnil] at hitems
        exact .inr ⟨items, rfl, h.list.1 hitems⟩
      · cases hleft
    · rintro (⟨ms, e, -⟩ | ⟨items', e, hitems⟩)
      · cases e
      · cases e
        exact ⟨(a, []), h.list.2 hitems, rfl⟩
  | null | flag _ | integer _ | double _ | text _ => simp [Shape.read]

/-- A shape of one part tells that part. -/
theorem told_single (name part : String) (read : Json → Except Mismatch α) :
    (single name part read).Told [part] fun ms a =>
      ∃ v, ms.find? part = some v ∧ read v = .ok a where
  record := by
    intro ms a
    simp [single, bind_eq_ok_iff, required_eq_ok, member?_eq_ok]
  list := by
    intro items a
    rw [find?_zip (i := 0) (by simp) rfl]
    simp [single, item_eq_ok, eq_comm (a := []), -List.drop_one]

/-- A shape of two tells both. -/
theorem told_pair (name : String) {part part' : String} (hne : part ≠ part')
    (read : Json → Except Mismatch α) (read' : Json → Except Mismatch β) :
    (pair name part read part' read').Told [part, part'] fun ms p =>
      (∃ v, ms.find? part = some v ∧ read v = .ok p.1) ∧
        ∃ v, ms.find? part' = some v ∧ read' v = .ok p.2 where
  record := by
    rintro ms ⟨a, b⟩
    simp [pair, bind_eq_ok_iff, required_eq_ok, ← member?_eq_ok]
  list := by
    rintro items ⟨a, b⟩
    have hn : [part, part'].Nodup := by simpa using hne
    rw [find?_zip (i := 0) hn rfl, find?_zip (i := 1) hn rfl]
    simp [pair, bind_eq_ok_iff, item_eq_ok, and_assoc, -List.drop_one]

theorem told_publish : publish.Told ["channel", "data"] fun ms p =>
    ms.find? "channel" = some (.text p.1) ∧ (ms.find? "data").getD .null = p.2 where
  record := by
    rintro ms ⟨channel, data⟩
    simp [publish, bind_eq_ok_iff, required_eq_ok, member?_eq_ok, Json.readString_eq_ok]
  list := by
    rintro items ⟨channel, data⟩
    rw [find?_zip (i := 0) (by decide) rfl, find?_zip (i := 1) (by decide) rfl]
    simp [publish, bind_eq_ok_iff, item_eq_ok, itemOr_data_eq_ok, Json.readString_eq_ok,
      and_assoc, -List.drop_one]

theorem told_notify : notify.Told ["channel", "event", "data"] fun ms p =>
    ms.find? "channel" = some (.text p.1) ∧ ms.find? "event" = some (.text p.2.1) ∧
      (ms.find? "data").getD .null = p.2.2 where
  record := by
    rintro ms ⟨channel, event, data⟩
    simp [notify, bind_eq_ok_iff, required_eq_ok, member?_eq_ok, Json.readString_eq_ok]
  list := by
    rintro items ⟨channel, event, data⟩
    rw [find?_zip (i := 0) (by decide) rfl, find?_zip (i := 1) (by decide) rfl,
      find?_zip (i := 2) (by decide) rfl]
    simp [notify, bind_eq_ok_iff, item_eq_ok, itemOr_data_eq_ok, Json.readString_eq_ok,
      and_assoc, -List.drop_one]

theorem told_authResult : authResult.Told ["success", "userId", "sessionId", "message"] fun ms r =>
    ms.find? "success" = some (.flag r.success) ∧
      (ms.find? "userId").getD .null = Json.ofText? r.user ∧
      (ms.find? "sessionId").getD .null = Json.ofText? r.session ∧
      (ms.find? "message").getD .null = Json.ofText? r.message where
  record := by
    rintro ms ⟨success, user, session, message⟩
    rw [authResult_ofMembers]
    simp [bind_eq_ok_iff, required_eq_ok, member?_eq_ok, Json.readFlag_eq_ok,
      Json.readOptionalString_eq_ok, and_assoc, and_comm, and_left_comm, -Bool.exists_bool]
  list := by
    rintro items ⟨success, user, session, message⟩
    rw [find?_zip (i := 0) (by decide) rfl, find?_zip (i := 1) (by decide) rfl,
      find?_zip (i := 2) (by decide) rfl, find?_zip (i := 3) (by decide) rfl]
    simp [authResult, bind_eq_ok_iff, item_eq_ok, itemOr_text_eq_ok, Json.readFlag_eq_ok,
      and_assoc, -List.drop_one, -Bool.exists_bool]

end Shape

/-! ### Bodies -/

/-- The members that the data of a kind may have, in the order in which a list has their values. -/
def Kind.parts : Kind → List String
  | .ping => []
  | .pong => ["timestamp"]
  | .auth => ["token"]
  | .authResult => ["success", "userId", "sessionId", "message"]
  | .subscribe | .subscribeAck | .unsubscribe | .unsubscribeAck => ["channel"]
  | .publish => ["channel", "data"]
  | .publishAck => ["channel", "subscriberCount"]
  | .notify => ["channel", "event", "data"]
  | .error => ["code", "message"]

/-- A record tells a body: under the names of the body's parts it has the values of the parts.  What
else it has does not matter, and to have nothing under a name may be the same as to have null. -/
def Body.ToldBy (ms : Members) : Body → Prop
  | .ping => True
  | .pong time => ∃ s, ms.find? "timestamp" = some (.text s) ∧ Instant.ofChars s.toList = .ok time
  | .auth token => ms.find? "token" = some (.text token)
  | .authResult r =>
    ms.find? "success" = some (.flag r.success) ∧
      (ms.find? "userId").getD .null = Json.ofText? r.user ∧
      (ms.find? "sessionId").getD .null = Json.ofText? r.session ∧
      (ms.find? "message").getD .null = Json.ofText? r.message
  | .subscribe channel | .subscribeAck channel | .unsubscribe channel | .unsubscribeAck channel =>
    ms.find? "channel" = some (.text channel)
  | .publish channel data =>
    ms.find? "channel" = some (.text channel) ∧ (ms.find? "data").getD .null = data
  | .publishAck channel subscribers =>
    ms.find? "channel" = some (.text channel) ∧
      ms.find? "subscriberCount" = some (.integer subscribers)
  | .notify channel event data =>
    ms.find? "channel" = some (.text channel) ∧ ms.find? "event" = some (.text event) ∧
      (ms.find? "data").getD .null = data
  | .error code message =>
    (∃ v, ms.find? "code" = some v ∧ (v = .text code.name ∨ v = .record [(code.name, .null)])) ∧
      ms.find? "message" = some (.text message)

/-- Data tells a body: it is a record that does, or the list of the parts' values.  The data of a
ping may be anything. -/
def Body.ToldIn (v : Json) (b : Body) : Prop :=
  b = .ping ∨ (∃ ms, v = .record ms ∧ b.ToldBy ms) ∨
    ∃ items, v = .list items ∧ b.ToldBy (b.kind.parts.zip items) ∧
      items.length ≤ b.kind.parts.length

namespace Body

variable {k : Kind} {d : Option Json} {v : Json} {b : Body}

/-- So a body is told by what its shape tells. -/
theorem toldIn_of_told {α : Type} {s : Shape α} {tells : Members → α → Prop} {make : α → Body}
    (h : s.Told k.parts tells) (hk : k ≠ .ping) (hb : b.kind = k ↔ ∃ a, make a = b)
    (ht : ∀ ms a, (make a).ToldBy ms ↔ tells ms a) :
    make <$> s.read v = .ok b ↔ b.kind = k ∧ b.ToldIn v := by
  constructor
  · intro hread
    obtain ⟨a, ha, rfl⟩ := map_eq_ok hread
    have hkind := hb.2 ⟨a, rfl⟩
    refine ⟨hkind, .inr ?_⟩
    rw [hkind]
    simpa only [ht] using h.read_eq_ok.1 ha
  · rintro ⟨hkind, hv⟩
    obtain ⟨a, rfl⟩ := hb.1 hkind
    have ha : s.read v = .ok a := by
      rw [ToldIn, hkind] at hv
      refine h.read_eq_ok.2 ?_
      simpa only [ht] using hv.resolve_left fun e => hk (by rw [← hkind, e]; rfl)
    rw [ha]
    rfl

/-- **What data is accepted, and as which body.** -/
theorem ofData_eq_ok : ofData k d = .ok b ↔ b.kind = k ∧ b.ToldIn (d.getD (.record [])) := by
  cases k with
  | ping =>
    constructor
    · intro h
      cases h
      exact ⟨rfl, .inl rfl⟩
    · rintro ⟨hk, -⟩
      cases b <;> cases hk
      rfl
  | pong =>
    refine toldIn_of_told (Shape.told_single _ _ _) (by decide) ?_ ?_
    · cases b <;> simp [kind]
    · simp [ToldBy, Json.readInstant_eq_ok]
  | auth =>
    refine toldIn_of_told (Shape.told_single _ _ _) (by decide) ?_ ?_
    · cases b <;> simp [kind]
    · simp [ToldBy, Json.readString_eq_ok]
  | authResult =>
    refine toldIn_of_told Shape.told_authResult (by decide) ?_ ?_
    · cases b <;> simp [kind]
    · simp [ToldBy]
  | subscribe | subscribeAck | unsubscribe | unsubscribeAck =>
    refine toldIn_of_told (Shape.told_single _ _ _) (by decide) ?_ ?_
    · cases b <;> simp [kind]
    · simp [ToldBy, Json.readString_eq_ok]
  | publish =>
    refine toldIn_of_told Shape.told_publish (by decide) ?_ ?_
    · cases b <;> simp [kind]
    · simp [ToldBy]
  | publishAck =>
    refine toldIn_of_told (Shape.told_pair _ (by decide) _ _) (by decide) ?_ ?_
    · cases b <;> simp [kind]
    · simp [ToldBy, Json.readString_eq_ok, Json.readCount_eq_ok]
  | notify =>
    refine toldIn_of_told Shape.told_notify (by decide) ?_ ?_
    · cases b <;> simp [kind]
    · simp [ToldBy]
  | error =>
    refine toldIn_of_told (Shape.told_pair _ (by decide) _ _) (by decide) ?_ ?_
    · cases b <;> simp [kind]
    · simp [ToldBy, Json.readString_eq_ok, Json.readCode_eq_ok]

/-- **One pass gives the normal form.**  The data of a body gives the body.  Whatever data is
accepted for a kind, the body that comes of it is of that kind, and its own data is accepted for
the kind again and gives the same body.  And what is accepted is just what tells a body in one way
or another: as a record, with members that nobody knows, with null for a member or without it, as a
list, or not at all, which is the empty record. -/
theorem normal_in_one_pass :
    (∀ b : Body, ofData b.kind (some b.data) = .ok b) ∧
    (∀ (k : Kind) (d : Option Json) (b : Body), ofData k d = .ok b →
      b.kind = k ∧ ofData k (some b.data) = .ok b) ∧
    ∀ (k : Kind) (d : Option Json) (b : Body),
      ofData k d = .ok b ↔ b.kind = k ∧ b.ToldIn (d.getD (.record [])) := by
  refine ⟨ofData_data, fun k d b h => ?_, fun k d b => ofData_eq_ok⟩
  obtain rfl : b.kind = k := kind_eq_of_ofData h
  exact ⟨rfl, ofData_data b⟩

/-- One half. -/
def half : Json := .double ⟨false, 2 ^ 52, -53⟩

/-- A list is turned into a record, and a null and a member that nobody knows are not there any
more. -/
theorem normal_in_one_pass_half :
    let list : Json := .list [.text "doc", half]
    let loose : Json := .record [("message", .null), ("success", .flag true), ("weight", half)]
    ofData .publish (some list) = .ok (.publish "doc" half) ∧
      ofData .publish (some (.record [("channel", .text "doc"), ("data", half)])) =
        .ok (.publish "doc" half) ∧
      ofData .authResult (some loose) = .ok (.authResult ⟨true, none, none, none⟩) ∧
      ofData .authResult (some (.record [("success", .flag true)])) =
        .ok (.authResult ⟨true, none, none, none⟩) := by
  intro list loose
  have hlist : ofData .publish (some list) = .ok (.publish "doc" half) := rfl
  have hloose : ofData .authResult (some loose) = .ok (.authResult ⟨true, none, none, none⟩) := rfl
  obtain ⟨-, hagain, -⟩ := normal_in_one_pass
  exact ⟨hlist, (hagain _ _ _ hlist).2, hloose, (hagain _ _ _ hloose).2⟩

end Body

end Switchboard
