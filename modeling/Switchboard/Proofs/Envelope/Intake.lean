/-
Switchboard/Proofs/Envelope/Intake.lean

What a message is made of.

A frame is read in two steps, into a draft and from the draft into a message.
Whichever way it is written, as a record or as a list, the data in a draft is
formed at the depth that the envelope leaves, and what a client publishes is
formed one level below it (`Draft.Formed.published`).  That is as deep as the
data of a notification may be.
-/
import Switchboard.Proofs.Envelope.RoundTrip
import Switchboard.Proofs.Json.Formed

namespace Switchboard

open Json

/-! ### Bodies -/

variable {kind : Kind} {data : Option Json} {body : Body}

/-- The data of a body to be published, as a record: the member of that name, or null. -/
theorem Shape.publish_ofMembers {ms : Members} {channel : String} {v : Json}
    (h : Shape.publish.ofMembers ms = .ok (channel, v)) : v = (ms.find? "data").getD .null := by
  obtain ⟨channel?, -, h⟩ := bind_eq_ok h
  obtain ⟨_, -, h⟩ := bind_eq_ok h
  cases h
  rfl

/-- As a list: the second item, or null. -/
theorem Shape.publish_ofItems {items left : List Json} {channel : String} {v : Json}
    (h : Shape.publish.ofItems items = .ok ((channel, v), left)) : v = items[1]?.getD .null := by
  obtain ⟨⟨channel', items'⟩, hfirst, h⟩ := bind_eq_ok h
  obtain ⟨⟨v', left'⟩, hsecond, h⟩ := bind_eq_ok h
  cases h
  cases items with
  | nil => cases hfirst
  | cons first items =>
    obtain ⟨_, -, hfirst⟩ := bind_eq_ok hfirst
    cases hfirst
    cases items' with
    | nil =>
      cases hsecond
      rfl
    | cons second items =>
      cases hsecond
      rfl

/-- What a client publishes lies one level down in what it has sent as data. -/
theorem Shape.publish_read_cases {w : Json} {channel : String} {v : Json}
    (h : Shape.publish.read w = .ok (channel, v)) :
    (∃ ms : Members, w = .record ms ∧ v = (ms.find? "data").getD .null) ∨
      ∃ items, w = .list items ∧ v = items[1]?.getD .null := by
  cases w with
  | record ms => exact .inl ⟨ms, rfl, publish_ofMembers h⟩
  | list items =>
    obtain ⟨⟨⟨channel', v'⟩, left⟩, hitems, h⟩ := bind_eq_ok h
    simp only at h
    split at h
    · cases h
      exact .inr ⟨items, rfl, publish_ofItems hitems⟩
    · cases h
  | null | flag _ | integer _ | double _ | text _ => cases h

/-- A body is of the kind that it is read as. -/
theorem Body.kind_eq_of_ofData (h : Body.ofData kind data = .ok body) : body.kind = kind := by
  cases kind with
  | ping =>
    cases h
    rfl
  | _ =>
    obtain ⟨_, -, rfl⟩ := map_eq_ok h
    rfl

theorem Body.ofData_eq_publish {channel : String} {v : Json}
    (h : Body.ofData kind data = .ok (.publish channel v)) :
    Shape.publish.read (data.getD (.record [])) = .ok (channel, v) := by
  obtain rfl : Kind.publish = kind := Body.kind_eq_of_ofData h
  obtain ⟨⟨channel', v'⟩, hread, he⟩ := map_eq_ok h
  cases he
  exact hread

namespace Envelope

variable {k : Kind} {d d' : Draft} {bs rest : Bytes}

/-- The data read so far is formed, at the depth that the envelope leaves. -/
def Draft.Formed (d : Draft) : Prop := ∀ v, d.data = some (some v) → v.Formed 126

theorem optional_eq_some {α : Type} {read : Bytes → Except Problem (α × Bytes)} {a : α}
    (h : optional read bs = .ok (some a, rest)) : read bs = .ok (a, rest) := by
  rw [optional] at h
  split at h
  · obtain ⟨_, -, h⟩ := bind_eq_ok h
    cases h
  · obtain ⟨⟨a', rest'⟩, hread, h⟩ := bind_eq_ok h
    cases h
    exact hread

theorem formed_dataValue {v : Json} (h : dataValue bs = .ok (some v, rest)) : v.Formed 126 :=
  formed_readValue (optional_eq_some h)

theorem once_eq_ok {α : Type} {name : String} {old : Option α}
    {read : Bytes → Except Problem (α × Bytes)} {put : α → Draft}
    (h : once name old read put bs = .ok (d, rest)) :
    ∃ a bs' rest', read bs' = .ok (a, rest') ∧ d = put a := by
  cases old with
  | some _ => cases h
  | none =>
    obtain ⟨bs₁, -, h⟩ := bind_eq_ok h
    obtain ⟨⟨a, rest'⟩, hread, h⟩ := bind_eq_ok h
    cases h
    exact ⟨a, bs₁, rest, hread, rfl⟩

theorem Draft.Formed.step {name : String} (hd : d.Formed)
    (h : Draft.step d name bs = .ok (d', rest)) : d'.Formed := by
  have hother : ∀ {α : Type} {old : Option α} {read : Bytes → Except Problem (α × Bytes)}
      {put : α → Draft}, once name old read put bs = .ok (d', rest) →
      (∀ a, (put a).data = d.data) → d'.Formed := by
    intro α old read put h hput
    obtain ⟨a, -, -, -, rfl⟩ := once_eq_ok h
    intro v hv
    exact hd v ((hput a).symm.trans hv)
  rw [Draft.step] at h
  split_ifs at h
  · exact hother h fun _ => rfl
  · exact hother h fun _ => rfl
  · exact hother h fun _ => rfl
  · -- this is the data
    obtain ⟨a, _, _, ha, rfl⟩ := once_eq_ok h
    intro v hv
    cases hv
    exact formed_dataValue ha
  · exact hother h fun _ => rfl
  · exact hother h fun _ => rfl
  · -- a member of another name is passed over
    obtain ⟨_, -, h⟩ := bind_eq_ok h
    obtain ⟨_, -, h⟩ := bind_eq_ok h
    cases h
    exact hd

theorem formed_draftOfList (h : draftOfList bs = .ok (d, rest)) : d.Formed := by
  obtain ⟨⟨id, bs₁⟩, -, h⟩ := bind_eq_ok h
  obtain ⟨⟨kind, bs₂⟩, -, h⟩ := bind_eq_ok h
  cases kind with
  | none => cases h
  | some kind =>
    obtain ⟨⟨time, bs₃⟩, -, h⟩ := bind_eq_ok h
    obtain ⟨⟨data, bs₄⟩, hdata, h⟩ := bind_eq_ok h
    obtain ⟨⟨requestId, bs₅⟩, -, h⟩ := bind_eq_ok h
    obtain ⟨⟨error, bs₆⟩, -, h⟩ := bind_eq_ok h
    obtain ⟨bs₇, -, h⟩ := bind_eq_ok h
    cases h
    intro v hv
    obtain rfl : data = some (some v) := hv
    obtain ⟨ahead, -, hdata⟩ := bind_eq_ok hdata
    cases ahead with
    | close _ => cases hdata
    | part bs' =>
      obtain ⟨⟨a, _⟩, ha, hdata⟩ := bind_eq_ok hdata
      cases hdata
      exact formed_dataValue ha

theorem formed_readDraft (h : readDraft bs = .ok ((k, d), rest)) : d.Formed := by
  rw [readDraft] at h
  split at h
  · cases h
  · split_ifs at h
    · obtain ⟨⟨d', rest'⟩, hd, h⟩ := bind_eq_ok h
      simp only at h
      split at h
      · cases h
        exact foldMembers_keeps (fun hstep hd => hd.step hstep) hd fun v hv => by cases hv
      · cases h
    · obtain ⟨⟨d', rest'⟩, hd, h⟩ := bind_eq_ok h
      simp only at h
      split at h
      · cases h
        exact formed_draftOfList hd
      · cases h
    · cases h

theorem readWith_eq_ok {α : Type} {read : Bytes → Except Problem (α × Bytes)} {a : α}
    (h : readWith read bs = .ok a) : ∃ rest, read bs = .ok (a, rest) := by
  rw [readWith] at h
  split at h
  · rename_i a' ha
    cases h
    obtain ⟨⟨a₁, rest⟩, hread, ha⟩ := bind_eq_ok ha
    obtain ⟨_, -, ha⟩ := bind_eq_ok ha
    cases ha
    exact ⟨rest, hread⟩
  · cases h

/-- What a message was made of. -/
theorem ofBytes_eq_ok {stamp : Stamp} {m : Envelope} (h : ofBytes stamp bs = .ok m) :
    ∃ k d, readWith readDraft bs = .ok (k, d) ∧ Body.ofData k d.data.join = .ok m.body ∧
      m = ofDraft stamp d m.body := by
  obtain ⟨⟨k, d⟩, hd, h⟩ := bind_eq_ok h
  refine ⟨k, d, hd, ?_⟩
  simp only at h
  split at h
  · rename_i body hbody
    cases h
    exact ⟨hbody, rfl⟩
  · cases h

/-- What a client publishes is formed, one level below the data that it has sent. -/
theorem Draft.Formed.published {channel : String} {v : Json} (hd : d.Formed)
    (h : Body.ofData k d.data.join = .ok (.publish channel v)) : v.Formed 125 := by
  have hread := Body.ofData_eq_publish h
  rcases hw : d.data.join with - | w
  · -- without data there is no channel
    rw [hw] at hread
    cases hread
  · rw [hw, Option.getD_some] at hread
    have hform : w.Formed 126 := hd w (Option.join_eq_some_iff.1 hw)
    rcases Shape.publish_read_cases hread with ⟨ms, rfl, rfl⟩ | ⟨items, rfl, rfl⟩
    · cases hform with
      | record _ hall =>
        rcases hfind : ms.find? "data" with - | v
        · exact .null
        · obtain ⟨ms₁, ms₂, rfl, -⟩ := List.lookup_eq_some_iff.1 hfind
          exact hall ("data", v) (by simp)
    · cases hform with
      | list hall =>
        rcases hitem : items[1]? with - | v
        · exact .null
        · exact hall v (List.mem_of_getElem? hitem)

end Envelope

end Switchboard
