/-
Switchboard/Proofs/Envelope/Parts.lean

The six parts of an envelope, and what is read of them.

The parts have values of different types but are treated alike: each is read
by a reader of its own, which does not see blanks, and may come once
(`Draft.step_name`).  A member of another name is passed over, whatever it is.
So of the members of a text only the values under each part's name count, and
a draft is read just when each part has one value or none, which the draft
then holds (`foldlM_take_iff`).

Main statement: `toOption_ofBytes`, what a text of these members is read as.
-/
import Mathlib.Logic.Function.Basic
import Mathlib.Data.List.Forall2
import Switchboard.Envelope.Reader
import Switchboard.Proofs.Json.Passing

namespace Switchboard.Envelope

open Json

/-! ### Parts -/

/-- The members that an envelope knows. -/
inductive Part where
  | id
  | kind
  | time
  | data
  | requestId
  | error
deriving DecidableEq

/-- The name of a part in the text. -/
def Part.name : Part → String
  | .id => "id"
  | .kind => "type"
  | .time => "timestamp"
  | .data => "data"
  | .requestId => "requestId"
  | .error => "error"

/-- What a part is read as. -/
abbrev Part.Value : Part → Type
  | .id | .requestId | .error => Option String
  | .kind => Kind
  | .time => Instant
  | .data => Option Json

/-- The reader of a part. -/
def Part.read : (p : Part) → Bytes → Except Problem (p.Value × Bytes)
  | .id | .requestId | .error => optional string
  | .kind => kindValue
  | .time => instant
  | .data => dataValue

/-- The part of that name. -/
def Part.ofName? (name : String) : Option Part :=
  [Part.id, .kind, .time, .data, .requestId, .error].find? (·.name == name)

theorem Part.ofName?_name (p : Part) : ofName? p.name = some p := by
  cases p <;> rfl

/-- A part is found under its own name only. -/
theorem Part.name_of_ofName? {name : String} {p : Part} (h : ofName? name = some p) :
    p.name = name := by
  simpa using List.find?_some h

/-- A name that is none of a part is that of no part. -/
theorem Part.ne_of_ofName?_eq_none {name : String} (h : ofName? name = none) (p : Part) :
    name ≠ p.name := by
  rintro rfl
  rw [ofName?_name] at h
  cases h

theorem Part.name_injective {p q : Part} (h : p.name = q.name) : p = q := by
  have hsome := ofName?_name p
  rw [h, ofName?_name] at hsome
  exact (Option.some.inj hsome).symm

/-- A token that names a part names no other. -/
theorem Part.text?_ne {token : Bytes} {p q : Part} (h : text? token = some p.name) (hne : q ≠ p) :
    text? token ≠ some q.name := by
  rw [h]
  exact fun heq => hne (name_injective (Option.some.inj heq)).symm

/-- What a draft has of a part. -/
def Draft.part (d : Draft) : (p : Part) → Option p.Value
  | .id => d.id
  | .kind => d.kind
  | .time => d.time
  | .data => d.data
  | .requestId => d.requestId
  | .error => d.error

/-- The draft with other parts. -/
def Draft.ofParts (parts : (p : Part) → Option p.Value) : Draft where
  id := parts .id
  kind := parts .kind
  time := parts .time
  data := parts .data
  requestId := parts .requestId
  error := parts .error

variable {d d' : Draft} {p : Part} {ts more : List Bytes} {token bs : Bytes} {ms : List Member}

/-- A draft is given by its parts. -/
@[simp] theorem Draft.part_ofParts (parts : (p : Part) → Option p.Value) :
    (ofParts parts).part = parts := by
  funext p
  cases p <;> rfl

theorem Draft.part_injective (h : d.part = d'.part) : d = d' := by
  have hof : ∀ d : Draft, ofParts d.part = d := fun _ => rfl
  rw [← hof d, h, hof]

/-- The draft with a value for a part. -/
def Draft.put (d : Draft) (p : Part) (a : p.Value) : Draft :=
  ofParts (Function.update d.part p (some a))

/-- A member of a part's name is taken in if none has come before. -/
theorem Draft.step_name (d : Draft) (p : Part) (bs : Bytes) :
    Draft.step d p.name bs = once p.name (d.part p) p.read (d.put p) bs := by
  cases p <;> rfl

/-- A member of another name is passed over. -/
theorem Draft.step_other {name : String} (h : Part.ofName? name = none) (d : Draft) (bs : Bytes) :
    Draft.step d name bs = (do .ok (d, ← skipValue (← readColon bs))) := by
  have hne : ∀ p : Part, ¬ name = p.name := Part.ne_of_ofName?_eq_none h
  have hid : ¬ name = "id" := hne .id
  have hkind : ¬ name = "type" := hne .kind
  have htime : ¬ name = "timestamp" := hne .time
  have hdata : ¬ name = "data" := hne .data
  have hrequest : ¬ name = "requestId" := hne .requestId
  have herror : ¬ name = "error" := hne .error
  rw [Draft.step, if_neg hid, if_neg hkind, if_neg htime, if_neg hdata, if_neg hrequest,
    if_neg herror]

/-! ### Their readers -/

/-- What a token that is a value by itself begins with: it is null, or a string, or neither. -/
theorem cases_scalar (h : IsScalar token) : token = nullWord ∨ IsText token ∨
    ∃ b t, token = b :: t ∧ Starts b ∧ b ≠ 110 ∧ b ≠ quote ∧ b ≠ openRecord := by
  cases h with
  | null => exact .inl rfl
  | yes => exact .inr (.inr ⟨116, rue, rfl, by decide⟩)
  | no => exact .inr (.inr ⟨102, alse, rfl, by decide⟩)
  | number h =>
    obtain ⟨b, t, rfl, hb | rfl⟩ := h.starts
    · exact .inr (.inr ⟨b, t, rfl, starts_of_isDigit hb, ne_of_isDigit hb rfl,
        ne_of_isDigit hb rfl, ne_of_isDigit hb rfl⟩)
    · exact .inr (.inr ⟨minus, t, rfl, by decide⟩)
  | text h => exact .inr (.inl h)

/-- The same of any value. -/
theorem cases_value (h : IsValue ts) : ts = [nullWord] ∨ (∃ token, IsText token ∧ ts = [token]) ∨
    ∃ b t ts', ts = (b :: t) :: ts' ∧ Starts b ∧ b ≠ 110 ∧ b ≠ quote := by
  cases h with
  | scalar h =>
    rcases cases_scalar h with rfl | htext | ⟨b, t, rfl, hb, hn, hq, -⟩
    · exact .inl rfl
    · exact .inr (.inl ⟨_, htext, rfl⟩)
    · exact .inr (.inr ⟨b, t, [], rfl, hb, hn, hq⟩)
  | list _ => exact .inr (.inr ⟨openList, [], _, rfl, by decide⟩)
  | record _ _ => exact .inr (.inr ⟨openRecord, [], _, rfl, by decide⟩)

/-- A value is null, or else does not begin as the word does. -/
theorem eq_nullWord_or_ne (h : IsValue ts) : ts = [nullWord] ∨
    ∃ b t ts', ts = (b :: t) :: ts' ∧ Starts b ∧ b ≠ 110 := by
  rcases cases_value h with rfl | ⟨token, ⟨body, -, rfl⟩, rfl⟩ | ⟨b, t, ts', rfl, hb, hn, -⟩
  · exact .inl rfl
  · exact .inr ⟨quote, _, [], rfl, by decide⟩
  · exact .inr ⟨b, t, ts', rfl, hb, hn⟩

section Readers

variable {α : Type} {want : Wanted} {make : String → Except Mismatch α}
  {read : Bytes → Except Problem (α × Bytes)} {r : Option α}

/-- What is made from a text depends on the text alone. -/
theorem stringWith_quote {body rest : Bytes}
    (hread : (readText (body ++ rest)).toOption = (text? token).map (·, rest)) :
    (stringWith want make (quote :: (body ++ rest))).toOption =
      ((text? token).bind fun s => (make s).toOption).map (·, rest) := by
  rw [stringWith, skipSpace_cons rfl]
  simp only [if_true]
  rw [toOption_bind, hread]
  cases text? token with
  | none => rfl
  | some s =>
    simp only [Option.map_some, Option.bind_some]
    cases make s <;> rfl

/-- A reader that looks for a string behind the blanks. -/
theorem readsAs_stringWith (want : Wanted) (make : String → Except Mismatch α) (h : IsText token)
    (hread : ∀ bs after, skipSpace bs = quote :: after →
      read bs = stringWith want make (quote :: after)) :
    ReadsAs read [token] ((text? token).bind fun s => (make s).toOption) := by
  obtain ⟨body, rfl, hbody⟩ := h.readText
  intro more bs _ hs
  obtain ⟨rest, hskip, hrest⟩ := Spaced.skipSpace_cons hs rfl
  exact ⟨rest, hrest, by rw [hread bs _ hskip, stringWith_quote (hbody rest)]⟩

theorem readsAs_stringWith_none {b : UInt8} {t : Bytes} (hb : Starts b) (hq : b ≠ quote) :
    ReadsAs (stringWith want make) ((b :: t) :: ts) none := by
  refine readsAs_none fun more bs _ hs => ?_
  obtain ⟨rest, hskip, -⟩ := Spaced.skipSpace_cons hs hb.1
  rw [stringWith, hskip]
  simp only [if_neg hq]
  rfl

/-- Whatever the value is, there is one answer to it. -/
theorem exists_readsAs_stringWith (h : IsValue ts) :
    ∃ r, ReadsAs (stringWith want make) ts r := by
  rcases cases_value h with rfl | ⟨token, htext, rfl⟩ | ⟨b, t, ts', rfl, hb, -, hq⟩
  · exact ⟨none, readsAs_stringWith_none (by decide) (by decide)⟩
  · refine ⟨_, readsAs_stringWith want make htext fun bs after hskip => ?_⟩
    rw [stringWith, hskip, stringWith, skipSpace_cons rfl]
  · exact ⟨none, readsAs_stringWith_none hb hq⟩

/-- A null is read as a value that is not there. -/
theorem readsAs_optional_nullWord : ReadsAs (optional read) [nullWord] (some none) := by
  intro more bs _ hs
  obtain ⟨rest, hskip, hrest⟩ := hs.skipSpace_cons rfl
  refine ⟨rest, hrest, ?_⟩
  rw [optional, hskip]
  rfl

/-- What is no null is read as a value that is there. -/
theorem readsAs_optional {b : UInt8} {t : Bytes} (hb : Starts b) (hne : b ≠ 110)
    (h : ReadsAs read ((b :: t) :: ts) r) :
    ReadsAs (optional read) ((b :: t) :: ts) (r.map some) := by
  intro more bs hends hs
  obtain ⟨rest, hrest, hread⟩ := h more bs hends hs
  refine ⟨rest, hrest, ?_⟩
  obtain ⟨after, hskip, -⟩ := Spaced.skipSpace_cons hs hb.1
  rw [optional, hskip]
  split
  · rename_i heq
    exact absurd (List.cons.inj heq).1 hne
  · rw [toOption_bind, hread]
    cases r <;> rfl

theorem exists_readsAs_optional (h : IsValue ts) (hread : ∃ r, ReadsAs read ts r) :
    ∃ r, ReadsAs (optional read) ts r := by
  obtain ⟨r, hr⟩ := hread
  rcases eq_nullWord_or_ne h with rfl | ⟨b, t, ts', rfl, hb, hne⟩
  · exact ⟨_, readsAs_optional_nullWord⟩
  · exact ⟨_, readsAs_optional hb hne hr⟩

/-- Only a null is read as a value that is not there. -/
theorem eq_nullWord_of_readAs (h : IsValue ts) (hread : ∃ r, ReadsAs read ts r)
    (hnone : readAs (optional read) ts = some none) : ts = [nullWord] := by
  obtain ⟨r, hr⟩ := hread
  rcases eq_nullWord_or_ne h with rfl | ⟨b, t, ts', rfl, hb, hne⟩
  · rfl
  · rw [(readsAs_optional hb hne hr).eq_readAs] at hnone
    cases r <;> cases hnone

end Readers

/-- The null of a record with one member is passed over. -/
theorem unit_nullWord (hs : Spaced (nullWord :: more) bs) :
    ∃ rest, Spaced more rest ∧ unit bs = .ok rest := by
  obtain ⟨rest, hskip, hrest⟩ := hs.skipSpace_cons rfl
  refine ⟨rest, hrest, ?_⟩
  rw [unit, hskip]
  rfl

/-- Nothing else is accepted in its place. -/
theorem unit_other {b : UInt8} {t : Bytes} (hb : Starts b) (hne : b ≠ 110)
    (hs : Spaced ((b :: t) :: more) bs) : (unit bs).toOption = none := by
  obtain ⟨rest, hskip, -⟩ := hs.skipSpace_cons hb.1
  rw [unit, hskip]
  simp only [if_neg hne]
  rfl

/-- A kind is a text or a record. -/
theorem readsAs_kindValue_none {b : UInt8} {t : Bytes} (hb : Starts b) (hq : b ≠ quote)
    (hr : b ≠ openRecord) : ReadsAs kindValue ((b :: t) :: ts) none := by
  refine readsAs_none fun more bs _ hs => ?_
  obtain ⟨rest, hskip, -⟩ := Spaced.skipSpace_cons hs hb.1
  rw [kindValue, hskip]
  simp only [if_neg hq, if_neg hr]
  rfl

/-- The null behind the name of a kind, and the closing brace. -/
def closeKind (k : Kind) (bs : Bytes) : Except Problem (Kind × Bytes) := do
  let rest ← unit bs
  match skipSpace rest with
  | [] => .error (here .endInRecord [])
  | c :: after =>
    if c = closeRecord then .ok (k, after) else .error (here .expectedValue (c :: after))

/-- A record is read by its name, its colon and its null. -/
theorem kindValue_record (hs : Spaced ([openRecord] :: ts) bs) : ∃ bs', Spaced ts bs' ∧
    kindValue bs = kindName bs' >>= fun r => readColon r.2 >>= closeKind r.1 := by
  obtain ⟨bs', hskip, hbs'⟩ := hs.skipSpace_cons rfl
  refine ⟨bs', hbs', ?_⟩
  rw [kindValue, hskip]
  rfl

theorem closeKind_null (hs : Spaced (nullWord :: [closeRecord] :: more) bs) :
    ∃ rest, Spaced more rest ∧ ∀ k, closeKind k bs = .ok (k, rest) := by
  obtain ⟨bs₁, hbs₁, hunit⟩ := unit_nullWord hs
  obtain ⟨rest, hskip, hrest⟩ := hbs₁.skipSpace_cons rfl
  refine ⟨rest, hrest, fun k => ?_⟩
  rw [closeKind, hunit]
  simp only [bind, Except.bind, hskip, if_true, List.nil_append]

/-- With another value or another member there is no kind. -/
theorem closeKind_other (k : Kind) (h : IsValue ts) (hother : ts ≠ [nullWord] ∨ ms ≠ [])
    (hs : Spaced (ts ++ (further (ms.map memberTokens) ++ more)) bs) :
    (closeKind k bs).toOption = none := by
  rcases eq_nullWord_or_ne h with rfl | ⟨b, t, ts', rfl, hb, hne⟩
  · obtain ⟨m, ms, rfl⟩ := List.exists_cons_of_ne_nil (hother.resolve_left fun h => h rfl)
    obtain ⟨bs₁, hbs₁, hunit⟩ := unit_nullWord hs
    obtain ⟨rest, hskip, -⟩ := Spaced.skipSpace_cons hbs₁ rfl
    rw [closeKind, hunit]
    simp only [bind, Except.bind, hskip]
    rfl
  · rw [closeKind, toOption_bind, unit_other hb hne hs]
    rfl

/-- The name in it is read as the kind that it names. -/
theorem kindName_spaced (h : IsText token) (hs : Spaced (token :: ts) bs) : ∃ rest, Spaced ts rest ∧
    (kindName bs).toOption =
      ((text? token).bind fun s => (kindOfText s).toOption).map (·, rest) := by
  obtain ⟨body, rfl, hbody⟩ := h.readText
  obtain ⟨rest, hskip, hrest⟩ := hs.skipSpace_cons rfl
  refine ⟨rest, hrest, ?_⟩
  rw [kindName, hskip]
  simp only [if_true]
  exact stringWith_quote (hbody rest)

/-- A record is a kind if it has one member, whose name is the kind's word and whose value is
null. -/
theorem exists_readsAs_kindValue_record (hname : ∀ m ∈ ms, IsText m.1)
    (hvalue : ∀ m ∈ ms, IsValue m.2) : ∃ r, ReadsAs kindValue (recordTokens ms) r := by
  cases ms with
  | nil =>
    refine ⟨none, readsAs_none fun more bs _ hs => ?_⟩
    obtain ⟨bs₁, hbs₁, hstep⟩ := kindValue_record hs
    obtain ⟨rest, hskip, -⟩ := Spaced.skipSpace_cons hbs₁ rfl
    rw [hstep, kindName, hskip]
    rfl
  | cons m ms =>
    -- behind the word and its colon there are the member's value and the other members
    have hbehind : ∀ more bs, Spaced (recordTokens (m :: ms) ++ more) bs → ∃ rest,
        Spaced (m.2 ++ (further (ms.map memberTokens) ++ [closeRecord] :: more)) rest ∧
        (kindValue bs).toOption = ((text? m.1).bind fun s => (kindOfText s).toOption).bind
          fun k => (closeKind k rest).toOption := by
      intro more bs hs
      have htokens : recordTokens (m :: ms) ++ more = [openRecord] :: m.1 ::
          (([colon] :: m.2) ++ (further (ms.map memberTokens) ++ [closeRecord] :: more)) := by
        simp [recordTokens, separated, memberTokens]
      rw [htokens] at hs
      obtain ⟨bs₁, hbs₁, hstep⟩ := kindValue_record hs
      obtain ⟨bs₂, hbs₂, hname⟩ := kindName_spaced (hname m List.mem_cons_self) hbs₁
      obtain ⟨rest, hcolon, hrest⟩ := readColon_spaced hbs₂
      refine ⟨rest, hrest, ?_⟩
      rw [hstep, toOption_bind, hname, Option.bind_map]
      congr 1
      funext k
      simp only [Function.comp_apply, hcolon]
      rfl
    by_cases hother : m.2 ≠ [nullWord] ∨ ms ≠ []
    · refine ⟨none, readsAs_none fun more bs _ hs => ?_⟩
      obtain ⟨rest, hrest, hread⟩ := hbehind more bs hs
      rw [hread, Option.bind_eq_none_iff]
      exact fun k _ => closeKind_other k (hvalue m List.mem_cons_self) hother hrest
    · obtain ⟨hnull, rfl⟩ := not_or.1 hother |>.imp not_not.1 not_not.1
      refine ⟨(text? m.1).bind fun s => (kindOfText s).toOption, fun more bs _ hs => ?_⟩
      obtain ⟨bs₁, hbs₁, hread⟩ := hbehind more bs hs
      rw [hnull] at hbs₁
      obtain ⟨rest, hrest, hclose⟩ := closeKind_null hbs₁
      refine ⟨rest, hrest, ?_⟩
      simp only [hread, hclose]
      cases (text? m.1).bind fun s => (kindOfText s).toOption <;> rfl

/-- Whatever the value is, there is one answer to it. -/
theorem exists_readsAs_kindValue (h : IsValue ts) : ∃ r, ReadsAs kindValue ts r := by
  cases h with
  | scalar h =>
    rcases cases_scalar h with rfl | htext | ⟨b, t, rfl, hb, -, hq, hr⟩
    · exact ⟨none, readsAs_kindValue_none (by decide) (by decide) (by decide)⟩
    · refine ⟨_, readsAs_stringWith .choiceName kindOfText htext fun bs after hskip => ?_⟩
      rw [kindValue, hskip]
      rfl
    · exact ⟨none, readsAs_kindValue_none hb hq hr⟩
  | list _ => exact ⟨none, readsAs_kindValue_none (by decide) (by decide) (by decide)⟩
  | record hname hvalue => exact exists_readsAs_kindValue_record hname hvalue

/-- **The readers of the parts do not see blanks.** -/
theorem exists_readsAs_part (h : IsValue ts) (p : Part) : ∃ r, ReadsAs p.read ts r := by
  cases p with
  | id | requestId | error =>
    have hstring : ∃ r, ReadsAs string ts r := exists_readsAs_stringWith h
    exact exists_readsAs_optional h hstring
  | kind => exact exists_readsAs_kindValue h
  | time => exact exists_readsAs_stringWith h
  | data => exact exists_readsAs_optional h ⟨_, h.readsAs (depthLimit - 1)⟩

/-! ### Taking in members -/

/-- A member of that name taken in, with its value as it is read. -/
def Draft.take (d : Draft) (name : String) (ts : List Bytes) : Option Draft :=
  match Part.ofName? name with
  | some p => if (d.part p).isNone then (readAs p.read ts).map (d.put p) else none
  | none => some d

/-- A member of another name is passed over. -/
theorem Draft.take_other {name : String} (h : Part.ofName? name = none) (d : Draft)
    (ts : List Bytes) : d.take name ts = some d := by
  rw [take, h]

/-- A member that is there already is refused. -/
theorem Draft.take_again {a : p.Value} (h : d.part p = some a) (ts : List Bytes) :
    d.take p.name ts = none := by
  simp [take, Part.ofName?_name, h]

/-- A new one is read and put into its part. -/
theorem Draft.take_once (h : d.part p = none) (ts : List Bytes) :
    d.take p.name ts = (readAs p.read ts).map (d.put p) := by
  simp [take, Part.ofName?_name, h]

/-- **One member** is taken in as its name and its value say. -/
theorem readsAs_step (h : IsValue ts) (d : Draft) (name : String) :
    ReadsAs (Draft.step d name) ([colon] :: ts) (d.take name ts) := by
  intro more bs hends hs
  obtain ⟨bs₁, hcolon, hbs₁⟩ := readColon_spaced hs
  cases hp : Part.ofName? name with
  | none =>
    obtain ⟨rest, hrest, hskip⟩ := skipValue_spaced h hends hbs₁
    refine ⟨rest, hrest, ?_⟩
    rw [Draft.step_other hp, Draft.take_other hp, hcolon]
    simp only [bind, Except.bind, hskip]
    rfl
  | some p =>
    obtain ⟨r, hr⟩ := exists_readsAs_part h p
    obtain ⟨rest, hrest, hread⟩ := hr.readAs more bs₁ hends hbs₁
    refine ⟨rest, hrest, ?_⟩
    rw [← Part.name_of_ofName? hp, Draft.step_name]
    cases hpart : d.part p with
    | some a =>
      rw [Draft.take_again hpart]
      rfl
    | none =>
      have hstep : once p.name none p.read (d.put p) bs =
          p.read bs₁ >>= fun r => .ok (d.put p r.1, r.2) := by
        rw [once, hcolon]
        rfl
      rw [Draft.take_once hpart, hstep, toOption_bind, hread]
      cases readAs p.read ts <;> rfl

/-- What the members of a text come to, if they are an envelope. -/
def draft? (ms : List Member) : Option Draft := ms.foldlM (takeIn Draft.take) Draft.empty

/-- **All members** are, whatever blanks stand between them. -/
theorem readDraft_spaced (h : ∀ m ∈ ms, IsMember m) (hs : Spaced (recordTokens ms) bs) :
    ∃ rest, Spaced [] rest ∧ (readDraft bs).toOption =
      (draft? ms).bind fun d => d.kind.map fun k => ((k, d), rest) := by
  rw [← List.append_nil (recordTokens ms), recordTokens_append] at hs
  obtain ⟨bs₁, hskip, hbs₁⟩ := hs.skipSpace_cons rfl
  obtain ⟨rest, hrest, hfold⟩ := foldMembers_spaced (fun m hm => (h m hm).1)
    (fun m hm d name => readsAs_step (h m hm).2 d name) Draft.empty hbs₁
  refine ⟨rest, hrest, ?_⟩
  rw [readDraft, hskip]
  simp only [if_true, List.nil_append]
  rw [toOption_bind, hfold, Option.bind_map]
  congr 1
  funext d
  simp only [Function.comp_apply]
  cases d.kind <;> rfl

theorem toOption_readWith {α : Type} (read : Bytes → Except Problem (α × Bytes)) (bs : Bytes) :
    (readWith read bs).toOption =
      (read bs).toOption.bind fun r => (readEnd r.2).toOption.map fun _ => r.1 := by
  rw [readWith]
  cases read bs with
  | error p => rfl
  | ok r =>
    obtain ⟨a, rest⟩ := r
    simp only [bind, Except.bind, Except.toOption, Option.bind_some]
    cases readEnd rest <;> rfl

/-- **What a text of these members is read as.** -/
theorem toOption_ofBytes (h : ∀ m ∈ ms, IsMember m) (hs : Spaced (recordTokens ms) bs)
    (stamp : Stamp) : (ofBytes stamp bs).toOption =
      (draft? ms).bind fun d => d.kind.bind fun k =>
        (Body.ofData k d.data.join).toOption.map (ofDraft stamp d) := by
  obtain ⟨rest, hrest, hread⟩ := readDraft_spaced h hs
  have hend : readEnd rest = .ok () := by rw [readEnd, hrest.skipSpace_nil]
  have hdraft : (readWith readDraft bs).toOption =
      (draft? ms).bind fun d => d.kind.map fun k => (k, d) := by
    rw [toOption_readWith, hread]
    cases draft? ms with
    | none => rfl
    | some d =>
      simp only [Option.bind_some]
      cases d.kind with
      | none => rfl
      | some k => simp only [Option.map_some, Option.bind_some, hend, Except.toOption]
  rw [ofBytes, toOption_bind, hdraft]
  cases draft? ms with
  | none => rfl
  | some d =>
    simp only [Option.bind_some]
    cases d.kind with
    | none => rfl
    | some k =>
      simp only [Option.map_some, Option.bind_some]
      cases Body.ofData k d.data.join <;> rfl

/-! ### Which members come to which draft -/

/-- The values of the members of that name. -/
def named (name : String) (ms : List Member) : List (List Bytes) :=
  (ms.filter fun m => text? m.1 = some name).map (·.2)

theorem named_append (name : String) (ms ms' : List Member) :
    named name (ms ++ ms') = named name ms ++ named name ms' := by
  rw [named, List.filter_append, List.map_append]
  rfl

theorem named_cons_self {name : String} {m : Member} (h : text? m.1 = some name)
    (ms : List Member) : named name (m :: ms) = m.2 :: named name ms := by
  rw [named, List.filter_cons_of_pos (by simpa using h)]
  rfl

theorem named_cons_of_ne {name : String} {m : Member} (h : text? m.1 ≠ some name)
    (ms : List Member) : named name (m :: ms) = named name ms := by
  rw [named, List.filter_cons_of_neg (by simpa using h)]
  rfl

/-- The values are read as what the part is to have: one if it has something, none if not. -/
def Part.Holds (p : Part) (values : List (List Bytes)) (old new : Option p.Value) : Prop :=
  ∃ as, List.Forall₂ (fun ts a => readAs p.read ts = some a) values as ∧
    old.toList ++ as = new.toList

/-- Without a value the part stays as it was. -/
theorem Part.holds_nil {old new : Option p.Value} : p.Holds [] old new ↔ old = new := by
  constructor
  · rintro ⟨as, hall, heq⟩
    cases hall
    rw [List.append_nil] at heq
    cases old <;> cases new <;> simp_all
  · rintro rfl
    exact ⟨[], .nil, List.append_nil _⟩

/-- With one it is set, if it has not been set before. -/
theorem Part.holds_cons {values : List (List Bytes)} {old new : Option p.Value} :
    p.Holds (ts :: values) old new ↔
      old = none ∧ ∃ a, readAs p.read ts = some a ∧ p.Holds values (some a) new := by
  constructor
  · rintro ⟨as, hall, heq⟩
    cases hall with
    | @cons _ a _ as ha hall =>
      cases old with
      | none => exact ⟨rfl, a, ha, as, hall, heq⟩
      | some b =>
        -- there is no room for two
        cases new <;> cases heq
  · rintro ⟨rfl, a, ha, as, hall, heq⟩
    exact ⟨a :: as, .cons ha hall, heq⟩

theorem Draft.part_put (d : Draft) (p : Part) (a : p.Value) :
    (d.put p a).part = Function.update d.part p (some a) :=
  part_ofParts _

/-- **A draft has what the members have under the names of the parts**: for each part one value, or
none. -/
theorem foldlM_take_iff : ms.foldlM (takeIn Draft.take) d = some d' ↔
    (∀ m ∈ ms, (text? m.1).isSome) ∧
      ∀ p : Part, p.Holds (named p.name ms) (d.part p) (d'.part p) := by
  induction ms generalizing d with
  | nil =>
    have hall : (∀ p : Part, p.Holds [] (d.part p) (d'.part p)) ↔ d = d' := by
      simp only [Part.holds_nil]
      exact ⟨fun h => Draft.part_injective (funext h), fun h p => h ▸ rfl⟩
    simpa [named, pure] using hall.symm
  | cons m ms ih =>
    rw [List.foldlM_cons, takeIn, List.forall_mem_cons]
    cases hm : text? m.1 with
    | none => simp
    | some name =>
      simp only [Option.bind_some, Option.isSome_some, true_and]
      cases hp : Part.ofName? name with
      | none =>
        -- no part has that name
        have hnamed : ∀ p : Part, named p.name (m :: ms) = named p.name ms := fun p =>
          named_cons_of_ne (by simpa [hm] using Part.ne_of_ofName?_eq_none hp p) ms
        simp only [Draft.take_other hp, hnamed]
        exact ih
      | some p₀ =>
        obtain rfl := Part.name_of_ofName? hp
        have hself := named_cons_self hm ms
        cases hd : d.part p₀ with
        | some a =>
          rw [Draft.take_again hd]
          refine iff_of_false (by simp) fun h => ?_
          have hholds := h.2 p₀
          rw [hself, hd, Part.holds_cons] at hholds
          cases hholds.1
        | none =>
          rw [Draft.take_once hd]
          cases hr : readAs p₀.read m.2 with
          | none =>
            refine iff_of_false (by simp) fun h => ?_
            have hholds := h.2 p₀
            rw [hself, Part.holds_cons, hr] at hholds
            obtain ⟨-, a, ha, -⟩ := hholds
            cases ha
          | some a =>
            refine (ih (d := d.put p₀ a)).trans (and_congr_right fun _ => forall_congr' fun p => ?_)
            rw [Draft.part_put]
            by_cases h : p = p₀
            · subst h
              rw [Function.update_self, hself, Part.holds_cons, hr, hd]
              simp
            · rw [Function.update_of_ne h, named_cons_of_ne (Part.text?_ne hm h)]

end Switchboard.Envelope
