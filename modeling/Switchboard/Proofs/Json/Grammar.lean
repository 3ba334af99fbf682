/-
Switchboard/Proofs/Json/Grammar.lean

The grammar of JSON texts, told without a reader.

A text is a sequence of tokens with blanks around and between them
(`Spaced`), and `IsValue` says which sequences of tokens are values.  A
string's token is a string as soon as its escapes are complete, whether or not
they write characters; `Spells` says which text it stands for, if it stands
for one.

What the readers share is said here: where a token begins (`Spaced.skipSpace`)
and what may come behind a value (`Ends`).
-/
import Switchboard.Json.Reader
import Switchboard.Proofs.Json.Lexeme
import Switchboard.Proofs.Json.RoundTrip

namespace Switchboard.Json

open Text Utf8

/-! ### Tokens and blanks -/

/-- The bytes are these tokens in their order, with blanks before, between and behind them. -/
inductive Spaced : List Bytes → Bytes → Prop where
  | nil {gap : Bytes} : (∀ b ∈ gap, isSpace b = true) → Spaced [] gap
  | cons {gap token : Bytes} {ts : List Bytes} {bs : Bytes} : (∀ b ∈ gap, isSpace b = true) →
      Spaced ts bs → Spaced (token :: ts) (gap ++ (token ++ bs))

variable {ts more : List Bytes} {token bs rest : Bytes} {b : UInt8}

/-- A token may stand without blanks before it. -/
theorem Spaced.cons_append (h : Spaced ts bs) (token : Bytes) :
    Spaced (token :: ts) (token ++ bs) :=
  @Spaced.cons [] token ts bs (by simp) h

/-- There may be the same blanks before all tokens. -/
theorem spaced_flatMap {gap : Bytes} (hgap : ∀ b ∈ gap, isSpace b = true) (ts : List Bytes) :
    Spaced ts (ts.flatMap (gap ++ ·)) := by
  induction ts with
  | nil => exact .nil (by simp)
  | cons token ts ih =>
    rw [List.flatMap_cons, List.append_assoc]
    exact .cons hgap ih

/-- There may be none. -/
theorem spaced_flatten (ts : List Bytes) : Spaced ts ts.flatten := by
  have h := @spaced_flatMap [] (by simp) ts
  rwa [List.flatMap_def, show ts.map ([] ++ ·) = ts from List.map_id ts] at h

theorem Spaced.length_le (h : Spaced ts bs) : ts.flatten.length ≤ bs.length := by
  induction h with
  | nil _ => exact Nat.zero_le _
  | cons _ _ ih =>
    simp only [List.flatten_cons, List.length_append]
    omega

/-- Behind the last token there are only blanks. -/
theorem Spaced.skipSpace_nil (h : Spaced [] bs) : skipSpace bs = [] := by
  cases h with
  | nil hgap => exact List.dropWhile_eq_nil_iff.2 hgap

/-- A token that begins with no blank comes next behind the blanks. -/
theorem Spaced.skipSpace_cons (h : Spaced ((b :: token) :: ts) bs) (hb : isSpace b = false) :
    ∃ rest, skipSpace bs = b :: (token ++ rest) ∧ Spaced ts rest := by
  cases h with
  | @cons gap _ _ rest hgap hrest =>
    refine ⟨rest, ?_, hrest⟩
    rw [skipSpace, List.dropWhile_append_of_pos hgap, List.cons_append,
      List.dropWhile_cons_of_neg (by simp [hb])]

/-- The bytes behind the blanks are the same tokens. -/
theorem Spaced.skipSpace (h : Spaced ((b :: token) :: ts) bs) (hb : isSpace b = false) :
    Spaced ((b :: token) :: ts) (skipSpace bs) := by
  obtain ⟨rest, hskip, hrest⟩ := h.skipSpace_cons hb
  rw [hskip]
  exact hrest.cons_append (b :: token)

/-- What may come behind a value: nothing, a comma or a closing bracket. -/
def Ends (more : List Bytes) : Prop :=
  ∀ t ∈ more.head?, t = [comma] ∨ t = [closeList] ∨ t = [closeRecord]

theorem ends_nil : Ends [] := by simp [Ends]

theorem ends_comma : Ends ([comma] :: more) := by simp [Ends]

theorem ends_closeList : Ends ([closeList] :: more) := by simp [Ends]

theorem ends_closeRecord : Ends ([closeRecord] :: more) := by simp [Ends]

/-- No number goes on here. -/
def Breaks (rest : Bytes) : Prop :=
  ∀ b ∈ rest.head?, isSpace b = true ∨ b = comma ∨ b = closeList ∨ b = closeRecord

theorem Ends.breaks (h : Ends more) (hs : Spaced more rest) : Breaks rest := by
  intro b hb
  cases hs with
  | nil hgap =>
    exact .inl (hgap b (List.mem_of_mem_head? hb))
  | @cons gap token ts bs hgap _ =>
    cases gap with
    | nil =>
      -- the mark comes next
      rcases h token rfl with rfl | rfl | rfl <;>
      · cases hb
        simp
    | cons b' gap =>
      cases hb
      exact .inl (hgap b List.mem_cons_self)

/-! ### Strings -/

/-- What may stand between the quotes of a string: bytes that stand for themselves and complete
escapes. -/
inductive IsQuoted : Bytes → Prop where
  | nil : IsQuoted []
  | verbatim {b : UInt8} {bs : Bytes} : Verbatim b → IsQuoted bs → IsQuoted (b :: bs)
  | short {b x : UInt8} {bs : Bytes} : shortEscape? b = some x → IsQuoted bs →
      IsQuoted (backslash :: b :: bs)
  | hex {b₁ b₂ b₃ b₄ : UInt8} {n : Nat} {bs : Bytes} : fourHex? [b₁, b₂, b₃, b₄] = some n →
      IsQuoted bs → IsQuoted (backslash :: 117 :: b₁ :: b₂ :: b₃ :: b₄ :: bs)

/-- A string's token. -/
def IsText (token : Bytes) : Prop := ∃ body, IsQuoted body ∧ token = quote :: (body ++ [quote])

/-- The characters that stand between the quotes: each as it is or by an escape, those past the
first plane by an escape for each of their two surrogates. -/
inductive Writes : Bytes → List Char → Prop where
  | nil : Writes [] []
  | plain {c : Char} {bs : Bytes} {cs : List Char} : c ≠ '"' → c ≠ '\\' → ¬ c.toNat < 0x20 →
      Writes bs cs → Writes (encodeChar c ++ bs) (c :: cs)
  | short {b x : UInt8} {bs : Bytes} {cs : List Char} : shortEscape? b = some x → Writes bs cs →
      Writes (backslash :: b :: bs) (Char.ofNat x.toNat :: cs)
  | hex {b₁ b₂ b₃ b₄ : UInt8} {n : Nat} {bs : Bytes} {cs : List Char} :
      fourHex? [b₁, b₂, b₃, b₄] = some n → ¬ (0xD800 ≤ n ∧ n ≤ 0xDFFF) → Writes bs cs →
      Writes (backslash :: 117 :: b₁ :: b₂ :: b₃ :: b₄ :: bs) (Char.ofNat n :: cs)
  | pair {b₁ b₂ b₃ b₄ d₁ d₂ d₃ d₄ : UInt8} {l n : Nat} {bs : Bytes} {cs : List Char} :
      fourHex? [b₁, b₂, b₃, b₄] = some l → 0xD800 ≤ l ∧ l ≤ 0xDBFF →
      fourHex? [d₁, d₂, d₃, d₄] = some n → 0xDC00 ≤ n ∧ n ≤ 0xDFFF → Writes bs cs →
      Writes (backslash :: 117 :: b₁ :: b₂ :: b₃ :: b₄ ::
          backslash :: 117 :: d₁ :: d₂ :: d₃ :: d₄ :: bs)
        (Char.ofNat ((l - 0xD800) * 0x400 + (n - 0xDC00) + 0x10000) :: cs)

/-- The token is a string that stands for this text. -/
def Spells (token : Bytes) (s : String) : Prop :=
  ∃ body, Writes body s.toList ∧ token = quote :: (body ++ [quote])

/-- What stands for a text is a string. -/
theorem Spells.isText {s : String} (h : Spells token s) : IsText token := by
  obtain ⟨body, hwrites, rfl⟩ := h
  refine ⟨body, ?_, rfl⟩
  generalize s.toList = cs at hwrites
  induction hwrites with
  | nil => exact .nil
  | @plain c bs cs hq hb hc _ ih =>
    have happend : ∀ xs : Bytes, (∀ x ∈ xs, Verbatim x) → IsQuoted (xs ++ bs) := by
      intro xs hxs
      induction xs with
      | nil => exact ih
      | cons x xs ihx =>
        obtain ⟨hx, hxs⟩ := List.forall_mem_cons.1 hxs
        exact .verbatim hx (ihx hxs)
    exact happend _ (verbatim_encodeChar hq hb hc)
  | short hb _ ih => exact .short hb ih
  | hex hn _ _ ih => exact .hex hn ih
  | pair hl _ hn _ _ ih => exact .hex hl (.hex hn ih)

/-- The text in quotes, as it is. -/
def verbatimText (s : String) : Bytes := quote :: (Utf8.ofString s ++ [quote])

/-- A text without quotes, backslashes and control characters may be written as it is. -/
theorem spells_verbatimText {s : String}
    (h : ∀ c ∈ s.toList, c ≠ '"' ∧ c ≠ '\\' ∧ ¬ c.toNat < 0x20) : Spells (verbatimText s) s := by
  refine ⟨Utf8.ofString s, ?_, rfl⟩
  rw [Utf8.ofString]
  generalize s.toList = cs at h
  induction cs with
  | nil => exact .nil
  | cons c cs ih =>
    obtain ⟨⟨hq, hb, hc⟩, hcs⟩ := List.forall_mem_cons.1 h
    exact .plain hq hb hc (ih hcs)

/-! ### Numbers -/

/-- One digit or more. -/
def IsDigits (ds : Bytes) : Prop := ds ≠ [] ∧ ∀ b ∈ ds, isDigit b = true

/-- Digits of which the first is a zero only if it stands alone. -/
def IsWhole (ds : Bytes) : Prop := IsDigits ds ∧ (ds.head? = some 48 → ds = [48])

/-- Nothing, or a point and digits. -/
def IsFraction (bs : Bytes) : Prop := bs = [] ∨ ∃ ds, IsDigits ds ∧ bs = 46 :: ds

/-- Nothing, or the letter `e` of either case, perhaps a sign, and digits. -/
def IsExponent (bs : Bytes) : Prop :=
  bs = [] ∨ ∃ e sign ds, (e = 101 ∨ e = 69) ∧ (sign = [] ∨ sign = [43] ∨ sign = [45]) ∧
    IsDigits ds ∧ bs = e :: (sign ++ ds)

/-- A number's token, perhaps with a minus before it. -/
inductive IsNumber : Bytes → Prop where
  | plain {whole fraction exponent : Bytes} : IsWhole whole → IsFraction fraction →
      IsExponent exponent → IsNumber (whole ++ (fraction ++ exponent))
  | negative {whole fraction exponent : Bytes} : IsWhole whole → IsFraction fraction →
      IsExponent exponent → IsNumber (minus :: (whole ++ (fraction ++ exponent)))

/-! ### Values -/

/-- The token of a null. -/
abbrev nullWord : Bytes := 110 :: ull

/-- A token that is a value by itself. -/
inductive IsScalar : Bytes → Prop where
  | null : IsScalar nullWord
  | yes : IsScalar (116 :: rue)
  | no : IsScalar (102 :: alse)
  | number {t : Bytes} : IsNumber t → IsScalar t
  | text {t : Bytes} : IsText t → IsScalar t

/-- A member as it is written: the token of its name, and the tokens of its value. -/
abbrev Member := Bytes × List Bytes

/-- The tokens of a member. -/
def memberTokens (m : Member) : List Bytes := m.1 :: [colon] :: m.2

/-- Parts behind the first, each with its comma. -/
def further (parts : List (List Bytes)) : List Bytes := parts.flatMap ([comma] :: ·)

/-- Parts with commas between them. -/
def separated : List (List Bytes) → List Bytes
  | [] => []
  | part :: parts => part ++ further parts

/-- The tokens of a list. -/
def listTokens (items : List (List Bytes)) : List Bytes :=
  [openList] :: (separated items ++ [[closeList]])

/-- The tokens of a record. -/
def recordTokens (ms : List Member) : List Bytes :=
  [openRecord] :: (separated (ms.map memberTokens) ++ [[closeRecord]])

/-- The tokens are a value. -/
inductive IsValue : List Bytes → Prop where
  | scalar {t : Bytes} : IsScalar t → IsValue [t]
  | list {items : List (List Bytes)} : (∀ ts ∈ items, IsValue ts) → IsValue (listTokens items)
  | record {ms : List Member} : (∀ m ∈ ms, IsText m.1) → (∀ m ∈ ms, IsValue m.2) →
      IsValue (recordTokens ms)

/-- A member as it may be written: its name is a string, its value a value. -/
def IsMember (m : Member) : Prop := IsText m.1 ∧ IsValue m.2

/-- The first byte of a value: no blank, and nothing that closes or separates. -/
def Starts (b : UInt8) : Prop :=
  isSpace b = false ∧ b ≠ comma ∧ b ≠ closeList ∧ b ≠ closeRecord

instance (b : UInt8) : Decidable (Starts b) := inferInstanceAs (Decidable (_ ∧ _))

theorem IsDigits.starts {ds : Bytes} (h : IsDigits ds) :
    ∃ b ds', ds = b :: ds' ∧ isDigit b = true := by
  obtain ⟨hne, hall⟩ := h
  cases ds with
  | nil => exact absurd rfl hne
  | cons b ds' => exact ⟨b, ds', rfl, hall b List.mem_cons_self⟩

theorem starts_of_isDigit (h : isDigit b = true) : Starts b :=
  ⟨not_isSpace_of_isDigit h, ne_of_isDigit h rfl, ne_of_isDigit h rfl, ne_of_isDigit h rfl⟩

theorem IsNumber.starts (h : IsNumber token) :
    ∃ b t, token = b :: t ∧ (isDigit b = true ∨ b = minus) := by
  cases h with
  | plain hwhole _ _ =>
    obtain ⟨b, ds, rfl, hb⟩ := hwhole.1.starts
    exact ⟨b, _, rfl, .inl hb⟩
  | negative _ _ _ => exact ⟨minus, _, rfl, .inr rfl⟩

theorem IsScalar.starts (h : IsScalar token) : ∃ b t, token = b :: t ∧ Starts b := by
  cases h with
  | null => exact ⟨110, ull, rfl, by decide⟩
  | yes => exact ⟨116, rue, rfl, by decide⟩
  | no => exact ⟨102, alse, rfl, by decide⟩
  | number h =>
    obtain ⟨b, t, rfl, hb | rfl⟩ := h.starts
    · exact ⟨b, t, rfl, starts_of_isDigit hb⟩
    · exact ⟨minus, t, rfl, by decide⟩
  | text h =>
    obtain ⟨body, -, rfl⟩ := h
    exact ⟨quote, _, rfl, by decide⟩

/-- A value's first token begins with no blank and is no mark. -/
theorem IsValue.starts (h : IsValue ts) : ∃ b t ts', ts = (b :: t) :: ts' ∧ Starts b := by
  cases h with
  | scalar h =>
    obtain ⟨b, t, rfl, hb⟩ := h.starts
    exact ⟨b, t, [], rfl, hb⟩
  | list _ => exact ⟨openList, [], _, rfl, by decide⟩
  | record _ _ => exact ⟨openRecord, [], _, rfl, by decide⟩

/-- A value comes next behind the blanks. -/
theorem IsValue.skipSpace (h : IsValue ts) (hs : Spaced (ts ++ more) bs) :
    ∃ b rest, skipSpace bs = b :: rest ∧ Starts b ∧ Spaced (ts ++ more) (b :: rest) := by
  obtain ⟨b, t, ts', rfl, hb⟩ := h.starts
  obtain ⟨rest, hskip, -⟩ := Spaced.skipSpace_cons hs hb.1
  exact ⟨b, t ++ rest, hskip, hb, hskip ▸ Spaced.skipSpace hs hb.1⟩

/-- Parts to come, where the first of them has a comma before it unless it is the first of all. -/
def ahead (first : Bool) (parts : List (List Bytes)) : List Bytes :=
  if first then separated parts else further parts

theorem ahead_nil (first : Bool) : ahead first [] = [] := by cases first <;> rfl

theorem further_cons (part : List Bytes) (parts : List (List Bytes)) :
    further (part :: parts) = [comma] :: (part ++ further parts) := rfl

theorem listTokens_append (items : List (List Bytes)) (more : List Bytes) :
    listTokens items ++ more = [openList] :: (separated items ++ [closeList] :: more) := by
  simp [listTokens]

theorem recordTokens_append (ms : List Member) (more : List Bytes) :
    recordTokens ms ++ more =
      [openRecord] :: (separated (ms.map memberTokens) ++ [closeRecord] :: more) := by
  simp [recordTokens]

/-- The bytes of the parts, and a comma before each. -/
theorem length_further (parts : List (List Bytes)) :
    (further parts).flatten.length = parts.flatten.flatten.length + parts.length := by
  induction parts with
  | nil => rfl
  | cons part parts ih =>
    simp only [further_cons, List.flatten_cons, List.flatten_append, List.length_append,
      List.length_cons, List.length_nil, ih]
    omega

/-- The bytes of the parts, and the commas between them. -/
theorem length_separated (parts : List (List Bytes)) :
    (separated parts).flatten.length = parts.flatten.flatten.length + (parts.length - 1) := by
  cases parts with
  | nil => rfl
  | cons part parts =>
    simp only [separated, List.flatten_cons, List.flatten_append, List.length_append,
      length_further, List.length_cons]
    omega

/-- There are no more parts in a bracket than bytes behind it. -/
theorem Spaced.length_le_separated {parts : List (List Bytes)}
    (h : Spaced (separated parts ++ [b] :: more) bs) : parts.length ≤ bs.length := by
  have hlength := h.length_le
  rw [List.flatten_append, List.length_append, List.flatten_cons, List.length_append,
    List.length_singleton, length_separated] at hlength
  omega

theorem ends_further_closeList (items : List (List Bytes)) (more : List Bytes) :
    Ends (further items ++ [closeList] :: more) := by
  cases items with
  | nil => exact ends_closeList
  | cons _ _ => exact ends_comma

theorem ends_further_closeRecord (items : List (List Bytes)) (more : List Bytes) :
    Ends (further items ++ [closeRecord] :: more) := by
  cases items with
  | nil => exact ends_closeRecord
  | cons _ _ => exact ends_comma

end Switchboard.Json
