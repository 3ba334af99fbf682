/-
Switchboard/Proofs/Json/Blanks.lean

What a reader makes of a value does not depend on the blanks between its
tokens, nor on what comes behind it.

`ReadsAs` says so of one reader and one sequence of tokens: whatever the
blanks, the reader comes to the same value, or to none, and stops behind the
last token.  Strings and numbers are single tokens, and of them the latter
half is to be shown.  The loops over items and members are followed part by
part, for a reader that is such on each part; how a member is taken in is left
open (`foldMembers_spaced`), since the envelope is read by the same loop.

Main statement: `IsValue.readsAs`, by induction on the grammar.
-/
import Switchboard.Proofs.Json.Formed
import Switchboard.Proofs.Json.Grammar

namespace Switchboard

/-- What comes out of two computations in turn, if anything does. -/
theorem toOption_bind {ε α β : Type} (x : Except ε α) (f : α → Except ε β) :
    (x >>= f).toOption = x.toOption.bind fun a => (f a).toOption := by
  cases x <;> rfl

theorem toOption_eq_some_iff {ε α : Type} {x : Except ε α} {a : α} :
    x.toOption = some a ↔ x = .ok a := by
  cases x <;> simp [Except.toOption]

namespace Json

open Text Utf8

variable {ts more : List Bytes} {token bs rest : Bytes} {b : UInt8}

/-! ### Strings -/

/-- The reader's way through the four digits of an escape. -/
theorem textFrom_four (acc : List Char) (lead : Option Nat) (b₁ b₂ b₃ b₄ : UInt8) (rest : Bytes) :
    (textFrom acc [] (.hex lead []) (b₁ :: b₂ :: b₃ :: b₄ :: rest)).toOption =
      (fourHex? [b₁, b₂, b₃, b₄]).bind fun n => (afterHex lead n).toOption.bind fun r =>
        (textFrom (r.2 ++ acc) [] r.1 rest).toOption := by
  have h1 : escapeStep (.hex lead []) b₁ = .ok (.hex lead [b₁], []) := rfl
  have h2 : escapeStep (.hex lead [b₁]) b₂ = .ok (.hex lead [b₁, b₂], []) := rfl
  have h3 : escapeStep (.hex lead [b₁, b₂]) b₃ = .ok (.hex lead [b₁, b₂, b₃], []) := rfl
  have h4 : escapeStep (.hex lead [b₁, b₂, b₃]) b₄ =
      (fourHex? [b₁, b₂, b₃, b₄]).elim (.error .invalidEscape) (afterHex lead) := by
    simp only [escapeStep, List.cons_append, List.nil_append]
    cases fourHex? [b₁, b₂, b₃, b₄] <;> rfl
  simp only [textFrom, h1, h2, h3, h4, List.nil_append]
  cases fourHex? [b₁, b₂, b₃, b₄] with
  | none => rfl
  | some n =>
    simp only [Option.elim_some, Option.bind_some]
    cases afterHex lead n <;> rfl

theorem textFrom_four_ok {acc cs : List Char} {lead : Option Nat} {mode : TextMode}
    {b₁ b₂ b₃ b₄ : UInt8} {n : Nat} (hn : fourHex? [b₁, b₂, b₃, b₄] = some n)
    (h : afterHex lead n = .ok (mode, cs)) :
    (textFrom acc [] (.hex lead []) (b₁ :: b₂ :: b₃ :: b₄ :: rest)).toOption =
      (textFrom (cs ++ acc) [] mode rest).toOption := by
  rw [textFrom_four, hn, Option.bind_some, h]
  rfl

/-- Between two pieces of a string the reader is outside any escape, or else behind a leading
surrogate. -/
inductive TextMode.Between : TextMode → Prop where
  | plain : Between .plain
  | led (lead : Nat) : Between (.led lead)

/-- Behind four digits it is there again. -/
theorem afterHex_between {lead : Option Nat} {n : Nat} {r : TextMode × List Char}
    (h : afterHex lead n = .ok r) : r.1.Between := by
  cases lead with
  | none =>
    simp only [afterHex] at h
    split_ifs at h <;> cases h
    · exact .led n
    · exact .plain
  | some l =>
    simp only [afterHex] at h
    split_ifs at h
    cases h
    exact .plain

theorem toOption_runText (run rest : Bytes) :
    (runText run rest).toOption = (decode run).toOption := by
  rw [runText]
  cases decode run <;> rfl

theorem textFrom_plain_backslash (acc : List Char) (run rest : Bytes) :
    (textFrom acc run .plain (backslash :: rest)).toOption =
      (decode run.reverse).toOption.bind fun cs =>
        (textFrom (cs.reverse ++ acc) [] .escaped rest).toOption := by
  rw [textFrom, if_neg (by decide), if_pos rfl, toOption_bind, toOption_runText]

theorem textFrom_plain_quote (acc : List Char) (run rest : Bytes) :
    (textFrom acc run .plain (quote :: rest)).toOption =
      ((decode run.reverse).toOption.map (acc.reverse ++ ·)).map (·, rest) := by
  rw [textFrom, if_pos rfl, toOption_bind, toOption_runText]
  cases decode run.reverse <;> rfl

/-- Behind a leading surrogate only another escape of four digits may come. -/
theorem textFrom_led {acc : List Char} {run : Bytes} {lead : Nat} (hb : b ≠ backslash) :
    (textFrom acc run (.led lead) (b :: rest)).toOption = none := by
  rw [textFrom, escapeStep, if_neg hb]
  · rfl
  · simp

theorem textFrom_led_backslash {acc : List Char} {run : Bytes} {lead : Nat} (hb : b ≠ 117) :
    (textFrom acc run (.led lead) (backslash :: b :: rest)).toOption = none := by
  have h : escapeStep (.led lead) backslash = .ok (.ledEscaped lead, []) := rfl
  have h' : escapeStep (.ledEscaped lead) b = .error .escapeEndsEarly := by
    rw [escapeStep, if_neg hb]
  simp only [textFrom, h, h']
  rfl

theorem textFrom_escaped_u (acc : List Char) (rest : Bytes) :
    textFrom acc [] .escaped (117 :: rest) = textFrom acc [] (.hex none []) rest := by
  have h : escapeStep .escaped 117 = .ok (.hex none [], []) := rfl
  rw [textFrom, h]
  · rfl
  · simp

theorem textFrom_led_u (acc : List Char) (run : Bytes) (lead : Nat) (rest : Bytes) :
    textFrom acc run (.led lead) (backslash :: 117 :: rest) =
      textFrom acc [] (.hex (some lead) []) rest := by
  have h : escapeStep (.led lead) backslash = .ok (.ledEscaped lead, []) := rfl
  have h' : escapeStep (.ledEscaped lead) 117 = .ok (.hex (some lead) [], []) := rfl
  simp only [textFrom, h, h', List.nil_append]

theorem ne_of_shortEscape? {x : UInt8} (h : shortEscape? b = some x) : b ≠ 117 := by
  rintro rfl
  cases h

/-- What is read of a string's rest does not depend on what comes behind its closing quote. -/
theorem exists_textFrom {body : Bytes} (h : IsQuoted body) {mode : TextMode} (hmode : mode.Between)
    (acc : List Char) (run : Bytes) : ∃ r : Option (List Char), ∀ rest,
      (textFrom acc run mode (body ++ quote :: rest)).toOption = r.map (·, rest) := by
  induction h generalizing mode acc run with
  | nil =>
    cases hmode with
    | plain => exact ⟨_, textFrom_plain_quote acc run⟩
    | led lead => exact ⟨none, fun rest => textFrom_led (by decide)⟩
  | @verbatim b body hb _ ih =>
    cases hmode with
    | plain =>
      obtain ⟨r, hr⟩ := ih .plain acc (b :: run)
      refine ⟨r, fun rest => ?_⟩
      rw [List.cons_append, textFrom_verbatim hb, hr]
    | led lead => exact ⟨none, fun rest => textFrom_led hb.2.1⟩
  | @short b x body hb _ ih =>
    have hu := ne_of_shortEscape? hb
    cases hmode with
    | plain =>
      choose r hr using fun cs : List Char =>
        ih .plain (Char.ofNat x.toNat :: (cs.reverse ++ acc)) []
      refine ⟨(decode run.reverse).toOption.bind r, fun rest => ?_⟩
      simp only [List.cons_append, textFrom_plain_backslash, textFrom_short hu hb, hr]
      cases decode run.reverse <;> rfl
    | led lead => exact ⟨none, fun rest => textFrom_led_backslash hu⟩
  | @hex b₁ b₂ b₃ b₄ n body hn _ ih =>
    -- the four digits are gone through in the same way with and without a leading surrogate
    have hfour : ∀ acc lead, ∃ r : Option (List Char), ∀ rest,
        (textFrom acc [] (.hex lead [])
          (b₁ :: b₂ :: b₃ :: b₄ :: (body ++ quote :: rest))).toOption = r.map (·, rest) := by
      intro acc lead
      simp only [textFrom_four, hn, Option.bind_some]
      cases ha : afterHex lead n with
      | error e => exact ⟨none, fun _ => rfl⟩
      | ok a => exact ih (afterHex_between ha) (a.2 ++ acc) []
    cases hmode with
    | plain =>
      choose r hr using fun cs : List Char => hfour (cs.reverse ++ acc) none
      refine ⟨(decode run.reverse).toOption.bind r, fun rest => ?_⟩
      simp only [List.cons_append, textFrom_plain_backslash, textFrom_escaped_u, hr]
      cases decode run.reverse <;> rfl
    | led lead =>
      obtain ⟨r, hr⟩ := hfour acc (some lead)
      refine ⟨r, fun rest => ?_⟩
      rw [← hr rest]
      simp only [List.cons_append, textFrom_led_u]

/-- The text that a string's token is read as. -/
def text? (token : Bytes) : Option String := (readText token.tail).toOption.map (·.1)

/-- A string is read alike whatever comes behind it. -/
theorem IsText.readText (h : IsText token) :
    ∃ body, token = quote :: body ∧ ∀ rest,
      (readText (body ++ rest)).toOption = (text? token).map (·, rest) := by
  obtain ⟨body, hquoted, rfl⟩ := h
  obtain ⟨r, hr⟩ := exists_textFrom hquoted .plain [] []
  have hread : ∀ rest, (Json.readText (body ++ quote :: rest)).toOption =
      (r.map String.ofList).map (·, rest) := by
    intro rest
    rw [Json.readText, toOption_bind, hr]
    cases r <;> rfl
  refine ⟨body ++ [quote], rfl, fun rest => ?_⟩
  rw [List.append_assoc, List.singleton_append, hread, text?, List.tail_cons, hread]
  cases r <;> rfl

/-- What stands for characters is read as these. -/
theorem textFrom_writes {body : Bytes} {cs : List Char} (h : Writes body cs)
    (acc ds : List Char) (rest : Bytes) :
    (textFrom acc (encode ds).reverse .plain (body ++ quote :: rest)).toOption =
      some (acc.reverse ++ ds ++ cs, rest) := by
  induction h generalizing acc ds with
  | nil => rw [List.nil_append, textFrom_quote, List.append_nil]; rfl
  | @plain c body cs hq hb hc _ ih =>
    obtain ⟨acc', ds', hstep, hknown⟩ := advances_plain hq hb hc acc ds (body ++ quote :: rest)
    rw [List.append_assoc, hstep, ih, hknown, List.append_assoc, List.singleton_append]
  | @short b x body cs hb _ ih =>
    obtain ⟨acc', ds', hstep, hknown⟩ :=
      advances_short (ne_of_shortEscape? hb) hb acc ds (body ++ quote :: rest)
    rw [List.cons_append, List.cons_append] at hstep ⊢
    rw [List.nil_append] at hstep
    rw [hstep, ih, hknown, List.append_assoc, List.singleton_append]
  | @hex b₁ b₂ b₃ b₄ n body cs hn hplane _ ih =>
    have hafter : afterHex none n = .ok (.plain, [Char.ofNat n]) := by
      rw [afterHex, if_neg (by omega), if_neg (by omega)]
    have hread := ih (Char.ofNat n :: (ds.reverse ++ acc)) []
    rw [encode_nil, List.reverse_nil] at hread
    simp only [List.cons_append, textFrom_backslash, textFrom_escaped_u]
    rw [textFrom_four_ok hn hafter, List.singleton_append, hread]
    simp
  | @pair b₁ b₂ b₃ b₄ d₁ d₂ d₃ d₄ l n body cs hl hlead hn htrail _ ih =>
    have hafter : afterHex none l = .ok (.led l, []) := by
      rw [afterHex, if_neg (by omega), if_pos (by omega)]
    have hafter' : afterHex (some l) n =
        .ok (.plain, [Char.ofNat ((l - 0xD800) * 0x400 + (n - 0xDC00) + 0x10000)]) := by
      rw [afterHex, if_pos (by omega)]
    have hread := ih (Char.ofNat ((l - 0xD800) * 0x400 + (n - 0xDC00) + 0x10000) ::
      (ds.reverse ++ acc)) []
    rw [encode_nil, List.reverse_nil] at hread
    simp only [List.cons_append, textFrom_backslash, textFrom_escaped_u]
    rw [textFrom_four_ok hl hafter, List.nil_append, textFrom_led_u, textFrom_four_ok hn hafter',
      List.singleton_append, hread]
    simp

/-- A string that stands for a text is read as it. -/
theorem Spells.text? {s : String} (h : Spells token s) : text? token = some s := by
  obtain ⟨body, hwrites, rfl⟩ := h
  have hread := textFrom_writes hwrites [] [] []
  rw [encode_nil, List.reverse_nil] at hread
  rw [Json.text?, List.tail_cons, Json.readText, toOption_bind, hread]
  simp [Except.toOption]

/-! ### Numbers -/

variable {whole fraction exponent : Bytes}

theorem Breaks.not_mem (h : Breaks rest) :
    ∀ b ∈ rest.head?, isDigit b = false ∧ b ≠ 46 ∧ b ≠ 101 ∧ b ≠ 69 := by
  intro b hb
  rcases h b hb with h | rfl | rfl | rfl
  · simp only [isSpace, Bool.or_eq_true, beq_iff_eq] at h
    rcases h with ((rfl | rfl) | rfl) | rfl <;> decide
  all_goals decide

/-- Behind a fraction's digits, or where there is none, neither a digit nor a point comes. -/
theorem IsExponent.head_append (h : IsExponent exponent) (hr : Breaks rest) :
    ∀ b ∈ (exponent ++ rest).head?, isDigit b = false ∧ b ≠ 46 := by
  intro b hb
  obtain rfl | ⟨e, sign, ds, he, -, -, rfl⟩ := h
  · have hb := hr.not_mem b hb
    exact ⟨hb.1, hb.2.1⟩
  · cases hb
    rcases he with rfl | rfl <;> decide

/-- Behind the digits before it no digit comes. -/
theorem IsFraction.head_append (h : IsFraction fraction) (he : IsExponent exponent)
    (hr : Breaks rest) : ∀ b ∈ (fraction ++ (exponent ++ rest)).head?, isDigit b = false := by
  intro b hb
  obtain rfl | ⟨ds, -, rfl⟩ := h
  · exact (he.head_append hr b hb).1
  · cases hb
    rfl

theorem readWhole_append (h : IsWhole whole) (hr : ∀ b ∈ rest.head?, isDigit b = false) :
    readWhole (whole ++ rest) = .ok (whole, rest) := by
  obtain ⟨hdigits, hzero⟩ := h
  have hspan := spanDigits_append hdigits.2 hr
  obtain ⟨b, ds, rfl, hb⟩ := hdigits.starts
  rw [List.cons_append] at hspan ⊢
  rw [readWhole.eq_def]
  simp only
  split
  · -- a zero is the only digit
    rename_i hz
    obtain rfl : ds = [] := (List.cons.inj (hzero (congrArg some hz))).2
    cases rest with
    | nil => rfl
    | cons c rest => simp [hr c rfl]
  · rw [hspan]

theorem exists_readFraction (h : IsFraction fraction) : ∃ ds?, ∀ rest : Bytes,
    (∀ b ∈ rest.head?, isDigit b = false ∧ b ≠ 46) →
      readFraction (fraction ++ rest) = .ok (ds?, rest) := by
  obtain rfl | ⟨ds, hdigits, rfl⟩ := h
  · refine ⟨none, fun rest hr => ?_⟩
    rw [List.nil_append, readFraction.eq_def]
    split
    · exact absurd rfl (hr 46 rfl).2
    · rfl
  · refine ⟨some ds, fun rest hr => ?_⟩
    have hspan := spanDigits_append hdigits.2 fun b hb => (hr b hb).1
    obtain ⟨b, ds, rfl, -⟩ := hdigits.starts
    rw [List.cons_append, readFraction.eq_def]
    simp only [hspan]

theorem exists_readExponent (h : IsExponent exponent) : ∃ e?, ∀ rest : Bytes, Breaks rest →
    readExponent (exponent ++ rest) = .ok (e?, rest) := by
  obtain rfl | ⟨e, sign, ds, he, hsign, hdigits, rfl⟩ := h
  · refine ⟨none, fun rest hr => ?_⟩
    rw [List.nil_append, readExponent.eq_def]
    cases rest with
    | nil => rfl
    | cons b rest =>
      have hb := hr.not_mem b rfl
      simp only
      rw [if_neg (not_or.2 hb.2.2)]
  · refine ⟨some (sign = [45], ds), fun rest hr => ?_⟩
    have hspan := spanDigits_append hdigits.2 fun b hb => (hr.not_mem b hb).1
    obtain ⟨b, ds, rfl, hb⟩ := hdigits.starts
    have hds : readExponentDigits (b :: (ds ++ rest)) = .ok (b :: ds, rest) := by
      rw [readExponentDigits, if_pos hb, ← List.cons_append, hspan]
    have h43 : b ≠ 43 := ne_of_isDigit hb rfl
    have h45 : b ≠ 45 := ne_of_isDigit hb rfl
    rw [List.cons_append, readExponent.eq_def]
    simp only
    rw [if_pos he]
    rcases hsign with rfl | rfl | rfl
    · rw [List.nil_append, List.cons_append]
      split
      · rename_i heq
        exact absurd (List.cons.inj heq).1 h43
      · rename_i heq
        exact absurd (List.cons.inj heq).1 h45
      · simp only [hds, bind, Except.bind]
        rfl
    · simp only [List.cons_append, List.nil_append, hds, bind, Except.bind]
      rfl
    · simp only [List.cons_append, List.nil_append, hds, bind, Except.bind]
      rfl

theorem toOption_value (negative : Bool) (n : Numeral) (rest : Bytes) :
    (n.value negative rest).toOption = (n.value negative []).toOption := by
  -- only the place of a complaint depends on the rest
  simp only [Numeral.value]
  cases n.exponent with
  | none =>
    simp only
    split
    · rfl
    · split <;> rfl
  | some e =>
    obtain ⟨negativeExponent, ds⟩ := e
    simp only
    cases takeExponent 0 ds with
    | inl e =>
      simp only
      split <;> rfl
    | inr unread =>
      simp only
      split <;> rfl

theorem exists_readNumber (hwhole : IsWhole whole) (hfraction : IsFraction fraction)
    (hexponent : IsExponent exponent) (negative : Bool) : ∃ r : Option Json, ∀ rest, Breaks rest →
      (readNumber negative (whole ++ (fraction ++ exponent) ++ rest)).toOption =
        r.map (·, rest) := by
  obtain ⟨ds?, hfr⟩ := exists_readFraction hfraction
  obtain ⟨e?, hex⟩ := exists_readExponent hexponent
  refine ⟨(Numeral.value negative ⟨whole, ds?, e?⟩ []).toOption, fun rest hr => ?_⟩
  have hw := readWhole_append hwhole (hfraction.head_append hexponent hr)
  have hf := hfr _ (hexponent.head_append hr)
  have hstep : readNumber negative (whole ++ (fraction ++ exponent) ++ rest) =
      Numeral.value negative ⟨whole, ds?, e?⟩ rest >>= fun v => .ok (v, rest) := by
    rw [List.append_assoc, List.append_assoc, readNumber, hw]
    simp only [bind, Except.bind, hf, hex rest hr]
  rw [hstep, toOption_bind, toOption_value]
  cases (Numeral.value negative ⟨whole, ds?, e?⟩ []).toOption <;> rfl

/-! ### Values without brackets -/

/-- A token that is a value by itself is read alike whatever comes behind it that may come behind a
value. -/
theorem IsScalar.exists_readScalar (h : IsScalar token) : ∃ b t, token = b :: t ∧ Starts b ∧
    b ≠ openList ∧ b ≠ openRecord ∧ ∃ r : Option Json, ∀ rest, Breaks rest →
      (readScalar b (t ++ rest)).toOption = r.map (·, rest) := by
  cases h with
  | null =>
    exact ⟨110, ull, rfl, by decide, by decide, by decide, some .null, fun _ _ => rfl⟩
  | yes =>
    exact ⟨116, rue, rfl, by decide, by decide, by decide, some (.flag true), fun _ _ => rfl⟩
  | no =>
    exact ⟨102, alse, rfl, by decide, by decide, by decide, some (.flag false), fun _ _ => rfl⟩
  | number h =>
    cases h with
    | @plain whole fraction exponent hwhole hfraction hexponent =>
      obtain ⟨r, hr⟩ := exists_readNumber hwhole hfraction hexponent false
      obtain ⟨b, ds, rfl, hb⟩ := hwhole.1.starts
      refine ⟨b, _, rfl, starts_of_isDigit hb, ne_of_isDigit hb rfl, ne_of_isDigit hb rfl, r,
        fun rest hrest => ?_⟩
      rw [readScalar_digits hb]
      exact hr rest hrest
    | @negative whole fraction exponent hwhole hfraction hexponent =>
      obtain ⟨r, hr⟩ := exists_readNumber hwhole hfraction hexponent true
      exact ⟨minus, _, rfl, by decide, by decide, by decide, r, hr⟩
  | text h =>
    obtain ⟨body, rfl, hread⟩ := h.readText
    refine ⟨quote, body, rfl, by decide, by decide, by decide,
      (text? (quote :: body)).map .text, fun rest _ => ?_⟩
    have hstep : readScalar quote (body ++ rest) =
      readText (body ++ rest) >>= fun r => .ok (.text r.1, r.2) := rfl
    rw [hstep, toOption_bind, hread]
    cases text? (quote :: body) <;> rfl

/-! ### Readers that do not see blanks -/

/-- Whatever blanks stand between the tokens, and whatever comes behind them that may come behind
a value, the reader makes this of them, and if it is a value it stops behind the last token. -/
def ReadsAs {α : Type} (read : Bytes → Except Problem (α × Bytes)) (ts : List Bytes)
    (r : Option α) : Prop :=
  ∀ more bs, Ends more → Spaced (ts ++ more) bs →
    ∃ rest, Spaced more rest ∧ (read bs).toOption = r.map (·, rest)

/-- What a reader makes of the tokens when they stand without blanks. -/
def readAs {α : Type} (read : Bytes → Except Problem (α × Bytes)) (ts : List Bytes) : Option α :=
  (read ts.flatten).toOption.map (·.1)

/-- If a reader does not see blanks, it makes the same of the tokens with them and without. -/
theorem ReadsAs.eq_readAs {α : Type} {read : Bytes → Except Problem (α × Bytes)} {r : Option α}
    (h : ReadsAs read ts r) : readAs read ts = r := by
  obtain ⟨rest, -, hread⟩ := h [] _ ends_nil (by simpa using spaced_flatten ts)
  rw [readAs, hread]
  cases r <;> rfl

theorem ReadsAs.readAs {α : Type} {read : Bytes → Except Problem (α × Bytes)} {r : Option α}
    (h : ReadsAs read ts r) : ReadsAs read ts (readAs read ts) := by
  rwa [h.eq_readAs]

/-- A reader that makes nothing of the tokens. -/
theorem readsAs_none {α : Type} {read : Bytes → Except Problem (α × Bytes)}
    (h : ∀ more bs, Ends more → Spaced (ts ++ more) bs → (read bs).toOption = none) :
    ReadsAs read ts none :=
  fun more bs hends hs => ⟨_, spaced_flatten more, h more bs hends hs⟩

theorem IsScalar.exists_readsAs (h : IsScalar token) (depth : Nat) :
    ∃ r, ReadsAs (readValue depth) [token] r := by
  obtain ⟨b, t, rfl, hb, hl, hr, r, hread⟩ := h.exists_readScalar
  refine ⟨r, fun more bs hends hs => ?_⟩
  obtain ⟨rest, hskip, hrest⟩ := hs.skipSpace_cons hb.1
  refine ⟨rest, hrest, ?_⟩
  rw [readValue.eq_def, hskip]
  simp only [if_neg hl, if_neg hr]
  exact hread rest (hends.breaks hrest)

/-! ### Lists -/

section Lists

variable {read : Bytes → Except Problem (Json × Bytes)} {f : List Bytes → Option Json}
  {items : List (List Bytes)}

/-- The next item is found, behind its comma if it is not the first. -/
theorem nextItem_ahead {first : Bool} (h : IsValue ts)
    (hs : Spaced (ahead first (ts :: items) ++ more) bs) : ∃ bs',
      nextItem first bs = .ok (.part bs') ∧ Spaced (ts ++ (further items ++ more)) bs' := by
  cases first with
  | true =>
    rw [ahead, if_pos rfl, separated, List.append_assoc] at hs
    obtain ⟨b, rest, hskip, hb, hrest⟩ := h.skipSpace hs
    refine ⟨b :: rest, ?_, hrest⟩
    rw [nextItem, hskip]
    simp only [if_neg hb.2.2.1, if_true]
  | false =>
    rw [ahead, if_neg (by decide), further_cons, List.cons_append, List.append_assoc] at hs
    obtain ⟨after, hskip, hafter⟩ := hs.skipSpace_cons rfl
    obtain ⟨b, rest, hskip', hb, hrest⟩ := h.skipSpace hafter
    refine ⟨b :: rest, ?_, hrest⟩
    have hc : comma ≠ closeList := by decide
    rw [nextItem, hskip]
    simp only [if_neg hc, Bool.false_eq_true, if_false, if_true, List.nil_append, hskip',
      if_neg hb.2.2.1]

theorem foldItemsFrom_part {σ : Type} {step : ItemStep σ} {fuel : Nat} {first : Bool} {a : σ}
    {bs' : Bytes} (h : nextItem first bs = .ok (.part bs')) :
    foldItemsFrom step (fuel + 1) first a bs =
      step a bs' >>= fun r => foldItemsFrom step fuel false r.1 r.2 := by
  rw [foldItemsFrom, h]
  rfl

theorem pushItem_spaced (acc : List Json) {r : Option Json} (h : ReadsAs read ts r)
    (hends : Ends more) (hs : Spaced (ts ++ more) bs) : ∃ rest, Spaced more rest ∧
      (pushItem read acc bs).toOption = r.map fun v => (v :: acc, rest) := by
  obtain ⟨rest, hrest, hread⟩ := h more bs hends hs
  refine ⟨rest, hrest, ?_⟩
  rw [pushItem, toOption_bind, hread]
  cases r <;> rfl

/-- The items to come are taken in one after the other. -/
theorem foldItemsFrom_spaced (hvalue : ∀ ts ∈ items, IsValue ts)
    (hread : ∀ ts ∈ items, ReadsAs read ts (f ts)) {fuel : Nat} (hfuel : items.length < fuel)
    (first : Bool) (acc : List Json)
    (hs : Spaced (ahead first items ++ [closeList] :: more) bs) : ∃ rest, Spaced more rest ∧
      (foldItemsFrom (pushItem read) fuel first acc bs).toOption =
        (items.mapM f).map fun vs => (vs.reverse ++ acc, rest) := by
  induction items generalizing fuel first acc bs with
  | nil =>
    obtain ⟨fuel, rfl⟩ : ∃ n, fuel = n + 1 := Nat.exists_eq_add_one.2 hfuel
    rw [ahead_nil] at hs
    obtain ⟨rest, hskip, hrest⟩ := Spaced.skipSpace_cons hs rfl
    refine ⟨rest, hrest, ?_⟩
    rw [foldItemsFrom, nextItem, hskip]
    rfl
  | cons ts items ih =>
    obtain ⟨fuel, rfl⟩ : ∃ n, fuel = n + 1 := Nat.exists_eq_add_one.2 (Nat.zero_lt_of_lt hfuel)
    obtain ⟨hts, hitems⟩ := List.forall_mem_cons.1 hread
    obtain ⟨bs₁, hnext, hbs₁⟩ := nextItem_ahead (hvalue ts List.mem_cons_self) hs
    obtain ⟨bs₂, hbs₂, hpush⟩ :=
      pushItem_spaced acc hts (ends_further_closeList items more) hbs₁
    rw [foldItemsFrom_part hnext, toOption_bind, hpush, List.mapM_cons]
    cases f ts with
    | none => exact ⟨_, spaced_flatten more, rfl⟩
    | some v =>
      obtain ⟨rest, hrest, hfold⟩ := ih (fun ts hts => hvalue ts (List.mem_cons_of_mem _ hts))
        hitems (Nat.lt_of_succ_lt_succ hfuel) false (v :: acc) hbs₂
      refine ⟨rest, hrest, ?_⟩
      simp only [Option.map_some, Option.bind_some, hfold, bind, pure]
      cases items.mapM f <;> simp

/-- A list is what its items are, if each of them is something. -/
theorem readsAs_list (hvalue : ∀ ts ∈ items, IsValue ts) {depth : Nat}
    (hread : ∀ ts ∈ items, ReadsAs (readValue depth) ts (f ts)) :
    ReadsAs (readValue (depth + 1)) (listTokens items) ((items.mapM f).map .list) := by
  intro more bs _ hs
  rw [listTokens_append] at hs
  obtain ⟨bs₁, hskip, hbs₁⟩ := hs.skipSpace_cons rfl
  obtain ⟨rest, hrest, hfold⟩ := foldItemsFrom_spaced hvalue hread
    (Nat.lt_succ_of_le hbs₁.length_le_separated) true [] hbs₁
  refine ⟨rest, hrest, ?_⟩
  have hstep : readValue (depth + 1) bs =
      foldItems (pushItem fun bs => readValue depth bs) [] bs₁ >>= fun r =>
        .ok (.list r.1.reverse, r.2) := by
    rw [readValue.eq_def, hskip]
    rfl
  rw [hstep, toOption_bind, foldItems, hfold]
  cases items.mapM f <;> simp [Except.toOption]

end Lists

/-! ### Records -/

section Members

variable {σ : Type} {step : MemberStep σ} {g : σ → String → List Bytes → Option σ}
  {ms : List Member}

/-- A member taken in: its name as it is read, and then its value. -/
def takeIn (g : σ → String → List Bytes → Option σ) (a : σ) (m : Member) : Option σ :=
  (text? m.1).bind fun name => g a name m.2

/-- The next member is found, behind its comma if it is not the first, and its name is read. -/
theorem nextMember_ahead {first : Bool} {m : Member} (h : IsText m.1)
    (hs : Spaced (ahead first ((m :: ms).map memberTokens) ++ more) bs) : ∃ bs' rest,
      nextMember first bs = .ok (.part bs') ∧
      (readText bs').toOption = (text? m.1).map (·, rest) ∧
      Spaced (([colon] :: m.2) ++ (further (ms.map memberTokens) ++ more)) rest := by
  obtain ⟨body, hbody, hread⟩ := h.readText
  obtain ⟨name, ts⟩ := m
  obtain rfl : name = quote :: body := hbody
  cases first with
  | true =>
    rw [ahead, if_pos rfl, List.map_cons, separated, List.append_assoc, memberTokens,
      List.cons_append] at hs
    obtain ⟨rest, hskip, hrest⟩ := hs.skipSpace_cons rfl
    refine ⟨body ++ rest, rest, ?_, hread rest, hrest⟩
    have hc : quote ≠ closeRecord := by decide
    rw [nextMember, hskip]
    simp only [if_neg hc, if_true]
  | false =>
    rw [ahead, if_neg (by decide), List.map_cons, further_cons, List.cons_append,
      List.append_assoc, memberTokens, List.cons_append] at hs
    obtain ⟨after, hskip, hafter⟩ := hs.skipSpace_cons rfl
    obtain ⟨rest, hskip', hrest⟩ := hafter.skipSpace_cons rfl
    refine ⟨body ++ rest, rest, ?_, hread rest, hrest⟩
    have hc : comma ≠ closeRecord := by decide
    rw [nextMember, hskip]
    simp only [if_neg hc, Bool.false_eq_true, if_false, if_true, List.nil_append, hskip']

theorem foldMembersFrom_part {fuel : Nat} {first : Bool} {a : σ} {bs' : Bytes}
    (h : nextMember first bs = .ok (.part bs')) :
    foldMembersFrom step (fuel + 1) first a bs = readText bs' >>= fun r =>
      step a r.1 r.2 >>= fun r => foldMembersFrom step fuel false r.1 r.2 := by
  rw [foldMembersFrom, h]
  rfl

/-- The members to come are taken in one after the other. -/
theorem foldMembersFrom_spaced (hname : ∀ m ∈ ms, IsText m.1)
    (hstep : ∀ m ∈ ms, ∀ a name, ReadsAs (step a name) ([colon] :: m.2) (g a name m.2))
    {fuel : Nat} (hfuel : ms.length < fuel) (first : Bool) (a : σ)
    (hs : Spaced (ahead first (ms.map memberTokens) ++ [closeRecord] :: more) bs) :
    ∃ rest, Spaced more rest ∧ (foldMembersFrom step fuel first a bs).toOption =
      (ms.foldlM (takeIn g) a).map (·, rest) := by
  induction ms generalizing fuel first a bs with
  | nil =>
    obtain ⟨fuel, rfl⟩ : ∃ n, fuel = n + 1 := Nat.exists_eq_add_one.2 hfuel
    rw [List.map_nil, ahead_nil] at hs
    obtain ⟨rest, hskip, hrest⟩ := Spaced.skipSpace_cons hs rfl
    refine ⟨rest, hrest, ?_⟩
    rw [foldMembersFrom, nextMember, hskip]
    rfl
  | cons m ms ih =>
    obtain ⟨fuel, rfl⟩ : ∃ n, fuel = n + 1 := Nat.exists_eq_add_one.2 (Nat.zero_lt_of_lt hfuel)
    obtain ⟨hm, hms⟩ := List.forall_mem_cons.1 hstep
    obtain ⟨bs₁, rest₁, hnext, hread, hrest₁⟩ := nextMember_ahead (hname m List.mem_cons_self) hs
    rw [foldMembersFrom_part hnext, toOption_bind, hread, List.foldlM_cons, takeIn]
    cases text? m.1 with
    | none => exact ⟨_, spaced_flatten more, rfl⟩
    | some name =>
      obtain ⟨rest₂, hrest₂, htake⟩ := hm a name _ _ (ends_further_closeRecord _ more) hrest₁
      simp only [Option.map_some, Option.bind_some, toOption_bind, htake]
      cases g a name m.2 with
      | none => exact ⟨_, spaced_flatten more, rfl⟩
      | some a' =>
        exact ih (fun m hm => hname m (List.mem_cons_of_mem _ hm)) hms
          (Nat.lt_of_succ_lt_succ hfuel) false a' hrest₂

/-- The members of a record are taken in. -/
theorem foldMembers_spaced (hname : ∀ m ∈ ms, IsText m.1)
    (hstep : ∀ m ∈ ms, ∀ a name, ReadsAs (step a name) ([colon] :: m.2) (g a name m.2)) (a : σ)
    (hs : Spaced (separated (ms.map memberTokens) ++ [closeRecord] :: more) bs) :
    ∃ rest, Spaced more rest ∧ (foldMembers step a bs).toOption =
      (ms.foldlM (takeIn g) a).map (·, rest) := by
  have hlength := hs.length_le_separated
  rw [List.length_map] at hlength
  exact foldMembersFrom_spaced hname hstep (Nat.lt_succ_of_le hlength) true a hs

theorem readColon_spaced (hs : Spaced (([colon] :: ts) ++ more) bs) :
    ∃ rest, readColon bs = .ok rest ∧ Spaced (ts ++ more) rest := by
  obtain ⟨rest, hskip, hrest⟩ := Spaced.skipSpace_cons hs rfl
  refine ⟨rest, ?_, hrest⟩
  rw [readColon, hskip]
  rfl

end Members

/-- One more member of a record under way, with its value as it is read. -/
def putMember (f : List Bytes → Option Json) (acc : Members) (name : String) (ts : List Bytes) :
    Option Members :=
  (f ts).map fun v => acc.insert name v

theorem readsAs_pushMember {read : Bytes → Except Problem (Json × Bytes)}
    {f : List Bytes → Option Json} (h : ReadsAs read ts (f ts)) (acc : Members) (name : String) :
    ReadsAs (pushMember read acc name) ([colon] :: ts) (putMember f acc name ts) := by
  intro more bs hends hs
  obtain ⟨bs₁, hcolon, hbs₁⟩ := readColon_spaced hs
  obtain ⟨rest, hrest, hread⟩ := h more bs₁ hends hbs₁
  refine ⟨rest, hrest, ?_⟩
  have hstep : pushMember read acc name bs =
      read bs₁ >>= fun r => .ok (acc.insert name r.1, r.2) := by
    rw [pushMember, hcolon]
    rfl
  rw [hstep, toOption_bind, hread, putMember]
  cases f ts <;> rfl

/-- A record is what its members make it, one after the other. -/
theorem readsAs_record {ms : List Member} {f : List Bytes → Option Json}
    (hname : ∀ m ∈ ms, IsText m.1) {depth : Nat}
    (hread : ∀ m ∈ ms, ReadsAs (readValue depth) m.2 (f m.2)) :
    ReadsAs (readValue (depth + 1)) (recordTokens ms)
      ((ms.foldlM (takeIn (putMember f)) []).map .record) := by
  intro more bs _ hs
  rw [recordTokens_append] at hs
  obtain ⟨bs₁, hskip, hbs₁⟩ := hs.skipSpace_cons rfl
  obtain ⟨rest, hrest, hfold⟩ := foldMembers_spaced hname
    (fun m hm acc name => readsAs_pushMember (hread m hm) acc name) [] hbs₁
  refine ⟨rest, hrest, ?_⟩
  have hstep : readValue (depth + 1) bs =
      foldMembers (pushMember fun bs => readValue depth bs) [] bs₁ >>= fun r =>
        .ok (.record r.1, r.2) := by
    rw [readValue.eq_def, hskip]
    rfl
  rw [hstep, toOption_bind, hfold]
  cases ms.foldlM (takeIn (putMember f)) [] <;> rfl

/-! ### Values -/

/-- At the last level no bracket is read. -/
theorem readsAs_zero {b : UInt8} (hb : b = openList ∨ b = openRecord) :
    ReadsAs (readValue 0) ([b] :: ts) none := by
  refine readsAs_none fun more bs _ hs => ?_
  have hspace : isSpace b = false := by rcases hb with rfl | rfl <;> rfl
  obtain ⟨rest, hskip, -⟩ := Spaced.skipSpace_cons hs hspace
  rw [readValue.eq_def, hskip]
  rcases hb with rfl | rfl <;> rfl

/-- **A value is read alike whatever blanks stand between its tokens**, at every depth. -/
theorem IsValue.readsAs (h : IsValue ts) (depth : Nat) :
    ReadsAs (readValue depth) ts (readAs (readValue depth) ts) := by
  induction h generalizing depth with
  | scalar h =>
    obtain ⟨_, hread⟩ := h.exists_readsAs depth
    exact hread.readAs
  | list hvalue ih =>
    cases depth with
    | zero => exact (readsAs_zero (.inl rfl)).readAs
    | succ depth => exact (readsAs_list hvalue fun ts hts => ih ts hts depth).readAs
  | record hname _ ih =>
    cases depth with
    | zero => exact (readsAs_zero (.inr rfl)).readAs
    | succ depth => exact (readsAs_record hname fun m hm => ih m hm depth).readAs

/-- What a record is read as, from what its members are read as. -/
theorem readAs_recordTokens {ms : List Member} (hname : ∀ m ∈ ms, IsText m.1)
    (hvalue : ∀ m ∈ ms, IsValue m.2) (depth : Nat) :
    readAs (readValue (depth + 1)) (recordTokens ms) =
      (ms.foldlM (takeIn (putMember (readAs (readValue depth)))) []).map .record :=
  (readsAs_record hname fun m hm => (hvalue m hm).readsAs depth).eq_readAs

end Json

end Switchboard
