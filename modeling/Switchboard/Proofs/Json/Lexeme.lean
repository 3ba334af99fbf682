/-
Switchboard/Proofs/Json/Lexeme.lean

Printed strings and integers are read back, whatever follows them that may
follow a value.

A string's reader keeps the bytes since the last escape and makes characters
of them only at the next one.  The invariant that carries the induction says
that these bytes are those of some characters; a character that is printed
as it is joins them, and an escape turns them into characters read.
-/
import Switchboard.Json.Printer
import Switchboard.Json.Lexeme
import Switchboard.Proofs.Text.Digits
import Switchboard.Proofs.Text.Utf8

namespace Switchboard.Json

open Text Utf8

variable {rest : Bytes}

/-! ### What follows a value -/

/-- What may follow a printed value: nothing, a comma or a closing bracket. -/
def Delimits (rest : Bytes) : Prop :=
  ∀ b ∈ rest.head?, b = comma ∨ b = closeList ∨ b = closeRecord

theorem delimits_cons {b : UInt8} (h : b = comma ∨ b = closeList ∨ b = closeRecord) :
    Delimits (b :: rest) := by simpa [Delimits] using h

/-! ### Strings -/

variable {acc : List Char} {run : Bytes}

/-- A byte that stands for itself in a string. -/
def Verbatim (b : UInt8) : Prop := b ≠ quote ∧ b ≠ backslash ∧ ¬ b < 0x20

/-- A byte that needs no escape is read as it is. -/
theorem textFrom_verbatim {b : UInt8} (h : Verbatim b) :
    textFrom acc run .plain (b :: rest) = textFrom acc (b :: run) .plain rest := by
  rw [textFrom, if_neg h.1, if_neg h.2.1, if_neg h.2.2]

theorem textFrom_verbatim_append {bs : Bytes} (h : ∀ b ∈ bs, Verbatim b) :
    textFrom acc run .plain (bs ++ rest) = textFrom acc (bs.reverse ++ run) .plain rest := by
  induction bs generalizing run with
  | nil => rfl
  | cons b bs ih =>
    rw [List.cons_append, textFrom_verbatim (h b List.mem_cons_self),
      ih fun b' hb' => h b' (List.mem_cons_of_mem b hb')]
    simp

/-- A backslash turns the bytes since the last escape into characters read. -/
theorem textFrom_backslash (acc cs : List Char) (rest : Bytes) :
    textFrom acc (encode cs).reverse .plain (backslash :: rest) =
      textFrom (cs.reverse ++ acc) [] .escaped rest := by
  have hr : runText (encode cs) rest = .ok cs := by rw [runText, decode_encode]
  rw [textFrom, if_neg (by decide), if_pos rfl, List.reverse_reverse, hr]
  rfl

/-- So does the closing quote. -/
theorem textFrom_quote (acc cs : List Char) (rest : Bytes) :
    textFrom acc (encode cs).reverse .plain (quote :: rest) = .ok (acc.reverse ++ cs, rest) := by
  have hr : runText (encode cs) rest = .ok cs := by rw [runText, decode_encode]
  rw [textFrom, if_pos rfl, List.reverse_reverse, hr]
  rfl

/-- A short escape stands for one character. -/
theorem textFrom_short {b x : UInt8} (hu : b ≠ 117) (h : shortEscape? b = some x) :
    textFrom acc [] .escaped (b :: rest) =
      textFrom (Char.ofNat x.toNat :: acc) [] .plain rest := by
  have hs : escapeStep .escaped b = .ok (.plain, [Char.ofNat x.toNat]) := by
    rw [escapeStep, if_neg hu, h]
  rw [textFrom, hs]
  · rfl
  · simp

/-- Four hexadecimal digits of a character that is no surrogate. -/
theorem textFrom_hex {a b c d : UInt8} {n : Nat} (h : fourHex? [a, b, c, d] = some n)
    (hn : n < 0xD800) :
    textFrom acc [] .escaped (117 :: a :: b :: c :: d :: rest) =
      textFrom (Char.ofNat n :: acc) [] .plain rest := by
  have hafter : afterHex none n = .ok (.plain, [Char.ofNat n]) := by
    rw [afterHex, if_neg (by omega), if_neg (by omega)]
  have h4 : escapeStep (.hex none [a, b, c]) d = .ok (.plain, [Char.ofNat n]) := by
    simp only [escapeStep, List.cons_append, List.nil_append, List.length_cons, List.length_nil,
      h, hafter, Nat.lt_irrefl, if_false]
  have h0 : escapeStep .escaped 117 = .ok (.hex none [], []) := rfl
  have h1 : escapeStep (.hex none []) a = .ok (.hex none [a], []) := rfl
  have h2 : escapeStep (.hex none [a]) b = .ok (.hex none [a, b], []) := rfl
  have h3 : escapeStep (.hex none [a, b]) c = .ok (.hex none [a, b, c], []) := rfl
  simp only [textFrom, h0, h1, h2, h3, h4, List.nil_append, List.cons_append]

/-! ### One character of a string -/

/-- The reader goes over these bytes, with the rest still to come, and comes to know one character
more.  Outside an escape what it knows are the characters read and those whose bytes it
keeps. -/
def Advances (bs : Bytes) (c : Char) : Prop :=
  ∀ (acc cs : List Char) (rest : Bytes), ∃ acc' cs',
    textFrom acc (encode cs).reverse .plain (bs ++ rest) =
      textFrom acc' (encode cs').reverse .plain rest ∧
    acc'.reverse ++ cs' = acc.reverse ++ cs ++ [c]

theorem advances_short {b x : UInt8} (hu : b ≠ 117) (h : shortEscape? b = some x) :
    Advances [backslash, b] (Char.ofNat x.toNat) := by
  intro acc cs rest
  refine ⟨Char.ofNat x.toNat :: (cs.reverse ++ acc), [], ?_, by simp⟩
  rw [List.cons_append, textFrom_backslash, List.singleton_append, textFrom_short hu h]
  rfl

/-- The four digits that are printed for a control character are read back. -/
theorem fourHex?_control : ∀ n : Fin 32, ∃ a b c d, encode (fill 4 (hex n)) = [a, b, c, d] ∧
    fourHex? [a, b, c, d] = some n.val := by
  intro n
  refine ⟨(encode (fill 4 (hex n)))[0]!, (encode (fill 4 (hex n)))[1]!,
    (encode (fill 4 (hex n)))[2]!, (encode (fill 4 (hex n)))[3]!, ?_⟩
  revert n
  decide

theorem advances_hex {c : Char} (h : c.toNat < 0x20) :
    Advances (encode (['\\', 'u'] ++ fill 4 (hex c.toNat))) c := by
  intro acc cs rest
  obtain ⟨w, x, y, z, he, hv⟩ := fourHex?_control ⟨c.toNat, h⟩
  refine ⟨c :: (cs.reverse ++ acc), [], ?_, by simp⟩
  have hb : encode (['\\', 'u'] ++ fill 4 (hex c.toNat)) = [backslash, 117, w, x, y, z] :=
    congrArg (fun bs => backslash :: 117 :: bs) he
  rw [hb, List.cons_append, textFrom_backslash]
  simp only [List.cons_append, List.nil_append]
  rw [textFrom_hex hv (Nat.lt_trans h (by decide)), Char.ofNat_toNat]
  rfl

/-- None of the bytes of a character that has no escape is a mark. -/
theorem verbatim_encodeChar {c : Char} (hq : c ≠ '"') (hb : c ≠ '\\') (hc : ¬ c.toNat < 0x20) :
    ∀ b ∈ encodeChar c, Verbatim b := by
  intro b hm
  rcases Nat.lt_or_ge c.toNat 0x80 with h | h
  · -- the one byte is the character itself, and the character is no mark
    rw [encodeChar_of_lt h, List.mem_singleton] at hm
    have hn : b.toNat = c.toNat := by rw [hm, toNat_toUInt8 (by omega)]
    refine ⟨?_, ?_, ?_⟩
    · rintro rfl
      exact hq (Char.toNat_inj.1 hn.symm)
    · rintro rfl
      exact hb (Char.toNat_inj.1 hn.symm)
    · rw [UInt8.lt_iff_toNat_lt, hn]
      exact hc
  · -- all marks are smaller than these bytes
    have hn := le_of_mem_encodeChar h hm
    refine ⟨?_, ?_, ?_⟩
    · rintro rfl
      exact absurd hn (by decide)
    · rintro rfl
      exact absurd hn (by decide)
    · rw [UInt8.lt_iff_toNat_lt]
      exact Nat.not_lt.2 (Nat.le_trans (by decide) hn)

/-- A character that has no escape is printed as it is. -/
theorem advances_plain {c : Char} (hq : c ≠ '"') (hb : c ≠ '\\') (hc : ¬ c.toNat < 0x20) :
    Advances (encodeChar c) c := by
  intro acc cs rest
  refine ⟨acc, cs ++ [c], ?_, by simp⟩
  rw [textFrom_verbatim_append (verbatim_encodeChar hq hb hc)]
  simp

/-- **Whatever is printed for a character** is read back as that character. -/
theorem advances_escapeChar (c : Char) : Advances (encode (escapeChar c)) c := by
  rw [escapeChar]
  -- seven characters have an escape of two, and the other control characters one of six
  split_ifs with h1 h2 h3 h4 h5 h6 h7 h8
  · subst h1
    exact advances_short (b := 34) (x := 34) (by decide) rfl
  · subst h2
    exact advances_short (b := 92) (x := 92) (by decide) rfl
  · subst h3
    exact advances_short (b := 98) (x := 8) (by decide) rfl
  · subst h4
    exact advances_short (b := 102) (x := 12) (by decide) rfl
  · subst h5
    exact advances_short (b := 110) (x := 10) (by decide) rfl
  · subst h6
    exact advances_short (b := 114) (x := 13) (by decide) rfl
  · subst h7
    exact advances_short (b := 116) (x := 9) (by decide) rfl
  · exact advances_hex h8
  · rw [encode_cons, encode_nil, List.append_nil]
    exact advances_plain h1 h2 h8

/-! ### Whole strings -/

/-- So a text is read back, character by character. -/
theorem textFrom_escaped (acc cs ds : List Char) (rest : Bytes) :
    textFrom acc (encode cs).reverse .plain (encode (ds.flatMap escapeChar) ++ quote :: rest) =
      .ok (acc.reverse ++ cs ++ ds, rest) := by
  induction ds generalizing acc cs with
  | nil =>
    rw [List.flatMap_nil, encode_nil, List.nil_append, textFrom_quote, List.append_nil]
  | cons d ds ih =>
    obtain ⟨acc', cs', hstep, hknown⟩ := advances_escapeChar d acc cs
      (encode (ds.flatMap escapeChar) ++ quote :: rest)
    rw [List.flatMap_cons, encode_append, List.append_assoc, hstep, ih, hknown,
      List.append_assoc, List.singleton_append]

theorem encode_renderText (s : String) :
    encode (renderText s) = quote :: (encode (s.toList.flatMap escapeChar) ++ [quote]) := by
  rw [renderText, List.cons_append, encode_cons, encode_append]
  rfl

/-- A printed string is read back. -/
theorem readText_render (s : String) (rest : Bytes) :
    readText (encode (s.toList.flatMap escapeChar) ++ quote :: rest) = .ok (s, rest) := by
  have h := textFrom_escaped [] [] s.toList rest
  rw [encode_nil, List.reverse_nil] at h
  rw [readText, h]
  simp only [bind, Except.bind, List.reverse_nil, List.nil_append, String.ofList_toList]

/-! ### Numbers -/

variable {ds : List Char} {n : Nat}

theorem isDigit_iff {b : UInt8} : isDigit b = true ↔ 48 ≤ b.toNat ∧ b.toNat ≤ 57 := by
  rw [isDigit, Bool.and_eq_true, decide_eq_true_eq, decide_eq_true_eq, UInt8.le_iff_toNat_le,
    UInt8.le_iff_toNat_le]
  rfl

theorem toNat_of_isDigit {c : Char} (h : c.isDigit = true) : 48 ≤ c.toNat ∧ c.toNat ≤ 57 := by
  rw [Char.isDigit, Bool.and_eq_true, decide_eq_true_eq, decide_eq_true_eq, ge_iff_le,
    UInt32.le_iff_toNat_le, UInt32.le_iff_toNat_le] at h
  exact h

/-- A digit is one byte, whose value is the digit's. -/
theorem encodeChar_digit {c : Char} (h : c.isDigit = true) :
    ∃ b, encodeChar c = [b] ∧ isDigit b = true ∧ b.toNat = c.toNat := by
  have hc := toNat_of_isDigit h
  have hb : c.toNat.toUInt8.toNat = c.toNat := toNat_toUInt8 (by omega)
  exact ⟨_, encodeChar_of_lt (by omega), isDigit_iff.2 (by omega), hb⟩

/-- A digit is nothing else. -/
theorem ne_of_isDigit {b x : UInt8} (hb : isDigit b = true) (hx : isDigit x = false) : b ≠ x := by
  rintro rfl
  rw [hb] at hx
  cases hx

theorem not_isSpace_of_isDigit {b : UInt8} (h : isDigit b = true) : isSpace b = false := by
  rw [isSpace, beq_eq_false_iff_ne.2 (ne_of_isDigit h rfl),
    beq_eq_false_iff_ne.2 (ne_of_isDigit h rfl), beq_eq_false_iff_ne.2 (ne_of_isDigit h rfl),
    beq_eq_false_iff_ne.2 (ne_of_isDigit h rfl)]
  rfl

/-- The first byte of a number is a digit. -/
theorem exists_encode_decimal (n : Nat) :
    ∃ b bs, encode (decimal n) = b :: bs ∧ isDigit b = true := by
  obtain ⟨c, cs, hd, hc, -⟩ := exists_decimal n
  obtain ⟨b, he, hb, -⟩ := encodeChar_digit hc
  exact ⟨b, encode cs, by rw [hd, encode_cons, he, List.singleton_append], hb⟩

theorem isDigit_of_mem_encode (h : ∀ c ∈ ds, c.isDigit = true) :
    ∀ b ∈ encode ds, isDigit b = true := by
  intro b hb
  obtain ⟨c, hc, hb⟩ := List.mem_flatMap.1 hb
  obtain ⟨b', he, hd, -⟩ := encodeChar_digit (h c hc)
  rw [he, List.mem_singleton] at hb
  rwa [hb]

/-- Digits are taken in as far as their value goes. -/
theorem takeWhole_encode {s : Nat} (h : ∀ c ∈ ds, c.isDigit = true)
    (hv : Nat.ofDigitChars 10 ds s ≤ significandMax) :
    takeWhole s (encode ds) = (Nat.ofDigitChars 10 ds s, 0) := by
  induction ds generalizing s with
  | nil => rfl
  | cons c ds ih =>
    obtain ⟨b, he, -, hb⟩ := encodeChar_digit (h c List.mem_cons_self)
    have hs : s * 10 + (b.toNat - 48) = 10 * s + (c.toNat - '0'.toNat) := by
      rw [hb, Nat.mul_comm]
      rfl
    rw [Nat.ofDigitChars_cons, ← hs] at hv
    -- the digits to come make the value no smaller
    have hle : s * 10 + (b.toNat - 48) ≤ significandMax := by
      rw [Nat.ofDigitChars_eq_ofDigitChars_zero] at hv
      have hpow : 0 < 10 ^ ds.length := Nat.pow_pos (by decide)
      have := Nat.le_mul_of_pos_left (s * 10 + (b.toNat - 48)) hpow
      omega
    rw [encode_cons, he, List.singleton_append, takeWhole]
    simp only [if_pos hle]
    rw [ih (fun c' hc' => h c' (List.mem_cons_of_mem c hc')) hv, Nat.ofDigitChars_cons, ← hs]

/-- Digits are read up to where they stop. -/
theorem spanDigits_append {bs : Bytes} (h : ∀ b ∈ bs, isDigit b = true)
    (hr : ∀ b ∈ rest.head?, isDigit b = false) : spanDigits (bs ++ rest) = (bs, rest) := by
  rw [spanDigits, List.span_eq_takeWhile_dropWhile, List.takeWhile_append_of_pos h,
    List.dropWhile_append_of_pos h]
  cases rest with
  | nil => simp
  | cons b rest => simp [hr b rfl]

theorem Delimits.not_isDigit (h : Delimits rest) : ∀ b ∈ rest.head?, isDigit b = false := by
  intro b hb
  rcases h b hb with rfl | rfl | rfl <;> decide

/-- A number is read back without a zero before it. -/
theorem readWhole_decimal (n : Nat) (hr : Delimits rest) :
    readWhole (encode (decimal n) ++ rest) = .ok (encode (decimal n), rest) := by
  obtain ⟨c, cs, hd, hc, h0⟩ := exists_decimal n
  obtain ⟨b, he, hb, hbc⟩ := encodeChar_digit hc
  have hspan := spanDigits_append
    (isDigit_of_mem_encode fun _ => isDigit_of_mem_decimal (n := n)) hr.not_isDigit
  have hcons : encode (decimal n) = b :: encode cs := by
    rw [hd, encode_cons, he, List.singleton_append]
  rw [hcons] at hspan ⊢
  rw [List.cons_append] at hspan ⊢
  rw [readWhole.eq_def]
  simp only
  split
  · -- a zero is the only digit
    rename_i hz
    have hcz : c = '0' := Char.toNat_inj.1 (hbc.symm.trans (congrArg UInt8.toNat hz))
    rw [(h0 hcz).2, encode_nil, List.nil_append]
    cases rest with
    | nil => rfl
    | cons b' rest =>
      simp only [hr.not_isDigit b' rfl, Bool.false_eq_true, if_false]
  · rw [hspan]

/-- Where a number ends there is no fraction. -/
theorem readFraction_of_delimits (hr : Delimits rest) : readFraction rest = .ok (none, rest) := by
  cases rest with
  | nil => rfl
  | cons b rest => rcases hr b rfl with rfl | rfl | rfl <;> rfl

/-- Nor is there an exponent. -/
theorem readExponent_of_delimits (hr : Delimits rest) : readExponent rest = .ok (none, rest) := by
  cases rest with
  | nil => rfl
  | cons b rest => rcases hr b rfl with rfl | rfl | rfl <;> rfl

/-- Printed digits are read back as an integer of their value. -/
theorem readNumber_decimal (negative : Bool) (hn : n < 2 ^ 64) (hr : Delimits rest) :
    readNumber negative (encode (decimal n) ++ rest) = .ok (ofInteger negative n, rest) := by
  have hw : takeWhole 0 (encode (decimal n)) = (n, 0) := by
    have h := takeWhole_encode (s := 0) (fun _ => isDigit_of_mem_decimal (n := n))
      (by rw [value_decimal]; exact Nat.le_pred_of_lt hn)
    rwa [value_decimal] at h
  have hv : Numeral.value negative ⟨encode (decimal n), none, none⟩ rest =
      .ok (ofInteger negative n) := by
    simp only [Numeral.value, hw, Option.getD_none, takeFraction, Option.isNone_none, and_self,
      if_true]
  rw [readNumber, readWhole_decimal n hr]
  simp only [bind, Except.bind, readFraction_of_delimits hr, readExponent_of_delimits hr, hv]

end Switchboard.Json
