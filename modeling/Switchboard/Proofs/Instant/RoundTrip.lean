/-
Switchboard/Proofs/Instant/RoundTrip.lean

A moment is read back from its written form: years of any sign and length,
leap seconds and all fractions of a second included.

The written form has two digits for every number but the year and the
fraction, so the reader's numbers end where they should for one of two
reasons: their width is used up, or what follows is no digit.
-/
import Switchboard.Instant.Printer
import Switchboard.Instant.Reader
import Switchboard.Proofs.Text.Digits

namespace Switchboard.Instant

open Text

variable {ds rest : List Char} {n width : Nat}

/-! ### Numbers -/

/-- The value of digits, as the library has it. -/
theorem ofDigits_eq (ds : List Char) : ofDigits ds = Nat.ofDigitChars 10 ds 0 := by
  rw [ofDigits, Nat.ofDigitChars]
  refine congrArg (fun f => ds.foldl f 0) (funext fun n => funext fun c => ?_)
  rw [Nat.mul_comm]
  rfl

/-- What follows is no digit. -/
def Stops (rest : List Char) : Prop := ∀ c ∈ rest.head?, c.isDigit = false

theorem stops_cons {c : Char} (h : c.isDigit = false) : Stops (c :: rest) := by
  simpa [Stops] using h

/-- Digits are read up to where they stop. -/
theorem takeWhile_of_stops (h : Stops rest) : rest.takeWhile Char.isDigit = [] := by
  cases rest with
  | nil => rfl
  | cons c rest => rw [List.takeWhile_cons_of_neg (by simp [h c rfl])]

theorem dropWhile_of_stops (h : Stops rest) : rest.dropWhile Char.isDigit = rest := by
  cases rest with
  | nil => rfl
  | cons c rest => rw [List.dropWhile_cons_of_neg (by simp [h c rfl])]

/-- Digits are read as a number if the width ends with them or what follows is none. -/
theorem number_append (hd : ∀ c ∈ ds, c.isDigit = true) (hne : ds ≠ []) (hl : ds.length ≤ width)
    (hend : ds.length = width ∨ Stops rest) :
    number width (ds ++ rest) = .ok (ofDigits ds, rest) := by
  have hspan : ((ds ++ rest).take width).takeWhile Char.isDigit = ds := by
    rw [List.take_append, List.take_of_length_le hl, List.takeWhile_append_of_pos hd]
    rcases hend with h | h
    · rw [h, Nat.sub_self, List.take_zero, List.takeWhile_nil, List.append_nil]
    · -- what the width still lets in begins with no digit either
      have htake : Stops (rest.take (width - ds.length)) := by
        intro c hc
        rw [List.head?_take] at hc
        split at hc
        · cases hc
        · exact h c hc
      rw [takeWhile_of_stops htake, List.append_nil]
  obtain ⟨c, cs, rfl⟩ := List.exists_cons_of_ne_nil hne
  rw [List.cons_append] at hspan ⊢
  have hc := hd c List.mem_cons_self
  rw [number]
  simp only [hc, if_true, hspan, List.length_cons, List.drop_succ_cons, List.drop_left]

theorem padded_ne_nil (hw : 0 < width) (n : Nat) : padded width n ≠ [] :=
  List.ne_nil_of_length_pos (Nat.lt_of_lt_of_le hw (le_length_padded width n))

/-- A number in its width is read back. -/
theorem number_padded (hw : 0 < width) (hn : n < 10 ^ width) (rest : List Char) :
    number width (padded width n ++ rest) = .ok (n, rest) := by
  have hl := length_padded hw hn
  rw [number_append (fun _ => isDigit_of_mem_padded) (padded_ne_nil hw n) (Nat.le_of_eq hl)
    (.inl hl), ofDigits_eq, value_padded]

/-! ### Blanks and marks -/

theorem trimLeft_cons {c : Char} (h : isBlank c = false) : trimLeft (c :: rest) = c :: rest := by
  rw [trimLeft, List.dropWhile_cons_of_neg (by simp [h])]

theorem isBlank_of_isDigit {c : Char} (h : c.isDigit = true) : isBlank c = false := by
  rw [Char.isDigit, Bool.and_eq_true, decide_eq_true_eq, decide_eq_true_eq, ge_iff_le,
    UInt32.le_iff_toNat_le, UInt32.le_iff_toNat_le] at h
  obtain ⟨hl, hh⟩ := h
  have hl' : 48 ≤ c.toNat := hl
  have hh' : c.toNat ≤ 57 := hh
  simp only [isBlank, Bool.or_eq_false_iff, Bool.and_eq_false_iff, decide_eq_false_iff_not,
    beq_eq_false_iff_ne]
  omega

/-- No blank is skipped before a digit. -/
theorem trimLeft_digits (hd : ∀ c ∈ ds, c.isDigit = true) (hne : ds ≠ []) (rest : List Char) :
    trimLeft (ds ++ rest) = ds ++ rest := by
  obtain ⟨c, cs, rfl⟩ := List.exists_cons_of_ne_nil hne
  exact trimLeft_cons (isBlank_of_isDigit (hd c List.mem_cons_self))

theorem mark_cons {m : Char} (h : isBlank m = false) (rest : List Char) :
    mark m (m :: rest) = .ok rest := by
  rw [mark, trimLeft_cons h]
  simp only [if_true]

/-- A field of two digits is read back if it is in its range. -/
theorem field_padded {low high : Nat} (hl : low ≤ n) (hh : n ≤ high) (hhigh : high < 100)
    (rest : List Char) : field low high (padded 2 n ++ rest) = .ok (n, rest) := by
  rw [field, trimLeft_digits (fun _ => isDigit_of_mem_padded) (padded_ne_nil (by decide) n),
    number_padded (by decide) (by omega)]
  simp only [bind, Except.bind, if_pos (And.intro hl hh)]

/-! ### The year -/

/-- A year behind a sign is read to its last digit. -/
theorem number_signed (y : Nat) (h : Stops rest) :
    number (padded 4 y ++ rest).length (padded 4 y ++ rest) = .ok (y, rest) := by
  rw [number_append (fun _ => isDigit_of_mem_padded) (padded_ne_nil (by decide) y) (by simp)
    (.inr h), ofDigits_eq, value_padded]

/-- A year without a sign has four digits at most. -/
theorem year_unsigned {cs : List Char} (hd : ∀ c ∈ cs.head?, c.isDigit = true) (hne : cs ≠ []) :
    year cs = (number 4 cs).map fun r => ((r.1 : Int), r.2) := by
  obtain ⟨c, rest, rfl⟩ := List.exists_cons_of_ne_nil hne
  have hc := hd c rfl
  rw [year, trimLeft_cons (isBlank_of_isDigit hc)]
  simp only
  split
  · rename_i e
    cases e
    exact absurd hc (by decide)
  · rename_i e
    cases e
    exact absurd hc (by decide)
  · cases number 4 (c :: rest) <;> rfl

/-- A year that the calendar has is read back. -/
theorem year_text {y : Int} (hl : Date.minYear ≤ y) (hh : y ≤ Date.maxYear) (h : Stops rest) :
    year (yearText y ++ rest) = .ok (y, rest) := by
  simp only [Date.minYear, Date.maxYear] at hl hh
  rw [yearText]
  split
  · -- four digits, as they are
    rename_i hy
    have hne : padded 4 y.toNat ≠ [] := padded_ne_nil (by decide) y.toNat
    have hhead : ∀ c ∈ (padded 4 y.toNat ++ rest).head?, c.isDigit = true := by
      intro c hc
      rw [List.head?_append_of_ne_nil _ hne] at hc
      exact isDigit_of_mem_padded (List.mem_of_mem_head? hc)
    rw [year_unsigned hhead (by simp [hne]), number_padded (by decide) (by omega)]
    simp only [Except.map, Int.toNat_of_nonneg hy.1]
  · -- any other year has its sign before it
    rename_i hy
    rw [List.cons_append]
    by_cases hs : y < 0
    · rw [if_pos hs, year, trimLeft_cons rfl]
      simp only [bind, Except.bind, number_signed _ h]
      rw [if_pos (by rw [yearBound]; omega)]
      have hneg : -(y.natAbs : Int) = y := by omega
      rw [hneg]
    · rw [if_neg hs, year, trimLeft_cons rfl]
      simp only [bind, Except.bind, number_signed _ h]
      rw [if_pos (by rw [yearBound]; omega)]
      have hpos : (y.natAbs : Int) = y := by omega
      rw [hpos]

/-! ### The fraction -/

/-- A fraction is read back in nanoseconds, whatever its width. -/
theorem fraction_padded (hw : 0 < width) (hw9 : width ≤ 9) (hn : n < 10 ^ width) (h : Stops rest) :
    fraction ('.' :: (padded width n ++ rest)) = .ok (n * 10 ^ (9 - width), rest) := by
  have hl := length_padded hw hn
  have hnum : number 9 (padded width n ++ rest) = .ok (n, rest) := by
    rw [number_append (fun _ => isDigit_of_mem_padded) (padded_ne_nil hw n)
      ((Nat.le_of_eq hl).trans hw9) (.inr h), ofDigits_eq, value_padded]
  rw [fraction]
  simp only [bind, Except.bind, hnum, dropWhile_of_stops h, List.length_append, hl,
    Nat.add_sub_cancel, Nat.pow_eq]

/-- So the fraction that is printed is read back, also if there is none. -/
theorem fraction_text {nano : Nat} (hn : nano < 1000000000) {c : Char} (hc : c ≠ '.')
    (hd : c.isDigit = false) :
    fraction (fractionText nano ++ c :: rest) = .ok (nano, c :: rest) := by
  have hs : Stops (c :: rest) := stops_cons hd
  rw [fractionText]
  -- none, milliseconds, microseconds or nanoseconds
  split_ifs with h0 h3 h6
  · rw [List.nil_append, fraction, h0]
    intro rest' e
    exact hc (List.cons.inj e).1
  · rw [List.cons_append, fraction_padded (by decide) (by decide) (by omega) hs]
    have hv : nano / 1000000 * 10 ^ (9 - 3) = nano := by omega
    rw [hv]
  · rw [List.cons_append, fraction_padded (by decide) (by decide) (by omega) hs]
    have hv : nano / 1000 * 10 ^ (9 - 6) = nano := by omega
    rw [hv]
  · rw [List.cons_append, fraction_padded (by decide) (by decide) (by omega) hs]
    have hv : nano * 10 ^ (9 - 9) = nano := by omega
    rw [hv]

/-! ### The whole -/

/-- The mark of universal time stands for no offset. -/
theorem offset_utc : offset (trimLeft ['Z']) = .ok (0, []) := rfl

theorem ofNumbers?_self (t : Instant) :
    ofNumbers? t.date t.hour t.minute t.second t.nano = some t := by
  rw [ofNumbers?, dif_pos ⟨t.hour_lt, t.minute_lt, t.second_le, t.nano_lt⟩]

/-- Without an offset nothing is carried. -/
theorem ofLocal?_zero (t : Instant) : t.ofLocal? 0 = some t := by
  have hh := t.hour_lt
  have hm := t.minute_lt
  have hday : ((t.hour * 60 + t.minute : Nat) : Int) % dayMinutes =
      ((t.hour * 60 + t.minute : Nat) : Int) :=
    Int.emod_eq_of_lt (by omega) (by rw [dayMinutes]; omega)
  have hhour : (t.hour * 60 + t.minute) / 60 = t.hour := by omega
  have hminute : (t.hour * 60 + t.minute) % 60 = t.minute := by omega
  rw [ofLocal?]
  simp only [Int.sub_zero, hday, Int.toNat_natCast, hhour, hminute]
  rw [if_neg (by omega), if_neg (by rw [dayMinutes]; omega)]
  exact ofNumbers?_self t

/-- **A moment is read back from its written form.** -/
theorem ofChars_text (t : Instant) : ofChars t.text = .ok t := by
  obtain ⟨hly, hhy, hlm, hhm, hld, hhd⟩ := t.date.valid
  have hdays : t.date.day ≤ 31 := by
    refine Nat.le_trans hhd ?_
    rw [Date.daysIn]
    split_ifs <;> omega
  have hdate : Date.ofNumbers? t.date.year t.date.month t.date.day = some t.date := by
    rw [Date.ofNumbers?, dif_pos t.date.valid]
  rw [ofChars, text]
  simp only [List.append_assoc, List.cons_append]
  rw [year_text hly hhy (stops_cons rfl)]
  simp only [bind, Except.bind, mark_cons (m := '-') rfl, mark_cons (m := ':') rfl, between,
    field_padded hlm hhm (by decide), field_padded hld hdays (by decide),
    field_padded (Nat.zero_le _) (Nat.le_of_lt_succ t.hour_lt) (by decide),
    field_padded (Nat.zero_le _) (Nat.le_of_lt_succ t.minute_lt) (by decide),
    field_padded (Nat.zero_le _) t.second_le (by decide), true_or, if_true]
  -- behind the fraction stands the mark of the zero offset, and nothing after it
  rw [fraction_text t.nano_lt (by decide) rfl]
  simp only [offset_utc]
  have hend : ¬ (!(trimLeft []).isEmpty) = true := by decide
  have hoffset : ¬ dayMinutes ≤ ((0 : Int).natAbs : Int) := by decide
  rw [if_neg hend]
  simp only [hdate, orFault, ofNumbers?_self, if_neg hoffset, ofLocal?_zero]

end Switchboard.Instant
