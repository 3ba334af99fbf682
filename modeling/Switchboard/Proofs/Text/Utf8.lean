/-
Switchboard/Proofs/Text/Utf8.lean

Reading the bytes of a text gives the text back.

A character's bytes bring the reader from where no character is under way to
where the character has been read, whatever follows; so a text is read
character by character.  Besides, only the characters below 128 have bytes
below 128, and they have no other: no mark of the grammar hides in the bytes
of another character.
-/
import Mathlib
import Switchboard.Text.Utf8

namespace Switchboard.Utf8

variable {c : Char} {cs : List Char} {rest : Bytes}

/-! ### Numbers as bytes -/

theorem toNat_toUInt8 {n : Nat} (h : n < 256) : n.toUInt8.toNat = n := by
  rw [Nat.toUInt8, UInt8.toNat_ofNat', Nat.mod_eq_of_lt h]

theorem toNat_lt (c : Char) : c.toNat < 0x110000 := by
  have h := c.valid
  simp only [UInt32.isValidChar, Nat.isValidChar] at h
  simp only [Char.toNat]
  omega

theorem not_surrogate (c : Char) : ¬ (0xD800 ≤ c.toNat ∧ c.toNat < 0xE000) := by
  have h := c.valid
  simp only [UInt32.isValidChar, Nat.isValidChar] at h
  simp only [Char.toNat]
  omega

/-! ### One character -/

theorem encodeChar_of_lt (h : c.toNat < 0x80) : encodeChar c = [c.toNat.toUInt8] := by
  simp only [encodeChar, if_pos h]

/-- The bytes of the other characters are none of the smaller ones. -/
theorem le_of_mem_encodeChar (h : 0x80 ≤ c.toNat) {b : UInt8} (hb : b ∈ encodeChar c) :
    0x80 ≤ b.toNat := by
  have hlt := toNat_lt c
  have hge : ∀ n : Nat, 0x80 ≤ n → n < 256 → b = n.toUInt8 → 0x80 ≤ b.toNat := by
    rintro n hn hn' rfl
    rwa [toNat_toUInt8 hn']
  simp only [encodeChar, if_neg (Nat.not_lt.2 h)] at hb
  -- of two, three and four bytes
  split at hb
  · simp only [List.mem_cons, List.not_mem_nil, or_false] at hb
    rcases hb with hb | hb <;> exact hge _ (by omega) (by omega) hb
  · split at hb
    · simp only [List.mem_cons, List.not_mem_nil, or_false] at hb
      rcases hb with hb | hb | hb <;> exact hge _ (by omega) (by omega) hb
    · simp only [List.mem_cons, List.not_mem_nil, or_false] at hb
      rcases hb with hb | hb | hb | hb <;> exact hge _ (by omega) (by omega) hb

/-! ### Reading a character -/

theorem decodeFrom_ascii {acc : List Char} {b : UInt8} (h : b.toNat < 0x80) :
    decodeFrom acc none (b :: rest) = decodeFrom (Char.ofNat b.toNat :: acc) none rest := by
  rw [decodeFrom, if_pos h]

/-- A leading byte puts its character under way. -/
theorem decodeFrom_opening {acc : List Char} {n : Nat} {p : Pending} (h : n < 256) (hn : 0x80 ≤ n)
    (hp : opening n = some p) :
    decodeFrom acc none (n.toUInt8 :: rest) = decodeFrom acc (some p) rest := by
  rw [decodeFrom, toNat_toUInt8 h, if_neg (Nat.not_lt.2 hn), hp]

/-- A further byte brings it on. -/
theorem decodeFrom_further {acc : List Char} {n : Nat} {p : Pending} (h : n < 256)
    (hl : p.low ≤ n) (hh : n ≤ p.high) (ho : 1 < p.owed) :
    decodeFrom acc (some p) (n.toUInt8 :: rest) =
      decodeFrom acc (some ⟨p.used + 1, p.owed - 1, 0x80, 0xBF, p.bits * 64 + (n - 0x80)⟩)
        rest := by
  rw [decodeFrom, toNat_toUInt8 h, if_pos ⟨hl, hh⟩]
  simp only [if_neg (Nat.not_le.2 ho)]

/-- The last byte ends it. -/
theorem decodeFrom_last {acc : List Char} {n : Nat} {p : Pending} (h : n < 256)
    (hl : p.low ≤ n) (hh : n ≤ p.high) (ho : p.owed = 1) :
    decodeFrom acc (some p) (n.toUInt8 :: rest) =
      decodeFrom (Char.ofNat (p.bits * 64 + (n - 0x80)) :: acc) none rest := by
  rw [decodeFrom, toNat_toUInt8 h, if_pos ⟨hl, hh⟩]
  simp only [ho, Nat.le_refl, if_true]

/-- What a character of three bytes has under way after its first, and that its second is in
range: not overlong, and no surrogate. -/
theorem opening_three {n : Nat} (h : 0x800 ≤ n) (h' : n < 0x10000)
    (hs : ¬ (0xD800 ≤ n ∧ n < 0xE000)) :
    ∃ low high, opening (0xE0 + n / 4096) = some ⟨1, 2, low, high, n / 4096⟩ ∧
      low ≤ 0x80 + n / 64 % 64 ∧ 0x80 + n / 64 % 64 ≤ high := by
  have hq : n / 4096 < 16 := by omega
  have hlead : ¬ 0xE0 + n / 4096 < 0xC2 ∧ ¬ 0xE0 + n / 4096 < 0xE0 := by omega
  rw [opening, if_neg hlead.1, if_neg hlead.2]
  by_cases h0 : n / 4096 = 0
  · -- the second byte may not be too small
    rw [if_pos (by omega), h0]
    exact ⟨_, _, rfl, by omega, by omega⟩
  · rw [if_neg (by omega)]
    by_cases hd : n / 4096 = 13
    · -- nor may it begin a surrogate
      rw [if_pos (by omega), hd]
      exact ⟨_, _, rfl, by omega, by omega⟩
    · rw [if_neg (by omega), if_pos (by omega), Nat.add_sub_cancel_left]
      exact ⟨_, _, rfl, by omega, by omega⟩

/-- The same of a character of four bytes: not overlong, and not past the last character. -/
theorem opening_four {n : Nat} (h : 0x10000 ≤ n) (h' : n < 0x110000) :
    ∃ low high, opening (0xF0 + n / 262144) = some ⟨1, 3, low, high, n / 262144⟩ ∧
      low ≤ 0x80 + n / 4096 % 64 ∧ 0x80 + n / 4096 % 64 ≤ high := by
  have hq : n / 262144 < 5 := by omega
  have hlead : ¬ 0xF0 + n / 262144 < 0xC2 ∧ ¬ 0xF0 + n / 262144 < 0xE0 ∧
      ¬ 0xF0 + n / 262144 = 0xE0 ∧ ¬ 0xF0 + n / 262144 = 0xED ∧
      ¬ 0xF0 + n / 262144 < 0xF0 := by omega
  rw [opening, if_neg hlead.1, if_neg hlead.2.1, if_neg hlead.2.2.1, if_neg hlead.2.2.2.1,
    if_neg hlead.2.2.2.2]
  by_cases h0 : n / 262144 = 0
  · rw [if_pos (by omega), h0]
    exact ⟨_, _, rfl, by omega, by omega⟩
  · rw [if_neg (by omega)]
    by_cases h4 : n / 262144 = 4
    · -- the second byte may not be too great
      rw [if_neg (by omega), if_pos (by omega), h4]
      exact ⟨_, _, rfl, by omega, by omega⟩
    · rw [if_pos (by omega), Nat.add_sub_cancel_left]
      exact ⟨_, _, rfl, by omega, by omega⟩

/-- The bytes of a character are read as that character, whatever follows. -/
theorem decodeFrom_encodeChar (acc : List Char) (c : Char) (rest : Bytes) :
    decodeFrom acc none (encodeChar c ++ rest) = decodeFrom (c :: acc) none rest := by
  have hlt := toNat_lt c
  have hs := not_surrogate c
  have hchar : ∀ {n : Nat}, n = c.toNat → Char.ofNat n = c := by
    rintro n rfl
    exact Char.ofNat_toNat c
  simp only [encodeChar]
  split
  · -- one byte
    rename_i h1
    rw [List.singleton_append, decodeFrom_ascii (by rwa [toNat_toUInt8 (by omega)]),
      toNat_toUInt8 (by omega), hchar rfl]
  · rename_i h1
    split
    · -- two bytes
      rename_i h2
      have ho : opening (0xC0 + c.toNat / 64) = some ⟨1, 1, 0x80, 0xBF, c.toNat / 64⟩ := by
        rw [opening, if_neg (by omega), if_pos (by omega), Nat.add_sub_cancel_left]
      simp only [List.cons_append, List.nil_append]
      rw [decodeFrom_opening (by omega) (by omega) ho,
        decodeFrom_last (by omega) (by simp) (by show _ ≤ 0xBF; omega) rfl, hchar]
      simp only
      omega
    · rename_i h2
      split
      · -- three bytes
        rename_i h3
        obtain ⟨low, high, ho, hl, hh⟩ := opening_three (by omega) h3 hs
        simp only [List.cons_append, List.nil_append]
        rw [decodeFrom_opening (by omega) (by omega) ho,
          decodeFrom_further (by omega) hl hh (by simp),
          decodeFrom_last (by omega) (by simp) (by show _ ≤ 0xBF; omega) rfl, hchar]
        simp only
        omega
      · -- four bytes
        rename_i h3
        obtain ⟨low, high, ho, hl, hh⟩ := opening_four (by omega) hlt
        simp only [List.cons_append, List.nil_append]
        rw [decodeFrom_opening (by omega) (by omega) ho,
          decodeFrom_further (by omega) hl hh (by simp),
          decodeFrom_further (by omega) (by simp) (by show _ ≤ 0xBF; omega) (by simp),
          decodeFrom_last (by omega) (by simp) (by show _ ≤ 0xBF; omega) rfl, hchar]
        simp only
        omega

/-! ### Whole texts -/

@[simp] theorem encode_nil : encode [] = [] := rfl

@[simp] theorem encode_cons : encode (c :: cs) = encodeChar c ++ encode cs := rfl

@[simp] theorem encode_append (cs ds : List Char) : encode (cs ++ ds) = encode cs ++ encode ds :=
  List.flatMap_append

theorem decodeFrom_encode (acc cs : List Char) :
    decodeFrom acc none (encode cs) = .ok (acc.reverse ++ cs) := by
  induction cs generalizing acc with
  | nil => rw [encode_nil, decodeFrom, List.append_nil]
  | cons c cs ih =>
    rw [encode_cons, decodeFrom_encodeChar, ih, List.reverse_cons, List.append_assoc,
      List.singleton_append]

/-- **Reading the bytes of a text gives the text.** -/
theorem decode_encode (cs : List Char) : decode (encode cs) = .ok cs := decodeFrom_encode [] cs

end Switchboard.Utf8
