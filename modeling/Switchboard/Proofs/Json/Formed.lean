/-
Switchboard/Proofs/Json/Formed.lean

What a reader makes of bytes.

Nothing is known of the bytes but that they are read.  The value that comes
out is `Formed`: its members are in order, its integers fit, and it is no
deeper than the reader was allowed to go (`formed_readValue`).  The reader is
followed along its own recursion, one level of brackets after the other; what
a loop over items or members keeps is what the taking in of one of them keeps.

Formed values are nearly those that survive printing and reading.  What they
may have beyond these is doubles, so that a value without any is `Portable`.
-/
import Switchboard.Proofs.Json.RoundTrip

namespace Switchboard

/-! ### Computations that succeed -/

/-- A computation that succeeds has two parts that do. -/
theorem bind_eq_ok {ε α β : Type} {x : Except ε α} {f : α → Except ε β} {b : β}
    (h : x >>= f = .ok b) : ∃ a, x = .ok a ∧ f a = .ok b := by
  cases x with
  | error e => cases h
  | ok a => exact ⟨a, rfl, h⟩

/-- A computation that succeeds has succeeded at every step. -/
theorem bind_eq_ok_iff {ε α β : Type} {x : Except ε α} {f : α → Except ε β} {b : β} :
    x >>= f = .ok b ↔ ∃ a, x = .ok a ∧ f a = .ok b := by
  refine ⟨bind_eq_ok, ?_⟩
  rintro ⟨a, rfl, h⟩
  exact h

theorem map_eq_ok {ε α β : Type} {x : Except ε α} {f : α → β} {b : β} (h : f <$> x = .ok b) :
    ∃ a, x = .ok a ∧ f a = b := by
  cases x with
  | error e => cases h
  | ok a =>
    cases h
    exact ⟨a, rfl, rfl⟩

/-! ### Values as they are read -/

/-- A value as a reader makes it: every integer in it is one that is kept as such, every record has
its members in ascending order, and there are at most so many levels of brackets. -/
inductive Json.Formed : Nat → Json → Prop where
  | null {depth : Nat} : Formed depth .null
  | flag {depth : Nat} (b : Bool) : Formed depth (.flag b)
  | integer {depth : Nat} {n : Int} : FitsInteger n → Formed depth (.integer n)
  | double {depth : Nat} (d : Double) : Formed depth (.double d)
  | text {depth : Nat} (s : String) : Formed depth (.text s)
  | list {depth : Nat} {items : List Json} : (∀ v ∈ items, Formed depth v) →
      Formed (depth + 1) (.list items)
  | record {depth : Nat} {members : Members} : members.Pairwise (fun m m' => m.1 < m'.1) →
      (∀ m ∈ members, Formed depth m.2) → Formed (depth + 1) (.record members)

namespace Json

mutual

/-- Is every number in the value an integer? -/
def isWhole : Json → Bool
  | .double _ => false
  | .list items => wholeItems items
  | .record members => wholeMembers members
  | _ => true

/-- Is every number in the items an integer? -/
def wholeItems : List Json → Bool
  | [] => true
  | v :: items => isWhole v && wholeItems items

/-- Is every number in the members an integer? -/
def wholeMembers : List (String × Json) → Bool
  | [] => true
  | (_, v) :: members => isWhole v && wholeMembers members

end

variable {bs rest : Bytes} {depth : Nat} {v : Json}

theorem wholeItems_iff {items : List Json} :
    wholeItems items = true ↔ ∀ v ∈ items, v.isWhole = true := by
  induction items with
  | nil => simp [wholeItems]
  | cons v items ih => rw [wholeItems, Bool.and_eq_true, ih, List.forall_mem_cons]

theorem wholeMembers_iff {members : Members} :
    wholeMembers members = true ↔ ∀ m ∈ members, m.2.isWhole = true := by
  induction members with
  | nil => simp [wholeMembers]
  | cons m members ih => rw [wholeMembers, Bool.and_eq_true, ih, List.forall_mem_cons]

/-- What a reader has made can be printed and read again, unless there is a double in it. -/
theorem Formed.portable (h : v.Formed depth) (hw : v.isWhole = true) : v.Portable depth := by
  induction h with
  | null => exact .null
  | flag b => exact .flag b
  | integer h => exact .integer h
  | double d =>
    rw [isWhole] at hw
    cases hw
  | text s => exact .text s
  | list _ ih =>
    rw [isWhole, wholeItems_iff] at hw
    exact .list fun v hv => ih v hv (hw v hv)
  | record hasc _ ih =>
    rw [isWhole, wholeMembers_iff] at hw
    exact .record hasc fun m hm => ih m hm (hw m hm)

/-! ### Numbers -/

/-- The significand that is taken is never too great. -/
theorem takeWhole_le {s : Nat} (hs : s ≤ significandMax) (digits : List UInt8) :
    (takeWhole s digits).1 ≤ significandMax := by
  induction digits generalizing s with
  | nil => exact hs
  | cons b digits ih =>
    rw [takeWhole]
    split
    · rename_i ht
      exact ih ht
    · exact hs

theorem takeFraction_le {s : Nat} (hs : s ≤ significandMax) (taken : Nat) (digits : List UInt8) :
    (takeFraction s taken digits).1 ≤ significandMax := by
  induction digits generalizing s taken with
  | nil => exact hs
  | cons b digits ih =>
    rw [takeFraction]
    split
    · rename_i ht
      exact ih ht (taken + 1)
    · exact hs

/-- A number that fits is well formed. -/
theorem formed_ofInteger {s : Nat} (hs : s ≤ significandMax) (negative : Bool) :
    (ofInteger negative s).Formed depth := by
  rw [significandMax] at hs
  rw [ofInteger]
  split_ifs with hn h0 hlow
  · exact .integer ⟨by omega, by omega⟩
  · exact .double _
  · exact .integer ⟨by omega, by omega⟩
  · split
    · exact .double _
    · exact .null

/-- Any number that is read is. -/
theorem formed_value {negative : Bool} {n : Numeral} (h : n.value negative rest = .ok v) :
    v.Formed depth := by
  have hs := takeFraction_le (takeWhole_le (Nat.zero_le _) n.whole) 0 (n.fraction.getD [])
  rw [Numeral.value] at h
  simp only at h
  -- but for a numeral that is all digits, what comes out is a double
  split at h
  · split at h
    · cases h
      exact formed_ofInteger hs negative
    · split at h <;> cases h
      exact .double _
  · split at h
    · split at h <;> cases h
      exact .double _
    · split at h <;> cases h
      exact .double _

theorem formed_readNumber {negative : Bool} (h : readNumber negative bs = .ok (v, rest)) :
    v.Formed depth := by
  obtain ⟨⟨whole, bs₁⟩, -, h⟩ := bind_eq_ok h
  obtain ⟨⟨fraction, bs₂⟩, -, h⟩ := bind_eq_ok h
  obtain ⟨⟨exponent, bs₃⟩, -, h⟩ := bind_eq_ok h
  obtain ⟨w, hw, h⟩ := bind_eq_ok h
  cases h
  exact formed_value hw

/-! ### Values without brackets -/

/-- So is any scalar. -/
theorem formed_readScalar {b : UInt8} (h : readScalar b bs = .ok (v, rest)) : v.Formed depth := by
  rw [readScalar] at h
  split_ifs at h
  · obtain ⟨_, -, h⟩ := bind_eq_ok h
    cases h
    exact .null
  · obtain ⟨_, -, h⟩ := bind_eq_ok h
    cases h
    exact .flag true
  · obtain ⟨_, -, h⟩ := bind_eq_ok h
    cases h
    exact .flag false
  · exact formed_readNumber h
  · exact formed_readNumber h
  · obtain ⟨⟨s, _⟩, -, h⟩ := bind_eq_ok h
    cases h
    exact .text s

/-! ### Lists and records -/

section Loops

variable {σ : Type} {P : σ → Prop} {a a' : σ}

/-- What the taking in of one item keeps, the whole list keeps. -/
theorem foldItems_keeps {step : ItemStep σ}
    (hstep : ∀ {a bs a' rest}, step a bs = .ok (a', rest) → P a → P a')
    (h : foldItems step a bs = .ok (a', rest)) (ha : P a) : P a' := by
  have hfrom : ∀ fuel first {bs a}, foldItemsFrom step fuel first a bs = .ok (a', rest) →
      P a → P a' := by
    intro fuel
    induction fuel with
    | zero =>
      intro first bs a h
      cases h
    | succ fuel ih =>
      intro first bs a h ha
      obtain ⟨ahead, -, h⟩ := bind_eq_ok h
      cases ahead with
      | close rest =>
        cases h
        exact ha
      | part rest =>
        obtain ⟨⟨a₁, rest₁⟩, hs, h⟩ := bind_eq_ok h
        exact ih false h (hstep hs ha)
  exact hfrom _ _ h ha

/-- What the taking in of one member keeps, the whole record keeps. -/
theorem foldMembers_keeps {step : MemberStep σ}
    (hstep : ∀ {a name bs a' rest}, step a name bs = .ok (a', rest) → P a → P a')
    (h : foldMembers step a bs = .ok (a', rest)) (ha : P a) : P a' := by
  have hfrom : ∀ fuel first {bs a}, foldMembersFrom step fuel first a bs = .ok (a', rest) →
      P a → P a' := by
    intro fuel
    induction fuel with
    | zero =>
      intro first bs a h
      cases h
    | succ fuel ih =>
      intro first bs a h ha
      obtain ⟨ahead, -, h⟩ := bind_eq_ok h
      cases ahead with
      | close rest =>
        cases h
        exact ha
      | part rest =>
        obtain ⟨⟨name, rest₁⟩, -, h⟩ := bind_eq_ok h
        obtain ⟨⟨a₁, rest₂⟩, hs, h⟩ := bind_eq_ok h
        exact ih false h (hstep hs ha)
  exact hfrom _ _ h ha

end Loops

variable {read : Bytes → Except Problem (Json × Bytes)}

/-- A list is well formed if its items are. -/
theorem formed_items {items : List Json}
    (hread : ∀ {bs v rest}, read bs = .ok (v, rest) → v.Formed depth)
    (h : foldItems (pushItem read) [] bs = .ok (items, rest)) : ∀ v ∈ items, v.Formed depth := by
  refine foldItems_keeps (P := fun items => ∀ v ∈ items, v.Formed depth) ?_ h (by simp)
  intro items bs items' rest hstep hitems
  obtain ⟨⟨v, _⟩, hv, hstep⟩ := bind_eq_ok hstep
  cases hstep
  exact List.forall_mem_cons.2 ⟨hread hv, hitems⟩

/-- A record is if its members are, which are in the order of their names. -/
theorem formed_members {members : Members}
    (hread : ∀ {bs v rest}, read bs = .ok (v, rest) → v.Formed depth)
    (h : foldMembers (pushMember read) [] bs = .ok (members, rest)) :
    members.Pairwise (fun m m' => m.1 < m'.1) ∧ ∀ m ∈ members, m.2.Formed depth := by
  refine foldMembers_keeps (P := fun members : Members =>
    members.Pairwise (fun m m' => m.1 < m'.1) ∧ ∀ m ∈ members, m.2.Formed depth) ?_ h
      ⟨.nil, by simp⟩
  rintro members name bs members' rest hstep ⟨hasc, hmembers⟩
  obtain ⟨bs₁, -, hstep⟩ := bind_eq_ok hstep
  obtain ⟨⟨v, _⟩, hv, hstep⟩ := bind_eq_ok hstep
  cases hstep
  refine ⟨pairwise_insert hasc, fun m hm => ?_⟩
  rcases mem_insert hm with rfl | hm
  · exact hread hv
  · exact hmembers m hm

/-- **Whatever is read is formed**, and no deeper than the reader may go. -/
theorem formed_readValue (h : readValue depth bs = .ok (v, rest)) : v.Formed depth := by
  induction depth generalizing bs v rest with
  | zero =>
    -- no bracket may open
    rw [readValue] at h
    split at h
    · cases h
    · split at h
      · cases h
      · split at h
        · cases h
        · exact formed_readScalar h
  | succ depth ih =>
    rw [readValue] at h
    split at h
    · cases h
    · split_ifs at h
      · obtain ⟨⟨items, _⟩, hitems, h⟩ := bind_eq_ok h
        cases h
        refine .list fun v hv => ?_
        exact formed_items ih hitems v (List.mem_reverse.1 hv)
      · obtain ⟨⟨members, _⟩, hmembers, h⟩ := bind_eq_ok h
        cases h
        obtain ⟨hasc, hall⟩ := formed_members ih hmembers
        exact .record hasc hall
      · exact formed_readScalar h

end Json

end Switchboard
