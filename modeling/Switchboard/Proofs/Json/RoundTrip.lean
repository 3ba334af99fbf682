/-
Switchboard/Proofs/Json/RoundTrip.lean

Printed values are read back.

`Portable` names the values of which this holds: their numbers are integers
of 64 bits, their records have their members in order, and their brackets
nest no deeper than the reader goes.  The proof is by induction on that, with
anything behind the value that may follow one.

For lists and records the two loops are followed part by part.  How a loop
takes in the members of a record is left open (`Takes`), since the envelope
is read by the same loop in another way.
-/
import Switchboard.Json.Reader
import Switchboard.Proofs.Json.Lexeme

namespace Switchboard

/-- A value that survives printing and reading: every number in it is an integer that is kept as
one, every record has its members in ascending order, and there are at most so many levels of
brackets. -/
inductive Json.Portable : Nat → Json → Prop where
  | null {depth : Nat} : Portable depth .null
  | flag {depth : Nat} (b : Bool) : Portable depth (.flag b)
  | integer {depth : Nat} {n : Int} : FitsInteger n → Portable depth (.integer n)
  | text {depth : Nat} (s : String) : Portable depth (.text s)
  | list {depth : Nat} {items : List Json} : (∀ v ∈ items, Portable depth v) →
      Portable (depth + 1) (.list items)
  | record {depth : Nat} {members : Members} : members.Pairwise (fun m m' => m.1 < m'.1) →
      (∀ m ∈ members, Portable depth m.2) → Portable (depth + 1) (.record members)

namespace Json

open Text Utf8

variable {rest : Bytes} {depth : Nat} {v : Json}

/-! ### Blanks -/

theorem skipSpace_cons {b : UInt8} (h : isSpace b = false) : skipSpace (b :: rest) = b :: rest := by
  rw [skipSpace, List.dropWhile_cons_of_neg (by simp [h])]

/-- Bytes that begin a value: there is a first one, which is no blank and closes nothing. -/
def Opens (bs : Bytes) : Prop :=
  ∃ b after, bs = b :: after ∧ isSpace b = false ∧ b ≠ closeList

/-- A number begins with a digit, so no blank is skipped before it. -/
theorem opens_digits (n : Nat) : Opens (encode (decimal n)) := by
  obtain ⟨b, bs, hd, hb⟩ := exists_encode_decimal n
  exact ⟨b, bs, hd, not_isSpace_of_isDigit hb, ne_of_isDigit hb rfl⟩

/-- Whatever is printed begins with something that is neither a blank nor the end of a list. -/
theorem Portable.opens (h : Portable depth v) : Opens (encode (render v)) := by
  cases h with
  | null => exact ⟨110, [117, 108, 108], rfl, rfl, by decide⟩
  | flag b =>
    cases b with
    | true => exact ⟨116, [114, 117, 101], rfl, rfl, by decide⟩
    | false => exact ⟨102, [97, 108, 115, 101], rfl, rfl, by decide⟩
  | @integer _ n _ =>
    rw [render]
    cases n with
    | ofNat n => exact opens_digits n
    | negSucc n => exact ⟨minus, encode (decimal (n + 1)), rfl, rfl, by decide⟩
  | text s =>
    rw [render, encode_renderText]
    exact ⟨quote, _, rfl, rfl, by decide⟩
  | list _ =>
    rw [render]
    exact ⟨openList, _, rfl, rfl, by decide⟩
  | record _ _ =>
    rw [render]
    exact ⟨openRecord, _, rfl, rfl, by decide⟩

/-! ### Values without brackets -/

/-- What opens no list and no record is read as a scalar. -/
theorem readValue_scalar {b : UInt8} (hs : isSpace b = false) (hl : b ≠ openList)
    (hr : b ≠ openRecord) : readValue depth (b :: rest) = readScalar b rest := by
  rw [readValue.eq_def, skipSpace_cons hs]
  simp only [if_neg hl, if_neg hr]

theorem readScalar_digits {b : UInt8} (hb : isDigit b = true) :
    readScalar b rest = readNumber false (b :: rest) := by
  rw [readScalar, if_neg (ne_of_isDigit hb rfl), if_neg (ne_of_isDigit hb rfl),
    if_neg (ne_of_isDigit hb rfl), if_neg (ne_of_isDigit hb rfl), if_pos hb]

theorem readScalar_quote {bs : Bytes} {s : String} (h : readText bs = .ok (s, rest)) :
    readScalar quote bs = .ok (.text s, rest) := by
  have hb : readScalar quote bs = readText bs >>= fun r => .ok (.text r.1, r.2) := rfl
  rw [hb, h]
  rfl

/-- A natural number is read back if it has 64 bits. -/
theorem readValue_natural {n : Nat} (hn : n < 2 ^ 64) (hr : Delimits rest) :
    readValue depth (encode (decimal n) ++ rest) = .ok (.integer n, rest) := by
  obtain ⟨b, bs, hd, hb⟩ := exists_encode_decimal n
  have hread := readNumber_decimal false hn hr
  rw [hd, List.cons_append] at hread ⊢
  rw [readValue_scalar (not_isSpace_of_isDigit hb) (ne_of_isDigit hb rfl) (ne_of_isDigit hb rfl),
    readScalar_digits hb, hread]
  rfl

/-- And so is a negative one if its magnitude has 63. -/
theorem readValue_negative {n : Nat} (hn : n + 1 ≤ 2 ^ 63) (hr : Delimits rest) :
    readValue depth (minus :: (encode (decimal (n + 1)) ++ rest)) =
      .ok (.integer (Int.negSucc n), rest) := by
  have hread := readNumber_decimal (n := n + 1) true (by omega) hr
  have hi : ofInteger true (n + 1) = .integer (Int.negSucc n) := by
    rw [ofInteger, if_neg (by simp), if_neg (by omega), if_pos (by omega)]
    rfl
  rw [readValue_scalar rfl (by decide) (by decide)]
  rw [hi] at hread
  exact hread

/-! ### Lists -/

variable {items : List Json} {read : Bytes → Except Problem (Json × Bytes)}

/-- A reader takes in a value if what it finds behind it may follow one. -/
def Reads (read : Bytes → Except Problem (Json × Bytes)) (v : Json) : Prop :=
  ∀ rest, Delimits rest → read (encode (render v) ++ rest) = .ok (v, rest)

/-- Items behind the first, each with its comma. -/
def furtherItems (items : List Json) : Bytes :=
  items.flatMap fun v => comma :: encode (render v)

/-- The items of a list are printed one after the other. -/
theorem encode_renderItems (v : Json) (items : List Json) :
    encode (renderItems (v :: items)) = encode (render v) ++ furtherItems items := by
  induction items generalizing v with
  | nil => rw [renderItems, furtherItems, List.flatMap_nil, List.append_nil]
  | cons w items ih =>
    rw [renderItems, encode_append, encode_cons, ih, furtherItems, furtherItems,
      List.flatMap_cons]
    rfl

/-- Behind an item comes a comma or the end, which both end a number. -/
theorem delimits_further (items : List Json) (rest : Bytes) :
    Delimits (furtherItems items ++ closeList :: rest) := by
  cases items with
  | nil => exact delimits_cons (.inr (.inl rfl))
  | cons w items => exact delimits_cons (.inl rfl)

/-- There are no more items than bytes, so the fuel lasts. -/
theorem length_furtherItems (items : List Json) : items.length ≤ (furtherItems items).length := by
  induction items with
  | nil => exact Nat.zero_le _
  | cons v items ih =>
    rw [furtherItems, List.flatMap_cons, List.cons_append, List.length_cons, List.length_cons,
      List.length_append]
    rw [furtherItems] at ih
    omega

/-- An item that reads back is put before those read already. -/
theorem pushItem_reads (acc : List Json) (h : Reads read v) (hr : Delimits rest) :
    pushItem read acc (encode (render v) ++ rest) = .ok (v :: acc, rest) := by
  rw [pushItem, h rest hr]
  rfl

theorem nextItem_comma {bs : Bytes} (h : Opens bs) (rest : Bytes) :
    nextItem false (comma :: (bs ++ rest)) = .ok (.part (bs ++ rest)) := by
  obtain ⟨b, after, rfl, hs, hl⟩ := h
  rw [nextItem, skipSpace_cons rfl]
  have hc : comma ≠ closeList := by decide
  simp only [if_neg hc, Bool.false_eq_true, if_false, if_true, List.cons_append,
    skipSpace_cons hs, if_neg hl]

/-- The items behind the first are taken in one after the other. -/
theorem foldItemsFrom_further {fuel : Nat} {acc : List Json} (hread : ∀ v ∈ items, Reads read v)
    (hopen : ∀ v ∈ items, Opens (encode (render v))) (hfuel : items.length < fuel) :
    foldItemsFrom (pushItem read) fuel false acc (furtherItems items ++ closeList :: rest) =
      .ok (items.reverse ++ acc, rest) := by
  induction items generalizing fuel acc with
  | nil =>
    obtain ⟨fuel, rfl⟩ := Nat.exists_eq_add_of_lt hfuel
    rfl
  | cons v items ih =>
    obtain ⟨fuel, rfl⟩ : ∃ n, fuel = n + 1 := Nat.exists_eq_add_one.2 (Nat.zero_lt_of_lt hfuel)
    have hv : v ∈ v :: items := List.mem_cons_self
    have hnext := nextItem_comma (hopen v hv) (furtherItems items ++ closeList :: rest)
    have hpush := pushItem_reads acc (hread v hv) (delimits_further items rest)
    have hbytes : furtherItems (v :: items) ++ closeList :: rest =
        comma :: (encode (render v) ++ (furtherItems items ++ closeList :: rest)) := by
      rw [furtherItems, List.flatMap_cons, List.cons_append, List.cons_append, List.append_assoc]
      rfl
    rw [hbytes, foldItemsFrom, hnext]
    simp only [bind, Except.bind, hpush]
    rw [ih (fun w hw => hread w (List.mem_cons_of_mem v hw))
      (fun w hw => hopen w (List.mem_cons_of_mem v hw)) (Nat.lt_of_succ_lt_succ hfuel)]
    simp

/-- The items of a printed list are read back, the last one first. -/
theorem foldItems_render (hread : ∀ v ∈ items, Reads read v)
    (hopen : ∀ v ∈ items, Opens (encode (render v))) (rest : Bytes) :
    foldItems (pushItem read) [] (encode (renderItems items) ++ closeList :: rest) =
      .ok (items.reverse, rest) := by
  cases items with
  | nil => rfl
  | cons v items =>
    have hv : v ∈ v :: items := List.mem_cons_self
    have hlen := length_furtherItems items
    obtain ⟨b, after, hb, hs, hl⟩ := hopen v hv
    have hpush := pushItem_reads [] (hread v hv) (delimits_further items rest)
    rw [hb, List.cons_append] at hpush
    have hnext : nextItem true (b :: (after ++ (furtherItems items ++ closeList :: rest))) =
        .ok (.part (b :: (after ++ (furtherItems items ++ closeList :: rest)))) := by
      rw [nextItem, skipSpace_cons hs]
      simp only [if_neg hl, if_true]
    rw [foldItems, encode_renderItems, hb, List.append_assoc, List.cons_append, foldItemsFrom,
      hnext]
    simp only [bind, Except.bind, hpush]
    rw [foldItemsFrom_further (fun w hw => hread w (List.mem_cons_of_mem v hw))
      (fun w hw => hopen w (List.mem_cons_of_mem v hw))]
    · simp
    · simp only [List.length_cons, List.length_append]
      omega

/-! ### Records -/

section Members

variable {σ : Type} {step : MemberStep σ} {a a' : σ} {ms : Members} {k : String}

/-- A loop over members gets from one state to another by taking in the members listed, each from
behind its name, and whatever follows that may follow a value. -/
inductive Takes (step : MemberStep σ) : σ → Members → σ → Prop where
  | nil (a : σ) : Takes step a [] a
  | cons {a a' a'' : σ} {k : String} {v : Json} {ms : Members} :
      (∀ rest, Delimits rest → step a k (colon :: (encode (render v) ++ rest)) = .ok (a', rest)) →
      Takes step a' ms a'' → Takes step a ((k, v) :: ms) a''

/-- A name behind its opening quote, and the colon and value that go with it. -/
def member (m : String × Json) : Bytes :=
  encode (m.1.toList.flatMap escapeChar) ++ quote :: colon :: encode (render m.2)

/-- Members behind the first, each with its comma. -/
def furtherMembers (ms : Members) : Bytes := ms.flatMap fun m => comma :: quote :: member m

theorem encode_renderMember (k : String) (v : Json) :
    encode (renderText k ++ ':' :: render v) = quote :: member (k, v) := by
  rw [encode_append, encode_renderText, member, List.cons_append, List.append_assoc]
  rfl

/-- The same of the members of a record. -/
theorem encode_renderMembers (m : String × Json) (ms : Members) :
    encode (renderMembers (m :: ms)) = quote :: (member m ++ furtherMembers ms) := by
  induction ms generalizing m with
  | nil =>
    rw [renderMembers, furtherMembers, List.flatMap_nil, List.append_nil]
    exact encode_renderMember m.1 m.2
  | cons m' ms ih =>
    rw [renderMembers, encode_append, encode_renderMember, encode_cons, ih, furtherMembers,
      furtherMembers, List.flatMap_cons]
    rfl

theorem delimits_furtherMembers (ms : Members) (rest : Bytes) :
    Delimits (furtherMembers ms ++ closeRecord :: rest) := by
  cases ms with
  | nil => exact delimits_cons (.inr (.inr rfl))
  | cons m ms => exact delimits_cons (.inl rfl)

theorem length_furtherMembers (ms : Members) : ms.length ≤ (furtherMembers ms).length := by
  induction ms with
  | nil => exact Nat.zero_le _
  | cons m ms ih =>
    rw [furtherMembers, List.flatMap_cons, List.cons_append, List.length_cons, List.length_cons,
      List.length_append]
    rw [furtherMembers] at ih
    omega

/-- A member begins with its name. -/
theorem readText_member (rest : Bytes) :
    readText (member (k, v) ++ rest) = .ok (k, colon :: (encode (render v) ++ rest)) := by
  rw [member, List.append_assoc, List.cons_append, readText_render]
  rfl

theorem nextMember_first (rest : Bytes) : nextMember true (quote :: rest) = .ok (.part rest) := rfl

theorem nextMember_comma (rest : Bytes) :
    nextMember false (comma :: quote :: rest) = .ok (.part rest) := rfl

/-- The members behind the first are taken one by one. -/
theorem foldMembersFrom_further {fuel : Nat} (h : Takes step a ms a') (hfuel : ms.length < fuel) :
    foldMembersFrom step fuel false a (furtherMembers ms ++ closeRecord :: rest) =
      .ok (a', rest) := by
  induction h generalizing fuel with
  | nil a =>
    obtain ⟨fuel, rfl⟩ := Nat.exists_eq_add_of_lt hfuel
    rfl
  | @cons a a' a'' k v ms hstep _ ih =>
    obtain ⟨fuel, rfl⟩ : ∃ n, fuel = n + 1 := Nat.exists_eq_add_one.2 (Nat.zero_lt_of_lt hfuel)
    have hbytes : furtherMembers ((k, v) :: ms) ++ closeRecord :: rest =
        comma :: quote :: (member (k, v) ++ (furtherMembers ms ++ closeRecord :: rest)) := by
      rw [furtherMembers, List.flatMap_cons, List.cons_append, List.cons_append, List.cons_append,
        List.cons_append, List.append_assoc]
      rfl
    rw [hbytes, foldMembersFrom, nextMember_comma]
    simp only [bind, Except.bind, readText_member, hstep _ (delimits_furtherMembers ms rest)]
    exact ih (Nat.lt_of_succ_lt_succ hfuel)

/-- The members of a printed record are taken in. -/
theorem foldMembers_render (h : Takes step a ms a') (rest : Bytes) :
    foldMembers step a (encode (renderMembers ms) ++ closeRecord :: rest) = .ok (a', rest) := by
  cases h with
  | nil => rfl
  | @cons _ a' _ k v ms hstep htakes =>
    have hlen := length_furtherMembers ms
    rw [foldMembers, encode_renderMembers, List.cons_append, List.append_assoc, foldMembersFrom,
      nextMember_first]
    simp only [bind, Except.bind, readText_member, hstep _ (delimits_furtherMembers ms rest)]
    refine foldMembersFrom_further htakes ?_
    simp only [List.length_cons, List.length_append]
    omega

end Members

/-! ### Members in order -/

/-- A name behind all others goes to the end. -/
theorem insert_last {ms : Members} {k : String} (h : ∀ m ∈ ms, m.1 < k) :
    Members.insert k v ms = ms ++ [(k, v)] := by
  induction ms with
  | nil => rfl
  | cons m ms ih =>
    have hm : m.1 < k := h m List.mem_cons_self
    rw [Members.insert, if_neg (lt_asymm hm), if_neg hm.ne',
      ih fun m' hm' => h m' (List.mem_cons_of_mem m hm')]
    rfl

/-- Inserting a member gives back none but it and the others. -/
theorem mem_insert {ms : Members} {k : String} {m : String × Json}
    (h : m ∈ Members.insert k v ms) : m = (k, v) ∨ m ∈ ms := by
  induction ms with
  | nil => exact .inl (List.mem_singleton.1 h)
  | cons m' ms ih =>
    rw [Members.insert] at h
    split_ifs at h with hlt heq
    · exact List.mem_cons.1 h
    · exact (List.mem_cons.1 h).imp_right (List.mem_cons_of_mem m')
    · rcases List.mem_cons.1 h with rfl | h
      · exact .inr List.mem_cons_self
      · exact (ih h).imp_right (List.mem_cons_of_mem m')

/-- Inserting keeps the order of the names. -/
theorem pairwise_insert {ms : Members} {k : String} (h : ms.Pairwise fun m m' => m.1 < m'.1) :
    (Members.insert k v ms).Pairwise fun m m' => m.1 < m'.1 := by
  induction ms with
  | nil => exact List.pairwise_singleton _ _
  | cons m ms ih =>
    obtain ⟨hm, hms⟩ := List.pairwise_cons.1 h
    rw [Members.insert]
    split_ifs with hlt heq
    · -- the name goes before all others
      refine List.pairwise_cons.2 ⟨fun m' hm' => ?_, h⟩
      rcases List.mem_cons.1 hm' with rfl | hm'
      · exact hlt
      · exact lt_trans hlt (hm m' hm')
    · -- it takes the place of one that is the same
      exact List.pairwise_cons.2 ⟨fun m' hm' => heq ▸ hm m' hm', hms⟩
    · have hgt : m.1 < k := lt_of_le_of_ne (not_lt.1 hlt) (Ne.symm heq)
      refine List.pairwise_cons.2 ⟨fun m' hm' => ?_, ih hms⟩
      rcases mem_insert hm' with rfl | hm'
      · exact hgt
      · exact hm m' hm'

/-- A record made of members in any order, and of several of a name, has them in order. -/
theorem portable_ofMembers {ms : List (String × Json)} (h : ∀ m ∈ ms, m.2.Portable depth) :
    (ofMembers ms).Portable (depth + 1) := by
  -- what has been inserted so far is in order, whatever comes next
  have hfold : ∀ acc : Members, acc.Pairwise (fun m m' => m.1 < m'.1) →
      (∀ m ∈ acc, m.2.Portable depth) →
      (Json.record (ms.foldl (fun acc m => Members.insert m.1 m.2 acc) acc)).Portable
        (depth + 1) := by
    induction ms with
    | nil => exact fun acc hasc hp => .record hasc hp
    | cons m ms ih =>
      intro acc hasc hp
      refine ih (fun m' hm' => h m' (List.mem_cons_of_mem m hm')) _ (pairwise_insert hasc) ?_
      intro m' hm'
      rcases mem_insert hm' with rfl | hm'
      · exact h m List.mem_cons_self
      · exact hp m' hm'
  exact hfold [] .nil (by simp)

/-- In the order of their names members are taken as they stand. -/
theorem takes_pushMember (acc : Members) {ms : Members} (hread : ∀ m ∈ ms, Reads read m.2)
    (h : (acc ++ ms).Pairwise fun m m' => m.1 < m'.1) :
    Takes (pushMember read) acc ms (acc ++ ms) := by
  induction ms generalizing acc with
  | nil =>
    rw [List.append_nil]
    exact .nil acc
  | cons m ms ih =>
    obtain ⟨k, v⟩ := m
    have hlast : ∀ m ∈ acc, m.1 < k := fun m hm =>
      (List.pairwise_append.1 h).2.2 m hm (k, v) List.mem_cons_self
    have happ : acc ++ (k, v) :: ms = (acc ++ [(k, v)]) ++ ms := by simp
    -- the name comes after all that have been taken in, so its member goes to the end
    have hone : ∀ rest, Delimits rest →
        pushMember read acc k (colon :: (encode (render v) ++ rest)) =
          .ok (acc ++ [(k, v)], rest) := by
      intro rest hr
      have hcolon : readColon (colon :: (encode (render v) ++ rest)) =
          .ok (encode (render v) ++ rest) := rfl
      have hv := hread (k, v) List.mem_cons_self rest hr
      simp only [pushMember, hcolon, hv, bind, Except.bind, insert_last hlast]
    refine .cons hone ?_
    rw [happ] at h ⊢
    exact ih _ (fun m hm => hread m (List.mem_cons_of_mem _ hm)) h

/-! ### Values -/

/-- A list is read by its items, at one depth less. -/
theorem readValue_list (depth : Nat) (bs : Bytes) : readValue (depth + 1) (openList :: bs) =
    (do
      let (items, rest) ← foldItems (pushItem fun bs => readValue depth bs) [] bs
      .ok (.list items.reverse, rest)) := by
  rw [readValue.eq_def, skipSpace_cons rfl]
  rfl

/-- A record is read by its members, at one depth less. -/
theorem readValue_record (depth : Nat) (bs : Bytes) : readValue (depth + 1) (openRecord :: bs) =
    (do
      let (members, rest) ← foldMembers (pushMember fun bs => readValue depth bs) [] bs
      .ok (.record members, rest)) := by
  rw [readValue.eq_def, skipSpace_cons rfl]
  rfl

/-- **A printed value is read back, whatever follows it that may follow a value.** -/
theorem Portable.reads (h : Portable depth v) : Reads (readValue depth) v := by
  induction h with
  | null =>
    intro rest _
    rw [render]
    exact readValue_scalar rfl (by decide) (by decide)
  | flag b =>
    intro rest _
    cases b <;>
    · rw [render]
      exact readValue_scalar rfl (by decide) (by decide)
  | @integer depth n h =>
    intro rest hr
    obtain ⟨hlow, hhigh⟩ := h
    rw [render]
    -- the two signs have different bounds
    cases n with
    | ofNat n =>
      rw [Int.ofNat_eq_natCast] at hhigh
      exact readValue_natural (by omega) hr
    | negSucc n => exact readValue_negative (by omega) hr
  | text s =>
    intro rest _
    rw [render, encode_renderText, List.cons_append, List.append_assoc, List.singleton_append,
      readValue_scalar rfl (by decide) (by decide)]
    exact readScalar_quote (readText_render s rest)
  | @list depth items h ih =>
    -- the items are read one level deeper, and are taken in from the last to the first
    intro rest _
    have hbytes : encode (render (.list items)) ++ rest =
        openList :: (encode (renderItems items) ++ closeList :: rest) := by
      rw [render, List.cons_append, encode_cons, encode_append, List.append_assoc,
        List.append_assoc]
      rfl
    rw [hbytes, readValue_list, foldItems_render ih fun v hv => (h v hv).opens]
    simp only [bind, Except.bind, List.reverse_reverse]
  | @record depth members hasc h ih =>
    intro rest _
    have hbytes : encode (render (.record members)) ++ rest =
        openRecord :: (encode (renderMembers members) ++ closeRecord :: rest) := by
      rw [render, List.cons_append, encode_cons, encode_append, List.append_assoc,
        List.append_assoc]
      rfl
    rw [hbytes, readValue_record, foldMembers_render (takes_pushMember [] ih hasc)]
    rfl

end Json

end Switchboard
