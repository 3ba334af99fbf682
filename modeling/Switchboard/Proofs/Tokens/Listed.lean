/-
Switchboard/Proofs/Tokens/Listed.lean

What a list of tokens says, told without the pass that reads it.  The list is
its parts joined by commas, an entry is a part without the blanks around it,
and an entry that gives a token is of one of two shapes (`Gives`).

Main statement: `ofText_of_lists`, which lists are read, what is said of the
others, and whom each token stands for in the table that comes out.  One entry
read changes the table by `find?_insert`; the whole list is read by
`find?_of_readAll`, by induction on the entries.
-/
import Mathlib.Data.List.DropRight
import Mathlib.Data.List.Forall2
import Mathlib.Data.List.TakeDrop
import Switchboard.Tokens

namespace Switchboard

namespace TokenTable

open Text

/-! ### Parts -/

/-- The text is split at its commas. -/
theorem splitCommas_eq (cs : List Char) : splitCommas cs = cs.splitOn ',' := by
  induction cs with
  | nil => rfl
  | cons c cs ih =>
    rw [splitCommas, List.splitOn_cons_eq_if_modifyHead, ih]
    by_cases h : c = ','
    · simp [h]
    · cases hcs : cs.splitOn ',' with
      | nil => exact absurd hcs (List.splitOn_ne_nil ',' cs)
      | cons p ps => simp [h]

theorem not_mem_of_mem_splitCommas {cs p : List Char} (hp : p ∈ splitCommas cs) : ',' ∉ p := by
  induction cs generalizing p with
  | nil => simp_all [splitCommas]
  | cons c cs ih =>
    rw [splitCommas] at hp
    split at hp
    · rcases List.mem_cons.1 hp with rfl | hp
      · simp
      · exact ih hp
    · rename_i hc
      cases hcs : splitCommas cs with
      | nil => simp_all [Ne.symm hc]
      | cons q qs =>
        rw [hcs] at hp
        rcases List.mem_cons.1 hp with rfl | hp
        · have hq := ih (hcs ▸ List.mem_cons_self)
          simp [Ne.symm hc, hq]
        · exact ih (hcs ▸ List.mem_cons_of_mem _ hp)

/-- There is one way to take a text apart at its commas. -/
theorem splitCommas_eq_iff {cs : List Char} {parts : List (List Char)} :
    splitCommas cs = parts ↔
      parts ≠ [] ∧ (∀ part ∈ parts, ',' ∉ part) ∧ [','].intercalate parts = cs := by
  constructor
  · rintro rfl
    exact ⟨splitCommas_eq cs ▸ List.splitOn_ne_nil ',' cs, fun _ => not_mem_of_mem_splitCommas,
      splitCommas_eq cs ▸ List.intercalate_splitOn ','⟩
  · rintro ⟨hne, hplain, rfl⟩
    rw [splitCommas_eq, List.splitOn_intercalate ',' hplain hne]

/-- It is split at the first of the characters. -/
theorem splitAt?_append {c : Char} {front back : List Char} (h : c ∉ front) :
    splitAt? c (front ++ c :: back) = some (front, back) := by
  have hfront : ∀ d ∈ front, (d != c) = true := fun d hd => bne_iff_ne.2 (ne_of_mem_of_not_mem hd h)
  simp only [splitAt?, List.span_eq_takeWhile_dropWhile, List.takeWhile_append_of_pos hfront,
    List.dropWhile_append_of_pos hfront]
  simp

theorem splitAt?_eq_none_iff {c : Char} {cs : List Char} : splitAt? c cs = none ↔ c ∉ cs := by
  constructor
  · intro h hc
    obtain ⟨front, back, rfl, hfront⟩ := List.eq_append_cons_of_mem hc
    rw [splitAt?_append hfront] at h
    cases h
  · intro h
    have hcs : ∀ d ∈ cs, (d != c) = true := fun d hd => bne_iff_ne.2 (ne_of_mem_of_not_mem hd h)
    have hdrop : cs.dropWhile (· != c) = [] := List.dropWhile_eq_nil_iff.2 hcs
    simp [splitAt?, hdrop]

/-- A text can be split at a character in one way only. -/
theorem splitAt?_eq_some_iff {c : Char} {cs front back : List Char} :
    splitAt? c cs = some (front, back) ↔ cs = front ++ c :: back ∧ c ∉ front := by
  constructor
  · intro h
    have hc : c ∈ cs := by
      by_contra hc
      rw [splitAt?_eq_none_iff.2 hc] at h
      cases h
    obtain ⟨front', back', rfl, hfront⟩ := List.eq_append_cons_of_mem hc
    rw [splitAt?_append hfront] at h
    cases h
    exact ⟨rfl, hfront⟩
  · rintro ⟨rfl, hfront⟩
    exact splitAt?_append hfront

/-! ### Entries -/

/-- The part is the entry between blanks, and no blank begins or ends the entry. -/
def Trimmed (part e : List Char) : Prop :=
  (∃ front back, part = front ++ e ++ back ∧ ∀ c ∈ front ++ back, isBlank c = true) ∧
    ∀ c, e.head? = some c ∨ e.getLast? = some c → isBlank c = false

/-- Blanks are dropped at both ends. -/
theorem trim_eq_rdropWhile (part : List Char) :
    trim part = (part.dropWhile isBlank).rdropWhile isBlank := rfl

theorem trimmed_trim (part : List Char) : Trimmed part (trim part) := by
  rw [trim_eq_rdropWhile]
  refine ⟨⟨part.takeWhile isBlank, (part.dropWhile isBlank).rtakeWhile isBlank, ?_, ?_⟩, ?_⟩
  · rw [List.append_assoc, List.rdropWhile_append_rtakeWhile, List.takeWhile_append_dropWhile]
  · intro c hc
    rcases List.mem_append.1 hc with hc | hc
    · exact List.mem_takeWhile_imp hc
    · exact List.mem_rtakeWhile_imp hc
  · rintro c (hc | hc)
    · obtain ⟨tail, htail⟩ := List.rdropWhile_prefix isBlank (l := part.dropWhile isBlank)
      have hnot := List.head?_dropWhile_not isBlank part
      rw [← htail, List.head?_append, hc] at hnot
      exact hnot
    · obtain ⟨hne, rfl⟩ := List.mem_getLast?_eq_getLast hc
      simpa using List.rdropWhile_last_not isBlank _ hne

/-- An entry cut out of a part is the only one. -/
theorem Trimmed.eq_trim {part e : List Char} (h : Trimmed part e) : e = trim part := by
  obtain ⟨⟨front, back, rfl, hblank⟩, hends⟩ := h
  have hfront : ∀ c ∈ front, isBlank c = true := fun c hc => hblank c (List.mem_append_left _ hc)
  have hback : ∀ c ∈ back, isBlank c = true := fun c hc => hblank c (List.mem_append_right _ hc)
  rw [trim_eq_rdropWhile, List.append_assoc, List.dropWhile_append_of_pos hfront]
  cases e with
  | nil =>
    have hdrop : back.dropWhile isBlank = [] := List.dropWhile_eq_nil_iff.2 hback
    rw [List.nil_append, hdrop, List.rdropWhile_nil]
  | cons c e =>
    have hc : isBlank c = false := hends c (.inl rfl)
    have hdrop : (c :: e ++ back).dropWhile isBlank = c :: e ++ back := by simp [hc]
    have hrdrop : (c :: e ++ back).rdropWhile isBlank = (c :: e).rdropWhile isBlank := by
      rw [List.rdropWhile, List.reverse_append,
        List.dropWhile_append_of_pos fun d hd => hback d (List.mem_reverse.1 hd), List.rdropWhile]
    rw [hdrop, hrdrop, eq_comm, List.rdropWhile_eq_self_iff]
    intro hne
    rw [Bool.not_eq_true]
    exact hends _ (.inr (List.getLast?_eq_some_getLast hne))

/-- There is one way to do that. -/
theorem trimmed_iff {part e : List Char} : Trimmed part e ↔ e = trim part :=
  ⟨Trimmed.eq_trim, fun h => h ▸ trimmed_trim part⟩

/-- The text lists these entries: they are its parts between commas, trimmed, less the empty
ones. -/
def Lists (s : String) (es : List (List Char)) : Prop :=
  ∃ parts trimmed : List (List Char), parts ≠ [] ∧ (∀ part ∈ parts, ',' ∉ part) ∧
    [','].intercalate parts = s.toList ∧ List.Forall₂ Trimmed parts trimmed ∧
    es = trimmed.filter (· ≠ [])

/-- A text lists its entries, and no others. -/
theorem lists_iff {s : String} {es : List (List Char)} : Lists s es ↔ es = entries s := by
  have hforall : ∀ {parts trimmed : List (List Char)},
      List.Forall₂ Trimmed parts trimmed ↔ trimmed = parts.map trim := by
    intro parts trimmed
    have htrimmed : Trimmed = fun part e => trim part = e :=
      funext₂ fun _ _ => propext (trimmed_iff.trans eq_comm)
    rw [htrimmed, ← List.forall₂_map_left_iff, List.forall₂_eq_eq_eq, eq_comm]
  have hfilter : ∀ trimmed : List (List Char),
      trimmed.filter (· ≠ []) = trimmed.filter (!·.isEmpty) := by
    intro trimmed
    congr 1
    funext e
    cases e <;> simp
  constructor
  · rintro ⟨parts, trimmed, hne, hplain, hjoin, htrim, rfl⟩
    rw [hforall.1 htrim, hfilter, entries, splitCommas_eq_iff.2 ⟨hne, hplain, hjoin⟩]
  · rintro rfl
    obtain ⟨hne, hplain, hjoin⟩ := splitCommas_eq_iff.1 (rfl : splitCommas s.toList = _)
    exact ⟨_, _, hne, hplain, hjoin, hforall.2 rfl, (hfilter _).symm⟩

/-- The entry gives the token to this owner: the token ends at the first equals sign, the user at
the first colon after it, if there is one. -/
inductive Gives : List Char → String → Owner → Prop
  | user {token user : List Char} (plain : '=' ∉ token) (filled : token ≠ [])
      (bare : ':' ∉ user) (named : user ≠ []) :
      Gives (token ++ '=' :: user) (String.ofList token) ⟨String.ofList user, none⟩
  | session {token user session : List Char} (plain : '=' ∉ token) (filled : token ≠ [])
      (bare : ':' ∉ user) (named : user ≠ []) :
      Gives (token ++ '=' :: (user ++ ':' :: session)) (String.ofList token)
        ⟨String.ofList user, some (String.ofList session)⟩

/-- An owner without a colon has no session. -/
theorem ownerOf_bare {user : List Char} (bare : ':' ∉ user) :
    ownerOf user = ⟨String.ofList user, none⟩ := by
  rw [ownerOf, splitAt?_eq_none_iff.2 bare]

/-- And one with a colon has what is behind the first. -/
theorem ownerOf_session {user session : List Char} (bare : ':' ∉ user) :
    ownerOf (user ++ ':' :: session) =
      ⟨String.ofList user, some (String.ofList session)⟩ := by
  rw [ownerOf, splitAt?_append bare]

theorem entryOf_append {token owner : List Char} (plain : '=' ∉ token) :
    entry? (token ++ '=' :: owner) =
      if token.isEmpty || (ownerOf owner).user.isEmpty then none
      else some (String.ofList token, ownerOf owner) := by
  unfold entry?
  rw [splitAt?_append plain]
  rfl

/-- **An entry is read if and only if it has the form.** -/
theorem entryOf_eq_some_iff {e : List Char} {token : String} {owner : Owner} :
    entry? e = some (token, owner) ↔ Gives e token owner := by
  constructor
  · intro h
    cases he : splitAt? '=' e with
    | none =>
      unfold entry? at h
      rw [he] at h
      cases h
    | some parts =>
      obtain ⟨t, who⟩ := parts
      obtain ⟨rfl, plain⟩ := splitAt?_eq_some_iff.1 he
      rw [entryOf_append plain] at h
      cases hw : splitAt? ':' who with
      | none =>
        have bare := splitAt?_eq_none_iff.1 hw
        rw [ownerOf_bare bare] at h
        obtain ⟨filled, named, rfl, rfl⟩ : t ≠ [] ∧ who ≠ [] ∧ String.ofList t = token ∧
            ⟨String.ofList who, none⟩ = owner := by
          simpa [and_assoc] using h
        exact .user plain filled bare named
      | some parts =>
        obtain ⟨user, session⟩ := parts
        obtain ⟨rfl, bare⟩ := splitAt?_eq_some_iff.1 hw
        rw [ownerOf_session bare] at h
        obtain ⟨filled, named, rfl, rfl⟩ : t ≠ [] ∧ user ≠ [] ∧ String.ofList t = token ∧
            ⟨String.ofList user, some (String.ofList session)⟩ = owner := by
          simpa [and_assoc] using h
        exact .session plain filled bare named
  · rintro (⟨plain, filled, bare, named⟩ | ⟨plain, filled, bare, named⟩)
    · rw [entryOf_append plain, ownerOf_bare bare]
      simp [filled, named]
    · rw [entryOf_append plain, ownerOf_session bare]
      simp [filled, named]

/-! ### The table -/

theorem lookup_cons_ite (p : String × Owner) (ps : List (String × Owner)) (token : String) :
    (p :: ps).lookup token = if token = p.1 then some p.2 else ps.lookup token := by
  rw [List.lookup_cons]
  by_cases h : token = p.1
  · simp [h]
  · simp [h, beq_false_of_ne h]

theorem lookup_filter_ne (owners : List (String × Owner)) (token token' : String) :
    (owners.filter (·.1 != token)).lookup token' =
      if token' = token then none else owners.lookup token' := by
  induction owners with
  | nil => simp
  | cons p ps ih =>
    by_cases hp : p.1 = token
    · rw [List.filter_cons_of_neg (by simpa using hp), ih, lookup_cons_ite, hp]
      by_cases h : token' = token <;> simp [h]
    · rw [List.filter_cons_of_pos (by simpa using hp), lookup_cons_ite, lookup_cons_ite, ih]
      by_cases h : token' = token
      · simp [h, Ne.symm hp]
      · simp [h]

/-- Of the table with an entry more, that entry is found under its token. -/
theorem find?_insert (t : TokenTable) (token token' : String) (owner : Owner) :
    (t.insert token owner).find? token' =
      if token' = token then some owner else t.find? token' := by
  rw [find?, insert, List.lookup_append, lookup_filter_ne, lookup_cons_ite]
  by_cases h : token' = token <;> simp [h, find?]

/-- The tokens that the table knows. -/
def tokens (t : TokenTable) : List String := t.owners.map (·.1)

/-- The tokens of the table are those that it finds. -/
theorem mem_tokens_iff {t : TokenTable} {token : String} :
    token ∈ t.tokens ↔ ∃ owner, t.find? token = some owner := by
  rw [← Option.ne_none_iff_exists', Ne, find?, List.lookup_eq_none_iff, tokens, List.mem_map]
  simp only [bne_iff_ne, not_forall, not_not, exists_prop, @eq_comm _ token]

/-- A token that is given again moves to the end. -/
theorem tokens_insert (t : TokenTable) (token : String) (owner : Owner) :
    (t.insert token owner).tokens = t.tokens.filter (· != token) ++ [token] := by
  simp [tokens, insert, List.filter_map, Function.comp_def]

/-- A token is listed once, whatever is inserted. -/
theorem nodup_tokens_insert {t : TokenTable} (h : t.tokens.Nodup) (token : String)
    (owner : Owner) : (t.insert token owner).tokens.Nodup := by
  rw [tokens_insert]
  refine List.nodup_append.2 ⟨h.filter _, List.pairwise_singleton _ _, ?_⟩
  simp

/-! ### Reading the list -/

/-- One entry read into the table. -/
def read (t : TokenTable) (e : List Char) : Except Trouble TokenTable :=
  match entry? e with
  | some (token, owner) => .ok (t.insert token owner)
  | none => .error (.settings ("invalid token entry '" ++ String.ofList e ++ "'"))

/-- Entries read into the table one after the other. -/
def readAll (t : TokenTable) (es : List (List Char)) : Except Trouble TokenTable := es.foldlM read t

theorem ofText_eq (s : String) : ofText s = empty.readAll (entries s) := rfl

theorem readAll_cons (t : TokenTable) (e : List Char) (es : List (List Char)) :
    t.readAll (e :: es) = (t.read e).bind (·.readAll es) := by
  rw [readAll, List.foldlM_cons]
  rfl

/-- The entry gives some token to somebody. -/
def Given (e : List Char) : Prop := ∃ token owner, Gives e token owner

/-- An entry of the form is put into the table. -/
theorem read_of_gives {t : TokenTable} {e : List Char} {token : String} {owner : Owner}
    (h : Gives e token owner) : t.read e = .ok (t.insert token owner) := by
  rw [read, entryOf_eq_some_iff.2 h]

/-- And any other is an error that tells it. -/
theorem read_of_not_given {t : TokenTable} {e : List Char} (h : ¬ Given e) :
    t.read e = .error (.settings ("invalid token entry '" ++ String.ofList e ++ "'")) := by
  have hnone : entry? e = none := by
    cases he : entry? e with
    | none => rfl
    | some p => exact absurd ⟨p.1, p.2, entryOf_eq_some_iff.1 he⟩ h
  rw [read, hnone]

/-- An entry gives one token to one owner. -/
theorem Gives.unique {e : List Char} {token token' : String} {owner owner' : Owner}
    (h : Gives e token owner) (h' : Gives e token' owner') : token = token' ∧ owner = owner' := by
  rw [← entryOf_eq_some_iff] at h h'
  simpa using h.symm.trans h'

/-- The last of the entries for the token gives it to this owner. -/
def LastGives (es : List (List Char)) (token : String) (owner : Owner) : Prop :=
  ∃ front e back, es = front ++ e :: back ∧ Gives e token owner ∧
    ∀ e' ∈ back, ∀ owner', ¬ Gives e' token owner'

/-- Which entry is the last for a token, entry by entry. -/
theorem lastGives_cons {e : List Char} {es : List (List Char)} {token : String} {owner : Owner} :
    LastGives (e :: es) token owner ↔ LastGives es token owner ∨
      Gives e token owner ∧ ∀ e' ∈ es, ∀ owner', ¬ Gives e' token owner' := by
  constructor
  · rintro ⟨front, e', back, heq, hgives, hback⟩
    cases front with
    | nil =>
      obtain ⟨rfl, rfl⟩ := List.cons.inj heq
      exact .inr ⟨hgives, hback⟩
    | cons d front =>
      obtain ⟨rfl, rfl⟩ := List.cons.inj heq
      exact .inl ⟨front, e', back, rfl, hgives, hback⟩
  · rintro (⟨front, e', back, rfl, hgives, hback⟩ | ⟨hgives, hes⟩)
    · exact ⟨e :: front, e', back, rfl, hgives, hback⟩
    · exact ⟨[], e, es, rfl, hgives, hes⟩

/-- A list is read if each of its entries gives a token. -/
theorem readAll_ok_iff {t : TokenTable} {es : List (List Char)} :
    (∃ t', t.readAll es = .ok t') ↔ ∀ e ∈ es, Given e := by
  induction es generalizing t with
  | nil => simp [readAll, pure, Except.pure]
  | cons e es ih =>
    rw [readAll_cons]
    by_cases he : Given e
    · obtain ⟨token, owner, hgives⟩ := he
      rw [read_of_gives hgives]
      have hgiven : Given e := ⟨token, owner, hgives⟩
      simpa [Except.bind, hgiven] using ih (t := t.insert token owner)
    · simp [read_of_not_given he, Except.bind, he]

/-- What is said of a list that is not read names its first entry that gives no token. -/
theorem readAll_error_iff {t : TokenTable} {es : List (List Char)} {trouble : Trouble} :
    t.readAll es = .error trouble ↔ ∃ front e back, es = front ++ e :: back ∧
      (∀ e' ∈ front, Given e') ∧ ¬ Given e ∧
      trouble = .settings ("invalid token entry '" ++ String.ofList e ++ "'") := by
  induction es generalizing t with
  | nil => simp [readAll, pure, Except.pure]
  | cons e es ih =>
    rw [readAll_cons]
    by_cases he : Given e
    · obtain ⟨token, owner, hgives⟩ := id he
      rw [read_of_gives hgives]
      refine (ih (t := t.insert token owner)).trans ⟨?_, ?_⟩
      · rintro ⟨front, d, back, rfl, hfront, hd, htrouble⟩
        exact ⟨e :: front, d, back, rfl, List.forall_mem_cons.2 ⟨he, hfront⟩, hd, htrouble⟩
      · rintro ⟨front, d, back, heq, hfront, hd, htrouble⟩
        cases front with
        | nil =>
          obtain ⟨rfl, rfl⟩ := List.cons.inj heq
          exact absurd he hd
        | cons c front =>
          obtain ⟨rfl, rfl⟩ := List.cons.inj heq
          exact ⟨front, d, back, rfl, (List.forall_mem_cons.1 hfront).2, hd, htrouble⟩
    · rw [read_of_not_given he]
      constructor
      · rintro ⟨⟩
        exact ⟨[], e, es, rfl, by simp, he, rfl⟩
      · rintro ⟨front, d, back, heq, hfront, hd, rfl⟩
        cases front with
        | nil =>
          obtain ⟨rfl, rfl⟩ := List.cons.inj heq
          rfl
        | cons c front =>
          obtain ⟨rfl, rfl⟩ := List.cons.inj heq
          exact absurd (List.forall_mem_cons.1 hfront).1 he

/-- The step of reading: the entry just read stands above what was found before. -/
theorem readAll_cons_ok {t t' : TokenTable} {e : List Char} {es : List (List Char)}
    (h : t.readAll (e :: es) = .ok t') :
    ∃ token owner, Gives e token owner ∧ (t.insert token owner).readAll es = .ok t' := by
  rw [readAll_cons] at h
  by_cases he : Given e
  · obtain ⟨token, owner, hgives⟩ := he
    rw [read_of_gives hgives] at h
    exact ⟨token, owner, hgives, h⟩
  · rw [read_of_not_given he] at h
    cases h

/-- A token stands for whom the last entry for it gives it to, or else for whom it stood for
before. -/
theorem find?_of_readAll {t t' : TokenTable} {es : List (List Char)} (h : t.readAll es = .ok t')
    {token : String} {owner : Owner} :
    t'.find? token = some owner ↔ LastGives es token owner ∨
      t.find? token = some owner ∧ ∀ e ∈ es, ∀ owner', ¬ Gives e token owner' := by
  induction es generalizing t with
  | nil =>
    cases h
    simp [LastGives]
  | cons e es ih =>
    obtain ⟨token₀, owner₀, hgives, h⟩ := readAll_cons_ok h
    rw [ih h, lastGives_cons, find?_insert, List.forall_mem_cons]
    by_cases htoken : token = token₀
    · subst htoken
      have howner : Gives e token owner ↔ owner₀ = owner :=
        ⟨fun h => (hgives.unique h).2, fun h => h ▸ hgives⟩
      have hgiven : ¬ ∀ owner', ¬ Gives e token owner' := fun h => h _ hgives
      simp [howner, hgiven]
    · have hnot : ∀ owner', ¬ Gives e token owner' := fun _ h => htoken (h.unique hgives).1
      simp [htoken, hnot]

theorem nodup_tokens_of_readAll {t t' : TokenTable} {es : List (List Char)}
    (h : t.readAll es = .ok t') (ht : t.tokens.Nodup) : t'.tokens.Nodup := by
  induction es generalizing t with
  | nil =>
    cases h
    exact ht
  | cons e es ih =>
    obtain ⟨token, owner, -, h⟩ := readAll_cons_ok h
    exact ih h (nodup_tokens_insert ht token owner)

/-- Some entry is the last for a token, if there is one. -/
theorem exists_lastGives_iff {es : List (List Char)} {token : String} :
    (∃ owner, LastGives es token owner) ↔ ∃ e ∈ es, ∃ owner, Gives e token owner := by
  induction es with
  | nil => simp [LastGives]
  | cons e es ih =>
    simp only [lastGives_cons, exists_or, ih, List.exists_mem_cons_iff]
    by_cases h : ∃ e' ∈ es, ∃ owner, Gives e' token owner
    · exact iff_of_true (.inl h) (.inr h)
    · have hes : ∀ e' ∈ es, ∀ owner, ¬ Gives e' token owner := by simpa using h
      simp only [h, false_or, or_false, and_iff_left hes]

/-- **Which lists of tokens are read, and what they say.**  A text lists entries in one way only.
It is read if each of them gives a token; if not, the first that gives none is named.  In the table
that comes out a token is accepted as the user of the last entry for it, in the session that this
entry names or else in the fresh one, a token without an entry is refused, and no token is counted
twice. -/
theorem ofText_of_lists (s : String) : (∃! es, Lists s es) ∧ ∀ es, Lists s es →
    ((∃ t, ofText s = .ok t) ↔ ∀ e ∈ es, ∃ token owner, Gives e token owner) ∧
    (∀ trouble, ofText s = .error trouble ↔ ∃ front e back, es = front ++ e :: back ∧
      (∀ e' ∈ front, ∃ token owner, Gives e' token owner) ∧
      (¬ ∃ token owner, Gives e token owner) ∧
      trouble = .settings ("invalid token entry '" ++ String.ofList e ++ "'")) ∧
    ∀ t, ofText s = .ok t →
      (∀ fresh token who, t.check fresh token = .accepted who ↔ ∃ owner,
        LastGives es token owner ∧ who = ⟨owner.user, owner.session.getD fresh⟩) ∧
      (∀ fresh token, t.check fresh token = .refused "invalid token" ↔
        ∀ e ∈ es, ∀ owner, ¬ Gives e token owner) ∧
      ∃ known : List String, known.Nodup ∧
        (∀ token, token ∈ known ↔ ∃ e ∈ es, ∃ owner, Gives e token owner) ∧
        t.size = known.length := by
  refine ⟨⟨_, lists_iff.2 rfl, fun _ h => lists_iff.1 h⟩, fun es hes => ?_⟩
  obtain rfl := lists_iff.1 hes
  simp only [ofText_eq]
  refine ⟨readAll_ok_iff, fun trouble => readAll_error_iff, fun t ht => ?_⟩
  have hfind : ∀ token owner, t.find? token = some owner ↔ LastGives (entries s) token owner := by
    intro token owner
    have hempty : empty.find? token = none := rfl
    rw [find?_of_readAll ht, hempty]
    simp
  have hknown : ∀ token, token ∈ t.tokens ↔ ∃ e ∈ entries s, ∃ owner, Gives e token owner := by
    intro token
    simp only [mem_tokens_iff, hfind, exists_lastGives_iff]
  refine ⟨fun fresh token who => ?_, fun fresh token => ?_,
    t.tokens, nodup_tokens_of_readAll ht List.nodup_nil, hknown, (List.length_map _).symm⟩
  · rw [check]
    cases hlook : t.find? token with
    | none => simp [← hfind, hlook]
    | some owner => simp [← hfind, hlook, eq_comm]
  · have hrefused : t.check fresh token = .refused "invalid token" ↔ t.find? token = none := by
      rw [check]
      cases t.find? token <;> simp
    rw [hrefused, Option.eq_none_iff_forall_ne_some]
    have hno := not_congr (mem_tokens_iff.symm.trans (hknown token))
    simpa using hno

example : ∃ t, ofText " t=ann,, t=ben:=: " = .ok t ∧ t.size = 1 ∧
    t.check "fresh" "t" = .accepted ⟨"ben", "=:"⟩ := ⟨_, rfl, rfl, rfl⟩

end TokenTable

end Switchboard
