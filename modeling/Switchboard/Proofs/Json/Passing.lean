/-
Switchboard/Proofs/Json/Passing.lean

Every value is passed over, of whatever size and depth.

The passing over takes one turn for each token, or two, and it keeps the open
brackets on a list of its own.  What one value, one part of a bracket and all
parts of a bracket do to it is told alike: after so many turns it looks for
what comes behind them, with the brackets that were open before.  The turns
are fewer than twice the bytes, so that the fuel lasts.

Main statement: `skipValue_spaced`, from `IsValue.passes` by induction on the
grammar.
-/
import Switchboard.Json.Skip
import Switchboard.Proofs.Json.Blanks

namespace Switchboard.Json

open Text

variable {ts more : List Bytes} {token bs rest : Bytes} {b : UInt8}

/-! ### Strings and numbers -/

/-- A text is passed over up to its closing quote. -/
theorem skipTextFrom_quoted {body : Bytes} (h : IsQuoted body) (rest : Bytes) :
    skipTextFrom .plain (body ++ quote :: rest) = .ok rest := by
  induction h with
  | nil => rfl
  | verbatim hb _ ih =>
    rw [List.cons_append, skipTextFrom, if_neg hb.1, if_neg hb.2.1, if_neg hb.2.2, ih]
  | @short b x body hb _ ih =>
    have hq : backslash ≠ quote := by decide
    simp only [List.cons_append, skipTextFrom, if_neg hq, if_neg (ne_of_shortEscape? hb), hb,
      Option.isSome_some, if_true, ih]
  | @hex b₁ b₂ b₃ b₄ n body hn _ ih =>
    have hq : backslash ≠ quote := by decide
    simp [skipTextFrom, hq, hn, ih]

theorem IsText.skipText (h : IsText token) : ∃ body, token = quote :: body ∧ ∀ rest,
    skipText (body ++ rest) = .ok rest := by
  obtain ⟨body, hquoted, rfl⟩ := h
  refine ⟨body ++ [quote], rfl, fun rest => ?_⟩
  rw [List.append_assoc, List.singleton_append, Json.skipText, skipTextFrom_quoted hquoted]

variable {whole fraction exponent : Bytes}

theorem dropWhile_isDigit_append {ds : Bytes} (h : ∀ b ∈ ds, isDigit b = true)
    (hr : ∀ b ∈ rest.head?, isDigit b = false) : (ds ++ rest).dropWhile isDigit = rest := by
  have hspan := spanDigits_append h hr
  rw [spanDigits, List.span_eq_takeWhile_dropWhile] at hspan
  exact congrArg Prod.snd hspan

/-- A number is passed over part by part, the exponent last. -/
theorem skipExponentPart_append (h : IsExponent exponent) (hr : Breaks rest) :
    skipExponentPart (exponent ++ rest) = .ok rest := by
  obtain rfl | ⟨e, sign, ds, he, hsign, hdigits, rfl⟩ := h
  · cases rest with
    | nil => rfl
    | cons b rest =>
      rw [List.nil_append, skipExponentPart, if_neg (not_or.2 (hr.not_mem b rfl).2.2)]
  · have hdrop : ∀ {ds : Bytes}, (∀ b ∈ ds, isDigit b = true) →
        (ds ++ rest).dropWhile isDigit = rest :=
      fun h => dropWhile_isDigit_append h fun b hb => (hr.not_mem b hb).1
    obtain ⟨b, ds, rfl, hb⟩ := hdigits.starts
    have hds := hdrop fun c hc => hdigits.2 c (List.mem_cons_of_mem b hc)
    have h43 : b ≠ 43 := ne_of_isDigit hb rfl
    have h45 : b ≠ 45 := ne_of_isDigit hb rfl
    rw [List.cons_append, skipExponentPart, if_pos he]
    rcases hsign with rfl | rfl | rfl <;> simp [skipExponent, hb, hds, h43, h45]

theorem skipFractionPart_append (h : IsFraction fraction) (he : IsExponent exponent)
    (hr : Breaks rest) : skipFractionPart (fraction ++ (exponent ++ rest)) = .ok rest := by
  have hhead := he.head_append hr
  obtain rfl | ⟨ds, hdigits, rfl⟩ := h
  · rw [List.nil_append, skipFractionPart.eq_def]
    split
    · rename_i heq
      exact absurd rfl (hhead 46 (by rw [heq]; rfl)).2
    · exact skipExponentPart_append he hr
  · obtain ⟨b, ds, rfl, hb⟩ := hdigits.starts
    have hds := dropWhile_isDigit_append (fun c hc => hdigits.2 c (List.mem_cons_of_mem b hc))
      fun c hc => (hhead c hc).1
    rw [List.cons_append, List.cons_append, skipFractionPart.eq_def]
    simp only [if_pos hb, hds]
    exact skipExponentPart_append he hr

/-- So a whole number is, up to what breaks it off. -/
theorem skipNumber_append (hwhole : IsWhole whole) (hfraction : IsFraction fraction)
    (hexponent : IsExponent exponent) (hr : Breaks rest) :
    skipNumber (whole ++ (fraction ++ exponent) ++ rest) = .ok rest := by
  obtain ⟨hdigits, hzero⟩ := hwhole
  have hhead := hfraction.head_append hexponent hr
  have hskip := skipFractionPart_append hfraction hexponent hr
  obtain ⟨b, ds, rfl, hb⟩ := hdigits.starts
  rw [List.append_assoc, List.append_assoc, List.cons_append, skipNumber.eq_def]
  simp only
  split
  · -- a zero is the only digit
    rename_i hz
    obtain rfl : ds = [] := (List.cons.inj (hzero (congrArg some hz))).2
    rw [List.nil_append]
    split
    · rename_i c after heq
      rw [if_neg (by simp [hhead c (by rw [heq]; rfl)]), hskip]
    · exact hskip
  · rw [dropWhile_isDigit_append (fun c hc => hdigits.2 c (List.mem_cons_of_mem b hc)) hhead, hskip]

/-! ### Turns -/

/-- After some turns, fewer than twice the bytes of the tokens, the value that they are has been
passed over, whatever blanks there are and whatever brackets are open. -/
def Passes (ts : List Bytes) : Prop :=
  ∃ turns, turns < 2 * ts.flatten.length ∧ ∀ fuel opened more bs, Ends more →
    Spaced (ts ++ more) bs → ∃ rest, Spaced more rest ∧
      skipFrom (turns + fuel) .value opened bs = skipFrom fuel .more opened rest

/-- A scalar is passed over in one step. -/
theorem skipFrom_scalar (h : IsScalar token) : ∃ b t, token = b :: t ∧ isSpace b = false ∧
    ∀ fuel opened bs rest, Breaks rest → skipSpace bs = b :: (t ++ rest) →
      skipFrom (fuel + 1) .value opened bs = skipFrom fuel .more opened rest := by
  cases h with
  | null =>
    refine ⟨110, ull, rfl, rfl, fun fuel opened bs rest _ hskip => ?_⟩
    rw [skipFrom, hskip]
    rfl
  | yes =>
    refine ⟨116, rue, rfl, rfl, fun fuel opened bs rest _ hskip => ?_⟩
    rw [skipFrom, hskip]
    rfl
  | no =>
    refine ⟨102, alse, rfl, rfl, fun fuel opened bs rest _ hskip => ?_⟩
    rw [skipFrom, hskip]
    rfl
  | number h =>
    cases h with
    | @plain whole fraction exponent hwhole hfraction hexponent =>
      obtain ⟨b, ds, rfl, hb⟩ := hwhole.1.starts
      refine ⟨b, ds ++ (fraction ++ exponent), rfl, not_isSpace_of_isDigit hb,
        fun fuel opened bs rest hr hskip => ?_⟩
      have hrest : skipNumber (b :: (ds ++ (fraction ++ exponent) ++ rest)) = .ok rest :=
        skipNumber_append hwhole hfraction hexponent hr
      rw [skipFrom, hskip]
      simp only [if_neg (ne_of_isDigit hb (x := 110) rfl), if_neg (ne_of_isDigit hb (x := 116) rfl),
        if_neg (ne_of_isDigit hb (x := 102) rfl), if_neg (ne_of_isDigit hb (x := minus) rfl), hb,
        if_true, hrest]
      rfl
    | @negative whole fraction exponent hwhole hfraction hexponent =>
      refine ⟨minus, _, rfl, rfl, fun fuel opened bs rest hr hskip => ?_⟩
      have hrest := skipNumber_append hwhole hfraction hexponent hr
      rw [skipFrom, hskip]
      show (skipNumber _ >>= fun r => skipFrom fuel .more opened r) = _
      rw [hrest]
      rfl
  | text h =>
    obtain ⟨body, rfl, hread⟩ := h.skipText
    refine ⟨quote, body, rfl, rfl, fun fuel opened bs rest _ hskip => ?_⟩
    rw [skipFrom, hskip]
    show (skipText _ >>= fun r => skipFrom fuel .more opened r) = _
    rw [hread]
    rfl

theorem IsScalar.passes (h : IsScalar token) : Passes [token] := by
  obtain ⟨b, t, rfl, hb, hstep⟩ := skipFrom_scalar h
  refine ⟨1, ?_, fun fuel opened more bs hends hs => ?_⟩
  · rw [List.flatten_singleton, List.length_cons]
    omega
  · obtain ⟨rest, hskip, hrest⟩ := hs.skipSpace_cons hb
    refine ⟨rest, hrest, ?_⟩
    rw [Nat.add_comm]
    exact hstep fuel opened bs rest (hends.breaks hrest) hskip

/-- The same for a part of a bracket, with its name if the bracket is a record. -/
def PassesIn (k : Bracket) (part : List Bytes) : Prop :=
  (∃ b t part', part = (b :: t) :: part' ∧ isSpace b = false ∧ b ≠ k.closer) ∧
  ∃ turns, turns < 2 * part.flatten.length ∧ ∀ fuel opened more bs, Ends more →
    Spaced (part ++ more) bs → ∃ bs' rest, skipName k bs = .ok bs' ∧ Spaced more rest ∧
      skipFrom (turns + fuel) .value opened bs' = skipFrom fuel .more opened rest

/-- An item of a list is passed over with its comma. -/
theorem IsValue.passesIn (h : IsValue ts) (hts : Passes ts) : PassesIn .list ts := by
  refine ⟨?_, ?_⟩
  · obtain ⟨b, t, ts', hts, hb⟩ := h.starts
    exact ⟨b, t, ts', hts, hb.1, hb.2.2.1⟩
  · obtain ⟨turns, hturns, hpass⟩ := hts
    refine ⟨turns, hturns, fun fuel opened more bs hends hs => ?_⟩
    obtain ⟨rest, hrest, hstep⟩ := hpass fuel opened more bs hends hs
    exact ⟨bs, rest, rfl, hrest, hstep⟩

/-- A name is passed over with its colon, whatever blanks are between. -/
theorem skipName_spaced (h : IsText token) (hs : Spaced (token :: [colon] :: ts) bs) :
    ∃ rest, skipName .record bs = .ok rest ∧ Spaced ts rest := by
  obtain ⟨body, rfl, hread⟩ := h.skipText
  obtain ⟨rest₁, hskip, hrest₁⟩ := hs.skipSpace_cons rfl
  obtain ⟨rest, hskip', hrest⟩ := hrest₁.skipSpace_cons rfl
  refine ⟨rest, ?_, hrest⟩
  rw [skipName, hskip]
  simp only [if_true, bind, Except.bind, hread, hskip', List.nil_append]

/-- A member of a record is passed over with its name. -/
theorem passesIn_memberTokens {m : Member} (h : IsText m.1) (hts : Passes m.2) :
    PassesIn .record (memberTokens m) := by
  refine ⟨?_, ?_⟩
  · obtain ⟨body, -, hbody⟩ := h
    exact ⟨quote, _, _, congrArg (· :: _) hbody, rfl, by decide⟩
  · obtain ⟨turns, hturns, hpass⟩ := hts
    refine ⟨turns, ?_, fun fuel opened more bs hends hs => ?_⟩
    · rw [memberTokens, List.flatten_cons, List.flatten_cons, List.length_append,
        List.length_append]
      omega
    · obtain ⟨bs', hname, hbs'⟩ := skipName_spaced h hs
      obtain ⟨rest, hrest, hstep⟩ := hpass fuel opened more bs' hends hbs'
      exact ⟨bs', rest, hname, hrest, hstep⟩

/-- What is looked for in a bracket of which nothing has been passed over, or something. -/
def seekIn (first : Bool) : Seek := if first then .first else .more

/-- One step in a bracket passes over the comma, if there is one, and the name. -/
theorem skipFrom_ahead {k : Bracket} {first : Bool} {part : List Bytes} {parts : List (List Bytes)}
    (h : PassesIn k part) (hs : Spaced (ahead first (part :: parts) ++ more) bs)
    (fuel : Nat) (opened : List Bracket) :
    ∃ bs', Spaced (part ++ (further parts ++ more)) bs' ∧
      skipFrom (fuel + 1) (seekIn first) (k :: opened) bs =
        skipName k bs' >>= skipFrom fuel .value (k :: opened) := by
  cases first with
  | true =>
    obtain ⟨⟨b, t, part', rfl, hb, hcloser⟩, -⟩ := h
    rw [ahead, if_pos rfl, separated, List.append_assoc] at hs
    obtain ⟨rest, hskip, -⟩ := Spaced.skipSpace_cons hs hb
    refine ⟨skipSpace bs, Spaced.skipSpace hs hb, ?_⟩
    rw [seekIn, if_pos rfl, skipFrom, hskip]
    simp only [if_neg hcloser]
  | false =>
    rw [ahead, if_neg (by decide), further_cons, List.cons_append, List.append_assoc] at hs
    obtain ⟨rest, hskip, hrest⟩ := hs.skipSpace_cons rfl
    refine ⟨rest, hrest, ?_⟩
    rw [seekIn, if_neg (by decide), skipFrom, hskip]
    rfl

/-- At its end a list or record is left. -/
theorem skipFrom_closer {k : Bracket} {first : Bool} (hs : Spaced ([k.closer] :: more) bs)
    (fuel : Nat) (opened : List Bracket) : ∃ rest, Spaced more rest ∧
      skipFrom (fuel + 1) (seekIn first) (k :: opened) bs = skipFrom fuel .more opened rest := by
  have hspace : isSpace k.closer = false := by cases k <;> rfl
  obtain ⟨rest, hskip, hrest⟩ := hs.skipSpace_cons hspace
  refine ⟨rest, hrest, ?_⟩
  cases first
  · have hcomma : k.closer ≠ comma := by cases k <;> decide
    rw [seekIn, if_neg (by decide), skipFrom, hskip]
    simp only [if_neg hcomma, if_true, List.nil_append]
  · rw [seekIn, if_pos rfl, skipFrom, hskip]
    simp only [if_true, List.nil_append]

theorem ends_further (k : Bracket) (parts : List (List Bytes)) (more : List Bytes) :
    Ends (further parts ++ [k.closer] :: more) := by
  cases k with
  | list => exact ends_further_closeList parts more
  | record => exact ends_further_closeRecord parts more

/-- The parts of a bracket to come are passed over, and its end. -/
theorem skipFrom_parts {k : Bracket} {parts : List (List Bytes)}
    (h : ∀ part ∈ parts, PassesIn k part) : ∃ turns,
      turns ≤ 2 * parts.flatten.flatten.length + 1 ∧ ∀ fuel opened more first bs,
        Spaced (ahead first parts ++ [k.closer] :: more) bs → ∃ rest, Spaced more rest ∧
          skipFrom (turns + fuel) (seekIn first) (k :: opened) bs =
            skipFrom fuel .more opened rest := by
  induction parts with
  | nil =>
    refine ⟨1, by simp, fun fuel opened more first bs hs => ?_⟩
    rw [ahead_nil] at hs
    rw [Nat.add_comm]
    exact skipFrom_closer hs fuel opened
  | cons part parts ih =>
    obtain ⟨hpart, hparts⟩ := List.forall_mem_cons.1 h
    obtain ⟨turns', hturns', hrun⟩ := ih hparts
    obtain ⟨-, turns, hturns, hpass⟩ := id hpart
    refine ⟨turns + turns' + 1, ?_, fun fuel opened more first bs hs => ?_⟩
    · rw [List.flatten_cons, List.flatten_append, List.length_append]
      omega
    · obtain ⟨bs₁, hbs₁, hstep⟩ := skipFrom_ahead hpart hs (turns + (turns' + fuel)) opened
      obtain ⟨bs₂, rest₁, hname, hrest₁, hvalue⟩ :=
        hpass (turns' + fuel) (k :: opened) _ bs₁ (ends_further k parts more) hbs₁
      obtain ⟨rest, hrest, hlast⟩ := hrun fuel opened more false rest₁ hrest₁
      refine ⟨rest, hrest, ?_⟩
      calc skipFrom (turns + turns' + 1 + fuel) (seekIn first) (k :: opened) bs
          = skipFrom (turns + (turns' + fuel) + 1) (seekIn first) (k :: opened) bs := by
            congr 1
            omega
        _ = skipName k bs₁ >>= skipFrom (turns + (turns' + fuel)) .value (k :: opened) := hstep
        _ = skipFrom (turns + (turns' + fuel)) .value (k :: opened) bs₂ := by
            rw [hname]
            rfl
        _ = skipFrom (turns' + fuel) .more (k :: opened) rest₁ := hvalue
        _ = skipFrom fuel .more opened rest := hlast

/-- A bracket is passed over if its parts are. -/
theorem passes_bracket {k : Bracket} {b : UInt8} {parts : List (List Bytes)}
    (hopen : ∀ fuel opened bs rest, skipSpace bs = b :: rest →
      skipFrom (fuel + 1) .value opened bs = skipFrom fuel .first (k :: opened) rest)
    (hb : isSpace b = false) (h : ∀ part ∈ parts, PassesIn k part) :
    Passes ([b] :: (separated parts ++ [[k.closer]])) := by
  obtain ⟨turns, hturns, hrun⟩ := skipFrom_parts h
  refine ⟨turns + 1, ?_, fun fuel opened more bs _ hs => ?_⟩
  · have hlength := length_separated parts
    rw [List.flatten_cons, List.flatten_append]
    simp only [List.length_append, List.flatten_singleton, List.length_singleton]
    omega
  · rw [List.cons_append, List.append_assoc, List.singleton_append] at hs
    obtain ⟨bs₁, hskip, hbs₁⟩ := hs.skipSpace_cons hb
    obtain ⟨rest, hrest, hlast⟩ := hrun fuel opened more true bs₁ hbs₁
    refine ⟨rest, hrest, ?_⟩
    have hturn : turns + 1 + fuel = turns + fuel + 1 := by omega
    rw [hturn, hopen _ _ _ _ hskip]
    exact hlast

/-- **Every value is passed over.** -/
theorem IsValue.passes (h : IsValue ts) : Passes ts := by
  induction h with
  | scalar h => exact h.passes
  | list hvalue ih =>
    refine passes_bracket (k := .list) (fun fuel opened bs rest hskip => ?_) rfl
      fun ts hts => (hvalue ts hts).passesIn (ih ts hts)
    rw [skipFrom, hskip]
    rfl
  | record hname _ ih =>
    refine passes_bracket (k := .record) (fun fuel opened bs rest hskip => ?_) rfl
      fun part hpart => ?_
    · rw [skipFrom, hskip]
      rfl
    · obtain ⟨m, hm, rfl⟩ := List.mem_map.1 hpart
      exact passesIn_memberTokens (hname m hm) (ih m hm)

/-- The bytes behind a value are found. -/
theorem skipValue_spaced (h : IsValue ts) (hends : Ends more) (hs : Spaced (ts ++ more) bs) :
    ∃ rest, Spaced more rest ∧ skipValue bs = .ok rest := by
  obtain ⟨turns, hturns, hpass⟩ := h.passes
  have hlength := hs.length_le
  rw [List.flatten_append, List.length_append] at hlength
  obtain ⟨fuel, hfuel⟩ : ∃ n, 2 * bs.length + 2 = turns + (n + 1) :=
    ⟨2 * bs.length + 1 - turns, by omega⟩
  obtain ⟨rest, hrest, hskip⟩ := hpass (fuel + 1) [] more bs hends hs
  refine ⟨rest, hrest, ?_⟩
  rw [skipValue, hfuel, hskip, skipFrom]

end Switchboard.Json
