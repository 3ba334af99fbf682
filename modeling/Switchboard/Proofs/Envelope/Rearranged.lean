/-
Switchboard/Proofs/Envelope/Rearranged.lean

How a message is laid out does not matter.

The members of a text may be put into another order, those of its data as
well; blanks may be put between its tokens; members that an envelope does not
know may be added, and a null left out where it says as much as nothing
(`Edit`).  What is read is the same.  One edit leaves the draft alone, but for
a null that it no longer has (`Edit.draft?`), and so do many.

Main statement: `ofBytes_rearranged`.  A member whose name stands for no text
is another matter: with it the text is read as nothing (`ofBytes_ne_ok`).
-/
import Mathlib.Logic.Relation
import Switchboard.Proofs.Envelope.Intake
import Switchboard.Proofs.Envelope.Parts

namespace Switchboard

open Json

/-! ### Members of a record in any order -/

/-- Members of different names are inserted in any order. -/
theorem Members.insert_insert_of_lt {j k : String} (h : j < k) (v w : Json) (ms : Members) :
    insert j v (insert k w ms) = insert k w (insert j v ms) := by
  have hkj : ¬ k < j := lt_asymm h
  induction ms with
  | nil => simp [insert, h, hkj, h.ne']
  | cons m ms ih =>
    obtain ⟨i, x⟩ := m
    rcases lt_trichotomy k i with hk | rfl | hk
    · simp [insert, h, hkj, h.ne', hk, lt_trans h hk]
    · simp [insert, h, hkj, h.ne']
    · have hki : ¬ k < i := lt_asymm hk
      rcases lt_trichotomy j i with hj | rfl | hj
      · simp [insert, h.ne', hkj, hj, hki, hk.ne']
      · simp [insert, h.ne', hkj]
      · simp [insert, hki, hk.ne', lt_asymm hj, hj.ne', ih]

/-- Two members of different names may be inserted in either order. -/
theorem Members.insert_comm {j k : String} (h : j ≠ k) (v w : Json) (ms : Members) :
    insert j v (insert k w ms) = insert k w (insert j v ms) := by
  rcases lt_or_gt_of_ne h with h | h
  · exact insert_insert_of_lt h v w ms
  · exact (insert_insert_of_lt h w v ms).symm

/-- Members of different names may be inserted in any order. -/
theorem Members.ofList_perm {ps ps' : List (String × Json)} (h : ps.Perm ps')
    (hnodup : (ps.map Prod.fst).Nodup) : ofList ps = ofList ps' := by
  refine h.foldl_eq' (fun p hp p' hp' acc => ?_) []
  by_cases heq : p = p'
  · rw [heq]
  · have hne : p'.1 ≠ p.1 := fun h => heq (List.inj_on_of_nodup_map hnodup hp hp' h.symm)
    exact insert_comm hne _ _ acc

namespace Json

variable {depth : Nat} {ms ms' : List Member}

/-- The name and value of a member, if both can be read. -/
def pair? (depth : Nat) (m : Member) : Option (String × Json) :=
  (text? m.1).bind fun name => (readAs (readValue depth) m.2).map (name, ·)

theorem takeIn_putMember (acc : Members) (m : Member) :
    takeIn (putMember (readAs (readValue depth))) acc m =
      (pair? depth m).map fun p => acc.insert p.1 p.2 := by
  rw [takeIn, pair?]
  cases text? m.1 with
  | none => rfl
  | some name =>
    simp only [Option.bind_some, putMember]
    cases readAs (readValue depth) m.2 <;> rfl

/-- The record that is read is made of its pairs, if all can be read. -/
theorem foldlM_putMember (ms : List Member) (acc : Members) :
    ms.foldlM (takeIn (putMember (readAs (readValue depth)))) acc =
      (ms.mapM (pair? depth)).map fun ps => ps.foldl (fun acc p => acc.insert p.1 p.2) acc := by
  induction ms generalizing acc with
  | nil => rfl
  | cons m ms ih =>
    rw [List.foldlM_cons, takeIn_putMember, List.mapM_cons]
    cases pair? depth m with
    | none => rfl
    | some p =>
      simp only [Option.map_some, Option.bind_some, bind, ih, pure]
      cases ms.mapM (pair? depth) <;> rfl

/-- A map that succeeds does so item by item. -/
theorem mapM_eq_some_iff {α β : Type} {f : α → Option β} {as : List α} {bs : List β} :
    as.mapM f = some bs ↔ List.Forall₂ (fun a b => f a = some b) as bs := by
  induction as generalizing bs with
  | nil => cases bs <;> simp [pure]
  | cons a as ih =>
    rw [List.mapM_cons]
    cases bs with
    | nil => cases f a <;> cases as.mapM f <;> simp [bind, pure]
    | cons b bs =>
      rw [List.forall₂_cons, ← ih]
      cases f a <;> cases as.mapM f <;> simp [bind, pure]

/-- The names of members that are read are those that they spell. -/
theorem names_eq {names : List String} {ps : List (String × Json)}
    (hnames : List.Forall₂ (fun m s => Spells m.1 s) ms names)
    (hps : ms.mapM (pair? depth) = some ps) : ps.map Prod.fst = names := by
  rw [mapM_eq_some_iff] at hps
  induction hps generalizing names with
  | nil =>
    cases hnames
    rfl
  | @cons m p ms ps hp _ ih =>
    cases hnames with
    | cons hs hnames =>
      rw [pair?, hs.text?, Option.bind_some] at hp
      obtain ⟨v, -, rfl⟩ := Option.map_eq_some_iff.1 hp
      rw [List.map_cons, ih hnames]

/-- **Data in another order are the same data**, if no name comes twice. -/
theorem ofList_eq_of_perm {names : List String} {members : Members} (h : ms.Perm ms')
    (hnames : List.Forall₂ (fun m s => Spells m.1 s) ms names) (hnodup : names.Nodup)
    (hms : (ms.mapM (pair? depth)).map Members.ofList = some members) :
    (ms'.mapM (pair? depth)).map Members.ofList = some members := by
  obtain ⟨ps, hps, rfl⟩ := Option.map_eq_some_iff.1 hms
  obtain ⟨ps', hps', hperm⟩ := List.perm_comp_forall₂ h.symm (mapM_eq_some_iff.1 hps)
  rw [mapM_eq_some_iff.2 hps', Option.map_some,
    Members.ofList_perm hperm.symm (names_eq hnames hps ▸ hnodup)]

/-- A record is read as the same value whatever the order of its members, if their names differ. -/
theorem readAs_recordTokens_perm {names : List String} (h : ms.Perm ms')
    (hmember : ∀ m ∈ ms, IsMember m) (hnames : List.Forall₂ (fun m s => Spells m.1 s) ms names)
    (hnodup : names.Nodup) :
    readAs (readValue depth) (recordTokens ms) = readAs (readValue depth) (recordTokens ms') := by
  cases depth with
  | zero =>
    have hnone : ∀ ms : List Member, readAs (readValue 0) (recordTokens ms) = none :=
      fun ms => (readsAs_zero (.inr rfl)).eq_readAs
    rw [hnone, hnone]
  | succ depth =>
    have hmember' : ∀ m ∈ ms', IsMember m := fun m hm => hmember m (h.mem_iff.2 hm)
    obtain ⟨names', hnames', hperm⟩ := List.perm_comp_forall₂ h.symm hnames
    rw [readAs_recordTokens (fun m hm => (hmember m hm).1) (fun m hm => (hmember m hm).2),
      readAs_recordTokens (fun m hm => (hmember' m hm).1) (fun m hm => (hmember' m hm).2),
      foldlM_putMember, foldlM_putMember]
    congr 1
    ext members
    exact ⟨ofList_eq_of_perm h hnames hnodup,
      ofList_eq_of_perm h.symm hnames' (hperm.nodup_iff.2 hnodup)⟩

end Json

namespace Envelope

/-! ### Edits -/

/-- What may be done to the members of a text. -/
inductive Edit : List Member → List Member → Prop where
  /-- The members may be put into another order. -/
  | reorder {ms ms' : List Member} : ms.Perm ms' → Edit ms ms'
  /-- So may the members of the data, if these differ in their names. -/
  | reorderData {front back data data' : List Member} {token : Bytes} {names : List String} :
      Spells token Part.data.name → (∀ m ∈ data, IsMember m) → data.Perm data' →
      List.Forall₂ (fun m s => Spells m.1 s) data names → names.Nodup →
      Edit (front ++ (token, recordTokens data) :: back)
        (front ++ (token, recordTokens data') :: back)
  /-- A member may be added whose name is that of no part. -/
  | add {front back : List Member} {m : Member} {name : String} :
      Spells m.1 name → (∀ p : Part, name ≠ p.name) → IsValue m.2 →
      Edit (front ++ back) (front ++ m :: back)
  /-- A null may be left out if it stands for an identifier or for the complaint. -/
  | leaveOut {front back : List Member} {token : Bytes} {p : Part} : Spells token p.name →
      p = .id ∨ p = .requestId ∨ p = .error →
      Edit (front ++ (token, [nullWord]) :: back) (front ++ back)

/-- What any number of edits may come to. -/
def Rearranged : List Member → List Member → Prop := Relation.ReflTransGen Edit

variable {d d' d'' : Draft} {p : Part} {ms ms' : List Member} {values values' : List (List Bytes)}

theorem Edit.isMember (h : Edit ms ms') (hms : ∀ m ∈ ms, IsMember m) : ∀ m ∈ ms', IsMember m := by
  cases h with
  | reorder h => exact fun m hm => hms m (h.mem_iff.2 hm)
  | @reorderData front back data data' token names hname hdata hperm _ _ =>
    have hdata' : ∀ m ∈ data', IsMember m := fun m hm => hdata m (hperm.mem_iff.2 hm)
    have hnew : IsMember (token, recordTokens data') :=
      ⟨hname.isText, .record (fun m hm => (hdata' m hm).1) fun m hm => (hdata' m hm).2⟩
    simp only [List.forall_mem_append, List.forall_mem_cons] at hms ⊢
    exact ⟨hms.1, hnew, hms.2.2⟩
  | add hname _ hvalue =>
    simp only [List.forall_mem_append, List.forall_mem_cons] at hms ⊢
    exact ⟨hms.1, ⟨hname.isText, hvalue⟩, hms.2⟩
  | leaveOut _ _ =>
    simp only [List.forall_mem_append, List.forall_mem_cons] at hms ⊢
    exact ⟨hms.1, hms.2.2⟩

/-! ### What a draft has -/

/-- **When a draft is read**: every name is a text, and every part comes once at most. -/
theorem draft?_eq_some_iff : draft? ms = some d ↔ (∀ m ∈ ms, (text? m.1).isSome) ∧
    ∀ p : Part, p.Holds (named p.name ms) none (d.part p) := by
  have hempty : ∀ p : Part, Draft.empty.part p = none := fun p => by cases p <;> rfl
  rw [draft?, foldlM_take_iff]
  simp only [hempty]

/-- What comes under a name does not depend on the order. -/
theorem named_perm (h : ms.Perm ms') (name : String) : (named name ms).Perm (named name ms') :=
  (h.filter _).map _

/-- Nor on where it comes. -/
theorem named_middle {name : String} {m : Member} (h : text? m.1 = some name)
    (front back : List Member) :
    (named name (front ++ m :: back)).Perm (m.2 :: named name (front ++ back)) := by
  rw [← named_cons_self h]
  exact named_perm List.perm_middle name

/-- And not on what comes under other names. -/
theorem named_middle_of_ne {name : String} {m : Member} (h : text? m.1 ≠ some name)
    (front back : List Member) :
    named name (front ++ m :: back) = named name (front ++ back) := by
  rw [named_append, named_cons_of_ne h, ← named_append]

/-- The order of the values does not matter, since there is only one. -/
theorem Part.Holds.perm {new : Option p.Value} (h : p.Holds values none new)
    (hperm : values.Perm values') : p.Holds values' none new := by
  obtain ⟨as, hall, heq⟩ := h
  obtain ⟨as', hall', has⟩ := List.perm_comp_forall₂ hperm.symm hall
  refine ⟨as', hall', ?_⟩
  rw [← heq]
  have hlength : as.length ≤ 1 := by
    have hnew : new.toList.length ≤ 1 := by cases new <;> simp
    simpa [← heq] using hnew
  cases as with
  | nil => rw [List.perm_nil.1 has]
  | cons a as =>
    obtain rfl : as = [] := List.length_eq_zero_iff.1 (by simpa using hlength)
    rw [List.perm_singleton.1 has]

/-- Once a part has a value, it has no other. -/
theorem Part.Holds.full {a : p.Value} {new : Option p.Value} (h : p.Holds values (some a) new) :
    new = some a ∧ p.Holds values none none := by
  obtain ⟨as, hall, heq⟩ := h
  cases new with
  | none => cases heq
  | some b =>
    obtain ⟨rfl, rfl⟩ := List.cons.inj heq
    exact ⟨rfl, [], hall, rfl⟩

/-- What a draft has of a part is what one of the members is read as. -/
theorem part_of_mem (hd : draft? ms = some d) {m : Member} (hm : m ∈ ms)
    (hname : text? m.1 = some p.name) : ∃ a, readAs p.read m.2 = some a ∧ d.part p = some a := by
  obtain ⟨front, back, rfl⟩ := List.append_of_mem hm
  have hholds := (draft?_eq_some_iff.1 hd).2 p
  obtain ⟨-, a, ha, hrest⟩ := Part.holds_cons.1 (hholds.perm (named_middle hname front back))
  exact ⟨a, ha, hrest.full.1⟩

/-! ### What an edit does to it -/

/-- The drafts have the same, but perhaps a null for nothing or nothing for a null. -/
structure Draft.Alike (d d' : Draft) : Prop where
  id : d.id.join = d'.id.join
  kind : d.kind = d'.kind
  time : d.time = d'.time
  data : d.data = d'.data
  requestId : d.requestId.join = d'.requestId.join
  error : d.error.join = d'.error.join

theorem Draft.Alike.refl (d : Draft) : d.Alike d := ⟨rfl, rfl, rfl, rfl, rfl, rfl⟩

theorem Draft.Alike.trans (h : d.Alike d') (h' : d'.Alike d'') : d.Alike d'' :=
  ⟨h.id.trans h'.id, h.kind.trans h'.kind, h.time.trans h'.time, h.data.trans h'.data,
    h.requestId.trans h'.requestId, h.error.trans h'.error⟩

/-- Drafts that are alike make the same message. -/
theorem Draft.Alike.ofDraft (h : d.Alike d') (stamp : Stamp) (body : Body) :
    ofDraft stamp d body = ofDraft stamp d' body := by
  rw [Envelope.ofDraft, h.id, h.time, h.requestId, h.error]
  rfl

/-- A null that has gone is as good as one that is there. -/
theorem Draft.alike_leaveOut {a : p.Value} (hp : p = .id ∨ p = .requestId ∨ p = .error)
    (ha : readAs p.read [nullWord] = some a) (hpart : d.part p = some a) :
    d.Alike (.ofParts (Function.update d.part p none)) := by
  have hnull : readAs (optional string) [nullWord] = some none :=
    readsAs_optional_nullWord.eq_readAs
  have hjoin : ∀ {x : Option (Option String)} {y : Option String},
      readAs (optional string) [nullWord] = some y → x = some y → x.join = none := by
    rintro _ _ hy rfl
    rw [← Option.some.inj (hnull.symm.trans hy)]
    rfl
  rcases hp with rfl | rfl | rfl
  · exact ⟨hjoin ha hpart, rfl, rfl, rfl, rfl, rfl⟩
  · exact ⟨rfl, rfl, rfl, rfl, hjoin ha hpart, rfl⟩
  · exact ⟨rfl, rfl, rfl, rfl, rfl, hjoin ha hpart⟩

/-- Members that fill the draft as well. -/
theorem draft?_of_named (hd : draft? ms = some d) (hname : ∀ m ∈ ms', (text? m.1).isSome)
    (hnamed : ∀ p : Part, p.Holds (named p.name ms) none (d.part p) →
      p.Holds (named p.name ms') none (d.part p)) : draft? ms' = some d :=
  draft?_eq_some_iff.2 ⟨hname, fun p => hnamed p ((draft?_eq_some_iff.1 hd).2 p)⟩

/-- The data are read like any other value. -/
theorem readAs_dataValue {data : List Member} (hdata : ∀ m ∈ data, IsMember m) :
    readAs dataValue (recordTokens data) =
      (readAs (readValue (depthLimit - 1)) (recordTokens data)).map some := by
  have hvalue : IsValue (recordTokens data) :=
    .record (fun m hm => (hdata m hm).1) fun m hm => (hdata m hm).2
  exact (readsAs_optional (by decide) (by decide) (hvalue.readsAs (depthLimit - 1))).eq_readAs

theorem readAs_dataValue_perm {data data' : List Member} {names : List String}
    (hdata : ∀ m ∈ data, IsMember m) (hperm : data.Perm data')
    (hnames : List.Forall₂ (fun m s => Spells m.1 s) data names) (hnodup : names.Nodup) :
    readAs dataValue (recordTokens data) = readAs dataValue (recordTokens data') := by
  rw [readAs_dataValue hdata, readAs_dataValue fun m hm => hdata m (hperm.mem_iff.2 hm),
    readAs_recordTokens_perm hperm hdata hnames hnodup]

/-- **An edit leaves the draft alone**, but for a null that it no longer has. -/
theorem Edit.draft? (h : Edit ms ms') (hd : draft? ms = some d) :
    ∃ d', Envelope.draft? ms' = some d' ∧ d.Alike d' := by
  have hnames := (draft?_eq_some_iff.1 hd).1
  cases h with
  | reorder hperm =>
    exact ⟨d, draft?_of_named hd (fun m hm => hnames m (hperm.mem_iff.2 hm))
      fun p hp => hp.perm (named_perm hperm p.name), .refl d⟩
  | @reorderData front back data data' token names hname hdata hperm hspell hnodup =>
    refine ⟨d, draft?_of_named hd ?_ fun p hp => ?_, .refl d⟩
    · simpa only [List.forall_mem_append, List.forall_mem_cons] using hnames
    · by_cases hdatum : p = .data
      · subst hdatum
        have hp := hp.perm (named_middle hname.text? front back)
        have hread := readAs_dataValue_perm hdata hperm hspell hnodup
        refine Part.Holds.perm ?_ (named_middle hname.text? front back).symm
        rw [Part.holds_cons] at hp ⊢
        rwa [show readAs Part.data.read (recordTokens data') = _ from hread.symm]
      · rw [named_middle_of_ne (Part.text?_ne hname.text? hdatum)] at hp ⊢
        exact hp
  | @add front back m name hname hother _ =>
    refine ⟨d, draft?_of_named hd ?_ fun p hp => ?_, .refl d⟩
    · simp only [List.forall_mem_append, List.forall_mem_cons] at hnames ⊢
      exact ⟨hnames.1, by rw [hname.text?]; rfl, hnames.2⟩
    · rwa [named_middle_of_ne (by rw [hname.text?]; exact fun h => hother p (Option.some.inj h))]
  | @leaveOut front back token p₀ hname hp₀ =>
    have hholds := (draft?_eq_some_iff.1 hd).2 p₀
    obtain ⟨-, a, ha, hrest⟩ :=
      Part.holds_cons.1 (hholds.perm (named_middle hname.text? front back))
    obtain ⟨hfull, hnone⟩ := hrest.full
    refine ⟨.ofParts (Function.update d.part p₀ none), draft?_eq_some_iff.2 ⟨?_, fun p => ?_⟩, ?_⟩
    · simp only [List.forall_mem_append, List.forall_mem_cons] at hnames ⊢
      exact ⟨hnames.1, hnames.2.2⟩
    · rw [Draft.part_ofParts]
      by_cases h : p = p₀
      · subst h
        rwa [Function.update_self]
      · have hp := (draft?_eq_some_iff.1 hd).2 p
        rw [named_middle_of_ne (Part.text?_ne hname.text? h)] at hp
        rwa [Function.update_of_ne h]
    · exact Draft.alike_leaveOut hp₀ ha hfull

/-- **Run lemma**, over any number of edits. -/
theorem Rearranged.draft? (h : Rearranged ms ms') (hms : ∀ m ∈ ms, IsMember m)
    (hd : Envelope.draft? ms = some d) :
    (∀ m ∈ ms', IsMember m) ∧ ∃ d', Envelope.draft? ms' = some d' ∧ d.Alike d' := by
  induction h with
  | refl => exact ⟨hms, d, hd, .refl d⟩
  | tail _ hedit ih =>
    obtain ⟨hmember, d₁, hd₁, halike⟩ := ih
    obtain ⟨d', hd', halike'⟩ := hedit.draft? hd₁
    exact ⟨hedit.isMember hmember, d', hd', halike.trans halike'⟩

/-! ### The message -/

/-- **How a message is laid out does not matter.**  Take a text whose members are these and that is
read as a message, and any text whose members they may be edited into, with blanks in whatever
places.  Both are read as the same message, under whatever stamp, and of the stamp only what the
text does not have is used. -/
theorem ofBytes_rearranged {bs bs' : Bytes} {stamp : Stamp} {m : Envelope}
    (hms : ∀ x ∈ ms, IsMember x) (hbs : Spaced (recordTokens ms) bs) (hedit : Rearranged ms ms')
    (hbs' : Spaced (recordTokens ms') bs') (hm : ofBytes stamp bs = .ok m) :
    ∃ (id : Option String) (time : Option Instant),
      (∀ x ∈ ms, Spells x.1 "id" → x.2 ≠ [nullWord] → id.isSome) ∧
      (∀ x ∈ ms, Spells x.1 "timestamp" → time.isSome) ∧
      ∀ stamp' : Stamp, ∃ m' : Envelope,
        m' = ⟨id.getD stamp'.id, time.getD stamp'.time, m.body, m.requestId, m.error⟩ ∧
        ofBytes stamp' bs = .ok m' ∧ ofBytes stamp' bs' = .ok m' := by
  have hread := toOption_ofBytes hms hbs
  have hsome := toOption_eq_some_iff.2 hm
  rw [hread] at hsome
  obtain ⟨d, hd, hsome⟩ := Option.bind_eq_some_iff.1 hsome
  obtain ⟨k, hk, hsome⟩ := Option.bind_eq_some_iff.1 hsome
  obtain ⟨body, hbody, rfl⟩ := Option.map_eq_some_iff.1 hsome
  obtain ⟨hms', d', hd', halike⟩ := hedit.draft? hms hd
  refine ⟨d.id.join, d.time, fun x hx hname hne => ?_, fun x hx hname => ?_, fun stamp' =>
    ⟨ofDraft stamp' d body, rfl, toOption_eq_some_iff.1 ?_, toOption_eq_some_iff.1 ?_⟩⟩
  · obtain ⟨a, ha, hpart⟩ := part_of_mem (p := .id) hd hx hname.text?
    have hstring : ∃ r, ReadsAs string x.2 r := exists_readsAs_stringWith (hms x hx).2
    cases a with
    | none => exact absurd (eq_nullWord_of_readAs (hms x hx).2 hstring ha) hne
    | some s =>
      have hid : d.id = some (some s) := hpart
      rw [hid]
      rfl
  · obtain ⟨t, -, hpart⟩ := part_of_mem (p := .time) hd hx hname.text?
    have htime : d.time = some t := hpart
    rw [htime]
    rfl
  · rw [hread, hd, Option.bind_some, hk, Option.bind_some, hbody]
    rfl
  · rw [toOption_ofBytes hms' hbs', hd', Option.bind_some, ← halike.kind, hk, Option.bind_some,
      ← halike.data, hbody, Option.map_some, halike.ofDraft]

/-- The members of a text whose identifier is null. -/
def written : List Member :=
  [(Utf8.ofString "\"\\u0069d\"", [nullWord]),
    (verbatimText "data", recordTokens [(verbatimText "token", [verbatimText "a"]),
      (verbatimText "z", [116 :: rue])]),
    (verbatimText "type", [verbatimText "auth"])]

/-- The text. -/
def writtenText : Bytes := Utf8.ofString
  "\x7b\"\\u0069d\":null,\"data\":\x7b\"token\":\"a\",\"z\":true\x7d,\"type\":\"auth\"\x7d"

/-- Members that these may be edited into.  In the new one there is a name that stands for no
text. -/
def rewritten : List Member :=
  [(verbatimText "type", [verbatimText "auth"]),
    (verbatimText "x", listTokens [recordTokens [(Utf8.ofString "\"\\ud800\"", listTokens [])]]),
    (verbatimText "data", recordTokens [(verbatimText "z", [116 :: rue]),
      (verbatimText "token", [verbatimText "a"])])]

/-- Their text, with a blank before each token. -/
def rewrittenText : Bytes := Utf8.ofString
  (" \x7b \"type\" : \"auth\" , \"x\" : [ \x7b \"\\ud800\" : [ ] \x7d ] ," ++
    " \"data\" : \x7b \"z\" : true , \"token\" : \"a\" \x7d \x7d")

theorem spells_plain {s : String}
    (h : s ∈ ["data", "type", "token", "auth", "ping", "a", "x", "z"]) :
    Spells (verbatimText s) s := by
  refine spells_verbatimText ?_
  simp only [List.mem_cons, List.not_mem_nil, or_false] at h
  rcases h with rfl | rfl | rfl | rfl | rfl | rfl | rfl | rfl <;> simp

/-- An escape spells the character that it stands for. -/
theorem spells_escaped : Spells (Utf8.ofString "\"\\u0069d\"") "id" := by
  have hd : Writes [100] ['d'] :=
    @Writes.plain 'd' [] [] (by decide) (by decide) (by decide) .nil
  exact ⟨_, .hex (show fourHex? [48, 48, 54, 57] = some 105 by decide) (by decide) hd, by decide⟩

/-- Half of a pair of surrogates makes a string, but one that stands for no text. -/
theorem isText_lone : IsText (Utf8.ofString "\"\\ud800\"") :=
  ⟨_, .hex (show fourHex? [100, 56, 48, 48] = some 0xD800 by decide) .nil, by decide⟩

theorem isMember_data : ∀ m ∈ [(verbatimText "token", [verbatimText "a"]),
    (verbatimText "z", [116 :: rue])], IsMember m := by
  simp only [List.forall_mem_cons]
  exact ⟨⟨(spells_plain (by simp)).isText, .scalar (.text (spells_plain (by simp)).isText)⟩,
    ⟨(spells_plain (by simp)).isText, .scalar .yes⟩, by simp⟩

theorem isMember_written : ∀ m ∈ written, IsMember m := by
  have hdata := isMember_data
  simp only [written, List.forall_mem_cons]
  exact ⟨⟨spells_escaped.isText, .scalar .null⟩,
    ⟨(spells_plain (by simp)).isText,
      .record (fun m hm => (hdata m hm).1) fun m hm => (hdata m hm).2⟩,
    ⟨(spells_plain (by simp)).isText, .scalar (.text (spells_plain (by simp)).isText)⟩, by simp⟩

theorem rearranged_written : Rearranged written rewritten := by
  have hadded : IsValue
      (listTokens [recordTokens [(Utf8.ofString "\"\\ud800\"", listTokens [])]]) := by
    refine .list (List.forall_mem_singleton.2 (.record ?_ ?_))
    · exact List.forall_mem_singleton.2 isText_lone
    · exact List.forall_mem_singleton.2 (.list (by simp))
  refine .head (@Edit.leaveOut [] _ _ .id spells_escaped (.inl rfl)) ?_
  refine .head (@Edit.reorderData [] _ _ _ _ ["token", "z"] (spells_plain (by decide))
    isMember_data (.swap _ _ []) ?_ (by decide)) ?_
  · exact .cons (spells_plain (by simp)) (.cons (spells_plain (by simp)) .nil)
  refine .head (.reorder (.swap _ _ [])) (.single ?_)
  exact @Edit.add [_] [_] _ "x" (spells_plain (by simp)) (fun p => by cases p <;> decide) hadded

/-- All four edits and blanks, and the same message. -/
theorem ofBytes_rearranged_written :
    (∀ m ∈ written, IsMember m) ∧ Spaced (recordTokens written) writtenText ∧
    Rearranged written rewritten ∧ Spaced (recordTokens rewritten) rewrittenText ∧
    ∀ stamp : Stamp,
      ofBytes stamp writtenText = .ok ⟨stamp.id, stamp.time, .auth "a", none, none⟩ ∧
      ofBytes stamp rewrittenText = .ok ⟨stamp.id, stamp.time, .auth "a", none, none⟩ := by
  have hspaced : Spaced (recordTokens written) writtenText := by
    have htext : writtenText = (recordTokens written).flatten := by decide +kernel
    exact htext ▸ spaced_flatten _
  have hspaced' : Spaced (recordTokens rewritten) rewrittenText := by
    have htext : rewrittenText = (recordTokens rewritten).flatMap ([32] ++ ·) := by decide +kernel
    exact htext ▸ spaced_flatMap (List.forall_mem_singleton.2 rfl) _
  have hread : ∀ stamp : Stamp, ofBytes stamp writtenText =
      .ok ⟨stamp.id, stamp.time, .auth "a", none, none⟩ := fun stamp => by cbv
  refine ⟨isMember_written, hspaced, rearranged_written, hspaced', fun stamp => ⟨hread stamp, ?_⟩⟩
  obtain ⟨id, time, -, -, hsame⟩ := ofBytes_rearranged isMember_written hspaced rearranged_written
    hspaced' (hread stamp)
  obtain ⟨m', -, hm', hread'⟩ := hsame stamp
  rw [hread', ← hm', hread stamp]

/-! ### A name that stands for no text -/

/-- A text in which the name of a member stands for no text is not read. -/
theorem ofBytes_ne_ok {bs : Bytes} {x : Member} (hms : ∀ m ∈ ms, IsMember m)
    (hbs : Spaced (recordTokens ms) bs) (hx : x ∈ ms) (hname : text? x.1 = none) (stamp : Stamp)
    (m : Envelope) : ofBytes stamp bs ≠ .ok m := by
  intro hm
  have hsome := toOption_eq_some_iff.2 hm
  rw [toOption_ofBytes hms hbs] at hsome
  obtain ⟨d, hd, -⟩ := Option.bind_eq_some_iff.1 hsome
  have hread := (draft?_eq_some_iff.1 hd).1 x hx
  rw [hname] at hread
  cases hread

/-- The member of a ping. -/
def kindOnly : Member := (verbatimText "type", [verbatimText "ping"])

/-- A member whose name stands for no text. -/
def unnamed : Member := (Utf8.ofString "\"\\ud800\"", [nullWord])

/-- A ping. -/
def pingText : Bytes := Utf8.ofString "\x7b\"type\":\"ping\"\x7d"

/-- A ping with that member. -/
def unnamedText : Bytes := Utf8.ofString "\x7b\"type\":\"ping\",\"\\ud800\":null\x7d"

/-- A ping is read, and with a member more, which is well formed and of no part's name, it is
not. -/
theorem not_read_unnamed :
    IsMember kindOnly ∧ IsMember unnamed ∧ (∀ p : Part, ¬ Spells unnamed.1 p.name) ∧
    Spaced (recordTokens [kindOnly]) pingText ∧
    Spaced (recordTokens [kindOnly, unnamed]) unnamedText ∧
    ∀ stamp : Stamp, ofBytes stamp pingText = .ok ⟨stamp.id, stamp.time, .ping, none, none⟩ ∧
      ∀ m : Envelope, ofBytes stamp unnamedText ≠ .ok m := by
  have hname : text? unnamed.1 = none := by cbv
  have hkind : IsMember kindOnly :=
    ⟨(spells_plain (by simp)).isText, .scalar (.text (spells_plain (by simp)).isText)⟩
  have hunnamed : IsMember unnamed := ⟨isText_lone, .scalar .null⟩
  have hspaced : Spaced (recordTokens [kindOnly]) pingText := by
    have htext : pingText = (recordTokens [kindOnly]).flatten := by decide +kernel
    exact htext ▸ spaced_flatten _
  have hspaced' : Spaced (recordTokens [kindOnly, unnamed]) unnamedText := by
    have htext : unnamedText = (recordTokens [kindOnly, unnamed]).flatten := by decide +kernel
    exact htext ▸ spaced_flatten _
  refine ⟨hkind, hunnamed, fun p h => ?_, hspaced, hspaced', fun stamp => ⟨by cbv, ?_⟩⟩
  · rw [h.text?] at hname
    cases hname
  · refine ofBytes_ne_ok ?_ hspaced' (List.mem_cons_of_mem _ List.mem_cons_self) hname stamp
    exact List.forall_mem_cons.2 ⟨hkind, List.forall_mem_singleton.2 hunnamed⟩

end Envelope

end Switchboard
