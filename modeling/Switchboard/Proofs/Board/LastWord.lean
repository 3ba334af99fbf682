/-
Switchboard/Proofs/Board/LastWord.lean

Who listens where is settled by the last word on it.

To subscribe and to unsubscribe are words on a matter, which is a connection
and a channel: that the one shall listen to the other, or shall not.  A run of
such calls touches nothing but the subscriptions of registered connections
and the channel index (`Retuned`), and since the index is in step with the
connections, the board that it leaves behind is known from what the index
lists (`Retuned.unique`).  That in turn follows from the last word on each
matter, and where there is none, from what was listed before
(`InStep.mem_listed_run`).

So two runs with the same last words leave the same board, by whatever boards
they have come there.  On the way a channel may have come to be and ceased to
be any number of times.
-/
import Switchboard.Proofs.Board.Onward

namespace Switchboard

/-- The connection apart from what it listens to. -/
def Connection.apart (c : Connection) : Connection := { c with subscriptions := ∅ }

theorem Connection.eq_of_apart {c d : Connection} (h : c.apart = d.apart)
    (hs : ∀ channel, channel ∈ c.subscriptions ↔ channel ∈ d.subscriptions) : c = d := by
  have hset : c.subscriptions = d.subscriptions := Std.ExtTreeSet.ext_mem hs
  cases c
  cases d
  simp only [apart, Connection.mk.injEq] at h hset ⊢
  exact ⟨h.1, h.2.1, h.2.2.1, h.2.2.2.1, h.2.2.2.2.1, hset⟩

namespace Board

variable {b b' b'' : Board} {id : ConnectionId} {l : LineNumber} {c : Connection}
variable {channel : String} {k : Call} {ks ks' : List Call}

/-! ### Words -/

/-- The word of a call on a matter: whether the connection of that name is to listen to the
channel. -/
def Call.word? (id : ConnectionId) (channel : String) : Call → Option Bool
  | .subscribe id' channel' => if id' = id ∧ channel' = channel then some true else none
  | .unsubscribe id' channel' => if id' = id ∧ channel' = channel then some false else none
  | _ => none

/-- The words of several calls on a matter, in their order. -/
def words (ks : List Call) (id : ConnectionId) (channel : String) : List Bool :=
  ks.filterMap (Call.word? id channel)

/-- The last word on a matter. -/
def lastWord? (ks : List Call) (id : ConnectionId) (channel : String) : Option Bool :=
  (words ks id channel).getLast?

/-- Is the call a word on a registered connection and a channel with a name that it may have? -/
def Call.Tunes (b : Board) : Call → Prop
  | .subscribe id channel | .unsubscribe id channel =>
    id ∈ b.registered ∧ channel ≠ "" ∧ (Utf8.ofString channel).length ≤ longestChannel
  | _ => False

theorem lastWord?_concat (ks : List Call) (k : Call) (id : ConnectionId) (channel : String) :
    lastWord? (ks ++ [k]) id channel = (k.word? id channel).or (lastWord? ks id channel) := by
  rw [lastWord?, words, List.filterMap_append, List.getLast?_append]
  refine congrArg (Option.or · _) ?_
  rw [List.filterMap_cons, List.filterMap_nil]
  cases k.word? id channel <;> rfl

theorem lastWord?_cons (k : Call) (ks : List Call) (id : ConnectionId) (channel : String) :
    lastWord? (k :: ks) id channel = (lastWord? ks id channel).or (k.word? id channel) := by
  rw [← List.singleton_append, lastWord?, words, List.filterMap_append, List.getLast?_append]
  refine congrArg (Option.or _) ?_
  rw [List.filterMap_cons, List.filterMap_nil]
  cases k.word? id channel <;> rfl

/-! ### What the calls touch -/

/-- Nothing is different but the channel index and what registered connections listen to. -/
structure Retuned (b b' : Board) : Prop where
  rest : b' = { b with lines := b'.lines, channels := b'.channels }
  lines : b'.lines.map Connection.apart = b.lines.map Connection.apart
  others : ∀ {l : LineNumber}, (∀ id : ConnectionId, b.registered[id]? ≠ some l) →
    b'.lines[l]? = b.lines[l]?

theorem Retuned.refl (b : Board) : Retuned b b := ⟨rfl, rfl, fun _ => rfl⟩

theorem Retuned.registered (h : Retuned b b') : b'.registered = b.registered := by
  rw [h.rest]

theorem Retuned.trans (h : Retuned b b') (h' : Retuned b' b'') : Retuned b b'' where
  rest := by
    rw [h'.rest, h.rest]
  lines := h'.lines.trans h.lines
  others := by
    intro l hno
    have hno' : ∀ id : ConnectionId, b'.registered[id]? ≠ some l := by
      rw [h.registered]
      exact hno
    exact (h'.others hno').trans (h.others hno)

theorem Retuned.exists_line (h : Retuned b b') (hc : b.lines[l]? = some c) :
    ∃ c', b'.lines[l]? = some c' ∧ c'.apart = c.apart := by
  have hm : (b'.lines.map Connection.apart)[l]? = (b.lines.map Connection.apart)[l]? := by
    rw [h.lines]
  rw [List.getElem?_map, List.getElem?_map, hc] at hm
  exact Option.map_eq_some_iff.1 hm

theorem Retuned.tunes (h : Retuned b b') (hk : k.Tunes b) : k.Tunes b' := by
  cases k with
  | subscribe id channel | unsubscribe id channel =>
    show id ∈ b'.registered ∧ _
    rw [h.registered]
    exact hk
  | _ => exact hk.elim

/-- A change of what a registered connection listens to. -/
theorem retuned_modify (hl : b.registered[id]? = some l) {f : Connection → Connection}
    (hf : ∀ c, (f c).apart = c.apart) (channels : ChannelIndex) :
    Retuned b { b.modify l f with channels } where
  rest := rfl
  lines := map_modify fun c _ => hf c
  others := by
    intro l' hno
    apply getElem?_modify_ne
    rintro rfl
    exact hno id hl

/-- **What the index lists tells everything.** -/
theorem Retuned.unique (h' : b'.InStep) (h'' : b''.InStep) (r' : Retuned b b')
    (r'' : Retuned b b'') (he : ∀ (id : ConnectionId) (channel : String),
      id ∈ b''.channels.listed channel ↔ id ∈ b'.channels.listed channel) : b'' = b' := by
  have hchannels : b''.channels = b'.channels := by
    refine h'.channelsTight.eq_of_listed h''.channelsTight fun channel => ?_
    exact Std.ExtTreeSet.ext_mem fun id => he id channel
  have hlines : b''.lines = b'.lines := by
    refine List.ext_getElem? fun l => ?_
    by_cases hreg : ∃ id : ConnectionId, b.registered[id]? = some l
    · obtain ⟨id, hid⟩ := hreg
      have hid' : b'.registered[id]? = some l := by rw [r'.registered, hid]
      have hid'' : b''.registered[id]? = some l := by rw [r''.registered, hid]
      obtain ⟨c', hc', -⟩ := h'.named hid'
      obtain ⟨c'', hc'', -⟩ := h''.named hid''
      have hm : (b''.lines.map Connection.apart)[l]? = (b'.lines.map Connection.apart)[l]? := by
        rw [r''.lines, r'.lines]
      rw [List.getElem?_map, List.getElem?_map, hc', hc''] at hm
      rw [hc', hc'', Connection.eq_of_apart (Option.some.inj hm) fun channel => ?_]
      -- a registered connection listens where it is listed
      rw [← h'.mem_channel_iff (holder?_of hid' hc'), ← h''.mem_channel_iff (holder?_of hid'' hc'')]
      exact he id channel
    · have hno := not_exists.1 hreg
      rw [r'.others hno, r''.others hno]
  rw [r''.rest, r'.rest, hlines, hchannels]

/-! ### One call -/

/-- What is asked of a registered connection and a channel with a good name is carried out. -/
theorem InStep.retuned_of_checked (h : b.InStep) (hid : id ∈ b.registered)
    (hname : channel ≠ "" ∧ (Utf8.ofString channel).length ≤ longestChannel)
    {f : Connection → Connection} (hf : ∀ c, (f c).apart = c.apart) {channels : ChannelIndex}
    {r : Except Fault Board} (hr : r = do
      checkChannel channel
      let (l, _) ← b.find id
      .ok { b.modify l f with channels }) :
    Retuned b (b.orKeep r) ∧ (b.orKeep r).channels = channels := by
  obtain ⟨l, hl⟩ := Option.isSome_iff_exists.1 (Std.ExtTreeMap.mem_iff_isSome_getElem?.1 hid)
  obtain ⟨c, hc, -⟩ := h.named hl
  have hdone : b.orKeep r = { b.modify l f with channels } := by
    rw [hr, checkChannel_eq_ok_iff.2 hname, find_of hl hc]
    rfl
  rw [hdone]
  exact ⟨retuned_modify hl hf channels, rfl⟩

/-- A word on the matter is what counts, and on any other matter what has been before. -/
theorem settled_iff {matter now : Prop} [Decidable matter] {word before : Bool}
    (hthis : matter → (now ↔ word = true)) (hother : ¬ matter → (now ↔ before = true)) :
    now ↔ (if matter then some word else none).getD before = true := by
  split
  · rename_i e
    exact hthis e
  · rename_i e
    exact hother e

/-- A call with a word on a matter settles it, and no other. -/
theorem InStep.tuned (h : b.InStep) (hk : k.Tunes b) : Retuned b (b.after k) ∧
    ∀ (id : ConnectionId) (channel : String), id ∈ (b.after k).channels.listed channel ↔
      (k.word? id channel).getD ((b.channels.listed channel).contains id) = true := by
  cases k with
  | subscribe id channel =>
    obtain ⟨hr, hchannels⟩ := h.retuned_of_checked hk.1 hk.2
      (f := fun c => (c.join channel).2) (fun _ => rfl) (r := b.subscribe id channel) rfl
    refine ⟨hr, fun id' channel' => ?_⟩
    show id' ∈ (b.orKeep _).channels.listed channel' ↔ _
    rw [hchannels, ChannelIndex.mem_listed_join]
    refine settled_iff (fun e => by simp [e.1, e.2]) fun e => ?_
    have hother : ¬ (channel' = channel ∧ id' = id) := fun ⟨he, he'⟩ => e ⟨he'.symm, he.symm⟩
    simp [hother]
  | unsubscribe id channel =>
    obtain ⟨hr, hchannels⟩ := h.retuned_of_checked hk.1 hk.2
      (f := fun c => (c.leave channel).2) (fun _ => rfl) (r := b.unsubscribe id channel) rfl
    refine ⟨hr, fun id' channel' => ?_⟩
    show id' ∈ (b.orKeep _).channels.listed channel' ↔ _
    rw [hchannels, ChannelIndex.mem_listed_leave]
    refine settled_iff (fun e => by simp [e.1, e.2]) fun e => ?_
    have hother : ¬ (channel' = channel ∧ id' = id) := fun ⟨he, he'⟩ => e ⟨he'.symm, he.symm⟩
    simp [hother]
  | _ => exact hk.elim

/-! ### Several calls -/

/-- **The last word on a matter counts**, and where there is none, what was listed before. -/
theorem InStep.retuned_run (h : b.InStep) (hks : ∀ k ∈ ks, k.Tunes b) :
    (b.run ks).InStep ∧ Retuned b (b.run ks) ∧
      ∀ (id : ConnectionId) (channel : String), id ∈ (b.run ks).channels.listed channel ↔
        (lastWord? ks id channel).getD ((b.channels.listed channel).contains id) = true := by
  induction ks using List.reverseRecOn with
  | nil => exact ⟨h, .refl b, fun id channel => Std.ExtTreeSet.contains_iff_mem.symm⟩
  | append_singleton ks k ih =>
    obtain ⟨hi, hr, hlisted⟩ := ih fun k' hk' => hks k' (List.mem_append_left _ hk')
    have hk : k.Tunes (b.run ks) := hr.tunes (hks k List.mem_concat_self)
    have hfresh : k.Fresh (b.run ks) := by
      cases k with
      | subscribe | unsubscribe => exact trivial
      | _ => exact hk.elim
    obtain ⟨hone, hword⟩ := hi.tuned hk
    have hrun : b.run (ks ++ [k]) = (b.run ks).after k :=
      List.foldl_concat _ _ _ _
    rw [hrun]
    refine ⟨hi.after k hfresh, hr.trans hone, fun id channel => ?_⟩
    rw [hword, lastWord?_concat]
    cases k.word? id channel with
    | some w => rfl
    | none => exact Std.ExtTreeSet.contains_iff_mem.trans (hlisted id channel)

/-- Of whoever is not registered there is no word. -/
theorem lastWord?_eq_none (hks : ∀ k ∈ ks, k.Tunes b) (hno : b.registered[id]? = none)
    (channel : String) : lastWord? ks id channel = none := by
  have hid : id ∉ b.registered := by
    rw [Std.ExtTreeMap.mem_iff_isSome_getElem?, hno]
    exact Bool.false_ne_true
  have hwords : words ks id channel = [] := by
    refine List.filterMap_eq_nil_iff.2 fun k hk => ?_
    have htunes := hks k hk
    cases k with
    | subscribe id' channel' | unsubscribe id' channel' =>
      apply if_neg
      rintro ⟨rfl, -⟩
      exact hid htunes.1
    | _ => exact htunes.elim
  rw [lastWord?, hwords]
  rfl

/-- What any connection listens to in the end. -/
theorem InStep.subscriptions_run (h : b.InStep) (hks : ∀ k ∈ ks, k.Tunes b)
    (hc : b.lines[l]? = some c) :
    ∃ subscriptions, (b.run ks).lines[l]? = some { c with subscriptions } ∧
      ∀ channel, channel ∈ subscriptions ↔
        (lastWord? ks c.id channel).getD (c.subscriptions.contains channel) = true := by
  obtain ⟨hi, hr, hlisted⟩ := h.retuned_run hks
  rcases e : b.registered[c.id]? with - | l'
  · -- nobody speaks of it, and so it is left alone
    have hno : ∀ id : ConnectionId, b.registered[id]? ≠ some l := by
      intro id hl
      rw [← h.id_eq hl hc, e] at hl
      cases hl
    refine ⟨c.subscriptions, (hr.others hno).trans hc, fun channel => ?_⟩
    rw [lastWord?_eq_none hks e]
    exact Std.ExtTreeSet.contains_iff_mem.symm
  · -- it listens where it is listed
    obtain rfl : l' = l := h.line_eq_of_registered e hc
    obtain ⟨c', hc', hapart⟩ := hr.exists_line hc
    have hself : c' = { c with subscriptions := c'.subscriptions } :=
      Connection.eq_of_apart hapart fun _ => Iff.rfl
    have hl' : (b.run ks).registered[c.id]? = some l' := by rw [hr.registered, e]
    refine ⟨c'.subscriptions, hself ▸ hc', fun channel => ?_⟩
    have hbefore :
        (b.channels.listed channel).contains c.id = c.subscriptions.contains channel := by
      rw [Bool.eq_iff_iff, Std.ExtTreeSet.contains_iff_mem, Std.ExtTreeSet.contains_iff_mem]
      exact h.mem_channel_iff (holder?_of e hc)
    rw [← hi.mem_channel_iff (holder?_of hl' hc'), hlisted, hbefore]

/-- Two runs that settle every matter alike leave the same board. -/
theorem InStep.run_eq_of_words (h : b.InStep) (hks : ∀ k ∈ ks, k.Tunes b)
    (hks' : ∀ k ∈ ks', k.Tunes b) (he : ∀ (id : ConnectionId) (channel : String),
      (lastWord? ks id channel).getD ((b.channels.listed channel).contains id) =
        (lastWord? ks' id channel).getD ((b.channels.listed channel).contains id)) :
    b.run ks = b.run ks' := by
  obtain ⟨hi, hr, hlisted⟩ := h.retuned_run hks
  obtain ⟨hi', hr', hlisted'⟩ := h.retuned_run hks'
  refine Retuned.unique hi' hi hr' hr fun id channel => ?_
  rw [hlisted, hlisted', he]

/-- Whoever has been told last to listen is told nothing new by being told so again. -/
theorem InStep.run_subscribe_again (h : b.InStep) (hks : ∀ k ∈ ks, k.Tunes b)
    (hlast : lastWord? ks id channel = some true) :
    b.run (ks ++ [.subscribe id channel]) = b.run ks := by
  have hk : (Call.subscribe id channel).Tunes b := by
    obtain ⟨k, hk, hword⟩ := List.mem_filterMap.1 (List.mem_of_getLast? hlast)
    have htunes := hks k hk
    cases k with
    | subscribe id' channel' =>
      rw [Call.word?] at hword
      split at hword
      · rename_i e
        rwa [e.1, e.2] at htunes
      · cases hword
    | unsubscribe id' channel' =>
      rw [Call.word?] at hword
      split at hword <;> cases hword
    | _ => exact htunes.elim
  refine h.run_eq_of_words (List.forall_mem_append.2 ⟨hks, by simpa using hk⟩) hks ?_
  intro id' channel'
  rw [lastWord?_concat, Call.word?]
  split
  · rename_i e
    rw [← e.1, ← e.2, hlast]
    rfl
  · rfl

/-- Whoever did not listen and is told to, and in the end not to, has never been told to. -/
theorem InStep.run_unsubscribe (h : b.InStep) (hks : ∀ k ∈ ks, k.Tunes b)
    (hk : (Call.subscribe id channel).Tunes b) (hno : id ∉ b.channels.listed channel)
    (hlast : lastWord? ks id channel = none) :
    b.run (.subscribe id channel :: (ks ++ [.unsubscribe id channel])) = b.run ks := by
  have hall : ∀ k ∈ Call.subscribe id channel :: (ks ++ [.unsubscribe id channel]),
      k.Tunes b := by
    refine List.forall_mem_cons.2 ⟨hk, List.forall_mem_append.2 ⟨hks, ?_⟩⟩
    exact List.forall_mem_singleton.2 hk
  have hold : (b.channels.listed channel).contains id = false := by
    rw [Bool.eq_false_iff, ne_eq, Std.ExtTreeSet.contains_iff_mem]
    exact hno
  refine h.run_eq_of_words hall hks fun id' channel' => ?_
  rw [lastWord?_cons, lastWord?_concat, Call.word?, Call.word?]
  by_cases e : id = id' ∧ channel = channel'
  · rw [if_pos e, if_pos e, ← e.1, ← e.2, hlast, hold]
    rfl
  · rw [if_neg e, if_neg e, Option.or_none]
    rfl

/-- **Only the last words count.**  To subscribe and unsubscribe registered connections, any number
of times and in any order, comes to what was last said on each connection and channel: it decides
who listens where and which channels there are, and all else stays as it was.  So runs with the same
last words leave the same board, such as those that say the same on each matter in the same order;
to subscribe again changes nothing; and to unsubscribe undoes a first subscription, whatever has
been done on other matters in between, so that a channel that came to be by it is no longer there
to be counted. -/
theorem last_words_count {policy : Policy} {b : Board} (h : Reachable policy b) :
    (∀ ks : List Call, (∀ k ∈ ks, k.Tunes b) →
      b.run ks = { b with lines := (b.run ks).lines, channels := (b.run ks).channels } ∧
      (∀ (l : LineNumber) (c : Connection), b.lines[l]? = some c →
        ∃ subscriptions, (b.run ks).lines[l]? = some { c with subscriptions } ∧
          ∀ channel, channel ∈ subscriptions ↔
            (lastWord? ks c.id channel).getD (c.subscriptions.contains channel) = true) ∧
      (∀ (channel : String) (id : ConnectionId), id ∈ (b.run ks).channels.listed channel ↔
        (lastWord? ks id channel).getD ((b.channels.listed channel).contains id) = true) ∧
      ∀ channel, channel ∈ (b.run ks).channels ↔ ∃ id,
        (lastWord? ks id channel).getD ((b.channels.listed channel).contains id) = true) ∧
    (∀ ks ks' : List Call, (∀ k ∈ ks, k.Tunes b) → (∀ k ∈ ks', k.Tunes b) →
      (∀ id channel, lastWord? ks id channel = lastWord? ks' id channel) →
        b.run ks = b.run ks') ∧
    (∀ ks ks' : List Call, (∀ k ∈ ks, k.Tunes b) → (∀ k ∈ ks', k.Tunes b) →
      (∀ id channel, words ks id channel = words ks' id channel) → b.run ks = b.run ks') ∧
    (∀ (ks : List Call) (id : ConnectionId) (channel : String), (∀ k ∈ ks, k.Tunes b) →
      lastWord? ks id channel = some true →
        b.run (ks ++ [.subscribe id channel]) = b.run ks) ∧
    ∀ (ks : List Call) (id : ConnectionId) (channel : String), (∀ k ∈ ks, k.Tunes b) →
      (Call.subscribe id channel).Tunes b → id ∉ b.channels.listed channel →
      lastWord? ks id channel = none →
        b.run (.subscribe id channel :: (ks ++ [.unsubscribe id channel])) = b.run ks := by
  have hi := h.inStep
  refine ⟨fun ks hks => ?_, fun ks ks' hks hks' he => ?_, fun ks ks' hks hks' he => ?_,
    fun ks id channel hks => hi.run_subscribe_again hks,
    fun ks id channel hks => hi.run_unsubscribe hks⟩
  · obtain ⟨hi', hr, hlisted⟩ := hi.retuned_run hks
    refine ⟨hr.rest, fun l c => hi.subscriptions_run hks, fun channel id => hlisted id channel,
      fun channel => ?_⟩
    rw [ChannelIndex.mem_iff_exists hi'.channelsTight]
    exact exists_congr fun id => hlisted id channel
  · exact hi.run_eq_of_words hks hks' fun id channel => by rw [he]
  · exact hi.run_eq_of_words hks hks' fun id channel => by rw [lastWord?, he, lastWord?]

/-- Two connections come in. -/
def duet : List Call := [.enter 1 4 0, .enter 2 4 0]

/-- One of them tries a channel and the other stays in it.  If the trial comes first, the channel
ceases to be in between, and if it comes last, it does not; the same board is left.  And the trial
alone leaves nothing. -/
theorem last_words_count_duet :
    FreshRun (Board.empty .standard) duet ∧
      let b := (Board.empty .standard).run duet
      let trial : List Call := [.subscribe 1 "doc", .unsubscribe 1 "doc"]
      b.run (trial ++ [.subscribe 2 "doc"]) = b.run (.subscribe 2 "doc" :: trial) ∧
        (b.run (.subscribe 2 "doc" :: trial)).stats = ⟨2, 0, 1⟩ ∧
        b.run trial = b ∧ (b.run trial).stats = ⟨2, 0, 0⟩ := by
  have hf : FreshRun (Board.empty .standard) duet := by decide +kernel
  refine ⟨hf, ?_⟩
  intro b trial
  obtain ⟨-, -, hwords, -, hundo⟩ := last_words_count (Reachable.empty.run hf)
  have hname : "doc" ≠ "" ∧ (Utf8.ofString "doc").length ≤ longestChannel := by decide
  have hfirst : 1 ∈ b.registered := by decide +kernel
  have hsecond : 2 ∈ b.registered := by decide +kernel
  have htunes : ∀ k ∈ .subscribe 2 "doc" :: trial, k.Tunes b := by
    simp only [trial, List.forall_mem_cons]
    exact ⟨⟨hsecond, hname⟩, ⟨hfirst, hname⟩, ⟨hfirst, hname⟩, by simp⟩
  have hnobody : 1 ∉ b.channels.listed "doc" := by decide +kernel
  have hboard : b.run trial = b := by
    apply hundo [] 1 "doc" (by simp) ⟨hfirst, hname⟩ hnobody rfl
  refine ⟨hwords _ _ (fun k hk => htunes k ?_) htunes fun id channel => ?_, by decide +kernel,
    hboard, ?_⟩
  · exact (List.perm_append_singleton _ _).mem_iff.1 hk
  · -- a matter is the trial's or the other's, or nobody's
    by_cases h1 : 1 = id
    · subst h1
      by_cases hch : "doc" = channel <;> simp [words, trial, Call.word?, hch]
    · simp [words, trial, List.filterMap_cons, Call.word?, h1]
  · rw [hboard]
    decide +kernel

end Board

end Switchboard
