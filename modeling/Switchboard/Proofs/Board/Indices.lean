/-
Switchboard/Proofs/Board/Indices.lean

The two derived indices on their own: what they list, and how joining and
leaving change that.

An index is looked at through `listed`, which gives nothing for a name that
is not there, so that joining and leaving are one equation each, whether or
not the name was there before.  That no name is kept for nothing is a
property beside it, `Tight`; under it the names of an index are exactly
those that list something.
-/
import Mathlib
import Switchboard.Board.Basic

namespace Switchboard

/-! ### The connections of users -/

namespace UserIndex

variable {users : UserIndex} {user other : String} {id : ConnectionId}

/-- The connections listed under a user, in the order of their coming. -/
def listed (users : UserIndex) (user : String) : List ConnectionId := (users[user]?).getD []

/-- No user is kept without a connection. -/
def Tight (users : UserIndex) : Prop :=
  ∀ (user : String) (ids : List ConnectionId), users[user]? = some ids → ids ≠ []

@[simp] theorem listed_empty : listed ∅ user = [] := by
  simp [listed]

theorem tight_empty : Tight ∅ := by
  intro user ids h
  simp at h

/-- What is kept under a user is what is listed under it. -/
theorem listed_eq_of_getElem? {ids : List ConnectionId} (h : users[user]? = some ids) :
    users.listed user = ids := by
  rw [listed, h, Option.getD_some]

/-- The users of an index are those that list a connection. -/
theorem mem_iff_listed_ne_nil (h : users.Tight) : user ∈ users ↔ users.listed user ≠ [] := by
  rw [Std.ExtTreeMap.mem_iff_isSome_getElem?]
  rcases e : users[user]? with - | ids
  · simp [listed, e]
  · rw [listed_eq_of_getElem? e]
    simpa using h user ids e

/-- So an index is known from what it lists. -/
theorem Tight.getElem?_eq_some_iff {ids : List ConnectionId} (h : users.Tight) :
    users[user]? = some ids ↔ ids ≠ [] ∧ ids = users.listed user := by
  constructor
  · intro e
    exact ⟨h user ids e, (listed_eq_of_getElem? e).symm⟩
  · rintro ⟨hne, rfl⟩
    rw [listed] at hne ⊢
    rcases e : users[user]? with - | ids
    · simp [e] at hne
    · rfl

/-- An index that keeps no name for nothing is what it lists. -/
theorem Tight.eq_of_listed {users' : UserIndex} (h : users.Tight) (h' : users'.Tight)
    (he : ∀ user, users'.listed user = users.listed user) : users' = users := by
  refine Std.ExtTreeMap.ext_getElem? fun user => Option.ext fun ids => ?_
  rw [h.getElem?_eq_some_iff, h'.getElem?_eq_some_iff, he]

/-- Joining puts a connection last under its user, and changes nothing under another. -/
theorem listed_join : (users.join user id).listed other =
    if user = other then users.listed user ++ [id] else users.listed other := by
  rw [listed, UserIndex.join, Std.ExtTreeMap.getElem?_insert]
  by_cases h : user = other
  · simp [h, listed]
  · simp [h, listed]

/-- A user that is joined has a connection. -/
theorem Tight.join (h : users.Tight) : (users.join user id).Tight := by
  intro other ids e
  rw [UserIndex.join, Std.ExtTreeMap.getElem?_insert] at e
  by_cases hu : user = other
  · simp only [hu, Std.LawfulEqCmp.compare_eq_iff_eq, if_true, Option.some.injEq] at e
    rw [← e]
    exact List.append_ne_nil_of_right_ne_nil _ (List.cons_ne_nil _ _)
  · simp only [Std.LawfulEqCmp.compare_eq_iff_eq, hu, if_false] at e
    exact h other ids e

/-- Leaving takes a connection off the list of its user, as often as it is there. -/
theorem listed_leave : (users.leave user id).listed other =
    if user = other then (users.listed user).filter (· != id) else users.listed other := by
  rcases e : users[user]? with - | ids
  · rw [UserIndex.leave, e]
    by_cases h : user = other
    · rw [if_pos h, ← h, listed, e, Option.getD_none, List.filter_nil]
    · rw [if_neg h]
  · rw [UserIndex.leave, e]
    by_cases hn : ids.filter (· != id) = []
    · by_cases h : user = other
      · simp [listed, e, hn, ← h]
      · simp [listed, hn, h, Std.ExtTreeMap.getElem?_erase]
    · by_cases h : user = other
      · simp [listed, e, hn, ← h]
      · simp [listed, hn, h, Std.ExtTreeMap.getElem?_insert]

/-- A user whose last connection leaves is dropped. -/
theorem Tight.leave (h : users.Tight) : (users.leave user id).Tight := by
  intro other ids e
  rcases e' : users[user]? with - | before
  · rw [UserIndex.leave, e'] at e
    exact h other ids e
  · simp only [UserIndex.leave, e'] at e
    split at e
    · -- nobody else is left, and the name is dropped
      rw [Std.ExtTreeMap.getElem?_erase] at e
      split at e
      · cases e
      · exact h other ids e
    · rename_i hn
      rw [Std.ExtTreeMap.getElem?_insert] at e
      split at e
      · cases e
        simpa using hn
      · exact h other ids e

end UserIndex

/-! ### The members of channels -/

namespace ChannelIndex

variable {channels : ChannelIndex} {channel other : String} {id member : ConnectionId}

/-- The members listed under a channel. -/
def listed (channels : ChannelIndex) (channel : String) : Std.ExtTreeSet ConnectionId :=
  (channels[channel]?).getD ∅

/-- No channel is kept without a member. -/
def Tight (channels : ChannelIndex) : Prop :=
  ∀ (channel : String) (members : Std.ExtTreeSet ConnectionId),
    channels[channel]? = some members → members ≠ ∅

@[simp] theorem listed_empty : listed ∅ channel = ∅ := by
  simp [listed]

theorem tight_empty : Tight ∅ := by
  intro channel members h
  simp at h

/-- What is kept under a channel is what is listed under it. -/
theorem listed_eq_of_getElem? {members : Std.ExtTreeSet ConnectionId}
    (h : channels[channel]? = some members) : channels.listed channel = members := by
  rw [listed, h, Option.getD_some]

/-- So this index too is known from what it lists. -/
theorem Tight.getElem?_eq_some_iff {members : Std.ExtTreeSet ConnectionId} (h : channels.Tight) :
    channels[channel]? = some members ↔ members ≠ ∅ ∧ members = channels.listed channel := by
  constructor
  · intro e
    exact ⟨h channel members e, (listed_eq_of_getElem? e).symm⟩
  · rintro ⟨hne, rfl⟩
    rw [listed] at hne ⊢
    rcases e : channels[channel]? with - | members
    · simp [e] at hne
    · rfl

/-- An index that keeps no name for nothing is what it lists. -/
theorem Tight.eq_of_listed {channels' : ChannelIndex} (h : channels.Tight) (h' : channels'.Tight)
    (he : ∀ channel, channels'.listed channel = channels.listed channel) :
    channels' = channels := by
  refine Std.ExtTreeMap.ext_getElem? fun channel => Option.ext fun members => ?_
  rw [h.getElem?_eq_some_iff, h'.getElem?_eq_some_iff, he]

/-- A member is counted once in its channel. -/
theorem nodup_toList (members : Std.ExtTreeSet ConnectionId) : members.toList.Nodup :=
  members.distinct_toList.imp fun h e => h (Std.LawfulEqCmp.compare_eq_iff_eq.2 e)

theorem mem_iff_listed_ne_empty (h : channels.Tight) :
    channel ∈ channels ↔ channels.listed channel ≠ ∅ := by
  rw [Std.ExtTreeMap.mem_iff_isSome_getElem?]
  rcases e : channels[channel]? with - | members
  · simp [listed, e]
  · rw [listed_eq_of_getElem? e]
    simpa using h channel members e

/-- The channels of an index are those that have a member. -/
theorem mem_iff_exists (h : channels.Tight) :
    channel ∈ channels ↔ ∃ id, id ∈ channels.listed channel := by
  rw [mem_iff_listed_ne_empty h, ne_eq, ← Std.ExtTreeSet.toList_eq_nil_iff]
  constructor
  · intro hne
    obtain ⟨id, hid⟩ := List.exists_mem_of_ne_nil _ hne
    exact ⟨id, Std.ExtTreeSet.mem_toList.1 hid⟩
  · rintro ⟨id, hid⟩
    exact List.ne_nil_of_mem (Std.ExtTreeSet.mem_toList.2 hid)

/-- Joining adds a member to its channel, and changes nothing in another. -/
theorem listed_join : (channels.join channel id).listed other =
    if channel = other then (channels.listed channel).insert id else channels.listed other := by
  rw [listed, ChannelIndex.join, Std.ExtTreeMap.getElem?_insert]
  by_cases h : channel = other
  · simp [h, listed]
  · simp [h, listed]

/-- Whoever is a member after a joining has joined or was one before. -/
theorem mem_listed_join : member ∈ (channels.join channel id).listed other ↔
    (other = channel ∧ member = id) ∨ member ∈ channels.listed other := by
  rw [listed_join]
  by_cases h : channel = other
  · subst h
    rw [if_pos rfl, Std.ExtTreeSet.mem_insert, Std.LawfulEqCmp.compare_eq_iff_eq]
    simp [eq_comm]
  · rw [if_neg h]
    simp [Ne.symm h]

/-- A channel that is joined has a member. -/
theorem Tight.join (h : channels.Tight) : (channels.join channel id).Tight := by
  intro other members e
  rw [ChannelIndex.join, Std.ExtTreeMap.getElem?_insert] at e
  split at e
  · -- whoever joins is a member
    cases e
    intro hn
    have hm : id ∈ ((channels[channel]?).getD ∅).insert id := Std.ExtTreeSet.mem_insert_self
    rw [hn] at hm
    simp at hm
  · exact h other members e

/-- Leaving takes a member out of its channel. -/
theorem listed_leave : (channels.leave channel id).listed other =
    if channel = other then (channels.listed channel).erase id else channels.listed other := by
  rcases e : channels[channel]? with - | members
  · rw [ChannelIndex.leave, e]
    by_cases h : channel = other
    · rw [if_pos h, ← h, listed, e, Option.getD_none]
      simp
    · rw [if_neg h]
  · rw [ChannelIndex.leave, e]
    by_cases hn : (members.erase id).isEmpty
    · by_cases h : channel = other
      · simp [listed, e, ← h, Std.ExtTreeSet.isEmpty_iff.1 hn]
      · simp [listed, hn, h, Std.ExtTreeMap.getElem?_erase]
    · by_cases h : channel = other
      · simp [listed, e, hn, ← h]
      · simp [listed, hn, h, Std.ExtTreeMap.getElem?_insert]

/-- Whoever is a member after a leaving was one before, and has not left. -/
theorem mem_listed_leave : member ∈ (channels.leave channel id).listed other ↔
    member ∈ channels.listed other ∧ ¬ (other = channel ∧ member = id) := by
  rw [listed_leave]
  by_cases h : channel = other
  · subst h
    rw [if_pos rfl, Std.ExtTreeSet.mem_erase, ne_eq, Std.LawfulEqCmp.compare_eq_iff_eq]
    simp [and_comm, eq_comm]
  · rw [if_neg h]
    simp [Ne.symm h]

/-- A channel whose last member leaves is dropped. -/
theorem Tight.leave (h : channels.Tight) : (channels.leave channel id).Tight := by
  intro other members e
  rcases e' : channels[channel]? with - | before
  · rw [ChannelIndex.leave, e'] at e
    exact h other members e
  · simp only [ChannelIndex.leave, e'] at e
    split at e
    · -- nobody else is left, and the name is dropped
      rw [Std.ExtTreeMap.getElem?_erase] at e
      split at e
      · cases e
      · exact h other members e
    · rename_i hn
      rw [Std.ExtTreeMap.getElem?_insert] at e
      split at e
      · cases e
        rwa [Std.ExtTreeSet.isEmpty_iff] at hn
      · exact h other members e

/-! ### Leaving several channels -/

/-- The index without one member of each of several channels. -/
def leaveAll (channels : ChannelIndex) (names : List String) (id : ConnectionId) : ChannelIndex :=
  names.foldl (fun index channel => index.leave channel id) channels

/-- One that leaves several channels is a member of the others as before. -/
theorem mem_listed_leaveAll {names : List String} :
    member ∈ (channels.leaveAll names id).listed other ↔
      member ∈ channels.listed other ∧ ¬ (other ∈ names ∧ member = id) := by
  induction names generalizing channels with
  | nil => simp [leaveAll]
  | cons channel names ih =>
    rw [leaveAll, List.foldl_cons, ← leaveAll, ih, mem_listed_leave, List.mem_cons]
    tauto

theorem Tight.leaveAll {names : List String} (h : channels.Tight) :
    (channels.leaveAll names id).Tight := by
  induction names generalizing channels with
  | nil => exact h
  | cons channel names ih => exact ih h.leave

end ChannelIndex

end Switchboard
