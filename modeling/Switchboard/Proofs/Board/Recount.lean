/-
Switchboard/Proofs/Board/Recount.lean

What the counts of a board count.

The board answers for its counts from the indices alone.  Since these are in
step with the connections, every count is one over the registered
connections: how many there are, how many users and channels they name, and
how many of them name a given one.  And since an index keeps no name for
nothing, it is empty when nobody is registered.

The main statement, `reachable_indexed`, says all this of every board that a
run arrives at.
-/
import Switchboard.Proofs.Board.Consistency

namespace Switchboard.Board

variable {b : Board} {id : ConnectionId} {c : Connection}

/-- The registered connections. -/
def holders (b : Board) : List Connection := b.registered.toList.filterMap fun r => b.lines[r.2]?

/-- Those that are counted are those that names lead to. -/
theorem mem_holders : c ∈ b.holders ↔ ∃ id, b.holder? id = some c := by
  rw [holders, List.mem_filterMap]
  constructor
  · rintro ⟨⟨id, l⟩, hr, hc⟩
    exact ⟨id, holder?_of (Std.ExtTreeMap.mem_toList_iff_getElem?_eq_some.1 hr) hc⟩
  · rintro ⟨id, hc⟩
    obtain ⟨l, hl, hc⟩ := holder?_eq_some.1 hc
    exact ⟨(id, l), Std.ExtTreeMap.mem_toList_iff_getElem?_eq_some.2 hl, hc⟩

/-! ### Counting by names and counting by connections -/

/-- No name leads to two of them. -/
theorem nodup_names (b : Board) : (b.registered.toList.map Prod.fst).Nodup := by
  rw [List.Nodup, List.pairwise_map]
  exact b.pairwise_registered

/-- A list that names every registered connection of some sort once is as long as there are such
connections. -/
theorem length_eq_countP {ids : List ConnectionId} (hn : ids.Nodup) (p : Connection → Bool)
    (h : ∀ id, id ∈ ids ↔ ∃ c, b.holder? id = some c ∧ p c = true) :
    ids.length = b.holders.countP p := by
  -- both count the entries of the registry that lead to a connection of the sort
  let sort : ConnectionId × LineNumber → Bool := fun r => b.lines[r.2]?.any p
  have hperm : ids.Perm ((b.registered.toList.filter sort).map Prod.fst) := by
    refine (List.perm_ext_iff_of_nodup hn ?_).2 fun id => ?_
    · exact b.nodup_names.sublist (List.filter_sublist.map Prod.fst)
    · rw [h, List.mem_map]
      constructor
      · rintro ⟨c, hc, hp⟩
        obtain ⟨l, hl, hc⟩ := holder?_eq_some.1 hc
        have hm := Std.ExtTreeMap.mem_toList_iff_getElem?_eq_some.2 hl
        exact ⟨(id, l), List.mem_filter.2 ⟨hm, by simp [sort, hc, hp]⟩, rfl⟩
      · rintro ⟨⟨_, l⟩, hr, rfl⟩
        obtain ⟨hm, hs⟩ := List.mem_filter.1 hr
        obtain ⟨c, hc, hp⟩ := (Option.any_eq_true _ _).1 hs
        exact ⟨c, holder?_of (Std.ExtTreeMap.mem_toList_iff_getElem?_eq_some.1 hm) hc, hp⟩
  rw [hperm.length_eq, List.length_map, ← List.countP_eq_length_filter, holders,
    List.countP_filterMap]
  refine List.countP_congr fun r _ => ?_
  rcases e : b.lines[r.2]? with - | c <;> simp [sort, e]

/-- The names of an index are as many as the names that the registered connections give, if each of
the one is one of the other. -/
theorem length_eq_card {names given : List String} (hn : names.Nodup)
    (h : ∀ name, name ∈ names ↔ name ∈ given) : names.length = given.toFinset.card := by
  rw [← List.toFinset_card_of_nodup hn]
  refine congrArg Finset.card (Finset.ext fun name => ?_)
  rw [List.mem_toFinset, List.mem_toFinset, h]

theorem nodup_keys {β : Type} (t : Std.ExtTreeMap String β) : t.keys.Nodup :=
  (Std.ExtTreeMap.distinct_keys (t := t)).imp fun h e =>
    h (Std.LawfulEqCmp.compare_eq_iff_eq.2 e)

/-! ### The counts of the indices -/

/-- The counts of the registered connections: how many there are, and how many users and channels
they name between them. -/
def recount (b : Board) : Stats where
  connections := b.holders.length
  users := (b.holders.filterMap Connection.user?).toFinset.card
  channels := (b.holders.flatMap fun c => c.subscriptions.toList).toFinset.card

/-- There are as many as there are names. -/
theorem InStep.length_holders (h : b.InStep) : b.holders.length = b.registered.size := by
  rw [holders, ← Std.ExtTreeMap.length_toList, List.length_filterMap_eq_countP,
    List.countP_eq_length]
  intro r hr
  obtain ⟨c, hc, -⟩ := h.named (Std.ExtTreeMap.mem_toList_iff_getElem?_eq_some.1 hr)
  rw [hc, Option.isSome_some]

/-- A user has an entry if one of them is its connection. -/
theorem InStep.mem_users (h : b.InStep) {user : String} :
    user ∈ b.users ↔ ∃ c ∈ b.holders, c.user? = some user := by
  rw [UserIndex.mem_iff_listed_ne_nil h.usersTight]
  constructor
  · intro hne
    obtain ⟨id, hid⟩ := List.exists_mem_of_ne_nil _ hne
    obtain ⟨c, hc, hu⟩ := (h.users user id).1 hid
    exact ⟨c, mem_holders.2 ⟨id, hc⟩, hu⟩
  · rintro ⟨c, hc, hu⟩
    obtain ⟨id, hc⟩ := mem_holders.1 hc
    exact List.ne_nil_of_mem ((h.users user id).2 ⟨c, hc, hu⟩)

/-- A channel has one if one of them is in it. -/
theorem InStep.mem_channels (h : b.InStep) {channel : String} :
    channel ∈ b.channels ↔ ∃ c ∈ b.holders, channel ∈ c.subscriptions := by
  rw [ChannelIndex.mem_iff_exists h.channelsTight]
  constructor
  · rintro ⟨id, hid⟩
    obtain ⟨c, hc, hs⟩ := (h.channels channel id).1 hid
    exact ⟨c, mem_holders.2 ⟨id, hc⟩, hs⟩
  · rintro ⟨c, hc, hs⟩
    obtain ⟨id, hc⟩ := mem_holders.1 hc
    exact ⟨id, (h.channels channel id).2 ⟨c, hc, hs⟩⟩

/-- **The totals** are those of the recount. -/
theorem InStep.stats_eq_recount (h : b.InStep) : b.stats = b.recount := by
  have hu : b.users.size = (b.holders.filterMap Connection.user?).toFinset.card := by
    rw [← Std.ExtTreeMap.length_keys]
    refine length_eq_card (nodup_keys b.users) fun user => ?_
    rw [Std.ExtTreeMap.mem_keys, h.mem_users, List.mem_filterMap]
  have hc : b.channels.size =
      (b.holders.flatMap fun c => c.subscriptions.toList).toFinset.card := by
    rw [← Std.ExtTreeMap.length_keys]
    refine length_eq_card (nodup_keys b.channels) fun channel => ?_
    rw [Std.ExtTreeMap.mem_keys, h.mem_channels, List.mem_flatMap]
    simp only [Std.ExtTreeSet.mem_toList]
  rw [stats, recount, h.length_holders, hu, hc]

/-- The count of a user is that of its connections. -/
theorem InStep.connectionCount_eq (h : b.InStep) (user : String) :
    b.connectionCount user = b.holders.countP fun c => c.user? == some user := by
  have hl : b.connectionCount user = (b.users.listed user).length := by
    rw [connectionCount, UserIndex.listed]
    rcases b.users[user]? with - | ids <;> rfl
  rw [hl]
  refine length_eq_countP (h.once user) _ fun id => ?_
  simp only [h.users, beq_iff_eq]

/-- The count of a channel is that of its members. -/
theorem InStep.subscriberCount_eq (h : b.InStep) (channel : String) :
    b.subscriberCount channel = b.holders.countP fun c => c.subscriptions.contains channel := by
  have hl : b.subscriberCount channel = (b.channels.listed channel).toList.length := by
    rw [subscriberCount, ChannelIndex.listed, Std.ExtTreeSet.length_toList]
    rcases b.channels[channel]? with - | members <;> simp
  rw [hl]
  refine length_eq_countP (ChannelIndex.nodup_toList _) _ fun id => ?_
  rw [Std.ExtTreeSet.mem_toList, h.channels]
  simp only [Std.ExtTreeSet.contains_iff_mem]

/-! ### Unregistering everyone -/

/-- Unregisters several names one after the other. -/
def unregisterAll (b : Board) (ids : List ConnectionId) : Board :=
  ids.foldl (fun b id => (b.unregister id).2) b

/-- To take several names off keeps the indices right. -/
theorem InStep.unregisterAll {ids : List ConnectionId} (h : b.InStep) :
    (b.unregisterAll ids).InStep := by
  induction ids generalizing b with
  | nil => exact h
  | cons id ids ih => exact ih (h.unregister id)

theorem getElem?_registered_unregisterAll {ids : List ConnectionId} (id : ConnectionId) :
    (b.unregisterAll ids).registered[id]? = if id ∈ ids then none else b.registered[id]? := by
  induction ids generalizing b with
  | nil => simp [Board.unregisterAll]
  | cons id' ids ih =>
    refine ih.trans ?_
    rw [registered_unregister, Std.ExtTreeMap.getElem?_erase]
    simp only [Std.LawfulEqCmp.compare_eq_iff_eq, List.mem_cons]
    by_cases hid : id = id'
    · simp [hid]
    · simp [hid, Ne.symm hid]

/-- With nobody registered all three indices are empty. -/
theorem InStep.eq_empty (h : b.InStep) (hr : b.registered = ∅) :
    b.users = ∅ ∧ b.channels = ∅ := by
  have hh : b.holders = [] := by simp [holders, hr]
  constructor
  · refine Std.ExtTreeMap.eq_empty_iff_forall_not_mem.2 fun user hm => ?_
    obtain ⟨c, hc, -⟩ := h.mem_users.1 hm
    simp [hh] at hc
  · refine Std.ExtTreeMap.eq_empty_iff_forall_not_mem.2 fun channel hm => ?_
    obtain ⟨c, hc, -⟩ := h.mem_channels.1 hm
    simp [hh] at hc

/-- With everybody taken off, nothing is left in any index. -/
theorem InStep.unregister_everyone {ids : List ConnectionId} (h : b.InStep)
    (hids : ∀ id ∈ b.registered, id ∈ ids) :
    (b.unregisterAll ids).registered = ∅ ∧ (b.unregisterAll ids).users = ∅ ∧
      (b.unregisterAll ids).channels = ∅ := by
  have hr : (b.unregisterAll ids).registered = ∅ := by
    refine Std.ExtTreeMap.ext_getElem? fun id => ?_
    rw [getElem?_registered_unregisterAll]
    by_cases hid : id ∈ ids
    · simp [hid]
    · have hno : id ∉ b.registered := fun hm => hid (hids id hm)
      simp [hid, hno]
  exact ⟨hr, h.unregisterAll.eq_empty hr⟩

/-! ### Runs -/

/-- **The indices are in step with the connections on every board that a run arrives at.**  The
channel index lists a name exactly where its registered connection is subscribed; the user index
lists it exactly under the user of its registered connection, and there once; neither keeps an
empty entry.  So every count is a count over the registered connections, and after everyone has
been unregistered, in any order, nothing is left. -/
theorem reachable_indexed {policy : Policy} {b : Board} (h : Reachable policy b) :
    (∀ (channel : String) (id : ConnectionId),
      (∃ members, b.channels[channel]? = some members ∧ id ∈ members) ↔
        ∃ c, b.holder? id = some c ∧ channel ∈ c.subscriptions) ∧
    (∀ (user : String) (id : ConnectionId),
      (∃ ids, b.users[user]? = some ids ∧ id ∈ ids) ↔
        ∃ c, b.holder? id = some c ∧ c.user? = some user) ∧
    (∀ (user : String) (ids : List ConnectionId), b.users[user]? = some ids →
      ∀ id ∈ ids, ids.count id = 1) ∧
    (∀ (channel : String) (members : Std.ExtTreeSet ConnectionId),
      b.channels[channel]? = some members → members ≠ ∅) ∧
    (∀ (user : String) (ids : List ConnectionId), b.users[user]? = some ids → ids ≠ []) ∧
    b.stats = b.recount ∧
    (∀ channel, b.subscriberCount channel =
      b.holders.countP fun c => c.subscriptions.contains channel) ∧
    (∀ user, b.connectionCount user = b.holders.countP fun c => c.user? == some user) ∧
    (∀ ids : List ConnectionId, (∀ id ∈ b.registered, id ∈ ids) →
      (b.unregisterAll ids).registered = ∅ ∧ (b.unregisterAll ids).users = ∅ ∧
        (b.unregisterAll ids).channels = ∅) := by
  have hs := h.inStep
  refine ⟨?_, ?_, ?_, hs.channelsTight, hs.usersTight, hs.stats_eq_recount,
    hs.subscriberCount_eq, hs.connectionCount_eq, fun ids => hs.unregister_everyone⟩
  · intro channel id
    rw [← hs.channels, ChannelIndex.listed]
    rcases b.channels[channel]? with - | members <;> simp
  · intro user id
    rw [← hs.users, UserIndex.listed]
    rcases b.users[user]? with - | ids <;> simp
  · intro user ids hids id hid
    have hn := hs.once user
    rw [UserIndex.listed_eq_of_getElem? hids] at hn
    exact List.count_eq_one_of_mem hn hid

/-- Two connections of one user meet in a channel, one of them leaves it by a name that nobody has,
and is closed. -/
def meeting : List Call :=
  [.enter 1 4 0, .enter 2 4 0, .identify 1 ⟨"ann", "a"⟩, .identify 2 ⟨"ann", "b"⟩,
    .subscribe 1 "doc", .subscribe 2 "doc", .unsubscribe 3 "doc", .close 1]

theorem reachable_indexed_meeting :
    FreshRun (Board.empty .standard) meeting ∧
      (run (Board.empty .standard) meeting).recount = ⟨2, 1, 1⟩ ∧
      (run (Board.empty .standard) meeting).subscriberCount "doc" = 2 ∧
      ((run (Board.empty .standard) meeting).unregisterAll [2, 1]).users = ∅ := by
  have hr : FreshRun (Board.empty .standard) meeting := by decide
  obtain ⟨-, -, -, -, -, hstats, -, -, hall⟩ :=
    reachable_indexed (Reachable.run .empty hr)
  have hc : (run (Board.empty .standard) meeting).stats = ⟨2, 1, 1⟩ := by decide
  have hn : ∀ id ∈ (run (Board.empty .standard) meeting).registered.keys, id ∈ [2, 1] := by decide
  refine ⟨hr, hstats.symm.trans hc, by decide, (hall [2, 1] fun id hid => ?_).2.1⟩
  exact hn id (Std.ExtTreeMap.mem_keys.2 hid)

end Switchboard.Board
