/-
Switchboard/Proofs/Board/Consistency.lean

The indices are in step with the connections.

Who listens to a channel and who belongs to a user is known twice: every
connection knows it of itself, and the indices know it of all that are
registered.  `InStep` says that the two agree, that nobody is listed twice
under a user, and that no name is kept for nothing.  It is shown of each
operation in turn that it keeps this, and so it holds of whatever a run
arrives at.

From it the counts follow, as counts over the registered connections, and
that unregistering everyone leaves three empty indices.
-/
import Switchboard.Proofs.Board.Indices
import Switchboard.Proofs.Board.Run

namespace Switchboard.Board

/-- The connection that is registered under a name. -/
def holder? (b : Board) (id : ConnectionId) : Option Connection :=
  b.registered[id]?.bind (b.lines[·]?)

/-- The indices list what the registered connections say of themselves. -/
structure InStep (b : Board) : Prop where
  /-- A registered connection has the name under which it is registered. -/
  named : ∀ {id : ConnectionId} {l : LineNumber}, b.registered[id]? = some l →
    ∃ c, b.lines[l]? = some c ∧ c.id = id
  /-- No two connections have the same name. -/
  distinct : (b.lines.map Connection.id).Nodup
  channels : ∀ (channel : String) (id : ConnectionId), id ∈ b.channels.listed channel ↔
    ∃ c, b.holder? id = some c ∧ channel ∈ c.subscriptions
  users : ∀ (user : String) (id : ConnectionId), id ∈ b.users.listed user ↔
    ∃ c, b.holder? id = some c ∧ c.user? = some user
  once : ∀ user : String, (b.users.listed user).Nodup
  channelsTight : b.channels.Tight
  usersTight : b.users.Tight

variable {b b' : Board} {id : ConnectionId} {l : LineNumber} {c : Connection}

/-! ### Holders -/

/-- The connection that a name leads to, by way of its line. -/
theorem holder?_eq_some : b.holder? id = some c ↔
    ∃ l, b.registered[id]? = some l ∧ b.lines[l]? = some c := by
  rw [holder?, Option.bind_eq_some_iff]

theorem holder?_of (hl : b.registered[id]? = some l) (hc : b.lines[l]? = some c) :
    b.holder? id = some c :=
  holder?_eq_some.2 ⟨l, hl, hc⟩

/-- No name is registered twice. -/
theorem pairwise_registered (b : Board) :
    b.registered.toList.Pairwise fun r r' => r.1 ≠ r'.1 :=
  b.registered.distinct_keys_toList.imp fun h e => h (Std.LawfulEqCmp.compare_eq_iff_eq.2 e)

/-- A name that leads to a connection is its own. -/
theorem InStep.id_eq (h : b.InStep) {c : Connection} (hl : b.registered[id]? = some l)
    (hc : b.lines[l]? = some c) : c.id = id := by
  obtain ⟨c', hc', hid⟩ := h.named hl
  cases hc.symm.trans hc'
  exact hid

/-- Different names lead to different connections. -/
theorem InStep.registered_inj (h : b.InStep) {id' : ConnectionId} (hl : b.registered[id]? = some l)
    (hl' : b.registered[id']? = some l) : id = id' := by
  obtain ⟨c, hc, hid⟩ := h.named hl
  exact hid.symm.trans (h.id_eq hl' hc)

/-- A name that no connection has leads to nobody. -/
theorem InStep.registered_eq_none (h : b.InStep) (hu : b.Unused id) :
    b.registered[id]? = none := by
  rcases e : b.registered[id]? with - | l
  · rfl
  · obtain ⟨c, hc, hid⟩ := h.named e
    exact absurd hid (hu c (List.mem_of_getElem? hc))

/-- Who listens where follows from who is registered. -/
theorem InStep.channels_eq (h : b.InStep) (h' : b'.InStep)
    (hold : ∀ id, b'.holder? id = b.holder? id) : b'.channels = b.channels := by
  refine h.channelsTight.eq_of_listed h'.channelsTight fun channel => ?_
  refine Std.ExtTreeSet.ext_mem fun id => ?_
  rw [h.channels, h'.channels, hold]

/-! ### Boards that are alike -/

/-- On alike boards a name leads to connections that stand alike. -/
theorem Alike.holder?_map (a : Alike b b') (id : ConnectionId) :
    (b'.holder? id).map Connection.standing = (b.holder? id).map Connection.standing := by
  rw [holder?, holder?, a.registered]
  rcases b.registered[id]? with - | l
  · rfl
  · exact a.map_standing l

theorem Alike.exists_holder (a : Alike b b') (P : Connection → Prop)
    (hP : ∀ {c c' : Connection}, c'.standing = c.standing → (P c' ↔ P c)) :
    (∃ c, b'.holder? id = some c ∧ P c) ↔ ∃ c, b.holder? id = some c ∧ P c := by
  have hm := a.holder?_map id
  rcases e : b.holder? id with - | c
  · rcases e' : b'.holder? id with - | c'
    · rfl
    · rw [e, e'] at hm
      cases hm
  · rcases e' : b'.holder? id with - | c'
    · rw [e, e'] at hm
      cases hm
    · rw [e, e'] at hm
      simp only [Option.some.injEq, exists_eq_left']
      exact hP (Option.some.inj hm)

/-- So the indices of one are right if those of the other are. -/
theorem InStep.of_alike (h : b.InStep) (a : Alike b b') : b'.InStep where
  named := by
    intro id l hl
    rw [a.registered] at hl
    obtain ⟨c, hc, hid⟩ := h.named hl
    obtain ⟨c', hc', hs⟩ := a.exists_line hc
    exact ⟨c', hc', (Connection.id_eq_of_standing hs).trans hid⟩
  distinct := by
    have hm : b'.lines.map Connection.id = b.lines.map Connection.id := by
      have := congrArg (List.map Prod.fst) a.lines
      rwa [List.map_map, List.map_map] at this
    rw [hm]
    exact h.distinct
  channels := by
    intro channel id
    rw [a.channels, h.channels]
    exact (a.exists_holder (channel ∈ ·.subscriptions)
      fun hs => by rw [Connection.subscriptions_eq_of_standing hs]).symm
  users := by
    intro user id
    rw [a.users, h.users]
    exact (a.exists_holder (·.user? = some user)
      fun hs => by rw [Connection.user?_eq_of_standing hs]).symm
  once := by
    rw [a.users]
    exact h.once
  channelsTight := by
    rw [a.channels]
    exact h.channelsTight
  usersTight := by
    rw [a.users]
    exact h.usersTight

/-- **At first** there is nobody, and nobody is listed. -/
theorem inStep_empty (policy : Policy) : (Board.empty policy).InStep where
  named := by simp [Board.empty]
  distinct := by simp [Board.empty]
  channels := by simp [Board.empty, holder?]
  users := by simp [Board.empty, holder?]
  once := by simp [Board.empty]
  channelsTight := ChannelIndex.tight_empty
  usersTight := UserIndex.tight_empty

/-! ### Entering -/

/-- Whoever is registered has been made. -/
theorem InStep.line_lt (h : b.InStep) (hl : b.registered[id]? = some l) : l < b.lines.length := by
  obtain ⟨c, hc, -⟩ := h.named hl
  exact (List.getElem?_eq_some_iff.1 hc).1

theorem InStep.getElem?_append (h : b.InStep) (hl : b.registered[id]? = some l) (c : Connection) :
    (b.lines ++ [c])[l]? = b.lines[l]? :=
  List.getElem?_append_left (h.line_lt hl)

/-- A connection more, which is not registered, makes no difference to the indices. -/
theorem InStep.append (h : b.InStep) (hu : b.Unused c.id) :
    ({ b with lines := b.lines ++ [c] } : Board).InStep := by
  have hh : ∀ id, holder? { b with lines := b.lines ++ [c] } id = b.holder? id := by
    intro id
    rw [holder?, holder?]
    rcases e : b.registered[id]? with - | l
    · rfl
    · exact h.getElem?_append e c
  refine ⟨?_, ?_, ?_, ?_, h.once, h.channelsTight, h.usersTight⟩
  · intro id l hl
    obtain ⟨c', hc', hid⟩ := h.named hl
    exact ⟨c', (h.getElem?_append hl c).trans hc', hid⟩
  · rw [List.map_append, List.map_singleton, List.nodup_append]
    refine ⟨h.distinct, List.nodup_singleton _, ?_⟩
    intro id hid id' hid'
    obtain ⟨c', hc', rfl⟩ := List.mem_map.1 hid
    rw [List.mem_singleton.1 hid']
    exact hu c' hc'
  · intro channel id
    rw [hh]
    exact h.channels channel id
  · intro user id
    rw [hh]
    exact h.users user id

/-- A connection that is blank can be registered under its name if nobody else is. -/
theorem InStep.admit (h : b.InStep) (hc : b.lines[l]? = some c) (hi : c.identity = none)
    (hs : c.subscriptions = ∅) (hr : b.registered[c.id]? = none) :
    ({ b with registered := b.registered.insert c.id l } : Board).InStep := by
  have hh : ∀ id, holder? { b with registered := b.registered.insert c.id l } id =
      if c.id = id then some c else b.holder? id := by
    intro id
    rw [holder?, Std.ExtTreeMap.getElem?_insert]
    simp only [Std.LawfulEqCmp.compare_eq_iff_eq]
    split
    · exact hc
    · rfl
  -- nobody was registered under the name, so the indices do not list it
  have hno : ∀ (P : Connection → Prop), ¬ ∃ c', b.holder? c.id = some c' ∧ P c' := by
    rintro P ⟨c', hc', -⟩
    rw [holder?, hr] at hc'
    cases hc'
  refine ⟨?_, h.distinct, ?_, ?_, h.once, h.channelsTight, h.usersTight⟩
  · intro id l' hl'
    rw [Std.ExtTreeMap.getElem?_insert] at hl'
    split at hl'
    · rename_i e
      rw [Std.LawfulEqCmp.compare_eq_iff_eq] at e
      cases hl'
      exact ⟨c, hc, e⟩
    · exact h.named hl'
  · intro channel id
    rw [hh, h.channels]
    by_cases e : c.id = id
    · subst e
      simp only [if_true, Option.some.injEq, exists_eq_left', hs, Std.ExtTreeSet.not_mem_empty,
        iff_false]
      exact hno _
    · rw [if_neg e]
  · intro user id
    rw [hh, h.users]
    by_cases e : c.id = id
    · subst e
      simp only [if_true, Option.some.injEq, exists_eq_left', Connection.user?, hi, Option.map_none,
        reduceCtorEq, iff_false]
      exact hno _
    · rw [if_neg e]

/-- A connection is made without an identity and in no channel. -/
theorem open?_eq_some {b' : Board} {capacity now : Nat}
    (h : b.open? id capacity now = some (l, b')) :
    ∃ outbox, l = b.lines.length ∧
      b' = { b with lines := b.lines ++ [⟨id, outbox, none, now, false, ∅⟩] } := by
  rw [open?, Connection.new?] at h
  rcases e : Outbox.new? capacity with - | outbox
  · simp [e] at h
  · simp only [e, Option.map_some, Option.some.injEq, Prod.mk.injEq] at h
    exact ⟨outbox, h.1.symm, h.2.symm⟩

/-- It can be registered as it is. -/
theorem InStep.register_new (h : b.InStep) (hu : b.Unused c.id) (hi : c.identity = none)
    (hs : c.subscriptions = ∅) :
    (({ b with lines := b.lines ++ [c] } : Board).register b.lines.length).2.InStep := by
  have hc : (b.lines ++ [c])[b.lines.length]? = some c := by simp
  have ha := h.append hu
  rw [register, hc]
  simp only
  split
  · -- the end has begun, and the connection is closed instead
    exact ha.of_alike (alike_close _ _)
  · exact ha.admit hc hi hs (h.registered_eq_none hu)

theorem InStep.enter (h : b.InStep) (hu : b.Unused id) (capacity now : Nat) :
    (b.enter id capacity now).InStep := by
  rw [Board.enter]
  rcases e : b.open? id capacity now with - | ⟨l, b'⟩
  · exact h
  · obtain ⟨outbox, rfl, rfl⟩ := open?_eq_some e
    exact h.register_new (c := ⟨id, outbox, none, now, false, ∅⟩) hu rfl rfl

/-! ### Leaving -/

/-- The index of users without a connection, where its own identity says that it is listed. -/
def usersWithout (users : UserIndex) (c : Connection) (id : ConnectionId) : UserIndex :=
  match c.user? with
  | some user => users.leave user id
  | none => users

/-- What it is to be dropped: to be erased from every index that one is in. -/
theorem drop_eq (id : ConnectionId) (hc : b.lines[l]? = some c) : b.drop id l =
    { b with
      registered := b.registered.erase id
      users := usersWithout b.users c id
      channels := b.channels.leaveAll c.subscriptions.toList id } := by
  rw [drop, hc]
  rfl

theorem registered_drop (b : Board) (id : ConnectionId) (l : LineNumber) :
    (b.drop id l).registered = b.registered.erase id := by
  rw [Board.drop]
  split <;> rfl

/-- Without a connection a user has the names that are left. -/
theorem listed_usersWithout {users : UserIndex} {user : String} :
    (usersWithout users c id).listed user =
      if c.user? = some user then (users.listed user).filter (· != id) else users.listed user := by
  rw [usersWithout]
  rcases e : c.user? with - | own
  · simp
  · simp only [UserIndex.listed_leave, Option.some.injEq]
    by_cases h : own = user
    · simp [h]
    · simp [h]

/-- An erased name leads to nobody, and every other where it led before. -/
theorem holder?_erase (b : Board) (id id' : ConnectionId) (users : UserIndex)
    (channels : ChannelIndex) :
    holder? { b with registered := b.registered.erase id, users, channels } id' =
      if id = id' then none else b.holder? id' := by
  rw [holder?, Std.ExtTreeMap.getElem?_erase]
  simp only [Std.LawfulEqCmp.compare_eq_iff_eq]
  split
  · rfl
  · rfl

/-- Where a registered connection says that it is listed, it is taken out, and so it is listed
nowhere any more. -/
theorem InStep.drop (h : b.InStep) (hl : b.registered[id]? = some l) : (b.drop id l).InStep := by
  obtain ⟨c, hc, -⟩ := h.named hl
  have hold := holder?_of hl hc
  rw [drop_eq id hc]
  refine ⟨?_, h.distinct, ?_, ?_, ?_, h.channelsTight.leaveAll, ?_⟩
  · intro id' l' hl'
    rw [Std.ExtTreeMap.getElem?_erase] at hl'
    split at hl'
    · cases hl'
    · exact h.named hl'
  · -- its own subscriptions are all the channels that list it
    intro channel id'
    rw [holder?_erase, ChannelIndex.mem_listed_leaveAll, h.channels, Std.ExtTreeSet.mem_toList]
    by_cases e : id = id'
    · subst e
      simp [hold]
    · simp [e, Ne.symm e]
  · -- its own user is the only one that lists it
    intro user id'
    rw [holder?_erase, listed_usersWithout]
    by_cases e : id = id'
    · subst e
      have hu : id ∈ b.users.listed user ↔ c.user? = some user := by
        rw [h.users, hold]
        simp
      split
      · simp
      · rename_i hne
        simp [hu, hne]
    · rw [if_neg e, ← h.users]
      split
      · simp [List.mem_filter, Ne.symm e]
      · rfl
  · intro user
    rw [listed_usersWithout]
    split
    · exact (h.once user).filter _
    · exact h.once user
  · rw [usersWithout]
    split
    · exact h.usersTight.leave
    · exact h.usersTight

theorem InStep.unregister (h : b.InStep) (id : ConnectionId) : (b.unregister id).2.InStep := by
  rw [Board.unregister]
  rcases e : b.registered[id]? with - | l
  · exact h
  · exact h.drop e

theorem registered_unregister (b : Board) (id : ConnectionId) :
    (b.unregister id).2.registered = b.registered.erase id := by
  rcases e : b.registered[id]? with - | l
  · have hu : b.unregister id = (none, b) := by rw [Board.unregister, e]
    refine Std.ExtTreeMap.ext_getElem? fun id' => ?_
    rw [hu, Std.ExtTreeMap.getElem?_erase]
    split
    · rename_i h
      rw [← Std.LawfulEqCmp.compare_eq_iff_eq.1 h, e]
    · rfl
  · have hu : b.unregister id = (some l, b.drop id l) := by rw [Board.unregister, e]
    rw [hu]
    exact registered_drop b id l

/-! ### Identity and subscriptions -/

/-- A registered connection is listed under the channels that it has joined. -/
theorem InStep.mem_channel_iff (h : b.InStep) (hc : b.holder? id = some c) {channel : String} :
    id ∈ b.channels.listed channel ↔ channel ∈ c.subscriptions := by
  rw [h.channels, hc]
  simp

/-- It is listed under its user, if it has one. -/
theorem InStep.mem_user_iff (h : b.InStep) (hc : b.holder? id = some c) {user : String} :
    id ∈ b.users.listed user ↔ c.user? = some user := by
  rw [h.users, hc]
  simp

/-- A change of one connection, seen from a name. -/
theorem InStep.holder?_modify (h : b.InStep) (hl : b.registered[id]? = some l)
    (f : Connection → Connection) (id' : ConnectionId) :
    (b.modify l f).holder? id' = if id = id' then (b.holder? id').map f else b.holder? id' := by
  rw [holder?, holder?]
  show b.registered[id']?.bind _ = _
  rcases e : b.registered[id']? with - | l'
  · simp
  · refine (getElem?_modify b l l' f).trans ?_
    by_cases hid : id = id'
    · subst hid
      rw [hl] at e
      cases e
      rw [if_pos rfl, if_pos rfl]
      rfl
    · -- another name leads to another connection
      have hne : l ≠ l' := by
        rintro rfl
        exact hid (h.registered_inj hl e)
      rw [if_neg hne, if_neg hid]
      rfl

/-- A registered connection changes, and the indices with it: where they list it is where it now
says that it is listed, and of all others they list what they did before. -/
theorem InStep.change (h : b.InStep) (hl : b.registered[id]? = some l)
    (hc : b.lines[l]? = some c) {f : Connection → Connection} (hf : (f c).id = c.id)
    {users : UserIndex} {channels : ChannelIndex}
    (hchannels : ∀ channel id', id' ∈ channels.listed channel ↔
      if id = id' then channel ∈ (f c).subscriptions else id' ∈ b.channels.listed channel)
    (husers : ∀ user id', id' ∈ users.listed user ↔
      if id = id' then (f c).user? = some user else id' ∈ b.users.listed user)
    (once : ∀ user, (users.listed user).Nodup) (channelsTight : channels.Tight)
    (usersTight : users.Tight) : ({ b.modify l f with users, channels } : Board).InStep := by
  have hf' : ∀ d, b.lines[l]? = some d → (f d).id = d.id := by
    intro d hd
    rw [hc] at hd
    cases hd
    exact hf
  have hh : ∀ id', holder? { b.modify l f with users, channels } id' =
      if id = id' then some (f c) else b.holder? id' := by
    intro id'
    refine (h.holder?_modify hl f id').trans ?_
    split
    · rename_i e
      rw [← e, holder?_of hl hc, Option.map_some]
    · rfl
  refine ⟨?_, ?_, ?_, ?_, once, channelsTight, usersTight⟩
  · intro id' l' hl'
    obtain ⟨d, hd, hid⟩ := h.named hl'
    show ∃ d, (b.modify l f).lines[l']? = some d ∧ d.id = id'
    rw [getElem?_modify, hd]
    split
    · rename_i e
      exact ⟨f d, rfl, (hf' d (e ▸ hd)).trans hid⟩
    · exact ⟨d, rfl, hid⟩
  · show ((b.modify l f).lines.map Connection.id).Nodup
    rw [map_modify hf']
    exact h.distinct
  · intro channel id'
    refine (hchannels channel id').trans ?_
    rw [hh]
    split
    · simp
    · exact h.channels channel id'
  · intro user id'
    refine (husers user id').trans ?_
    rw [hh]
    split
    · simp
    · exact h.users user id'

/-- **Whoever is identified** is listed under its user. -/
theorem InStep.identify {who : Identity} (h : b.InStep) (hb : b.identify id who = .ok b') :
    b'.InStep := by
  obtain ⟨l, c, hl, hc, hi, rfl⟩ := identify_eq_ok hb
  have hold := holder?_of hl hc
  -- it has no identity yet, so it is listed under no user
  have hno : ∀ user, id ∉ b.users.listed user := by
    intro user hm
    rw [h.mem_user_iff hold, Connection.user?, hi] at hm
    cases hm
  refine h.change (f := fun _ => { c with identity := some who }) hl hc rfl ?_ ?_ ?_
    h.channelsTight h.usersTight.join
  · intro channel id'
    split
    · rename_i e
      rw [← e]
      exact h.mem_channel_iff hold
    · rfl
  · intro user id'
    rw [UserIndex.listed_join]
    by_cases hu : who.user = user
    · subst hu
      by_cases e : id = id'
      · simp [e, Connection.user?]
      · simp [e, Ne.symm e]
    · by_cases e : id = id'
      · subst e
        simp [hu, hno user, Connection.user?]
      · simp [hu, e]
  · intro user
    rw [UserIndex.listed_join]
    split
    · refine List.nodup_append.2 ⟨h.once _, List.nodup_singleton _, ?_⟩
      intro id' hid' x hx
      rw [List.mem_singleton.1 hx]
      exact ne_of_mem_of_not_mem hid' (hno _)
    · exact h.once user

/-- The users' part of a change that leaves the identity as it is. -/
theorem InStep.users_kept (h : b.InStep) (hc : b.holder? id = some c) {d : Connection}
    (hd : d.identity = c.identity) (user : String) (id' : ConnectionId) :
    id' ∈ b.users.listed user ↔
      if id = id' then d.user? = some user else id' ∈ b.users.listed user := by
  split
  · rename_i e
    rw [← e, h.mem_user_iff hc, Connection.user?, Connection.user?, hd]
  · rfl

/-- **Whoever joins a channel** is listed under it. -/
theorem InStep.subscribe {channel : String} (h : b.InStep)
    (hb : b.subscribe id channel = .ok b') : b'.InStep := by
  obtain ⟨l, c, hl, hc, rfl⟩ := subscribe_eq_ok hb
  have hold := holder?_of hl hc
  refine h.change (f := fun c => (c.join channel).2) hl hc rfl ?_
    (h.users_kept hold rfl) h.once h.channelsTight.join h.usersTight
  intro other id'
  rw [ChannelIndex.mem_listed_join]
  by_cases e : id = id'
  · subst e
    rw [if_pos rfl, h.mem_channel_iff hold, Connection.join, Std.ExtTreeSet.mem_insert,
      Std.LawfulEqCmp.compare_eq_iff_eq]
    simp [eq_comm]
  · simp [e, Ne.symm e]

/-- **Whoever leaves a channel** is not listed under it any more. -/
theorem InStep.unsubscribe {channel : String} (h : b.InStep)
    (hb : b.unsubscribe id channel = .ok b') : b'.InStep := by
  obtain ⟨l, c, hl, hc, rfl⟩ := unsubscribe_eq_ok hb
  have hold := holder?_of hl hc
  refine h.change (f := fun c => (c.leave channel).2) hl hc rfl ?_
    (h.users_kept hold rfl) h.once h.channelsTight.leave h.usersTight
  intro other id'
  rw [ChannelIndex.mem_listed_leave]
  by_cases e : id = id'
  · subst e
    rw [if_pos rfl, h.mem_channel_iff hold, Connection.leave, Std.ExtTreeSet.mem_erase, ne_eq,
      Std.LawfulEqCmp.compare_eq_iff_eq]
    simp [eq_comm, and_comm]
  · simp [e, Ne.symm e]

/-! ### Sweeps and the end -/

/-- To remove is to close besides. -/
theorem registered_remove (b : Board) (id : ConnectionId) (l : LineNumber) :
    (b.remove id l).registered = b.registered.erase id :=
  registered_drop b id l

theorem InStep.remove (h : b.InStep) (hl : b.registered[id]? = some l) : (b.remove id l).InStep :=
  (h.drop hl).of_alike (alike_close _ l)

/-- The other names of a list stay registered when one is removed. -/
theorem registered_remove_of_ne {gone : List (ConnectionId × LineNumber)}
    {r : ConnectionId × LineNumber} (hr : ∀ r' ∈ gone, r.1 ≠ r'.1)
    (hg : ∀ r' ∈ gone, b.registered[r'.1]? = some r'.2) :
    ∀ r' ∈ gone, (b.remove r.1 r.2).registered[r'.1]? = some r'.2 := by
  intro r' hr'
  rw [registered_remove, Std.ExtTreeMap.getElem?_erase, if_neg (by simpa using hr r' hr')]
  exact hg r' hr'

/-- Several connections are removed one after the other, each under its name. -/
theorem removeAll_keeps {I : Board → Prop}
    (hI : ∀ {b : Board} {id : ConnectionId} {l : LineNumber}, I b → b.registered[id]? = some l →
      I (b.remove id l))
    {gone : List (ConnectionId × LineNumber)} (h : I b)
    (hd : gone.Pairwise fun r r' => r.1 ≠ r'.1)
    (hg : ∀ r ∈ gone, b.registered[r.1]? = some r.2) :
    I (gone.foldl (fun b r => b.remove r.1 r.2) b) := by
  induction gone generalizing b with
  | nil => exact h
  | cons r gone ih =>
    obtain ⟨hr, hd⟩ := List.pairwise_cons.1 hd
    obtain ⟨hl, hg⟩ := List.forall_mem_cons.1 hg
    exact ih (hI h hl) hd (registered_remove_of_ne hr hg)

/-- No name is stale twice. -/
theorem pairwise_stale (b : Board) (now : Nat) :
    (b.stale now).Pairwise fun r r' => r.1 ≠ r'.1 :=
  b.pairwise_registered.filter _

theorem registered_of_mem_stale {now : Nat} {r : ConnectionId × LineNumber}
    (h : r ∈ b.stale now) : b.registered[r.1]? = some r.2 :=
  Std.ExtTreeMap.mem_toList_iff_getElem?_eq_some.1 (List.mem_filter.1 h).1

/-- **A sweep** removes them one by one. -/
theorem InStep.sweep (h : b.InStep) (now : Nat) : (b.sweep now).2.InStep :=
  removeAll_keeps InStep.remove h (pairwise_stale b now) fun _ hr => registered_of_mem_stale hr

/-- To be closed is no matter for the indices. -/
theorem alike_closeAll (ls : List LineNumber) (b : Board) : Alike b (ls.foldl close b) := by
  induction ls generalizing b with
  | nil => exact Alike.refl b
  | cons l ls ih => exact (alike_close b l).trans (ih _)

theorem InStep.shutdown (h : b.InStep) : b.shutdown.2.InStep := by
  -- the board is empty before anyone is closed
  refine InStep.of_alike ?_ (alike_closeAll _ _)
  refine ⟨?_, h.distinct, ?_, ?_, ?_, ChannelIndex.tight_empty, UserIndex.tight_empty⟩
  · intro id l hl
    simp at hl
  · simp [holder?]
  · simp [holder?]
  · simp

/-! ### Runs -/

/-- A frame does nothing but what requests do. -/
theorem InStep.frameEffect (h : b.InStep) (e : FrameEffect b b') : b'.InStep := by
  cases e with
  | nothing => exact h
  | touch l now => exact h.of_alike (alike_touch b l now)
  | identify _ _ hb => exact h.identify hb
  | subscribe _ _ hb => exact h.subscribe hb
  | unsubscribe _ _ hb => exact h.unsubscribe hb
  | publish channel m => exact h.of_alike (alike_offerAll m _ b)

theorem InStep.handleFrame (h : b.InStep) (check : Check) (now : Nat) (draw : Draw)
    (l : LineNumber) (content : Bytes) : (b.handleFrame check now draw l content).2.InStep := by
  obtain ⟨b', he, e | ⟨m, e⟩⟩ := handleFrame_cases b check now draw l content
  · rw [e]
    exact h.frameEffect he
  · rw [e]
    exact (h.frameEffect he).of_alike (alike_offer b' l m)

theorem InStep.orKeep {r : Except Fault Board} (h : b.InStep)
    (hr : ∀ b', r = .ok b' → b'.InStep) : (b.orKeep r).InStep := by
  cases r with
  | ok b' => exact hr b' rfl
  | error f => exact h

theorem alike_orKeep_send (b : Board) (l : LineNumber) (m : Envelope) :
    Alike b (b.orKeep (b.send l m)) := by
  have h := alike_offer b l m
  rw [offer] at h
  cases e : b.send l m with
  | ok b' =>
    rw [e] at h
    exact h
  | error f => exact Alike.refl b

/-- Every call keeps the indices in step. -/
theorem InStep.after (h : b.InStep) (k : Call) (hk : k.Fresh b) : (b.after k).InStep := by
  cases k with
  | enter id capacity now => exact h.enter hk capacity now
  | unregister id => exact h.unregister id
  | identify id who => exact h.orKeep fun _ => h.identify
  | subscribe id channel => exact h.orKeep fun _ => h.subscribe
  | unsubscribe id channel => exact h.orKeep fun _ => h.unsubscribe
  | sweep now => exact h.sweep now
  | shutdown => exact h.shutdown
  | broadcast m => exact h.of_alike (alike_offerAll m _ b)
  | toChannel channel m => exact h.of_alike (alike_offerAll m _ b)
  | toUser user m => exact h.of_alike (alike_offerAll m _ b)
  | send l m => exact h.of_alike (alike_orKeep_send b l m)
  | close l => exact h.of_alike (alike_close b l)
  | touch l now => exact h.of_alike (alike_touch b l now)
  | receive l => exact h.of_alike (alike_modify fun c _ => c.standing_receive)
  | forsake l => exact h.of_alike (alike_modify fun _ _ => rfl)
  | frame check now draw l content => exact h.handleFrame check now draw l content

/-- **Run lemma.** -/
theorem Reachable.inStep {policy : Policy} (h : Reachable policy b) : b.InStep := by
  induction h with
  | empty => exact inStep_empty policy
  | call k _ hk ih => exact ih.after k hk

end Switchboard.Board
