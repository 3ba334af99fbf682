/-
Switchboard/Proofs/Board/Removals.lean

A sweep is nothing but removals, one by one and in any order.

A connection is removed by two calls: its name is unregistered and it is
closed.  Of a board that is in step with its connections, a run of such calls
leaves behind what `Without` says: the names are gone from the indices, and
the connections are closed.  Only which names and which connections they are
comes into that, and with the indices in step nothing else is left to know of
the board (`Without.unique`).  So the order of the calls does not matter
(`InStep.run_eq_of_perm`), not even whether a connection is closed before or
after its name is unregistered.

A sweep is one of these orders (`InStep.sweep_eq_run`).
-/
import Switchboard.Proofs.Board.Sweeping

namespace Switchboard.Board

variable {b b' b'' : Board} {l : LineNumber} {id : ConnectionId} {c : Connection} {now : Nat}
variable {k : Call} {ks ks' : List Call} {ids ids' : List ConnectionId} {ls ls' : List LineNumber}

/-! ### Calls that remove -/

/-- The name that a call unregisters. -/
def Call.unregistered? : Call → Option ConnectionId
  | .unregister id => some id
  | _ => none

/-- The connection that a call closes. -/
def Call.closed? : Call → Option LineNumber
  | .close l => some l
  | _ => none

/-- Is the call one of the two by which connections are removed? -/
def Call.Removes : Call → Prop
  | .unregister _ | .close _ => True
  | _ => False

/-- The calls that remove connections one after the other, each under its name. -/
def removals (gone : List (ConnectionId × LineNumber)) : List Call :=
  gone.flatMap fun r => [.unregister r.1, .close r.2]

theorem removes_of_mem_removals {gone : List (ConnectionId × LineNumber)}
    (hk : k ∈ removals gone) : k.Removes := by
  obtain ⟨r, -, hk⟩ := List.mem_flatMap.1 hk
  rcases List.mem_pair.1 hk with rfl | rfl <;> exact trivial

/-! ### What is left -/

/-- What is left of a board when some names have been unregistered and some connections closed. -/
structure Without (ids : List ConnectionId) (ls : List LineNumber) (b b' : Board) : Prop where
  policy : b'.policy = b.policy
  closing : b'.closing = b.closing
  registered : ∀ id : ConnectionId,
    b'.registered[id]? = if id ∈ ids then none else b.registered[id]?
  lines : ∀ l : LineNumber,
    b'.lines[l]? = b.lines[l]?.map fun c => { c with closed := c.closed || decide (l ∈ ls) }
  /-- The other connections of a user keep their places. -/
  users : ∀ user : String, b'.users.listed user = (b.users.listed user).filter (· ∉ ids)

theorem Without.refl (b : Board) : Without [] [] b b where
  policy := rfl
  closing := rfl
  registered id := by simp
  lines l := by simp
  users user := by simp

theorem Without.trans (h : Without ids ls b b') (h' : Without ids' ls' b' b'') :
    Without (ids ++ ids') (ls ++ ls') b b'' where
  policy := h'.policy.trans h.policy
  closing := h'.closing.trans h.closing
  registered id := by
    rw [h'.registered, h.registered]
    by_cases hm : id ∈ ids <;> simp [hm]
  lines l := by
    rw [h'.lines, h.lines, Option.map_map]
    refine congrArg (Option.map · b.lines[l]?) (funext fun c => ?_)
    simp only [Function.comp_apply, List.mem_append, Bool.decide_or, Bool.or_assoc]
  users user := by
    rw [h'.users, h.users, List.filter_filter]
    refine List.filter_congr fun id _ => ?_
    simp only [List.mem_append, not_or, Bool.decide_and, Bool.and_comm]

/-- Which names and which connections they are is all that matters. -/
theorem Without.unique (h : b'.InStep) (h' : b''.InStep) (w : Without ids ls b b')
    (w' : Without ids' ls' b b'') (hids : ∀ id, id ∈ ids' ↔ id ∈ ids)
    (hls : ∀ l, l ∈ ls' ↔ l ∈ ls) : b'' = b' := by
  have hregistered : b''.registered = b'.registered := by
    refine Std.ExtTreeMap.ext_getElem? fun id => ?_
    rw [w'.registered, w.registered]
    simp only [hids]
  have hlines : b''.lines = b'.lines := by
    refine List.ext_getElem? fun l => ?_
    rw [w'.lines, w.lines]
    simp only [hls]
  have husers : b''.users = b'.users := by
    refine h.usersTight.eq_of_listed h'.usersTight fun user => ?_
    rw [w'.users, w.users]
    simp only [hids]
  -- who listens where is told by the connections
  have hchannels : b''.channels = b'.channels := by
    refine h.channels_eq h' fun id => ?_
    rw [holder?, holder?, hregistered, hlines]
  have hpolicy := w'.policy.trans w.policy.symm
  have hclosing := w'.closing.trans w.closing.symm
  cases b'
  cases b''
  simp only at hregistered hlines husers hchannels hpolicy hclosing
  subst hregistered hlines husers hchannels hpolicy hclosing
  rfl

/-- Whoever is not unregistered goes on listening where it did. -/
theorem Without.mem_channels (w : Without ids ls b b') (h : b.InStep) (h' : b'.InStep)
    (channel : String) (id : ConnectionId) :
    id ∈ b'.channels.listed channel ↔ id ∈ b.channels.listed channel ∧ id ∉ ids := by
  rw [h.channels, h'.channels, holder?, holder?, w.registered]
  by_cases hid : id ∈ ids
  · simp [hid]
  · rw [if_neg hid]
    rcases b.registered[id]? with - | l
    · simp
    · show (∃ c, b'.lines[l]? = some c ∧ _) ↔ (∃ c, b.lines[l]? = some c ∧ _) ∧ _
      rw [w.lines]
      rcases b.lines[l]? with - | c <;> simp [hid]

/-! ### One call -/

theorem InStep.listed_unregister (h : b.InStep) (id : ConnectionId) (user : String) :
    (b.unregister id).2.users.listed user = (b.users.listed user).filter (· ∉ [id]) := by
  have hfilter : ∀ ids : List ConnectionId, id ∉ ids → ids.filter (· ∉ [id]) = ids := by
    intro ids hno
    refine List.filter_eq_self.2 fun id' hid' => ?_
    simpa using ne_of_mem_of_not_mem hid' hno
  rw [Board.unregister]
  rcases e : b.registered[id]? with - | l
  · exact (hfilter _ ((h.unlisted e).1 user)).symm
  · obtain ⟨c, hc, -⟩ := h.named e
    show (b.drop id l).users.listed user = _
    rw [drop_eq id hc, listed_usersWithout]
    split
    · refine List.filter_congr fun id' _ => ?_
      by_cases e : id' = id <;> simp [e]
    · -- nobody but its own user lists it
      rename_i hu
      rw [hfilter]
      rwa [h.mem_user_iff (holder?_of e hc)]

theorem InStep.without_unregister (h : b.InStep) (id : ConnectionId) :
    Without [id] [] b (b.unregister id).2 where
  policy := (onward_unregister b id).policy
  closing := closing_unregister b id
  registered id' := by
    rw [registered_unregister, Std.ExtTreeMap.getElem?_erase]
    by_cases e : id = id'
    · simp [e]
    · simp [e, Ne.symm e]
  lines l := by
    rw [lines_unregister]
    simp
  users := h.listed_unregister id

theorem without_close (b : Board) (l : LineNumber) : Without [] [l] b (b.close l) where
  policy := rfl
  closing := rfl
  registered id := by
    rw [if_neg List.not_mem_nil]
    rfl
  lines l' := by
    rw [Board.close, getElem?_modify]
    by_cases e : l = l'
    · rcases b.lines[l']? with - | c <;> simp [e, Connection.close]
    · rcases b.lines[l']? with - | c <;> simp [e, Ne.symm e]
  users user := by
    show b.users.listed user = _
    simp

/-! ### Several calls -/

theorem InStep.without_run (h : b.InStep) (hks : ∀ k ∈ ks, k.Removes) :
    (b.run ks).InStep ∧
      Without (ks.filterMap Call.unregistered?) (ks.filterMap Call.closed?) b (b.run ks) := by
  induction ks generalizing b with
  | nil => exact ⟨h, .refl b⟩
  | cons k ks ih =>
    obtain ⟨hk, hrest⟩ := List.forall_mem_cons.1 hks
    cases k with
    | unregister id =>
      obtain ⟨hs, hw⟩ := ih (h.unregister id) hrest
      exact ⟨hs, (h.without_unregister id).trans hw⟩
    | close l =>
      obtain ⟨hs, hw⟩ := ih (h.of_alike (alike_close b l)) hrest
      exact ⟨hs, (without_close b l).trans hw⟩
    | _ => exact hk.elim

/-- **In whatever order connections are removed, the same board is left.** -/
theorem InStep.run_eq_of_perm (h : b.InStep) (hp : ks.Perm ks') (hks' : ∀ k ∈ ks', k.Removes) :
    b.run ks = b.run ks' := by
  have hks : ∀ k ∈ ks, k.Removes := fun k hk => hks' k (hp.mem_iff.1 hk)
  obtain ⟨hs, hw⟩ := h.without_run hks
  obtain ⟨hs', hw'⟩ := h.without_run hks'
  exact Without.unique hs' hs hw' hw (fun id => (hp.filterMap _).mem_iff)
    fun l => (hp.filterMap _).mem_iff

/-! ### Sweeps -/

/-- To unregister a name and to close whom it led to is to remove it. -/
theorem run_removal (hl : b.registered[id]? = some l) :
    b.run [.unregister id, .close l] = b.remove id l := by
  show (b.unregister id).2.close l = _
  rw [Board.unregister, hl]
  rfl

theorem run_removals {gone : List (ConnectionId × LineNumber)}
    (hd : gone.Pairwise fun r r' => r.1 ≠ r'.1)
    (hg : ∀ r ∈ gone, b.registered[r.1]? = some r.2) :
    b.run (removals gone) = gone.foldl (fun b r => b.remove r.1 r.2) b := by
  induction gone generalizing b with
  | nil => rfl
  | cons r gone ih =>
    obtain ⟨hr, hd⟩ := List.pairwise_cons.1 hd
    obtain ⟨hl, hg⟩ := List.forall_mem_cons.1 hg
    have hfirst : b.run (removals (r :: gone)) = (b.remove r.1 r.2).run (removals gone) := by
      rw [← run_removal hl, ← run_append]
      rfl
    rw [hfirst, List.foldl_cons, ih hd (registered_remove_of_ne hr hg)]

/-- A sweep removes whom it finds stale, one by one. -/
theorem sweep_eq_run (b : Board) (now : Nat) : (b.sweep now).2 = b.run (removals (b.stale now)) :=
  (run_removals (pairwise_stale b now) fun _ hr => registered_of_mem_stale hr).symm

theorem unregistered_removals (gone : List (ConnectionId × LineNumber)) :
    (removals gone).filterMap Call.unregistered? = gone.map Prod.fst := by
  induction gone with
  | nil => rfl
  | cons r gone ih => exact congrArg (r.1 :: ·) ih

theorem InStep.without_sweep (h : b.InStep) (now : Nat) : ∃ ls,
    Without ((b.stale now).map Prod.fst) ls b (b.sweep now).2 := by
  have hks : ∀ k ∈ removals (b.stale now), k.Removes := fun _ => removes_of_mem_removals
  obtain ⟨-, hw⟩ := h.without_run hks
  rw [unregistered_removals, ← sweep_eq_run] at hw
  exact ⟨_, hw⟩

/-- Whoever is stale is registered, and closed or idle for longer than allowed. -/
theorem InStep.mem_stale (h : b.InStep) : (id, l) ∈ b.stale now ↔
    ∃ c, b.registered[id]? = some l ∧ b.lines[l]? = some c ∧
      (c.closed = true ∨ b.policy.staleAfter < now - c.lastSeen) := by
  have hstale : ∀ c : Connection, c.isStale b.policy.staleAfter now = true ↔
      c.closed = true ∨ b.policy.staleAfter < now - c.lastSeen := by
    intro c
    rw [Connection.isStale, Connection.idle, Bool.or_eq_true, decide_eq_true_iff]
  constructor
  · intro hm
    have hid := registered_of_mem_stale hm
    obtain ⟨c, hc, -⟩ := h.named hid
    exact ⟨c, hid, hc, (hstale c).1 ((mem_stale_iff hc).1 hm).2⟩
  · rintro ⟨c, hid, hc, hgone⟩
    exact (mem_stale_iff hc).2 ⟨hid, (hstale c).2 hgone⟩

theorem nodup_stale (b : Board) (now : Nat) : (b.stale now).Nodup :=
  (pairwise_stale b now).imp fun hne e => hne (congrArg Prod.fst e)

/-- Who has been stale is found no more. -/
theorem InStep.stale_sweep (h : b.InStep) (now : Nat) : (b.sweep now).2.stale now = [] := by
  refine List.eq_nil_iff_forall_not_mem.2 fun r hr => ?_
  obtain ⟨hid, hstale⟩ := List.mem_filter.1 hr
  have hid' := Std.ExtTreeMap.mem_toList_iff_getElem?_eq_some.1 hid
  obtain ⟨c, hc, -⟩ := (h.sweep now).named hid'
  obtain ⟨hopen, hseen⟩ := (h.swept now).clean hid' hc
  simp only [isStale, hc, (onward_sweep b now).policy] at hstale
  rcases Connection.isStale_eq_true.1 hstale with hcl | hlt
  · rw [hopen] at hcl
    cases hcl
  · exact absurd hseen (Nat.not_le_of_lt hlt)

/-- **A sweep is the removal of the stale, one by one and in any order.**  These are the registered
connections that are closed or have been idle for longer than allowed, and the sweep says how many
they are.  The others stay as they are and are listed as they were, under a user in their old
places; an entry that lists nobody else is gone; and a second sweep finds nothing to do. -/
theorem swept_one_by_one {policy : Policy} {b : Board} (h : Reachable policy b) (now : Nat) :
    ∃ gone : List (ConnectionId × LineNumber), gone.Nodup ∧
      (∀ (id : ConnectionId) (l : LineNumber), (id, l) ∈ gone ↔
        ∃ c, b.registered[id]? = some l ∧ b.lines[l]? = some c ∧
          (c.closed = true ∨ b.policy.staleAfter < now - c.lastSeen)) ∧
      (b.sweep now).1 = gone.length ∧
      (∀ ks : List Call, ks.Perm (removals gone) → b.run ks = (b.sweep now).2) ∧
      b.Swept now (b.sweep now).2 ∧
      (∀ (user : String) (ids : List ConnectionId), (b.sweep now).2.users[user]? = some ids ↔
        ids ≠ [] ∧ ids = (b.users.listed user).filter (· ∉ gone.map Prod.fst)) ∧
      (∀ (channel : String) (members : Std.ExtTreeSet ConnectionId),
        (b.sweep now).2.channels[channel]? = some members ↔ members ≠ ∅ ∧
          ∀ id, id ∈ members ↔ id ∈ b.channels.listed channel ∧ id ∉ gone.map Prod.fst) ∧
      (b.sweep now).2.sweep now = (0, (b.sweep now).2) := by
  have hi := h.inStep
  have hs := hi.sweep now
  obtain ⟨_, hw⟩ := hi.without_sweep now
  refine ⟨b.stale now, nodup_stale b now, fun id l => hi.mem_stale, rfl, ?_, hi.swept now, ?_, ?_,
    ?_⟩
  · intro ks hp
    rw [sweep_eq_run]
    exact hi.run_eq_of_perm hp fun _ => removes_of_mem_removals
  · intro user ids
    rw [hs.usersTight.getElem?_eq_some_iff, hw.users]
  · intro channel members
    rw [hs.channelsTight.getElem?_eq_some_iff]
    refine and_congr_right fun _ => ?_
    constructor
    · rintro rfl
      exact hw.mem_channels hi hs channel
    · intro hm
      refine Std.ExtTreeSet.ext_mem fun id => ?_
      rw [hm, hw.mem_channels hi hs]
  · rw [Board.sweep, hi.stale_sweep now]
    rfl

/-- Three connections of one user share a channel; the first has not been heard of for long and
listens to a channel of its own, and the second is closed. -/
def emptyChairs : List Call :=
  [.enter 1 4 0, .enter 2 4 50000, .enter 3 4 50000, .identify 1 ⟨"ann", "a"⟩,
    .identify 2 ⟨"ann", "b"⟩, .identify 3 ⟨"ann", "c"⟩, .subscribe 1 "doc", .subscribe 2 "doc",
    .subscribe 3 "doc", .subscribe 1 "attic", .close 1]

/-- The two go, in whatever order that is done, and only the third is listed from then on. -/
theorem swept_one_by_one_emptyChairs :
    FreshRun (Board.empty .standard) emptyChairs ∧
      let b := (Board.empty .standard).run emptyChairs
      (b.sweep 70000).1 = 2 ∧
        b.run [.unregister 2, .close 1, .close 0, .unregister 1] = (b.sweep 70000).2 ∧
        (b.sweep 70000).2.users["ann"]? = some [3] ∧
        (b.sweep 70000).2.channels["attic"]? = none ∧
        ((b.sweep 70000).2.sweep 70000).1 = 0 := by
  have hf : FreshRun (Board.empty .standard) emptyChairs := by decide +kernel
  refine ⟨hf, ?_⟩
  intro b
  have hr := Reachable.empty.run hf
  obtain ⟨gone, hnodup, hmem, hcount, hany, -, husers, hchannels, hagain⟩ :=
    swept_one_by_one hr 70000
  have hgone : gone.Perm [(1, 0), (2, 1)] := by
    have hstale : b.stale 70000 = [(1, 0), (2, 1)] := by decide +kernel
    rw [← hstale]
    refine (List.perm_ext_iff_of_nodup hnodup (nodup_stale b _)).2 fun r => ?_
    exact (hmem r.1 r.2).trans hr.inStep.mem_stale.symm
  have hnames : ∀ id, id ∈ gone.map Prod.fst ↔ id = 1 ∨ id = 2 := by
    intro id
    rw [(hgone.map Prod.fst).mem_iff]
    simp
  refine ⟨hcount.trans hgone.length_eq, hany _ ?_, ?_, ?_, by rw [hagain]⟩
  · have hpairs : (removals gone).Perm ([.unregister 1, .close 0] ++ [.unregister 2, .close 1]) :=
      hgone.flatMap_right _
    refine List.Perm.symm (hpairs.trans (List.perm_append_comm.trans ?_))
    exact (List.Perm.swap _ _ _).append_left _
  · have hlisted : b.users.listed "ann" = [1, 2, 3] := by decide +kernel
    refine (husers "ann" [3]).2 ⟨by simp, ?_⟩
    rw [hlisted]
    simp [hnames]
  · rcases e : (b.sweep 70000).2.channels["attic"]? with - | members
    · rfl
    · obtain ⟨hne, hm⟩ := (hchannels "attic" members).1 e
      have hlisted : (b.channels.listed "attic").toList = [1] := by decide +kernel
      refine absurd (Std.ExtTreeSet.toList_eq_nil_iff.1 ?_) hne
      refine List.eq_nil_iff_forall_not_mem.2 fun id hid => ?_
      obtain ⟨hin, hout⟩ := (hm id).1 (Std.ExtTreeSet.mem_toList.1 hid)
      have hone := Std.ExtTreeSet.mem_toList.2 hin
      rw [hlisted, List.mem_singleton] at hone
      exact hout ((hnames id).2 (.inl hone))

end Switchboard.Board
