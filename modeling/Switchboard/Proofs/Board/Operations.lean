/-
Switchboard/Proofs/Board/Operations.lean

Runs of operations.

A run of operations goes past the board: connections are made and left aside,
changed by whoever holds them, taken off and registered again.  The indices
may then fall out of step with the connections, but not in every way.  A board
is `Grounded` as long as names lead to connections that have them, and as long
as the user index lists nobody but registered connections of the user, each of
them once.  Every operation keeps this (`Grounded.operate`), unless it
registers a connection under a name that leads to another one.

The reason is that an identity is for good, however it has come about, so that
where a connection says that it is listed is where it has been listed.  Of
subscriptions nothing of the kind can be said.

If no two connections get the same name, then no name can lead elsewhere, and
nothing else has to be asked of the operations.  Such a board is `Founded`.

What an operation does to a connection are its `deeds`, whichever way it
takes.
-/
import Switchboard.Proofs.Board.Aftermath
import Switchboard.Proofs.Board.Leaving

namespace Switchboard

open Connection (Act)

namespace Board

variable {b b' : Board} {id : ConnectionId} {l : LineNumber} {c : Connection} {k : Call}
  {o : Operation} {os os' : List Operation}

/-! ### Runs -/

/-- Whoever is made has a name that is new. -/
def Operation.Fresh (b : Board) : Operation → Prop
  | .call k => k.Fresh b
  | .make id _ _ => b.Unused id
  | .register _ | .act .. => True

instance (b : Board) : (o : Operation) → Decidable (o.Fresh b)
  | .call k => inferInstanceAs (Decidable (k.Fresh b))
  | .make id _ _ => inferInstanceAs (Decidable (b.Unused id))
  | .register _ | .act .. => inferInstanceAs (Decidable True)

/-- The board after several operations. -/
def through (b : Board) (os : List Operation) : Board := os.foldl operate b

/-- Each of several operations is as is asked of it, when it is done. -/
def Throughout (p : Board → Operation → Prop) : Board → List Operation → Prop
  | _, [] => True
  | b, o :: os => p b o ∧ Throughout p (b.operate o) os

instance {p : Board → Operation → Prop} [∀ b o, Decidable (p b o)] :
    (b : Board) → (os : List Operation) → Decidable (Throughout p b os)
  | _, [] => inferInstanceAs (Decidable True)
  | b, o :: os =>
    have := instDecidableThroughout (p := p) (b.operate o) os
    inferInstanceAs (Decidable (p b o ∧ Throughout p (b.operate o) os))

section Throughout

variable {p : Board → Operation → Prop} {I : Board → Prop}

theorem through_append (b : Board) (os os' : List Operation) :
    b.through (os ++ os') = (b.through os).through os' := List.foldl_append

theorem through_concat (b : Board) (os : List Operation) (o : Operation) :
    b.through (os ++ [o]) = (b.through os).operate o := through_append b os [o]

theorem throughout_append :
    b.Throughout p (os ++ os') ↔ b.Throughout p os ∧ (b.through os).Throughout p os' := by
  induction os generalizing b with
  | nil => exact ⟨fun h => ⟨trivial, h⟩, fun h => h.2⟩
  | cons o os ih =>
    show p b o ∧ (b.operate o).Throughout p (os ++ os') ↔ _
    rw [ih]
    exact and_assoc.symm

/-- What such operations keep, a run of them keeps. -/
theorem Throughout.keeps (hI : ∀ {b o}, I b → p b o → I (b.operate o)) (h : I b)
    (hos : b.Throughout p os) : I (b.through os) := by
  induction os generalizing b with
  | nil => exact h
  | cons o os ih => exact ih (hI h hos.1) hos.2

/-- **What one operation can begin and others end.**  If it holds after a run, then it held before
and has not been ended, or the operation has begun it in the course of the run, and it has not been
ended since. -/
theorem Throughout.iff_since (P Q : Board → Prop) (ends : Board → Operation → Prop)
    {o₀ : Operation} (hI : ∀ {b o}, I b → p b o → I (b.operate o))
    (hP : ∀ {b o}, I b → p b o → (P (b.operate o) ↔ o = o₀ ∧ Q b ∨ P b ∧ ¬ ends b o)) (h : I b)
    (hos : b.Throughout p os) :
    P (b.through os) ↔ P b ∧ b.Throughout (fun b o => ¬ ends b o) os ∨
      ∃ os₁ os₂, os = os₁ ++ o₀ :: os₂ ∧ Q (b.through os₁) ∧
        (b.through (os₁ ++ [o₀])).Throughout (fun b o => ¬ ends b o) os₂ := by
  induction os generalizing b with
  | nil =>
    show P b ↔ _
    simp [Throughout]
  | cons o os ih =>
    show P ((b.operate o).through os) ↔ _
    rw [ih (hI h hos.1) hos.2, hP h hos.1]
    constructor
    · rintro (⟨⟨rfl, hq⟩ | ⟨hp, he⟩, hs⟩ | ⟨os₁, os₂, rfl, hq, hs⟩)
      · exact .inr ⟨[], os, rfl, hq, hs⟩
      · exact .inl ⟨hp, he, hs⟩
      · exact .inr ⟨o :: os₁, os₂, rfl, hq, hs⟩
    · rintro (⟨hp, he, hs⟩ | ⟨- | ⟨o', os₁⟩, os₂, e, hq, hs⟩)
      · exact .inl ⟨.inr ⟨hp, he⟩, hs⟩
      · cases e
        exact .inl ⟨.inl ⟨rfl, hq⟩, hs⟩
      · cases e
        exact .inr ⟨os₁, os₂, rfl, hq, hs⟩

end Throughout

/-! ### Deeds -/

/-- What an operation does to a connection. -/
def deeds (l : LineNumber) (b : Board) : Operation → List Act
  | .call k => b.acts l k
  | .make .. => []
  | .register l' => if b.closing then aimed l [l'] .close else []
  | .act l' a => aimed l [l'] a

/-- **What an operation leaves behind of a connection** that was there before. -/
theorem getElem?_operate_of_some (hc : b.lines[l]? = some c) (o : Operation) :
    (b.operate o).lines[l]? = some (c.run (b.deeds l o)) := by
  cases o with
  | call k => exact getElem?_after_of_some hc k
  | make id capacity now =>
    rcases e : b.open? id capacity now with - | ⟨l', b'⟩
    · simp only [operate, e]
      exact hc
    · obtain ⟨outbox, -, rfl⟩ := open?_eq_some e
      simp only [operate, e]
      exact (List.getElem?_append_left (List.getElem?_eq_some_iff.1 hc).1).trans hc
  | register l' =>
    show (b.register l').2.lines[l]? = some (c.run (if b.closing then _ else _))
    rcases hc' : b.lines[l']? with - | c'
    · -- nobody is there to be registered
      have hne : l ∉ [l'] := by
        intro hm
        rw [List.mem_singleton.1 hm, hc'] at hc
        cases hc
      simp [register, hc', aimed_eq_nil hne, hc]
    · rcases register_cases hc' with ⟨hcl, e⟩ | ⟨hcl, e⟩
      · rw [e, if_pos hcl]
        exact (getElem?_modify_after b l' .close l).trans (congrArg _ hc)
      · rw [e, if_neg (by simp [hcl])]
        exact hc
  | act l' a => exact (getElem?_modify_after b l' a l).trans (congrArg _ hc)

/-- Whoever was not there before has come to be as a blank connection of the name given. -/
theorem getElem?_operate_of_none (hn : b.lines[l]? = none)
    (hc : (b.operate o).lines[l]? = some c) :
    ∃ id capacity now c₀ as, (o = .make id capacity now ∨ o = .call (.enter id capacity now)) ∧
      Connection.new? id capacity now = some c₀ ∧ (∀ a ∈ as, a = Act.close) ∧
      c = c₀.run as := by
  cases o with
  | call k =>
    obtain ⟨id, capacity, now, c₀, as, rfl, h⟩ := getElem?_after_of_none hn hc
    exact ⟨id, capacity, now, c₀, as, .inr rfl, h⟩
  | make id capacity now =>
    rcases e : Connection.new? id capacity now with - | c₀
    · simp [operate, open?, e, hn] at hc
    · refine ⟨id, capacity, now, c₀, [], .inl rfl, e, by simp, ?_⟩
      simp only [operate, open?, e, Option.map_some] at hc
      rw [List.getElem?_append_right (List.getElem?_eq_none_iff.1 hn)] at hc
      exact List.mem_singleton.1 (List.mem_of_getElem? hc)
  | register l' =>
    rcases hc' : b.lines[l']? with - | c'
    · simp [operate, register, hc', hn] at hc
    · simp only [operate] at hc
      rcases register_cases hc' with ⟨-, e⟩ | ⟨-, e⟩
      · rw [e, close, getElem?_modify, hn] at hc
        simp at hc
      · rw [e, hn] at hc
        cases hc
  | act l' a =>
    simp only [operate] at hc
    rw [getElem?_modify, hn] at hc
    simp at hc

/-- **What a run leaves behind of a connection** that was there before. -/
theorem getElem?_through_of_some (hc : b.lines[l]? = some c) (os : List Operation) :
    (b.through os).lines[l]? = some (c.run (logged operate (deeds l) b os)) := by
  induction os generalizing b c with
  | nil => exact hc
  | cons o os ih =>
    show ((b.operate o).through os).lines[l]? = _
    rw [ih (getElem?_operate_of_some hc o), ← Connection.run_append]
    rfl

/-! ### What holds although the indices may be out of step -/

/-- Names lead to connections that have them, and whoever is listed under a user is registered and
belongs to the user. -/
structure Grounded (b : Board) : Prop where
  named : ∀ {id : ConnectionId} {l : LineNumber}, b.registered[id]? = some l →
    ∃ c, b.lines[l]? = some c ∧ c.id = id
  users : ∀ {user : String} {id : ConnectionId}, id ∈ b.users.listed user →
    ∃ c, b.holder? id = some c ∧ c.user? = some user
  once : ∀ user : String, (b.users.listed user).Nodup
  channelsTight : b.channels.Tight
  usersTight : b.users.Tight

/-- What is registered by the operation has a name that is free, or that leads to it already. -/
def Operation.Unrivalled (b : Board) : Operation → Prop
  | .call (.enter id _ _) => b.registered[id]? = none
  | .register l => ∀ c ∈ b.lines[l]?, b.registered[c.id]? = none ∨ b.registered[c.id]? = some l
  | _ => True

/-- **At first** nothing is registered. -/
theorem grounded_empty (policy : Policy) : (Board.empty policy).Grounded where
  named := by simp [Board.empty]
  users := by simp [Board.empty]
  once := by simp [Board.empty]
  channelsTight := ChannelIndex.tight_empty
  usersTight := UserIndex.tight_empty

/-- A name leads to a connection of that name. -/
theorem Grounded.id_eq (h : b.Grounded) (hl : b.registered[id]? = some l)
    (hc : b.lines[l]? = some c) : c.id = id := by
  obtain ⟨c', hc', hid⟩ := h.named hl
  cases hc.symm.trans hc'
  exact hid

/-- Different names lead to different connections. -/
theorem Grounded.registered_inj (h : b.Grounded) {id' : ConnectionId}
    (hl : b.registered[id]? = some l) (hl' : b.registered[id']? = some l) : id = id' := by
  obtain ⟨c, hc, hid⟩ := h.named hl
  exact hid.symm.trans (h.id_eq hl' hc)

/-- Whoever is listed under a user is registered. -/
theorem Grounded.not_mem_users (h : b.Grounded) (hn : b.registered[id]? = none) (user : String) :
    id ∉ b.users.listed user := by
  intro hm
  obtain ⟨c, hc, -⟩ := h.users hm
  obtain ⟨l, hl, -⟩ := holder?_eq_some.1 hc
  cases hn.symm.trans hl

/-- **What keeps a board grounded.**  Connections keep their names and their identities, no name
leads elsewhere, and whoever is listed under a user was so before, under a name that still leads
to the same connection, or is registered and belongs to the user now. -/
theorem Grounded.carry (h : b.Grounded)
    (hids : b'.lines.map Connection.id = b.lines.map Connection.id)
    (hidentity : ∀ {l : LineNumber} {c c' : Connection} {who : Identity}, b.lines[l]? = some c →
      b'.lines[l]? = some c' → c.identity = some who → c'.identity = some who)
    (hregistered : ∀ {id : ConnectionId} {l : LineNumber}, b'.registered[id]? = some l →
      b.registered[id]? = some l)
    (husers : ∀ {user : String} {id : ConnectionId}, id ∈ b'.users.listed user →
      id ∈ b.users.listed user ∧ b'.registered[id]? = b.registered[id]? ∨
        ∃ c, b'.holder? id = some c ∧ c.user? = some user)
    (once : ∀ user : String, (b'.users.listed user).Nodup) (channelsTight : b'.channels.Tight)
    (usersTight : b'.users.Tight) : b'.Grounded := by
  -- what a number leads to has the same name as before
  have hline : ∀ {l : LineNumber} {c : Connection}, b.lines[l]? = some c →
      ∃ c', b'.lines[l]? = some c' ∧ c'.id = c.id := by
    intro l c hc
    have e : b'.lines[l]?.map Connection.id = some c.id := by
      rw [← List.getElem?_map, hids, List.getElem?_map, hc, Option.map_some]
    exact Option.map_eq_some_iff.1 e
  refine ⟨fun hl => ?_, fun hm => ?_, once, channelsTight, usersTight⟩
  · obtain ⟨c, hc, hid⟩ := h.named (hregistered hl)
    obtain ⟨c', hc', hid'⟩ := hline hc
    exact ⟨c', hc', hid'.trans hid⟩
  · rcases husers hm with ⟨hm, hr⟩ | hc
    · obtain ⟨c, hc, hu⟩ := h.users hm
      obtain ⟨l, hl, hc⟩ := holder?_eq_some.1 hc
      obtain ⟨c', hc', -⟩ := hline hc
      obtain ⟨who, hi, rfl⟩ := Option.map_eq_some_iff.1 hu
      refine ⟨c', holder?_of (hr.trans hl) hc', ?_⟩
      rw [Connection.user?, hidentity hc hc' hi, Option.map_some]
    · exact hc

theorem Alike.ids (a : Alike b b') :
    b'.lines.map Connection.id = b.lines.map Connection.id := by
  have := congrArg (List.map Prod.fst) a.lines
  rwa [List.map_map, List.map_map] at this

/-- What the indices are made from decides. -/
theorem Grounded.of_alike (h : b.Grounded) (a : Alike b b') : b'.Grounded := by
  refine h.carry a.ids (fun hc hc' hi => ?_) (fun hl => ?_) (fun hm => .inl ⟨?_, ?_⟩) ?_ ?_ ?_
  · obtain ⟨c', hc'', hs⟩ := a.exists_line hc
    cases hc'.symm.trans hc''
    exact (Connection.identity_eq_of_standing hs).trans hi
  · rwa [a.registered] at hl
  · rwa [a.users] at hm
  · rw [a.registered]
  · rw [a.users]
    exact h.once
  · rw [a.channels]
    exact h.channelsTight
  · rw [a.users]
    exact h.usersTight

/-- A connection changes, but neither its name nor the identity that it has; of the indices none but
that of the channels follows. -/
theorem Grounded.change (h : b.Grounded) {f : Connection → Connection}
    (hf : ∀ c, b.lines[l]? = some c → (f c).id = c.id ∧
      ∀ who, c.identity = some who → (f c).identity = some who)
    {channels : ChannelIndex} (channelsTight : channels.Tight) :
    ({ b.modify l f with channels } : Board).Grounded := by
  refine h.carry (map_modify fun c hc => (hf c hc).1) (fun {l'} c c' who hc hc' hi => ?_) id
    (fun hm => .inl ⟨hm, rfl⟩) h.once channelsTight h.usersTight
  have hc'' := (getElem?_modify b l l' f).symm.trans hc'
  split at hc''
  · rename_i e
    subst e
    rw [hc] at hc''
    cases hc''
    exact (hf c hc).2 who hi
  · cases hc.symm.trans hc''
    exact hi

/-! ### Coming to be and being registered -/

/-- A connection that is made is not registered by that. -/
theorem Grounded.append (h : b.Grounded) (c : Connection) :
    ({ b with lines := b.lines ++ [c] } : Board).Grounded := by
  have hline : ∀ {l : LineNumber} {c' : Connection}, b.lines[l]? = some c' →
      (b.lines ++ [c])[l]? = some c' := fun hc' =>
    (List.getElem?_append_left (List.getElem?_eq_some_iff.1 hc').1).trans hc'
  refine ⟨fun hl => ?_, fun hm => ?_, h.once, h.channelsTight, h.usersTight⟩
  · obtain ⟨c', hc', hid⟩ := h.named hl
    exact ⟨c', hline hc', hid⟩
  · obtain ⟨c', hc', hu⟩ := h.users hm
    obtain ⟨l, hl, hc'⟩ := holder?_eq_some.1 hc'
    exact ⟨c', holder?_of hl (hline hc'), hu⟩

/-- It can be registered if its name is free or its own. -/
theorem Grounded.admit (h : b.Grounded) (hc : b.lines[l]? = some c)
    (hr : b.registered[c.id]? = none ∨ b.registered[c.id]? = some l) :
    ({ b with registered := b.registered.insert c.id l } : Board).Grounded := by
  refine ⟨fun {id l'} hl => ?_, fun {user id} hm => ?_, h.once, h.channelsTight, h.usersTight⟩
  · rw [Std.ExtTreeMap.getElem?_insert] at hl
    split at hl
    · rename_i e
      cases hl
      exact ⟨c, hc, Std.LawfulEqCmp.compare_eq_iff_eq.1 e⟩
    · exact h.named hl
  · obtain ⟨c', hc', hu⟩ := h.users hm
    refine ⟨c', ?_, hu⟩
    obtain ⟨l', hl', hc''⟩ := holder?_eq_some.1 hc'
    rw [holder?, Std.ExtTreeMap.getElem?_insert]
    split
    · -- whoever was registered under the name is this connection
      rename_i e
      rw [Std.LawfulEqCmp.compare_eq_iff_eq] at e
      subst e
      rcases hr with hn | hl
      · cases hn.symm.trans hl'
      · cases hl.symm.trans hl'
        exact hc''
    · exact hc'

theorem Grounded.register (h : b.Grounded)
    (hr : ∀ c ∈ b.lines[l]?, b.registered[c.id]? = none ∨ b.registered[c.id]? = some l) :
    (b.register l).2.Grounded := by
  rcases hc : b.lines[l]? with - | c
  · have e : b.register l = (false, b) := by rw [Board.register, hc]
    rw [e]
    exact h
  · rcases register_cases hc with ⟨-, e⟩ | ⟨-, e⟩
    · rw [e]
      exact h.of_alike (alike_close b l)
    · rw [e]
      exact h.admit hc (hr c hc)

/-- To make one registers nobody. -/
theorem Grounded.open? (h : b.Grounded) {capacity now : Nat}
    (ho : b.open? id capacity now = some (l, b')) : b'.Grounded := by
  obtain ⟨outbox, -, rfl⟩ := open?_eq_some ho
  exact h.append _

theorem Grounded.enter (h : b.Grounded) (hr : b.registered[id]? = none) (capacity now : Nat) :
    (b.enter id capacity now).Grounded := by
  rw [Board.enter]
  rcases e : b.open? id capacity now with - | ⟨l, b'⟩
  · exact h
  · refine (h.open? e).register fun c hc => .inl ?_
    obtain ⟨hregistered, c', hc', rfl⟩ := line_open? e
    cases hc'.symm.trans hc
    rwa [hregistered]

/-! ### Leaving -/

/-- To drop one leaves the others. -/
theorem Grounded.drop (h : b.Grounded) (hl : b.registered[id]? = some l) :
    (b.drop id l).Grounded := by
  obtain ⟨c, hc, -⟩ := h.named hl
  rw [drop_eq id hc]
  refine h.carry rfl (fun hc hc' hi => ?_) (fun {id' l'} hl' => ?_) (fun {user id'} hm => .inl ?_)
    (fun user => ?_) h.channelsTight.leaveAll ?_
  · cases hc.symm.trans hc'
    exact hi
  · rw [Std.ExtTreeMap.getElem?_erase] at hl'
    split at hl'
    · cases hl'
    · exact hl'
  · -- the user that it belongs to is the only one that has listed it
    have hm' : id' ∈ (usersWithout b.users c id).listed user := hm
    rw [listed_usersWithout] at hm'
    have hne : id' ≠ id ∧ id' ∈ b.users.listed user := by
      split at hm'
      · simpa [and_comm] using hm'
      · rename_i hu
        refine ⟨?_, hm'⟩
        rintro rfl
        obtain ⟨c', hc', hu'⟩ := h.users hm'
        rw [holder?_of hl hc] at hc'
        cases hc'
        exact hu hu'
    refine ⟨hne.2, ?_⟩
    rw [Std.ExtTreeMap.getElem?_erase, if_neg (by simpa using hne.1.symm)]
  · show ((usersWithout b.users c id).listed user).Nodup
    rw [listed_usersWithout]
    split
    · exact (h.once user).filter _
    · exact h.once user
  · show (usersWithout b.users c id).Tight
    rw [usersWithout]
    split
    · exact h.usersTight.leave
    · exact h.usersTight

theorem Grounded.unregister (h : b.Grounded) (id : ConnectionId) :
    (b.unregister id).2.Grounded := by
  rw [Board.unregister]
  rcases e : b.registered[id]? with - | l
  · exact h
  · exact h.drop e

theorem Grounded.remove (h : b.Grounded) (hl : b.registered[id]? = some l) :
    (b.remove id l).Grounded :=
  (h.drop hl).of_alike (alike_close _ l)

theorem Grounded.sweep (h : b.Grounded) (now : Nat) : (b.sweep now).2.Grounded :=
  removeAll_keeps Grounded.remove h (pairwise_stale b now) fun _ hr => registered_of_mem_stale hr

theorem Grounded.shutdown (h : b.Grounded) : b.shutdown.2.Grounded := by
  -- the board is empty before anyone is closed
  refine Grounded.of_alike ?_ (alike_closeAll _ _)
  refine h.carry rfl (fun hc hc' hi => ?_) (fun hl => ?_) (fun hm => ?_) (by simp)
    ChannelIndex.tight_empty UserIndex.tight_empty
  · cases hc.symm.trans hc'
    exact hi
  · simp at hl
  · simp at hm

/-! ### Identity and subscriptions -/

/-- Whoever is registered and has no identity can get one. -/
theorem identify_of_registered (hl : b.registered[c.id]? = some l) (hc : b.lines[l]? = some c)
    (hi : c.identity = none) (who : Identity) : ∃ b', b.identify c.id who = .ok b' := by
  refine ⟨{ b.modify l (fun _ => { c with identity := some who }) with
    users := b.users.join who.user c.id }, ?_⟩
  rw [identify, find_of hl hc]
  simp only [bind, Except.bind, Connection.identify, hi]

/-- A request changes the indices of the connection that its name leads to. -/
theorem Grounded.identify {who : Identity} (h : b.Grounded) (hb : b.identify id who = .ok b') :
    b'.Grounded := by
  obtain ⟨l, c, hl, hc, hi, rfl⟩ := identify_eq_ok hb
  have hself : b.holder? id = some c := holder?_of hl hc
  -- it has no identity yet, so it is listed under no user
  have hno : ∀ user, id ∉ b.users.listed user := by
    intro user hm
    obtain ⟨c', hc', hu⟩ := h.users hm
    rw [hself] at hc'
    cases hc'
    rw [Connection.user?, hi] at hu
    cases hu
  refine h.carry (map_modify fun d hd => ?_) (fun {l'} d d' who' hd hd' hi' => ?_)
    (fun hl' => hl') (fun {user id'} hm => ?_) (fun user => ?_) h.channelsTight h.usersTight.join
  · cases hc.symm.trans hd
    rfl
  · have hd'' := (getElem?_modify b l l' _).symm.trans hd'
    split at hd''
    · rename_i e
      subst e
      cases hc.symm.trans hd
      cases hi.symm.trans hi'
    · cases hd.symm.trans hd''
      exact hi'
  · have hm' : id' ∈ (b.users.join who.user id).listed user := hm
    rw [UserIndex.listed_join] at hm'
    split at hm'
    · rename_i e
      subst e
      rcases List.mem_append.1 hm' with hm' | hm'
      · exact .inl ⟨hm', rfl⟩
      · obtain rfl := List.mem_singleton.1 hm'
        exact .inr ⟨_, holder?_of hl (getElem?_modify_self hc), rfl⟩
    · exact .inl ⟨hm', rfl⟩
  · show ((b.users.join who.user id).listed user).Nodup
    rw [UserIndex.listed_join]
    split
    · refine List.nodup_append.2 ⟨h.once _, List.nodup_singleton _, ?_⟩
      intro id' hid' x hx
      rw [List.mem_singleton.1 hx]
      exact ne_of_mem_of_not_mem hid' (hno _)
    · exact h.once user

theorem Grounded.subscribe {channel : String} (h : b.Grounded)
    (hb : b.subscribe id channel = .ok b') : b'.Grounded := by
  obtain ⟨l, c, -, -, rfl⟩ := subscribe_eq_ok hb
  exact h.change (f := fun c => (c.join channel).2) (fun _ _ => ⟨rfl, fun _ hi => hi⟩)
    h.channelsTight.join

theorem Grounded.unsubscribe {channel : String} (h : b.Grounded)
    (hb : b.unsubscribe id channel = .ok b') : b'.Grounded := by
  obtain ⟨l, c, -, -, rfl⟩ := unsubscribe_eq_ok hb
  exact h.change (f := fun c => (c.leave channel).2) (fun _ _ => ⟨rfl, fun _ hi => hi⟩)
    h.channelsTight.leave

/-! ### Operations -/

/-- A frame does nothing but what requests do. -/
theorem Grounded.frameEffect (h : b.Grounded) (e : FrameEffect b b') : b'.Grounded := by
  cases e with
  | nothing => exact h
  | touch l now => exact h.of_alike (alike_touch b l now)
  | identify _ _ hb => exact h.identify hb
  | subscribe _ _ hb => exact h.subscribe hb
  | unsubscribe _ _ hb => exact h.unsubscribe hb
  | publish channel m => exact h.of_alike (alike_offerAll m _ b)

theorem Grounded.orKeep {r : Except Fault Board} (h : b.Grounded)
    (hr : ∀ b', r = .ok b' → b'.Grounded) : (b.orKeep r).Grounded := by
  cases r with
  | ok b' => exact hr b' rfl
  | error f => exact h

/-- **One call** keeps the board grounded. -/
theorem Grounded.after (h : b.Grounded) (k : Call) (hk : (Operation.call k).Unrivalled b) :
    (b.after k).Grounded := by
  cases k with
  | enter id capacity now => exact h.enter hk capacity now
  | unregister id => exact h.unregister id
  | identify id who => exact h.orKeep fun _ => h.identify
  | subscribe id channel => exact h.orKeep fun _ => h.subscribe
  | unsubscribe id channel => exact h.orKeep fun _ => h.unsubscribe
  | sweep now => exact h.sweep now
  | shutdown => exact h.shutdown
  | broadcast m => exact h.of_alike (alike_offerAll m _ b)
  | toChannel channel m => exact h.of_alike (alike_offerAll m _ b)
  | toUser user m => exact h.of_alike (alike_offerAll m _ b)
  | send l m => exact h.of_alike (alike_orKeep_send b l m)
  | close l => exact h.of_alike (alike_close b l)
  | touch l now => exact h.of_alike (alike_touch b l now)
  | receive l => exact h.of_alike (alike_modify fun c _ => c.standing_receive)
  | forsake l => exact h.of_alike (alike_modify fun _ _ => rfl)
  | frame check now draw l content =>
    obtain ⟨b', he, e | ⟨m, e⟩⟩ := handleFrame_cases b check now draw l content
    · show (b.handleFrame check now draw l content).2.Grounded
      rw [e]
      exact h.frameEffect he
    · show (b.handleFrame check now draw l content).2.Grounded
      rw [e]
      exact (h.frameEffect he).of_alike (alike_offer b' l m)

/-- **Every operation keeps a board grounded**, also past the board, unless it registers somebody
under the name of somebody else. -/
theorem Grounded.operate (h : b.Grounded) (ho : o.Unrivalled b) : (b.operate o).Grounded := by
  cases o with
  | call k => exact h.after k ho
  | make id capacity now =>
    rcases e : b.open? id capacity now with - | ⟨l, b'⟩
    · simp only [Board.operate, e]
      exact h
    · simp only [Board.operate, e]
      exact h.open? e
  | register l => exact h.register ho
  | act l a =>
    exact h.change (f := (·.after a)) (fun c _ => ⟨c.id_after a, fun _ => c.identity_after a⟩)
      h.channelsTight

/-! ### Names that are different -/

/-- The board is grounded, and no two connections have the same name. -/
structure Founded (b : Board) : Prop extends Grounded b where
  distinct : (b.lines.map Connection.id).Nodup

/-- **At first** there is no connection. -/
theorem founded_empty (policy : Policy) : (Board.empty policy).Founded :=
  ⟨grounded_empty policy, List.nodup_nil⟩

/-- A name leads to the connection that has it. -/
theorem Founded.line_eq_of_registered (h : b.Founded) {l' : LineNumber}
    (hl : b.registered[c.id]? = some l') (hc : b.lines[l]? = some c) : l' = l := by
  obtain ⟨c', hc', hid⟩ := h.named hl
  exact line_eq_of_distinct h.distinct hc' hc hid

/-- Whoever is made or enters under a new name has no rival. -/
theorem Founded.unrivalled (h : b.Founded) (ho : o.Fresh b) : o.Unrivalled b := by
  cases o with
  | call k =>
    cases k with
    | enter id capacity now =>
      show b.registered[id]? = none
      rcases e : b.registered[id]? with - | l
      · rfl
      · obtain ⟨c, hc, hid⟩ := h.named e
        exact absurd hid (ho c (List.mem_of_getElem? hc))
    | _ => trivial
  | register l =>
    intro c hc
    rcases e : b.registered[c.id]? with - | l'
    · exact .inl rfl
    · exact .inr (congrArg some (h.line_eq_of_registered e hc))
  | _ => trivial

theorem ids_register (b : Board) (l : LineNumber) :
    (b.register l).2.lines.map Connection.id = b.lines.map Connection.id := by
  rcases hc : b.lines[l]? with - | c
  · simp [Board.register, hc]
  · rcases register_cases hc with ⟨-, e⟩ | ⟨-, e⟩
    · rw [e]
      exact (alike_close b l).ids
    · rw [e]

/-- The names of the connections after an operation: those from before, and perhaps a new one. -/
theorem ids_operate (ho : o.Fresh b) :
    (b.operate o).lines.map Connection.id = b.lines.map Connection.id ∨ ∃ id, b.Unused id ∧
      (b.operate o).lines.map Connection.id = b.lines.map Connection.id ++ [id] := by
  have hopen : ∀ {id capacity now l b'}, b.open? id capacity now = some (l, b') →
      b'.lines.map Connection.id = b.lines.map Connection.id ++ [id] := by
    intro id capacity now l b' e
    obtain ⟨outbox, -, rfl⟩ := open?_eq_some e
    simp
  by_cases hnew : ∃ id capacity now, o = .make id capacity now ∨ o = .call (.enter id capacity now)
  · obtain ⟨id, capacity, now, rfl | rfl⟩ := hnew
    · rcases e : b.open? id capacity now with - | ⟨l, b'⟩
      · exact .inl (by simp [operate, e])
      · exact .inr ⟨id, ho, by simpa [operate, e] using hopen e⟩
    · show (b.enter id capacity now).lines.map Connection.id = _ ∨ ∃ id', b.Unused id' ∧
        (b.enter id capacity now).lines.map Connection.id = _
      rw [enter]
      rcases e : b.open? id capacity now with - | ⟨l, b'⟩
      · exact .inl rfl
      · refine .inr ⟨id, ho, ?_⟩
        rw [← hopen e]
        exact ids_register b' l
  · -- the same connections are there, and have the same names
    left
    refine List.ext_getElem? fun l => ?_
    rw [List.getElem?_map, List.getElem?_map]
    rcases hc : b.lines[l]? with - | c
    · rcases hc' : (b.operate o).lines[l]? with - | c'
      · rfl
      · obtain ⟨id, capacity, now, -, -, ho', -⟩ := getElem?_operate_of_none hc hc'
        exact absurd ⟨id, capacity, now, ho'⟩ hnew
    · rw [getElem?_operate_of_some hc o]
      exact congrArg some (c.id_run _)

/-- **Every operation keeps a board founded**, if whoever is made has a new name. -/
theorem Founded.operate (h : b.Founded) (o : Operation) (ho : o.Fresh b) :
    (b.operate o).Founded := by
  refine ⟨h.toGrounded.operate (h.unrivalled ho), ?_⟩
  rcases ids_operate ho with e | ⟨id, hu, e⟩
  · rw [e]
    exact h.distinct
  · rw [e, List.nodup_append]
    refine ⟨h.distinct, List.nodup_singleton _, ?_⟩
    intro id' hid' x hx
    obtain ⟨c, hc, rfl⟩ := List.mem_map.1 hid'
    rw [List.mem_singleton.1 hx]
    exact hu c hc

/-- **Run lemma.** -/
theorem Founded.through (h : b.Founded) (hf : b.Throughout Operation.Fresh os) :
    (b.through os).Founded :=
  hf.keeps (fun h ho => h.operate _ ho) h

end Board

end Switchboard
