/-
Switchboard/Proofs/Board/Sweeping.lean

What a sweep does to a board.

A sweep finds among the registered connections those that are stale, and
removes them: it closes them and takes them out of the indices.  `Swept` says
so connection by connection, of those that are removed and of those that are
not, and `InStep.swept` proves it of every board that is in step with its
connections.  There what the indices list follows from who is registered, so
that it is enough to know what becomes of the registrations and of the
connections themselves.
-/
import Switchboard.Proofs.Board.Aftermath
import Switchboard.Proofs.Board.Leaving
import Switchboard.Proofs.Board.Sparing

namespace Switchboard

/-- Whoever is not stale has given a sign of life in time, and is open. -/
theorem Connection.isStale_eq_true {c : Connection} {allowed now : Nat} :
    c.isStale allowed now = true ↔ c.closed = true ∨ c.lastSeen + allowed < now := by
  rw [isStale, idle, Bool.or_eq_true, decide_eq_true_iff]
  exact or_congr_right (by omega)

namespace Board

variable {b b' : Board} {l : LineNumber} {id : ConnectionId} {c : Connection} {now : Nat}

/-! ### Who is stale -/

theorem mem_stale_iff (hc : b.lines[l]? = some c) : (id, l) ∈ b.stale now ↔
    b.registered[id]? = some l ∧ c.isStale b.policy.staleAfter now = true := by
  rw [stale, List.mem_filter, Std.ExtTreeMap.mem_toList_iff_getElem?_eq_some]
  simp only [isStale, hc]

/-- Nobody who is stale has any but its own name. -/
theorem mem_map_stale (hid : b.registered[id]? = some l) :
    id ∈ (b.stale now).map Prod.fst ↔ (id, l) ∈ b.stale now := by
  constructor
  · intro hm
    obtain ⟨⟨id', l'⟩, hr, rfl⟩ := List.mem_map.1 hm
    cases hid.symm.trans (registered_of_mem_stale hr)
    exact hr
  · exact fun hm => List.mem_map.2 ⟨_, hm, rfl⟩

/-! ### Registrations -/

theorem registered_sweep (b : Board) (now : Nat) (id : ConnectionId) :
    (b.sweep now).2.registered[id]? =
      if id ∈ (b.stale now).map Prod.fst then none else b.registered[id]? :=
  registered_removeAll _ b id

/-- A sweep registers nobody. -/
theorem registered_of_sweep (h : (b.sweep now).2.registered[id]? = some l) :
    b.registered[id]? = some l := by
  rw [registered_sweep] at h
  split at h
  · cases h
  · exact h

/-! ### Connections -/

/-- Whoever is not found stale is left alone. -/
theorem getElem?_sweep_of_not_mem (hno : ∀ id, (id, l) ∉ b.stale now) :
    (b.sweep now).2.lines[l]? = b.lines[l]? := by
  have hacts : plainActs l b (.sweep now) = [] := by
    refine aimed_eq_nil fun hm => ?_
    obtain ⟨⟨id, l'⟩, hstale, rfl⟩ := List.mem_map.1 hm
    exact hno id hstale
  have hafter := getElem?_after_plain (b := b) (k := .sweep now) trivial id l
  rw [hacts, map_run_nil] at hafter
  exact hafter

/-- Whoever is not found stale is not found stale once others have been removed. -/
theorem not_mem_stale_sweep (hno : ∀ id, (id, l) ∉ b.stale now) (id : ConnectionId) :
    (id, l) ∉ (b.sweep now).2.stale now := by
  intro hm
  obtain ⟨hid, hstale⟩ := List.mem_filter.1 hm
  have hid' : (b.sweep now).2.registered[id]? = some l :=
    Std.ExtTreeMap.mem_toList_iff_getElem?_eq_some.1 hid
  rw [isStale, getElem?_sweep_of_not_mem hno, (onward_sweep b now).policy] at hstale
  refine hno id (List.mem_filter.2 ⟨?_, hstale⟩)
  exact Std.ExtTreeMap.mem_toList_iff_getElem?_eq_some.2 (registered_of_sweep hid')

/-- Whoever is found stale is closed, and not changed in any other way. -/
theorem getElem?_sweep_of_mem (hm : (id, l) ∈ b.stale now) (hc : b.lines[l]? = some c) :
    (b.sweep now).2.lines[l]? = some c.close.2 := by
  have hmem : l ∈ (b.stale now).map Prod.snd := List.mem_map.2 ⟨_, hm, rfl⟩
  obtain ⟨n, hn⟩ := Nat.exists_eq_succ_of_ne_zero (List.count_pos_iff.2 hmem).ne'
  have hacts : b.acts l (.sweep now) = .close :: List.replicate n .close := by
    show List.replicate (((b.stale now).map Prod.snd).count l) _ = _
    rw [hn, List.replicate_succ]
  have hafter := getElem?_after_of_some hc (.sweep now)
  rw [hacts, Connection.run_cons] at hafter
  exact hafter.trans (congrArg some (c.run_replicate_close n))

/-! ### All together -/

/-- What a sweep does.  Whoever is stale is closed and found in no index any more, and whoever is
not is as it was and listed as it was.  The others are not touched. -/
structure Swept (now : Nat) (b b' : Board) : Prop where
  removed : ∀ {id : ConnectionId} {l : LineNumber} {c : Connection}, b.registered[id]? = some l →
    b.lines[l]? = some c → c.isStale b.policy.staleAfter now = true →
    b'.lines[l]? = some c.close.2 ∧ b'.registered[id]? = none ∧
      (∀ user : String, id ∉ b'.users.listed user) ∧
      ∀ channel : String, id ∉ b'.channels.listed channel
  kept : ∀ {id : ConnectionId} {l : LineNumber} {c : Connection}, b.registered[id]? = some l →
    b.lines[l]? = some c → c.isStale b.policy.staleAfter now = false →
    b'.lines[l]? = some c ∧ b'.registered[id]? = some l ∧
      (∀ user : String, id ∈ b'.users.listed user ↔ id ∈ b.users.listed user) ∧
      ∀ channel : String, id ∈ b'.channels.listed channel ↔ id ∈ b.channels.listed channel
  others : ∀ {l : LineNumber}, (∀ id : ConnectionId, b.registered[id]? ≠ some l) →
    b'.lines[l]? = b.lines[l]?
  /-- Afterwards nobody is registered who is closed or stale. -/
  clean : ∀ {id : ConnectionId} {l : LineNumber} {c : Connection}, b'.registered[id]? = some l →
    b'.lines[l]? = some c → c.closed = false ∧ now ≤ c.lastSeen + b.policy.staleAfter

/-- What the indices list of a connection follows from who is registered. -/
theorem InStep.listed_congr (h : b.InStep) (h' : b'.InStep) (hid : b'.holder? id = b.holder? id) :
    (∀ user : String, id ∈ b'.users.listed user ↔ id ∈ b.users.listed user) ∧
      ∀ channel : String, id ∈ b'.channels.listed channel ↔ id ∈ b.channels.listed channel :=
  ⟨fun user => by rw [h.users, h'.users, hid],
    fun channel => by rw [h.channels, h'.channels, hid]⟩

/-- **A sweep removes exactly the stale.** -/
theorem InStep.swept (h : b.InStep) (now : Nat) : b.Swept now (b.sweep now).2 := by
  have h' := h.sweep now
  have hkept : ∀ {id : ConnectionId} {l : LineNumber} {c : Connection},
      b.registered[id]? = some l → b.lines[l]? = some c →
      c.isStale b.policy.staleAfter now = false →
      (b.sweep now).2.lines[l]? = some c ∧ (b.sweep now).2.registered[id]? = some l := by
    intro id l c hid hc hfresh
    have hno : id ∉ (b.stale now).map Prod.fst := by
      rw [mem_map_stale hid]
      exact not_mem_stale hc hfresh id
    refine ⟨getElem?_sweep hc hfresh, ?_⟩
    rw [registered_sweep, if_neg hno]
    exact hid
  refine ⟨?_, ?_, ?_, ?_⟩
  · intro id l c hid hc hstale
    have hm : (id, l) ∈ b.stale now := (mem_stale_iff hc).2 ⟨hid, hstale⟩
    have hnone : (b.sweep now).2.registered[id]? = none := by
      rw [registered_sweep, if_pos ((mem_map_stale hid).2 hm)]
    exact ⟨getElem?_sweep_of_mem hm hc, hnone, h'.unlisted hnone⟩
  · intro id l c hid hc hfresh
    obtain ⟨hc', hid'⟩ := hkept hid hc hfresh
    refine ⟨hc', hid', h.listed_congr h' ?_⟩
    rw [holder?_of hid hc, holder?_of hid' hc']
  · exact fun hno => getElem?_sweep_of_not_mem fun id hm => hno id (registered_of_mem_stale hm)
  · intro id l c' hid' hc'
    have hid := registered_of_sweep hid'
    obtain ⟨c, hc, -⟩ := h.named hid
    rcases hs : c.isStale b.policy.staleAfter now with - | -
    · cases hc'.symm.trans (hkept hid hc hs).1
      have hno : ¬ (c'.closed = true ∨ c'.lastSeen + b.policy.staleAfter < now) := by
        rw [← Connection.isStale_eq_true, hs]
        simp
      obtain ⟨hopen, hseen⟩ := not_or.1 hno
      exact ⟨Bool.eq_false_iff.2 hopen, Nat.le_of_not_lt hseen⟩
    · -- it would have been removed
      have hm : (id, l) ∈ b.stale now := (mem_stale_iff hc).2 ⟨hid, hs⟩
      rw [registered_sweep, if_pos ((mem_map_stale hid).2 hm)] at hid'
      cases hid'

end Board

end Switchboard
