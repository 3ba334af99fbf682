/-
Switchboard/Proofs/Service/Registration.lean

Who is registered.

A sweep, the end of the service and the finish of a socket take connections
off the board and close them, so that the pumps of their sockets end.  To
unregister a name from outside takes a connection off the board as well, but
changes nothing about it: it goes on, and no sweep, no end and no delivery
finds it again.

The main statement, `registered_iff`, is that this is the only way for an
open connection to get lost: it is registered exactly if nobody has
unregistered its name since it came.
-/
import Switchboard.Proofs.Service.Ending
import Switchboard.Proofs.Service.Replay

namespace Switchboard.Service

variable {s : Service} {k : SocketNumber} {l : LineNumber} {c : Connection} {e : Event}
  {es : List Event} {id : ConnectionId} {v : Served}

/-! ### Coming -/

/-- Whoever is admitted has entered, but for its writer, which may have broken down. -/
theorem registered_admitted (s : Service) : s.admitted.registered =
    (s.board.enter s.draw.connection s.policy.queueCapacity s.clock).registered := by
  rw [admitted]
  split <;> rfl

theorem getElem?_enter_of_admitted (hc : s.admitted.lines[l]? = some c) :
    ∃ c', (s.board.enter s.draw.connection s.policy.queueCapacity s.clock).lines[l]? = some c' ∧
      c'.id = c.id ∧ c'.closed = c.closed := by
  rw [admitted] at hc
  split at hc
  · exact ⟨c, hc, rfl, rfl⟩
  · rw [Board.getElem?_modify] at hc
    split at hc
    · obtain ⟨c', hc', rfl⟩ := Option.map_eq_some_iff.1 hc
      exact ⟨c', hc', rfl, rfl⟩
    · exact ⟨c, hc, rfl, rfl⟩

theorem leavesClosed_join (h : s.Sound) (hu : s.board.Unused s.draw.connection) (a : Bool)
    (l : LineNumber) : s.board.LeavesClosed l (s.join a).board := by
  by_cases ha : s.Admits
  · rw [join_of_admits ha]
    have henter := h.inStep.leavesClosed_enter hu l s.policy.queueCapacity s.clock
    refine henter.trans (Board.leavesClosed_of_eq (registered_admitted s)) ?_
    show Board.Onward _ s.admitted
    rw [admitted]
    split
    · exact .refl _
    · exact Board.onward_modify fun _ _ => ⟨rfl, id⟩
  · rw [join_of_not_admits ha]
    exact Board.leavesClosed_of_eq rfl

/-! ### One event -/

theorem leavesClosed_begun (h : s.Sound) (he : e.Fresh s)
    (hk : ∀ id, e = .call (.unregister id) → s.board.registered[id]? ≠ some l) :
    s.board.LeavesClosed l (s.begun e).board := by
  cases e with
  | call c =>
    refine h.inStep.leavesClosed_after he fun id hc => hk id ?_
    rw [hc]
  | accept a => exact leavesClosed_join h he a l
  | receive k f =>
    show s.board.LeavesClosed l (s.board.run (s.heard? k f).toList)
    rcases hf : s.heard? k f with - | c
    · exact Board.leavesClosed_of_eq rfl
    · -- a frame takes nobody off the board
      obtain ⟨l', content, rfl⟩ := heard?_eq_some hf
      exact Board.leavesClosed_of_eq (Board.registered_handleFrame ..)
  | _ => exact Board.leavesClosed_of_eq rfl

/-- **Whoever leaves in the course of an event is closed**, unless its name is unregistered. -/
theorem leavesClosed_event (h : s.AtRest) (he : e.Fresh s)
    (hk : ∀ id, e = .call (.unregister id) → s.board.registered[id]? ≠ some l) :
    s.board.LeavesClosed l (s.after e).board :=
  have ht : Tended l (s.begun e) (s.after e) := tended_after h he
  (leavesClosed_begun h.sound he hk).trans ht.left ht.onward

/-- Whoever leaves is closed, unless it is its own name that is unregistered. -/
theorem closed_of_leaving (h : s.AtRest) (he : e.Fresh s) (hid : s.board.registered[id]? = some l)
    (hleft : (s.after e).board.registered[id]? ≠ some l) (hno : e ≠ .call (.unregister id)) :
    ∃ c, (s.after e).board.lines[l]? = some c ∧ c.closed = true := by
  have hleaves := leavesClosed_event (l := l) h he fun id' e' hid' =>
    hno (by rw [e', h.sound.inStep.registered_inj hid' hid])
  exact (hleaves id hid).resolve_left hleft

/-- Whoever comes to be and is open is registered. -/
theorem registered_begun (hn : s.board.lines[l]? = none)
    (hc : (s.begun e).board.lines[l]? = some c) (hopen : c.closed = false) :
    (s.begun e).board.registered[c.id]? = some l := by
  have hcall : ∀ o : Option Board.Call, (s.board.run o.toList).lines[l]? = some c →
      (s.board.run o.toList).registered[c.id]? = some l := by
    rintro (- | k) hk
    · cases hn.symm.trans hk
    · obtain ⟨id, capacity, now, -, -, rfl, -⟩ := Board.getElem?_after_of_none hn hk
      exact Board.registered_enter hn hk hopen
  cases e with
  | accept a =>
    have hj : (s.join a).board.lines[l]? = some c := hc
    show (s.join a).board.registered[c.id]? = some l
    by_cases ha : s.Admits
    · rw [join_of_admits ha] at hj ⊢
      obtain ⟨c', hc', hid, hcl⟩ := getElem?_enter_of_admitted hj
      show s.admitted.registered[c.id]? = some l
      rw [registered_admitted, ← hid]
      exact Board.registered_enter hn hc' (hcl.trans hopen)
    · rw [join_of_not_admits ha] at hj
      cases hn.symm.trans hj
  | forget => cases hn.symm.trans hc
  | _ => exact hcall _ hc

/-! ### Runs -/

/-- Since a connection came to be nobody has unregistered its name. -/
def Undisturbed (s : Service) (es : List Event) (l : LineNumber) (id : ConnectionId) : Prop :=
  ∀ es₁ es₂, es = es₁ ++ .call (.unregister id) :: es₂ → (s.run es₁).board.lines[l]? = none

theorem Undisturbed.of_concat (h : Undisturbed s (es ++ [e]) l id) : Undisturbed s es l id := by
  rintro es₁ es₂ rfl
  exact h es₁ (es₂ ++ [e]) (by simp)

/-- An open connection is registered if nobody has unregistered its name. -/
theorem registered_of_undisturbed (h : s.AtRest) (hf : FreshRun s es)
    (hn : s.board.lines[l]? = none) (hc : (s.run es).board.lines[l]? = some c)
    (hopen : c.closed = false) (hu : Undisturbed s es l c.id) :
    (s.run es).board.registered[c.id]? = some l := by
  induction es using List.reverseRecOn generalizing c with
  | nil => cases hn.symm.trans hc
  | append_singleton es e ih =>
    obtain ⟨hf, he⟩ := freshRun_concat.1 hf
    have hrest := (h.run hf).1
    rw [run_concat] at hc ⊢
    -- it stays registered, or would be closed
    have hleft : ∀ {b : Board}, b.LeavesClosed l ((s.run es).after e).board →
        b.registered[c.id]? = some l → ((s.run es).after e).board.registered[c.id]? = some l := by
      intro b hb hid
      rcases hb c.id hid with hid' | ⟨c', hc', hcl⟩
      · exact hid'
      · cases hc.symm.trans hc'
        exact absurd (hcl.symm.trans hopen) (by simp)
    rcases hold : (s.run es).board.lines[l]? with - | c₁
    · -- it has just come to be
      have ht : Tended l ((s.run es).begun e) ((s.run es).after e) := tended_after hrest he
      rcases hb : ((s.run es).begun e).board.lines[l]? with - | c₂
      · cases (ht.vacant hb).symm.trans hc
      · obtain ⟨hid, hopen₂⟩ := ht.onward.open_before hb hc hopen
        rw [hid] at hleft ⊢
        exact hleft ht.left (registered_begun hold hb hopen₂)
    · obtain ⟨hid, hopen₁⟩ := (onward_event hrest he).open_before hold hc hopen
      have hreg := ih hf hold hopen₁ (by rw [← hid]; exact hu.of_concat)
      rw [← hid] at hreg
      refine hleft (leavesClosed_event hrest he ?_) hreg
      -- its own name is not unregistered, and no other leads to it
      rintro id' rfl hid'
      have hnone := hu es [] (by rw [hid, hrest.sound.inStep.id_eq hid' hold])
      cases hold.symm.trans hnone

/-- Whoever is registered has not been unregistered. -/
theorem undisturbed_of_registered (h : s.AtRest) (hf : FreshRun s es)
    (hid : (s.run es).board.registered[id]? = some l) : Undisturbed s es l id := by
  rintro es₁ es₂ rfl
  obtain ⟨hf₁, he, hf₂⟩ := freshRun_append.1 hf
  have hrest := (h.run hf₁).1
  have ht : Tended l ((s.run es₁).begun (.call (.unregister id)))
      ((s.run es₁).after (.call (.unregister id))) := tended_after hrest he
  have honward := ht.onward.trans (onward_run (hrest.after he).atRest hf₂)
  rw [run_append] at hid
  rcases honward.registered hid with hback | hlen
  · -- the name leads nowhere once it is unregistered
    have hnone : ((s.run es₁).board.unregister id).2.registered[id]? = none := by
      rw [Board.registered_unregister]
      exact Std.ExtTreeMap.getElem?_erase_self
    cases hnone.symm.trans hback
  · -- so what it leads to has come later
    have hlen' : ((s.run es₁).board.unregister id).2.lines.length ≤ l := hlen
    rw [Board.lines_unregister] at hlen'
    exact List.getElem?_eq_none hlen'

/-- Whoever is not registered is lost: no run brings it back. -/
theorem AtRest.lost (h : s.AtRest) (hc : s.board.lines[l]? = some c)
    (hno : s.board.registered[c.id]? ≠ some l) (hf : FreshRun s es) (id : ConnectionId) :
    (s.run es).board.registered[id]? ≠ some l := by
  refine (onward_run h hf).unregistered (List.getElem?_eq_some_iff.1 hc).1 (fun id' hid' => ?_) id
  -- no name leads to it but its own
  rw [h.sound.inStep.id_eq hid' hc] at hno
  exact hno hid'

/-! ### All together -/

/-- **Whoever is open is registered, unless its name was unregistered.**  A connection that leaves
the board by any other event is closed, and if a socket serves it, its pumps are stopped.  To
unregister a name changes no connection, and who is lost in this way stays so. -/
theorem registered_iff (policy : Policy) (check : Check) (supply : Nat → Draw)
    {es : List Event} (hf : FreshRun (start policy check supply) es) :
    (∀ es₁ e es₂, es = es₁ ++ e :: es₂ → ∀ (id : ConnectionId) (l : LineNumber),
      ((start policy check supply).run es₁).board.registered[id]? = some l →
      ((start policy check supply).run (es₁ ++ [e])).board.registered[id]? ≠ some l →
      e ≠ .call (.unregister id) →
      ∃ c, ((start policy check supply).run (es₁ ++ [e])).board.lines[l]? = some c ∧
        c.closed = true ∧ ∀ k v,
          ((start policy check supply).run (es₁ ++ [e])).served? k = some (l, v) →
          ((start policy check supply).run (es₁ ++ [e])).Stopped v.socket ∧
          (((start policy check supply).run (es₁ ++ [e])).clock + 3 * policy.writeWait ≤
            ((start policy check supply).run es).clock →
            ((start policy check supply).run es).Over k l)) ∧
    (∀ id, (((start policy check supply).run es).board.unregister id).2.lines =
      ((start policy check supply).run es).board.lines) ∧
    ∀ (l : LineNumber) (c : Connection),
      ((start policy check supply).run es).board.lines[l]? = some c → c.closed = false →
      (((start policy check supply).run es).board.registered[c.id]? = some l ↔
        Undisturbed (start policy check supply) es l c.id) ∧
      (((start policy check supply).run es).board.registered[c.id]? ≠ some l →
        ∀ es', FreshRun ((start policy check supply).run es) es' → ∀ id : ConnectionId,
          (((start policy check supply).run es).run es').board.registered[id]? ≠ some l) := by
  have h := atRest_start policy check supply
  refine ⟨?_, fun id => Board.lines_unregister _ id, fun l c hc hopen => ⟨⟨?_, ?_⟩, ?_⟩⟩
  · rintro es₁ e es₂ rfl id l hid hleft hno
    obtain ⟨hf₁, he, hf₂⟩ := freshRun_append.1 hf
    obtain ⟨hrest, hpolicy⟩ := h.run hf₁
    have hc := hrest.after he
    rw [run_concat] at hleft ⊢
    rw [run_append]
    obtain ⟨c, hline, hcl⟩ := closed_of_leaving hrest he hid hleft hno
    refine ⟨c, hline, hcl, fun k v hv => ?_⟩
    cases hline.symm.trans (served?_eq_some.1 hv).2.2
    refine ⟨hc.atRest.stopped hv hcl, fun ht => hc.atRest.over hv hcl hf₂ ?_⟩
    rwa [hc.policy.trans hpolicy]
  · exact undisturbed_of_registered h hf
  · exact registered_of_undisturbed h hf rfl hc hopen
  · exact fun hno es' hf' id => (h.run hf).1.lost hc hno hf' id

/-- Two clients come, the name of the first is unregistered, and the service ends. -/
def scattered : List Event := [.accept true, .accept true, .call (.unregister 1), .call .shutdown]

/-- The second client is disconnected at the end.  The first is not, and nobody ever finds it
again. -/
theorem registered_iff_scattered :
    FreshRun (start .standard fragile draws) scattered ∧
      (∃ c, ((start .standard fragile draws).run scattered).board.lines[1]? = some c ∧
        c.closed = true) ∧
      ∃ c, ((start .standard fragile draws).run scattered).board.lines[0]? = some c ∧
        c.closed = false ∧ ¬ Undisturbed (start .standard fragile draws) scattered 0 c.id ∧
        ∀ es', FreshRun ((start .standard fragile draws).run scattered) es' →
          ∀ id : ConnectionId,
            (((start .standard fragile draws).run scattered).run es').board.registered[id]? ≠
              some 0 := by
  have hf : FreshRun (start .standard fragile draws) scattered := by decide +kernel
  obtain ⟨hleft, -, hopen⟩ := registered_iff .standard fragile draws hf
  refine ⟨hf, ?_, ?_⟩
  · obtain ⟨c, hc, hcl, -⟩ := hleft (scattered.take 3) (.call .shutdown) [] rfl 2 1
      (by decide +kernel) (by decide +kernel) (by simp)
    exact ⟨c, hc, hcl⟩
  · have hc : (((start .standard fragile draws).run scattered).board.lines[0]?).map
        (fun c => (c.id, c.closed)) = some (1, false) := by decide +kernel
    obtain ⟨c, hc, e⟩ := Option.map_eq_some_iff.1 hc
    obtain ⟨hid, hcl⟩ : c.id = 1 ∧ c.closed = false := by simpa using e
    have hno : ((start .standard fragile draws).run scattered).board.registered[c.id]? ≠
        some 0 := by
      rw [hid]
      decide +kernel
    obtain ⟨hiff, hlost⟩ := hopen 0 c hc hcl
    exact ⟨c, hc, hcl, fun hu => hno (hiff.2 hu), hlost hno⟩

/-- An open connection of a socket, with both its pumps at work, need not be registered. -/
theorem not_registered_of_unregister : ¬ ∀ es, FreshRun (start .standard fragile draws) es →
    ∀ k l v, ((start .standard fragile draws).run es).served? k = some (l, v) →
      v.connection.closed = false →
      ((start .standard fragile draws).run es).board.registered[v.connection.id]? = some l := by
  intro hall
  let es : List Event := [.accept true, .call (.unregister 1)]
  have hv : (((start .standard fragile draws).run es).served? 0).map
      (fun r => (r.1, r.2.connection.id, r.2.connection.closed)) = some (0, 1, false) := by
    decide +kernel
  obtain ⟨⟨l, v⟩, hv, e⟩ := Option.map_eq_some_iff.1 hv
  obtain ⟨rfl, hid, hcl⟩ : l = 0 ∧ v.connection.id = 1 ∧ v.connection.closed = false := by
    simpa using e
  have hreg := hall es (by decide +kernel) 0 0 v hv hcl
  rw [hid] at hreg
  have hnone : ((start .standard fragile draws).run es).board.registered[(1 : ConnectionId)]? =
      none := by decide +kernel
  cases hnone.symm.trans hreg

end Switchboard.Service
