/-
Switchboard/Proofs/Service/Aftermath.lean

What becomes of a service after its end.

Once the end has begun, nobody comes to the board again, and no sweeper goes
on.  The service is then `Deserted`, and it stays so whatever happens to it:
the events of a run, and what is done to its board and connections by others,
in any order (`Occurrence`).  Nothing is asked of the service that the end
comes to, nor of the names of those who come later.

Almost everything that happens is a change of the board after which all
settles.  So it is enough that the board wanes with every such change, and
that a service which settles on a disbanded board is deserted, with the
sweepers that were at work and with those that have begun since.
-/
import Switchboard.Hosting
import Switchboard.Proofs.Board.Aftermath
import Switchboard.Proofs.Service.Events

namespace Switchboard.Service

open Board (Operation Wanes)

variable {s s' s'' u : Service} {k : SocketNumber} {b : Board}

/-- Whatever can happen to a service. -/
inductive Occurrence where
  | event (e : Event)
  /-- Something is done to the board or to a connection. -/
  | operation (o : Operation)

/-- The service after something has happened. -/
def undergo (s : Service) : Occurrence → Service
  | .event e => s.after e
  | .operation o => (s.act fun b => ((), b.operate o)).2

/-- The service after several things have happened. -/
def live (s : Service) (os : List Occurrence) : Service := os.foldl undergo s

/-- Nobody is on the board or may come, and no sweeper goes on. -/
structure Deserted (s : Service) : Prop where
  disbanded : s.board.Disbanded
  sweepers : ∀ w ∈ s.sweepers, w.due = none

/-- A change after which a board goes on without those who are gone, and a deserted service is
so still. -/
structure Fades (s s' : Service) : Prop where
  wanes : s.board.Wanes s'.board
  deserted : s.Deserted → s'.Deserted

theorem Fades.refl (s : Service) : Fades s s := ⟨.refl _, id⟩

theorem Fades.trans (h : Fades s s') (h' : Fades s' s'') : Fades s s'' :=
  ⟨h.wanes.trans h'.wanes, h'.deserted ∘ h.deserted⟩

/-! ### Settling -/

/-- A sweep opens nothing, due or not. -/
theorem wanes_sweepOne (now : Nat) (w : Sweeper) (b : Board) : b.Wanes (sweepOne now w b).2 := by
  rcases sweepOne_eq_or now w b with e | e
  · rw [e]
    exact .refl b
  · rw [e]
    exact Board.wanes_after b (.sweep now)

theorem wanes_sweepAll (now : Nat) (ws : List Sweeper) (b : Board) :
    b.Wanes (sweepAll now ws b).2 := by
  induction ws generalizing b with
  | nil => exact .refl b
  | cons w ws ih => exact (wanes_sweepOne now w b).trans (ih _)

/-- Once the end has begun, every sweeper stops. -/
theorem due_sweepAll {now : Nat} {ws : List Sweeper} (hb : b.closing = true) :
    ∀ w ∈ (sweepAll now ws b).1, w.due = none := by
  induction ws with
  | nil => simp [sweepAll]
  | cons w ws ih =>
    have hone : sweepOne now w b = (⟨none⟩, b) := by rw [sweepOne, if_pos hb]
    rw [sweepAll_cons, hone]
    exact List.forall_mem_cons.2 ⟨rfl, ih⟩

/-- Nor does a change of a socket, if it leaves closed what is closed. -/
theorem wanes_modifyServed {f : Served → Served}
    (hf : ∀ v : Served, v.connection.closed = true → (f v).connection.closed = true) :
    s.board.Wanes (s.modifyServed k f).board := by
  rcases hv : s.served? k with - | ⟨l, v⟩
  · rw [modifyServed_eq_self hv]
    exact .refl _
  · rw [modifyServed_eq hv]
    refine Board.wanes_modify fun c hc hcl => hf v ?_
    cases (served?_eq_some.1 hv).2.2.symm.trans hc
    exact hcl

theorem wanes_dismiss (b : Board) (id : ConnectionId) : b.Wanes (b.dismiss id) := by
  have hu := Board.wanes_after b (.unregister id)
  rw [Board.dismiss]
  rcases e : b.unregister id with ⟨- | l, b'⟩
  · simpa [Board.after, e] using hu
  · have hb : b.Wanes b' := by simpa [Board.after, e] using hu
    exact hb.trans (Board.wanes_close b' l)

/-- A socket that is done with has its connection closed. -/
theorem wanes_finish (s : Service) (k : SocketNumber) : s.board.Wanes (s.finish k).board := by
  rcases hv : s.served? k with - | ⟨l, v⟩
  · rw [finish, hv]
    exact .refl _
  · rw [finish_eq hv]
    split
    · have hclose : s.board.Wanes (s.putServed k l v.concluded).board :=
        Board.wanes_modify fun _ _ _ => rfl
      exact hclose.trans (wanes_dismiss _ _)
    · exact .refl _

/-- Nor does a turn. -/
theorem wanes_runSocket (s : Service) (k : SocketNumber) :
    s.board.Wanes (s.runSocket k).board :=
  (wanes_modifyServed fun v => (Served.onward_run s.policy s.clock v).closed).trans
    (wanes_finish _ k)

/-- A turn is none of the sweepers' business. -/
theorem sweepers_runSocket (s : Service) (k : SocketNumber) :
    (s.runSocket k).sweepers = s.sweepers := by
  have hmodify : (s.modifyServed k fun v => v.run s.policy s.clock).sweepers = s.sweepers := by
    rw [modifyServed]
    split <;> rfl
  rw [← hmodify, runSocket]
  rcases hv : (s.modifyServed k fun v => v.run s.policy s.clock).served? k with - | ⟨l, v⟩
  · rw [finish, hv]
  · rw [finish_eq hv]
    split <;> rfl

/-- **After any change of a disbanded board, the service that settles is deserted.** -/
theorem fades_settle (h : s.board.Wanes u.board) : Fades s u.settle := by
  have hturns : ∀ ks : List SocketNumber,
      u.runSweepers.board.Wanes (ks.foldl runSocket u.runSweepers).board ∧
        (ks.foldl runSocket u.runSweepers).sweepers = u.runSweepers.sweepers := by
    intro ks
    induction ks using List.reverseRecOn with
    | nil => exact ⟨.refl _, rfl⟩
    | append_singleton ks k ih =>
      rw [List.foldl_append]
      exact ⟨ih.1.trans (wanes_runSocket _ k), (sweepers_runSocket _ k).trans ih.2⟩
  obtain ⟨hturned, hsweepers⟩ := hturns (List.range u.sockets.length)
  have hsweep : u.board.Wanes u.runSweepers.board := wanes_sweepAll u.clock u.sweepers u.board
  have hall : s.board.Wanes u.settle.board := (h.trans hsweep).trans hturned
  refine ⟨hall, fun hs => ⟨hall.disbanded hs.disbanded, ?_⟩⟩
  show ∀ w ∈ ((List.range u.sockets.length).foldl runSocket u.runSweepers).sweepers, w.due = none
  rw [hsweepers]
  exact due_sweepAll (h.disbanded hs.disbanded).closing

/-! ### Events -/

theorem wanes_hangUp (s : Service) (k : SocketNumber) (parting : Parting) :
    s.board.Wanes (s.hangUp k parting).board :=
  wanes_modifyServed fun _ _ => rfl

theorem wanes_breakOff (s : Service) (k : SocketNumber) :
    s.board.Wanes (s.breakOff k).board := by
  rw [breakOff]
  split
  · exact .refl _
  · split
    · exact .refl _
    · exact wanes_hangUp s k .silence

/-- A message is handled on the board, where nothing is opened. -/
theorem wanes_takeMessage (s : Service) (k : SocketNumber) (l : LineNumber) (content : Bytes) :
    s.board.Wanes (s.takeMessage k l content).board := by
  have hframe : s.board.Wanes (s.board.handleFrame s.check s.clock s.draw l content).2 :=
    Board.wanes_after s.board (.frame s.check s.clock s.draw l content)
  rw [takeMessage]
  rcases e : s.board.handleFrame s.check s.clock s.draw l content with ⟨done, b⟩
  rw [e] at hframe
  refine hframe.trans (wanes_modifyServed (s := { s with board := b, drawn := s.drawn + 1 })
    fun v hcl => ?_)
  split
  · exact (Served.bears_extend _ v).onward.closed hcl
  · exact hcl

/-- A frame that comes late is handled like any other, and brings nobody back. -/
theorem wanes_hear (s : Service) (k : SocketNumber) (f : Incoming) :
    s.board.Wanes (s.hear k f).board := by
  rcases hear_cases s k f with e | ⟨l, v, content, -, -, -, -, e⟩ | ⟨g, hg, e⟩
  · rw [e]
    exact .refl _
  · rw [e]
    exact wanes_takeMessage s k l content
  · rw [e]
    exact wanes_modifyServed fun v => (hg v).onward.closed

theorem wanes_join (s : Service) (a : Bool) : s.board.Wanes (s.join a).board := by
  by_cases h : s.Admits
  · rw [join_of_admits h]
    have henter := Board.wanes_after s.board
      (.enter s.draw.connection s.policy.queueCapacity s.clock)
    show s.board.Wanes s.admitted
    rw [admitted]
    split
    · exact henter
    · exact henter.trans (Board.wanes_modify fun _ _ hcl => hcl)
  · rw [join_of_not_admits h]
    exact .refl _

/-- **Step lemma.** -/
theorem fades_after (s : Service) (e : Event) : Fades s (s.after e) := by
  cases e with
  | call c => exact fades_settle (Board.wanes_after s.board c)
  | sweeper => exact fades_settle (.refl _)
  | accept a => exact fades_settle (wanes_join s a)
  | receive k f => exact fades_settle (wanes_hear s k f)
  | endOfFrames k => exact fades_settle (wanes_breakOff s k)
  | vanish k =>
    refine fades_settle ?_
    rw [vanish_eq]
    exact wanes_modifyServed fun v => v.bears_vanished.onward.closed
  | sever k => exact fades_settle (wanes_modifyServed fun _ hcl => hcl)
  | resume k =>
    refine fades_settle (wanes_modifyServed fun v hcl => ?_)
    simp only
    split
    · exact (Served.bears_answerProbe s.policy s.clock _).onward.closed hcl
    · exact hcl
  -- what the clients have received or take next concerns neither the board nor the sweepers
  | stop k => exact ⟨.refl _, fun h => ⟨h.disbanded, h.sweepers⟩⟩
  | forget => exact ⟨.refl _, fun h => ⟨h.disbanded, h.sweepers⟩⟩
  | elapse milliseconds =>
    have harrive : ∀ (s : Service) (t : Nat), Fades s (s.arrive t) :=
      fun s t => fades_settle (.refl s.board)
    exact passTo_of_arrive (R := Fades) Fades.trans harrive _ _ s

theorem fades_undergo (s : Service) (o : Occurrence) : Fades s (s.undergo o) := by
  cases o with
  | event e => exact fades_after s e
  | operation o => exact fades_settle (Board.wanes_operate s.board o)

/-- **Whatever happens**, nobody comes back to a board that is disbanded. -/
theorem fades_live (s : Service) (os : List Occurrence) : Fades s (s.live os) := by
  induction os generalizing s with
  | nil => exact .refl s
  | cons o os ih => exact (fades_undergo s o).trans (ih _)

/-! ### The end -/

/-- The end deserts the service at once, whatever its sweepers and sockets have been doing. -/
theorem deserted_shutdown (s : Service) : (s.act Board.shutdown).2.Deserted := by
  let t : Service := { s with board := s.board.shutdown.2 }
  have hsettle : Fades { t with sweepers := [] } t.settle := fades_settle (.refl _)
  exact hsettle.deserted ⟨Board.disbanded_shutdown s.board, fun _ hw => absurd hw List.not_mem_nil⟩

/-- The end closes, and what follows does not open again. -/
theorem wanes_shutdown (s : Service) :
    s.board.shutdown.2.Wanes (s.act Board.shutdown).2.board :=
  (fades_settle (s := { s with board := s.board.shutdown.2 }) (.refl _)).wanes

/-- A connection that is made for a client that comes after the end is closed. -/
theorem Deserted.closedAt_accept (h : s.Deserted) {l : LineNumber} (a : Bool)
    (ho : s.board.open? s.draw.connection s.policy.queueCapacity s.clock = some (l, b)) :
    (s.accept a).board.ClosedAt l := by
  have hadmits : s.Admits := by
    obtain ⟨c, hc, -⟩ := Option.map_eq_some_iff.1 ho
    exact Option.isSome_iff_exists.2 ⟨c, hc⟩
  obtain ⟨c, hc, hcl⟩ := getElem?_admitted hadmits
  obtain ⟨outbox, rfl, -⟩ := Board.open?_eq_some ho
  have hjoin : (s.join a).board.ClosedAt s.board.lines.length := by
    rw [join_of_admits hadmits]
    exact ⟨c, hc, hcl.trans h.disbanded.closing⟩
  exact (fades_settle (.refl (s.join a).board)).wanes.closed hjoin

/-- The life of a service on its own host ends with nobody on the board. -/
theorem deserted_of_run_eq_ok {networked : Bool} {visit : Hosting.Visit} {r : Hosting.Record}
    (h : Hosting.run s networked visit = .ok r) :
    r.final.Deserted ∧ r.after = r.final.board.stats := by
  rw [Hosting.run] at h
  split at h
  · cases h
  · cases h
    exact ⟨deserted_shutdown _, rfl⟩

/-- **The end is for good.**  It closes whoever is registered and counts them, and leaves nobody on
the board.  Whatever happens afterwards, nobody comes back and no sweeper goes on, all that is asked
of the board is refused, and the connection of a client that comes is not registered but closed.  So
a service on its own host ends deserted, and the counts that it ends with are those of its board. -/
theorem shutdown_for_good (s : Service) (os : List Occurrence) :
    let t := (s.act Board.shutdown).2.live os
    (s.act Board.shutdown).1 = s.board.stats.connections ∧
      s.board.shutdown.2.Disbanded ∧
      (∀ (id : ConnectionId) (l : LineNumber) (c : Connection),
        s.board.registered[id]? = some l → s.board.lines[l]? = some c →
        s.board.shutdown.2.lines[l]? = some c.close.2 ∧ t.board.ClosedAt l) ∧
      t.Deserted ∧ t.board.Refuses ∧
      (∀ a l b, t.board.open? t.draw.connection t.policy.queueCapacity t.clock = some (l, b) →
        (b.register l).1 = false ∧ (t.accept a).board.ClosedAt l) ∧
      ∀ visit, (∃ r, Hosting.run s true visit = .ok r) ∧
        ∀ networked r, Hosting.run s networked visit = .ok r →
          r.final.Deserted ∧ r.final.board.Refuses ∧ r.after = r.final.board.stats ∧
            r.after = ⟨0, 0, 0⟩ := by
  intro t
  have hfades := fades_live (s.act Board.shutdown).2 os
  have ht : t.Deserted := hfades.deserted (deserted_shutdown s)
  refine ⟨?_, Board.disbanded_shutdown s.board, ?_, ht, ht.disbanded.refuses, ?_, ?_⟩
  · show s.board.registered.values.length = s.board.registered.size
    rw [Board.values_eq, List.length_map, Std.ExtTreeMap.length_toList]
  · intro id l c hl hc
    have hclosed := Board.getElem?_shutdown hl hc
    exact ⟨hclosed, hfades.wanes.closed ((wanes_shutdown s).closed ⟨_, hclosed, rfl⟩)⟩
  · intro a l b ho
    -- the board has been disbanded before the connection was made, and so it is afterwards
    have hb : b.Disbanded := (Board.wanes_open? ho).disbanded ht.disbanded
    exact ⟨congrArg Prod.fst (hb.refuses.register l), ht.closedAt_accept a ho⟩
  · intro visit
    refine ⟨?_, fun networked r hr => ?_⟩
    · rw [Hosting.run, if_neg (by simp)]
      exact ⟨_, rfl⟩
    · obtain ⟨hfinal, hafter⟩ := deserted_of_run_eq_ok hr
      have hrefuses := hfinal.disbanded.refuses
      exact ⟨hfinal, hrefuses, hafter, hafter.trans hrefuses.stats⟩

end Switchboard.Service
