/-
Switchboard/Proofs/Service/Admission.lean

Whether a client that comes is let in.

Settings that are accepted ask for a queue of some length, but a queue has a
greatest capacity, of which the settings know nothing.  Up to that capacity
every client that comes before the end finds a connection of its own: new,
open, registered, and ready to be sent messages.  Beyond it no connection can
be made at all, and whoever comes sees the end of the stream.  Nor do the
settings know the times that the clock can tell: if that of the first probe is
none of them, both pumps break down at once, and the connection is over as soon
as it is made.  That is `admitted_iff`.

What a client finds is what it was given as it came.  No sweep is due, and in
its first turn a socket has nothing to do: no message waits, the first probe
is an interval away, and so is the deadline of the reader, if it has not broken
down (`Served.turn_newcomer`).
-/
import Switchboard.Proofs.Service.Deadline
import Switchboard.Proofs.Settings.Outcome

namespace Switchboard

/-- There are queues of all capacities but zero and those beyond the greatest. -/
theorem Connection.isSome_new?_iff {id : ConnectionId} {capacity now : Nat} :
    (Connection.new? id capacity now).isSome ↔
      0 < capacity ∧ capacity ≤ Outbox.greatestCapacity := by
  rw [Connection.new?, Option.isSome_map, Outbox.new?]
  split <;> simp_all

/-- A new socket with a new connection has nothing to do in its first turn. -/
theorem Served.turn_newcomer {p : Policy} {l : LineNumber} {now : Nat} {a : Bool} {c : Connection}
    (hopen : c.closed = false) (hwaiting : c.outbox.waiting = []) (hread : 0 < p.readWait)
    (hprobes : p.Probes now) :
    (⟨c, Socket.fresh p l now a⟩ : Served).turn p now = ⟨c, Socket.fresh p l now a⟩ := by
  have hwriter : (Socket.fresh p l now a).writer = .ready (now + p.probeEvery) :=
    Writer.first_of_probes hprobes
  have hin : (⟨c, Socket.fresh p l now a⟩ : Served).InTime now := by
    intro deadline hr
    have := Reader.upTo_eq_reading hr
    omega
  have hlapse : (⟨c, Socket.fresh p l now a⟩ : Served).runReader now =
      ⟨c, Socket.fresh p l now a⟩ := runReader_of_inTime hopen hin
  have hend : (⟨c, Socket.fresh p l now a⟩ : Served).endReader = ⟨c, Socket.fresh p l now a⟩ :=
    endReader_of_open hopen
  have hprobe : 0 < p.probeEvery := Nat.pos_of_ne_zero hprobes.1
  have hrun : (⟨c, Socket.fresh p l now a⟩ : Served).run p now = ⟨c, Socket.fresh p l now a⟩ := by
    rw [run, hlapse, runWriter]
    simp only [release, part, probesDue, expire, hwriter, hopen, Outbox.size, hwaiting,
      List.length_nil, Bool.false_eq_true, if_false, probes, messages,
      if_pos (Nat.lt_add_of_pos_right (n := now) hprobe), hend]
  have hruns : (⟨c, Socket.fresh p l now a⟩ : Served).Runs := by
    refine .inr ?_
    rw [hwriter]
    trivial
  rw [turn_of_runs (hrun.symm ▸ hruns), hrun]

namespace Service

variable {s : Service} {a : Bool} {c : Connection}

theorem admits_iff : s.Admits ↔
    0 < s.policy.queueCapacity ∧ s.policy.queueCapacity ≤ Outbox.greatestCapacity :=
  Connection.isSome_new?_iff

/-- The connection that is made for a client that comes. -/
def fledgling (s : Service) : Connection :=
  ⟨s.draw.connection, ⟨s.policy.queueCapacity, [], true⟩, none, s.clock, false, ∅⟩

/-- Its queue has room for a message. -/
theorem send_fledgling (s : Service) (h : 0 < s.policy.queueCapacity) (m : Envelope) :
    s.fledgling.send m =
      .ok { s.fledgling with outbox := ⟨s.policy.queueCapacity, [m], true⟩ } := by
  have hroom : ¬ s.policy.queueCapacity ≤ 0 := Nat.not_le.2 h
  simp [Connection.send, fledgling, Outbox.put, hroom, bind, Except.bind]

/-- A client that comes before the end is served a new connection, and finds it as it was made, if
the clock can tell when it is to be probed first. -/
theorem AtRest.served?_accept (h : s.AtRest) (hfresh : s.board.Unused s.draw.connection)
    (hprobes : s.policy.Probes s.clock) (hread : 0 < s.policy.readWait) (ha : s.Admits)
    (hopen : s.board.closing = false) (a : Bool) :
    (s.accept a).served? s.sockets.length =
      some (s.board.lines.length, ⟨s.fledgling, s.newcomer a⟩) := by
  obtain ⟨c, hc⟩ := Option.isSome_iff_exists.1 ha
  have hnew : c = s.fledgling := (Connection.new?_eq_some hc).2
  have hline : (s.board.lines ++ [c])[s.board.lines.length]? = some s.fledgling := by simp [hnew]
  have hadmitted : s.admitted.lines[s.board.lines.length]? = some s.fledgling := by
    rw [admitted, if_pos hprobes, Board.enter_eq hc, Board.register, hline]
    simpa [hopen] using hnew
  have hv : (s.join a).served? s.sockets.length =
      some (s.board.lines.length, ⟨s.fledgling, s.newcomer a⟩) := by
    rw [join_of_admits ha]
    exact served?_eq_some.2 ⟨List.getElem?_concat_length, rfl, hadmitted⟩
  have t := stirred_join h.sound hfresh a
  have hpolicy : (s.join a).policy = s.policy := t.policy
  rw [accept, served?_settle_of_ahead t.sound (t.ahead h.ahead), hv, Option.map_some, hpolicy,
    (steady_join s a).clock]
  exact congrArg (fun v => some (s.board.lines.length, v))
    (Served.turn_newcomer rfl rfl hread hprobes)

/-- If the clock can tell neither that time nor until when the client may be silent, the connection
is closed. -/
theorem AtRest.closed_accept (h : s.AtRest) (hfresh : s.board.Unused s.draw.connection)
    (hlate : ¬ (s.policy.Reads s.clock ∨ s.policy.Probes s.clock)) (ha : s.Admits) (a : Bool) :
    (s.accept a).Closed s.sockets.length s.board.lines.length :=
  (abides_accept h hfresh ha a).closed_iff.2 (.inl (.inr hlate))

/-- An open connection that a client has just been given is registered. -/
theorem AtRest.registered_accept (h : s.AtRest) (hfresh : s.board.Unused s.draw.connection)
    (hc : (s.accept a).board.lines[s.board.lines.length]? = some c) (hopen : c.closed = false) :
    (s.accept a).board.registered[c.id]? = some s.board.lines.length := by
  have hnone : s.board.lines[s.board.lines.length]? = none := List.getElem?_eq_none (Nat.le_refl _)
  have ht : Tended s.board.lines.length (s.join a) (s.accept a) :=
    tended_after (e := .accept a) h hfresh
  rcases hb : (s.join a).board.lines[s.board.lines.length]? with - | c₁
  · cases (ht.vacant hb).symm.trans hc
  · obtain ⟨hid, hopen₁⟩ := ht.onward.open_before hb hc hopen
    have hreg := registered_begun (e := .accept a) hnone hb hopen₁
    rw [hid]
    rcases ht.left c₁.id hreg with hreg' | ⟨c', hc', hcl⟩
    · exact hreg'
    · -- it would have been closed since
      cases hc.symm.trans hc'
      exact absurd (hcl.symm.trans hopen) (by simp)

/-- A connection is made for whoever is let in, and for nobody else. -/
theorem AtRest.length_accept_iff (h : s.AtRest) (hfresh : s.board.Unused s.draw.connection) :
    (s.accept a).board.lines.length = s.board.lines.length ↔ ¬ s.Admits := by
  have ht : Tended s.board.lines.length (s.join a) (s.accept a) :=
    tended_after (e := .accept a) h hfresh
  have hle : (s.join a).board.lines.length ≤ (s.accept a).board.lines.length := ht.onward.length_le
  constructor
  · intro hlength ha
    obtain ⟨c, hv, -⟩ := served?_join_of_admits ha a
    have hlt := (List.getElem?_eq_some_iff.1 (served?_eq_some.1 hv).2.2).1
    omega
  · intro ha
    have hlines : (s.join a).board.lines = s.board.lines := by rw [join_of_not_admits ha]
    have hnone : (s.accept a).board.lines[s.board.lines.length]? = none :=
      ht.vacant (hlines ▸ List.getElem?_eq_none (Nat.le_refl _))
    exact Nat.le_antisymm (List.getElem?_eq_none_iff.1 hnone) (hlines ▸ hle)

/-- **Whoever comes before the end** is served a connection of its own, registered and open, that
takes a message, if and only if one can be made and the clock can tell when it is to be probed
first. -/
theorem AtRest.welcomes_iff (h : s.AtRest) (hfresh : s.board.Unused s.draw.connection)
    {delay : Nat} (hp : s.policy.Patient delay) (hopen : s.board.closing = false) (a : Bool) :
    (∃ v, (s.accept a).served? s.sockets.length = some (s.board.lines.length, v) ∧
      v.connection.id = s.draw.connection ∧
      (s.accept a).board.registered[v.connection.id]? = some s.board.lines.length ∧
      v.connection.closed = false ∧
      ∀ m, ∃ c, v.connection.send m = .ok c ∧ c.outbox.waiting = [m]) ↔
        s.Admits ∧ s.policy.Probes s.clock := by
  constructor
  · rintro ⟨v, hv, -, -, hvopen, -⟩
    have ha : s.Admits := by
      by_contra ha
      have hlength := (h.length_accept_iff (a := a) hfresh).2 ha
      have hlt := (List.getElem?_eq_some_iff.1 (served?_eq_some.1 hv).2.2).1
      omega
    refine ⟨ha, ?_⟩
    by_contra hclock
    -- the reader would have to wait still longer than the writer
    have hlate : ¬ (s.policy.Reads s.clock ∨ s.policy.Probes s.clock) :=
      not_or.2 ⟨fun hreads => hclock (hp.probes hreads), hclock⟩
    obtain ⟨v', hv', hcl⟩ := h.closed_accept hfresh hlate ha a
    cases hv.symm.trans hv'
    exact absurd (hcl.symm.trans hvopen) (by simp)
  · rintro ⟨ha, hclock⟩
    have hread : 0 < s.policy.readWait := (Nat.zero_le _).trans_lt hp.reading
    have hv := h.served?_accept hfresh hclock hread ha hopen a
    have hline := (served?_eq_some.1 hv).2.2
    exact ⟨_, hv, rfl, h.registered_accept hfresh hline rfl, rfl,
      fun m => ⟨_, s.send_fledgling (admits_iff.1 ha).1 m, rfl⟩⟩

/-! ### All together -/

/-- **Up to the greatest capacity of a queue clients are let in, and beyond it nobody is.**  The
settings that are accepted say nothing of that capacity, nor of the times that the clock of the host
can tell.  If they keep to the capacity, a connection can be made under every name, and whoever
comes before the end has begun, at a time from which the clock can tell that of its first probe, is
served one of that name, which is registered and open, and whose queue accepts a message, whatever
has happened before.  At a later time it is not; and if they do not keep to the capacity, no
connection can be made for anyone. -/
theorem admitted_iff {settings : Settings} {policy : Policy}
    (hpolicy : settings.outcome = .policy policy) (host : Host) :
    (∀ id now, (Connection.new? id policy.queueCapacity now).isSome ↔
      settings.queueCapacity ≤ Outbox.greatestCapacity) ∧
    ∀ (check : Check) (supply : Nat → Draw) (es : List Event) (a : Bool) (s : Service),
      (start (policy.on host) check supply).run es = s →
      FreshRun (start (policy.on host) check supply) (es ++ [.accept a]) →
      s.board.closing = false →
      ((∃ v, (s.accept a).served? s.sockets.length = some (s.board.lines.length, v) ∧
        v.connection.id = s.draw.connection ∧
        (s.accept a).board.registered[v.connection.id]? = some s.board.lines.length ∧
        v.connection.closed = false ∧
        ∀ m, ∃ c, v.connection.send m = .ok c ∧ c.outbox.waiting = [m]) ↔
          settings.queueCapacity ≤ Outbox.greatestCapacity ∧
            s.clock + policy.probeEvery < host.horizon) ∧
      ((s.accept a).board.lines.length = s.board.lines.length ↔
        Outbox.greatestCapacity < settings.queueCapacity) := by
  obtain ⟨husable, -, hrules⟩ := Settings.outcome_eq_policy_iff.1 hpolicy
  have hcapacity : policy.queueCapacity = settings.queueCapacity := by rw [hrules]
  have hqueue := husable.queue
  have hp := Settings.patient hpolicy
  refine ⟨fun id now => ?_, fun check supply es a s hs hf hopen => ?_⟩
  · rw [Connection.isSome_new?_iff, hcapacity]
    exact and_iff_right hqueue
  · obtain ⟨hf₀, hfresh⟩ := freshRun_concat.1 hf
    obtain ⟨hrest, hsame⟩ := (atRest_start (policy.on host) check supply).run hf₀
    rw [hs] at hfresh hrest hsame
    have hsame : s.policy = policy.on host := hsame
    have ha : s.Admits ↔ settings.queueCapacity ≤ Outbox.greatestCapacity := by
      rw [admits_iff, hsame]
      exact (and_congr_right fun _ => by rw [← hcapacity]; rfl).trans
        (and_iff_right (hcapacity.symm ▸ hqueue))
    have hprobes : s.policy.Probes s.clock ↔ s.clock + policy.probeEvery < host.horizon := by
      rw [hsame]
      exact and_iff_right (Nat.ne_of_gt hp.probing)
    have hpatient : s.policy.Patient 0 := hsame ▸ hp.on host
    refine ⟨(hrest.welcomes_iff hfresh hpatient hopen a).trans (and_congr ha hprobes), ?_⟩
    rw [hrest.length_accept_iff hfresh, ha, Nat.not_le]

/-- Settings with the longest queue that there is. -/
def roomy : Settings := { Settings.standard with queueCapacity := Outbox.greatestCapacity }

/-- The second of two clients is let in as well. -/
theorem admitted_iff_roomy : ∃ policy, roomy.outcome = .policy policy ∧
    FreshRun (start policy firm draws) ([.accept true, .sweeper] ++ [.accept true]) ∧
    ∃ v, (((start policy firm draws).run [.accept true, .sweeper]).accept true).served? 1 =
        some (1, v) ∧ v.connection.id = 2 ∧
      ∀ m, ∃ c, v.connection.send m = .ok c ∧ c.outbox.waiting = [m] := by
  let policy : Policy := { Policy.standard with queueCapacity := Outbox.greatestCapacity }
  have hpolicy : roomy.outcome = .policy policy := by rfl
  have hf : FreshRun (start policy firm draws) ([.accept true, .sweeper] ++ [.accept true]) := by
    decide +kernel
  have hhost : policy.on .standard = policy := rfl
  obtain ⟨-, hall⟩ := admitted_iff hpolicy .standard
  rw [hhost] at hall
  obtain ⟨hiff, -⟩ := hall firm draws [.accept true, .sweeper] true _ rfl hf (by decide +kernel)
  obtain ⟨v, hv, hid, -, -, hsend⟩ := hiff.2 ⟨Nat.le_refl _, by decide +kernel⟩
  have hsockets : ((start policy firm draws).run [.accept true, .sweeper]).sockets.length = 1 := by
    decide +kernel
  have hlines : ((start policy firm draws).run
      [.accept true, .sweeper]).board.lines.length = 1 := by decide +kernel
  have hdraw : ((start policy firm draws).run
      [.accept true, .sweeper]).draw.connection = 2 := by decide +kernel
  rw [hsockets, hlines] at hv
  exact ⟨policy, hpolicy, hf, v, hv, hid.trans hdraw, hsend⟩

/-- Settings with a queue that is longer by one. -/
def vast : Settings := { Settings.standard with queueCapacity := Outbox.greatestCapacity + 1 }

/-- Settings that are accepted need not let anyone in. -/
theorem not_admitted_vast : ¬ ∀ settings policy, Settings.outcome settings = .policy policy →
    ∀ id now, (Connection.new? id policy.queueCapacity now).isSome := by
  intro hall
  have hpolicy : vast.outcome =
      .policy { Policy.standard with queueCapacity := Outbox.greatestCapacity + 1 } := by rfl
  have hsome := hall _ _ hpolicy 1 0
  rw [Connection.isSome_new?_iff] at hsome
  exact absurd hsome.2 (Nat.not_succ_le_self _)

end Service

end Switchboard
