/-
Switchboard/Proofs/Service/Queue.lean

The queue of a connection keeps the order.

Messages come to a queue by calls from outside, by the replies of the
handling of frames and by deliveries to many, and they leave it by calls or
by the writer of a socket, with probes in between and a closing at any time.
Through all of this the messages that have been taken are a front of those
that were accepted, and as long as anyone takes messages the others wait,
never more than there is room for.  A client gets the texts of such a front.

What is accepted and what is taken is read off the run (`accepted`,
`collected`, `receipts`), and the history of the connection balances the two.
-/
import Switchboard.Proofs.Service.Ending
import Switchboard.Proofs.Service.Replay

namespace Switchboard

namespace Connection

variable {c : Connection} {as : List Act}

theorem outbox_run_closings (h : ∀ a ∈ as, a = .close) (c : Connection) :
    (c.run as).outbox = c.outbox := by
  induction as generalizing c with
  | nil => rfl
  | cons a as ih =>
    obtain ⟨rfl, has⟩ := List.forall_mem_cons.1 h
    exact ih has c.close.2

theorem size_run (h : c.outbox.size ≤ c.outbox.capacity) (as : List Act) :
    (c.run as).outbox.size ≤ (c.run as).outbox.capacity :=
  run_keeps (P := fun c => c.outbox.size ≤ c.outbox.capacity) size_after h as

end Connection

/-- **What comes of a message for a connection of the board.** -/
theorem Board.send_eq {b : Board} {l : LineNumber} {c : Connection} (hc : b.lines[l]? = some c)
    (m : Envelope) :
    (c.Shut → b.send l m = .error .closed) ∧
      (¬ c.Shut → c.outbox.capacity ≤ c.outbox.size → b.send l m = .error .full) ∧
      (¬ c.Shut → c.outbox.size < c.outbox.capacity →
        b.send l m = .ok (b.modify l fun _ => c.push m)) := by
  obtain ⟨hshut, hfull, hroom⟩ := c.send_eq m
  refine ⟨fun h => ?_, fun h hn => ?_, fun h hn => ?_⟩
  · rw [Board.send, hc]
    simp only [hshut h]
    rfl
  · rw [Board.send, hc]
    simp only [hfull h hn]
    rfl
  · rw [Board.send, hc]
    simp only [hroom h hn]
    rfl

namespace Service

open Connection (Act)

variable {s : Service} {k : SocketNumber} {l : LineNumber} {c : Connection} {x : Socket}
  {es es' : List Event} {taken : List Envelope}

/-! ### The books of a run -/

/-- The books of a queue balance: if so much has been taken, it is a front of what was accepted in
the run, and the rest waits.  If no socket serves the connection, it was taken by calls.  If one
does and nobody else takes messages, the client has got the texts of a front of it, and while
nothing gets lost the other texts are on their way. -/
structure Balanced (s : Service) (es : List Event) (l : LineNumber) (c : Connection)
    (taken : List Envelope) : Prop where
  front : taken <+: s.trace (accepted l) es
  rest : c.outbox.attended = true → s.trace (accepted l) es = taken ++ c.outbox.waiting
  size : c.outbox.attended = true →
    c.outbox.size + taken.length = (s.trace (accepted l) es).length
  collected : (s.run es).Unserved l → taken = s.trace (collected l) es
  received : (∀ e ∈ es, e ≠ .call (.receive l)) → ∀ (k : SocketNumber) (x : Socket),
    (s.run es).sockets[k]? = some x → x.line = some l → ∃ ms, ms <+: taken ∧
      Outgoing.texts (s.receipts k es) = ms.map Envelope.wire ∧
      (¬ x.Mute → taken.map Envelope.wire =
        ms.map Envelope.wire ++ Outgoing.texts x.pipe.held)

/-- A history of a connection balances its books. -/
theorem History.balanced {c₀ : Connection} {as : List Act} (hist : History s es l c₀ as)
    (hblank : c₀.outbox.waiting = []) : Balanced s es l (c₀.run as) (c₀.taken as) := by
  have hrest : (c₀.run as).outbox.attended = true →
      s.trace (Service.accepted l) es = c₀.taken as ++ (c₀.run as).outbox.waiting := by
    intro ha
    have hbooks := c₀.waiting_append_accepted as ha
    rwa [hblank, List.nil_append, hist.accepted] at hbooks
  refine ⟨?_, hrest, fun ha => ?_, hist.collected, fun hno k x hk hl => ?_⟩
  · have hfront := c₀.taken_prefix as
    rwa [hblank, List.nil_append, hist.accepted] at hfront
  · rw [hrest ha, List.length_append, Nat.add_comm]
    rfl
  · -- nothing was on the way to the client at first
    obtain ⟨x₀, hfresh, hconv⟩ := hist.conveyed hno k x hk hl
    have hin : x₀.InOrder := by
      rw [Socket.InOrder, hfresh]
      exact fun _ => rfl
    have hnothing : x₀.onWay = [] := by
      rw [Socket.onWay, hfresh]
      rfl
    have hsent := hconv.sent hin
    rw [hnothing, List.nil_append, onWay_recalling_forgotten hk] at hsent
    have hgot := (List.prefix_append _ _).trans hsent
    obtain ⟨ms, hms, hmap⟩ := List.prefix_map_iff.1 hgot
    refine ⟨ms, hms, hmap, fun hmute => ?_⟩
    have hwhole := hconv.whole hin hmute
    rw [hnothing, List.nil_append, onWay_recalling_forgotten hk, hmap] at hwhole
    exact hwhole.symm

/-! ### After the closing -/

/-- **Nothing is accepted any more** once a connection is closed. -/
theorem trace_accepted_eq_nil (h : s.AtRest) (hf : FreshRun s es)
    (hc : s.board.lines[l]? = some c) (hcl : c.closed = true) : s.trace (accepted l) es = [] := by
  induction es generalizing s c with
  | nil => rfl
  | cons e es ih =>
    have hentry : s.accepted l e = [] := by
      rw [(entries_of_some hc e).1]
      exact Connection.Shut.accepted_eq_nil (.inl hcl) _
    obtain ⟨as, -, hc', -⟩ := (tended_after h hf.1).acts _ (getElem?_begun_of_some hc e)
    have hrest := ih (h.after hf.1).atRest hf.2 hc'
      (Connection.closed_run (Connection.closed_run hcl _) _)
    show s.accepted l e ++ (s.after e).trace (accepted l) es = []
    rw [hentry, hrest]
    rfl

/-- What waits can be taken one after the other, if no socket is in the way. -/
theorem trace_collected_replicate (h : s.AtRest) (hc : s.board.lines[l]? = some c)
    (hun : s.Unserved l) (n : Nat) :
    s.trace (collected l) (List.replicate n (.call (.receive l))) = c.outbox.waiting.take n := by
  induction n generalizing s c with
  | zero => rfl
  | succ n ih =>
    have hacts : s.acts l (.call (.receive l)) = [.take] := by
      show Board.aimed l [l] .take = _
      simp [Board.aimed]
    have hfresh : Event.Fresh s (.call (.receive l)) := trivial
    have ht : Tended l (s.begun (.call (.receive l))) (s.after (.call (.receive l))) :=
      tended_after h hfresh
    have hb := getElem?_begun_of_some hc (.call (.receive l))
    obtain ⟨as, -, hc', -, hclosings⟩ := ht.acts _ hb
    -- the call takes the first message, and what follows takes none
    have hsame := Connection.outbox_run_closings (hclosings hun) (c.run [.take])
    rw [hacts] at hc'
    have hrest := ih (h.after hfresh).atRest hc' ((unserved_iff ht.line).2 hun)
    rw [hsame] at hrest
    show s.collected l (.call (.receive l)) ++ (s.after (.call (.receive l))).trace (collected l)
      (List.replicate n (.call (.receive l))) = _
    rw [hrest, (entries_of_some hc _).2, hacts]
    rcases e : c.outbox.waiting with - | ⟨m, rest⟩ <;>
      simp [Connection.taken, Connection.book, logged, Connection.takes, Connection.after,
        Connection.receive, Outbox.take?, e]

/-! ### All together -/

/-- **The queue of a connection keeps the order.**  Whatever comes in a run, the messages taken are
a front of those accepted, and the others wait; there is room for one at least, and no more wait
than there is room for, which is as much as was asked for when the connection came.  A message is
refused if the connection is closed or nobody takes its messages, or else if the queue is full, and
then nothing is changed.  After the closing nothing is accepted, and what waits can still be
taken. -/
theorem queue_keeps_order (policy : Policy) (check : Check) (supply : Nat → Draw)
    {es : List Event} (hf : FreshRun (start policy check supply) es) {l : LineNumber}
    {c : Connection} (hc : ((start policy check supply).run es).board.lines[l]? = some c) :
    (0 < c.outbox.capacity ∧ c.outbox.size ≤ c.outbox.capacity) ∧
    (∃ es₁ e es₂, es = es₁ ++ e :: es₂ ∧
      ((start policy check supply).run es₁).board.lines[l]? = none ∧
      (((start policy check supply).run (es₁ ++ [e])).board.lines[l]?).isSome ∧
      e.capacity? policy = some c.outbox.capacity) ∧
    (∃ taken, Balanced (start policy check supply) es l c taken) ∧
    (∀ m,
      (c.Shut → ((start policy check supply).run es).board.send l m = .error .closed) ∧
      (¬ c.Shut → (((start policy check supply).run es).board.send l m = .error .full ↔
        c.outbox.size = c.outbox.capacity)) ∧
      (¬ c.Shut → c.outbox.size ≠ c.outbox.capacity →
        ((start policy check supply).run es).board.send l m =
          .ok (((start policy check supply).run es).board.modify l fun _ => c.push m)) ∧
      ∀ f, ((start policy check supply).run es).board.send l m = .error f →
        ((start policy check supply).run es).board.offer l m =
          (false, ((start policy check supply).run es).board)) ∧
    (c.closed = true →
      (∀ es', FreshRun ((start policy check supply).run es) es' →
        ((start policy check supply).run es).trace (accepted l) es' = []) ∧
      (((start policy check supply).run es).Unserved l → ∀ n,
        ((start policy check supply).run es).trace (collected l)
          (List.replicate n (.call (.receive l))) = c.outbox.waiting.take n)) := by
  have h := atRest_start policy check supply
  have hrest := (h.run hf).1
  obtain ⟨id, capacity, now, c₀, as, hnew, hist⟩ := exists_history h rfl hf hc
  obtain ⟨hcapacity, hblank⟩ := Connection.new?_eq_some hnew
  obtain rfl : c = c₀.run as := Option.some.inj (hc.symm.trans hist.line)
  have hsize : (c₀.run as).outbox.size ≤ (c₀.run as).outbox.capacity := by
    refine Connection.size_run ?_ as
    rw [hblank]
    exact Nat.zero_le _
  refine ⟨⟨?_, hsize⟩, exists_origin h rfl hf hc,
    ⟨c₀.taken as, hist.balanced (by rw [hblank])⟩, fun m => ?_,
    fun hcl => ⟨fun es' hf' => trace_accepted_eq_nil hrest hf' hc hcl, fun hun n =>
      trace_collected_replicate hrest hc hun n⟩⟩
  · rw [Connection.capacity_run, hblank]
    exact hcapacity
  · obtain ⟨hshut, hfull, hroom⟩ := Board.send_eq hc m
    refine ⟨hshut, fun hopen => ⟨fun he => ?_, fun he => hfull hopen he.ge⟩, fun hopen hne => ?_,
      fun f he => ?_⟩
    · by_contra hne
      rw [hroom hopen (Nat.lt_of_le_of_ne hsize hne)] at he
      cases he
    · exact hroom hopen (Nat.lt_of_le_of_ne hsize hne)
    · rw [Board.offer, he]

/-- A policy by which no more than two messages wait. -/
def narrow : Policy := { Policy.standard with queueCapacity := 2 }

/-- A message. -/
def greeting : Envelope := .new ⟨"greeting", moment⟩ .ping

/-- Another message. -/
def farewell : Envelope := .new ⟨"farewell", moment⟩ .ping

/-- A client at a socket gets two messages, with a probe in between.  Of three messages for a
connection without a socket the third is refused; it is closed after the first was taken. -/
def crowded : List Event :=
  [.accept true, .call (.enter 7 2 0), .call (.send 0 greeting), .elapse 30000,
    .call (.send 0 farewell), .call (.send 1 greeting), .call (.send 1 farewell),
    .call (.send 1 greeting), .call (.receive 1), .call (.close 1), .call (.send 1 greeting)]

/-- The client has got both in order, and for the other connection the second still waits. -/
theorem queue_keeps_order_crowded :
    FreshRun (start narrow fragile draws) crowded ∧
      (∃ c taken, ((start narrow fragile draws).run crowded).board.lines[0]? = some c ∧
        Balanced (start narrow fragile draws) crowded 0 c taken ∧
        taken.map Envelope.wire = [greeting.wire, farewell.wire] ∧
        (start narrow fragile draws).receipts 0 crowded =
          [.text greeting.wire, .ping, .text farewell.wire]) ∧
      ∃ c, ((start narrow fragile draws).run crowded).board.lines[1]? = some c ∧
        c.closed = true ∧
        ((start narrow fragile draws).run crowded).board.send 1 greeting = .error .closed ∧
        ((start narrow fragile draws).run crowded).Unserved 1 ∧
        (((start narrow fragile draws).run crowded).trace (collected 1)
          (List.replicate 2 (.call (.receive 1)))).map Envelope.wire = [farewell.wire] := by
  have hf : FreshRun (start narrow fragile draws) crowded := by decide +kernel
  refine ⟨hf, ?_, ?_⟩
  · have hc : (((start narrow fragile draws).run crowded).board.lines[0]?).map
        (fun c => (c.outbox.attended, c.outbox.waiting.map Envelope.wire)) = some (true, []) := by
      decide +kernel
    obtain ⟨c, hc, e⟩ := Option.map_eq_some_iff.1 hc
    obtain ⟨ha, hw⟩ : c.outbox.attended = true ∧ c.outbox.waiting = [] := by simpa using e
    obtain ⟨-, -, ⟨taken, hb⟩, -⟩ := queue_keeps_order narrow fragile draws hf hc
    refine ⟨c, taken, hc, hb, ?_, by decide +kernel⟩
    -- nothing waits, so that what was taken is what was accepted
    have haccepted : ((start narrow fragile draws).trace (accepted 0) crowded).map
        Envelope.wire = [greeting.wire, farewell.wire] := by decide +kernel
    rwa [hb.rest ha, hw, List.append_nil] at haccepted
  · have hc : (((start narrow fragile draws).run crowded).board.lines[1]?).map
        (fun c => (c.closed, c.outbox.waiting.map Envelope.wire)) =
          some (true, [farewell.wire]) := by decide +kernel
    obtain ⟨c, hc, e⟩ := Option.map_eq_some_iff.1 hc
    obtain ⟨hcl, hw⟩ : c.closed = true ∧ c.outbox.waiting.map Envelope.wire = [farewell.wire] := by
      simpa using e
    have hun : ((start narrow fragile draws).run crowded).Unserved 1 := by
      have hsockets : ((start narrow fragile draws).run crowded).sockets.map Socket.line =
          [some 0] := by decide +kernel
      intro k x hk hl
      have hm := List.mem_map_of_mem (f := Socket.line) (List.mem_of_getElem? hk)
      rw [hsockets, hl] at hm
      simp at hm
    obtain ⟨-, -, -, hsend, hafter⟩ := queue_keeps_order narrow fragile draws hf hc
    refine ⟨c, hc, hcl, (hsend greeting).1 (.inl hcl), hun, ?_⟩
    rw [(hafter hcl).2 hun 2, List.map_take, hw]
    rfl

end Service

end Switchboard
