/-
Switchboard/Proofs/Connection/Acts.lean

What can be done to one connection, and the books of its queue.

Whatever calls, clients and pumps do, to a single connection it comes down to
a few acts, which are its own methods and those of its queue.  A history of a
connection is a list of acts, in any order.  Three books are kept of it: the
messages that were accepted, those that were taken, and the closings that
found the connection open.

The books balance: as long as anyone takes messages, what waited at first and
what was accepted is what was taken and what waits now, in this order
(`waiting_append_accepted`).  Whoever can be sent nothing any more stays so,
and of all the closings one counts.
-/
import Switchboard.Proofs.Board.Run
import Switchboard.Proofs.Log

namespace Switchboard.Connection

/-- What can be done to a connection. -/
inductive Act where
  | send (m : Envelope)
  /-- The first message of the queue is taken. -/
  | take
  | close
  /-- Nobody takes messages from the queue any more. -/
  | forsake
  | touch (now : Nat)
  | identify (who : Identity)
  | join (channel : String)
  | leave (channel : String)

/-- What the pumps of a socket do to its connection: they send nothing, and they leave the identity
and the subscriptions alone. -/
def Act.OfPump : Act → Prop
  | .take | .close | .forsake | .touch _ => True
  | _ => False

/-- The outcome of an act that leaves the connection alone if it fails. -/
def orKeep (c : Connection) : Except Fault Connection → Connection
  | .ok c' => c'
  | .error _ => c

/-- The connection after an act. -/
def after (c : Connection) : Act → Connection
  | .send m => c.orKeep (c.send m)
  | .take => c.receive
  | .close => c.close.2
  | .forsake => c.forsake
  | .touch now => c.touch now
  | .identify who => c.orKeep (c.identify who)
  | .join channel => (c.join channel).2
  | .leave channel => (c.leave channel).2

/-- The connection after several acts. -/
def run (c : Connection) (as : List Act) : Connection := as.foldl after c

variable {c : Connection} {m : Envelope} {a : Act} {as bs : List Act}

@[simp] theorem run_nil (c : Connection) : c.run [] = c := rfl

@[simp] theorem run_cons (c : Connection) (a : Act) (as : List Act) :
    c.run (a :: as) = (c.after a).run as := rfl

/-- Histories are put together. -/
theorem run_append (c : Connection) (as bs : List Act) :
    c.run (as ++ bs) = (c.run as).run bs := List.foldl_append

/-- What every act keeps, every history keeps. -/
theorem run_keeps {P : Connection → Prop}
    (hstep : ∀ {c : Connection} (a : Act), P c → P (c.after a)) (h : P c) (as : List Act) :
    P (c.run as) := by
  induction as generalizing c with
  | nil => exact h
  | cons a as ih => exact ih (hstep a h)

/-! ### The books -/

/-- What is written down in the course of a history. -/
def book {α : Type} (entry : Connection → Act → List α) (c : Connection) (as : List Act) : List α :=
  logged after entry c as

/-- The message that an act puts into the queue. -/
def puts (c : Connection) : Act → List Envelope
  | .send m =>
    match c.send m with
    | .ok _ => [m]
    | .error _ => []
  | _ => []

/-- The message that an act takes from the queue. -/
def takes (c : Connection) : Act → List Envelope
  | .take => (c.outbox.take?.map Prod.fst).toList
  | _ => []

/-- An act that closes the connection, and finds it open. -/
def shuts (c : Connection) : Act → List Unit
  | .close => if c.close.1 then [()] else []
  | _ => []

/-- The messages accepted in the course of a history. -/
def accepted (c : Connection) (as : List Act) : List Envelope := c.book puts as

/-- The messages taken in the course of a history. -/
def taken (c : Connection) (as : List Act) : List Envelope := c.book takes as

/-- The number of closings that found the connection open. -/
def closings (c : Connection) (as : List Act) : Nat := (c.book shuts as).length

/-- So is what they have accepted. -/
theorem accepted_append (c : Connection) (as bs : List Act) :
    c.accepted (as ++ bs) = c.accepted as ++ (c.run as).accepted bs :=
  logged_append after puts c as bs

theorem taken_append (c : Connection) (as bs : List Act) :
    c.taken (as ++ bs) = c.taken as ++ (c.run as).taken bs :=
  logged_append after takes c as bs

/-- Nothing is accepted from the pumps. -/
theorem accepted_of_pump (h : ∀ a ∈ as, a.OfPump) (c : Connection) : c.accepted as = [] := by
  refine logged_eq_nil (fun a ha c => ?_) c
  cases a with
  | send m => exact (h _ ha).elim
  | _ => rfl

/-- Nothing is taken but by taking. -/
theorem taken_eq_nil (h : ∀ a ∈ as, a ≠ .take) (c : Connection) : c.taken as = [] := by
  refine logged_eq_nil (fun a ha c => ?_) c
  cases a with
  | take => exact absurd rfl (h _ ha)
  | _ => rfl

theorem taken_of_closings (h : ∀ a ∈ as, a = .close) (c : Connection) : c.taken as = [] :=
  taken_eq_nil (fun a ha => by rw [h a ha]; simp) c

/-- Only what is sent is accepted. -/
theorem exists_send_of_mem_accepted (h : m ∈ c.accepted as) : .send m ∈ as := by
  induction as generalizing c with
  | nil => cases h
  | cons a as ih =>
    rcases List.mem_append.1 h with h | h
    · cases a with
      | send m' =>
        have hm : m = m' := by
          rw [puts] at h
          split at h
          · exact List.mem_singleton.1 h
          · cases h
        exact hm ▸ List.mem_cons_self
      | _ => cases h
    · exact List.mem_cons_of_mem a (ih h)

/-! ### Beginning -/

/-- A new connection has an empty queue with room for a message. -/
theorem new?_eq_some {id : ConnectionId} {capacity now : Nat} (h : new? id capacity now = some c) :
    0 < capacity ∧ c = ⟨id, ⟨capacity, [], true⟩, none, now, false, ∅⟩ := by
  obtain ⟨outbox, ho, rfl⟩ := Option.map_eq_some_iff.1 h
  rw [Outbox.new?] at ho
  split at ho
  · rename_i hcapacity
    cases ho
    exact ⟨hcapacity.1, rfl⟩
  · cases ho

/-! ### Sending -/

/-- Can the connection be sent nothing any more: is it closed, or does nobody take its messages? -/
def Shut (c : Connection) : Prop := c.closed = true ∨ c.outbox.attended = false

/-- **What comes of a message that is sent.**  A connection that is shut refuses it, and so does one
that is full, with a fault of its own; any other has it at the end of its queue. -/
theorem send_eq (c : Connection) (m : Envelope) :
    (c.Shut → c.send m = .error .closed) ∧
      (¬ c.Shut → c.outbox.capacity ≤ c.outbox.size → c.send m = .error .full) ∧
      (¬ c.Shut → c.outbox.size < c.outbox.capacity → c.send m = .ok (c.push m)) := by
  by_cases hc : c.closed = true
  · have hshut : c.Shut := .inl hc
    refine ⟨fun _ => ?_, fun hn => absurd hshut hn, fun hn => absurd hshut hn⟩
    rw [send, if_pos hc]
  · by_cases ha : c.outbox.attended = true
    · have hopen : ¬ c.Shut := by simp [Shut, hc, ha]
      refine ⟨fun h => absurd h hopen, fun _ hfull => ?_, fun _ hroom => ?_⟩
      · have hput : c.outbox.put m = .error .full := by
          rw [Outbox.size] at hfull
          rw [Outbox.put, if_neg (by simp [ha]), if_pos hfull]
        rw [send, if_neg hc, hput]
        rfl
      · refine send_of_accepts ?_
        rw [Outbox.size] at hroom
        simp [accepts, hc, ha, hroom]
    · have hshut : c.Shut := .inr (by simpa using ha)
      refine ⟨fun _ => ?_, fun hn => absurd hshut hn, fun hn => absurd hshut hn⟩
      have hput : c.outbox.put m = .error .closed := by
        rw [Outbox.put, if_pos (by simp [ha])]
      rw [send, if_neg hc, hput]
      rfl

/-- A message is put behind the others, or refused. -/
theorem send_cases (c : Connection) (m : Envelope) :
    c.send m = .ok (c.push m) ∧ c.outbox.size < c.outbox.capacity ∨ ∃ f, c.send m = .error f := by
  obtain ⟨hshut, hfull, hroom⟩ := c.send_eq m
  by_cases h : c.Shut
  · exact .inr ⟨_, hshut h⟩
  · rcases Nat.lt_or_ge c.outbox.size c.outbox.capacity with hlt | hge
    · exact .inl ⟨hroom h hlt, hlt⟩
    · exact .inr ⟨_, hfull h hge⟩

/-- What an act puts into a queue, it puts at the end; what it takes, it takes from the front. -/
theorem waiting_after (c : Connection) (ha : a ≠ .forsake) :
    c.outbox.waiting ++ c.puts a = c.takes a ++ (c.after a).outbox.waiting := by
  cases a with
  | send m =>
    rcases c.send_cases m with ⟨e, -⟩ | ⟨f, e⟩
    · simp [puts, takes, after, orKeep, e, push]
    · simp [puts, takes, after, orKeep, e]
  | take =>
    rcases e : c.outbox.waiting with - | ⟨m, rest⟩ <;>
      simp [puts, takes, after, receive, Outbox.take?, e]
  | identify who =>
    rcases e : c.identity with - | old <;>
      simp [puts, takes, after, orKeep, Connection.identify, e]
  | forsake => exact absurd rfl ha
  | _ => simp [puts, takes, after, Connection.close, Connection.touch, Connection.join,
      Connection.leave]

/-- What waits in the end has waited before or been accepted since. -/
theorem mem_waiting_run (h : m ∈ (c.run as).outbox.waiting) :
    m ∈ c.outbox.waiting ∨ m ∈ c.accepted as := by
  induction as generalizing c with
  | nil => exact .inl h
  | cons a as ih =>
    rcases ih h with hw | hs
    · by_cases ha : a = .forsake
      · -- nothing waits any more
        subst ha
        cases hw
      · have hm : m ∈ c.outbox.waiting ++ c.puts a := by
          rw [waiting_after c ha]
          exact List.mem_append_right _ hw
        exact (List.mem_append.1 hm).imp_right (List.mem_append_left _)
    · exact .inr (List.mem_append_right _ hs)

/-! ### What no act takes back -/

theorem attended_receive (c : Connection) : c.receive.outbox.attended = c.outbox.attended := by
  rcases e : c.outbox.waiting with - | ⟨m, rest⟩ <;> simp [receive, Outbox.take?, e]

theorem closed_receive_eq (c : Connection) : c.receive.closed = c.closed := by
  rcases e : c.outbox.waiting with - | ⟨m, rest⟩ <;> simp [receive, Outbox.take?, e]

/-- What is closed stays so. -/
theorem closed_after (a : Act) (h : c.closed = true) : (c.after a).closed = true := by
  cases a with
  | send m =>
    rcases c.send_cases m with ⟨e, -⟩ | ⟨f, e⟩ <;> simpa [after, orKeep, e, push] using h
  | take => exact (closed_receive_eq c).trans h
  | close => rfl
  | identify who =>
    rcases e : c.identity with - | old <;> simpa [after, orKeep, Connection.identify, e] using h
  | _ => exact h

/-- What nobody takes from is never taken from again. -/
theorem unattended_after (a : Act) (h : c.outbox.attended = false) :
    (c.after a).outbox.attended = false := by
  cases a with
  | send m =>
    rcases c.send_cases m with ⟨e, -⟩ | ⟨f, e⟩ <;> simpa [after, orKeep, e, push] using h
  | take => exact (attended_receive c).trans h
  | forsake => rfl
  | identify who =>
    rcases e : c.identity with - | old <;> simpa [after, orKeep, Connection.identify, e] using h
  | _ => exact h

theorem Shut.after (h : c.Shut) (a : Act) : (c.after a).Shut :=
  h.imp (closed_after a) (unattended_after a)

theorem closed_run (h : c.closed = true) (as : List Act) : (c.run as).closed = true :=
  run_keeps (P := fun c => c.closed = true) closed_after h as

/-- A closing closes the connection, whatever comes before and after it. -/
theorem closed_run_of_mem (h : .close ∈ as) (c : Connection) : (c.run as).closed = true := by
  induction as generalizing c with
  | nil => cases h
  | cons a as ih =>
    rcases List.mem_cons.1 h with rfl | h
    · exact closed_run (c := c.after .close) rfl as
    · exact ih h (c.after a)

/-- Once a connection is shut, nothing is accepted any more. -/
theorem Shut.accepted_eq_nil (h : c.Shut) (as : List Act) : c.accepted as = [] := by
  induction as generalizing c with
  | nil => rfl
  | cons a as ih =>
    have hputs : c.puts a = [] := by
      cases a with
      | send m => rw [puts, (c.send_eq m).1 h]
      | _ => rfl
    show c.puts a ++ (c.after a).accepted as = []
    rw [hputs, ih (h.after a)]
    rfl

theorem capacity_after (c : Connection) (a : Act) :
    (c.after a).outbox.capacity = c.outbox.capacity := by
  cases a with
  | send m => rcases c.send_cases m with ⟨e, -⟩ | ⟨f, e⟩ <;> simp [after, orKeep, e, push]
  | take =>
    rcases e : c.outbox.waiting with - | ⟨m, rest⟩ <;> simp [after, receive, Outbox.take?, e]
  | identify who =>
    rcases e : c.identity with - | old <;> simp [after, orKeep, Connection.identify, e]
  | _ => rfl

/-- The capacity is that which was asked for. -/
theorem capacity_run (c : Connection) (as : List Act) :
    (c.run as).outbox.capacity = c.outbox.capacity :=
  run_keeps (P := fun c' => c'.outbox.capacity = c.outbox.capacity)
    (fun {c'} a h => (c'.capacity_after a).trans h) rfl as

/-- A queue never holds more than it has room for. -/
theorem size_after (a : Act) (h : c.outbox.size ≤ c.outbox.capacity) :
    (c.after a).outbox.size ≤ (c.after a).outbox.capacity := by
  rw [capacity_after]
  cases a with
  | send m =>
    rcases c.send_cases m with ⟨e, hlt⟩ | ⟨f, e⟩
    · simpa [after, orKeep, e, push, Outbox.size] using hlt
    · simpa [after, orKeep, e] using h
  | take =>
    rcases e : c.outbox.waiting with - | ⟨m, rest⟩
    · simp [after, receive, Outbox.take?, Outbox.size, e]
    · simp only [Outbox.size, e, List.length_cons] at h
      simpa [after, receive, Outbox.take?, Outbox.size, e] using Nat.le_of_succ_le h
  | forsake => exact Nat.zero_le _
  | identify who =>
    rcases e : c.identity with - | old <;> simpa [after, orKeep, Connection.identify, e] using h
  | _ => exact h

/-- An identity is there for good. -/
theorem identity_after (a : Act) {who : Identity} (h : c.identity = some who) :
    (c.after a).identity = some who := by
  cases a with
  | send m => rcases c.send_cases m with ⟨e, -⟩ | ⟨f, e⟩ <;> simpa [after, orKeep, e, push] using h
  | take => exact (identity_eq_of_standing c.standing_receive).trans h
  | identify who' => simp [after, orKeep, Connection.identify, h]
  | _ => exact h

/-- **An identity is for good.** -/
theorem identity_run {who : Identity} (h : c.identity = some who) (as : List Act) :
    (c.run as).identity = some who :=
  run_keeps (P := fun c => c.identity = some who) (fun a h => identity_after a h) h as

/-- Whoever has none has had none. -/
theorem identity_eq_none_of_run {as : List Act} (h : (c.run as).identity = none) :
    c.identity = none := by
  rcases e : c.identity with - | who
  · rfl
  · cases h.symm.trans (identity_run e as)

/-- It is given by one act only. -/
theorem identity_after_of_none {who : Identity} (hn : c.identity = none) (a : Act) :
    (c.after a).identity = some who ↔ a = .identify who := by
  cases a with
  | send m => rcases c.send_cases m with ⟨e, -⟩ | ⟨f, e⟩ <;> simp [after, orKeep, e, push, hn]
  | take => simp [after, identity_eq_of_standing c.standing_receive, hn]
  | identify who' => simp [after, orKeep, Connection.identify, hn]
  | _ => simp [after, Connection.close, Connection.forsake, Connection.touch, Connection.join,
      Connection.leave, hn]

/-- Whoever gets an identity gets it by an act. -/
theorem mem_of_identity_run {who : Identity} {as : List Act} (hn : c.identity = none)
    (hi : (c.run as).identity = some who) : .identify who ∈ as := by
  induction as generalizing c with
  | nil => cases hn.symm.trans hi
  | cons a as ih =>
    rw [run_cons] at hi
    rcases ha : (c.after a).identity with - | who'
    · exact List.mem_cons_of_mem a (ih ha hi)
    · -- an identity is for good, so this is the one
      cases (identity_run ha as).symm.trans hi
      rw [(identity_after_of_none hn a).1 ha]
      exact List.mem_cons_self

theorem id_after (c : Connection) (a : Act) : (c.after a).id = c.id := by
  cases a with
  | send m => rcases c.send_cases m with ⟨e, -⟩ | ⟨f, e⟩ <;> simp [after, orKeep, e, push]
  | take => exact id_eq_of_standing c.standing_receive
  | identify who =>
    rcases e : c.identity with - | old <;> simp [after, orKeep, Connection.identify, e]
  | _ => rfl

/-- The name is for good, too. -/
theorem id_run (c : Connection) (as : List Act) : (c.run as).id = c.id :=
  run_keeps (P := fun c' => c'.id = c.id) (fun {c'} a h => (c'.id_after a).trans h) rfl as

/-! ### The balance -/

/-- **The books balance.**  As long as anyone takes messages, none is lost and none comes from
elsewhere, and all keep their order. -/
theorem waiting_append_accepted (c : Connection) (as : List Act)
    (h : (c.run as).outbox.attended = true) :
    c.outbox.waiting ++ c.accepted as = c.taken as ++ (c.run as).outbox.waiting := by
  induction as generalizing c with
  | nil => exact List.append_nil _
  | cons a as ih =>
    have ha : a ≠ .forsake := by
      rintro rfl
      -- nobody would take messages from then on
      have hno : ((c.after .forsake).run as).outbox.attended = false :=
        run_keeps (P := fun c => c.outbox.attended = false) unattended_after rfl as
      cases hno.symm.trans h
    calc c.outbox.waiting ++ (c.puts a ++ (c.after a).accepted as)
        = c.takes a ++ ((c.after a).outbox.waiting ++ (c.after a).accepted as) := by
          rw [← List.append_assoc, waiting_after c ha, List.append_assoc]
      _ = c.takes a ++ ((c.after a).taken as ++ ((c.after a).run as).outbox.waiting) := by
          rw [ih (c.after a) h]
      _ = c.taken (a :: as) ++ (c.run (a :: as)).outbox.waiting := (List.append_assoc ..).symm

/-- What is taken is a front of what waited and what was accepted, whatever becomes of the rest. -/
theorem taken_prefix (c : Connection) (as : List Act) :
    c.taken as <+: c.outbox.waiting ++ c.accepted as := by
  induction as generalizing c with
  | nil => exact List.nil_prefix
  | cons a as ih =>
    by_cases ha : a = .forsake
    · subst ha
      -- what waited is gone, and nothing is accepted from then on
      have hshut : (c.after .forsake).Shut := .inr rfl
      have hnil : (c.after .forsake).taken as = [] := by
        have hp := ih (c.after .forsake)
        rw [hshut.accepted_eq_nil] at hp
        exact List.prefix_nil.1 hp
      show (c.after .forsake).taken as <+: _
      rw [hnil]
      exact List.nil_prefix
    · show c.takes a ++ (c.after a).taken as <+:
        c.outbox.waiting ++ (c.puts a ++ (c.after a).accepted as)
      rw [← List.append_assoc, waiting_after c ha, List.append_assoc]
      exact (List.prefix_append_right_inj _).2 (ih (c.after a))

/-! ### Closing -/

/-- Closings are counted act by act. -/
theorem closings_cons (c : Connection) (a : Act) (as : List Act) :
    c.closings (a :: as) = (c.shuts a).length + (c.after a).closings as := List.length_append

/-- An open connection is closed by an act exactly if the act is a closing. -/
theorem length_shuts (a : Act) (h : c.closed = false) :
    (c.shuts a).length = if (c.after a).closed then 1 else 0 := by
  cases a with
  | send m =>
    rcases c.send_cases m with ⟨e, -⟩ | ⟨f, e⟩ <;> simp [shuts, after, orKeep, e, push, h]
  | take => simp [shuts, after, closed_receive_eq, h]
  | close => simp [shuts, after, Connection.close, h]
  | identify who =>
    rcases e : c.identity with - | old <;>
      simp [shuts, after, orKeep, Connection.identify, e, h]
  | _ => simp [shuts, after, forsake, Connection.touch, Connection.join, Connection.leave, h]

/-- Nobody closes what is closed. -/
theorem closings_of_closed (h : c.closed = true) (as : List Act) : c.closings as = 0 := by
  induction as generalizing c with
  | nil => rfl
  | cons a as ih =>
    have hshuts : c.shuts a = [] := by
      cases a with
      | close => simp [shuts, Connection.close, h]
      | _ => rfl
    rw [closings_cons, hshuts, ih (closed_after a h)]
    rfl

/-- **Of the closings of a connection that was open, one has found it so**, if there was any. -/
theorem closings_eq (h : c.closed = false) (as : List Act) :
    c.closings as = if (c.run as).closed then 1 else 0 := by
  induction as generalizing c with
  | nil => simp [closings, book, logged, h]
  | cons a as ih =>
    rw [closings_cons, length_shuts a h]
    rcases e : (c.after a).closed with - | -
    · rw [if_neg (by simp), Nat.zero_add]
      exact ih e
    · simp [closings_of_closed e, closed_run e]

end Switchboard.Connection
