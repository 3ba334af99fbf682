/-
Switchboard/Proofs/Socket/Turns.lean

Turns that close a connection, and turns that end a socket.

A turn that finds the connection open and the reader in time closes it for one
of two reasons: the way is broken off and there is something to send
(`Fruitless`), or a frame has waited for room until its time was over
(`Overdue`).  That is `closed_turn_iff`.

A writer whose connection is closed takes its leave.  It may have to wait for
room up to three times, for the frame that it is at, for the farewell and for
the closing of the way, and each of these waits has a deadline.  `EndsBy` tells
the time by which all of them are over, and turns that are not late keep it
(`Lasts.run`).
-/
import Switchboard.Proofs.Service.Sound

namespace Switchboard

namespace Served

variable {p : Policy} {now t deadline : Nat} {v v' : Served}

/-! ### Sockets that are not to be finished -/

/-- One of the pumps goes on: the reader has not ended, or the writer works. -/
def Runs (v : Served) : Prop := v.socket.reader ≠ .ended ∨ v.socket.writer.Works

theorem Runs.pumpsEnded (h : v.Runs) : v.socket.pumpsEnded = false := by
  rw [Socket.pumpsEnded, Bool.and_eq_false_iff, beq_eq_false_iff_ne, beq_eq_false_iff_ne]
  refine h.imp_right fun hw he => ?_
  rw [he] at hw
  exact hw

/-- A socket one of whose pumps goes on is not finished by its turn. -/
theorem turn_of_runs (h : (v.run p now).Runs) : v.turn p now = v.run p now := by
  rw [turn, h.pumpsEnded]
  rfl

/-- Whatever a turn has closed stays so as the pumps are joined. -/
theorem closed_turn (h : (v.run p now).connection.closed = true) :
    (v.turn p now).connection.closed = true := by
  rw [turn]
  split
  · rfl
  · exact h

/-! ### Writers that are not ready -/

/-- A writer that is not ready sends nothing. -/
theorem message_of_not_ready (h : ∀ due, v.socket.writer ≠ .ready due) : v.message p now = v := by
  rw [message]
  split
  · rename_i due _ _ hw _
    exact absurd hw (h due)
  · rfl

theorem messages_of_not_ready (h : ∀ due, v.socket.writer ≠ .ready due) (n : Nat) :
    v.messages p now n = v := by
  induction n with
  | zero => rfl
  | succ n ih => rw [messages, message_of_not_ready h, ih]

/-- A writer that is not ready sends nothing. -/
theorem send_of_not_ready (h : ∀ due, v.socket.writer ≠ .ready due) : v.send p now = v := by
  have hnone : v.probesDue p now = 0 := by
    rw [probesDue]
    split
    · rename_i due hw
      exact absurd hw (h due)
    · rfl
  rw [send, hnone]
  exact messages_of_not_ready h _

theorem Writer.not_ready_of_not_works {w : Writer} (h : ¬ w.Works) (due : Nat) :
    w ≠ .ready due := by
  rintro rfl
  exact h trivial

/-! ### The reader in a turn -/

/-- Has the reader time, if it reads? -/
def InTime (now : Nat) (v : Served) : Prop :=
  ∀ deadline, v.socket.reader = .reading deadline → now < deadline

/-- The reader of an open connection does not end with it. -/
theorem endReader_of_open (h : v.connection.closed = false) : v.endReader = v := by
  rw [endReader, if_neg (by simp [h])]

/-- As long as it has time the reader does nothing by itself. -/
theorem runReader_of_inTime (hopen : v.connection.closed = false) (ht : v.InTime now) :
    v.runReader now = v := by
  have hlapse : v.lapse now = v := by
    rw [lapse]
    split
    · rename_i deadline hr
      rw [if_neg (Nat.not_le.2 (ht deadline hr))]
    · rfl
  rw [runReader, hlapse, endReader_of_open hopen]

/-- A turn closes the connection when the time of the reader is over. -/
theorem closed_run_of_lapsed (hr : v.socket.reader = .reading deadline) (hd : deadline ≤ now) :
    (v.run p now).connection.closed = true := by
  have hlapse : (v.lapse now).connection.closed = true := by
    simp only [lapse, hr, if_pos hd]
    rfl
  rw [run_eq]
  exact ((((((onward_endReader _).trans (onward_release _)).trans (onward_part p now _)).trans
    (onward_send p now _)).trans (onward_expire p now _)).trans (onward_endReader _)).closed hlapse

/-- A connection that is still open after a turn was in the reader's time before. -/
theorem inTime_of_open_turn (hopen : (v.turn p now).connection.closed = false) : v.InTime now := by
  intro deadline hr
  by_contra hd
  have hclosed := closed_turn (p := p) (closed_run_of_lapsed hr (Nat.le_of_not_lt hd))
  exact absurd (hopen.symm.trans hclosed) (by simp)

/-- The socket after all has been sent that can be, when the reader has done what is due. -/
def sent (p : Policy) (now : Nat) (v : Served) : Served := v.release.send p now

/-- Nor does the writer take its leave. -/
theorem part_of_open (h : v.connection.closed = false) : v.part p now = v := by
  rcases part_cases p now v with ⟨e, -⟩ | ⟨hc, -⟩
  · exact e
  · exact absurd (h.symm.trans hc) (by simp)

/-- Whoever is in time and does not fail as it is released has then only to send, and to see what
has waited for too long. -/
theorem run_eq_of_open (hopen : v.release.connection.closed = false) (ht : v.InTime now) :
    v.run p now = ((v.sent p now).expire p now).endReader := by
  have hv : v.connection.closed = false := Bool.eq_false_iff.2 fun hc =>
    absurd (hopen.symm.trans ((onward_release v).closed hc)) (by simp)
  rw [run_eq, runReader_of_inTime hv ht, part_of_open hopen]
  rfl

/-! ### Ways that are broken off -/

/-- The way is broken off, and the writer has something to send: a frame that waits, a probe that
is due or a message. -/
def Fruitless (now : Nat) (v : Served) : Prop :=
  v.socket.pipe.gone = true ∧ ((∃ deadline due, v.socket.writer = .blocked deadline due) ∨
    ∃ due, v.socket.writer = .ready due ∧ (due ≤ now ∨ 0 < v.connection.outbox.size))

/-- Nothing can be written on a way that is broken off. -/
theorem closed_write_of_gone {due : Nat} (hw : v.socket.writer = .ready due)
    (hg : v.socket.pipe.gone = true) (f : Outgoing) :
    (v.write p now f).connection.closed = true := by
  simp only [write, hw, if_pos hg]
  rfl

theorem closed_probe_of_gone {due : Nat} (hw : v.socket.writer = .ready due)
    (hg : v.socket.pipe.gone = true) : (v.probe p now).connection.closed = true := by
  simp only [probe, hw]
  have hwrite : ((v.withWriter (.ready (due + p.probeEvery))).write p now
      .ping).connection.closed = true :=
    closed_write_of_gone (v := v.withWriter (.ready (due + p.probeEvery))) rfl hg .ping
  exact (sending_answerProbe p now _).keeps (P := fun v => v.connection.closed = true)
    (fun hs hc => hs.onward.closed hc) hwrite

theorem closed_message_of_gone {due : Nat} (hw : v.socket.writer = .ready due)
    (hg : v.socket.pipe.gone = true) (hm : 0 < v.connection.outbox.size) :
    (v.message p now).connection.closed = true := by
  obtain ⟨m, rest, hwaiting⟩ : ∃ m rest, v.connection.outbox.waiting = m :: rest :=
    List.exists_cons_of_length_pos hm
  have htake : v.connection.outbox.take? =
      some (m, { v.connection.outbox with waiting := rest }) := by
    rw [Outbox.take?, hwaiting]
  simp only [message, hw, htake]
  exact closed_write_of_gone (v := { v with connection := { v.connection with
    outbox := { v.connection.outbox with waiting := rest } } }) hw hg _

/-- What is to be sent on a way that is broken off fails the writer. -/
theorem Fruitless.closed_sent (h : v.Fruitless now) : (v.sent p now).connection.closed = true := by
  obtain ⟨hg, ⟨deadline, due, hw⟩ | ⟨due, hw, hsomething⟩⟩ := h
  · -- the frame that waits fails as the writer is released
    have hrelease : v.release.connection.closed = true := by
      simp only [release, hw, if_pos hg]
      rfl
    exact (onward_send p now _).closed hrelease
  · have hrelease : v.release = v := by simp only [release, hw]
    rw [sent, hrelease, send]
    have hmessages : ∀ (n : Nat) (u : Served), u.connection.closed = true →
        (u.messages p now n).connection.closed = true := fun n u =>
      (sending_messages n u).keeps (P := fun v => v.connection.closed = true)
        fun hs hc => hs.onward.closed hc
    rcases hprobes : v.probesDue p now with - | n
    · -- no probe is due, so there is a message
      have hlt : ¬ due ≤ now := by
        intro hle
        rw [probesDue, hw] at hprobes
        simp [Nat.not_lt.2 hle] at hprobes
      obtain ⟨n, hn⟩ := Nat.exists_eq_succ_of_ne_zero (hsomething.resolve_left hlt).ne'
      show (v.messages p now v.connection.outbox.size).connection.closed = true
      rw [hn]
      exact hmessages n _ (closed_message_of_gone hw hg (hsomething.resolve_left hlt))
    · refine hmessages _ _ ?_
      exact (sending_probes n _).keeps (P := fun v => v.connection.closed = true)
        (fun hs hc => hs.onward.closed hc) (closed_probe_of_gone hw hg)

/-- As long as the way is there, sending closes nothing. -/
theorem open_sent_of_way (hopen : v.connection.closed = false)
    (hg : v.socket.pipe.gone = false) : (v.sent p now).connection.closed = false := by
  have hrelease : v.release.connection.closed = false ∧ v.release.socket.pipe.gone = false := by
    rcases release_cases v with ⟨e, -⟩ | ⟨_, due, -, ⟨hg', -⟩ | ⟨-, -, e⟩⟩ | ⟨-, -, e⟩
    · rw [e]
      exact ⟨hopen, hg⟩
    · exact absurd (hg.symm.trans hg') (by simp)
    · rw [e]
      exact ⟨hopen, hg⟩
    · rw [e]
      exact ⟨hopen, hg⟩
  refine ((sending_send p now _).keeps (P := fun v => v.connection.closed = false ∧
    v.socket.pipe.gone = false) ?_ hrelease).1
  rintro u u' hs ⟨hu, hgu⟩
  cases hs with
  | fail _ hg' => exact absurd (hgu.symm.trans hg') (by simp)
  | put f _ _ | block f _ _ _ => exact ⟨hu, (Pipe.gone_put _ f).trans hgu⟩
  | rearm _ _ | take _ => exact ⟨hu, hgu⟩
  | sign hr _ =>
    rw [extend, hr]
    exact ⟨hu, hgu⟩

/-- **Sending closes a connection** exactly if it is fruitless. -/
theorem closed_sent_iff (hopen : v.connection.closed = false) :
    (v.sent p now).connection.closed = true ↔ v.Fruitless now := by
  refine ⟨fun hc => ?_, Fruitless.closed_sent⟩
  by_contra hno
  have hg : v.socket.pipe.gone = true := by
    by_contra hg
    exact absurd (hc.symm.trans (open_sent_of_way hopen (Bool.eq_false_iff.2 hg))) (by simp)
  -- with nothing to send, nothing is done
  have hsent : (v.sent p now).connection.closed = v.connection.closed := by
    cases hw : v.socket.writer with
    | ready due =>
      have hrelease : v.release = v := by simp only [release, hw]
      obtain ⟨hlt, hnone⟩ : now < due ∧ v.connection.outbox.size = 0 := by
        have hnot : ¬ (due ≤ now ∨ 0 < v.connection.outbox.size) :=
          fun hs => hno ⟨hg, .inr ⟨due, hw, hs⟩⟩
        omega
      have hprobes : v.probesDue p now = 0 := by simp only [probesDue, hw, if_pos hlt]
      rw [sent, hrelease, send, hprobes]
      show (v.messages p now v.connection.outbox.size).connection.closed = _
      rw [hnone, messages]
    | blocked deadline due => exact absurd ⟨hg, .inl ⟨deadline, due, hw⟩⟩ hno
    | parting _ | closing _ | ended =>
      have hrelease : v.release.connection.closed = v.connection.closed ∧
          ∀ due, v.release.socket.writer ≠ .ready due := by
        rcases release_cases v with ⟨e, -⟩ | ⟨_, _, hb, -⟩ | ⟨-, -, e⟩
        · rw [e]
          exact ⟨rfl, by simp [hw]⟩
        · cases hw.symm.trans hb
        · rw [e]
          exact ⟨rfl, fun due e' => by cases e'⟩
      rw [sent, send_of_not_ready hrelease.2, hrelease.1]
  exact absurd (hc.symm.trans (hsent.trans hopen)) (by simp)

/-! ### Turns that close a connection -/

/-- After all has been sent that can be, a frame waits for room whose time is over. -/
def Overdue (p : Policy) (now : Nat) (v : Served) : Prop :=
  ∃ deadline due, (v.sent p now).socket.writer = .blocked deadline due ∧ deadline ≤ now

/-- Nothing waits on the way to a client that takes what comes to it. -/
structure Flows (v : Served) : Prop where
  taking : v.socket.pipe.taking = true
  held : v.socket.pipe.held = []
  writer : v.socket.writer.wait? = none

theorem Flows.not_overfull (h : v.Flows) : v.socket.pipe.isOverfull = false := by
  rw [Pipe.isOverfull, h.held]
  exact decide_eq_false (Nat.not_lt_zero _)

/-- There is room for whatever is put into a way that flows. -/
theorem Flows.put (h : v.Flows) (f : Outgoing) : (v.withPipe (v.socket.pipe.put f)).Flows := by
  refine ⟨?_, ?_, h.writer⟩
  · show (v.socket.pipe.put f).taking = true
    rw [Pipe.put]
    split_ifs <;> exact h.taking
  · show (v.socket.pipe.put f).held = []
    rw [Pipe.put, if_pos h.taking]
    split <;> exact h.held

/-- So a way that flows goes on to do so. -/
theorem Sends.flows (h : Sends p now v v') (hf : v.Flows) : v'.Flows := by
  cases h with
  | fail => exact ⟨hf.taking, hf.held, rfl⟩
  | put f hw hg => exact hf.put f
  | block f hw hg hover =>
    have hroom := (hf.put f).not_overfull
    exact absurd (hroom.symm.trans hover) (by simp)
  | rearm due' hw => exact ⟨hf.taking, hf.held, rfl⟩
  | take outbox => exact ⟨hf.taking, hf.held, hf.writer⟩
  | sign hr ha =>
    rw [extend]
    split <;> exact ⟨hf.taking, hf.held, hf.writer⟩

/-- So no frame comes to wait. -/
theorem Flows.not_overdue (h : v.Flows) : ¬ v.Overdue p now := by
  rintro ⟨deadline, due, hw, -⟩
  have hreleased : v.release.Flows := by
    rw [release]
    split
    · rename_i hblocked
      cases h.writer.symm.trans (congrArg Writer.wait? hblocked)
    · split
      · exact ⟨h.taking, h.held, rfl⟩
      · exact h
    · split
      · exact ⟨h.taking, h.held, rfl⟩
      · exact h
    · exact h
  have hsent : (v.sent p now).Flows :=
    (sending_send p now v.release).keeps (P := Flows) (fun hs hf => hs.flows hf) hreleased
  cases hsent.writer.symm.trans (congrArg Writer.wait? hw)

/-- At its deadline only a frame closes the connection; a farewell comes after that. -/
theorem closed_expire_iff (hopen : v.connection.closed = false) :
    (v.expire p now).connection.closed = true ↔
      ∃ deadline due, v.socket.writer = .blocked deadline due ∧ deadline ≤ now := by
  rcases expire_cases p now v with ⟨e, hlt⟩ | ⟨deadline, due, hw, hle, e⟩ | ⟨deadline, hw, -, hr⟩
  · rw [e, hopen]
    refine iff_of_false (by simp) ?_
    rintro ⟨deadline, due, hw, hle⟩
    have := hlt deadline (by rw [hw]; rfl)
    omega
  · rw [e]
    exact iff_of_true rfl ⟨deadline, due, hw, hle⟩
  · -- a writer that takes its leave closes no connection
    rw [hr.still.1, hopen]
    refine iff_of_false (by simp) ?_
    rintro ⟨deadline', due, hw', -⟩
    rcases hw with hw | hw <;> cases hw.symm.trans hw'

theorem closed_endReader (v : Served) : v.endReader.connection.closed = v.connection.closed := by
  rw [endReader]
  split <;> rfl

/-- **What closes an open connection in a turn** is something that cannot be sent. -/
theorem closed_run_iff (hopen : v.connection.closed = false) (ht : v.InTime now) :
    (v.run p now).connection.closed = true ↔ v.Fruitless now ∨ v.Overdue p now := by
  by_cases hrelease : v.release.connection.closed = true
  · -- it fails as it is released
    have hrun : (v.run p now).connection.closed = true := by
      rw [run_eq, runReader_of_inTime hopen ht]
      exact ((((onward_part p now _).trans (onward_send p now _)).trans
        (onward_expire p now _)).trans (onward_endReader _)).closed hrelease
    have hsent := (onward_send p now _).closed hrelease
    exact iff_of_true hrun (.inl ((closed_sent_iff (p := p) hopen).1 hsent))
  · rw [run_eq_of_open (Bool.eq_false_iff.2 hrelease) ht, closed_endReader,
      ← closed_sent_iff (p := p) hopen]
    by_cases hsent : (v.sent p now).connection.closed = true
    · exact iff_of_true ((onward_expire p now _).closed hsent) (.inl hsent)
    · rw [closed_expire_iff (Bool.eq_false_iff.2 hsent), or_iff_right hsent]
      rfl

/-- The reader does not depend on the writer. -/
theorem reader_release (v : Served) : v.release.socket.reader = v.socket.reader := by
  rcases release_cases v with ⟨e, -⟩ | ⟨_, _, -, ⟨-, e⟩ | ⟨-, -, e⟩⟩ | ⟨-, -, e⟩ <;> rw [e] <;> rfl

theorem reader_expire (v : Served) : (v.expire p now).socket.reader = v.socket.reader := by
  rcases expire_cases p now v with ⟨e, -⟩ | ⟨-, -, -, -, e⟩ | ⟨-, -, -, hr⟩
  · rw [e]
  · rw [e]
    rfl
  · exact hr.still.2.1

/-- In a turn that leaves the connection open one of the pumps goes on, if one has before. -/
theorem Runs.run (h : v.Runs) (hopen : (v.run p now).connection.closed = false) :
    (v.run p now).Runs := by
  have hnot : ∀ {u : Served}, Onward u (v.run p now) → u.connection.closed = false :=
    fun ho => Bool.eq_false_iff.2 fun hc => absurd (hopen.symm.trans (ho.closed hc)) (by simp)
  by_cases hw : v.socket.writer.Works
  · exact .inr ((Writes.run (.inr hw) : (v.run p now).Writes).resolve_left (by simp [hopen]))
  · -- the writer takes its leave or has done so, and so no probe is sent for the reader to end by
    have ht : v.InTime now := fun deadline hr => by
      by_contra hd
      exact absurd (hopen.symm.trans (closed_run_of_lapsed hr (Nat.le_of_not_lt hd))) (by simp)
    have hv := hnot (onward_run p now v)
    have hready : ∀ due, v.release.socket.writer ≠ .ready due := by
      rcases release_cases v with ⟨e, -⟩ | ⟨deadline, due, hb, -⟩ | ⟨-, -, e⟩
      · rw [e]
        exact Writer.not_ready_of_not_works hw
      · rw [hb] at hw
        exact absurd trivial hw
      · rw [e]
        exact fun due e' => by cases e'
    have hrelease : v.release.connection.closed = false := by
      rcases release_cases v with ⟨e, -⟩ | ⟨deadline, due, hb, -⟩ | ⟨-, -, e⟩
      · rw [e]
        exact hv
      · rw [hb] at hw
        exact absurd trivial hw
      · rw [e]
        exact hv
    refine .inl ?_
    rw [run_eq_of_open hrelease ht] at hopen ⊢
    rw [closed_endReader] at hopen
    rw [endReader_of_open hopen, reader_expire, sent, send_of_not_ready hready, reader_release]
    exact h.resolve_right hw

/-- **What closes a connection in a turn**, if the reader has time: something that cannot be sent,
or a frame that has waited for too long. -/
theorem closed_turn_iff (hopen : v.connection.closed = false) (hruns : v.Runs)
    (ht : v.InTime now) :
    (v.turn p now).connection.closed = true ↔ v.Fruitless now ∨ v.Overdue p now := by
  rw [← closed_run_iff hopen ht]
  refine ⟨fun hc => ?_, closed_turn⟩
  by_contra hno
  have hrun := Bool.eq_false_iff.2 hno
  rw [turn_of_runs (hruns.run hrun)] at hc
  exact hno hc

/-! ### Time that runs out -/

/-- A frame that waits fails as its time is over. -/
theorem closed_run_of_overdue {due : Nat} (hw : v.socket.writer = .blocked deadline due)
    (hroom : v.isDone = false) (hd : deadline ≤ now) :
    (v.run p now).connection.closed = true := by
  by_contra hno
  have hopen := Bool.eq_false_iff.2 hno
  have hnot : v.connection.closed = false := Bool.eq_false_iff.2 fun hc =>
    absurd (hopen.symm.trans ((onward_run p now v).closed hc)) (by simp)
  have ht : v.InTime now := fun deadline hr => by
    by_contra hd
    exact absurd (hopen.symm.trans (closed_run_of_lapsed hr (Nat.le_of_not_lt hd))) (by simp)
  refine hno ((closed_run_iff hnot ht).2 (.inr ⟨deadline, due, ?_, hd⟩))
  -- there is no room, so the frame still waits when all has been sent
  obtain ⟨hover, hg⟩ := isDone_eq_false.1 hroom
  have hrelease : v.release = v := by simp [release, hw, hg, hover]
  rw [sent, hrelease, send_of_not_ready (by simp [hw]), hw]

/-- What cannot be sent fails the writer. -/
theorem Fruitless.closed_run (h : v.Fruitless now) : (v.run p now).connection.closed = true := by
  by_contra hno
  have hopen := Bool.eq_false_iff.2 hno
  have hnot : v.connection.closed = false := Bool.eq_false_iff.2 fun hc =>
    absurd (hopen.symm.trans ((onward_run p now v).closed hc)) (by simp)
  have ht : v.InTime now := fun deadline hr => by
    by_contra hd
    exact absurd (hopen.symm.trans (closed_run_of_lapsed hr (Nat.le_of_not_lt hd))) (by simp)
  exact hno ((closed_run_iff hnot ht).2 (.inl h))

/-- The connection is closed or will be at the time given, if only time passes: the reader gives up
then, since the client answers no probe, or the writer does, since a frame finds no room. -/
def Doomed (deadline : Nat) (v : Served) : Prop :=
  v.connection.closed = true ∨ v.socket.reader = .reading deadline ∧ v.answers = false ∨
    ∃ due, v.socket.writer = .blocked deadline due ∧ v.isDone = false

theorem taking_put (pipe : Pipe) (f : Outgoing) : (pipe.put f).taking = pipe.taking := by
  rw [Pipe.put]
  split_ifs <;> rfl

theorem answers_put (v : Served) (f : Outgoing) :
    (v.withPipe (v.socket.pipe.put f)).answers = v.answers :=
  congrArg (v.socket.answersProbes && ·) (taking_put v.socket.pipe f)

/-- **Doomed sockets stay doomed**, whatever is sent. -/
theorem Sends.doomed (h : Sends p now v v') (hd : v.Doomed deadline) : v'.Doomed deadline := by
  rcases hd with hc | ⟨hr, ha⟩ | ⟨due, hw, hroom⟩
  · exact .inl (h.onward.closed hc)
  · -- the reader is given no more time
    cases h with
    | fail _ _ => exact .inl rfl
    | put f _ _ | block f _ _ _ => exact .inr (.inl ⟨hr, (answers_put _ f).trans ha⟩)
    | rearm _ _ | take _ => exact .inr (.inl ⟨hr, ha⟩)
    | sign _ ha' => exact absurd (ha'.symm.trans ha) (by simp)
  · -- a writer that waits sends nothing
    cases h with
    | fail hr _ | put _ hr _ | block _ hr _ _ | rearm _ hr =>
      exact absurd (hw.symm.trans hr) (by simp)
    | take _ => exact .inr (.inr ⟨due, hw, hroom⟩)
    | sign hr _ =>
      rw [extend, hr]
      exact .inr (.inr ⟨due, hw, hroom⟩)

/-- The reader of a doomed socket ends or waits as before. -/
theorem Doomed.runReader (h : v.Doomed deadline) : (v.runReader now).Doomed deadline := by
  have hlapse : (v.lapse now).Doomed deadline := by
    rw [lapse]
    split
    · split
      · exact .inl rfl
      · exact h
    · exact h
  rw [Served.runReader, endReader]
  split
  · rename_i hc
    exact .inl hc
  · exact hlapse

/-- The writer of one has no room to go on. -/
theorem Doomed.release (h : v.Doomed deadline) : v.release.Doomed deadline := by
  rcases h with hc | ⟨hr, ha⟩ | ⟨due, hw, hroom⟩
  · exact .inl ((onward_release v).closed hc)
  · have hanswers : v.release.answers = v.answers := by
      rcases release_cases v with ⟨e, -⟩ | ⟨_, _, -, ⟨-, e⟩ | ⟨-, -, e⟩⟩ | ⟨-, -, e⟩ <;>
        rw [e] <;> rfl
    exact .inr (.inl ⟨(reader_release v).trans hr, hanswers.trans ha⟩)
  · obtain ⟨hover, hg⟩ := isDone_eq_false.1 hroom
    have hrelease : v.release = v := by simp [Served.release, hw, hg, hover]
    rw [hrelease]
    exact .inr (.inr ⟨due, hw, hroom⟩)

theorem Doomed.part (h : v.Doomed deadline) : (v.part p now).Doomed deadline := by
  by_cases hc : v.connection.closed = true
  · exact .inl ((onward_part p now v).closed hc)
  · rw [part_of_open (Bool.eq_false_iff.2 hc)]
    exact h

theorem answers_expire (v : Served) : (v.expire p now).answers = v.answers := by
  rcases expire_cases p now v with ⟨e, -⟩ | ⟨-, -, -, -, e⟩ | ⟨-, -, -, hr⟩
  · rw [e]
  · rw [e]
    rfl
  · exact hr.still.2.2

theorem Doomed.expire (h : v.Doomed deadline) : (v.expire p now).Doomed deadline := by
  rcases h with hc | ⟨hr, ha⟩ | ⟨due, hw, hroom⟩
  · exact .inl ((onward_expire p now v).closed hc)
  · exact .inr (.inl ⟨(reader_expire v).trans hr, (answers_expire v).trans ha⟩)
  · rw [Served.expire]
    simp only [hw]
    split
    · exact .inl rfl
    · exact .inr (.inr ⟨due, hw, hroom⟩)

/-- A turn does not save a connection. -/
theorem Doomed.run (h : v.Doomed deadline) : (v.run p now).Doomed deadline := by
  have hleft : ((v.runReader now).release.part p now).Doomed deadline := h.runReader.release.part
  have hlast : ((((v.runReader now).release.part p now).send p now).expire p now).Doomed
      deadline :=
    ((sending_send p now _).keeps (P := Doomed deadline) (fun hs hd => hs.doomed hd) hleft).expire
  rw [run_eq, endReader]
  split
  · rename_i hc
    exact .inl hc
  · exact hlast

/-- Nothing that happens to the connection saves it. -/
theorem Doomed.withConnection {c : Connection} (h : v.Doomed deadline)
    (hc : v.connection.closed = true → c.closed = true) :
    (⟨c, v.socket⟩ : Served).Doomed deadline := h.imp_left hc

theorem Doomed.turn (h : v.Doomed deadline) : (v.turn p now).Doomed deadline := by
  rw [Served.turn]
  split
  · exact .inl rfl
  · exact h.run

/-- Once its time has come, a turn closes the connection. -/
theorem Doomed.closed_turn (h : v.Doomed deadline) (hd : deadline ≤ now) :
    (v.turn p now).connection.closed = true := by
  refine Served.closed_turn ?_
  rcases h with hc | ⟨hr, -⟩ | ⟨due, hw, hroom⟩
  · exact (onward_run p now v).closed hc
  · exact closed_run_of_lapsed hr hd
  · exact closed_run_of_overdue hw hroom hd

end Served

/-! ### Writers that take their leave -/

/-- At the time `now` the writer has what it needs to have ended by the time `t`: it has not waited
for too long yet, and there is time for the waits that may still come. -/
def Writer.Lasts (wait now t : Nat) : Writer → Prop
  | .ready _ => now + 2 * wait ≤ t
  | .blocked deadline _ => now ≤ deadline ∧ deadline + 2 * wait ≤ t
  | .parting deadline => now ≤ deadline ∧ deadline + wait ≤ t
  | .closing deadline => now ≤ deadline ∧ deadline ≤ t
  | .ended => True

/-- A writer that ends in time is not late. -/
theorem Writer.EndsBy.lasts {wait now t : Nat} {w : Writer} (h : w.EndsBy wait t)
    (hw : ∀ deadline, w.wait? = some deadline → now ≤ deadline) : w.Lasts wait now t := by
  cases w with
  | ready _ => exact h.elim
  | blocked deadline _ | parting deadline | closing deadline => exact ⟨hw deadline rfl, h⟩
  | ended => trivial

theorem Writer.Lasts.endsBy {wait now t : Nat} {w : Writer} (h : w.Lasts wait now t)
    (hw : ∀ due, w ≠ .ready due) : w.EndsBy wait t := by
  cases w with
  | ready due => exact (hw due rfl).elim
  | blocked _ _ | parting _ | closing _ => exact h.2
  | ended => trivial

/-- A writer that is not ready and waits for no longer than it may has ended after three waits. -/
theorem Writer.endsBy_of_wait {wait now : Nat} {w : Writer} (hready : ∀ due, w ≠ .ready due)
    (hw : ∀ deadline, w.wait? = some deadline → deadline ≤ now + wait) :
    w.EndsBy wait (now + 3 * wait) := by
  cases w with
  | ready due => exact (hready due rfl).elim
  | blocked deadline due =>
    have hd := hw deadline rfl
    show deadline + 2 * wait ≤ now + 3 * wait
    omega
  | parting deadline =>
    have hd := hw deadline rfl
    show deadline + wait ≤ now + 3 * wait
    omega
  | closing deadline =>
    have hd := hw deadline rfl
    show deadline ≤ now + 3 * wait
    omega
  | ended => trivial

namespace Served

variable {p : Policy} {now t : Nat} {v v' : Served}

/-- What has room goes on, and waits anew from now on. -/
theorem lasts_release (h : v.socket.writer.Lasts p.writeWait now t) :
    v.release.socket.writer.Lasts p.writeWait now t := by
  rcases release_cases v with ⟨e, -⟩ | ⟨deadline, due, hw, ⟨-, e⟩ | ⟨-, -, e⟩⟩ | ⟨-, -, e⟩
  · rw [e]
    exact h
  · rw [e]
    trivial
  · rw [e]
    rw [hw] at h
    obtain ⟨hle, ht⟩ := h
    show now + 2 * p.writeWait ≤ t
    omega
  · rw [e]
    trivial

/-- One that takes its leave now has its waits before it. -/
theorem Retires.lasts {u : Nat} (h : Retires p now u v v') (hu : u ≤ t) :
    v'.socket.writer.Lasts p.writeWait now t := by
  cases h with
  | done => trivial
  | giveUp => trivial
  | await w _ hwait hends =>
    refine (hends.mono hu).lasts fun deadline e => ?_
    obtain rfl : p.writeBy now = deadline := Option.some.inj (hwait.symm.trans e)
    exact p.le_writeBy now

/-- To take its leave does not take longer than was allowed. -/
theorem lasts_part (h : v.socket.writer.Lasts p.writeWait now t) :
    (v.part p now).socket.writer.Lasts p.writeWait now t := by
  rcases part_cases p now v with ⟨e, -⟩ | ⟨-, ⟨due, hw⟩, u, -, hr⟩
  · rw [e]
    exact h
  · rw [hw] at h
    exact hr.lasts h

/-- Nor does to give up. -/
theorem endsBy_expire (h : v.socket.writer.Lasts p.writeWait now t)
    (hready : ∀ due, v.socket.writer ≠ .ready due) :
    (v.expire p now).socket.writer.EndsBy p.writeWait t := by
  cases hw : v.socket.writer with
  | ready due => exact (hready due hw).elim
  | blocked deadline due =>
    rw [hw] at h
    simp only [expire, hw]
    split
    · trivial
    · rw [hw]
      exact h.2
  | parting deadline =>
    rw [hw] at h
    simp only [expire, hw]
    split
    · -- the wait for the closing of the way begins now, which is not late
      have hle : now + p.writeWait ≤ t := by
        obtain ⟨hle, ht⟩ := h
        omega
      exact ((retires_shut p now v).lasts hle).endsBy (retires_shut p now v).not_ready
    · rw [hw]
      exact h.2
  | closing deadline =>
    rw [hw] at h
    simp only [expire, hw]
    split
    · trivial
    · rw [hw]
      exact h.2
  | ended =>
    simp only [expire, hw]
    trivial

/-- **A writer that takes its leave has ended in time**: a turn that is not late keeps the time by
which it has. -/
theorem Lasts.run (h : v.socket.writer.Lasts p.writeWait now t)
    (hc : v.connection.closed = true) : (v.run p now).socket.writer.EndsBy p.writeWait t := by
  let u := ((v.runReader now).release).part p now
  have hreader := (writer_runReader now v).symm ▸ h
  have hlasts : u.socket.writer.Lasts p.writeWait now t := lasts_part (lasts_release hreader)
  -- the writer is not ready, so nothing is sent
  have hclosed : u.connection.closed = true :=
    (((onward_runReader now v).trans (onward_release _)).trans (onward_part p now _)).closed hc
  have hready : ∀ due, u.socket.writer ≠ .ready due := parted_part p now _ hclosed
  have hrun : v.run p now = ((u.send p now).expire p now).endReader := rfl
  rw [hrun, writer_endReader, send_of_not_ready hready]
  exact endsBy_expire hlasts hready

end Served

end Switchboard
