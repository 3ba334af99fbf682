/-
Switchboard/Proofs/Socket/Hale.lean

Sockets that give no reason to be ended.

A socket is `Hale` from a time on if its connection is open and has given a
sign of life then or later, the reader has its full wait from then on, and the
writer waits for nothing but the time of its next probe.

The client of such a socket takes what comes to it, so that whatever is
written finds room and the writer never has to wait; and the deadline of the
reader is only ever set to follow a sign of life.  So a turn that comes in the
reader's time and not after the probe is due leaves the socket hale
(`Hale.run_waiting`), and a probe that is answered at once makes it so from
that moment on (`Hale.run_probing`).
-/
import Switchboard.Proofs.Board.Sparing
import Switchboard.Proofs.Socket.Turns

namespace Switchboard

namespace Served

variable {p : Policy} {a : Bool} {t due now : Nat} {v : Served}

/-- The connection is open and gave a sign of life at the time `t` or later, the reader has all its
time from then on, the writer is to probe next at the time `due`, and the client is there and takes
what comes. -/
structure Hale (p : Policy) (a : Bool) (t due : Nat) (v : Served) : Prop where
  live : v.connection.LiveFrom t
  /-- The clock can tell until when the client may be silent. -/
  fits : p.Reads v.connection.lastSeen
  reader : ∃ deadline, v.socket.reader = .reading deadline ∧ t + p.readWait ≤ deadline
  writer : v.socket.writer = .ready due
  taking : v.socket.pipe.taking = true
  gone : v.socket.pipe.gone = false
  held : v.socket.pipe.held = []
  answers : v.socket.answersProbes = a

theorem Hale.reader_ne_ended (h : v.Hale p a t due) : v.socket.reader ≠ .ended := by
  obtain ⟨deadline, hr, -⟩ := h.reader
  simp [hr]

theorem Hale.isOpen (h : v.Hale p a t due) : v.connection.closed = false := h.live.1

/-- A turn that leaves a socket hale does not finish it. -/
theorem Hale.turn_eq {due' : Nat} (h : (v.run p now).Hale p a t due') :
    v.turn p now = v.run p now :=
  turn_of_runs (.inl h.reader_ne_ended)

theorem Hale.inTime (h : v.Hale p a t due) (hnow : now < t + p.readWait) : v.InTime now := by
  obtain ⟨deadline, hr, hd⟩ := h.reader
  intro deadline' hr'
  cases hr.symm.trans hr'
  exact hnow.trans_le hd

/-! ### What is done to the connection and to the pipe -/

theorem Hale.withConnection {c : Connection} (h : v.Hale p a t due) (hc : c.LiveFrom t)
    (hfits : p.Reads c.lastSeen) : (⟨c, v.socket⟩ : Served).Hale p a t due :=
  ⟨hc, hfits, h.reader, h.writer, h.taking, h.gone, h.held, h.answers⟩

/-- The connection is spared. -/
theorem Hale.spared {c : Connection} (h : v.Hale p a t due) (hs : v.connection.Spared now c)
    (ht : t ≤ now) (hnow : p.Reads now) : (⟨c, v.socket⟩ : Served).Hale p a t due :=
  h.withConnection (h.live.spared hs ht)
    (hs.lastSeen.elim (fun e => e.symm ▸ h.fits) fun e => e.symm ▸ hnow)

theorem Hale.withPipe {pipe : Pipe} (h : v.Hale p a t due) (htaking : pipe.taking = true)
    (hgone : pipe.gone = false) (hheld : pipe.held = []) : (v.withPipe pipe).Hale p a t due :=
  ⟨h.live, h.fits, h.reader, h.writer, htaking, hgone, hheld, h.answers⟩

/-- A frame that is sent comes to the client at once. -/
theorem Hale.put_eq (h : v.Hale p a t due) (f : Outgoing) : v.socket.pipe.put f =
    { v.socket.pipe with received := v.socket.pipe.received ++ [f] } := by
  rw [Pipe.put, if_neg (by simp [h.gone]), if_pos h.taking]

theorem Hale.put (h : v.Hale p a t due) (f : Outgoing) :
    (v.withPipe (v.socket.pipe.put f)).Hale p a t due := by
  rw [h.put_eq]
  exact h.withPipe h.taking h.gone h.held

theorem Hale.resume (h : v.Hale p a t due) :
    (v.withPipe v.socket.pipe.resume).Hale p a t due :=
  h.withPipe rfl h.gone rfl

/-! ### What is heard -/

/-- The deadline follows the last sign of life. -/
theorem Hale.extend (h : v.Hale p a t due) : (v.extend p).Hale p a t due := by
  obtain ⟨deadline, hr, -⟩ := h.reader
  rw [Served.extend]
  simp only [hr, Reader.upTo_of_lt h.fits]
  exact ⟨h.live, h.fits, ⟨_, rfl, Nat.add_le_add_right h.live.2 _⟩, h.writer, h.taking, h.gone,
    h.held, h.answers⟩

/-- With a sign of life everything begins anew. -/
theorem Hale.signOfLife (h : v.Hale p a t due) (hnow : p.Reads now) :
    (v.signOfLife p now).Hale p a now due := by
  obtain ⟨deadline, hr, -⟩ := h.reader
  have hdeadline : Reader.upTo p (now + p.readWait) = .reading (now + p.readWait) :=
    Reader.upTo_of_lt hnow
  rw [Served.signOfLife, Served.extend]
  simp only [hr, Connection.touch, hdeadline]
  exact ⟨⟨h.live.1, Nat.le_refl now⟩, hnow, ⟨_, rfl, Nat.le_refl _⟩, h.writer, h.taking, h.gone,
    h.held, h.answers⟩

/-- The client's own probe is answered. -/
theorem Hale.echo (h : v.Hale p a t due) (content : Bytes) :
    (v.echo p content).Hale p a t due := by
  have hsent := (h.put (.pong content)).extend
  have hecho : v.echo p content = (v.withPipe (v.socket.pipe.put (.pong content))).extend p := by
    obtain ⟨deadline, hr, -⟩ := hsent.reader
    rw [Served.echo]
    simp only [hr, hsent.gone, Bool.false_eq_true, if_false]
  rw [hecho]
  exact hsent

/-! ### What is sent -/

/-- The writer does not have to wait. -/
theorem Hale.write_eq (h : v.Hale p a t due) (now : Nat) (f : Outgoing) :
    v.write p now f = v.withPipe (v.socket.pipe.put f) := by
  have hroom : (v.withPipe (v.socket.pipe.put f)).socket.pipe.isOverfull = false := by
    rw [Pipe.isOverfull, (h.put f).held]
    rfl
  rw [write]
  simp only [h.writer, h.gone, Bool.false_eq_true, if_false, hroom]

theorem Hale.message (h : v.Hale p a t due) (now : Nat) : (v.message p now).Hale p a t due := by
  rw [Served.message]
  split
  · rename_i m outbox _ _
    have htaken : ({ v with connection := { v.connection with outbox } } : Served).Hale p a t due :=
      h.withConnection h.live h.fits
    rw [htaken.write_eq]
    exact htaken.put _
  · exact h

theorem Hale.messages (h : v.Hale p a t due) (now n : Nat) :
    (v.messages p now n).Hale p a t due := by
  induction n generalizing v with
  | zero => exact h
  | succ n ih => exact ih (h.message now)

/-- A probe is a sign of life if the client answers it at once. -/
theorem Hale.probe (h : v.Hale p a t due) (hnow : p.Reads now) :
    (v.probe p now).Hale p a (if a then now else t) (due + p.probeEvery) := by
  have hnext : (v.withWriter (.ready (due + p.probeEvery))).Hale p a t (due + p.probeEvery) :=
    ⟨h.live, h.fits, h.reader, rfl, h.taking, h.gone, h.held, h.answers⟩
  rw [Served.probe]
  simp only [h.writer]
  rw [hnext.write_eq, answerProbe]
  have hsent := hnext.put .ping
  simp only [hsent.answers, hsent.taking, hsent.gone, Bool.and_true, Bool.not_false]
  cases a with
  | true => exact hsent.signOfLife hnow
  | false => exact hsent

/-! ### A turn -/

/-- In the reader's time a turn is nothing but sending, if that leaves the socket hale. -/
theorem Hale.run_eq_send {t' due' : Nat} (h : v.Hale p a t due) (hnow : now < t + p.readWait)
    (hsend : (v.send p now).Hale p a t' due') : v.run p now = v.send p now := by
  have hrelease : v.release = v := by
    rw [release]
    simp only [h.writer]
  have hexpire : (v.send p now).expire p now = v.send p now := by
    rw [expire]
    simp only [hsend.writer]
  rw [run_eq, runReader_of_inTime h.isOpen (h.inTime hnow), hrelease, part_of_open h.isOpen,
    hexpire, endReader_of_open hsend.isOpen]

/-- Before the probe is due, a turn leaves a socket as hale as it is. -/
theorem Hale.run_waiting (h : v.Hale p a t due) (hnow : now < t + p.readWait) (hdue : now < due) :
    (v.run p now).Hale p a t due := by
  have hnone : v.probesDue p now = 0 := by
    rw [probesDue]
    simp only [h.writer, if_pos hdue]
  have hsend : (v.send p now).Hale p a t due := by
    rw [send, hnone]
    exact h.messages now _
  rw [h.run_eq_send hnow hsend]
  exact hsend

/-- A turn that comes as the probe is due sends it, and no other. -/
theorem Hale.run_probing (h : v.Hale p a t now) (hnow : now < t + p.readWait)
    (hfits : p.Reads now) :
    (v.run p now).Hale p a (if a then now else t) (now + p.probeEvery) := by
  have hone : v.probesDue p now = 1 := by
    rw [probesDue]
    simp [h.writer]
  have hsend : (v.send p now).Hale p a (if a then now else t) (now + p.probeEvery) := by
    rw [send, hone]
    exact (h.probe hfits).messages now _
  rw [h.run_eq_send hnow hsend]
  exact hsend

end Served

end Switchboard
