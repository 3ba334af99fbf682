/-
Switchboard/Proofs/Socket/Pumps.lean

What the pumps of one socket do, and what they keep.

Most of what the writer does is sending, and sending is a sequence of a few
small acts (`Sends`): a frame goes into the pipe or waits for room, a way that
is broken off fails the writer, a probe is set, a message is taken, a sign of
life is noted.  What holds of a socket through these acts is shown act by
act, and the other parts of a turn - the lapse and the end of the reader, the
release, the leave and the expiry of the writer - are gone through one by one.
To leave, a writer retires: it ends or waits for room once more (`Retires`).

After a turn the socket is `Quiet`: with the connection closed the reader has
ended and the writer has too, unless something still waits for room; and that
comes to an end by a time that is known before (`Lasts.run`).
-/
import Switchboard.Proofs.Board.Alike
import Switchboard.Socket.Pumps

namespace Switchboard

/-! ### Times that the clock can tell -/

/-- Can the clock tell until when a client may be silent that is heard of at the time given? -/
def Policy.Reads (p : Policy) (now : Nat) : Prop := now + p.readWait < p.host.horizon

instance (p : Policy) (now : Nat) : Decidable (p.Reads now) :=
  inferInstanceAs (Decidable (_ < _))

/-- Can the clock tell when a client is to be probed first that comes at the time given? -/
def Policy.Probes (p : Policy) (now : Nat) : Prop :=
  p.probeEvery ≠ 0 ∧ now + p.probeEvery < p.host.horizon

instance (p : Policy) (now : Nat) : Decidable (p.Probes now) :=
  inferInstanceAs (Decidable (_ ∧ _))

theorem Policy.Reads.mono {p : Policy} {t now : Nat} (h : p.Reads now) (ht : t ≤ now) : p.Reads t :=
  (Nat.add_le_add_right ht _).trans_lt h

theorem Policy.Probes.mono {p : Policy} {t now : Nat} (h : p.Probes now) (ht : t ≤ now) :
    p.Probes t :=
  ⟨h.1, (Nat.add_le_add_right ht _).trans_lt h.2⟩

/-- Is the time over that a client may be silent which was last heard of at the time `t`?  If the
clock cannot tell when that is, it never is. -/
def Policy.Lapsed (p : Policy) (t now : Nat) : Prop := p.Reads t ∧ t + p.readWait ≤ now

/-- The time of a client is not over as long as the reader has time. -/
theorem Policy.not_lapsed_iff {p : Policy} {t now : Nat} :
    ¬ p.Lapsed t now ↔ (p.Reads t → now < t + p.readWait) := by
  rw [Lapsed, not_and, Nat.not_le]

/-- A write is given no more time than is allowed. -/
theorem Policy.writeBy_le (p : Policy) (now : Nat) : p.writeBy now ≤ now + p.writeWait := by
  rw [writeBy]
  split
  · exact Nat.le_refl _
  · exact Nat.add_le_add_left (Nat.min_le_left _ _) now

theorem Policy.le_writeBy (p : Policy) (now : Nat) : now ≤ p.writeBy now := by
  rw [writeBy]
  split <;> exact Nat.le_add_right _ _

/-- And it is given some if any is allowed. -/
theorem Policy.lt_writeBy (p : Policy) (h : p.writeWait ≠ 0) (now : Nat) : now < p.writeBy now := by
  have hpos : 0 < p.writeWait := Nat.pos_of_ne_zero h
  have hmin : 0 < Nat.min p.writeWait longest := Nat.lt_min.2 ⟨hpos, by decide⟩
  rw [writeBy]
  split <;> omega

/-- A reader waits until its deadline if the clock can tell it. -/
theorem Reader.upTo_of_lt {p : Policy} {deadline : Nat} (h : deadline < p.host.horizon) :
    Reader.upTo p deadline = .reading deadline := if_pos h

theorem Reader.upTo_eq_reading {p : Policy} {t deadline : Nat}
    (h : Reader.upTo p t = .reading deadline) : t = deadline := by
  rw [upTo] at h
  split at h <;> cases h
  rfl

/-- If the clock cannot, the reader has broken down. -/
theorem Reader.upTo_eq_ended {p : Policy} {deadline : Nat} :
    Reader.upTo p deadline = .ended ↔ ¬ deadline < p.host.horizon := by
  rw [upTo]
  split <;> simp_all

/-- The same of a new writer and its first probe. -/
theorem Writer.first_of_probes {p : Policy} {now : Nat} (h : p.Probes now) :
    Writer.first p (now + p.probeEvery) = .ready (now + p.probeEvery) :=
  if_neg (not_or.2 ⟨h.1, Nat.not_le.2 h.2⟩)

theorem Writer.first_of_not_probes {p : Policy} {now : Nat} (h : ¬ p.Probes now) :
    Writer.first p (now + p.probeEvery) = .ended := by
  rw [Policy.Probes, not_and_or, not_not, Nat.not_lt] at h
  exact if_pos h

/-! ### Writers and ways -/

/-- The time until which a writer waits for room, if it does. -/
def Writer.wait? : Writer → Option Nat
  | .blocked deadline _ | .parting deadline | .closing deadline => some deadline
  | .ready _ | .ended => none

/-- By the time `t` a writer that takes its leave has ended: what it waits for now is over by then,
and so are the waits that may still come, for the farewell and for the closing of the way. -/
def Writer.EndsBy (wait t : Nat) : Writer → Prop
  | .ready _ => False
  | .blocked deadline _ => deadline + 2 * wait ≤ t
  | .parting deadline => deadline + wait ≤ t
  | .closing deadline => deadline ≤ t
  | .ended => True

theorem Writer.EndsBy.mono {wait t t' : Nat} {w : Writer} (h : w.EndsBy wait t) (ht : t ≤ t') :
    w.EndsBy wait t' := by
  cases w with
  | ready _ => exact h
  | blocked _ _ | parting _ | closing _ => exact Nat.le_trans h ht
  | ended => trivial

/-- A writer that has neither ended nor begun to take its leave. -/
def Writer.Works : Writer → Prop
  | .ready _ | .blocked _ _ => True
  | .parting _ | .closing _ | .ended => False

/-- Nothing is held in a way that is broken off. -/
def Pipe.Void (p : Pipe) : Prop := p.gone = true → p.held = []

/-- What is sent does not break off the way. -/
theorem Pipe.gone_put (p : Pipe) (f : Outgoing) : (p.put f).gone = p.gone := by
  rw [Pipe.put]
  split_ifs <;> rfl

/-- Whatever is sent on a way that is broken off is lost. -/
theorem Pipe.Void.put {p : Pipe} (h : p.Void) (f : Outgoing) : (p.put f).Void := by
  rw [Pipe.put]
  split_ifs with hg
  · exact h
  · exact fun hg' => absurd hg' hg
  · exact fun hg' => absurd hg' hg

theorem Pipe.Void.cut {p : Pipe} (h : p.Void) : p.cut.Void := by
  intro hg
  show Pipe.fitting p.room p.held = []
  rw [h hg, Pipe.fitting]

namespace Served

variable {p : Policy} {now t : Nat} {v v' v'' : Served}

/-! ### Sending -/

/-- Will the client answer a probe that comes to it? -/
def answers (v : Served) : Bool := v.socket.answersProbes && v.socket.pipe.taking

/-- One act of sending. -/
inductive Sends (p : Policy) (now : Nat) : Served → Served → Prop where
  /-- The way is broken off, and the writer fails. -/
  | fail {v : Served} {due : Nat} : v.socket.writer = .ready due → v.socket.pipe.gone = true →
      Sends p now v v.failWriter
  /-- A frame finds room. -/
  | put {v : Served} {due : Nat} (f : Outgoing) : v.socket.writer = .ready due →
      v.socket.pipe.gone = false → Sends p now v (v.withPipe (v.socket.pipe.put f))
  /-- A frame finds no room and waits for it. -/
  | block {v : Served} {due : Nat} (f : Outgoing) : v.socket.writer = .ready due →
      v.socket.pipe.gone = false → (v.socket.pipe.put f).isOverfull = true →
      Sends p now v ((v.withPipe (v.socket.pipe.put f)).withWriter
        (.blocked (p.writeBy now) due))
  /-- The time of the next probe is set. -/
  | rearm {v : Served} {due : Nat} (due' : Nat) : v.socket.writer = .ready due →
      Sends p now v (v.withWriter (.ready due'))
  /-- A message leaves the queue. -/
  | take {v : Served} (outbox : Outbox) :
      Sends p now v { v with connection := { v.connection with outbox } }
  /-- A sign of life is noted. -/
  | sign {v : Served} {deadline : Nat} : v.socket.reader = .reading deadline →
      v.answers = true →
      Sends p now v (({ v with connection := v.connection.touch now } : Served).extend p)

/-- Several acts of sending. -/
abbrev Sending (p : Policy) (now : Nat) : Served → Served → Prop :=
  Relation.ReflTransGen (Sends p now)

/-- To write a frame is one act of sending, or none if the writer does not work. -/
theorem sending_write (p : Policy) (now : Nat) (f : Outgoing) (v : Served) :
    Sending p now v (v.write p now f) := by
  rw [write]
  cases hw : v.socket.writer with
  | ready due =>
    by_cases hg : v.socket.pipe.gone = true
    · simp only [if_pos hg]
      exact .single (.fail hw hg)
    · have hg' : v.socket.pipe.gone = false := Bool.eq_false_iff.2 hg
      simp only [if_neg hg]
      split
      · rename_i ho
        exact .single (.block f hw hg' ho)
      · exact .single (.put f hw hg')
  | blocked _ _ | parting _ | closing _ | ended => exact .refl

/-- A probe is answered with a sign of life, or not at all. -/
theorem sending_answerProbe (p : Policy) (now : Nat) (v : Served) :
    Sending p now v (v.answerProbe p now) := by
  rw [answerProbe]
  split
  · rename_i ha
    rw [signOfLife]
    cases hr : v.socket.reader with
    | reading deadline => exact .single (.sign hr (Bool.and_eq_true_iff.1 ha).1)
    | ended => exact .refl
  · exact .refl

/-- A probe is sent in three acts: the next one is set, it is written, and it is answered. -/
theorem sending_probe (p : Policy) (now : Nat) (v : Served) :
    Sending p now v (v.probe p now) := by
  rw [probe]
  cases hw : v.socket.writer with
  | ready due =>
    -- the next probe is set, the probe is sent, and a client that takes it answers at once
    have hrearm : Sending p now v (v.withWriter (.ready (due + p.probeEvery))) :=
      .single (.rearm _ hw)
    exact (hrearm.trans (sending_write p now .ping _)).trans (sending_answerProbe p now _)
  | blocked _ _ | parting _ | closing _ | ended => exact .refl

theorem sending_probes (n : Nat) (v : Served) : Sending p now v (v.probes p now n) := by
  induction n generalizing v with
  | zero => exact .refl
  | succ n ih => exact (sending_probe p now v).trans (ih _)

/-- A message is taken from the queue, and then written. -/
theorem sending_message (p : Policy) (now : Nat) (v : Served) :
    Sending p now v (v.message p now) := by
  rw [message]
  split
  · rename_i m outbox _ _
    exact Relation.ReflTransGen.trans (.single (.take outbox)) (sending_write p now _ _)
  · exact .refl

theorem sending_messages (n : Nat) (v : Served) : Sending p now v (v.messages p now n) := by
  induction n generalizing v with
  | zero => exact .refl
  | succ n ih => exact (sending_message p now v).trans (ih _)

/-- What every act of sending keeps, all of them keep. -/
theorem Sending.keeps {P : Served → Prop} (h : Sending p now v v')
    (hstep : ∀ {v v' : Served}, Sends p now v v' → P v → P v') (hv : P v) : P v' := by
  induction h with
  | refl => exact hv
  | tail _ hs ih => exact hstep hs ih

/-- What the writer sends in a turn, from where it has been released and has perhaps left. -/
def send (p : Policy) (now : Nat) (v : Served) : Served :=
  let v := v.probes p now (v.probesDue p now)
  v.messages p now v.connection.outbox.size

theorem sending_send (p : Policy) (now : Nat) (v : Served) : Sending p now v (v.send p now) :=
  (sending_probes _ _).trans (sending_messages _ _)

/-- The turn of a socket, told in the terms of what follows: the reader ends or not, the writer goes
on or takes its leave, all is sent that can be, and what has waited for too long fails. -/
theorem run_eq (p : Policy) (now : Nat) (v : Served) : v.run p now =
    (((((v.runReader now).release).part p now).send p now).expire p now).endReader := rfl

/-! ### Leaving -/

/-- How a writer retires: it ends, perhaps with what has found no room given up, or it waits for
room once more, and will have ended by the time `t`. -/
inductive Retires (p : Policy) (now t : Nat) (v : Served) : Served → Prop where
  | done : Retires p now t v v.endWriter
  | giveUp : Retires p now t v v.giveUp
  | await (w : Writer) : v.isDone = false → w.wait? = some (p.writeBy now) →
      w.EndsBy p.writeWait t → Retires p now t v (v.withWriter w)

theorem Retires.mono {t' : Nat} (h : Retires p now t v v') (ht : t ≤ t') :
    Retires p now t' v v' := by
  cases h with
  | done => exact .done
  | giveUp => exact .giveUp
  | await w hroom hwait hends => exact .await w hroom hwait (hends.mono ht)

/-- A writer that retires leaves alone what is not its own. -/
theorem Retires.still (h : Retires p now t v v') :
    v'.connection.closed = v.connection.closed ∧ v'.socket.reader = v.socket.reader ∧
      v'.answers = v.answers := by
  cases h <;> exact ⟨rfl, rfl, rfl⟩

/-- And it is not ready any more. -/
theorem Retires.not_ready (h : Retires p now t v v') (due : Nat) :
    v'.socket.writer ≠ .ready due := by
  cases h with
  | done | giveUp =>
    intro e
    cases e
  | await w _ hwait _ =>
    intro e
    obtain rfl : w = .ready due := e
    cases hwait

/-- The closing of the way waits for room once at most. -/
theorem retires_shut (p : Policy) (now : Nat) (v : Served) :
    Retires p now (now + p.writeWait) v (v.shut p now) := by
  rw [shut]
  split
  · exact .done
  · rename_i hdone
    split
    · exact .giveUp
    · exact .await _ (Bool.eq_false_iff.2 hdone) rfl (p.writeBy_le now)

/-- And the farewell once before it. -/
theorem retires_sayFarewell (p : Policy) (now : Nat) (v : Served) :
    Retires p now (now + 2 * p.writeWait) (v.withPipe (v.socket.pipe.put (.close none)))
      (v.sayFarewell p now) := by
  rw [sayFarewell]
  split
  · exact .done
  · rename_i hdone
    refine .await _ (Bool.eq_false_iff.2 hdone) rfl ?_
    have hby := p.writeBy_le now
    show p.writeBy now + p.writeWait ≤ now + 2 * p.writeWait
    omega

/-- The last frame that a writer sends, if it sends one. -/
inductive Closes (v : Served) : Served → Prop where
  | nothing : Closes v v
  | frame (f : Option Farewell) : Closes v (v.withPipe (v.socket.pipe.put (.close f)))

/-- A writer takes its leave if it is ready and the connection is closed, and does nothing if
not. -/
theorem part_cases (p : Policy) (now : Nat) (v : Served) :
    (v.part p now = v ∧ (v.connection.closed = true → ∀ due, v.socket.writer ≠ .ready due)) ∨
      v.connection.closed = true ∧ (∃ due, v.socket.writer = .ready due) ∧
        ∃ u, Closes v u ∧ Retires p now (now + 2 * p.writeWait) u (v.part p now) := by
  have hle : now + p.writeWait ≤ now + 2 * p.writeWait := by omega
  cases hw : v.socket.writer with
  | ready due =>
    by_cases hc : v.connection.closed = true
    · right
      refine ⟨hc, ⟨due, rfl⟩, ?_⟩
      cases hp : v.socket.parting with
      | farewell =>
        refine ⟨_, .frame none, ?_⟩
        simp only [part, hw, hc, hp, if_true]
        exact retires_sayFarewell p now v
      | answer f =>
        refine ⟨_, .frame f, ?_⟩
        simp only [part, hw, hc, hp, if_true]
        exact (retires_shut p now _).mono hle
      | silence =>
        refine ⟨_, .nothing, ?_⟩
        simp only [part, hw, hc, hp, if_true]
        exact (retires_shut p now v).mono hle
    · exact .inl ⟨by simp only [part, hw, if_neg hc], fun h => absurd h hc⟩
  | blocked _ _ | parting _ | closing _ | ended =>
    exact .inl ⟨by simp only [part, hw], fun _ _ => by simp⟩

/-- At its deadline a writer fails, closes the way or gives up, and before it does nothing. -/
theorem expire_cases (p : Policy) (now : Nat) (v : Served) :
    (v.expire p now = v ∧ ∀ deadline, v.socket.writer.wait? = some deadline → now < deadline) ∨
      (∃ deadline due, v.socket.writer = .blocked deadline due ∧ deadline ≤ now ∧
        v.expire p now = (v.withPipe v.socket.pipe.cut).failWriter) ∨
      ∃ deadline, (v.socket.writer = .parting deadline ∨ v.socket.writer = .closing deadline) ∧
        deadline ≤ now ∧ Retires p now (now + p.writeWait) v (v.expire p now) := by
  cases hw : v.socket.writer with
  | ready _ | ended => exact .inl ⟨by simp only [expire, hw], fun _ h => by cases h⟩
  | blocked deadline due =>
    by_cases hd : deadline ≤ now
    · exact .inr (.inl ⟨deadline, due, rfl, hd, by simp only [expire, hw, if_pos hd]⟩)
    · refine .inl ⟨by simp only [expire, hw, if_neg hd], fun _ h => ?_⟩
      cases h
      omega
  | parting deadline =>
    by_cases hd : deadline ≤ now
    · refine .inr (.inr ⟨deadline, .inl rfl, hd, ?_⟩)
      simp only [expire, hw, if_pos hd]
      exact retires_shut p now v
    · refine .inl ⟨by simp only [expire, hw, if_neg hd], fun _ h => ?_⟩
      cases h
      omega
  | closing deadline =>
    by_cases hd : deadline ≤ now
    · refine .inr (.inr ⟨deadline, .inr rfl, hd, ?_⟩)
      simp only [expire, hw, if_pos hd]
      exact .giveUp
    · refine .inl ⟨by simp only [expire, hw, if_neg hd], fun _ h => ?_⟩
      cases h
      omega

/-- What has room goes on, and what waits for room waits on. -/
theorem release_cases (v : Served) :
    (v.release = v ∧ ∀ deadline, v.socket.writer.wait? = some deadline → v.isDone = false) ∨
      (∃ deadline due, v.socket.writer = .blocked deadline due ∧
        (v.socket.pipe.gone = true ∧ v.release = v.failWriter ∨
          v.socket.pipe.gone = false ∧ v.socket.pipe.isOverfull = false ∧
            v.release = v.withWriter (.ready due))) ∨
      ∃ deadline, (v.socket.writer = .parting deadline ∨ v.socket.writer = .closing deadline) ∧
        v.release = v.endWriter := by
  cases hw : v.socket.writer with
  | ready _ | ended => exact .inl ⟨by simp only [release, hw], fun _ h => by cases h⟩
  | blocked deadline due =>
    rcases hg : v.socket.pipe.gone with - | -
    · rcases ho : v.socket.pipe.isOverfull with - | -
      · exact .inr (.inl ⟨deadline, due, rfl, .inr ⟨rfl, rfl, by simp [release, hw, hg, ho]⟩⟩)
      · exact .inl ⟨by simp [release, hw, hg, ho], fun _ _ => by simp [isDone, hg, ho]⟩
    · exact .inr (.inl ⟨deadline, due, rfl, .inl ⟨rfl, by simp [release, hw, hg]⟩⟩)
  | parting deadline =>
    rcases hd : v.isDone with - | -
    · exact .inl ⟨by simp [release, hw, hd], fun _ _ => rfl⟩
    · exact .inr (.inr ⟨deadline, .inl rfl, by simp [release, hw, hd]⟩)
  | closing deadline =>
    rcases hd : v.isDone with - | -
    · exact .inl ⟨by simp [release, hw, hd], fun _ _ => rfl⟩
    · exact .inr (.inr ⟨deadline, .inr rfl, by simp [release, hw, hd]⟩)

/-! ### What is for good -/

/-- A turn of a socket does not change whom it serves, what has closed or ended stays so, and
nothing is held in a way that is broken off if nothing was. -/
structure Onward (v v' : Served) : Prop where
  standing : v'.connection.standing = v.connection.standing
  closed : v.connection.closed = true → v'.connection.closed = true
  line : v'.socket.line = v.socket.line
  finished : v'.socket.finished = v.socket.finished
  reader : v.socket.reader = .ended → v'.socket.reader = .ended
  writer : v.socket.writer = .ended → v'.socket.writer = .ended
  void : v.socket.pipe.Void → v'.socket.pipe.Void

theorem Onward.refl (v : Served) : Onward v v := ⟨rfl, id, rfl, rfl, id, id, id⟩

/-- What one change takes back no other has to. -/
theorem Onward.trans (h : Onward v v') (h' : Onward v' v'') : Onward v v'' where
  standing := h'.standing.trans h.standing
  closed := h'.closed ∘ h.closed
  line := h'.line.trans h.line
  finished := h'.finished.trans h.finished
  reader := h'.reader ∘ h.reader
  writer := h'.writer ∘ h.writer
  void := h'.void ∘ h.void

/-- To close a connection takes nothing back. -/
theorem onward_close (v : Served) : Onward v { v with connection := v.connection.close.2 } :=
  ⟨rfl, fun _ => rfl, rfl, rfl, id, id, id⟩

/-- Nor does the end of the writer. -/
theorem onward_endWriter (v : Served) : Onward v v.endWriter :=
  ⟨rfl, id, rfl, rfl, id, fun _ => rfl, id⟩

theorem onward_failWriter (v : Served) : Onward v v.failWriter :=
  (onward_close v).trans (onward_endWriter _)

/-- A change of the way keeps what holds of it: that nothing is held in one that is broken off. -/
theorem onward_withPipe {pipe : Pipe} (h : v.socket.pipe.Void → pipe.Void) :
    Onward v (v.withPipe pipe) :=
  ⟨rfl, id, rfl, rfl, id, id, h⟩

theorem onward_put (v : Served) (f : Outgoing) : Onward v (v.withPipe (v.socket.pipe.put f)) :=
  onward_withPipe fun h => h.put f

theorem onward_cut (v : Served) : Onward v (v.withPipe v.socket.pipe.cut) :=
  onward_withPipe Pipe.Void.cut

/-- A writer that has not ended may come to any state. -/
theorem onward_withWriter {w : Writer} (h : v.socket.writer ≠ .ended) : Onward v (v.withWriter w) :=
  ⟨rfl, id, rfl, rfl, id, fun e => absurd e h, id⟩

/-- A reader that waits anew, or breaks down over it, has not ended before. -/
theorem onward_extend (p : Policy) (v : Served) : Onward v (v.extend p) := by
  rw [extend]
  cases hr : v.socket.reader with
  | reading _ => exact ⟨rfl, id, rfl, rfl, fun e => absurd (hr.symm.trans e) (by simp), id, id⟩
  | ended => exact .refl v

theorem onward_touch (now : Nat) (v : Served) :
    Onward v { v with connection := v.connection.touch now } :=
  ⟨rfl, id, rfl, rfl, id, id, id⟩

/-- No act of sending takes anything back. -/
theorem Sends.onward (h : Sends p now v v') : Onward v v' := by
  cases h with
  | fail _ _ => exact onward_failWriter v
  | put f _ _ => exact onward_put v f
  | block f hw _ _ =>
    refine (onward_put v f).trans (onward_withWriter ?_)
    show v.socket.writer ≠ .ended
    simp [hw]
  | rearm _ hw => exact onward_withWriter (by simp [hw])
  | take outbox => exact ⟨rfl, id, rfl, rfl, id, id, id⟩
  | sign _ => exact (onward_touch now v).trans (onward_extend p _)

theorem onward_send (p : Policy) (now : Nat) (v : Served) : Onward v (v.send p now) :=
  (sending_send p now v).keeps (P := Onward v) (fun hs h => h.trans hs.onward) (.refl v)

theorem onward_lapse (now : Nat) (v : Served) : Onward v (v.lapse now) := by
  rw [lapse]
  split
  · split
    · exact onward_close v
    · exact .refl v
  · exact .refl v

theorem onward_endReader (v : Served) : Onward v v.endReader := by
  rw [endReader]
  split
  · exact ⟨rfl, id, rfl, rfl, fun _ => rfl, id, id⟩
  · exact .refl v

/-- Neither does a writer that goes on as there is room, or ends. -/
theorem onward_release (v : Served) : Onward v v.release := by
  rcases release_cases v with ⟨e, -⟩ | ⟨deadline, due, hw, ⟨-, e⟩ | ⟨-, -, e⟩⟩ | ⟨deadline, -, e⟩
  · rw [e]
    exact .refl v
  · rw [e]
    exact onward_failWriter v
  · rw [e]
    exact onward_withWriter (by simp [hw])
  · rw [e]
    exact onward_endWriter v

/-- Nor one that takes its leave. -/
theorem Retires.onward (h : Retires p now t v v') (hw : v.socket.writer ≠ .ended) :
    Onward v v' := by
  cases h with
  | done => exact onward_endWriter v
  | giveUp => exact (onward_cut v).trans (onward_endWriter _)
  | await w _ _ _ => exact onward_withWriter hw

theorem Closes.onward (h : Closes v v') : Onward v v' := by
  cases h with
  | nothing => exact .refl v
  | frame f => exact onward_put v (.close f)

/-- The closing of a connection leaves the writer to itself. -/
theorem Closes.writer (h : Closes v v') : v'.socket.writer = v.socket.writer := by
  cases h <;> rfl

theorem onward_part (p : Policy) (now : Nat) (v : Served) : Onward v (v.part p now) := by
  rcases part_cases p now v with ⟨e, -⟩ | ⟨-, ⟨due, hw⟩, u, hu, hr⟩
  · rw [e]
    exact .refl v
  · exact hu.onward.trans (hr.onward (by simp [hu.writer, hw]))

theorem onward_expire (p : Policy) (now : Nat) (v : Served) : Onward v (v.expire p now) := by
  rcases expire_cases p now v with ⟨e, -⟩ | ⟨deadline, due, hw, -, e⟩ | ⟨deadline, hw, -, hr⟩
  · rw [e]
    exact .refl v
  · rw [e]
    exact (onward_cut v).trans (onward_failWriter _)
  · exact hr.onward (by rcases hw with hw | hw <;> simp [hw])

theorem onward_runReader (now : Nat) (v : Served) : Onward v (v.runReader now) :=
  (onward_lapse now v).trans (onward_endReader _)

/-- **No turn takes anything back**: what is closed or has ended stays so. -/
theorem onward_run (p : Policy) (now : Nat) (v : Served) : Onward v (v.run p now) := by
  rw [run_eq]
  exact (((((onward_runReader now v).trans (onward_release _)).trans (onward_part p now _)).trans
    (onward_send p now _)).trans (onward_expire p now _)).trans (onward_endReader _)

/-! ### Deadlines -/

/-- What waits for room does so for no longer than is allowed. -/
def Timely (p : Policy) (now : Nat) (v : Served) : Prop :=
  ∀ deadline, v.socket.writer.wait? = some deadline → deadline ≤ now + p.writeWait

/-- The deadlines are those of the writer, whatever becomes of the rest. -/
theorem Timely.of_writer (h : v.Timely p now) (hw : v'.socket.writer = v.socket.writer) :
    v'.Timely p now := fun deadline e => h deadline (hw ▸ e)

theorem timely_endWriter (v : Served) : v.endWriter.Timely p now := by
  intro _ e
  cases e

/-- The reader waits anew without the writer. -/
theorem writer_extend (p : Policy) (v : Served) :
    (v.extend p).socket.writer = v.socket.writer := by
  rw [extend]
  split <;> rfl

/-- A frame that comes to wait now does so no longer than is allowed. -/
theorem Sends.timely (h : Sends p now v v') (ht : v.Timely p now) : v'.Timely p now := by
  cases h with
  | fail _ _ => exact timely_endWriter _
  | put _ _ _ => exact ht
  | block _ _ _ _ =>
    -- the one deadline that is set
    intro _ e
    cases e
    exact p.writeBy_le now
  | rearm _ _ =>
    intro _ e
    cases e
  | take _ => exact ht
  | sign _ => exact ht.of_writer (writer_extend p _)

/-- A writer that goes on has no deadline any more. -/
theorem Timely.release (h : v.Timely p now) : v.release.Timely p now := by
  rcases release_cases v with ⟨e, -⟩ | ⟨deadline, due, -, ⟨-, e⟩ | ⟨-, -, e⟩⟩ | ⟨deadline, -, e⟩
  · rw [e]
    exact h
  · rw [e]
    exact timely_endWriter _
  · rw [e]
    intro _ e'
    cases e'
  · rw [e]
    exact timely_endWriter v

/-- A writer that takes its leave sets no deadline that is later than is allowed. -/
theorem Retires.timely (h : Retires p now t v v') : v'.Timely p now := by
  cases h with
  | done => exact timely_endWriter v
  | giveUp => exact timely_endWriter _
  | await w _ hwait _ =>
    intro deadline e
    obtain rfl : p.writeBy now = deadline := Option.some.inj (hwait.symm.trans e)
    exact p.writeBy_le now

theorem Timely.part (h : v.Timely p now) : (v.part p now).Timely p now := by
  rcases part_cases p now v with ⟨e, -⟩ | ⟨-, -, u, -, hr⟩
  · rw [e]
    exact h
  · exact hr.timely

theorem Timely.expire (h : v.Timely p now) : (v.expire p now).Timely p now := by
  rcases expire_cases p now v with ⟨e, -⟩ | ⟨-, -, -, -, e⟩ | ⟨-, -, -, hr⟩
  · rw [e]
    exact h
  · rw [e]
    exact timely_endWriter _
  · exact hr.timely

theorem writer_endReader (v : Served) : v.endReader.socket.writer = v.socket.writer := by
  rw [endReader]
  split <;> rfl

/-- The reader does what is due without the writer. -/
theorem writer_runReader (now : Nat) (v : Served) :
    (v.runReader now).socket.writer = v.socket.writer := by
  have hl : (v.lapse now).socket = v.socket := by
    rw [lapse]
    split
    · split <;> rfl
    · rfl
  rw [runReader, writer_endReader, hl]

/-- A turn keeps the deadlines, and sets none that is later than is allowed. -/
theorem Timely.run (h : v.Timely p now) : (v.run p now).Timely p now := by
  have hreader : (v.runReader now).Timely p now := h.of_writer (writer_runReader now v)
  have hsend := (sending_send p now _).keeps (P := fun v => v.Timely p now)
    (fun hs ht => hs.timely ht) hreader.release.part
  rw [run_eq]
  exact hsend.expire.of_writer (writer_endReader _)

/-! ### Pumps that work -/

/-- The connection is closed, or the writer works. -/
def Writes (v : Served) : Prop := v.connection.closed = true ∨ v.socket.writer.Works

/-- A writer that works does so whatever becomes of the rest. -/
theorem Writes.of_writer (h : v.Writes) (ho : Onward v v')
    (hw : v'.socket.writer = v.socket.writer) : v'.Writes :=
  h.imp ho.closed fun h => hw ▸ h

/-- Whoever fails closes the connection, and all else that is sent leaves the writer at work. -/
theorem Sends.writes (h : Sends p now v v') (hw : v.Writes) : v'.Writes := by
  cases h with
  | fail _ _ => exact .inl rfl
  | put _ _ _ => exact hw
  | block _ _ _ _ => exact .inr trivial
  | rearm _ _ => exact .inr trivial
  | take _ => exact hw
  | sign hr ha => exact hw.of_writer (Sends.sign hr ha).onward (writer_extend p _)

/-- So does one that goes on as there is room. -/
theorem Writes.release (h : v.Writes) : v.release.Writes := by
  rcases release_cases v with ⟨e, -⟩ | ⟨deadline, due, -, ⟨-, e⟩ | ⟨-, -, e⟩⟩ | ⟨deadline, hw, e⟩
  · rw [e]
    exact h
  · rw [e]
    exact .inl rfl
  · rw [e]
    exact .inr trivial
  · -- it takes its leave, which it does only from a connection that is closed
    rw [e]
    refine .inl (h.resolve_right fun hworks => ?_)
    rcases hw with hw | hw <;> exact (hw ▸ hworks : Writer.Works _)

/-- Only a writer whose connection is closed takes its leave. -/
theorem Writes.part (h : v.Writes) : (v.part p now).Writes := by
  rcases part_cases p now v with ⟨e, -⟩ | ⟨hc, -⟩
  · rw [e]
    exact h
  · exact .inl ((onward_part p now v).closed hc)

theorem Writes.expire (h : v.Writes) : (v.expire p now).Writes := by
  rcases expire_cases p now v with ⟨e, -⟩ | ⟨-, -, -, -, e⟩ | ⟨deadline, hw, -, -⟩
  · rw [e]
    exact h
  · rw [e]
    exact .inl rfl
  · refine .inl ((onward_expire p now v).closed (h.resolve_right fun hworks => ?_))
    rcases hw with hw | hw <;> exact (hw ▸ hworks : Writer.Works _)

/-- In a turn no writer ends but by the closing of the connection. -/
theorem Writes.run (h : v.Writes) : (v.run p now).Writes := by
  have hreader : (v.runReader now).Writes :=
    h.of_writer (onward_runReader now v) (writer_runReader now v)
  have hpart : (((v.runReader now).release).part p now).Writes := hreader.release.part
  have hsend := (sending_send p now _).keeps (P := Writes) (fun hs hw => hs.writes hw) hpart
  rw [run_eq]
  exact hsend.expire.of_writer (onward_endReader _) (writer_endReader _)

/-- A writer takes its leave only if the connection is closed. -/
def Loyal (v : Served) : Prop := v.Writes ∨ v.socket.writer = .ended

/-- A writer is as loyal as it was, whatever becomes of the rest. -/
theorem Loyal.of_writer (h : v.Loyal) (ho : Onward v v')
    (hw : v'.socket.writer = v.socket.writer) : v'.Loyal :=
  h.imp (fun h => h.of_writer ho hw) ho.writer

/-- **A turn ends no writer** of a connection that stays open. -/
theorem Loyal.run (h : v.Loyal) : (v.run p now).Loyal :=
  h.imp Writes.run (onward_run p now v).writer

/-! ### After a turn -/

theorem isDone_eq_false : v.isDone = false ↔
    v.socket.pipe.isOverfull = true ∧ v.socket.pipe.gone = false := by
  rw [isDone]
  cases v.socket.pipe.gone <;> cases v.socket.pipe.isOverfull <;> simp

/-- With the connection closed no writer is ready. -/
def Parted (v : Served) : Prop :=
  v.connection.closed = true → ∀ due, v.socket.writer ≠ .ready due

/-- What waits for room has found none. -/
def Stuck (v : Served) : Prop :=
  ∀ deadline, v.socket.writer.wait? = some deadline → v.isDone = false

/-- What waits for room has found none, and its time is not over. -/
def Waits (now : Nat) (v : Served) : Prop :=
  ∀ deadline, v.socket.writer.wait? = some deadline → v.isDone = false ∧ now < deadline

/-- A socket at rest.  With its connection closed no reader is left, and no writer but one that
waits for room. -/
structure Quiet (now : Nat) (v : Served) : Prop where
  reader : v.connection.closed = true → v.socket.reader = .ended
  parted : v.Parted
  waits : v.Waits now

theorem parted_of_ended (h : v.socket.writer = .ended) : v.Parted := by
  intro _ due e
  cases h.symm.trans e

/-- A writer that has ended does not wait for anything. -/
theorem stuck_of_ended (h : v.socket.writer = .ended) : v.Stuck := by
  intro deadline e
  rw [h] at e
  cases e

theorem waits_of_ended (h : v.socket.writer = .ended) : v.Waits now := by
  intro deadline e
  rw [h] at e
  cases e

/-- A writer that takes its leave waits only if there is no room. -/
theorem Retires.stuck (h : Retires p now t v v') : v'.Stuck := by
  cases h with
  | done => exact stuck_of_ended rfl
  | giveUp => exact stuck_of_ended rfl
  | await w hroom _ _ => exact fun _ _ => hroom

/-- After its leave no writer of a closed connection works. -/
theorem parted_part (p : Policy) (now : Nat) (v : Served) : (v.part p now).Parted := by
  rcases part_cases p now v with ⟨e, hready⟩ | ⟨-, -, u, -, hr⟩
  · rw [e]
    exact hready
  · exact fun _ => hr.not_ready

/-- Nothing that is sent brings it back to work. -/
theorem Sends.parted (h : Sends p now v v') (hp : v.Parted) : v'.Parted := by
  cases h with
  | fail _ _ => exact parted_of_ended rfl
  | put _ hw _ => exact hp
  | block _ hw _ _ => exact fun hc => absurd hw (hp hc _)
  | rearm _ hw => exact fun hc => absurd hw (hp hc _)
  | take _ => exact hp
  | sign hr _ =>
    rw [extend, hr]
    exact hp

theorem Parted.expire (h : v.Parted) : (v.expire p now).Parted := by
  rcases expire_cases p now v with ⟨e, -⟩ | ⟨-, -, -, -, e⟩ | ⟨-, -, -, hr⟩
  · rw [e]
    exact h
  · rw [e]
    exact parted_of_ended rfl
  · exact fun _ => hr.not_ready

/-- A writer that still waits when it could have gone on finds no room. -/
theorem stuck_release (v : Served) : v.release.Stuck := by
  rcases release_cases v with ⟨e, hroom⟩ | ⟨deadline, due, -, ⟨-, e⟩ | ⟨-, -, e⟩⟩ | ⟨-, -, e⟩
  · rw [e]
    exact hroom
  · rw [e]
    exact stuck_of_ended rfl
  · rw [e]
    intro _ e'
    cases e'
  · rw [e]
    exact stuck_of_ended rfl

theorem Stuck.part (h : v.Stuck) : (v.part p now).Stuck := by
  rcases part_cases p now v with ⟨e, -⟩ | ⟨-, -, u, -, hr⟩
  · rw [e]
    exact h
  · exact hr.stuck

/-- A writer waits for no frame that has found room. -/
theorem Sends.stuck (h : Sends p now v v') (hs : v.Stuck) : v'.Stuck := by
  cases h with
  | fail _ _ => exact stuck_of_ended rfl
  | put _ hw _ =>
    intro _ e
    rw [withPipe, hw] at e
    cases e
  | block f _ hg ho => exact fun _ _ => isDone_eq_false.2 ⟨ho, (Pipe.gone_put _ f).trans hg⟩
  | rearm _ _ =>
    intro _ e
    cases e
  | take _ => exact hs
  | sign hr _ =>
    rw [extend, hr]
    exact hs

/-- The closing of the way is only waited for if there is time. -/
theorem lt_of_wait_shut {deadline : Nat}
    (h : (v.shut p now).socket.writer.wait? = some deadline) : now < deadline := by
  rw [shut] at h
  split at h
  · cases h
  · split at h
    · cases h
    · rename_i hwait
      cases h
      exact p.lt_writeBy hwait now

/-- After what has waited for too long has failed, every wait goes on for some time. -/
theorem lt_of_wait_expire {deadline : Nat}
    (h : (v.expire p now).socket.writer.wait? = some deadline) : now < deadline := by
  rcases expire_cases p now v with ⟨e, hlt⟩ | ⟨-, -, -, -, e⟩ | ⟨deadline', hw | hw, hle, -⟩
  · exact hlt deadline (e ▸ h)
  · rw [e] at h
    cases h
  · simp only [expire, hw, if_pos hle] at h
    exact lt_of_wait_shut h
  · simp only [expire, hw, if_pos hle] at h
    cases h

/-- After the expiry nothing waits whose time is over. -/
theorem Stuck.expire (h : v.Stuck) : (v.expire p now).Waits now := by
  refine fun deadline e => ⟨?_, lt_of_wait_expire e⟩
  rcases expire_cases p now v with ⟨e', -⟩ | ⟨-, -, -, -, e'⟩ | ⟨-, -, -, hr⟩
  · rw [e'] at e ⊢
    exact h deadline e
  · rw [e'] at e
    cases e
  · exact hr.stuck deadline e

/-- **After its turn a socket is quiet.** -/
theorem quiet_run (p : Policy) (now : Nat) (v : Served) : (v.run p now).Quiet now := by
  have hsend := sending_send p now (((v.runReader now).release).part p now)
  have hparted := hsend.keeps (P := Parted) (fun hs hp => hs.parted hp) (parted_part p now _)
  have hstuck := hsend.keeps (P := Stuck) (fun hs hw => hs.stuck hw) (stuck_release _).part
  rw [run_eq, endReader]
  split
  · exact ⟨fun _ => rfl, hparted.expire, hstuck.expire⟩
  · rename_i hopen
    exact ⟨fun hc => absurd hc hopen, hparted.expire, hstuck.expire⟩

end Served

end Switchboard
