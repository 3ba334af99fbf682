/-
Switchboard/Proofs/Socket/Deadline.lean

The deadline of the reader through the turns of a socket.

Within a turn there is one thing that moves the deadline of a reader: a probe
that comes to a client which answers probes.  From then on the reader waits
anew, if the clock can tell until when, and breaks down if not; one that has
ended before stays as it is.  `Awaiting` keeps account of it by the number of
probes that have come to the client, so that the answer can be told from outside.

`Expects.turn` says that a turn keeps the account.  So a turn ends no pump of a
connection that stays open, except that a reader breaks down over an answer
(`turn_of_works`).
-/
import Switchboard.Proofs.Service.Stir
import Switchboard.Proofs.Socket.Turns

namespace Switchboard.Served

variable {p : Policy} {a : Bool} {n t now : Nat} {r : Reader} {v v' : Served}

/-- How many probes have come to the client. -/
def probed (v : Served) : Nat := v.socket.pipe.received.count .ping

/-- Is an answer of the client read: does it answer probes, have more than `n` come to it, and was
the reader not at its end before? -/
def Heard (a : Bool) (n : Nat) (r : Reader) (v : Served) : Prop :=
  a = true ∧ n < v.probed ∧ r ≠ .ended

instance (a : Bool) (n : Nat) (r : Reader) (v : Served) : Decidable (v.Heard a n r) :=
  inferInstanceAs (Decidable (_ ∧ _))

/-- The reader is as it was, and the last sign of life was at the time `t`, unless there is an
answer to one of the probes after the first `n`: then it was given now, and the reader waits
anew. -/
structure Awaiting (p : Policy) (a : Bool) (n t now : Nat) (r : Reader) (v : Served) : Prop where
  reader : v.socket.reader = if v.Heard a n r then .upTo p (now + p.readWait) else r
  answersProbes : v.socket.answersProbes = a
  probed : n ≤ v.probed
  lastSeen : v.connection.lastSeen = if v.Heard a n r then now else t

/-- The connection is closed, or the account of its reader is kept. -/
def Expects (p : Policy) (a : Bool) (n t now : Nat) (r : Reader) (v : Served) : Prop :=
  v.connection.closed = true ∨ v.Awaiting p a n t now r

/-- Whether the client is heard depends on the probes that have come to it. -/
theorem heard_congr (h : v'.probed = v.probed) : v'.Heard a n r ↔ v.Heard a n r := by
  rw [Heard, Heard, h]

/-- Nobody is heard by a reader that has ended, or without a probe. -/
theorem not_heard_of_le (h : v.probed ≤ n) : ¬ v.Heard a n r :=
  fun hb => absurd hb.2.1 (Nat.not_lt.2 h)

/-- If there is no answer, nothing has changed for the reader. -/
theorem awaiting_of_not_heard (ha : v.socket.answersProbes = a) (hn : n ≤ v.probed)
    (hno : ¬ v.Heard a n v.socket.reader) :
    v.Awaiting p a n v.connection.lastSeen now v.socket.reader :=
  ⟨(if_neg hno).symm, ha, hn, (if_neg hno).symm⟩

/-- Before anything has come to the client all is as it was. -/
theorem awaiting_self (v : Served) (p : Policy) (now : Nat) :
    v.Awaiting p v.socket.answersProbes v.probed v.connection.lastSeen now v.socket.reader :=
  awaiting_of_not_heard rfl (Nat.le_refl _) (not_heard_of_le (Nat.le_refl _))

/-! ### What leaves the deadline alone -/

/-- Nothing changes for the reader, and no probe comes to the client. -/
structure Unmoved (v v' : Served) : Prop where
  closed : v.connection.closed = true → v'.connection.closed = true
  lastSeen : v'.connection.lastSeen = v.connection.lastSeen
  reader : v'.socket.reader = v.socket.reader
  answersProbes : v'.socket.answersProbes = v.socket.answersProbes
  probed : v'.probed = v.probed

theorem Unmoved.refl (v : Served) : Unmoved v v := ⟨id, rfl, rfl, rfl, rfl⟩

theorem Unmoved.trans {v'' : Served} (h : Unmoved v v') (h' : Unmoved v' v'') : Unmoved v v'' :=
  ⟨h'.closed ∘ h.closed, h'.lastSeen.trans h.lastSeen, h'.reader.trans h.reader,
    h'.answersProbes.trans h.answersProbes, h'.probed.trans h.probed⟩

/-- What leaves the reader alone keeps its account. -/
theorem Awaiting.unmoved (h : v.Awaiting p a n t now r) (hu : Unmoved v v') :
    v'.Awaiting p a n t now r where
  reader := by simp only [hu.reader, heard_congr hu.probed, h.reader]
  answersProbes := hu.answersProbes.trans h.answersProbes
  probed := hu.probed.symm ▸ h.probed
  lastSeen := by simp only [hu.lastSeen, heard_congr hu.probed, h.lastSeen]

theorem Expects.unmoved (h : v.Expects p a n t now r) (hu : Unmoved v v') :
    v'.Expects p a n t now r :=
  h.imp hu.closed fun ha => ha.unmoved hu

/-- Whatever is sent that is no probe is none when it comes to the client. -/
theorem probed_put {f : Outgoing} (hf : f ≠ .ping) (v : Served) :
    (v.withPipe (v.socket.pipe.put f)).probed = v.probed := by
  have hcount : [f].count Outgoing.ping = 0 := by simp [hf]
  show (v.socket.pipe.put f).received.count _ = _
  rw [Pipe.put]
  split_ifs
  · rfl
  · show (v.socket.pipe.received ++ [f]).count _ = _
    rw [List.count_append, hcount]
    rfl
  · rfl

/-- Nor is anything else that is put into the way a matter for the reader. -/
theorem unmoved_put {f : Outgoing} (hf : f ≠ .ping) (v : Served) :
    Unmoved v (v.withPipe (v.socket.pipe.put f)) :=
  ⟨id, rfl, rfl, rfl, probed_put hf v⟩

theorem unmoved_withWriter (v : Served) (w : Writer) : Unmoved v (v.withWriter w) :=
  ⟨id, rfl, rfl, rfl, rfl⟩

theorem unmoved_failWriter (v : Served) : Unmoved v v.failWriter :=
  ⟨fun _ => rfl, rfl, rfl, rfl, rfl⟩

theorem unmoved_write {f : Outgoing} (hf : f ≠ .ping) (v : Served) :
    Unmoved v (v.write p now f) := by
  rw [write]
  split
  · split
    · exact unmoved_failWriter v
    · dsimp only
      split
      · exact (unmoved_put hf v).trans (unmoved_withWriter _ _)
      · exact unmoved_put hf v
  · exact .refl v

/-- Messages are no probes. -/
theorem unmoved_message (v : Served) : Unmoved v (v.message p now) := by
  rw [message]
  split
  · rename_i m outbox _ _
    have htaken : Unmoved v { v with connection := { v.connection with outbox } } :=
      ⟨id, rfl, rfl, rfl, rfl⟩
    exact htaken.trans (unmoved_write (by simp) _)
  · exact .refl v

theorem unmoved_messages (k : Nat) (v : Served) : Unmoved v (v.messages p now k) := by
  induction k generalizing v with
  | zero => exact .refl v
  | succ k ih => exact (unmoved_message v).trans (ih _)

/-- A reader whose time is over closes the connection, and is not counted any more. -/
theorem unmoved_lapse (v : Served) : Unmoved v (v.lapse now) := by
  rw [lapse]
  split
  · split
    · exact ⟨fun _ => rfl, rfl, rfl, rfl, rfl⟩
    · exact .refl v
  · exact .refl v

/-- A writer that goes on sends nothing by that. -/
theorem unmoved_release (v : Served) : Unmoved v v.release := by
  rcases release_cases v with ⟨e, -⟩ | ⟨_, due, -, ⟨-, e⟩ | ⟨-, -, e⟩⟩ | ⟨-, -, e⟩
  · rw [e]
    exact .refl v
  · rw [e]
    exact unmoved_failWriter v
  · rw [e]
    exact unmoved_withWriter v _
  · rw [e]
    exact ⟨id, rfl, rfl, rfl, rfl⟩

/-- What a writer gives up as it retires has never come to the client. -/
theorem Retires.unmoved (h : Retires p now t v v') : Unmoved v v' := by
  cases h <;> exact ⟨id, rfl, rfl, rfl, rfl⟩

theorem unmoved_expire (v : Served) : Unmoved v (v.expire p now) := by
  have hcut : Unmoved v (v.withPipe v.socket.pipe.cut) := ⟨id, rfl, rfl, rfl, rfl⟩
  rcases expire_cases p now v with ⟨e, -⟩ | ⟨-, -, -, -, e⟩ | ⟨-, -, -, hr⟩
  · rw [e]
    exact .refl v
  · rw [e]
    exact hcut.trans (unmoved_failWriter _)
  · exact hr.unmoved

/-! ### What is read -/

/-- Whatever is read has the deadline follow the last sign of life. -/
theorem reader_extend {deadline : Nat} (hr : v.socket.reader = .reading deadline) :
    (v.extend p).socket.reader = .upTo p (v.connection.lastSeen + p.readWait) := by
  rw [extend, hr]

theorem connection_extend (p : Policy) (v : Served) : (v.extend p).connection = v.connection := by
  rw [extend]
  split <;> rfl

theorem pipe_extend (p : Policy) (v : Served) : (v.extend p).socket.pipe = v.socket.pipe := by
  rw [extend]
  split <;> rfl

theorem probed_extend (p : Policy) (v : Served) : (v.extend p).probed = v.probed :=
  congrArg (fun pipe => pipe.received.count .ping) (pipe_extend p v)

theorem answersProbes_extend (p : Policy) (v : Served) :
    (v.extend p).socket.answersProbes = v.socket.answersProbes := by
  rw [extend]
  split <;> rfl

/-- A reader that goes on notes the sign and waits anew. -/
theorem signOfLife_of_reading {deadline : Nat} (hr : v.socket.reader = .reading deadline) :
    v.signOfLife p now = ({ v with connection := v.connection.touch now } : Served).extend p := by
  rw [signOfLife, hr]

/-- Nobody notes it otherwise. -/
theorem signOfLife_of_ended (hr : v.socket.reader = .ended) : v.signOfLife p now = v := by
  rw [signOfLife, hr]

/-! ### Probes -/

/-- A frame that is written goes into the pipe, or the connection is closed. -/
theorem write_cases {due : Nat} (hw : v.socket.writer = .ready due) (p : Policy) (now : Nat)
    (f : Outgoing) : (v.write p now f).connection.closed = true ∨ v.socket.pipe.gone = false ∧
      ∃ w : Writer, v.write p now f = (v.withPipe (v.socket.pipe.put f)).withWriter w := by
  rw [write]
  simp only [hw]
  by_cases hg : v.socket.pipe.gone = true
  · rw [if_pos hg]
    exact .inl rfl
  · rw [if_neg hg]
    refine .inr ⟨Bool.eq_false_iff.2 hg, ?_⟩
    split
    · exact ⟨_, rfl⟩
    · -- the writer is as it was
      exact ⟨v.socket.writer, rfl⟩

/-- Whoever reads still has read before. -/
theorem Awaiting.ne_ended {deadline : Nat} (h : v.Awaiting p a n t now r)
    (hreader : v.socket.reader = .reading deadline) : r ≠ .ended := by
  intro hr
  rw [h.reader, if_neg fun hb => hb.2.2 hr, hr] at hreader
  cases hreader

/-- **The answer to a further probe** that has come to the client, if anybody reads it. -/
theorem Awaiting.answered (h : v.Awaiting p a n t now r) (ha : a = true) (hlt : n < v'.probed)
    (hreader : v'.socket.reader = v.socket.reader)
    (hseen : v'.connection.lastSeen = v.connection.lastSeen)
    (hanswers : v'.socket.answersProbes = v.socket.answersProbes) :
    (v'.signOfLife p now).Awaiting p a n t now r := by
  cases hr : v.socket.reader with
  | reading deadline =>
    rw [signOfLife_of_reading (hreader.trans hr)]
    have hread : (({ v' with connection := v'.connection.touch now } : Served).extend p).Heard a n
        r := ⟨ha, (probed_extend _ _).symm ▸ hlt, h.ne_ended hr⟩
    refine ⟨?_, ?_, Nat.le_of_lt hread.2.1, ?_⟩
    · rw [if_pos hread]
      exact reader_extend (hreader.trans hr)
    · rw [answersProbes_extend]
      exact hanswers.trans h.answersProbes
    · rw [if_pos hread, connection_extend]
      rfl
  | ended =>
    rw [signOfLife_of_ended (hreader.trans hr)]
    by_cases hend : r = .ended
    · -- nobody has read since before
      have hno : ∀ u : Served, ¬ u.Heard a n r := fun _ hb => hb.2.2 hend
      refine ⟨?_, hanswers.trans h.answersProbes, Nat.le_of_lt hlt, ?_⟩
      · rw [if_neg (hno _), hreader, hr, hend]
      · rw [if_neg (hno _), hseen, h.lastSeen, if_neg (hno _)]
    · -- the reader has broken down over an answer that was given now
      have hread : v.Heard a n r := by
        by_contra hno
        rw [h.reader, if_neg hno] at hr
        exact hend hr
      have hread' : v'.Heard a n r := ⟨ha, hlt, hend⟩
      refine ⟨?_, hanswers.trans h.answersProbes, Nat.le_of_lt hlt, ?_⟩
      · rw [if_pos hread', hreader, h.reader, if_pos hread]
      · rw [if_pos hread', hseen, h.lastSeen, if_pos hread]

/-- A probe that comes to a client which answers it is a sign of life. -/
theorem Awaiting.probe_put (h : v.Awaiting p a n t now r) (hg : v.socket.pipe.gone = false)
    (w : Writer) :
    (((v.withPipe (v.socket.pipe.put .ping)).withWriter w).answerProbe p now).Awaiting
      p a n t now r := by
  have hn := h.probed
  by_cases htaking : v.socket.pipe.taking = true
  · -- it comes to the client at once
    have hput : v.socket.pipe.put .ping =
        { v.socket.pipe with received := v.socket.pipe.received ++ [.ping] } := by
      rw [Pipe.put, if_neg (by simp [hg]), if_pos htaking]
    have hlt : n < ((v.withPipe (v.socket.pipe.put .ping)).withWriter w).probed := by
      have hcount : (v.socket.pipe.received ++ [Outgoing.ping]).count .ping = v.probed + 1 := by
        rw [List.count_append]
        rfl
      show n < (v.socket.pipe.put .ping).received.count .ping
      rw [hput]
      exact hcount.symm ▸ Nat.lt_succ_of_le hn
    by_cases ha : a = true
    · have ha' := h.answersProbes.trans ha
      have hanswer : ((v.withPipe (v.socket.pipe.put .ping)).withWriter w).answerProbe p now =
          ((v.withPipe (v.socket.pipe.put .ping)).withWriter w).signOfLife p now := by
        rw [answerProbe, hput]
        exact if_pos (by simp [withPipe, withWriter, ha', htaking, hg])
      rw [hanswer]
      exact h.answered ha hlt rfl rfl rfl
    · have ha' : v.socket.answersProbes = false :=
        h.answersProbes.trans (Bool.eq_false_iff.2 ha)
      have hanswer : ((v.withPipe (v.socket.pipe.put .ping)).withWriter w).answerProbe p now =
          (v.withPipe (v.socket.pipe.put .ping)).withWriter w := by
        rw [answerProbe]
        exact if_neg (by simp [withPipe, withWriter, ha'])
      have hno : ∀ v : Served, ¬ v.Heard a n r := fun _ hb => ha hb.1
      rw [hanswer]
      exact ⟨(h.reader.trans (if_neg (hno _))).trans (if_neg (hno _)).symm, h.answersProbes,
        Nat.le_of_lt hlt, (h.lastSeen.trans (if_neg (hno _))).trans (if_neg (hno _)).symm⟩
  · -- it is held back, and waits there to be answered
    have hput : v.socket.pipe.put .ping =
        { v.socket.pipe with held := v.socket.pipe.held ++ [.ping] } := by
      rw [Pipe.put, if_neg (by simp [hg]), if_neg htaking]
    have hanswer : ((v.withPipe (v.socket.pipe.put .ping)).withWriter w).answerProbe p now =
        (v.withPipe (v.socket.pipe.put .ping)).withWriter w := by
      rw [answerProbe, hput]
      exact if_neg (by simp [withPipe, withWriter, htaking])
    rw [hanswer, hput]
    exact h.unmoved ⟨id, rfl, rfl, rfl, rfl⟩

/-- **A probe** is answered at once, if the client does so. -/
theorem Expects.probe (h : v.Expects p a n t now r) : (v.probe p now).Expects p a n t now r := by
  rcases h with hc | h
  · exact .inl ((sending_probe p now v).keeps (P := fun v => v.connection.closed = true)
      (fun hs hc => hs.onward.closed hc) hc)
  · cases hw : v.socket.writer with
    | blocked | parting | closing | ended =>
      rw [Served.probe]
      simp only [hw]
      exact .inr h
    | ready due =>
      rw [Served.probe]
      simp only [hw]
      have harmed : (v.withWriter (.ready (due + p.probeEvery))).Awaiting p a n t now r :=
        h.unmoved (unmoved_withWriter v _)
      have hcases := write_cases (v := v.withWriter (.ready (due + p.probeEvery))) rfl p now .ping
      rcases hcases with hc | ⟨hg, w, hwrite⟩
      · exact .inl ((bears_answerProbe p now _).onward.closed hc)
      · rw [hwrite]
        exact .inr (harmed.probe_put hg w)

theorem Expects.probes (h : v.Expects p a n t now r) (k : Nat) :
    (v.probes p now k).Expects p a n t now r := by
  induction k generalizing v with
  | zero => exact h
  | succ k ih => exact ih h.probe

/-! ### Turns -/

/-- A farewell is no probe. -/
theorem Expects.part (h : v.Expects p a n t now r) : (v.part p now).Expects p a n t now r := by
  by_cases hc : v.connection.closed = true
  · exact .inl ((onward_part p now v).closed hc)
  · rw [part_of_open (Bool.eq_false_iff.2 hc)]
    exact h

theorem Expects.endReader (h : v.Expects p a n t now r) : v.endReader.Expects p a n t now r := by
  by_cases hc : v.connection.closed = true
  · exact .inl ((onward_endReader v).closed hc)
  · rw [Served.endReader, if_neg hc]
    exact h

/-- **A turn** keeps the account. -/
theorem Expects.run (h : v.Expects p a n t now r) : (v.run p now).Expects p a n t now r := by
  have hleft : ((v.runReader now).release.part p now).Expects p a n t now r :=
    ((h.unmoved (unmoved_lapse v)).endReader.unmoved (unmoved_release _)).part
  exact (((hleft.probes _).unmoved (unmoved_messages _ _)).unmoved (unmoved_expire _)).endReader

/-- **A turn keeps the account** of the last sign of life. -/
theorem Expects.turn (h : v.Expects p a n t now r) : (v.turn p now).Expects p a n t now r := by
  rw [Served.turn]
  split
  · exact .inl rfl
  · exact h.run

/-- **What a turn makes of pumps that work.**  It closes the connection, or the writer works on and
so does the reader, unless it breaks down over the answer to a probe. -/
theorem turn_of_works (hr : v.socket.reader ≠ .ended) (hw : v.socket.writer.Works)
    (hopen : (v.turn p now).connection.closed = false) :
    (v.turn p now).socket.writer.Works ∧ ((v.turn p now).socket.reader = .ended ↔
      v.socket.answersProbes = true ∧ v.probed < (v.turn p now).probed ∧ ¬ p.Reads now) := by
  have hrun : v.turn p now = v.run p now := by
    rw [turn] at hopen ⊢
    split at hopen
    · cases hopen
    · rename_i hno
      rw [if_neg hno]
  have hexpects : v.Expects p _ _ _ now _ := .inr (awaiting_self v p now)
  have hafter := hexpects.turn.resolve_left (by simp [hopen])
  refine ⟨?_, ?_⟩
  · rw [hrun] at hopen ⊢
    exact (Writes.run (.inr hw) : (v.run p now).Writes).resolve_left (by simp [hopen])
  · rw [hafter.reader]
    split
    · rename_i hanswered
      rw [Reader.upTo_eq_ended]
      exact ⟨fun hlate => ⟨hanswered.1, hanswered.2.1, hlate⟩, fun h => h.2.2⟩
    · rename_i hno
      exact iff_of_false hr fun h => hno ⟨h.1, h.2.1, hr⟩

/-- The reader has time for a client from whose last sign of life on it waits, as long as the time
is not over. -/
theorem Awaiting.inTime (h : v.Awaiting p a n t now (.upTo p (t + p.readWait))) (ht : t ≤ now)
    (hno : ¬ p.Lapsed t now) : v.InTime now := by
  have hlt : p.Reads t → now < t + p.readWait := Policy.not_lapsed_iff.1 hno
  intro deadline hd
  rw [h.reader] at hd
  split at hd
  · -- the reader waits from now on, and for some time
    rename_i hheard
    obtain rfl := Reader.upTo_eq_reading hd
    have hreads : p.Reads t := by
      by_contra hlate
      exact hheard.2.2 (Reader.upTo_eq_ended.2 hlate)
    have := hlt hreads
    omega
  · obtain rfl := Reader.upTo_eq_reading hd
    refine hlt ?_
    by_contra hlate
    cases hd.symm.trans (Reader.upTo_eq_ended.2 hlate)

/-- If the connection is open after a turn, the reader has time. -/
theorem Awaiting.inTime_turn (h : v.Awaiting p a n t now (.upTo p (t + p.readWait)))
    (ht : t ≤ now) (hopen : (v.turn p now).connection.closed = false) :
    (v.turn p now).InTime now := by
  have hin := inTime_of_open_turn hopen
  have hself : v.Expects p _ _ _ now _ := .inr (awaiting_self v p now)
  have hafter := hself.turn.resolve_left (by simp [hopen])
  intro deadline hd
  rw [hafter.reader] at hd
  split at hd
  · -- it has answered, and the reader had time before
    rename_i hheard
    obtain rfl := Reader.upTo_eq_reading hd
    cases hr : v.socket.reader with
    | ended => exact absurd hr hheard.2.2
    | reading deadline' =>
      have hlt := hin deadline' hr
      rw [h.reader] at hr
      split at hr
      · have := Reader.upTo_eq_reading hr
        omega
      · have := Reader.upTo_eq_reading hr
        omega
  · exact hin deadline hd

/-! ### What the client does -/

theorem closed_signOfLife (p : Policy) (now : Nat) (v : Served) :
    (v.signOfLife p now).connection.closed = v.connection.closed := by
  rw [signOfLife]
  split
  · rw [connection_extend]
    rfl
  · rfl

theorem closed_answerProbe (p : Policy) (now : Nat) (v : Served) :
    (v.answerProbe p now).connection.closed = v.connection.closed := by
  rw [answerProbe]
  split
  · exact closed_signOfLife p now v
  · rfl

/-- The client's own probe is answered, unless the way to it is broken off. -/
theorem echo_of_way (content : Bytes) (hg : v.socket.pipe.gone = false) :
    v.echo p content = (v.withPipe (v.socket.pipe.put (.pong content))).extend p := by
  have hgone : ((v.withPipe (v.socket.pipe.put (.pong content))).extend p).socket.pipe.gone =
      false := by
    rw [pipe_extend]
    exact (Pipe.gone_put _ _).trans hg
  rw [echo]
  split
  · rw [if_neg (by simp [hgone])]
  · rfl

/-- If it is, the connection is closed, or the reader has just broken down. -/
theorem echo_of_gone (content : Bytes) (hg : v.socket.pipe.gone = true)
    (hread : ((v.withPipe (v.socket.pipe.put (.pong content))).extend p).socket.reader ≠ .ended) :
    (v.echo p content).connection.closed = true := by
  have hgone : ((v.withPipe (v.socket.pipe.put (.pong content))).extend p).socket.pipe.gone =
      true := by
    rw [pipe_extend]
    exact (Pipe.gone_put _ _).trans hg
  rw [echo]
  split
  · rw [if_pos hgone]
    rfl
  · rename_i hended
    exact absurd hended hread

/-- The reader after the client's probe, and what was last heard of the client. -/
theorem reader_echo {deadline : Nat} (content : Bytes) (hr : v.socket.reader = .reading deadline) :
    (v.echo p content).socket.reader = .upTo p (v.connection.lastSeen + p.readWait) ∧
      (v.echo p content).connection.lastSeen = v.connection.lastSeen := by
  have hreader : ((v.withPipe (v.socket.pipe.put (.pong content))).extend p).socket.reader =
      .upTo p (v.connection.lastSeen + p.readWait) := reader_extend hr
  have hseen : ((v.withPipe (v.socket.pipe.put (.pong content))).extend p).connection.lastSeen =
      v.connection.lastSeen := by
    rw [connection_extend]
    rfl
  rw [echo]
  split
  · split
    · exact ⟨hreader, hseen⟩
    · exact ⟨hreader, hseen⟩
  · exact ⟨hreader, hseen⟩

/-- Does the client, as it goes on taking what comes to it, answer probes that were held back? -/
def Answers (v : Served) : Prop :=
  v.socket.pipe.held.contains .ping = true ∧ v.socket.answersProbes = true

instance (v : Served) : Decidable v.Answers := inferInstanceAs (Decidable (_ ∧ _))

/-- A client that goes on taking what comes to it, with the probes among it. -/
def resumed (p : Policy) (now : Nat) (v : Served) : Served :=
  if v.socket.pipe.held.contains .ping then (v.withPipe v.socket.pipe.resume).answerProbe p now
  else v.withPipe v.socket.pipe.resume

/-- To take what comes again is a change that the socket bears. -/
theorem bears_resumed (p : Policy) (now : Nat) (v : Served) : Bears v (v.resumed p now) := by
  rw [resumed]
  split
  · exact v.bears_resume.trans (bears_answerProbe _ _ _)
  · exact v.bears_resume

/-- And it closes nothing. -/
theorem closed_resumed (p : Policy) (now : Nat) (v : Served) :
    (v.resumed p now).connection.closed = v.connection.closed := by
  rw [resumed]
  split
  · exact closed_answerProbe _ _ _
  · rfl

/-- All the probes that were held back come to the client. -/
theorem probed_resumed (p : Policy) (now : Nat) (v : Served) :
    (v.resumed p now).probed = v.probed + v.socket.pipe.held.count .ping := by
  have hprobed : (v.withPipe v.socket.pipe.resume).probed =
      v.probed + v.socket.pipe.held.count .ping := List.count_append
  rw [resumed, answerProbe, signOfLife]
  split
  · split
    · split
      · exact (probed_extend _ _).trans hprobed
      · exact hprobed
    · exact hprobed
  · exact hprobed

/-- One answer is enough for all the probes that were held back. -/
theorem awaiting_resumed (hvoid : v.socket.pipe.Void) :
    (v.resumed p now).Awaiting p v.socket.answersProbes v.probed v.connection.lastSeen now
      v.socket.reader := by
  have hprobed : (v.withPipe v.socket.pipe.resume).probed =
      v.probed + v.socket.pipe.held.count .ping := List.count_append
  have hle : v.probed ≤ (v.withPipe v.socket.pipe.resume).probed := by omega
  have hsame (hno : ¬ (v.withPipe v.socket.pipe.resume).Heard v.socket.answersProbes v.probed
      v.socket.reader) : (v.withPipe v.socket.pipe.resume).Awaiting p v.socket.answersProbes
        v.probed v.connection.lastSeen now v.socket.reader :=
    awaiting_of_not_heard (v := v.withPipe v.socket.pipe.resume) rfl hle hno
  by_cases hheld : v.socket.pipe.held.contains .ping = true
  · have hpos : 0 < v.socket.pipe.held.count .ping :=
      List.count_pos_iff.2 (List.contains_iff_mem.1 hheld)
    have hg : v.socket.pipe.gone = false := by
      by_contra hg
      rw [hvoid (by simpa using hg)] at hheld
      cases hheld
    rw [resumed, if_pos hheld, answerProbe]
    by_cases ha : v.socket.answersProbes = true
    · rw [if_pos (by simp [withPipe, Pipe.resume, ha, hg])]
      exact (awaiting_self v p now).answered ha
        (hprobed.symm ▸ Nat.lt_add_of_pos_right hpos) rfl rfl rfl
    · rw [if_neg (by simp [withPipe, Pipe.resume, ha])]
      exact hsame fun hb => ha hb.1
  · have hzero : v.socket.pipe.held.count .ping = 0 :=
      List.count_eq_zero.2 fun hm => hheld (List.contains_iff_mem.2 hm)
    rw [resumed, if_neg hheld]
    exact hsame (not_heard_of_le (by omega))

/-- So the reader waits anew exactly if there were probes to be answered. -/
theorem reader_resumed {deadline : Nat} (hr : v.socket.reader = .reading deadline)
    (hvoid : v.socket.pipe.Void) : (v.resumed p now).socket.reader =
      if v.Answers then .upTo p (now + p.readWait) else v.socket.reader := by
  have hprobed : (v.resumed p now).probed = v.probed + v.socket.pipe.held.count .ping :=
    probed_resumed p now v
  have hiff : (v.resumed p now).Heard v.socket.answersProbes v.probed v.socket.reader ↔
      v.Answers := by
    rw [Heard, hprobed, Answers, List.contains_iff_mem, ← List.count_pos_iff]
    constructor
    · exact fun h => ⟨by omega, h.1⟩
    · exact fun h => ⟨h.2, by omega, by simp [hr]⟩
  rw [(awaiting_resumed hvoid).reader]
  simp only [hiff]

end Switchboard.Served
