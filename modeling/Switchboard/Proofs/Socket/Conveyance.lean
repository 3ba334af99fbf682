/-
Switchboard/Proofs/Socket/Conveyance.lean

How messages come from the queue of a connection to its client.

Every message that the writer takes from the queue is sent as one text, in
the order of the queue; probes, pongs and farewells among them carry none.
What a client has and what is on its way to it are `onWay`, and `Conveys`
says of a change of a socket what becomes of these when some texts are sent.
If nothing is lost they are what was on its way, and then those texts.  A
text is lost only when the client is gone or the writer ends, and a socket to
which either has happened is `Mute`: nothing is put on its way any more.

What the pumps and the client do is a `Works` each: some acts of the
connection, by which no message is accepted, with the messages taken conveyed.
-/
import Switchboard.Proofs.Connection.Acts
import Switchboard.Proofs.Service.Sound

namespace Switchboard

/-- The text that a frame carries. -/
def Outgoing.text? : Outgoing → Option String
  | .text content => some content
  | _ => none

/-- The texts of several frames. -/
def Outgoing.texts (fs : List Outgoing) : List String := fs.filterMap text?

theorem Outgoing.texts_append (fs gs : List Outgoing) :
    texts (fs ++ gs) = texts fs ++ texts gs := List.filterMap_append

theorem Outgoing.texts_prefix {fs gs : List Outgoing} (h : fs <+: gs) : texts fs <+: texts gs := by
  obtain ⟨rest, rfl⟩ := h
  exact ⟨texts rest, (texts_append fs rest).symm⟩

/-- Of what is held that comes first which has room. -/
theorem Pipe.fitting_prefix (n : Nat) (fs : List Outgoing) : fitting n fs <+: fs := by
  induction fs generalizing n with
  | nil => exact List.nil_prefix
  | cons f fs ih =>
    rw [fitting]
    split
    · exact List.cons_prefix_cons.2 ⟨rfl, ih _⟩
    · exact List.nil_prefix

namespace Socket

variable {x x' x'' : Socket} {ws ws' : List String} {f : Outgoing}

/-- The texts that the client has and those that are on their way to it. -/
def onWay (x : Socket) : List String := Outgoing.texts (x.pipe.received ++ x.pipe.held)

/-- Nothing that is sent gets to the client any more. -/
def Mute (x : Socket) : Prop := x.pipe.gone = true ∨ x.writer = .ended

/-- Nothing is held back from a client that takes what comes. -/
def InOrder (x : Socket) : Prop := x.pipe.taking = true → x.pipe.held = []

/-- What becomes of the texts on their way while some more are sent. -/
structure Conveys (x x' : Socket) (ws : List String) : Prop where
  line : x'.line = x.line
  inOrder : x.InOrder → x'.InOrder
  mute : x.Mute → x'.Mute
  silent : x.Mute → x'.onWay <+: x.onWay
  sent : x.InOrder → x'.onWay <+: x.onWay ++ ws
  whole : x.InOrder → ¬ x'.Mute → x'.onWay = x.onWay ++ ws

theorem Conveys.trans (h : Conveys x x' ws) (h' : Conveys x' x'' ws') :
    Conveys x x'' (ws ++ ws') where
  line := h'.line.trans h.line
  inOrder := h'.inOrder ∘ h.inOrder
  mute := h'.mute ∘ h.mute
  silent hm := (h'.silent (h.mute hm)).trans (h.silent hm)
  sent := by
    intro hi
    by_cases hm : x'.Mute
    · -- what is lost in the meantime is not made up for
      have hp := (h'.silent hm).trans (h.sent hi)
      rw [← List.append_assoc]
      exact hp.trans (List.prefix_append _ _)
    · rw [← List.append_assoc, ← h.whole hi hm]
      exact h'.sent (h.inOrder hi)
  whole := by
    intro hi hm
    have hm' : ¬ x'.Mute := fun hm' => hm (h'.mute hm')
    rw [h'.whole (h.inOrder hi) hm, h.whole hi hm', List.append_assoc]

/-- Nothing is sent, and nothing gets lost. -/
theorem conveys_of_eq (hl : x'.line = x.line) (ho : x'.onWay = x.onWay)
    (hi : x.InOrder → x'.InOrder) (hm : x.Mute → x'.Mute) : Conveys x x' [] where
  line := hl
  inOrder := hi
  mute := hm
  silent _ := by rw [ho]
  sent _ := by rw [ho, List.append_nil]
  whole _ _ := by rw [ho, List.append_nil]

theorem Conveys.refl (x : Socket) : Conveys x x [] := conveys_of_eq rfl rfl id id

/-- Whatever is sent gets lost, and perhaps something that was on its way. -/
theorem conveys_of_mute (hl : x'.line = x.line) (hm : x'.Mute) (ho : x'.onWay <+: x.onWay)
    (hi : x.InOrder → x'.InOrder) (ws : List String) : Conveys x x' ws where
  line := hl
  inOrder := hi
  mute _ := hm
  silent _ := ho
  sent _ := ho.trans (List.prefix_append _ _)
  whole _ hn := absurd hm hn

/-! ### Frames -/

/-- A frame that is no text is not counted. -/
theorem onWay_put_other (hf : f.text? = none) :
    onWay { x with pipe := x.pipe.put f } = x.onWay := by
  rw [onWay, onWay, Pipe.put]
  split_ifs <;> simp [Outgoing.texts, hf]

/-- What is put into the way comes after what is held. -/
theorem inOrder_put (h : x.InOrder) : InOrder { x with pipe := x.pipe.put f } := by
  rw [InOrder, Pipe.put]
  split_ifs with hg ht
  · exact h
  · exact h
  · exact fun ht' => absurd ht' ht

/-- A frame that carries no text. -/
theorem conveys_put_other (hf : f.text? = none) :
    Conveys x { x with pipe := x.pipe.put f } [] := by
  refine conveys_of_eq rfl (onWay_put_other hf) inOrder_put ?_
  exact Or.imp_left (Pipe.gone_put x.pipe f).trans

/-- **A text that is sent** is the last that is on its way. -/
theorem conveys_put_text (hg : x.pipe.gone = false) (hw : x.writer ≠ .ended) (content : String) :
    Conveys x { x with pipe := x.pipe.put (.text content) } [content] := by
  have hmute : ¬ x.Mute := by simp [Mute, hg, hw]
  have hsent : x.InOrder →
      onWay { x with pipe := x.pipe.put (.text content) } = x.onWay ++ [content] := by
    intro hi
    rw [onWay, onWay, Pipe.put, if_neg (by simp [hg])]
    split
    · -- nothing is held, so that the client has the text after all that was sent before
      rename_i ht
      simp [Outgoing.texts, Outgoing.text?, hi ht]
    · simp [Outgoing.texts, Outgoing.text?]
  refine ⟨rfl, inOrder_put, fun h => absurd h hmute, fun h => absurd h hmute, fun hi => ?_,
    fun hi _ => hsent hi⟩
  rw [hsent hi]

/-- The state of the writer, as long as it goes on. -/
theorem conveys_writer {w : Writer} (h : x.writer ≠ .ended) : Conveys x { x with writer := w } [] :=
  conveys_of_eq rfl rfl id (Or.imp_right fun e => absurd e h)

/-- The writer ends. -/
theorem conveys_ended (ws : List String) : Conveys x { x with writer := .ended } ws := by
  refine conveys_of_mute ?_ ?_ ?_ ?_ ws
  · rfl
  · exact .inr rfl
  · exact List.prefix_rfl
  · exact id

/-- The writer ends, and what has found no room is given up. -/
theorem conveys_cut : Conveys x { x with pipe := x.pipe.cut, writer := .ended } [] := by
  refine conveys_of_mute ?_ (.inr rfl) (Outgoing.texts_prefix ?_) (fun hi ht => ?_) []
  · rfl
  · exact (List.prefix_append_right_inj _).2 (Pipe.fitting_prefix _ _)
  · show Pipe.fitting x.pipe.room x.pipe.held = []
    rw [hi ht, Pipe.fitting]

/-- The client vanishes, and what is on its way to it is lost. -/
theorem conveys_vanish : Conveys x { x with pipe := x.pipe.vanish } [] := by
  refine conveys_of_mute ?_ (.inl rfl) (Outgoing.texts_prefix ?_) (fun _ _ => rfl) []
  · rfl
  exact (List.prefix_append_right_inj _).2 List.nil_prefix

/-- The client takes what is held. -/
theorem conveys_resume : Conveys x { x with pipe := x.pipe.resume } [] := by
  refine conveys_of_eq rfl ?_ (fun _ _ => rfl) id
  simp [onWay, Pipe.resume]

/-- Nothing is lost as a client stops taking. -/
theorem conveys_stop : Conveys x { x with pipe := x.pipe.stop } [] := by
  refine conveys_of_eq rfl rfl (fun _ ht => ?_) id
  cases ht

/-! ### Forgetting -/

/-- The socket as if its client had received some frames more before all others. -/
def recalling (x : Socket) (fs : List Outgoing) : Socket :=
  { x with pipe := { x.pipe with received := fs ++ x.pipe.received } }

theorem recalling_recalling (x : Socket) (fs gs : List Outgoing) :
    (x.recalling gs).recalling fs = x.recalling (fs ++ gs) := by
  simp only [recalling, List.append_assoc]

/-- What has come before comes first. -/
theorem onWay_recalling (x : Socket) (fs : List Outgoing) :
    (x.recalling fs).onWay = Outgoing.texts fs ++ x.onWay := by
  simp only [onWay, recalling, Outgoing.texts_append, List.append_assoc]

/-- What was received before is of no matter to what is sent. -/
theorem Conveys.recalling (h : Conveys x x' ws) (fs : List Outgoing) :
    Conveys (x.recalling fs) (x'.recalling fs) ws where
  line := h.line
  inOrder := h.inOrder
  mute := h.mute
  silent hm := by
    rw [onWay_recalling, onWay_recalling]
    exact (List.prefix_append_right_inj _).2 (h.silent hm)
  sent hi := by
    rw [onWay_recalling, onWay_recalling, List.append_assoc]
    exact (List.prefix_append_right_inj _).2 (h.sent hi)
  whole hi hm := by
    rw [onWay_recalling, onWay_recalling, h.whole hi hm, List.append_assoc]

end Socket

namespace Served

open Connection (Act)
open Socket (Conveys)

variable {p : Policy} {now : Nat} {v v' v'' : Served} {f : Outgoing}

/-! ### The pumps -/

/-- What is done to a connection and its socket together: acts by which no message is accepted, and
the messages that they take are conveyed to the client. -/
def Works (v v' : Served) : Prop :=
  ∃ as, (∀ a ∈ as, a.OfPump) ∧ v'.connection = v.connection.run as ∧
    Conveys v.socket v'.socket ((v.connection.taken as).map Envelope.wire)

theorem Works.refl (v : Served) : Works v v := ⟨[], by simp, rfl, .refl _⟩

theorem Works.trans (h : Works v v') (h' : Works v' v'') : Works v v'' := by
  obtain ⟨as, has, hc, hx⟩ := h
  obtain ⟨as', has', hc', hx'⟩ := h'
  refine ⟨as ++ as', fun a ha => (List.mem_append.1 ha).elim (has a) (has' a), ?_, ?_⟩
  · rw [hc', hc, Connection.run_append]
  · rw [hc] at hx'
    rw [Connection.taken_append, List.map_append]
    exact hx.trans hx'

/-- The socket changes, and its connection does not. -/
theorem works_of_conveys {x : Socket} (h : Conveys v.socket x []) : Works v ⟨v.connection, x⟩ :=
  ⟨[], by simp, rfl, h⟩

/-- An act of the connection that takes no message. -/
theorem works_of_act {a : Act} (ha : a.OfPump) (htake : a ≠ .take) {x : Socket}
    (h : Conveys v.socket x []) : Works v ⟨v.connection.after a, x⟩ := by
  refine ⟨[a], by simpa using ha, rfl, ?_⟩
  rw [Connection.taken_eq_nil (by simpa using htake)]
  exact h

theorem works_close (v : Served) : Works v ⟨v.connection.close.2, v.socket⟩ :=
  works_of_act (a := .close) trivial (by simp) (.refl _)

theorem works_touch (now : Nat) (v : Served) : Works v ⟨v.connection.touch now, v.socket⟩ :=
  works_of_act (a := .touch now) trivial (by simp) (.refl _)

/-- A writer that ends gives up the queue. -/
theorem works_endWriter (v : Served) : Works v v.endWriter :=
  works_of_act (a := .forsake) trivial (by simp) (Socket.conveys_ended [])

theorem works_failWriter (v : Served) : Works v v.failWriter :=
  (works_close v).trans (works_endWriter _)

theorem works_withWriter {w : Writer} (h : v.socket.writer ≠ .ended) : Works v (v.withWriter w) :=
  works_of_conveys (Socket.conveys_writer h)

/-- A frame that is no text takes nothing from the queue. -/
theorem works_put (hf : f.text? = none) : Works v (v.withPipe (v.socket.pipe.put f)) :=
  works_of_conveys (Socket.conveys_put_other hf)

/-- The reader has nothing to do with it. -/
theorem works_reader (v : Served) (r : Reader) :
    Works v { v with socket := { v.socket with reader := r } } :=
  works_of_conveys (Socket.conveys_of_eq rfl rfl id id)

theorem works_extend (p : Policy) (v : Served) : Works v (v.extend p) := by
  rw [extend]
  split
  · exact works_reader v _
  · exact .refl v

theorem works_signOfLife (p : Policy) (now : Nat) (v : Served) : Works v (v.signOfLife p now) := by
  rw [signOfLife]
  split
  · exact (works_touch now v).trans (works_extend p _)
  · exact .refl v

theorem works_answerProbe (p : Policy) (now : Nat) (v : Served) :
    Works v (v.answerProbe p now) := by
  rw [answerProbe]
  split
  · exact works_signOfLife p now v
  · exact .refl v

theorem works_lapse (now : Nat) (v : Served) : Works v (v.lapse now) := by
  rw [lapse]
  split
  · split
    · exact works_close v
    · exact .refl v
  · exact .refl v

theorem works_endReader (v : Served) : Works v v.endReader := by
  rw [endReader]
  split
  · exact works_reader v _
  · exact .refl v

/-- The writer fails, and what has found no room is given up. -/
theorem works_cut (v : Served) : Works v (v.withPipe v.socket.pipe.cut).failWriter :=
  ⟨[.close, .forsake], by simp [Act.OfPump], rfl, Socket.conveys_cut⟩

/-- What is given up has not come, and none comes after it. -/
theorem works_giveUp (v : Served) : Works v v.giveUp :=
  works_of_act (a := .forsake) trivial (by simp) Socket.conveys_cut

/-- A writer that goes on does so behind what has found room. -/
theorem works_release (v : Served) : Works v v.release := by
  rcases release_cases v with ⟨e, -⟩ | ⟨_, due, hw, ⟨-, e⟩ | ⟨-, -, e⟩⟩ | ⟨-, -, e⟩ <;> rw [e]
  · exact .refl v
  · exact works_failWriter v
  · exact works_withWriter (by simp [hw])
  · exact works_endWriter v

/-- **A writer that retires** conveys nothing more. -/
theorem Retires.works {t : Nat} (h : Retires p now t v v') (hw : v.socket.writer ≠ .ended) :
    Works v v' := by
  cases h with
  | done => exact works_endWriter v
  | giveUp => exact works_giveUp v
  | await w _ _ _ => exact works_withWriter hw

/-- The last frame of a writer carries no text. -/
theorem Closes.works (h : Closes v v') : Works v v' := by
  cases h with
  | nothing => exact .refl v
  | frame f => exact works_put rfl

/-- A farewell is no message. -/
theorem works_part (p : Policy) (now : Nat) (v : Served) : Works v (v.part p now) := by
  rcases part_cases p now v with ⟨e, -⟩ | ⟨-, ⟨due, hw⟩, u, hcloses, hretires⟩
  · rw [e]
    exact .refl v
  · have hready : u.socket.writer ≠ .ended := by
      cases hcloses with
      | nothing => simp [hw]
      | frame f =>
        show v.socket.writer ≠ .ended
        simp [hw]
    exact hcloses.works.trans (hretires.works hready)

/-- What expires was the last. -/
theorem works_expire (p : Policy) (now : Nat) (v : Served) : Works v (v.expire p now) := by
  rcases expire_cases p now v with ⟨e, -⟩ | ⟨_, _, -, -, e⟩ | ⟨deadline, hw, -, hretires⟩
  · rw [e]
    exact .refl v
  · rw [e]
    exact works_cut v
  · exact hretires.works (by rcases hw with hw | hw <;> simp [hw])

/-- A frame that carries no text is written. -/
theorem works_write (p : Policy) (now : Nat) (hf : f.text? = none) (v : Served) :
    Works v (v.write p now f) := by
  rw [write]
  split
  · rename_i due hw
    split
    · exact works_failWriter v
    · simp only
      split
      · refine (works_put hf).trans (works_withWriter ?_)
        show v.socket.writer ≠ .ended
        simp [hw]
      · exact works_put hf
  · exact .refl v

/-- Nor is a probe. -/
theorem works_probe (p : Policy) (now : Nat) (v : Served) : Works v (v.probe p now) := by
  rw [probe]
  split
  · rename_i due hw
    exact ((works_withWriter (by simp [hw])).trans (works_write p now rfl _)).trans
      (works_answerProbe p now _)
  · exact .refl v

theorem works_probes (n : Nat) (v : Served) : Works v (v.probes p now n) := by
  induction n generalizing v with
  | zero => exact .refl v
  | succ n ih => exact (works_probe p now v).trans (ih _)

/-- **The first message of the queue** is taken and conveyed, unless the client is gone. -/
theorem works_message (p : Policy) (now : Nat) (v : Served) : Works v (v.message p now) := by
  rw [message]
  split
  · rename_i due m outbox hw htake
    have hreceive : ({ v.connection with outbox } : Connection) = v.connection.receive := by
      rw [Connection.receive, htake]
    have htaken : v.connection.taken [.take] = [m] := by
      simp [Connection.taken, Connection.book, logged, Connection.takes, htake]
    have hready : v.socket.writer ≠ .ended := by simp [hw]
    rw [hreceive, write]
    simp only [hw]
    split
    · -- the client is gone, and the message with it
      refine ⟨[.take, .close, .forsake], by simp [Act.OfPump], rfl, ?_⟩
      exact Socket.conveys_ended _
    · rename_i hg
      have hput := Socket.conveys_put_text (x := v.socket) (by simpa using hg) hready m.wire
      split
      · refine ⟨[.take], by simp [Act.OfPump], rfl, ?_⟩
        rw [htaken]
        exact hput.trans (Socket.conveys_writer hready)
      · refine ⟨[.take], by simp [Act.OfPump], rfl, ?_⟩
        rw [htaken]
        exact hput
  · exact .refl v

theorem works_messages (n : Nat) (v : Served) : Works v (v.messages p now n) := by
  induction n generalizing v with
  | zero => exact .refl v
  | succ n ih => exact (works_message p now v).trans (ih _)

/-- **What the pumps do in a turn** is to convey messages from the queue. -/
theorem works_run (p : Policy) (now : Nat) (v : Served) : Works v (v.run p now) := by
  have hreader : Works v (v.runReader now) := (works_lapse now v).trans (works_endReader _)
  have hsend : ∀ v : Served, Works v (v.send p now) := fun v =>
    (works_probes _ v).trans (works_messages _ _)
  rw [run_eq]
  exact ((((hreader.trans (works_release _)).trans (works_part p now _)).trans (hsend _)).trans
    (works_expire p now _)).trans (works_endReader _)

theorem works_concluded (v : Served) : Works v v.concluded := by
  refine (works_close v).trans (works_of_conveys ?_)
  refine (Socket.conveys_put_other (f := .ended) rfl).trans ?_
  exact Socket.conveys_of_eq rfl rfl id id

/-! ### The client -/

theorem works_hangUp (v : Served) (parting : Parting) :
    Works v ⟨v.connection.close.2, { v.socket with parting }⟩ :=
  (works_close v).trans (works_of_conveys (Socket.conveys_of_eq rfl rfl id id))

/-- Nothing comes to a client that has vanished. -/
theorem works_vanish (v : Served) : Works v (v.withPipe v.socket.pipe.vanish) :=
  works_of_conveys Socket.conveys_vanish

/-- What was held comes in the order in which it was sent. -/
theorem works_resume (v : Served) : Works v (v.withPipe v.socket.pipe.resume) :=
  works_of_conveys Socket.conveys_resume

/-- A client's own probe is answered, or the connection is closed. -/
theorem works_echo (p : Policy) (content : Bytes) (v : Served) : Works v (v.echo p content) := by
  have hsent : Works v ((v.withPipe (v.socket.pipe.put (.pong content))).extend p) :=
    (works_put rfl).trans (works_extend p _)
  rw [echo]
  split
  · split
    · exact hsent.trans (works_hangUp _ .silence)
    · exact hsent
  · exact hsent

end Served

end Switchboard
