/-
Switchboard/Proofs/Service/Breaking.lean

How the pumps of a socket break down.

A pump that breaks down ends without closing the connection.  The reader breaks
down together with the handling of a message, and over a sign of life or a frame
after which the clock cannot tell until when the client may be silent; and either
pump may do so as the client comes, if the clock cannot tell its first deadline.
`BreaksDown` lists these causes: those that are in an event itself, `Fells`, and
the answers to probes at the moments that follow, `Overreaches`.

There are no others.  As long as the connection of a socket is open, its pumps
work if there has been no cause, and one of them has ended if there has: that is
the account that `AtRest.accounts_after` keeps.
-/
import Switchboard.Proofs.Service.Moments
import Switchboard.Proofs.Socket.Deadline

namespace Switchboard.Service

variable {s u : Service} {k : SocketNumber} {l : LineNumber} {v w : Served} {e : Event}
  {f : Incoming} {now : Nat}

/-! ### What makes a pump break down -/

/-- A frame is read that leaves the connection open, and the clock cannot tell until when the client
may be silent from then on. -/
def Overreads (s : Service) (k : SocketNumber) (f : Incoming) : Prop :=
  ∃ l v w, s.served? k = some (l, v) ∧ v.socket.reader ≠ .ended ∧
    (s.hear k f).served? k = some (l, w) ∧ w.connection.closed = false ∧
    ¬ s.policy.Reads w.connection.lastSeen

/-- An event by which a pump of a socket breaks down: its reader takes in a frame whose handling
breaks down, or after which, or after the answer to probes that were held back, the clock cannot
tell until when the client may be silent; or its client comes at such a time, or when there is no
interval to probe at or the clock cannot tell when the first probe is due. -/
def Fells (s : Service) (k : SocketNumber) : Event → Prop
  | .receive k' f => k' = k ∧ (s.Falls k f ∨ s.Overreads k f)
  | .resume k' => k' = k ∧ ¬ s.policy.Reads s.clock ∧
      ∃ l v, s.served? k = some (l, v) ∧ v.socket.reader ≠ .ended ∧ v.Answers
  | .accept _ => k = s.sockets.length ∧ s.Admits ∧
      ¬ (s.policy.Reads s.clock ∧ s.policy.Probes s.clock)
  | _ => False

/-- A moment at which a probe comes to a client that answers it, and the clock cannot tell until
when the client may then be silent. -/
def Overreaches (u : Service) (k : SocketNumber) (now : Nat) : Prop :=
  ∃ l v w, u.served? k = some (l, v) ∧ (u.arrive now).served? k = some (l, w) ∧
    v.socket.reader ≠ .ended ∧ v.socket.answersProbes = true ∧ v.probed < w.probed ∧
    ¬ u.policy.Reads now

/-- An event in the course of which a pump of a socket breaks down. -/
def BreaksDown (s : Service) (k : SocketNumber) (e : Event) : Prop :=
  s.Fells k e ∨ ∃ m ∈ s.moments e, m.1.Overreaches k m.2

/-! ### Frames -/

/-- What the handling of a frame, of this client or another, makes of a socket. -/
theorem served?_handled (hv : s.served? k = some (l, v)) (l' : LineNumber) (content : Bytes) :
    (s.handled l' content).served? k = some (l, ⟨v.connection.run
      (s.board.acts l (.frame s.check s.clock s.draw l' content)), v.socket⟩) := by
  obtain ⟨hx, hl, hc⟩ := served?_eq_some.1 hv
  have hc' := Board.getElem?_after_of_some hc (.frame s.check s.clock s.draw l' content)
  exact served?_eq_some.2 ⟨hx, hl, hc'⟩

theorem policy_handled (s : Service) (l : LineNumber) (content : Bytes) :
    (s.handled l content).policy = s.policy := (Board.onward_handleFrame ..).policy

/-- Unless the handling of a message breaks down, the reader goes on. -/
theorem takeMessage_eq {content : Bytes}
    (hb : ¬ s.board.BreaksDown s.check s.draw l content) : s.takeMessage k l content =
      (s.handled l content).modifyServed k (Served.extend s.policy) := by
  have hdone : (s.board.handleFrame s.check s.clock s.draw l content).1 = true := by
    rcases e : (s.board.handleFrame s.check s.clock s.draw l content).1 with - | -
    · exact absurd (Board.breaksDown_of_not_done e) hb
    · rfl
  rw [takeMessage, ← policy_handled s l content]
  simp only [hdone, if_true]
  rfl

theorem served?_modifyServed {g : Served → Served} (hv : s.served? k = some (l, v))
    (hl : (g v).socket.line = v.socket.line) :
    (s.modifyServed k g).served? k = some (l, g v) := by
  rw [modifyServed_eq hv]
  exact served?_putServed hv hl

/-- Whoever takes its leave or sends what cannot be read is hung up on. -/
theorem closed_hear {deadline : Nat} (hv : s.served? k = some (l, v))
    (hr : v.socket.reader = .reading deadline)
    (hf : (∃ farewell, f = .close farewell) ∨ f.unreadable s.policy.maxFrame = true)
    (hw : (s.hear k f).served? k = some (l, w)) : w.connection.closed = true := by
  have hhung : ∀ parting : Parting, (s.hangUp k parting).served? k = some (l, w) →
      w.connection.closed = true := by
    intro parting hw
    rw [hangUp, served?_modifyServed hv rfl] at hw
    cases hw
    rfl
  rw [hear, hv] at hw
  simp only [hr] at hw
  split at hw
  · exact hhung _ hw
  · rename_i hread
    obtain ⟨farewell, rfl⟩ := hf.resolve_right hread
    exact hhung _ hw

/-- What becomes of a reader that takes in a message. -/
theorem reader_takeMessage {deadline : Nat} {content : Bytes} (hv : s.served? k = some (l, v))
    (hr : v.socket.reader = .reading deadline) (hread : f.unreadable s.policy.maxFrame = false)
    (hcontent : f.content? = some content) (htake : s.hear k f = s.takeMessage k l content)
    (hw : (s.hear k f).served? k = some (l, w)) :
    s.Falls k f ∧ w.socket.reader = .ended ∨ ¬ s.Falls k f ∧
      w.socket.reader = .upTo s.policy (w.connection.lastSeen + s.policy.readWait) := by
  by_cases hb : s.board.BreaksDown s.check s.draw l content
  · have hfalls : s.Falls k f := ⟨l, v, content, hv, by simp [hr], hread, hcontent, hb⟩
    have hdrawn : ({ s with drawn := s.drawn + 1 } : Service).served? k = some (l, v) := hv
    have hfallen : (({ s with drawn := s.drawn + 1 } : Service).putServed k l v.fallen).served? k =
        some (l, v.fallen) := served?_putServed hdrawn rfl
    rw [hear_of_falls hv hfalls, hfallen] at hw
    cases hw
    exact .inl ⟨hfalls, rfl⟩
  · have hno : ¬ s.Falls k f := by
      rintro ⟨l', v', content', hv', -, -, hcontent', hb'⟩
      cases hv.symm.trans hv'
      cases hcontent.symm.trans hcontent'
      exact hb hb'
    rw [htake, takeMessage_eq hb, served?_modifyServed (served?_handled hv l content)
      (Served.onward_extend _ _).line] at hw
    cases hw
    refine .inr ⟨hno, ?_⟩
    rw [Served.connection_extend]
    exact Served.reader_extend hr

/-- **What becomes of a reader that takes in a frame**: the connection is closed, or the reader
breaks down if the frame fells it and goes on if not. -/
theorem reader_hear {deadline : Nat} (hv : s.served? k = some (l, v))
    (hr : v.socket.reader = .reading deadline) (hw : (s.hear k f).served? k = some (l, w)) :
    w.connection.closed = true ∨ (w.socket.reader = .ended ↔ s.Falls k f ∨ s.Overreads k f) := by
  by_cases hcl : w.connection.closed = true
  · exact .inl hcl
  · have hopen := Bool.eq_false_iff.2 hcl
    obtain ⟨hclose, hread⟩ := not_or.1 fun hleave => hcl (closed_hear hv hr hleave hw)
    have hread : f.unreadable s.policy.maxFrame = false := Bool.eq_false_iff.2 hread
    have hreads : v.socket.reader ≠ .ended := by simp [hr]
    have htake := hear_eq_take hv hreads hread
    -- with its last deadline the reader goes on if the clock can tell it
    have hover : s.Overreads k f ↔ ¬ s.policy.Reads w.connection.lastSeen := by
      constructor
      · rintro ⟨l', v', w', hv', -, hw', -, hlate⟩
        cases hw.symm.trans hw'
        exact hlate
      · exact fun hlate => ⟨l, v, w, hv, hreads, hw, hopen, hlate⟩
    have hcases : s.Falls k f ∧ w.socket.reader = .ended ∨ ¬ s.Falls k f ∧
        w.socket.reader = .upTo s.policy (w.connection.lastSeen + s.policy.readWait) := by
      have hno : f.content? = none → ¬ s.Falls k f := by
        rintro hnone ⟨_, _, _, _, _, _, hcontent, _⟩
        cases hnone.symm.trans hcontent
      cases f with
      | text content | binary content => exact reader_takeMessage hv hr hread rfl htake hw
      | ping content =>
        obtain ⟨hreader, hseen⟩ := Served.reader_echo (p := s.policy) content hr
        rw [htake, take, served?_modifyServed hv (Served.bears_echo _ _ _).onward.line] at hw
        cases hw
        exact .inr ⟨hno rfl, by rw [hreader, hseen]⟩
      | pong content =>
        rw [htake, take,
          served?_modifyServed hv (Served.bears_signOfLife s.policy s.clock _).onward.line] at hw
        cases hw
        refine .inr ⟨hno rfl, ?_⟩
        rw [Served.signOfLife_of_reading hr, Served.connection_extend]
        exact Served.reader_extend hr
      | close farewell => exact absurd ⟨farewell, rfl⟩ hclose
    right
    rcases hcases with ⟨hfalls, hended⟩ | ⟨hno, hreader⟩
    · exact iff_of_true hended (.inl hfalls)
    · rw [hreader, Reader.upTo_eq_ended, or_iff_right hno, hover]
      rfl

/-! ### Events by themselves -/

/-- Is the event about the client of the socket, or about all clients? -/
def Event.Concerns (k : SocketNumber) : Event → Prop
  | .receive k' _ | .endOfFrames k' | .vanish k' | .sever k' | .stop k' | .resume k' => k' = k
  | .forget => True
  | .call _ | .sweeper | .accept _ | .elapse _ => False

theorem socket_stirring (hk : k < s.sockets.length) (he : ¬ e.Concerns k) :
    (s.stirring e).sockets[k]? = s.sockets[k]? := by
  cases e with
  | call | sweeper | elapse => rfl
  | accept a => exact socket_join hk a
  | receive k' f => exact socket_hear_ne he s f
  | endOfFrames k' => exact socket_breakOff_ne he s
  | vanish k' =>
    rw [stirring, vanish_eq]
    exact socket_modifyServed_ne he s _
  | sever k' | resume k' => exact socket_modifyServed_ne he s _
  | stop k' =>
    have hne : k' ≠ k := he
    show (s.stop k').sockets[k]? = _
    rw [stop, List.getElem?_modify]
    simp [hne]
  | forget => exact absurd trivial he

/-- But for those who come, nobody is added to the sockets. -/
theorem length_stirring (he : ∀ a, e ≠ .accept a) :
    (s.stirring e).sockets.length = s.sockets.length := by
  have hmodify : ∀ (s : Service) (k : SocketNumber) (g : Served → Served),
      (s.modifyServed k g).sockets.length = s.sockets.length := by
    intro s k g
    rw [modifyServed]
    split
    · exact List.length_set
    · rfl
  cases e with
  | call | sweeper | elapse => rfl
  | accept a => exact absurd rfl (he a)
  | receive k f =>
    rw [stirring]
    rcases hear_cases s k f with e | ⟨l, v, content, -, -, -, -, e⟩ | ⟨g, -, e⟩
    · rw [e]
    · rw [e]
      exact hmodify (s.handled l content) k _
    · rw [e]
      exact hmodify s k g
  | endOfFrames k =>
    rw [stirring, breakOff]
    split
    · rfl
    · split
      · rfl
      · exact hmodify s k _
  | vanish k =>
    rw [stirring, vanish_eq]
    exact hmodify s k _
  | sever k | resume k => exact hmodify s k _
  | stop k => exact List.length_modify _ _ _
  | forget => exact List.length_map _

/-- **An event by itself** leaves every socket with its connection and its writer as it is. -/
theorem served?_stirring (h : s.Sound) (hf : e.Fresh s) (hv : s.served? k = some (l, v)) :
    ∃ w, (s.stirring e).served? k = some (l, w) ∧ v.Proceeds w ∧
      w.socket.writer = v.socket.writer := by
  have haside : ∀ {s' : Service}, Aside s s' → ∃ w, s'.served? k = some (l, w) ∧ v.Proceeds w ∧
      w.socket.writer = v.socket.writer := by
    intro s' a
    obtain ⟨g, -, hg⟩ := a.served? k
    rw [hv] at hg
    exact ⟨_, hg, ⟨id, id, id⟩, rfl⟩
  by_cases he : e.Settling
  · have t := stirred_stirring h hf he
    obtain ⟨w, hw, hp⟩ := (t.kept k).served hv
    exact ⟨w, hw, hp, t.writer hv hw⟩
  · cases e with
    | stop k' => exact haside (aside_stop s k')
    | forget => exact haside (aside_forget s)
    | elapse => exact ⟨v, hv, .refl v, rfl⟩
    | _ => exact absurd trivial he

/-- Nobody is served at once who was not served before, but those who come. -/
theorem served?_stirring_of_none (h : s.Sound) (hf : e.Fresh s) (hv : s.served? k = none)
    (hacc : ∀ a, e = .accept a → k ≠ s.sockets.length) : (s.stirring e).served? k = none := by
  have haside : ∀ {s' : Service}, Aside s s' → s'.served? k = none := by
    intro s' a
    obtain ⟨g, -, hg⟩ := a.served? k
    rw [hg, hv]
    rfl
  by_cases hk : k < s.sockets.length
  · by_cases he : e.Settling
    · exact ((stirred_stirring h hf he).kept k).vacant hk hv
    · cases e with
      | stop k' => exact haside (aside_stop s k')
      | forget => exact haside (aside_forget s)
      | elapse => exact hv
      | _ => exact absurd trivial he
  · by_cases he : ∃ a, e = .accept a
    · obtain ⟨a, rfl⟩ := he
      have hlate : s.sockets.length + 1 ≤ k :=
        Nat.lt_of_le_of_ne (Nat.le_of_not_lt hk) (Ne.symm (hacc a rfl))
      refine served?_eq_none_of_length_le ?_
      show (s.join a).sockets.length ≤ k
      by_cases ha : s.Admits
      · rw [join_of_admits ha, List.length_append]
        exact hlate
      · rw [join_of_not_admits ha, List.length_append]
        exact hlate
    · refine served?_eq_none_of_length_le ?_
      rw [length_stirring fun a hea => he ⟨a, hea⟩]
      exact Nat.le_of_not_lt hk

/-- A reader that goes on breaks down over the answers of a client that takes what comes to it again
if that fells it. -/
theorem reader_resumed_iff {deadline : Nat} (h : s.Sound) (hv : s.served? k = some (l, v))
    (hr : v.socket.reader = .reading deadline) :
    (v.resumed s.policy s.clock).socket.reader = .ended ↔ s.Fells k (.resume k) := by
  have hfells : s.Fells k (.resume k) ↔ ¬ s.policy.Reads s.clock ∧ v.Answers := by
    constructor
    · rintro ⟨-, hlate, l', v', hv', -, hanswers⟩
      cases hv.symm.trans hv'
      exact ⟨hlate, hanswers⟩
    · exact fun hb => ⟨rfl, hb.1, l, v, hv, by simp [hr], hb.2⟩
  rw [hfells, Served.reader_resumed hr (h.proper hv).void]
  split
  · rename_i hanswers
    rw [Reader.upTo_eq_ended]
    exact ⟨fun hlate => ⟨hlate, hanswers⟩, fun hb => hb.1⟩
  · rename_i hno
    exact iff_of_false (by simp [hr]) fun hb => hno hb.2

/-- **What an event by itself makes of a reader**: the connection is closed, or the reader breaks
down if the event fells it and goes on if not. -/
theorem reader_stirring {deadline : Nat} (h : s.Sound) (hv : s.served? k = some (l, v))
    (hr : v.socket.reader = .reading deadline) (hw : (s.stirring e).served? k = some (l, w)) :
    w.connection.closed = true ∨ (w.socket.reader = .ended ↔ s.Fells k e) := by
  have hk := (List.getElem?_eq_some_iff.1 (served?_eq_some.1 hv).1).1
  -- whatever leaves the reader as it is fells nobody
  have hsame : ¬ s.Fells k e → w.socket.reader = v.socket.reader →
      w.connection.closed = true ∨ (w.socket.reader = .ended ↔ s.Fells k e) :=
    fun hno hreader => .inr (iff_of_false (by simp [hreader, hr]) hno)
  by_cases he : e.Concerns k
  · cases e with
    | call | sweeper | accept | elapse => exact he.elim
    | receive k' f =>
      obtain rfl : k' = k := he
      exact (reader_hear hv hr hw).imp_right fun hiff => hiff.trans (and_iff_right rfl).symm
    | endOfFrames k' =>
      obtain rfl : k' = k := he
      rw [stirring, breakOff_of_reading hv hr, hangUp, served?_modifyServed hv rfl] at hw
      cases hw
      exact .inl rfl
    | vanish k' =>
      obtain rfl : k' = k := he
      rw [stirring, vanish_eq, served?_modifyServed hv v.bears_vanished.onward.line] at hw
      cases hw
      rw [Served.vanished_of_reading hr]
      exact .inl rfl
    | sever k' =>
      obtain rfl : k' = k := he
      rw [stirring, served?_modifyServed hv rfl] at hw
      cases hw
      exact hsame id rfl
    | stop k' =>
      obtain ⟨g, -, hg⟩ := (aside_stop s k').served? k
      rw [hv] at hg
      cases hw.symm.trans hg
      exact hsame id rfl
    | forget =>
      obtain ⟨g, -, hg⟩ := (aside_forget s).served? k
      rw [hv] at hg
      cases hw.symm.trans hg
      exact hsame id rfl
    | resume k' =>
      obtain rfl : k' = k := he
      have hresumed : (s.stirring (.resume k')).served? k' = some (l, v.resumed s.policy s.clock) :=
        served?_modifyServed (g := Served.resumed s.policy s.clock) hv
          (Served.bears_resumed _ _ v).onward.line
      cases hw.symm.trans hresumed
      exact .inr (reader_resumed_iff h hv hr)
  · have hsocket := (served?_eq_some.1 hw).1
    rw [socket_stirring hk he, (served?_eq_some.1 hv).1] at hsocket
    refine hsame ?_ (by rw [Option.some.inj hsocket])
    cases e with
    | receive k' f => exact fun hb => he hb.1
    | resume k' => exact fun hb => he hb.1
    | accept a => exact fun hb => absurd hb.1 (Nat.ne_of_lt hk)
    | _ => exact id

/-! ### The account -/

/-- If the connection of a socket is open, its pumps work, or one has ended for the cause given. -/
def Accounts (u : Service) (k : SocketNumber) (cause : Prop) : Prop :=
  ∀ l v, u.served? k = some (l, v) → v.connection.closed = true ∨
    (v.socket.reader ≠ .ended ∧ v.socket.writer.Works ∧ ¬ cause) ∨
    (v.socket.reader = .ended ∨ v.socket.writer = .ended) ∧ cause

theorem Accounts.of_iff {cause cause' : Prop} (h : u.Accounts k cause) (hiff : cause ↔ cause') :
    u.Accounts k cause' := by
  intro l v hv
  rw [← hiff]
  exact h l v hv

/-- The socket of a client that comes. -/
theorem accounts_join (s : Service) (a : Bool) :
    (s.join a).Accounts s.sockets.length (s.Fells s.sockets.length (.accept a)) := by
  intro l w hw
  by_cases hadmits : s.Admits
  · obtain ⟨c, hc, -⟩ := served?_join_of_admits hadmits a
    cases hc.symm.trans hw
    have hfells : s.Fells s.sockets.length (.accept a) ↔
        ¬ (s.policy.Reads s.clock ∧ s.policy.Probes s.clock) :=
      ⟨fun hb => hb.2.2, fun hb => ⟨rfl, hadmits, hb⟩⟩
    rw [hfells]
    right
    by_cases hreads : s.policy.Reads s.clock
    · by_cases hprobes : s.policy.Probes s.clock
      · refine .inl ⟨?_, ?_, not_not.2 ⟨hreads, hprobes⟩⟩
        · show Reader.upTo _ _ ≠ .ended
          rw [Reader.upTo_of_lt hreads]
          simp
        · show (Writer.first _ _).Works
          rw [Writer.first_of_probes hprobes]
          trivial
      · exact .inr ⟨.inr (writer_fresh_eq_ended.2 hprobes), fun hb => hprobes hb.2⟩
    · exact .inr ⟨.inl (Reader.upTo_eq_ended.2 hreads), fun hb => hreads hb.1⟩
  · cases (served?_join_of_not_admits hadmits a).symm.trans hw

/-- An event by itself. -/
theorem accounts_stirring (h : s.Sound) (hf : e.Fresh s) (hwhole : s.Accounts k False) :
    (s.stirring e).Accounts k (s.Fells k e) := by
  intro l w hw
  rcases hv : s.served? k with - | ⟨l', v⟩
  · -- it is a client that comes
    by_cases hacc : ∃ a, e = .accept a ∧ k = s.sockets.length
    · obtain ⟨a, rfl, rfl⟩ := hacc
      exact accounts_join s a l w hw
    · cases (served?_stirring_of_none h hf hv fun a he hk => hacc ⟨a, he, hk⟩).symm.trans hw
  · obtain ⟨w', hw', hp, hwriter⟩ := served?_stirring h hf hv
    cases hw.symm.trans hw'
    rcases hwhole l v hv with hc | ⟨hr, hworks, -⟩ | ⟨-, hno⟩
    · exact .inl (hp.closed hc)
    · obtain ⟨deadline, hr⟩ : ∃ deadline, v.socket.reader = .reading deadline := by
        cases hreader : v.socket.reader with
        | reading deadline => exact ⟨deadline, rfl⟩
        | ended => exact absurd hreader hr
      rcases reader_stirring h hv hr hw with hc | hiff
      · exact .inl hc
      · right
        by_cases hfells : s.Fells k e
        · exact .inr ⟨.inl (hiff.2 hfells), hfells⟩
        · exact .inl ⟨fun hended => hfells (hiff.1 hended), hwriter ▸ hworks, hfells⟩
    · exact hno.elim

/-- Whoever is served after a moment was served before. -/
theorem Sound.exists_served?_arrive (h : u.Sound) (hw : u.Within now)
    (hv : (u.arrive now).served? k = some (l, w)) : ∃ v, u.served? k = some (l, v) := by
  rw [arrive, served?_settle (h.atClock hw.1) hw.2, Option.map_eq_some_iff] at hv
  obtain ⟨⟨l', v⟩, hv, e⟩ := hv
  cases e
  have hsockets : ({ u with clock := now } : Service).runSweepers.sockets[k]? = u.sockets[k]? := rfl
  obtain ⟨c, hc⟩ := h.exists_served? hsockets hv
  exact ⟨_, hc⟩

/-- **One moment.**  A socket takes its turn, in which its reader may break down over an answer. -/
theorem Accounts.arrive {cause : Prop} (h : u.Accounts k cause) (hs : u.Sound)
    (hw : u.Within now) : (u.arrive now).Accounts k (cause ∨ u.Overreaches k now) := by
  intro l w hv'
  obtain ⟨v, hv⟩ := hs.exists_served?_arrive hw hv'
  obtain ⟨c, hturn, hcl⟩ : ∃ c, (u.arrive now).served? k =
      some (l, (⟨c, v.socket⟩ : Served).turn u.policy now) ∧
        (v.connection.closed = true → c.closed = true) := by
    obtain ⟨c, hturn, haway, hstay⟩ := hs.served?_moment hw hv
    refine ⟨c, hturn, fun hc => ?_⟩
    by_cases hswept : u.SweepsAway now l
    · exact haway hswept
    · exact hstay hswept ▸ hc
  have hp : Served.Proceeds ⟨c, v.socket⟩ w := by
    cases hv'.symm.trans hturn
    exact Served.proceeds_turn _ _ _
  by_cases hclosed : w.connection.closed = true
  · exact .inl hclosed
  · right
    rcases h l v hv with hc | ⟨hr, hworks, hno⟩ | ⟨hended, hcause⟩
    · exact absurd (hp.closed (hcl hc)) hclosed
    · have hopen := Bool.eq_false_iff.2 hclosed
      have hover : u.Overreaches k now ↔ v.socket.answersProbes = true ∧
          v.probed < w.probed ∧ ¬ u.policy.Reads now := by
        constructor
        · rintro ⟨l', v₀, w₀, hv₀, hw₀, -, ha, hlt, hlate⟩
          cases hv.symm.trans hv₀
          cases hv'.symm.trans hw₀
          exact ⟨ha, hlt, hlate⟩
        · exact fun hb => ⟨l, v, w, hv, hv', hr, hb⟩
      cases hv'.symm.trans hturn
      obtain ⟨hworks', hiff⟩ := Served.turn_of_works (v := ⟨c, v.socket⟩) hr hworks hopen
      by_cases hreach : u.Overreaches k now
      · exact .inr ⟨.inl (hiff.2 (hover.1 hreach)), .inr hreach⟩
      · exact .inl ⟨fun hended => hreach (hover.2 (hiff.1 hended)), hworks', not_or.2 ⟨hno, hreach⟩⟩
    · exact .inr ⟨hended.imp hp.reader hp.writer, .inl hcause⟩

/-- **The pumps of a socket after an event.**  Unless the connection is closed, they work if nothing
has broken them down in the course of the event, and one of them has ended if something has. -/
theorem AtRest.accounts_after (h : s.AtRest) (hf : e.Fresh s) (hwhole : s.Accounts k False) :
    (s.after e).Accounts k (s.BreaksDown k e) := by
  refine h.after_by_moments (P := fun u ms =>
    u.Accounts k (s.Fells k e ∨ ∃ m ∈ ms, m.1.Overreaches k m.2)) hf ?_ ?_
  · exact (accounts_stirring h.sound hf hwhole).of_iff (by simp)
  · intro u now ms hs hw ih
    refine (ih.arrive hs hw).of_iff ?_
    simp [or_and_right, exists_or, or_assoc]

/-- As long as the clock can tell the times, only frames break a pump down. -/
theorem AtRest.exists_frame_of_breaksDown (h : s.AtRest) (hf : e.Fresh s)
    (hreads : s.policy.Reads (s.after e).clock) (hprobes : s.policy.Probes (s.after e).clock)
    (hb : s.BreaksDown k e) : ∃ f, e = .receive k f ∧ (s.Falls k f ∨ s.Overreads k f) := by
  have hle := h.le_clock_after hf
  rcases hb with hfells | ⟨m, hm, _, _, _, -, -, -, -, -, hlate⟩
  · cases e with
    | receive k' f =>
      obtain ⟨rfl, hcause⟩ := hfells
      exact ⟨f, rfl, hcause⟩
    | resume k' => exact absurd (hreads.mono hle) hfells.2.1
    | accept a => exact absurd ⟨hreads.mono hle, hprobes.mono hle⟩ hfells.2.2
    | _ => exact hfells.elim
  · obtain ⟨hp, hle'⟩ := h.mem_moments hf m hm
    exact absurd (hp ▸ hreads.mono hle') hlate

end Switchboard.Service
