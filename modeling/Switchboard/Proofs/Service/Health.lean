/-
Switchboard/Proofs/Service/Health.lean

What events leave of a socket that is hale.

A socket `Thrives` from a time on if it is hale and serves its connection.
Whatever others do, with their sockets or by calls, does not reach it, and what
its own client does leaves it hale unless the client breaks off: `Parts` lists
the events that do end its connection.  A frame, whatever it is, only gives the
reader more time, and a pong is a sign of life.

After an event the service settles.  That does no harm to a socket that is in
time: its reader has time left and its probe is still to come
(`Thrives.settle`).  And as the clock stops whenever a probe is due, neither
does the passing of time, as long as it does not go beyond what the reader and
the sweepers allow (`Thrives.arrive_waiting`, `Thrives.arrive_probing`).
-/
import Switchboard.Proofs.Service.Closing
import Switchboard.Proofs.Socket.Hale

namespace Switchboard.Service

variable {s s' : Service} {k k' : SocketNumber} {l : LineNumber} {v : Served} {e : Event}
  {a : Bool} {t t' due now : Nat}

/-- The socket serves the connection of that number, and is hale. -/
def Thrives (s : Service) (k : SocketNumber) (l : LineNumber) (a : Bool) (t due : Nat) : Prop :=
  ∃ v, s.served? k = some (l, v) ∧ v.Hale s.policy a t due

theorem Thrives.of_eq (h : s.Thrives k l a t due) (hv : s'.served? k = s.served? k)
    (hp : s'.policy = s.policy) : s'.Thrives k l a t due := by
  obtain ⟨v, hserved, hh⟩ := h
  exact ⟨v, hv.trans hserved, hp ▸ hh⟩

/-! ### What is done to other sockets -/

theorem Thrives.modifyServed_ne (h : s.Thrives k l a t due) (hs : s.Sound) (hk : k' ≠ k)
    (f : Served → Served) : (s.modifyServed k' f).Thrives k l a t due :=
  h.of_eq (hs.served?_modifyServed_ne hk f) (policy_modifyServed s k' f)

/-- The socket itself changes. -/
theorem Thrives.modifyServed {due' : Nat} {f : Served → Served} (h : s.Thrives k l a t due)
    (hf : ∀ v : Served, v.Hale s.policy a t due →
      (f v).Hale s.policy a t' due' ∧ (f v).socket.line = v.socket.line) :
    (s.modifyServed k f).Thrives k l a t' due' := by
  obtain ⟨v, hv, hh⟩ := h
  obtain ⟨hh', hl⟩ := hf v hh
  refine ⟨f v, ?_, ?_⟩
  · rw [modifyServed_eq hv]
    exact served?_putServed hv hl
  · rw [policy_modifyServed]
    exact hh'

/-! ### Calls and those who come -/

theorem Thrives.call {c : Board.Call} (h : s.Thrives k l a t due) (hm : c.MadeAt now)
    (ht : t ≤ now) (hfits : s.policy.Reads now) (hno : ¬ c.Closes s.board l) :
    ({ s with board := s.board.after c } : Service).Thrives k l a t due := by
  obtain ⟨v, hv, hh⟩ := h
  obtain ⟨hx, hl, hc⟩ := served?_eq_some.1 hv
  obtain ⟨c', hc', hspared⟩ := Board.spared_after hc hm hno
  have hp : ({ s with board := s.board.after c } : Service).policy = s.policy :=
    (Board.onward_after s.board c).policy
  refine ⟨⟨c', v.socket⟩, served?_eq_some.2 ⟨hx, hl, hc'⟩, ?_⟩
  rw [hp]
  exact hh.spared hspared ht hfits

/-- Whoever comes leaves a socket and its connection as they are. -/
theorem served?_join (hv : s.served? k = some (l, v)) (a' : Bool) :
    (s.join a').served? k = some (l, v) := by
  obtain ⟨hx, hl, hc⟩ := served?_eq_some.1 hv
  have hlt := (List.getElem?_eq_some_iff.1 hx).1
  have hline : (s.join a').board.lines[l]? = some v.connection := by
    rcases getElem?_join_cases s a' l with hsame | ⟨hnone, -⟩
    · exact hsame.trans hc
    · cases hnone.symm.trans hc
  by_cases ha : s.Admits
  · rw [join_of_admits ha] at hline ⊢
    exact served?_eq_some.2 ⟨(List.getElem?_append_left hlt).trans hx, hl, hline⟩
  · rw [join_of_not_admits ha]
    exact served?_eq_some.2 ⟨(List.getElem?_append_left hlt).trans hx, hl, hc⟩

theorem Thrives.join (h : s.Thrives k l a t due) (a' : Bool) :
    (s.join a').Thrives k l a t due := by
  obtain ⟨v, hv, hh⟩ := h
  have hp : (s.join a').policy = s.policy := by
    by_cases ha : s.Admits
    · rw [join_of_admits ha]
      exact (onward_admitted s).policy
    · rw [join_of_not_admits ha]
      rfl
  exact ⟨v, served?_join hv a', hp ▸ hh⟩

/-! ### Frames -/

theorem Sound.handled (h : s.Sound) (l : LineNumber) (content : Bytes) :
    (s.handled l content).Sound :=
  h.withBoard (h.inStep.handleFrame ..) (Board.onward_handleFrame ..) rfl (Nat.le_refl _)

theorem Thrives.handled (h : s.Thrives k l a t due) (ht : t ≤ s.clock)
    (hfits : s.policy.Reads s.clock) (l' : LineNumber) (content : Bytes) :
    (s.handled l' content).Thrives k l a t due := by
  have hmade : Board.Call.MadeAt s.clock (.frame s.check s.clock s.draw l' content) := rfl
  have hcall := h.call hmade ht hfits id
  exact hcall.of_eq rfl rfl

/-- A frame of another client. -/
theorem Thrives.hear_ne (h : s.Thrives k l a t due) (hs : s.Sound) (ht : t ≤ s.clock)
    (hfits : s.policy.Reads s.clock) (hk : k' ≠ k) (f : Incoming) :
    (s.hear k' f).Thrives k l a t due := by
  rcases hear_cases s k' f with e | ⟨l', v, content, -, -, -, -, e⟩ | ⟨g, -, e⟩
  · rw [e]
    exact h
  · rw [e]
    exact (h.handled ht hfits l' content).modifyServed_ne (hs.handled l' content) hk _
  · rw [e]
    exact h.modifyServed_ne hs hk g

/-- A message of the client itself: if its handling does not break down, the reader goes on. -/
theorem Thrives.takeMessage (h : s.Thrives k l a t due) (ht : t ≤ s.clock)
    (hfits : s.policy.Reads s.clock) (hcheck : ∀ session token, s.check session token ≠ .broken)
    (content : Bytes) : (s.takeMessage k l content).Thrives k l a t due := by
  rw [takeMessage_eq (Board.not_breaksDown hcheck), ← policy_handled s l content]
  exact (h.handled ht hfits l content).modifyServed fun v hv =>
    ⟨hv.extend, (Served.onward_extend _ v).line⟩

/-- A frame of the client that does not end the connection.  A pong is a sign of life. -/
theorem Thrives.hear (h : s.Thrives k l a t due) (ht : t ≤ s.clock)
    (hfits : s.policy.Reads s.clock)
    (hcheck : ∀ session token, s.check session token ≠ .broken) {f : Incoming}
    (hclose : ∀ farewell, f ≠ .close farewell)
    (hread : f.unreadable s.policy.maxFrame = false) :
    ∃ t', t ≤ t' ∧ t' ≤ s.clock ∧ (s.hear k f).Thrives k l a t' due ∧
      ∀ content, f = .pong content → t' = s.clock := by
  obtain ⟨v, hv, hh⟩ := id h
  rw [hear_eq_take hv hh.reader_ne_ended hread]
  cases f with
  | text content | binary content =>
    exact ⟨t, Nat.le_refl t, ht, h.takeMessage ht hfits hcheck content, by simp⟩
  | ping content =>
    refine ⟨t, Nat.le_refl t, ht, h.modifyServed fun v hv => ⟨hv.echo content, ?_⟩, by simp⟩
    exact (v.bears_echo s.policy content).onward.line
  | pong content =>
    refine ⟨s.clock, ht, Nat.le_refl _, h.modifyServed fun v hv => ⟨hv.signOfLife hfits, ?_⟩,
      fun _ _ => rfl⟩
    exact (Served.bears_signOfLife _ _ v).onward.line
  | close farewell => exact absurd rfl (hclose farewell)

/-! ### Breaking off, vanishing and going on -/

theorem Thrives.breakOff_ne (h : s.Thrives k l a t due) (hs : s.Sound) (hk : k' ≠ k) :
    (s.breakOff k').Thrives k l a t due := by
  rw [breakOff]
  split
  · exact h
  · split
    · exact h
    · exact h.modifyServed_ne hs hk _

/-- Another client vanishes. -/
theorem Thrives.vanish_ne (h : s.Thrives k l a t due) (hs : s.Sound) (hk : k' ≠ k) :
    ((s.modifyServed k' fun v => v.withPipe v.socket.pipe.vanish).breakOff k').Thrives
      k l a t due := by
  rw [vanish_eq]
  exact h.modifyServed_ne hs hk _

/-- The way to another client breaks off. -/
theorem Thrives.sever_ne (h : s.Thrives k l a t due) (hs : s.Sound) (hk : k' ≠ k) :
    (s.modifyServed k' fun v => v.withPipe v.socket.pipe.vanish).Thrives k l a t due :=
  h.modifyServed_ne hs hk _

/-- Nothing is held back from the client, and so there is no probe among it to be answered. -/
theorem Thrives.resume (h : s.Thrives k l a t due) (hs : s.Sound) (k' : SocketNumber) :
    (s.modifyServed k' fun v =>
      let probed := v.socket.pipe.held.contains .ping
      let v := v.withPipe v.socket.pipe.resume
      if probed then v.answerProbe s.policy s.clock else v).Thrives k l a t due := by
  by_cases hk : k' = k
  · subst hk
    refine h.modifyServed fun v hv => ?_
    simp only [hv.held, List.contains_nil, Bool.false_eq_true, if_false]
    exact ⟨hv.resume, rfl⟩
  · exact h.modifyServed_ne hs hk _

theorem Thrives.stop_ne (h : s.Thrives k l a t due) (hk : k' ≠ k) :
    (s.stop k').Thrives k l a t due := by
  have hsockets : (s.stop k').sockets[k]? = s.sockets[k]? := by
    rw [stop, List.getElem?_modify]
    simp [hk]
  refine h.of_eq ?_ rfl
  rw [served?, served?, hsockets]
  rfl

theorem Thrives.forget (h : s.Thrives k l a t due) : s.forget.Thrives k l a t due := by
  obtain ⟨v, hv, hh⟩ := h
  obtain ⟨hx, hl, hc⟩ := served?_eq_some.1 hv
  have hpipe : (v.withPipe { v.socket.pipe with received := [] }).Hale s.policy a t due :=
    hh.withPipe hh.taking hh.gone hh.held
  refine ⟨v.withPipe { v.socket.pipe with received := [] }, served?_eq_some.2 ⟨?_, hl, hc⟩, hpipe⟩
  rw [Service.forget, List.getElem?_map, hx]
  rfl

/-! ### What follows -/

/-- A service settles while the reader has time and the probe is still to come. -/
theorem Thrives.settle {u : Service} (h : u.Thrives k l a t due)
    (hs : s.AtRest) (hu : Stirred s u) (hc : u.clock = s.clock)
    (hread : s.clock < t + s.policy.readWait) (hdue : s.clock < due) :
    u.settle.clock = s.clock ∧ u.settle.Thrives k l a t due := by
  have ha := hu.ahead hs.ahead
  have hp : u.settle.policy = u.policy := (onward_settle hu.sound ha.punctual).policy
  refine ⟨(clock_settle hu.sound ha.punctual).trans hc, ?_⟩
  obtain ⟨v, hv, hh⟩ := h
  have hrun : (v.run u.policy u.clock).Hale u.policy a t due := by
    refine hh.run_waiting ?_ (hc.symm ▸ hdue)
    rw [hc, hu.policy]
    exact hread
  refine ⟨v.run u.policy u.clock, ?_, hp.symm ▸ hrun⟩
  rw [served?_settle_of_ahead hu.sound ha, hv, ← hrun.turn_eq]
  rfl

/-! ### Time -/

/-- However many sweepers are due, they leave alone what is not stale. -/
theorem getElem?_sweepAll {b : Board} {c : Connection} (hc : b.lines[l]? = some c)
    (hs : c.isStale b.policy.staleAfter now = false) (ws : List Sweeper) :
    (sweepAll now ws b).2.lines[l]? = some c := by
  induction ws generalizing b with
  | nil => exact hc
  | cons w ws ih =>
    rw [sweepAll_cons]
    rcases sweepOne_eq_or now w b with e | e
    · rw [e]
      exact ih hc hs
    · rw [e]
      refine ih (Board.getElem?_sweep hc hs) ?_
      rw [(Board.onward_sweep b now).policy]
      exact hs

/-- As the clock moves on, a socket that the sweepers leave alone has its turn. -/
theorem served?_arrive_of_live (hs : s.AtRest) (hw : s.Within now) (hv : s.served? k = some (l, v))
    (hlive : v.connection.LiveFrom t) (hfresh : now ≤ t + s.policy.staleAfter) :
    (s.arrive now).served? k = some (l, v.turn s.policy now) := by
  obtain ⟨hx, hl, hc⟩ := served?_eq_some.1 hv
  have hswept : ({ s with clock := now } : Service).runSweepers.served? k = some (l, v) :=
    served?_eq_some.2 ⟨hx, hl, getElem?_sweepAll hc (hlive.isStale hfresh) _⟩
  rw [arrive, served?_settle (hs.sound.atClock hw.1) hw.2, hswept]
  rfl

theorem policy_arrive (hs : s.AtRest) (hw : s.Within now) : (s.arrive now).policy = s.policy :=
  (onward_settle (hs.sound.atClock hw.1) hw.2).policy

/-- The clock does not pass the time of a probe. -/
theorem Thrives.le_due (h : s.Thrives k l a t due) (hr : s.Reaches now) (hdue : s.clock < due) :
    now ≤ due := by
  obtain ⟨v, hv, hh⟩ := h
  refine hr.2 due (List.mem_append_right _ (List.mem_flatMap.2 ⟨v.socket, ?_, ?_⟩)) hdue
  · exact List.mem_of_getElem? (served?_eq_some.1 hv).1
  · simp [hh.writer, Writer.due]

/-- The clock comes to a time before the probe is due. -/
theorem Thrives.arrive_waiting (h : s.Thrives k l a t due) (hs : s.AtRest) (hw : s.Within now)
    (hread : now < t + s.policy.readWait) (hfresh : now ≤ t + s.policy.staleAfter)
    (hdue : now < due) : (s.arrive now).Thrives k l a t due := by
  obtain ⟨v, hv, hh⟩ := h
  have hrun := hh.run_waiting hread hdue
  refine ⟨v.run s.policy now, ?_, (policy_arrive hs hw).symm ▸ hrun⟩
  rw [served?_arrive_of_live hs hw hv hh.live hfresh, hrun.turn_eq]

/-- The clock comes to the time at which the probe is due. -/
theorem Thrives.arrive_probing (h : s.Thrives k l a t now) (hs : s.AtRest) (hw : s.Within now)
    (hread : now < t + s.policy.readWait) (hfresh : now ≤ t + s.policy.staleAfter)
    (hfits : s.policy.Reads now) :
    (s.arrive now).Thrives k l a (if a then now else t) (now + s.policy.probeEvery) := by
  obtain ⟨v, hv, hh⟩ := h
  have hrun := hh.run_probing hread hfits
  refine ⟨v.run s.policy now, ?_, (policy_arrive hs hw).symm ▸ hrun⟩
  rw [served?_arrive_of_live hs hw hv hh.live hfresh, hrun.turn_eq]

theorem clock_elapse (h : s.AtRest) (milliseconds : Nat) :
    (s.elapse milliseconds).clock = s.clock + milliseconds := by
  obtain ⟨u, hu, -, hw, e⟩ := h.elapse_eq_arrive (P := fun _ => True) (fun _ _ _ => trivial) trivial
    milliseconds
  rw [e]
  exact clock_arrive hu hw

/-! ### Events -/

/-- An event that ends the connection of a socket, other than by the time it takes: the client
takes its leave, sends what cannot be read, breaks off or vanishes, the connection is closed by a
call, or the service ends. -/
def Parts (s : Service) (k : SocketNumber) (l : LineNumber) : Event → Prop
  | .receive k' f => k' = k ∧
      ((∃ farewell, f = .close farewell) ∨ f.unreadable s.policy.maxFrame = true)
  | .endOfFrames k' | .vanish k' => k' = k
  | .call (.close l') => l' = l
  | .call .shutdown => ∃ id : ConnectionId, s.board.registered[id]? = some l
  | _ => False

theorem Parts.ends (h : s.Parts k l e) (hv : s.served? k = some (l, v)) : s.Ends k l e := by
  cases e with
  | receive k' f =>
    obtain ⟨rfl, ⟨farewell, rfl⟩ | hread⟩ := h
    · exact .farewell farewell hv
    · exact .unreadable hv hread
  | endOfFrames k' =>
    obtain rfl : k' = k := h
    exact .endOfFrames hv
  | vanish k' =>
    obtain rfl : k' = k := h
    exact .vanish hv
  | call c =>
    cases c with
    | close l' =>
      obtain rfl : l' = l := h
      exact .close hv
    | shutdown =>
      obtain ⟨id, hid⟩ := h
      exact .shutdown hv hid
    | _ => exact h.elim
  | _ => exact h.elim

/-- A call that is made in time closes the connection only if the event parts with it. -/
theorem Thrives.not_closes {c : Board.Call} (h : s.Thrives k l a t due)
    (hm : c.MadeAt s.clock) (hfresh : s.clock ≤ t + s.policy.staleAfter)
    (hno : ¬ s.Parts k l (.call c)) : ¬ c.Closes s.board l := by
  cases c with
  | close | shutdown => exact hno
  | sweep now =>
    obtain rfl : now = s.clock := hm
    obtain ⟨v, hv, hh⟩ := h
    rintro ⟨id, hstale⟩
    exact Board.not_mem_stale (served?_eq_some.1 hv).2.2 (hh.live.isStale hfresh) id hstale
  | _ => exact id

/-- What an event is told of the time is the present. -/
def Event.Timed (s : Service) : Event → Prop
  | .call c => c.MadeAt s.clock
  | _ => True

instance (s : Service) : (e : Event) → Decidable (e.Timed s)
  | .call c => inferInstanceAs (Decidable (c.MadeAt s.clock))
  | .accept _ | .sweeper | .receive .. | .endOfFrames _ | .vanish _ | .sever _ | .stop _ | .resume _
  | .forget | .elapse _ => inferInstanceAs (Decidable True)

/-- A frame, unless the client parts by it: if it comes from the client, it may be a pong. -/
theorem Thrives.receive {f : Incoming} (h : s.Thrives k l a t due) (hs : s.AtRest)
    (hcheck : ∀ session token, s.check session token ≠ .broken) (ht : t ≤ s.clock)
    (hfits : s.policy.Reads s.clock) (hread : s.clock < t + s.policy.readWait)
    (hdue : s.clock < due) (hno : ¬ s.Parts k l (.receive k' f)) :
    (s.hear k' f).settle.clock = s.clock ∧ ∃ t', t ≤ t' ∧ t' ≤ s.clock ∧
      (s.hear k' f).settle.Thrives k l a t' due ∧
      ∀ content, Event.receive k' f = .receive k (.pong content) → t' = s.clock := by
  have hstirred := stirred_hear hs.sound k' f
  have hnow := (steady_hear s k' f).clock
  by_cases hk : k' = k
  · subst hk
    have hclose : ∀ farewell, f ≠ .close farewell :=
      fun farewell e => hno ⟨rfl, .inl ⟨farewell, e⟩⟩
    have hreadable : f.unreadable s.policy.maxFrame = false :=
      Bool.eq_false_iff.2 fun hu => hno ⟨rfl, .inr hu⟩
    obtain ⟨t', htt', ht', hthrives, hpong⟩ := h.hear ht hfits hcheck hclose hreadable
    obtain ⟨hclock, hthrives'⟩ := hthrives.settle hs hstirred hnow (by omega) hdue
    refine ⟨hclock, t', htt', ht', hthrives', fun content e => hpong content ?_⟩
    cases e
    rfl
  · -- somebody else's frame
    obtain ⟨hclock, hthrives⟩ :=
      (h.hear_ne hs.sound ht hfits hk f).settle hs hstirred hnow hread hdue
    refine ⟨hclock, t, Nat.le_refl t, ht, hthrives, fun content e => absurd ?_ hk⟩
    cases e
    rfl

/-- **No event but the passing of time** does a socket any harm that is in time, unless the event
parts with the client, has it stop or breaks off the way to it.  A pong of the client is a sign of
life. -/
theorem Thrives.after (h : s.Thrives k l a t due) (hs : s.AtRest)
    (hcheck : ∀ session token, s.check session token ≠ .broken) (he : e.Fresh s)
    (htimed : e.Timed s) (ht : t ≤ s.clock) (hfits : s.policy.Reads s.clock)
    (hread : s.clock < t + s.policy.readWait) (hfresh : s.clock ≤ t + s.policy.staleAfter)
    (hdue : s.clock < due) (hno : ¬ s.Parts k l e) (hstop : e ≠ .stop k) (hsever : e ≠ .sever k)
    (htime : ∀ milliseconds, e ≠ .elapse milliseconds) :
    (s.after e).clock = s.clock ∧ ∃ t', t ≤ t' ∧ t' ≤ s.clock ∧ (s.after e).Thrives k l a t' due ∧
      ∀ content, e = .receive k (.pong content) → t' = s.clock := by
  have hsound := hs.sound
  -- a stir that leaves the socket as it is settles
  have hsettle : ∀ {u : Service}, Stirred s u → u.clock = s.clock →
      u.Thrives k l a t due → (∀ content, e ≠ .receive k (.pong content)) →
      u.settle.clock = s.clock ∧ ∃ t', t ≤ t' ∧ t' ≤ s.clock ∧ u.settle.Thrives k l a t' due ∧
        ∀ content, e = .receive k (.pong content) → t' = s.clock := by
    intro u hu hc hthrives hpong
    obtain ⟨hclock, hthrives'⟩ := hthrives.settle hs hu hc hread hdue
    exact ⟨hclock, t, Nat.le_refl t, ht, hthrives', fun content e' => absurd e' (hpong content)⟩
  cases e with
  | call c =>
    have hclose := h.not_closes htimed hfresh hno
    exact hsettle (stirred_call hsound c he) rfl (h.call htimed ht hfits hclose) (by simp)
  | sweeper => exact hsettle (stirred_sweeper hsound) rfl (h.of_eq rfl rfl) (by simp)
  | accept a' =>
    have hjoin := stirred_join hsound he a'
    obtain ⟨hclock, hthrives⟩ :=
      (h.join a').settle hs hjoin (steady_join s a').clock hread hdue
    exact ⟨hclock, t, Nat.le_refl t, ht, hthrives, by simp⟩
  | receive k' f => exact h.receive hs hcheck ht hfits hread hdue hno
  | endOfFrames k' =>
    exact hsettle (stirred_breakOff hsound k') (steady_breakOff s k').clock
      (h.breakOff_ne hsound hno) (by simp)
  | vanish k' =>
    refine hsettle (stirred_vanish hsound k') ?_ (h.vanish_ne hsound hno) (by simp)
    rw [vanish_eq]
    exact (steady_modifyServed s k' _).clock
  | sever k' =>
    have hk : k' ≠ k := fun e => hsever (congrArg Event.sever e)
    exact hsettle (stirred_sever hsound k') (steady_modifyServed s k' _).clock
      (h.sever_ne hsound hk) (by simp)
  | stop k' =>
    have hk : k' ≠ k := fun e => hstop (congrArg Event.stop e)
    exact ⟨rfl, t, Nat.le_refl t, ht, h.stop_ne hk, by simp⟩
  | resume k' =>
    exact hsettle (stirred_resume hsound k') (steady_modifyServed s k' _).clock (h.resume hsound k')
      (by simp)
  | forget => exact ⟨rfl, t, Nat.le_refl t, ht, h.forget, by simp⟩
  | elapse milliseconds => exact absurd rfl (htime milliseconds)

end Switchboard.Service
