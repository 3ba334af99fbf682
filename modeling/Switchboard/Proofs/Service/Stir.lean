/-
Switchboard/Proofs/Service/Stir.lean

What happens to the sockets of a service, and what they keep.

Whatever happens to a socket, it `Proceeds`: a closed connection stays closed,
and a pump that has ended stays so.  What its client does to it leaves the
writer alone besides, `Bears`.

`Stirred` says of a change that the service is still sound, that no sweeper and
no wait for room is late by it, and that every socket proceeds.  So settling
does, and after such a change the service comes to rest: `Calmed`.
-/
import Switchboard.Proofs.Service.Settle

namespace Switchboard

namespace Served

variable {p : Policy} {now : Nat} {v v' v'' : Served}

/-! ### What goes on -/

/-- A closed connection stays closed, and whichever pump has ended stays so. -/
structure Proceeds (v v' : Served) : Prop where
  closed : v.connection.closed = true → v'.connection.closed = true
  reader : v.socket.reader = .ended → v'.socket.reader = .ended
  writer : v.socket.writer = .ended → v'.socket.writer = .ended

theorem Proceeds.refl (v : Served) : Proceeds v v := ⟨id, id, id⟩

theorem Proceeds.trans (h : Proceeds v v') (h' : Proceeds v' v'') : Proceeds v v'' :=
  ⟨h'.closed ∘ h.closed, h'.reader ∘ h.reader, h'.writer ∘ h.writer⟩

theorem Onward.proceeds (h : v.Onward v') : Proceeds v v' := ⟨h.closed, h.reader, h.writer⟩

/-- The board may change a connection as it likes, but not open it again. -/
theorem proceeds_withConnection {c : Connection}
    (hc : v.connection.closed = true → c.closed = true) : Proceeds v ⟨c, v.socket⟩ :=
  ⟨hc, id, id⟩

/-- A socket that takes its turn goes on. -/
theorem proceeds_turn (p : Policy) (now : Nat) (v : Served) : Proceeds v (v.turn p now) := by
  have hrun : Proceeds v (v.run p now) := (onward_run p now v).proceeds
  rw [turn]
  split
  · -- to be finished is to be closed
    exact hrun.trans ⟨fun _ => rfl, id, id⟩
  · exact hrun

/-! ### What clients do -/

/-- What a client does leaves the writer alone. -/
structure Bears (v v' : Served) : Prop where
  onward : v.Onward v'
  writer : v'.socket.writer = v.socket.writer

theorem Bears.refl (v : Served) : Bears v v := ⟨.refl v, rfl⟩

theorem Bears.trans (h : Bears v v') (h' : Bears v' v'') : Bears v v'' :=
  ⟨h.onward.trans h'.onward, h'.writer.trans h.writer⟩

/-- The socket after its reader has broken down. -/
def fallen (v : Served) : Served := { v with socket := { v.socket with reader := .ended } }

/-- A reader that breaks down leaves the rest as it is. -/
theorem bears_fallen (v : Served) : Bears v v.fallen :=
  ⟨⟨rfl, id, rfl, rfl, fun _ => rfl, id, id⟩, rfl⟩

theorem bears_hangUp (v : Served) (parting : Parting) :
    Bears v ⟨v.connection.close.2, { v.socket with parting }⟩ :=
  ⟨⟨rfl, fun _ => rfl, rfl, rfl, id, id, id⟩, rfl⟩

/-- The way may change as long as it holds nothing when it is broken off. -/
theorem bears_withPipe {pipe : Pipe} (h : v.socket.pipe.Void → pipe.Void) :
    Bears v (v.withPipe pipe) :=
  ⟨onward_withPipe h, rfl⟩

theorem bears_put (v : Served) (f : Outgoing) : Bears v (v.withPipe (v.socket.pipe.put f)) :=
  bears_withPipe fun h => h.put f

/-- Nothing is held in a way that has just broken off. -/
theorem bears_vanish (v : Served) : Bears v (v.withPipe v.socket.pipe.vanish) :=
  bears_withPipe fun _ _ => rfl

/-- Nor in one from which all has been taken. -/
theorem bears_resume (v : Served) : Bears v (v.withPipe v.socket.pipe.resume) :=
  bears_withPipe fun _ _ => rfl

/-- The reader waits anew without a change of the connection. -/
theorem bears_extend (p : Policy) (v : Served) : Bears v (v.extend p) :=
  ⟨onward_extend p v, writer_extend p v⟩

/-- A sign of life is noted in the connection. -/
theorem bears_signOfLife (p : Policy) (now : Nat) (v : Served) : Bears v (v.signOfLife p now) := by
  rw [signOfLife]
  split
  · have ht : Bears v { v with connection := v.connection.touch now } := ⟨onward_touch now v, rfl⟩
    exact ht.trans (bears_extend p _)
  · exact .refl v

theorem bears_answerProbe (p : Policy) (now : Nat) (v : Served) :
    Bears v (v.answerProbe p now) := by
  rw [answerProbe]
  split
  · exact bears_signOfLife p now v
  · exact .refl v

/-- A client's own probe is answered, or the connection is closed. -/
theorem bears_echo (p : Policy) (content : Bytes) (v : Served) : Bears v (v.echo p content) := by
  have hsent := (bears_put v (.pong content)).trans (bears_extend p _)
  rw [echo]
  split
  · split
    · exact hsent.trans (bears_hangUp _ .silence)
    · exact hsent
  · exact hsent

/-- The socket after its client has vanished, and has been hung up on if anyone read from it. -/
def vanished (v : Served) : Served :=
  match v.socket.reader with
  | .ended => v.withPipe v.socket.pipe.vanish
  | .reading _ =>
    ⟨v.connection.close.2, { (v.withPipe v.socket.pipe.vanish).socket with parting := .silence }⟩

/-- A client that vanishes unnoticed takes the way with it. -/
theorem vanished_of_ended (hr : v.socket.reader = .ended) :
    v.vanished = v.withPipe v.socket.pipe.vanish := by rw [vanished, hr]

/-- One that is read is hung up on besides. -/
theorem vanished_of_reading {deadline : Nat} (hr : v.socket.reader = .reading deadline) :
    v.vanished = ⟨v.connection.close.2,
      { (v.withPipe v.socket.pipe.vanish).socket with parting := .silence }⟩ := by
  rw [vanished, hr]

/-- A client that vanishes is hung up on if anyone reads from it. -/
theorem bears_vanished (v : Served) : Bears v v.vanished := by
  cases hr : v.socket.reader with
  | ended =>
    rw [vanished_of_ended hr]
    exact bears_vanish v
  | reading deadline =>
    rw [vanished_of_reading hr]
    exact (bears_vanish v).trans (bears_hangUp _ .silence)

end Served

namespace Service

variable {s s' s'' : Service} {k : SocketNumber} {l : LineNumber} {v : Served}

/-! ### What goes on in a service -/

/-- A socket is still there, serves the same connection as before and has gone on. -/
structure Kept (k : SocketNumber) (s s' : Service) : Prop where
  length : k < s.sockets.length → k < s'.sockets.length
  vacant : k < s.sockets.length → s.served? k = none → s'.served? k = none
  served : ∀ {l : LineNumber} {v : Served}, s.served? k = some (l, v) →
    ∃ v', s'.served? k = some (l, v') ∧ v.Proceeds v'

/-- A socket that is left alone is kept. -/
theorem kept_of_eq (hlen : s'.sockets.length = s.sockets.length)
    (h : s'.served? k = s.served? k) : Kept k s s' :=
  ⟨fun hk => hlen ▸ hk, fun _ => h.trans, fun {_ v} hv => ⟨v, h.trans hv, .refl v⟩⟩

theorem Kept.trans (h : Kept k s s') (h' : Kept k s' s'') : Kept k s s'' where
  length := h'.length ∘ h.length
  vacant hk hn := h'.vacant (h.length hk) (h.vacant hk hn)
  served := by
    intro l v hv
    obtain ⟨v', hv', hp⟩ := h.served hv
    obtain ⟨v'', hv'', hp'⟩ := h'.served hv'
    exact ⟨v'', hv'', hp.trans hp'⟩

/-- The board goes on, and a socket is as it was. -/
theorem Sound.kept_withBoard (h : s.Sound) (ho : s.board.Onward s'.board)
    (hs : s'.sockets[k]? = s.sockets[k]?) : Kept k s s' where
  length hk := by
    rw [List.getElem?_eq_getElem hk] at hs
    exact (List.getElem?_eq_some_iff.1 hs).1
  vacant := by
    intro _ hn
    rcases e : s'.served? k with - | ⟨l, v⟩
    · rfl
    · -- whoever is served now was served before
      obtain ⟨c, hv⟩ := h.exists_served? hs e
      cases hn.symm.trans hv
  served := by
    intro l v hv
    obtain ⟨c', hv', hc⟩ := served?_withBoard ho hs hv
    exact ⟨_, hv', Served.proceeds_withConnection hc⟩

/-- So is one that proceeds. -/
theorem Turned.kept {f : Served → Served} (t : Turned k f s s')
    (hf : ∀ {l : LineNumber} {v : Served}, s.served? k = some (l, v) → v.Proceeds (f v)) :
    Kept k s s' where
  length hk := t.length ▸ hk
  vacant := by
    intro _ hn
    rw [t.own, hn]
    rfl
  served := by
    intro l v hv
    refine ⟨f v, ?_, hf hv⟩
    rw [t.own, hv]
    rfl

/-- Every socket goes on when the service settles. -/
theorem kept_settle (h : s.Sound) (hp : s.Punctual) (k : SocketNumber) : Kept k s s.settle := by
  -- the sweepers change only the board, and then each socket has its turn
  have hsweep : Kept k s s.runSweepers := h.kept_withBoard (onward_runSweepers h hp) rfl
  have hlen : s.settle.sockets.length = s.sockets.length := (turnedTo_settle h hp).length
  refine hsweep.trans ⟨fun hk => hlen.symm ▸ hk, fun _ hn => ?_, fun {l v} hv => ?_⟩
  · rw [served?_settle h hp, hn]
    rfl
  · refine ⟨_, ?_, Served.proceeds_turn s.policy s.clock v⟩
    rw [served?_settle h hp, hv]
    rfl

/-- A change after which all is sound and nobody has missed a time, in which every socket goes on
and no writer does anything. -/
structure Stirred (s s' : Service) : Prop where
  sound : s'.Sound
  policy : s'.policy = s.policy
  ahead : s.Ahead → s'.Ahead
  onTime : ∀ t, s.OnTime t → s'.OnTime t
  kept : ∀ k, Kept k s s'
  writer : ∀ {k : SocketNumber} {l : LineNumber} {v v' : Served}, s.served? k = some (l, v) →
    s'.served? k = some (l, v') → v'.socket.writer = v.socket.writer

theorem Stirred.trans (t : Stirred s s') (t' : Stirred s' s'') : Stirred s s'' := by
  refine ⟨t'.sound, t'.policy.trans t.policy, t'.ahead ∘ t.ahead,
    fun u hu => t'.onTime u (t.onTime u hu), fun k => (t.kept k).trans (t'.kept k), ?_⟩
  intro k l v v'' hv hv''
  obtain ⟨v', hv', -⟩ := (t.kept k).served hv
  exact (t'.writer hv' hv'').trans (t.writer hv hv')

/-- Nothing is stirred if nothing happens. -/
theorem stirred_self (h : s.Sound) : Stirred s s := by
  refine ⟨h, rfl, id, fun _ => id, fun _ => kept_of_eq rfl rfl, ?_⟩
  intro k l v v' hv hv'
  cases hv.symm.trans hv'
  rfl

/-- A service is at rest again, by the same rules, and every socket has gone on. -/
structure Calmed (s s' : Service) : Prop where
  atRest : s'.AtRest
  policy : s'.policy = s.policy
  kept : ∀ k, Kept k s s'

/-- After a change that leaves it sound, a service settles and is at rest. -/
theorem Stirred.calmed (h : s.AtRest) (t : Stirred s s') : Calmed s s'.settle := by
  have hp := (t.ahead h.ahead).punctual
  exact ⟨atRest_settle t.sound hp, (onward_settle t.sound hp).policy.trans t.policy,
    fun k => (t.kept k).trans (kept_settle t.sound hp k)⟩

/-- What is due depends on the sweepers and the clock alone. -/
theorem ahead_congr (hs : s'.sweepers = s.sweepers) (hp : s'.policy = s.policy)
    (hc : s'.clock = s.clock) (h : s.Ahead) : s'.Ahead := by
  intro w hw
  rw [hs] at hw
  rw [hp, hc]
  exact h w hw

/-- A writer is known from its socket alone. -/
theorem writer_of_socket {v' : Served} (hs : s'.sockets[k]? = s.sockets[k]?)
    (hv : s.served? k = some (l, v)) (hv' : s'.served? k = some (l, v')) :
    v'.socket.writer = v.socket.writer := by
  have hx := (served?_eq_some.1 hv').1
  rw [hs, (served?_eq_some.1 hv).1] at hx
  rw [Option.some.inj hx]

/-- Who waits for room is known from the sockets alone. -/
theorem Sound.onTime_withBoard (h : s.Sound) (hs : s'.sockets = s.sockets) {t : Nat}
    (ht : s.OnTime t) : s'.OnTime t := by
  intro k l v hv
  obtain ⟨c, hv₀⟩ := h.exists_served? (by rw [hs]) hv
  exact ht k l ⟨c, v.socket⟩ hv₀

/-- The board goes on. -/
theorem stirred_withBoard (h : s.Sound) (hi : s'.board.InStep) (ho : s.board.Onward s'.board)
    (hs : s'.sockets = s.sockets) (hw : s'.sweepers = s.sweepers) (hc : s'.clock = s.clock) :
    Stirred s s' :=
  ⟨h.withBoard hi ho hs hc.ge, ho.policy, ahead_congr hw ho.policy hc,
    fun _ => h.onTime_withBoard hs, fun k => h.kept_withBoard ho (by rw [hs]),
    writer_of_socket (by rw [hs])⟩

/-- A change that a socket bears stirs nothing else. -/
theorem Turned.stirred {f : Served → Served} (t : Turned k f s s')
    (hf : ∀ {l : LineNumber} {v : Served}, s.served? k = some (l, v) → v.Bears (f v)) :
    Stirred s s' := by
  refine ⟨t.sound, t.policy, ahead_congr t.sweepers t.policy t.clock, ?_, fun i => ?_, ?_⟩
  · intro u hu i l v hv
    by_cases hik : k = i
    · subst hik
      rw [t.own, Option.map_eq_some_iff] at hv
      obtain ⟨⟨l', w⟩, hw, e⟩ := hv
      cases e
      rw [(hf hw).writer]
      exact hu k l' w hw
    · rw [t.others i hik] at hv
      exact hu i l v hv
  · by_cases hik : k = i
    · subst hik
      exact t.kept fun hv => (hf hv).onward.proceeds
    · -- the change does not reach the other sockets
      exact kept_of_eq t.length (t.others i hik)
  · intro i l v v' hv hv'
    by_cases hik : k = i
    · subst hik
      have hown := t.own
      rw [hv, hv'] at hown
      cases hown
      exact (hf hv).writer
    · rw [t.others i hik] at hv'
      cases hv.symm.trans hv'
      rfl

/-- What a client does at its socket stirs the service. -/
theorem stirred_modifyServed (h : s.Sound) {f : Served → Served}
    (hf : ∀ {l : LineNumber} {v : Served}, s.served? k = some (l, v) → v.Bears (f v)) :
    Stirred s (s.modifyServed k f) := by
  have t : Turned k f s (s.modifyServed k f) := by
    refine turned_modifyServed h fun {l v} hv => ⟨(hf hv).onward, ?_, ?_⟩
    · exact (h.proper hv).timely.of_writer (hf hv).writer
    · exact (h.proper hv).loyal.of_writer (hf hv).onward (hf hv).writer
  exact t.stirred hf

end Service

end Switchboard
