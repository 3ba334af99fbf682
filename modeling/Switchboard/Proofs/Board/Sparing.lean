/-
Switchboard/Proofs/Board/Sparing.lean

What calls leave of a connection that lives.

A connection is `LiveFrom` a time on if it is open and has given a sign of life
then or later.  Only a few calls can end that: one that closes the connection
itself, the end of the service, and a sweep that finds the connection stale.
They are listed in `Call.Closes`.  Every other call spares the connection, a
frame of another client among them, and whatever sign of life it notes is of the
time that it is told: that this is the present is what `Call.MadeAt` asks of it.
-/
import Switchboard.Proofs.Board.Acts
import Switchboard.Proofs.Board.Fanout

namespace Switchboard

namespace Connection

variable {c : Connection} {t now allowed : Nat}

/-- The connection is open, and its last sign of life is not from before the time given. -/
def LiveFrom (t : Nat) (c : Connection) : Prop := c.closed = false ∧ t ≤ c.lastSeen

/-- A connection is not stale as long as its last sign of life is not too old. -/
theorem LiveFrom.isStale (h : c.LiveFrom t) (hnow : now ≤ t + allowed) :
    c.isStale allowed now = false := by
  have hidle : ¬ allowed < c.idle now := by
    have ht := h.2
    rw [idle]
    omega
  simp [Connection.isStale, h.1, hidle]

/-- The connection goes on as it is, but that it may have given a sign of life at the time given. -/
structure Spared (now : Nat) (c c' : Connection) : Prop where
  closed : c'.closed = c.closed
  lastSeen : c'.lastSeen = c.lastSeen ∨ c'.lastSeen = now

theorem Spared.refl (now : Nat) (c : Connection) : Spared now c c := ⟨rfl, .inl rfl⟩

/-- Whoever is spared twice is spared. -/
theorem Spared.trans {c' c'' : Connection} (h : Spared now c c') (h' : Spared now c' c'') :
    Spared now c c'' where
  closed := h'.closed.trans h.closed
  lastSeen := h'.lastSeen.elim (fun e => h.lastSeen.imp e.trans e.trans) .inr

/-- Whoever is spared is as live as before, if not more. -/
theorem LiveFrom.spared {c' : Connection} (h : c.LiveFrom t) (hs : Spared now c c') (ht : t ≤ now) :
    c'.LiveFrom t :=
  ⟨hs.closed.trans h.1, hs.lastSeen.elim (fun e => e.symm ▸ h.2) fun e => e.symm ▸ ht⟩

/-- An act that does not close the connection, and notes no sign of life but of the time given. -/
def Act.Sparing (now : Nat) : Act → Prop
  | .close => False
  | .touch t => t = now
  | _ => True

theorem spared_after {a : Act} (ha : a.Sparing now) (c : Connection) :
    Spared now c (c.after a) := by
  cases a with
  | close => exact ha.elim
  | touch t =>
    obtain rfl : t = now := ha
    exact ⟨rfl, .inr rfl⟩
  | send m =>
    rcases c.send_cases m with ⟨e, -⟩ | ⟨f, e⟩ <;>
      simp only [Connection.after, orKeep, e] <;> exact ⟨rfl, .inl rfl⟩
  | take =>
    rcases e : c.outbox.waiting with - | ⟨m, rest⟩ <;>
      simp only [Connection.after, receive, Outbox.take?, e] <;> exact ⟨rfl, .inl rfl⟩
  | identify who =>
    rcases e : c.identity with - | old <;>
      simp only [Connection.after, orKeep, Connection.identify, e] <;> exact ⟨rfl, .inl rfl⟩
  | _ => exact ⟨rfl, .inl rfl⟩

/-- **A history of acts that spare** spares. -/
theorem spared_run {as : List Act} (has : ∀ a ∈ as, a.Sparing now) (c : Connection) :
    Spared now c (c.run as) := by
  induction as generalizing c with
  | nil => exact .refl now c
  | cons a as ih =>
    obtain ⟨ha, has⟩ := List.forall_mem_cons.1 has
    exact (spared_after ha c).trans (ih has _)

end Connection

namespace Board

open Connection (Act)

variable {b : Board} {l : LineNumber} {c : Connection} {k : Call} {now : Nat}

/-- A call that is made at the time given: whatever time it is told is the present. -/
def Call.MadeAt (now : Nat) : Call → Prop
  | .enter _ _ t | .sweep t | .touch _ t | .frame _ t _ _ _ => t = now
  | _ => True

instance (now : Nat) : (k : Call) → Decidable (k.MadeAt now)
  | .enter _ _ t | .sweep t | .touch _ t | .frame _ t _ _ _ => inferInstanceAs (Decidable (t = now))
  | .unregister _ | .identify _ _ | .subscribe _ _ | .unsubscribe _ _ | .shutdown | .broadcast _
  | .toChannel _ _ | .toUser _ _ | .send _ _ | .close _ | .receive _ | .forsake _ =>
    inferInstanceAs (Decidable True)

/-- A call that closes the connection of that number. -/
def Call.Closes (b : Board) (l : LineNumber) : Call → Prop
  | .close l' => l' = l
  | .shutdown => ∃ id : ConnectionId, b.registered[id]? = some l
  | .sweep now => ∃ id, (id, l) ∈ b.stale now
  | _ => False

/-! ### Calls other than frames -/

/-- A call made now spares a connection that it does not close, frames apart. -/
theorem sparing_of_mem_plainActs {a : Act} (hm : k.MadeAt now) (hno : ¬ k.Closes b l)
    (ha : a ∈ plainActs l b k) : a.Sparing now := by
  cases k with
  | enter | unregister | frame => cases ha
  | subscribe id channel | unsubscribe id channel =>
    rw [plainActs] at ha
    split at ha
    · rw [(mem_aimed.1 ha).2]
      trivial
    · cases ha
  | touch l' t' =>
    rw [(mem_aimed.1 ha).2]
    exact hm
  | sweep t' =>
    obtain ⟨⟨id, l'⟩, hstale, rfl⟩ := List.mem_map.1 (mem_aimed.1 ha).1
    exact absurd ⟨id, hstale⟩ hno
  | shutdown => exact absurd (mem_values.1 (mem_aimed.1 ha).1) hno
  | close l' => exact absurd (List.mem_singleton.1 (mem_aimed.1 ha).1).symm hno
  | _ =>
    rw [(mem_aimed.1 ha).2]
    trivial

/-! ### Frames -/

/-- None of the calls that a frame makes closes anybody. -/
theorem Call.Scripted.not_closes (h : k.Scripted) : ¬ k.Closes b l := by
  cases k with
  | close | shutdown | sweep => exact h.elim
  | _ => exact id

/-- What a message asks for is done at the present time. -/
theorem madeAt_of_request? {check : Check} {draw : Draw} {m : Envelope}
    (h : b.request? check now draw l m = some k) : k.MadeAt now := by
  have hs := scripted_of_request? h
  cases k with
  | touch l' t' =>
    rw [request?] at h
    rcases hc : b.lines[l]? with - | c
    · simp [hc] at h
    · simp only [hc] at h
      cases hb : m.body with
      | ping =>
        simp only [hb] at h
        cases h
        rfl
      | _ =>
        -- nothing else asks for a touch
        simp only [hb] at h
        repeat' split at h
        all_goals cases h
  | enter | sweep | frame => exact hs.elim
  | _ => trivial

theorem madeAt_of_mem_script {check : Check} {draw : Draw} {content : Bytes}
    (h : k ∈ b.script check now draw l content) : k.MadeAt now := by
  rcases List.mem_append.1 h with h | h
  · rcases e : Envelope.ofBytes draw.received content with failure | m
    · simp [e] at h
    · simp only [e, Option.mem_toList] at h
      exact madeAt_of_request? h
  · obtain ⟨m, -, rfl⟩ := List.mem_map.1 h
    trivial

/-! ### All calls -/

/-- A call made now spares a connection that it does not close. -/
theorem sparing_of_mem_acts {a : Act} (hm : k.MadeAt now) (hno : ¬ k.Closes b l)
    (ha : a ∈ b.acts l k) : a.Sparing now := by
  by_cases hk : k.Plain
  · rw [acts_of_plain hk] at ha
    exact sparing_of_mem_plainActs hm hno ha
  · cases k with
    | frame check now' draw l' content =>
      obtain rfl : now' = now := hm
      obtain ⟨ks, k, hk, ha⟩ := exists_of_mem_acts_frame ha
      exact sparing_of_mem_plainActs (madeAt_of_mem_script hk)
        (scripted_of_mem_script hk).not_closes ha
    | _ => exact absurd trivial hk

/-- **A call that does not close a connection** spares it. -/
theorem spared_after (hc : b.lines[l]? = some c) (hm : k.MadeAt now) (hno : ¬ k.Closes b l) :
    ∃ c', (b.after k).lines[l]? = some c' ∧ c.Spared now c' :=
  ⟨_, getElem?_after_of_some hc k,
    Connection.spared_run (fun _ ha => sparing_of_mem_acts hm hno ha) c⟩

/-! ### Sweeps -/

/-- Whoever has been heard of in time is in no sweep. -/
theorem not_mem_stale (hc : b.lines[l]? = some c)
    (hs : c.isStale b.policy.staleAfter now = false) (id : ConnectionId) :
    (id, l) ∉ b.stale now := by
  intro hm
  have hstale : b.isStale now l = true := (List.mem_filter.1 hm).2
  rw [isStale, hc] at hstale
  exact absurd (hs.symm.trans hstale) (by simp)

/-- A sweep does nothing to a connection that is not stale. -/
theorem getElem?_sweep (hc : b.lines[l]? = some c)
    (hs : c.isStale b.policy.staleAfter now = false) : (b.sweep now).2.lines[l]? = some c := by
  have hacts : plainActs l b (.sweep now) = [] := by
    refine aimed_eq_nil fun hm => ?_
    obtain ⟨⟨id, l'⟩, hstale, rfl⟩ := List.mem_map.1 hm
    exact not_mem_stale hc hs id hstale
  have hafter := getElem?_after_plain (b := b) (k := .sweep now) trivial id l
  rw [hacts, hc] at hafter
  exact hafter

end Board

end Switchboard
