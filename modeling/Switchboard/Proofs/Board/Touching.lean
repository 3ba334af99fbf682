/-
Switchboard/Proofs/Board/Touching.lean

When a connection was last heard of, and whether it is open.

Of all that can be done to a connection, only a touch sets the time of its
last sign of life, and only a closing closes it.  The handling of a frame
touches one connection at most, its own, and does so exactly if the message
is a ping; it closes none.  Which other calls close a connection is told by
`Call.Closes`, and `close_mem_acts_iff` says that this list is exact.
-/
import Switchboard.Proofs.Board.Sparing

namespace Switchboard

/-- Is it a ping message that the bytes bring? -/
def Envelope.isPing (received : Stamp) (content : Bytes) : Bool :=
  match ofBytes received content with
  | .ok m => (m.body matches .ping)
  | .error _ => false

namespace Connection

variable {c : Connection} {a : Act} {as : List Act} {now : Nat}

theorem lastSeen_after (ha : ∀ t, a ≠ .touch t) : (c.after a).lastSeen = c.lastSeen := by
  cases a with
  | touch t => exact absurd rfl (ha t)
  | send m =>
    rcases c.send_cases m with ⟨e, -⟩ | ⟨f, e⟩ <;> simp [after, orKeep, e, push]
  | take =>
    rcases e : c.outbox.waiting with - | ⟨m, rest⟩ <;> simp [after, receive, Outbox.take?, e]
  | identify who => rcases e : c.identity with - | old <;> simp [after, orKeep, identify, e]
  | _ => rfl

theorem closed_after_eq (ha : a ≠ .close) : (c.after a).closed = c.closed := by
  cases a with
  | close => exact absurd rfl ha
  | send m =>
    rcases c.send_cases m with ⟨e, -⟩ | ⟨f, e⟩ <;> simp [after, orKeep, e, push]
  | take =>
    rcases e : c.outbox.waiting with - | ⟨m, rest⟩ <;> simp [after, receive, Outbox.take?, e]
  | identify who => rcases e : c.identity with - | old <;> simp [after, orKeep, identify, e]
  | _ => rfl

/-- Without a touch the last sign of life is the old one. -/
theorem lastSeen_run (has : ∀ t, .touch t ∉ as) : (c.run as).lastSeen = c.lastSeen := by
  induction as generalizing c with
  | nil => rfl
  | cons a as ih =>
    have ha : (c.after a).lastSeen = c.lastSeen := lastSeen_after fun t e => has t (by simp [e])
    exact (ih fun t hm => has t (List.mem_cons_of_mem a hm)).trans ha

/-- With a touch at the present, and none at any other time, the last sign of life is now. -/
theorem lastSeen_run_of_touch (has : ∀ t, .touch t ∈ as → t = now) (hm : .touch now ∈ as) :
    (c.run as).lastSeen = now := by
  induction as using List.reverseRecOn with
  | nil => cases hm
  | append_singleton as a ih =>
    rw [run_append]
    show ((c.run as).after a).lastSeen = now
    by_cases ha : ∃ t, a = .touch t
    · obtain ⟨t, rfl⟩ := ha
      exact has t (by simp)
    · have hne : ∀ t, a ≠ .touch t := fun t e => ha ⟨t, e⟩
      rw [lastSeen_after hne]
      refine ih (fun t ht => has t (List.mem_append_left _ ht)) ?_
      exact (List.mem_append.1 hm).resolve_right fun h => hne now (List.mem_singleton.1 h).symm

theorem closed_run_iff : (c.run as).closed = true ↔ c.closed = true ∨ .close ∈ as := by
  constructor
  · intro hc
    by_contra hno
    obtain ⟨hopen, hm⟩ := not_or.1 hno
    have hkeep : (c.run as).closed = c.closed := by
      induction as generalizing c with
      | nil => rfl
      | cons a as ih =>
        obtain ⟨ha, has⟩ : Act.close ≠ a ∧ .close ∉ as := by simpa using hm
        have hafter : (c.after a).closed = c.closed := closed_after_eq ha.symm
        have hopen' : ¬ (c.after a).closed = true := hafter ▸ hopen
        exact (ih hc (not_or.2 ⟨hopen', has⟩) hopen' has).trans hafter
    exact hopen (hkeep ▸ hc)
  · rintro (hc | hm)
    · exact closed_run hc as
    · exact closed_run_of_mem hm c

end Connection

namespace Board

open Connection (Act)

variable {b : Board} {l l' : LineNumber} {k : Call} {now t : Nat} {check : Check} {draw : Draw}
  {content : Bytes}

/-! ### Closings -/

theorem not_mem_plainActs_of_scripted (hk : k.Scripted) : .close ∉ plainActs l b k := by
  cases k with
  | subscribe id channel | unsubscribe id channel =>
    rw [plainActs]
    split
    · exact fun hm => by cases (mem_aimed.1 hm).2
    · exact List.not_mem_nil
  | touch | identify | toChannel | send => exact fun hm => by cases (mem_aimed.1 hm).2
  | _ => exact hk.elim

/-- **A call closes a connection** if and only if it is one of those listed. -/
theorem close_mem_acts_iff : .close ∈ b.acts l k ↔ k.Closes b l := by
  cases k with
  | close l' =>
    refine mem_aimed.trans ((and_iff_left rfl).trans List.mem_singleton |>.trans ?_)
    exact eq_comm
  | shutdown => exact mem_aimed.trans ((and_iff_left rfl).trans mem_values)
  | sweep now =>
    refine mem_aimed.trans ((and_iff_left rfl).trans List.mem_map |>.trans ?_)
    constructor
    · rintro ⟨⟨id, l'⟩, hm, rfl⟩
      exact ⟨id, hm⟩
    · rintro ⟨id, hm⟩
      exact ⟨(id, l), hm, rfl⟩
  | frame check now draw l' content =>
    refine iff_of_false (fun hm => ?_) id
    obtain ⟨ks, k, hk, ha⟩ := exists_of_mem_acts_frame hm
    exact not_mem_plainActs_of_scripted (scripted_of_mem_script hk) ha
  | enter | unregister => exact iff_of_false List.not_mem_nil id
  | subscribe id channel =>
    have hk : (Call.subscribe id channel).Scripted := trivial
    exact iff_of_false (not_mem_plainActs_of_scripted hk) fun h => h
  | unsubscribe id channel =>
    have hk : (Call.unsubscribe id channel).Scripted := trivial
    exact iff_of_false (not_mem_plainActs_of_scripted hk) fun h => h
  | _ => exact iff_of_false (fun hm => by cases (mem_aimed.1 hm).2) fun h => h

/-! ### Touches -/

theorem eq_touch_of_mem_plainActs (hm : .touch t ∈ plainActs l b k) : k = .touch l t := by
  cases k with
  | touch l' t' =>
    obtain ⟨hl, ht⟩ := mem_aimed.1 hm
    cases List.mem_singleton.1 hl
    cases ht
    rfl
  | subscribe id channel | unsubscribe id channel =>
    rw [plainActs] at hm
    split at hm
    · cases (mem_aimed.1 hm).2
    · cases hm
  | enter | unregister | frame => cases hm
  | _ => cases (mem_aimed.1 hm).2

/-- Only a ping message asks for a touch. -/
theorem body_of_request?_touch {m : Envelope}
    (h : b.request? check now draw l' m = some (.touch l t)) :
    l' = l ∧ t = now ∧ m.body = .ping := by
  rw [request?] at h
  rcases hc : b.lines[l']? with - | c
  · simp [hc] at h
  · simp only [hc] at h
    cases hb : m.body with
    | ping =>
      simp only [hb] at h
      cases h
      exact ⟨rfl, rfl, rfl⟩
    | _ =>
      simp only [hb] at h
      repeat' split at h
      all_goals cases h

/-- **A frame is a touch** of the connection that it comes from, at the present time, if it brings a
ping message, and of no connection otherwise. -/
theorem touch_mem_acts_frame (hl : l' < b.lines.length) :
    .touch t ∈ b.acts l (.frame check now draw l' content) ↔
      l' = l ∧ t = now ∧ Envelope.isPing draw.received content = true := by
  have hreply : .touch t ∉ ((b.reply? check now draw l' content).toList.flatMap fun m =>
      aimed l [l'] (.send m)) := by
    intro hm
    obtain ⟨m, -, hm⟩ := List.mem_flatMap.1 hm
    cases (mem_aimed.1 hm).2
  rw [acts_frame, List.mem_append, or_iff_left hreply, asked?, Envelope.isPing]
  rcases Envelope.ofBytes draw.received content with failure | m
  · simp [trace, logged]
  · rcases hk : b.request? check now draw l' m with - | k
    · -- nothing is asked for, and so no touch
      refine iff_of_false (by simp [hk, trace, logged]) ?_
      rintro ⟨-, -, hping⟩
      have hbody : m.body = .ping := by
        cases hb : m.body <;> simp_all
      have hc := List.getElem?_eq_getElem hl
      simp [request?, hc, hbody] at hk
    · have htrace : b.trace (plainActs l) [k] = plainActs l b k := List.append_nil _
      simp only [hk, Option.toList_some, htrace]
      constructor
      · intro hm
        obtain rfl := eq_touch_of_mem_plainActs hm
        obtain ⟨rfl, rfl, hbody⟩ := body_of_request?_touch hk
        exact ⟨rfl, rfl, by simp [hbody]⟩
      · rintro ⟨rfl, rfl, hping⟩
        have hbody : m.body = .ping := by
          cases hb : m.body <;> simp_all
        have hc := List.getElem?_eq_getElem hl
        simp only [request?, hc, hbody] at hk
        cases hk
        exact mem_aimed.2 ⟨List.mem_singleton_self l', rfl⟩

end Board

end Switchboard
