/-
Switchboard/Proofs/Board/Authentication.lean

How often a connection proves who it is.

The identity of a connection is asked for when a frame tries to prove one, and
it is set on behalf of the connection's name, which has to lead to it by then.
So a frame is answered with a success, a `welcome`, only where a registered
connection had no identity before, and what the answer tells is what has been
bound (`Founded.of_welcome`).  An identity being for good, a run has at most
one welcome for a connection (`length_welcomes_le`), however the identity of
others or of the connection itself is set past its frames.

An attempt that brings no welcome leaves the board as it was, but for the
reply (`FailedAttempts.kept`), and so it costs the client nothing.
-/
import Switchboard.Proofs.Board.Operations

namespace Switchboard.Board

open Connection (Act)

variable {b b' : Board} {l : LineNumber} {c : Connection} {o : Operation} {os fs : List Operation}
  {check : Check} {now : Nat} {draw : Draw} {content : Bytes} {m reply : Envelope}
  {token : String} {who : Identity} {r : AuthResult}

/-! ### Attempts and welcomes -/

/-- The result of a proof of identity that has succeeded. -/
def welcome? : Body → Option AuthResult
  | .authResult r => if r.success then some r else none
  | _ => none

/-- The welcomes by which a connection is answered in an operation. -/
def welcomes (l : LineNumber) (b : Board) : Operation → List AuthResult
  | .call (.frame check now draw l' content) =>
    if l' = l then ((b.reply? check now draw l content).bind (welcome? ·.body)).toList else []
  | _ => []

/-- A frame of the connection that tries to prove an identity. -/
def Operation.Attempts (l : LineNumber) : Operation → Prop
  | .call (.frame _ _ draw l' content) =>
    l' = l ∧ ∃ m token, Envelope.ofBytes draw.received content = .ok m ∧ m.body = .auth token
  | _ => False

/-- Attempts one after the other, none of which brings a welcome. -/
def FailedAttempts (l : LineNumber) (b : Board) (fs : List Operation) : Prop :=
  (∀ f ∈ fs, f.Attempts l) ∧ logged operate (welcomes l) b fs = []

/-! ### The answer to an attempt -/

/-- Whoever has an identity is told so, whatever the token. -/
theorem handle_auth_of_identified (hc : b.lines[l]? = some c) (hi : c.identity = some who)
    (hm : m.body = .auth token) : b.handle check now draw l m =
      (some (Envelope.reply draw.reply m Fault.alreadyAuthenticated.body), b) := by
  have hd : b.dispatch check now draw l m = (.fault .alreadyAuthenticated, b) := by
    simp [dispatch, hc, hm, authenticate, Connection.isIdentified, hi]
  rw [handle, hd]

theorem handle_auth_of_accepted (hc : b.lines[l]? = some c) (hi : c.identity = none)
    (hm : m.body = .auth token) (ht : check draw.session token = .accepted who)
    (hb : b.identify c.id who = .ok b') : b.handle check now draw l m =
      (some (Envelope.reply draw.reply m (.authResult (.accepted who))), b') := by
  have hd : b.dispatch check now draw l m = (.answer (.authResult (.accepted who)), b') := by
    simp [dispatch, hc, hm, authenticate, Connection.isIdentified, hi, ht, hb, answering]
  rw [handle, hd]

/-- An attempt either binds the identity that it is answered with, or it has no effect. -/
theorem handle_auth_cases (hc : b.lines[l]? = some c) (hi : c.identity = none)
    (hm : m.body = .auth token) (check : Check) (now : Nat) (draw : Draw) :
    (∃ who b', b.identify c.id who = .ok b' ∧ b.handle check now draw l m =
      (some (Envelope.reply draw.reply m (.authResult (.accepted who))), b')) ∨
    (b.handle check now draw l m).2 = b := by
  have hd : b.dispatch check now draw l m = b.authenticate check draw.session c token := by
    rw [dispatch, hc]
    simp only [hm]
  rcases ht : check draw.session token with who | reason | -
  · rcases hb : b.identify c.id who with f | b'
    · right
      simp [handle, hd, authenticate, Connection.isIdentified, hi, ht, hb, answering]
    · exact .inl ⟨who, b', hb, handle_auth_of_accepted hc hi hm ht hb⟩
  · right
    simp [handle, hd, authenticate, Connection.isIdentified, hi, ht]
  · right
    simp [handle, hd, authenticate, Connection.isIdentified, hi, ht]

/-! ### Where welcomes come from -/

theorem answering_eq_answer {body body' : Body} {e : Except Fault Board}
    (h : b.answering body e = (.answer body', b')) : body' = body ∧ e = .ok b' := by
  obtain ⟨b'', he, h'⟩ | ⟨f, -, h'⟩ := answering_cases b body e
  · rw [h'] at h
    cases h
    exact ⟨rfl, he⟩
  · rw [h'] at h
    cases h

/-- Results of proofs come from attempts. -/
theorem dispatch_eq_authResult
    (h : b.dispatch check now draw l m = (.answer (.authResult r), b')) :
    ∃ c token, b.lines[l]? = some c ∧ m.body = .auth token ∧
      b.authenticate check draw.session c token = (.answer (.authResult r), b') := by
  rw [dispatch] at h
  rcases hc : b.lines[l]? with - | c
  · simp [hc] at h
  · simp only [hc] at h
    cases hb : m.body with
    | auth token =>
      simp only [hb] at h
      exact ⟨c, token, rfl, rfl, h⟩
    | subscribe channel | unsubscribe channel =>
      simp only [hb] at h
      split at h
      · cases (answering_eq_answer h).1
      · cases h
    | publish channel data =>
      simp only [hb] at h
      split at h
      · rw [publish] at h
        cases hk : checkChannel channel <;> simp [hk] at h
      · cases h
    | _ => simp [hb] at h

/-- A proof that succeeds is one of a connection without an identity, and binds the identity that
the result tells. -/
theorem authenticate_eq_authResult
    (h : b.authenticate check draw.session c token = (.answer (.authResult r), b'))
    (hr : r.success = true) : c.identity = none ∧ ∃ who, r = .accepted who ∧
      check draw.session token = .accepted who ∧ b.identify c.id who = .ok b' := by
  rw [authenticate] at h
  split at h
  · cases h
  · rename_i hi
    refine ⟨by simpa [Connection.isIdentified] using hi, ?_⟩
    rcases ht : check draw.session token with who | reason | -
    · simp only [ht] at h
      obtain ⟨e, hb⟩ := answering_eq_answer h
      cases e
      exact ⟨who, rfl, rfl, hb⟩
    · simp only [ht] at h
      cases h
      cases hr
    · simp [ht] at h

/-- **What a welcome tells has just been bound** to a connection that had no identity. -/
theorem handle_of_welcome (hm : (b.handle check now draw l m).1 = some reply)
    (hw : welcome? reply.body = some r) : ∃ c who, b.lines[l]? = some c ∧ c.identity = none ∧
      r = .accepted who ∧ b.identify c.id who = .ok (b.handle check now draw l m).2 := by
  rcases hd : b.dispatch check now draw l m with ⟨body | f | -, b'⟩
  · simp only [handle, hd] at hm ⊢
    cases hm
    have hbody : ∃ r', body = .authResult r' ∧ r'.success = true ∧ r' = r := by
      change welcome? body = some r at hw
      cases body with
      | authResult r' =>
        rw [welcome?] at hw
        split at hw
        · rename_i hs
          exact ⟨r', rfl, hs, Option.some.inj hw⟩
        · cases hw
      | _ => cases hw
    obtain ⟨r', rfl, hs, rfl⟩ := hbody
    obtain ⟨c, token, hc, -, ha⟩ := dispatch_eq_authResult hd
    obtain ⟨hi, who, hr, -, hb⟩ := authenticate_eq_authResult ha hs
    exact ⟨c, who, hc, hi, hr, hb⟩
  · simp only [handle, hd] at hm
    cases hm
    cases hw
  · simp [handle, hd] at hm

/-- The welcomes of a frame are those of its message. -/
theorem mem_welcomes_frame {l' : LineNumber}
    (h : r ∈ b.welcomes l (.call (.frame check now draw l' content))) : l' = l ∧
      ∃ m reply, Envelope.ofBytes draw.received content = .ok m ∧
        (b.handle check now draw l m).1 = some reply ∧ welcome? reply.body = some r := by
  rw [welcomes] at h
  split at h
  · rename_i hl
    rw [Option.mem_toList, Option.bind_eq_some_iff] at h
    obtain ⟨reply, hreply, hw⟩ := h
    rw [reply?] at hreply
    rcases hm : Envelope.ofBytes draw.received content with failure | m
    · -- what is not a message is answered with an error
      simp only [hm, Option.some.injEq] at hreply
      rw [← hreply] at hw
      cases hw
    · simp only [hm] at hreply
      exact ⟨hl, m, reply, rfl, hreply, hw⟩
  · cases h

theorem operate_frame_of_ok (hm : Envelope.ofBytes draw.received content = .ok m) :
    b.operate (.call (.frame check now draw l content)) =
      match (b.handle check now draw l m).1 with
      | some reply => ((b.handle check now draw l m).2.offer l reply).2
      | none => (b.handle check now draw l m).2 := by
  show (b.handleFrame check now draw l content).2 = _
  simp only [handleFrame, hm]
  rcases b.handle check now draw l m with ⟨- | reply, b'⟩ <;> rfl

/-! ### A welcome, and what comes before and after it -/

theorem Founded.getElem?_identify (h : b.Founded) (hc : b.lines[l]? = some c)
    (hb : b.identify c.id who = .ok b') :
    b'.lines[l]? = some { c with identity := some who } := by
  obtain ⟨l', c', hl', hc', -, rfl⟩ := identify_eq_ok hb
  obtain rfl : l' = l := h.line_eq_of_registered hl' hc
  cases hc.symm.trans hc'
  exact getElem?_modify_self hc'

theorem getElem?_offer_self (hc : b.lines[l]? = some c) (m : Envelope) :
    (b.offer l m).2.lines[l]? = some (c.after (.send m)) :=
  (getElem?_offer b l m l).trans (getElem?_modify_self hc)

/-- **A welcome binds what it tells.**  The connection had no identity before the frame, and has the
one of the welcome afterwards. -/
theorem Founded.of_welcome (h : b.Founded) (hr : r ∈ b.welcomes l o) :
    ∃ c c' who, b.lines[l]? = some c ∧ c.identity = none ∧
      (b.operate o).lines[l]? = some c' ∧ c'.identity = some who ∧ r = .accepted who := by
  cases o with
  | call k =>
    cases k with
    | frame check now draw l' content =>
      obtain ⟨rfl, m, reply, hm, hreply, hw⟩ := mem_welcomes_frame hr
      obtain ⟨c, who, hc, hi, rfl, hb⟩ := handle_of_welcome hreply hw
      have hc' := h.getElem?_identify hc hb
      refine ⟨c, Connection.after { c with identity := some who } (.send reply), who, hc, hi, ?_,
        Connection.identity_after _ rfl, rfl⟩
      rw [operate_frame_of_ok hm, hreply]
      exact getElem?_offer_self hc' reply
    | _ => cases hr
  | _ => cases hr

theorem welcomes_eq_nil (hc : b.lines[l]? = some c) (hi : c.identity = some who)
    (o : Operation) : b.welcomes l o = [] := by
  refine List.eq_nil_iff_forall_not_mem.2 fun r hr => ?_
  cases o with
  | call k =>
    cases k with
    | frame check now draw l' content =>
      obtain ⟨rfl, m, reply, -, hreply, hw⟩ := mem_welcomes_frame hr
      obtain ⟨c', who', hc', hi', -⟩ := handle_of_welcome hreply hw
      cases hc.symm.trans hc'
      cases hi.symm.trans hi'
    | _ => cases hr
  | _ => cases hr

/-- Whoever has an identity is welcomed no more. -/
theorem logged_welcomes_eq_nil (hc : b.lines[l]? = some c) (hi : c.identity = some who)
    (os : List Operation) : logged operate (welcomes l) b os = [] := by
  induction os generalizing b c with
  | nil => rfl
  | cons o os ih =>
    show b.welcomes l o ++ logged operate (welcomes l) (b.operate o) os = []
    rw [welcomes_eq_nil hc hi,
      ih (getElem?_operate_of_some hc o) (Connection.identity_run hi _)]
    rfl

theorem length_welcomes (l : LineNumber) (b : Board) (o : Operation) :
    (b.welcomes l o).length ≤ 1 := by
  cases o with
  | call k =>
    cases k with
    | frame check now draw l' content =>
      rw [welcomes]
      split
      · exact Option.length_toList_le
      · exact Nat.zero_le 1
    | _ => exact Nat.zero_le 1
  | _ => exact Nat.zero_le 1

/-- **A run has at most one welcome for a connection.** -/
theorem Founded.length_welcomes_le (h : b.Founded) (hf : b.Throughout Operation.Fresh os)
    (l : LineNumber) :
    (logged Board.operate (welcomes l) b os).length ≤ 1 := by
  induction os generalizing b with
  | nil => exact Nat.zero_le 1
  | cons o os ih =>
    show (b.welcomes l o ++ logged Board.operate (welcomes l) (b.operate o) os).length ≤ 1
    rcases e : b.welcomes l o with - | ⟨r, rs⟩
    · exact ih (h.operate o hf.1) hf.2
    · -- the connection has an identity from then on
      obtain ⟨c, c', who, -, -, hc', hi', -⟩ :=
        h.of_welcome (r := r) (by rw [e]; exact List.mem_cons_self)
      rw [logged_welcomes_eq_nil hc' hi', List.append_nil, ← e]
      exact length_welcomes l b o

/-- **An accepted token is welcomed**, as long as the connection is registered and has no
identity. -/
theorem welcome_of_accepted (hl : b.registered[c.id]? = some l) (hc : b.lines[l]? = some c)
    (hi : c.identity = none) (hm : Envelope.ofBytes draw.received content = .ok m)
    (hbody : m.body = .auth token) (ht : check draw.session token = .accepted who) :
    b.reply? check now draw l content =
        some (Envelope.reply draw.reply m (.authResult (.accepted who))) ∧
      .accepted who ∈ b.welcomes l (.call (.frame check now draw l content)) := by
  obtain ⟨b', hok⟩ := identify_of_registered hl hc hi who
  have hreply : b.reply? check now draw l content =
      some (Envelope.reply draw.reply m (.authResult (.accepted who))) := by
    simp only [reply?, hm]
    rw [handle_auth_of_accepted hc hi hbody ht hok]
  refine ⟨hreply, ?_⟩
  rw [welcomes, if_pos rfl, hreply]
  exact List.mem_singleton_self _

/-! ### Attempts that fail -/

/-- An attempt of a connection without an identity that brings no welcome leaves the board as it
was, but for the reply. -/
theorem operate_of_failed (hc : b.lines[l]? = some c) (hi : c.identity = none)
    (ho : o.Attempts l) (hw : b.welcomes l o = []) :
    b.operate o = b ∨ ∃ reply, b.operate o = (b.offer l reply).2 := by
  cases o with
  | call k =>
    cases k with
    | frame check now draw l' content =>
      obtain ⟨rfl, m, token, hm, hb⟩ := ho
      have hsame : (b.handle check now draw l' m).2 = b := by
        rcases handle_auth_cases hc hi hb check now draw with
          ⟨who, b', -, e⟩ | e
        · -- that would be a welcome
          simp [welcomes, reply?, hm, e, welcome?, Envelope.reply, Envelope.answering,
            Envelope.new, AuthResult.accepted] at hw
        · exact e
      rw [operate_frame_of_ok hm, hsame]
      rcases (b.handle check now draw l' m).1 with - | reply
      · exact .inl rfl
      · exact .inr ⟨reply, rfl⟩
    | _ => exact ho.elim
  | _ => exact ho.elim

theorem closed_after_send (c : Connection) (m : Envelope) :
    (c.after (.send m)).closed = c.closed := by
  rcases c.send_cases m with ⟨e, -⟩ | ⟨f, e⟩ <;>
    simp [Connection.after, Connection.orKeep, e, Connection.push]

theorem identity_after_send (c : Connection) (m : Envelope) :
    (c.after (.send m)).identity = c.identity := by
  rcases c.send_cases m with ⟨e, -⟩ | ⟨f, e⟩ <;>
    simp [Connection.after, Connection.orKeep, e, Connection.push]

/-- **Attempts that fail cost nothing**, however many there are. -/
theorem FailedAttempts.kept (h : FailedAttempts l b fs) (hc : b.lines[l]? = some c)
    (hi : c.identity = none) : (b.through fs).registered = b.registered ∧
      ∃ c', (b.through fs).lines[l]? = some c' ∧ c'.id = c.id ∧ c'.identity = none ∧
        c'.closed = c.closed := by
  induction fs generalizing b c with
  | nil => exact ⟨rfl, c, hc, rfl, hi, rfl⟩
  | cons f fs ih =>
    obtain ⟨hf, hfs⟩ := List.forall_mem_cons.1 h.1
    obtain ⟨hw, hws⟩ := List.append_eq_nil_iff.1 h.2
    have hnext : FailedAttempts l (b.operate f) fs := ⟨hfs, hws⟩
    show ((b.operate f).through fs).registered = _ ∧ _
    rcases operate_of_failed hc hi hf hw with e | ⟨reply, e⟩
    · rw [e] at hnext
      have hthrough : b.through (f :: fs) = b.through fs := congrArg (·.through fs) e
      rw [e, hthrough]
      exact ih hnext hc hi
    · rw [e] at hnext
      have hthrough : b.through (f :: fs) = (b.offer l reply).2.through fs :=
        congrArg (·.through fs) e
      obtain ⟨hr, c', hc', hid, hi', hcl⟩ := ih hnext (getElem?_offer_self hc reply)
        ((identity_after_send c reply).trans hi)
      rw [e, hthrough, hr]
      exact ⟨(alike_offer b l reply).registered, c', hc', hid.trans (c.id_after _), hi',
        hcl.trans (closed_after_send c reply)⟩

/-! ### Runs -/

/-- **A connection proves who it is once.**  Its identity, however it is set, is never changed or
cleared.  A run welcomes the connection at most once, and the welcome tells the identity that has
been bound by it and that the connection has had ever since; from then on every attempt is told
that there is an identity already.  Attempts that fail before, in any number, neither close the
connection nor bind it, and as long as it is registered an accepted token still succeeds. -/
theorem identity_bound_once {policy : Policy} {os : List Operation}
    (hf : (Board.empty policy).Throughout Operation.Fresh os) (l : LineNumber) :
    let b := (Board.empty policy).through os
    (∀ os₁ os₂ c who, os = os₁ ++ os₂ → ((Board.empty policy).through os₁).lines[l]? = some c →
      c.identity = some who → ∃ c', b.lines[l]? = some c' ∧ c'.identity = some who) ∧
    (logged operate (welcomes l) (Board.empty policy) os).length ≤ 1 ∧
    (∀ os₁ o os₂ r, os = os₁ ++ o :: os₂ → r ∈ ((Board.empty policy).through os₁).welcomes l o →
      ∃ c₀ c₁ c who, ((Board.empty policy).through os₁).lines[l]? = some c₀ ∧
        c₀.identity = none ∧ ((Board.empty policy).through (os₁ ++ [o])).lines[l]? = some c₁ ∧
        c₁.identity = some who ∧ r = .accepted who ∧
        b.lines[l]? = some c ∧ c.identity = some who) ∧
    (∀ c who, b.lines[l]? = some c → c.identity = some who → ∀ check now draw content m token,
      Envelope.ofBytes draw.received content = .ok m → m.body = .auth token →
      b.reply? check now draw l content =
        some (Envelope.reply draw.reply m Fault.alreadyAuthenticated.body)) ∧
    (∀ c fs, b.lines[l]? = some c → c.identity = none → FailedAttempts l b fs →
      ∃ c', (b.through fs).lines[l]? = some c' ∧ c'.identity = none ∧ c'.closed = c.closed ∧
        ((∃ id : ConnectionId, b.registered[id]? = some l) →
          ∀ check now draw content m token who, Envelope.ofBytes draw.received content = .ok m →
          m.body = .auth token → check draw.session token = .accepted who →
          (b.through fs).reply? check now draw l content =
              some (Envelope.reply draw.reply m (.authResult (.accepted who))) ∧
            .accepted who ∈ (b.through fs).welcomes l
              (.call (.frame check now draw l content)))) := by
  intro b
  have hempty := founded_empty policy
  have hb : b.Founded := hempty.through hf
  refine ⟨?_, hempty.length_welcomes_le hf l, ?_, ?_, ?_⟩
  · rintro os₁ os₂ c who rfl hc hi
    have hlater := getElem?_through_of_some hc os₂
    rw [← through_append] at hlater
    exact ⟨_, hlater, Connection.identity_run hi _⟩
  · rintro os₁ o os₂ r rfl hr
    have hfounded := hempty.through (throughout_append.1 hf).1
    obtain ⟨c₀, c₁, who, hc₀, hi₀, hc₁, hi₁, rfl⟩ := hfounded.of_welcome hr
    rw [← through_concat] at hc₁
    have hlater := getElem?_through_of_some hc₁ os₂
    rw [← through_append, List.append_assoc] at hlater
    exact ⟨c₀, c₁, _, who, hc₀, hi₀, hc₁, hi₁, rfl, hlater, Connection.identity_run hi₁ _⟩
  · intro c who hc hi check now draw content m token hm hbody
    simp only [reply?, hm]
    rw [handle_auth_of_identified hc hi hbody]
  · intro c fs hc hi hfs
    obtain ⟨hreg, c', hc', hid, hi', hcl⟩ := hfs.kept hc hi
    refine ⟨c', hc', hi', hcl, ?_⟩
    rintro ⟨id, hl⟩ check now draw content m token who hm hbody ht
    -- the name that leads to the connection is its own
    obtain rfl : c.id = id := hb.id_eq hl hc
    exact welcome_of_accepted (by rw [hreg, hid, hl]) hc' hi' hm hbody ht

/-- Lets in whoever has the word. -/
def doorkeeper : Check := (TokenTable.mk [("word", ⟨"ann", some "a"⟩)]).check

/-- What is drawn for every attempt. -/
def knocked : Draw := ⟨3, noon, noon, noon, "s"⟩

/-- The word, and another one. -/
def password : Bytes :=
  Utf8.ofString "\x7b\"type\":\"auth\",\"data\":\x7b\"token\":\"word\"\x7d\x7d"

def guess : Bytes :=
  Utf8.ofString "\x7b\"type\":\"auth\",\"data\":\x7b\"token\":\"ward\"\x7d\x7d"

/-- A connection has been made a while before it is registered. -/
def arrival : List Operation := [.make 1 4 0, .register 0]

/-- It tries the wrong word first and then the right one. -/
def entrance : List Operation :=
  arrival ++ [.call (.frame doorkeeper 0 knocked 0 guess),
    .call (.frame doorkeeper 0 knocked 0 password), .call (.enter 2 4 0)]

/-- The right word still counts after the wrong one, and it counts once. -/
theorem identity_bound_once_entrance :
    (Board.empty .standard).Throughout Operation.Fresh entrance ∧
      FailedAttempts 0 ((Board.empty .standard).through arrival)
        [.call (.frame doorkeeper 0 knocked 0 guess)] ∧
      (∃ c, ((Board.empty .standard).through entrance).lines[0]? = some c ∧
        c.identity = some ⟨"ann", "a"⟩) ∧
      ∃ m, ((Board.empty .standard).through entrance).reply? doorkeeper 0 knocked 0 password =
        some (.reply noon m Fault.alreadyAuthenticated.body) := by
  have hf : (Board.empty .standard).Throughout Operation.Fresh entrance := by decide +kernel
  have hf₀ : (Board.empty .standard).Throughout Operation.Fresh arrival :=
    (throughout_append.1 hf).1
  have hguess : Envelope.ofBytes knocked.received guess =
      .ok ⟨"noon", noon.time, .auth "ward", none, none⟩ := by cbv
  have hword : Envelope.ofBytes knocked.received password =
      .ok ⟨"noon", noon.time, .auth "word", none, none⟩ := by cbv
  have hfailed : FailedAttempts 0 ((Board.empty .standard).through arrival)
      [.call (.frame doorkeeper 0 knocked 0 guess)] := by
    refine ⟨fun f h => ?_, List.isEmpty_iff.1 (by decide +kernel)⟩
    rw [List.mem_singleton.1 h]
    exact ⟨rfl, _, "ward", hguess, rfl⟩
  obtain ⟨-, -, -, -, hretry⟩ := identity_bound_once hf₀ 0
  obtain ⟨-, -, hwelcome, hlater, -⟩ := identity_bound_once hf 0
  -- the connection as it is before the attempts
  have hblank : (((Board.empty .standard).through arrival).lines[0]?).map Connection.identity =
    some none := by decide +kernel
  obtain ⟨c, hc, hi⟩ := Option.map_eq_some_iff.1 hblank
  obtain ⟨-, -, -, -, hanswer⟩ := hretry c _ hc hi hfailed
  have hreg : ((Board.empty .standard).through arrival).registered[1]? = some 0 := by
    decide +kernel
  obtain ⟨-, hw⟩ := hanswer ⟨1, hreg⟩ doorkeeper 0 knocked password _ "word" ⟨"ann", "a"⟩
    hword rfl rfl
  rw [← through_append] at hw
  obtain ⟨-, -, c', who, -, -, -, -, e, hc', hi'⟩ :=
    hwelcome _ _ [.call (.enter 2 4 0)] _ (List.append_assoc arrival [_] [_, _]).symm hw
  obtain ⟨user, session⟩ := who
  obtain ⟨rfl, rfl⟩ : "ann" = user ∧ "a" = session := by simpa [AuthResult.accepted] using e
  exact ⟨hf, hfailed, ⟨c', hc', hi'⟩, _, hlater c' _ hc' hi' doorkeeper 0 knocked password _ "word"
    hword rfl⟩

end Switchboard.Board
