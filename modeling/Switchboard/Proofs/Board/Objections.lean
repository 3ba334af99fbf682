/-
Switchboard/Proofs/Board/Objections.lean

What a message is answered with.

A message is granted unless something speaks against it, and then the reply
says what.  `objections` lists what may speak against a message of each kind,
every objection with the fact about the board and the sender that is its
cause, in the order in which the causes are looked at; `grant` is what the
reply says otherwise.  Several causes may hold at once, and the first one
decides (`first_objection_told`).

They are looked at in different places: the identity of the sender before
anything is done, the name of a channel by the operation that is asked for,
and who is registered under the sender's name when the board is changed.  So
the list is taken from its head, one place after the other: `told_ifIdentified`,
`told_checked` and `told_authenticate` each say which objections a place adds
in front of what follows.
-/
import Switchboard.Proofs.Board.Publishing

namespace Switchboard

/-- What a client is told of its request, if the handling comes to its end. -/
def Outcome.told : Outcome → Option Body
  | .answer body => some body
  | .fault f => some f.body
  | .broken => none

theorem Outcome.exists_told {o : Outcome} (h : o ≠ .broken) : ∃ body, o.told = some body := by
  cases o with
  | answer body => exact ⟨body, rfl⟩
  | fault f => exact ⟨f.body, rfl⟩
  | broken => exact absurd rfl h

namespace Board

variable {b : Board} {check : Check} {now : Nat} {draw : Draw} {l : LineNumber} {c : Connection}
  {m : Envelope} {body : Body} {channel : String} {data : Json}

/-! ### Objections -/

/-- An error that is told if there is cause for it. -/
def objection (cause : Prop) [Decidable cause] (code : Code) (text : String) : Option Body :=
  if cause then some (.error code text) else none

/-- The sender has not proved its identity. -/
def unproved (c : Connection) : Option Body :=
  objection (c.identity = none) .notAuthenticated "not authenticated"

/-- The sender has proved its identity before. -/
def proved (c : Connection) : Option Body :=
  objection (c.identity ≠ none) .alreadyAuthenticated "already authenticated"

/-- A check has refused the token; whoever is refused gets a result and not an error. -/
def refused : Verdict → Option Body
  | .refused reason => some (.authResult ⟨false, none, none, some reason⟩)
  | _ => none

/-- The name is none for a channel: it is empty or has too many bytes. -/
def misnamed (channel : String) : Option Body :=
  objection (channel = "" ∨ 128 < (Utf8.ofString channel).length) .invalidChannel
    ("invalid channel name: " ++ Text.quoted channel)

/-- Nobody is registered under that name. -/
def missing (b : Board) (id : ConnectionId) : Option Body :=
  objection (b.registered[id]? = none) .connectionNotFound ("connection not found: " ++ id.text)

/-- What may speak against a message with that body, in the order in which it is looked at. -/
def objections (b : Board) (check : Check) (session : String) (c : Connection) :
    Body → List (Option Body)
  | .ping => []
  | .auth token => [proved c, refused (check session token), b.missing c.id]
  | .subscribe channel | .unsubscribe channel => [unproved c, misnamed channel, b.missing c.id]
  -- whether its sender is registered is not asked of a publication
  | .publish channel _ => [unproved c, misnamed channel]
  | other => [some (.error .unsupportedType ("unsupported message type: " ++ other.kind.title))]

/-- What the reply to a message says if nothing speaks against it. -/
def grant (b : Board) (check : Check) (draw : Draw) (m : Envelope) : Option Body :=
  match m.body with
  | .ping => some (.pong m.time)
  | .auth token =>
    match check draw.session token with
    | .accepted who => some (.authResult ⟨true, some who.user, some who.session, none⟩)
    | _ => none
  | .subscribe channel => some (.subscribeAck channel)
  | .unsubscribe channel => some (.unsubscribeAck channel)
  | .publish channel data =>
    some (.publishAck channel (b.toChannel channel (notice draw channel data)).1)
  | _ => none

/-- The first objection that is raised, or what is granted if there is none. -/
def firstOf (os : List (Option Body)) (granted : Option Body) : Option Body :=
  (os.findSome? id).or granted

variable {os : List (Option Body)} {granted : Option Body}

theorem firstOf_some : firstOf (some body :: os) granted = some body := rfl

theorem firstOf_none : firstOf (none :: os) granted = firstOf os granted := rfl

theorem objection_of {cause : Prop} [Decidable cause] (h : cause) (code : Code) (text : String) :
    objection cause code text = some (.error code text) := if_pos h

theorem objection_of_not {cause : Prop} [Decidable cause] (h : ¬ cause) (code : Code)
    (text : String) : objection cause code text = none := if_neg h

/-! ### Where they are raised -/

/-- What a client is told of an operation that fails. -/
def denial {α : Type} : Except Fault α → Option Body
  | .ok _ => none
  | .error f => some f.body

/-- What needs an identity begins with the sender's. -/
theorem told_ifIdentified {act : Outcome × Board} (h : act.1.told = firstOf os granted) :
    (if c.isIdentified then act else (.fault .notAuthenticated, b)).1.told =
      firstOf (unproved c :: os) granted := by
  rw [unproved]
  rcases hi : c.identity with - | who
  · rw [objection_of rfl, firstOf_some, Connection.isIdentified, hi]
    rfl
  · rw [objection_of_not (by simp), firstOf_none, Connection.isIdentified, hi]
    exact h

/-- What is done on a channel begins with its name. -/
theorem misnamed_eq (channel : String) : misnamed channel = denial (checkChannel channel) := by
  by_cases hk : checkChannel channel = .ok ()
  · obtain ⟨hne, hle⟩ := checkChannel_eq_ok_iff.1 hk
    rw [hk]
    exact objection_of_not (not_or.2 ⟨hne, Nat.not_lt_of_le hle⟩) _ _
  · rw [checkChannel_eq_error hk]
    refine objection_of ?_ _ _
    by_contra h
    obtain ⟨hne, hle⟩ := not_or.1 h
    exact hk (checkChannel_eq_ok_iff.2 ⟨hne, Nat.le_of_not_lt hle⟩)

/-- The name of the sender leads to the sender, if it leads anywhere. -/
theorem missing_eq (hc : b.lines[l]? = some c)
    (hown : ∀ l', b.registered[c.id]? = some l' → l' = l) :
    b.missing c.id = denial (b.find c.id) := by
  rcases hl : b.registered[c.id]? with - | l'
  · rw [find_of_find?_eq_none hl]
    exact objection_of hl _ _
  · rw [find_of hl (hown l' hl ▸ hc)]
    exact objection_of_not (by simp [hl]) _ _

theorem told_answering (b : Board) (body : Body) (r : Except Fault Board) :
    (b.answering body r).1.told = firstOf [denial r] (some body) := by
  cases r <;> rfl

/-- A change of the board on the sender's behalf that concerns a channel. -/
theorem told_checked (hc : b.lines[l]? = some c)
    (hown : ∀ l', b.registered[c.id]? = some l' → l' = l) (body : Body) (channel : String)
    (change : LineNumber → Board) :
    (b.answering body (do
      checkChannel channel
      let (l, _) ← b.find c.id
      .ok (change l))).1.told = firstOf [misnamed channel, b.missing c.id] (some body) := by
  rw [told_answering, misnamed_eq, missing_eq hc hown]
  rcases checkChannel channel with f | ⟨⟩
  · rfl
  · rcases b.find c.id with f | ⟨l', c'⟩ <;> rfl

/-- An identity can be bound to a sender without one exactly if the sender is found. -/
theorem denial_identify (hc : b.lines[l]? = some c)
    (hown : ∀ l', b.registered[c.id]? = some l' → l' = l) (hi : c.identity = none)
    (who : Identity) : denial (b.identify c.id who) = b.missing c.id := by
  rw [missing_eq hc hown, identify]
  rcases hfind : b.find c.id with f | ⟨l', c'⟩
  · rfl
  · obtain ⟨hl, hc'⟩ := find_eq_ok hfind
    obtain rfl := hown l' hl
    cases hc.symm.trans hc'
    simp only [bind, Except.bind, Connection.identify, hi]
    rfl

/-- An attempt to prove an identity. -/
theorem told_authenticate (hc : b.lines[l]? = some c)
    (hown : ∀ l', b.registered[c.id]? = some l' → l' = l) {session token : String}
    (hcheck : check session token ≠ .broken) :
    (b.authenticate check session c token).1.told =
      firstOf [proved c, refused (check session token), b.missing c.id]
        (match check session token with
          | .accepted who => some (.authResult ⟨true, some who.user, some who.session, none⟩)
          | _ => none) := by
  rw [authenticate, proved]
  rcases hi : c.identity with - | who
  · rw [objection_of_not (by simp), firstOf_none, Connection.isIdentified, hi]
    rcases hv : check session token with who | reason | -
    · show (b.answering _ (b.identify c.id who)).1.told = _
      rw [told_answering, denial_identify hc hown hi]
      rfl
    · rfl
    · exact absurd hv hcheck
  · rw [objection_of (by simp), firstOf_some, Connection.isIdentified, hi]
    rfl

theorem told_publish (b : Board) (draw : Draw) (channel : String) (data : Json) :
    (b.publish draw.notice channel data).1.told = firstOf [misnamed channel]
      (some (.publishAck channel (b.toChannel channel (notice draw channel data)).1)) := by
  rw [publish, misnamed_eq]
  rcases checkChannel channel with f | ⟨⟩ <;> rfl

/-! ### The reply -/

/-- The outcome of a request is told by the first objection to it. -/
theorem told_dispatch (hc : b.lines[l]? = some c)
    (hown : ∀ l', b.registered[c.id]? = some l' → l' = l)
    (hcheck : ∀ token, m.body = .auth token → check draw.session token ≠ .broken) (now : Nat) :
    (b.dispatch check now draw l m).1.told =
      firstOf (b.objections check draw.session c m.body) (b.grant check draw m) := by
  rw [dispatch, hc, grant]
  cases hm : m.body with
  | ping => rfl
  | auth token => exact told_authenticate hc hown (hcheck token hm)
  | subscribe channel =>
    apply told_ifIdentified
    exact told_checked hc hown _ channel fun l =>
      { b.modify l (fun c => (c.join channel).2) with channels := b.channels.join channel c.id }
  | unsubscribe channel =>
    apply told_ifIdentified
    exact told_checked hc hown _ channel fun l =>
      { b.modify l (fun c => (c.leave channel).2) with channels := b.channels.leave channel c.id }
  | publish channel data => exact told_ifIdentified (told_publish b draw channel data)
  | _ => rfl

/-- The reply carries what is told. -/
theorem handle_fst (b : Board) (check : Check) (now : Nat) (draw : Draw) (l : LineNumber)
    (m : Envelope) : (b.handle check now draw l m).1 =
      (b.dispatch check now draw l m).1.told.map (Envelope.reply draw.reply m) := by
  rw [handle]
  rcases b.dispatch check now draw l m with ⟨body | f | -, b'⟩ <;> rfl

/-- **The first objection is told, and what is asked for is granted if there is none.**  Whatever
the board and whoever the sender, every message gets a reply, unless the check of a token breaks
down: it refers to the message by its name, it repeats the text of an error and has no complaint
otherwise, and what it says is settled by the objections to the message and by nothing else.  If
the name of the sender leads to a connection, it has to be the sender. -/
theorem first_objection_told (b : Board) {l : LineNumber} {c : Connection}
    (hc : b.lines[l]? = some c) (hown : ∀ l', b.registered[c.id]? = some l' → l' = l)
    (check : Check) (draw : Draw) (m : Envelope)
    (hcheck : ∀ token, m.body = .auth token → check draw.session token ≠ .broken) (now : Nat) :
    ∃ reply : Envelope, (b.handle check now draw l m).1 = some reply ∧
      reply.requestId = some m.id ∧
      reply.error = (match reply.body with
        | .error _ text => some text
        | _ => none) ∧
      some reply.body =
        firstOf (b.objections check draw.session c m.body) (b.grant check draw m) := by
  have hdone : (b.dispatch check now draw l m).1 ≠ .broken := by
    intro h
    obtain ⟨_, token, -, -, hm, ht⟩ := broken_dispatch h
    exact hcheck token hm ht
  obtain ⟨body, hbody⟩ := Outcome.exists_told hdone
  refine ⟨Envelope.reply draw.reply m body, ?_, rfl, ?_, ?_⟩
  · rw [handle_fst, hbody]
    rfl
  · cases body <;> rfl
  · exact hbody.symm.trans (told_dispatch hc hown hcheck now)

/-- Of two clients without an identity one has been taken off the board. -/
def latecomers : List Call := [.enter 1 4 0, .enter 2 4 0, .unregister 1]

/-- The token of the one that is gone is accepted in vain, and when it asks for a channel without a
name, the first of three objections is told.  The ping of the other one is answered with the time
of the ping. -/
theorem first_objection_told_latecomers :
    let b := (Board.empty .standard).run latecomers
    let check : Check := fun _ _ => .accepted ⟨"ann", "a"⟩
    let told (l : LineNumber) (body : Body) : Option Body :=
      (b.handle check 0 noonDraw l (.new noon body)).1.map Envelope.body
    told 0 (.auth "word") =
        some (.error .connectionNotFound ("connection not found: " ++ ConnectionId.text 1)) ∧
      told 0 (.subscribe "") = some (.error .notAuthenticated "not authenticated") ∧
      told 1 .ping = some (.pong noon.time) := by
  intro b check told
  have hfrom : ∀ {l : LineNumber} {c : Connection} (body : Body), b.lines[l]? = some c →
      (∀ l', b.registered[c.id]? = some l' → l' = l) → told l body =
        firstOf (b.objections check "s" c body) (b.grant check noonDraw (.new noon body)) := by
    intro l c body hc hown
    obtain ⟨reply, h, -, -, hbody⟩ := first_objection_told b hc hown check noonDraw
      (.new noon body) (by simp [check]) 0
    show Option.map Envelope.body _ = _
    rw [h]
    exact hbody
  have hfirst : b.lines[0]?.map (fun c => (c.id, c.identity)) = some (1, none) := by
    decide +kernel
  obtain ⟨c, hc, e⟩ := Option.map_eq_some_iff.1 hfirst
  obtain ⟨hid, hi⟩ : c.id = 1 ∧ c.identity = none := by simpa using e
  have hgone : b.registered[c.id]? = none := by
    rw [hid]
    decide +kernel
  have hsecond : b.lines[1]?.map (fun c => c.id) = some 2 := by decide +kernel
  obtain ⟨c', hc', hid'⟩ := Option.map_eq_some_iff.1 hsecond
  have hthere : b.registered[c'.id]? = some 1 := by
    rw [hid']
    decide +kernel
  refine ⟨?_, ?_, ?_⟩
  · rw [hfrom _ hc (by simp [hgone])]
    show firstOf [proved c, none, b.missing c.id] _ = _
    rw [proved, objection_of_not (by simp [hi]), missing, objection_of hgone, hid]
    rfl
  · rw [hfrom _ hc (by simp [hgone])]
    show firstOf [unproved c, _, _] _ = _
    rw [unproved, objection_of hi]
    rfl
  · rw [hfrom _ hc' (by simp [hthere])]
    rfl

end Board

end Switchboard
