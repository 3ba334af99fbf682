/-
Switchboard/Proofs/Board/Acts.lean

What a call does to a single connection.

Whatever is called of a board, to any one connection it comes down to a list
of acts, `Board.acts`, and the connection that the call leaves behind is the
one after these acts (`getElem?_after`).  The only calls of which this does
not say everything are those by which a connection comes to be.

A call to many connections is one act of each of them, as often as it is
named; and a frame is a `script` of other calls: what its message asks for,
if its client may ask for it, and then the reply.
-/
import Switchboard.Proofs.Board.Onward
import Switchboard.Proofs.Connection.Acts

namespace Switchboard.Board

open Connection (Act)

variable {b : Board} {l : LineNumber} {c : Connection} {k : Call} {ks : List Call}

/-! ### Frames as calls -/

/-- The call that a message from a connection asks for, if it asks for one and may. -/
def request? (b : Board) (check : Check) (now : Nat) (draw : Draw) (l : LineNumber)
    (m : Envelope) : Option Call :=
  match b.lines[l]? with
  | none => none
  | some c =>
    let ifIdentified (k : Call) : Option Call := if c.isIdentified then some k else none
    match m.body with
    | .ping => some (.touch l now)
    | .auth token =>
      if c.isIdentified then none
      else match check draw.session token with
        | .accepted who => some (.identify c.id who)
        | .refused _ | .broken => none
    | .subscribe channel => ifIdentified (.subscribe c.id channel)
    | .unsubscribe channel => ifIdentified (.unsubscribe c.id channel)
    | .publish channel data =>
      match checkChannel channel with
      | .ok () => ifIdentified <|
          .toChannel channel (Envelope.new draw.notice (.notify channel publishEvent data))
      | .error _ => none
    | _ => none

/-- The reply to a frame from a connection, if its handling does not break down. -/
def reply? (b : Board) (check : Check) (now : Nat) (draw : Draw) (l : LineNumber)
    (content : Bytes) : Option Envelope :=
  match Envelope.ofBytes draw.received content with
  | .error failure => some (Envelope.new draw.reply (Fault.malformed failure).body)
  | .ok m => (b.handle check now draw l m).1

/-- The calls that the handling of a frame consists of. -/
def script (b : Board) (check : Check) (now : Nat) (draw : Draw) (l : LineNumber)
    (content : Bytes) : List Call :=
  (match Envelope.ofBytes draw.received content with
    | .error _ => []
    | .ok m => (b.request? check now draw l m).toList) ++
  (b.reply? check now draw l content).toList.map (.send l)

theorem run_append (b : Board) (ks ks' : List Call) : b.run (ks ++ ks') = (b.run ks).run ks' :=
  List.foldl_append

/-- What is answered changes the board as what is asked does. -/
theorem answering_eq_orKeep (b : Board) (body : Body) (r : Except Fault Board) :
    (b.answering body r).2 = b.orKeep r := by
  cases r <;> rfl

/-- To offer a message is a call. -/
theorem offer_eq_after (b : Board) (l : LineNumber) (m : Envelope) :
    (b.offer l m).2 = b.after (.send l m) := by
  show _ = b.orKeep (b.send l m)
  rw [offer]
  cases b.send l m <;> rfl

/-- **A request is the call that it makes**, if it makes one. -/
theorem dispatch_eq_run (b : Board) (check : Check) (now : Nat) (draw : Draw) (l : LineNumber)
    (m : Envelope) :
    (b.dispatch check now draw l m).2 = b.run (b.request? check now draw l m).toList := by
  rw [dispatch, request?]
  rcases b.lines[l]? with - | c
  · rfl
  · by_cases hi : c.isIdentified = true
    · -- whoever has an identity may ask for anything but another one
      cases m.body with
      | auth token => simp [authenticate, hi, run]
      | subscribe channel | unsubscribe channel =>
        simp only [hi, if_true, answering_eq_orKeep]
        rfl
      | publish channel data =>
        simp only [hi, if_true, publish]
        rcases checkChannel channel with f | ⟨⟩ <;> rfl
      | _ => rfl
    · cases m.body with
      | auth token =>
        simp only [authenticate, if_neg hi]
        cases check draw.session token with
        | accepted who =>
          simp only [answering_eq_orKeep]
          rfl
        | refused reason => rfl
        | broken => rfl
      | subscribe channel | unsubscribe channel =>
        simp only [if_neg hi]
        rfl
      | publish channel data =>
        simp only [if_neg hi]
        rcases checkChannel channel with f | ⟨⟩ <;> rfl
      | _ => rfl

theorem handle_snd (b : Board) (check : Check) (now : Nat) (draw : Draw) (l : LineNumber)
    (m : Envelope) : (b.handle check now draw l m).2 = (b.dispatch check now draw l m).2 := by
  rw [handle]
  rcases b.dispatch check now draw l m with ⟨body | f | -, b'⟩ <;> rfl

/-- **A frame does what its script says.** -/
theorem handleFrame_eq_run (b : Board) (check : Check) (now : Nat) (draw : Draw) (l : LineNumber)
    (content : Bytes) : (b.handleFrame check now draw l content).2 =
      b.run (b.script check now draw l content) := by
  rw [handleFrame, script, reply?]
  rcases Envelope.ofBytes draw.received content with failure | m
  · exact offer_eq_after b l _
  · have hrun := dispatch_eq_run b check now draw l m
    rw [← handle_snd] at hrun
    rcases e : b.handle check now draw l m with ⟨- | reply, b'⟩
    · rw [e] at hrun
      simpa [e] using hrun
    · rw [e] at hrun
      simp only [e, Option.toList_some, List.map_singleton]
      rw [run_append, ← hrun]
      exact offer_eq_after b' l reply

/-! ### The acts of a call -/

/-- An act of one connection, as often as it is named. -/
def aimed (l : LineNumber) (ls : List LineNumber) (a : Act) : List Act :=
  List.replicate (ls.count l) a

/-- What is written down in the course of several calls. -/
def trace {α : Type} (entry : Board → Call → List α) (b : Board) (ks : List Call) : List α :=
  logged after entry b ks

/-- The acts that a call is to a connection, frames apart. -/
def plainActs (l : LineNumber) (b : Board) : Call → List Act
  | .enter .. | .unregister _ | .frame .. => []
  | .identify id who => aimed l (b.find? id).toList (.identify who)
  | .subscribe id channel =>
    match checkChannel channel with
    | .ok () => aimed l (b.find? id).toList (.join channel)
    | .error _ => []
  | .unsubscribe id channel =>
    match checkChannel channel with
    | .ok () => aimed l (b.find? id).toList (.leave channel)
    | .error _ => []
  | .sweep now => aimed l ((b.stale now).map Prod.snd) .close
  | .shutdown => aimed l b.registered.values .close
  | .broadcast m => aimed l b.everyone (.send m)
  | .toChannel channel m => aimed l (b.subscribers channel) (.send m)
  | .toUser user m => aimed l (b.ofUser user) (.send m)
  | .send l' m => aimed l [l'] (.send m)
  | .close l' => aimed l [l'] .close
  | .touch l' now => aimed l [l'] (.touch now)
  | .receive l' => aimed l [l'] .take
  | .forsake l' => aimed l [l'] .forsake

/-- The acts that a call is to a connection. -/
def acts (l : LineNumber) (b : Board) : Call → List Act
  | .frame check now draw l' content =>
    b.trace (plainActs l) (b.script check now draw l' content)
  | k => plainActs l b k

/-- The messages that a connection accepts in the course of a call. -/
def accepted (l : LineNumber) (b : Board) (k : Call) : List Envelope :=
  match b.lines[l]? with
  | some c => c.accepted (b.acts l k)
  | none => []

/-- The messages that are taken from the queue of a connection in the course of a call. -/
def taken (l : LineNumber) (b : Board) (k : Call) : List Envelope :=
  match b.lines[l]? with
  | some c => c.taken (b.acts l k)
  | none => []

/-- Does a connection come to be by the call? -/
def Call.Enters : Call → Prop
  | .enter .. => True
  | _ => False

/-- Is the call none to handle a frame? -/
def Call.Plain : Call → Prop
  | .frame .. => False
  | _ => True

/-- The calls that scripts consist of. -/
def Call.Scripted : Call → Prop
  | .touch .. | .identify .. | .subscribe .. | .unsubscribe .. | .toChannel .. | .send .. => True
  | _ => False

/-- No frame makes a connection or asks for another frame. -/
theorem Call.Scripted.plain (h : k.Scripted) : k.Plain ∧ ¬ k.Enters := by
  cases k with
  | touch | identify | subscribe | unsubscribe | toChannel | send => exact ⟨trivial, id⟩
  | _ => exact h.elim

/-! ### One connection, and several in turn -/

theorem getElem?_modify_congr {f g : Connection → Connection}
    (h : ∀ c, b.lines[l]? = some c → f c = g c) (i : LineNumber) :
    (b.modify l f).lines[i]? = (b.modify l g).lines[i]? := by
  rw [getElem?_modify, getElem?_modify]
  split
  · rename_i e
    subst e
    rcases e : b.lines[l]? with - | c
    · rfl
    · exact congrArg some (h c e)
  · rfl

theorem map_run_nil (o : Option Connection) : o.map (·.run []) = o := Option.map_id_apply

theorem map_run_append (o : Option Connection) (as as' : List Act) :
    (o.map (·.run as)).map (·.run as') = o.map (·.run (as ++ as')) := by
  rw [Option.map_map]
  exact congrArg (o.map ·) (funext fun c => (c.run_append as as').symm)

/-- Only those that are aimed at are hit. -/
theorem mem_aimed {ls : List LineNumber} {a a' : Act} : a' ∈ aimed l ls a ↔ l ∈ ls ∧ a' = a := by
  rw [aimed, List.mem_replicate, ← Nat.pos_iff_ne_zero, List.count_pos_iff]

theorem aimed_eq_nil {ls : List LineNumber} {a : Act} (h : l ∉ ls) : aimed l ls a = [] := by
  rw [aimed, List.count_eq_zero.2 h]
  rfl

/-- An act of one connection. -/
theorem getElem?_modify_after (b : Board) (l' : LineNumber) (a : Act) (l : LineNumber) :
    (b.modify l' (·.after a)).lines[l]? = b.lines[l]?.map (·.run (aimed l [l'] a)) := by
  rw [getElem?_modify]
  by_cases e : l' = l
  · simp [e, aimed]
  · rw [if_neg e, aimed_eq_nil (by simpa using Ne.symm e)]
    exact (map_run_nil _).symm

/-- Whoever is aimed at twice is hit twice. -/
theorem aimed_cons (l l' : LineNumber) (ls : List LineNumber) (a : Act) :
    aimed l (l' :: ls) a = aimed l [l'] a ++ aimed l ls a := by
  rw [aimed, aimed, aimed, ← List.replicate_add, ← List.count_append]
  rfl

/-- The same act of several connections in turn. -/
theorem getElem?_foldl {α : Type} (f : Board → α → Board) (g : α → LineNumber) {a : Act}
    (hf : ∀ (b : Board) (x : α) (i : LineNumber),
      (f b x).lines[i]? = (b.modify (g x) (·.after a)).lines[i]?) (b : Board)
    (xs : List α) (l : LineNumber) :
    (xs.foldl f b).lines[l]? = b.lines[l]?.map (·.run (aimed l (xs.map g) a)) := by
  induction xs generalizing b with
  | nil => exact (map_run_nil _).symm
  | cons x xs ih =>
    rw [List.foldl_cons, ih, hf, getElem?_modify_after, List.map_cons,
      map_run_append, ← aimed_cons]

theorem getElem?_offer (b : Board) (l' : LineNumber) (m : Envelope) (l : LineNumber) :
    (b.offer l' m).2.lines[l]? = (b.modify l' (·.after (.send m))).lines[l]? := by
  rw [offer, Board.send]
  rcases e : b.lines[l']? with - | c
  · -- nobody is there
    show b.lines[l]? = _
    rw [getElem?_modify]
    split
    · rename_i h
      rw [← h, e]
      rfl
    · rfl
  · cases hs : c.send m with
    | ok c' =>
      simp only [hs, bind, Except.bind]
      refine getElem?_modify_congr (fun d hd => ?_) l
      cases e.symm.trans hd
      simp [Connection.after, Connection.orKeep, hs]
    | error f =>
      simp only [hs, bind, Except.bind]
      rw [getElem?_modify]
      split
      · rename_i h
        rw [← h, e]
        simp [Connection.after, Connection.orKeep, hs]
      · rfl

theorem offerAll_eq_foldl (m : Envelope) (ls : List LineNumber) (b : Board) :
    (offerAll m ls b).2 = ls.foldl (fun b l => (b.offer l m).2) b := by
  induction ls generalizing b with
  | nil => rfl
  | cons l ls ih => exact ih _

/-- **A fan-out** sends the message to everyone on the list. -/
theorem getElem?_offerAll (m : Envelope) (ls : List LineNumber) (b : Board) (l : LineNumber) :
    (offerAll m ls b).2.lines[l]? = b.lines[l]?.map (·.run (aimed l ls (.send m))) := by
  rw [offerAll_eq_foldl, getElem?_foldl _ id fun b l' i => getElem?_offer b l' m i, List.map_id]

/-! ### Changes on behalf of a name -/

/-- If there is nobody of a name, nothing is aimed at anyone; otherwise it is aimed at whom the name
leads to. -/
theorem getElem?_named {b' : Board} {id : ConnectionId} {a : Act}
    (hnone : b.find? id = none → ∀ i : LineNumber, b'.lines[i]? = b.lines[i]?)
    (hsome : ∀ l', b.find? id = some l' → ∀ i : LineNumber,
      b'.lines[i]? = (b.modify l' (·.after a)).lines[i]?) (l : LineNumber) :
    b'.lines[l]? = b.lines[l]?.map (·.run (aimed l (b.find? id).toList a)) := by
  rcases e : b.find? id with - | l'
  · rw [hnone e]
    exact (map_run_nil _).symm
  · rw [hsome l' e, getElem?_modify_after]
    rfl

/-- A name that leads to nobody is answered as such. -/
theorem find_of_find?_eq_none {id : ConnectionId} (h : b.find? id = none) :
    b.find id = .error (.notFound id) := by
  rw [find, show b.registered[id]? = none from h]

/-- A name that leads nowhere is one that nothing can be done to. -/
theorem getElem?_modify_of_none {l' : LineNumber} (h : b.lines[l']? = none)
    (f : Connection → Connection) (i : LineNumber) :
    (b.modify l' f).lines[i]? = b.lines[i]? := by
  rw [getElem?_modify]
  split
  · rename_i e
    rw [← e, h]
    rfl
  · rfl

/-- An identity is given to the connection that the name leads to, if it has none. -/
theorem getElem?_identify (b : Board) (id : ConnectionId) (who : Identity) (l : LineNumber) :
    (b.orKeep (b.identify id who)).lines[l]? =
      b.lines[l]?.map (·.run (aimed l (b.find? id).toList (.identify who))) := by
  refine getElem?_named (fun hn i => ?_) (fun l' hl i => ?_) l
  · rw [Board.identify, find_of_find?_eq_none hn]
    rfl
  · have hl' : b.registered[id]? = some l' := hl
    rcases e : b.lines[l']? with - | c
    · rw [getElem?_modify_of_none e, Board.identify, find, hl']
      simp only [e]
      rfl
    · rw [Board.identify, find_of hl' e]
      rcases hi : c.identity with - | old
      · simp only [bind, Except.bind, Connection.identify, hi]
        refine getElem?_modify_congr (fun d hd => ?_) i
        cases e.symm.trans hd
        simp [Connection.after, Connection.orKeep, Connection.identify, hi]
      · -- an identity is not changed
        simp only [bind, Except.bind, Connection.identify, hi]
        show b.lines[i]? = _
        rw [getElem?_modify]
        split
        · rename_i h
          rw [← h, e]
          simp [Connection.after, Connection.orKeep, Connection.identify, hi]
        · rfl

/-- A change on behalf of a name that concerns a channel. -/
theorem getElem?_checked (change : LineNumber → Board) {id : ConnectionId} {channel : String}
    (a : Act) (hchange : ∀ l' i : LineNumber,
      (change l').lines[i]? = (b.modify l' (·.after a)).lines[i]?) (l : LineNumber) :
    (b.orKeep (do checkChannel channel; let (l, _) ← b.find id; .ok (change l))).lines[l]? =
      b.lines[l]?.map (·.run (match checkChannel channel with
        | .ok () => aimed l (b.find? id).toList a
        | .error _ => [])) := by
  rcases checkChannel channel with f | ⟨⟩
  · exact (map_run_nil _).symm
  · refine getElem?_named (fun hn i => ?_) (fun l' hl i => ?_) l
    · rw [find_of_find?_eq_none hn]
      rfl
    · have hl' : b.registered[id]? = some l' := hl
      rcases e : b.lines[l']? with - | c
      · rw [getElem?_modify_of_none e, find, hl']
        simp only [e]
        rfl
      · rw [find_of hl' e]
        exact hchange l' i

/-! ### Calls -/

/-- **What a call other than a frame leaves behind of a connection.** -/
theorem getElem?_after_plain (hk : k.Plain) (he : ¬ k.Enters) (l : LineNumber) :
    (b.after k).lines[l]? = b.lines[l]?.map (·.run (plainActs l b k)) := by
  cases k with
  | enter id capacity now => exact absurd trivial he
  | unregister id =>
    show (b.unregister id).2.lines[l]? = _
    rw [unregister]
    split
    · exact (map_run_nil _).symm
    · show (b.drop id _).lines[l]? = _
      rw [lines_drop]
      exact (map_run_nil _).symm
  | identify id who => exact getElem?_identify b id who l
  | subscribe id channel =>
    exact getElem?_checked (fun l' => { b.modify l' (fun c => (c.join channel).2) with
      channels := b.channels.join channel id }) (.join channel) (fun _ _ => rfl) l
  | unsubscribe id channel =>
    exact getElem?_checked (fun l' => { b.modify l' (fun c => (c.leave channel).2) with
      channels := b.channels.leave channel id }) (.leave channel) (fun _ _ => rfl) l
  | sweep now =>
    refine getElem?_foldl _ Prod.snd (fun b r i => ?_) b (b.stale now) l
    show ((b.drop r.1 r.2).modify r.2 _).lines[i]? = _
    rw [getElem?_modify, lines_drop, getElem?_modify]
    rfl
  | shutdown =>
    -- the indices are empty by then, which does not matter to the connections
    have h := getElem?_foldl (a := .close) close id (fun _ _ _ => rfl)
      { b with registered := ∅, users := ∅, channels := ∅, closing := true } b.registered.values l
    rwa [List.map_id] at h
  | broadcast m => exact getElem?_offerAll m _ b l
  | toChannel channel m => exact getElem?_offerAll m _ b l
  | toUser user m => exact getElem?_offerAll m _ b l
  | send l' m =>
    rw [← offer_eq_after, getElem?_offer, getElem?_modify_after]
    rfl
  | close l' => exact getElem?_modify_after b l' .close l
  | touch l' now => exact getElem?_modify_after b l' (.touch now) l
  | receive l' => exact getElem?_modify_after b l' .take l
  | forsake l' => exact getElem?_modify_after b l' .forsake l
  | frame check now draw l' content => exact hk.elim

/-- The acts of several calls are those of one after the other. -/
theorem getElem?_run_scripted (hks : ∀ k ∈ ks, k.Scripted) (l : LineNumber) :
    (b.run ks).lines[l]? = b.lines[l]?.map (·.run (b.trace (plainActs l) ks)) := by
  induction ks generalizing b with
  | nil => exact (map_run_nil _).symm
  | cons k ks ih =>
    obtain ⟨hk, hks⟩ := List.forall_mem_cons.1 hks
    show ((b.after k).run ks).lines[l]? = _
    rw [ih hks, getElem?_after_plain hk.plain.1 hk.plain.2, map_run_append]
    rfl

theorem scripted_of_request? {check : Check} {now : Nat} {draw : Draw} {m : Envelope}
    (h : b.request? check now draw l m = some k) : k.Scripted := by
  rw [request?] at h
  rcases hc : b.lines[l]? with - | c
  · simp [hc] at h
  · simp only [hc] at h
    cases hb : m.body with
    | auth token =>
      simp only [hb] at h
      split at h
      · cases h
      · split at h <;> cases h
        trivial
    | publish channel data =>
      simp only [hb] at h
      split at h
      · split at h <;> cases h
        trivial
      · cases h
    | subscribe channel | unsubscribe channel =>
      simp only [hb] at h
      split at h <;> cases h
      trivial
    | ping =>
      simp only [hb] at h
      cases h
      trivial
    | _ => simp [hb] at h

theorem scripted_of_mem_script {check : Check} {now : Nat} {draw : Draw} {content : Bytes}
    (h : k ∈ b.script check now draw l content) : k.Scripted := by
  rcases List.mem_append.1 h with h | h
  · rcases e : Envelope.ofBytes draw.received content with failure | m
    · simp [e] at h
    · simp only [e, Option.mem_toList] at h
      exact scripted_of_request? h
  · obtain ⟨m, -, rfl⟩ := List.mem_map.1 h
    trivial

/-- A frame apart, the acts of a call are its own. -/
theorem acts_of_plain (hk : k.Plain) : b.acts l k = plainActs l b k := by
  cases k with
  | frame check now draw l' content => exact hk.elim
  | _ => rfl

/-- A call by which no connection comes to be leaves behind of each what its acts make of it. -/
theorem getElem?_after (he : ¬ k.Enters) (l : LineNumber) :
    (b.after k).lines[l]? = b.lines[l]?.map (·.run (b.acts l k)) := by
  by_cases hk : k.Plain
  · rw [acts_of_plain hk]
    exact getElem?_after_plain hk he l
  · cases k with
    | frame check now draw l' content =>
      show (b.handleFrame check now draw l' content).2.lines[l]? = _
      rw [handleFrame_eq_run, getElem?_run_scripted fun _ h => scripted_of_mem_script h]
      rfl
    | _ => exact absurd trivial hk

/-- What a frame is to a connection, some call of its script is. -/
theorem exists_of_mem_acts_frame {check : Check} {now : Nat} {draw : Draw} {l' : LineNumber}
    {content : Bytes} {a : Act} (h : a ∈ b.acts l (.frame check now draw l' content)) :
    ∃ ks k, k ∈ b.script check now draw l' content ∧ a ∈ plainActs l (b.run ks) k := by
  obtain ⟨ks, k, ks', e, ha⟩ := mem_logged.1 h
  refine ⟨ks, k, ?_, ha⟩
  rw [e]
  exact List.mem_append_right _ List.mem_cons_self

/-- The call that a frame from a connection asks for, if it is a message that asks for one. -/
def asked? (b : Board) (check : Check) (now : Nat) (draw : Draw) (l : LineNumber)
    (content : Bytes) : Option Call :=
  match Envelope.ofBytes draw.received content with
  | .error _ => none
  | .ok m => b.request? check now draw l m

/-- What a frame does: what it asks for, and then the reply. -/
theorem script_eq (b : Board) (check : Check) (now : Nat) (draw : Draw) (l : LineNumber)
    (content : Bytes) : b.script check now draw l content =
      (b.asked? check now draw l content).toList ++
        (b.reply? check now draw l content).toList.map (.send l) := by
  rw [script, asked?]
  rcases Envelope.ofBytes draw.received content with failure | m <;> rfl

theorem scripted_of_asked? {check : Check} {now : Nat} {draw : Draw} {content : Bytes}
    (h : b.asked? check now draw l content = some k) : k.Scripted := by
  rw [asked?] at h
  rcases e : Envelope.ofBytes draw.received content with failure | m
  · simp [e] at h
  · simp only [e] at h
    exact scripted_of_request? h

/-- The acts of a frame: those of what it asks for, and then the reply, if it is the connection's
own. -/
theorem acts_frame (b : Board) (check : Check) (now : Nat) (draw : Draw) (l l' : LineNumber)
    (content : Bytes) : b.acts l (.frame check now draw l' content) =
      b.trace (plainActs l) (b.asked? check now draw l' content).toList ++
        (b.reply? check now draw l' content).toList.flatMap fun m => aimed l [l'] (.send m) := by
  show b.trace (plainActs l) (b.script check now draw l' content) = _
  rw [script_eq, trace, logged_append]
  congr 1
  rcases b.reply? check now draw l' content with - | m
  · rfl
  · simp [logged, plainActs]

/-- Messages are taken by the call that is made for it, and by no other. -/
theorem eq_receive_of_mem_acts (h : .take ∈ b.acts l k) : k = .receive l := by
  have hplain : ∀ {b : Board} {k : Call}, .take ∈ plainActs l b k → k = .receive l := by
    intro b k hm
    cases k with
    | receive l' =>
      rw [List.mem_singleton.1 (mem_aimed.1 hm).1]
    | enter | unregister | frame => cases hm
    | subscribe | unsubscribe =>
      rw [plainActs] at hm
      split at hm
      · cases (mem_aimed.1 hm).2
      · cases hm
    | _ => cases (mem_aimed.1 hm).2
  by_cases hk : k.Plain
  · rw [acts_of_plain hk] at h
    exact hplain h
  · cases k with
    | frame check now draw l' content =>
      -- no script has such a call
      obtain ⟨ks, k, hk, hm⟩ := exists_of_mem_acts_frame h
      have hs := scripted_of_mem_script hk
      rw [hplain hm] at hs
      exact hs.elim
    | _ => exact absurd trivial hk

/-! ### Coming to be -/

/-- A connection that comes to be is new and blank; if the end has begun it is closed. -/
theorem getElem?_enter_cases (b : Board) (id : ConnectionId) (capacity now : Nat)
    (l : LineNumber) :
    (b.enter id capacity now).lines[l]? = b.lines[l]? ∨ b.lines[l]? = none ∧
      ∃ c as, Connection.new? id capacity now = some c ∧ (∀ a ∈ as, a = .close) ∧
        (b.enter id capacity now).lines[l]? = some (c.run as) := by
  rw [Board.enter, open?]
  rcases e : Connection.new? id capacity now with - | c
  · exact .inl rfl
  · have hc : (b.lines ++ [c])[b.lines.length]? = some c := by simp
    simp only [Option.map_some, register, hc]
    rcases Nat.lt_trichotomy l b.lines.length with hlt | rfl | hgt
    · -- an old connection stays as it is
      left
      split
      · refine (getElem?_modify_ne (Nat.ne_of_gt hlt)).trans ?_
        exact List.getElem?_append_left hlt
      · exact List.getElem?_append_left hlt
    · refine .inr ⟨List.getElem?_eq_none (Nat.le_refl _), c, ?_⟩
      split
      · exact ⟨[.close], rfl, by simp, getElem?_modify_self hc⟩
      · exact ⟨[], rfl, by simp, hc⟩
    · -- there is no connection of a greater number
      left
      have hno : (b.lines ++ [c])[l]? = none := List.getElem?_eq_none (by simpa using hgt)
      rw [List.getElem?_eq_none (Nat.le_of_lt hgt)]
      split
      · refine (getElem?_modify_ne (Nat.ne_of_lt hgt)).trans hno
      · exact hno

/-- **What a call leaves behind of a connection** that was there before. -/
theorem getElem?_after_of_some (hc : b.lines[l]? = some c) (k : Call) :
    (b.after k).lines[l]? = some (c.run (b.acts l k)) := by
  by_cases he : k.Enters
  · cases k with
    | enter id capacity now =>
      rcases getElem?_enter_cases b id capacity now l with h | ⟨hn, -⟩
      · exact h.trans hc
      · cases hn.symm.trans hc
    | _ => exact he.elim
  · rw [getElem?_after he, hc]
    rfl

/-- **Whoever was not there before** has come to be as a blank connection, and may have been closed
at once. -/
theorem getElem?_after_of_none (hn : b.lines[l]? = none) (hc : (b.after k).lines[l]? = some c) :
    ∃ id capacity now c₀ as, k = .enter id capacity now ∧
      Connection.new? id capacity now = some c₀ ∧ (∀ a ∈ as, a = .close) ∧ c = c₀.run as := by
  by_cases he : k.Enters
  · cases k with
    | enter id capacity now =>
      rcases getElem?_enter_cases b id capacity now l with e | ⟨-, c₀, as, hnew, has, e⟩
      · cases hn.symm.trans (e.symm.trans hc)
      · exact ⟨id, capacity, now, c₀, as, rfl, hnew, has, Option.some.inj (hc.symm.trans e)⟩
    | _ => exact he.elim
  · rw [getElem?_after he, hn] at hc
    cases hc

/-! ### Runs -/

/-- New names are new one after the other. -/
theorem freshRun_append {ks' : List Call} :
    FreshRun b (ks ++ ks') ↔ FreshRun b ks ∧ FreshRun (b.run ks) ks' := by
  induction ks generalizing b with
  | nil => exact ⟨fun h => ⟨trivial, h⟩, fun h => h.2⟩
  | cons k ks ih =>
    show k.Fresh b ∧ FreshRun (b.after k) (ks ++ ks') ↔ _
    rw [ih]
    exact and_assoc.symm

/-- What waits after a call has waited before or is accepted by it. -/
theorem mem_waiting_after {m : Envelope} (hc : (b.after k).lines[l]? = some c)
    (hm : m ∈ c.outbox.waiting) :
    (∃ c₀, b.lines[l]? = some c₀ ∧ m ∈ c₀.outbox.waiting) ∨ m ∈ b.accepted l k := by
  rcases h₀ : b.lines[l]? with - | c₀
  · -- it has come to be just now, and nothing waits for it
    obtain ⟨id, capacity, now, c₁, as, -, hnew, has, rfl⟩ := getElem?_after_of_none h₀ hc
    obtain ⟨-, rfl⟩ := Connection.new?_eq_some hnew
    rcases Connection.mem_waiting_run hm with hw | ha
    · cases hw
    · cases has _ (Connection.exists_send_of_mem_accepted ha)
  · rw [getElem?_after_of_some h₀] at hc
    cases hc
    simp only [accepted, h₀]
    exact (Connection.mem_waiting_run hm).imp_left fun hw => ⟨c₀, rfl, hw⟩

/-- What waits after a run has waited before or been accepted in the course of it. -/
theorem mem_waiting_run {m : Envelope} (hc : (b.run ks).lines[l]? = some c)
    (hm : m ∈ c.outbox.waiting) :
    (∃ c₀, b.lines[l]? = some c₀ ∧ m ∈ c₀.outbox.waiting) ∨ m ∈ b.trace (accepted l) ks := by
  induction ks generalizing b with
  | nil => exact .inl ⟨c, hc, hm⟩
  | cons k ks ih =>
    rcases ih hc with ⟨c₁, hc₁, hm₁⟩ | hlater
    · exact (mem_waiting_after hc₁ hm₁).imp_right (List.mem_append_left _)
    · exact .inr (List.mem_append_right _ hlater)

/-- Whoever has no identity at the end of a run has had none from the beginning. -/
theorem identity_eq_none_of_run (hc : b.lines[l]? = some c)
    (hi : ∀ c', (b.run ks).lines[l]? = some c' → c'.identity = none) : c.identity = none := by
  induction ks generalizing b c with
  | nil => exact hi c hc
  | cons k ks ih =>
    exact Connection.identity_eq_none_of_run (ih (getElem?_after_of_some hc k) hi)

end Switchboard.Board
