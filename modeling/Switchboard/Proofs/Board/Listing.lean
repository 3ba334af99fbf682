/-
Switchboard/Proofs/Board/Listing.lean

Who is listed, operation by operation.

Whether a name is listed under a channel is changed by three things.  One is
what the board does to the connection that the name leads to: where it makes
it join a channel it lists the name, and where it makes it leave one it takes
the name off the list.  Another is the end, at which the lists are emptied.
The third is that the connection is taken off the board; then its name is
taken off the lists of the channels that it has subscribed to by its own
account, and off no others (`Grounded.mem_listed_operate`).

The account that the connection gives is changed by the first of these only,
but also past the board (`mem_subscriptions_operate`).  All else that is to be
said of channels when the two have come apart follows from these two laws.
Of users there is one law (`Grounded.mem_users_operate`), because an identity
is for good.
-/
import Switchboard.Proofs.Board.Operations

namespace Switchboard

open Connection (Act)

/-! ### Own subscriptions -/

namespace Connection

variable {c : Connection} {channel : String}

theorem mem_subscriptions_after (c : Connection) (a : Act) : channel ∈ (c.after a).subscriptions ↔
    a = .join channel ∨ channel ∈ c.subscriptions ∧ a ≠ .leave channel := by
  cases a with
  | send m => rcases c.send_cases m with ⟨e, -⟩ | ⟨f, e⟩ <;> simp [after, orKeep, e, push]
  | take => simp [after, subscriptions_eq_of_standing c.standing_receive]
  | identify who =>
    rcases e : c.identity with - | old <;> simp [after, orKeep, Connection.identify, e]
  | join other =>
    simp [after, Connection.join, Std.ExtTreeSet.mem_insert]
  | leave other =>
    simp [after, Connection.leave, Std.ExtTreeSet.mem_erase, and_comm]
  | _ => simp [after, Connection.close, Connection.forsake, Connection.touch]

/-- The subscriptions after several acts, which do not make the connection join the channel and
leave it as well. -/
theorem mem_subscriptions_run {as : List Act} (h : ¬ (.join channel ∈ as ∧ .leave channel ∈ as)) :
    channel ∈ (c.run as).subscriptions ↔
      .join channel ∈ as ∨ channel ∈ c.subscriptions ∧ .leave channel ∉ as := by
  induction as generalizing c with
  | nil => simp
  | cons a as ih =>
    have h' : ¬ (.join channel ∈ as ∧ .leave channel ∈ as) :=
      fun hn => h ⟨List.mem_cons_of_mem a hn.1, List.mem_cons_of_mem a hn.2⟩
    rw [run_cons, ih h', mem_subscriptions_after, List.mem_cons, List.mem_cons]
    have hne : (.join channel : Act) ≠ .leave channel := Act.noConfusion
    grind

/-- An act that changes what a connection says of itself. -/
def Act.Telling : Act → Prop
  | .identify _ | .join _ | .leave _ => True
  | _ => False

end Connection

namespace Board

variable {b b' : Board} {id : ConnectionId} {l l' : LineNumber} {c : Connection} {k : Call}
  {o : Operation} {os : List Operation} {channel user : String}

/-! ### One thing at a time -/

theorem alike_run_sends (b : Board) (l : LineNumber) (ms : List Envelope) :
    Alike b (b.run (ms.map (.send l))) := by
  induction ms generalizing b with
  | nil => exact .refl b
  | cons m ms ih => exact (alike_orKeep_send b l m).trans (ih _)

/-- A frame comes to the call that it asks for, and to a reply. -/
theorem alike_frame (b : Board) (check : Check) (now : Nat) (draw : Draw) (l : LineNumber)
    (content : Bytes) : Alike (b.run (b.asked? check now draw l content).toList)
      (b.after (.frame check now draw l content)) := by
  have hrun : b.after (.frame check now draw l content) =
      b.run (b.script check now draw l content) := handleFrame_eq_run b check now draw l content
  rw [hrun, script_eq, run_append]
  exact alike_run_sends _ l _

/-- A reply is a message, and nothing else. -/
theorem mem_acts_frame {check : Check} {now : Nat} {draw : Draw} {content : Bytes} {a : Act}
    (ha : ∀ m, a ≠ .send m) : a ∈ b.acts l (.frame check now draw l' content) ↔
      a ∈ b.trace (plainActs l) (b.asked? check now draw l' content).toList := by
  rw [acts_frame, List.mem_append, or_iff_left]
  rintro h
  obtain ⟨m, -, h⟩ := List.mem_flatMap.1 h
  exact ha m (mem_aimed.1 h).2

/-- **A call is one thing to a connection**, however often it is done, and apart from messages. -/
theorem acts_uniform (l : LineNumber) (b : Board) (k : Call) :
    ∃ a, ∀ a' ∈ b.acts l k, a' = a ∨ ∃ m, a' = .send m := by
  have hnil : ∃ a : Act, ∀ a' ∈ ([] : List Act), a' = a := ⟨.take, by simp⟩
  have haimed : ∀ (ls : List LineNumber) (a : Act), ∃ a₀, ∀ a' ∈ aimed l ls a, a' = a₀ :=
    fun ls a => ⟨a, fun a' h => (mem_aimed.1 h).2⟩
  have hplain : ∀ {b : Board} {k : Call}, ∃ a, ∀ a' ∈ plainActs l b k, a' = a := by
    intro b k
    cases k with
    | enter | unregister | frame => exact hnil
    | subscribe id channel | unsubscribe id channel =>
      rw [plainActs]
      split
      · exact haimed _ _
      · exact hnil
    | _ => exact haimed _ _
  by_cases hk : k.Plain
  · rw [acts_of_plain hk]
    obtain ⟨a, ha⟩ := hplain (b := b) (k := k)
    exact ⟨a, fun a' h => .inl (ha a' h)⟩
  · cases k with
    | frame check now draw l' content =>
      have hasked : ∃ a, ∀ a' ∈ b.trace (plainActs l)
          (b.asked? check now draw l' content).toList, a' = a := by
        rcases b.asked? check now draw l' content with - | k
        · exact hnil
        · simpa [trace, logged] using hplain (b := b) (k := k)
      obtain ⟨a, ha⟩ := hasked
      refine ⟨a, fun a' h => ?_⟩
      rw [acts_frame] at h
      rcases List.mem_append.1 h with h | h
      · exact .inl (ha a' h)
      · obtain ⟨m, -, h⟩ := List.mem_flatMap.1 h
        exact .inr ⟨m, (mem_aimed.1 h).2⟩
    | _ => exact absurd trivial hk

theorem not_join_and_leave (l : LineNumber) (b : Board) (o : Operation) (channel : String) :
    ¬ (.join channel ∈ b.deeds l o ∧ .leave channel ∈ b.deeds l o) := by
  have huniform : ∃ a, ∀ a' ∈ b.deeds l o, a' = a ∨ ∃ m, a' = .send m := by
    cases o with
    | call k => exact acts_uniform l b k
    | make => exact ⟨.take, by simp [deeds]⟩
    | register l' =>
      refine ⟨.close, fun a' h => .inl ?_⟩
      rw [deeds] at h
      split at h
      · exact (mem_aimed.1 h).2
      · cases h
    | act l' a => exact ⟨a, fun a' h => .inl (mem_aimed.1 h).2⟩
  obtain ⟨a, ha⟩ := huniform
  rintro ⟨hj, hv⟩
  rcases ha _ hj with rfl | ⟨m, e⟩
  · rcases ha _ hv with e | ⟨m, e⟩ <;> cases e
  · cases e

/-- **What a connection has subscribed to by its own account**, after an operation. -/
theorem mem_subscriptions_operate (c : Connection) (l : LineNumber) (b : Board) (o : Operation) :
    channel ∈ (c.run (b.deeds l o)).subscriptions ↔ .join channel ∈ b.deeds l o ∨
      channel ∈ c.subscriptions ∧ .leave channel ∉ b.deeds l o :=
  Connection.mem_subscriptions_run (not_join_and_leave l b o channel)

/-! ### Taking off the board -/

/-- The connection of that number has subscribed to a channel, by its own account. -/
def Avows (b : Board) (l : LineNumber) (channel : String) : Prop :=
  ∃ c, b.lines[l]? = some c ∧ channel ∈ c.subscriptions

theorem avows_iff (hc : b.lines[l]? = some c) : b.Avows l channel ↔ channel ∈ c.subscriptions := by
  simp [Avows, hc]

/-- The registrations that a call undoes one by one. -/
def dropped (b : Board) : Call → List (ConnectionId × LineNumber)
  | .unregister id => (b.registered[id]?.map fun l => (id, l)).toList
  | .sweep now => b.stale now
  | _ => []

theorem mem_dropped_unregister {id' : ConnectionId} :
    (id, l) ∈ b.dropped (.unregister id') ↔ id = id' ∧ b.registered[id']? = some l := by
  simp [dropped, and_comm, eq_comm]

theorem Call.Scripted.dropped_eq (h : k.Scripted) : b.dropped k = [] := by
  cases k with
  | unregister | sweep => exact h.elim
  | _ => rfl

theorem Call.Scripted.ne_shutdown (h : k.Scripted) : k ≠ .shutdown := by
  rintro rfl
  exact h

theorem registered_of_mem_dropped (h : (id, l) ∈ b.dropped k) : b.registered[id]? = some l := by
  cases k with
  | unregister id' =>
    obtain ⟨rfl, hl⟩ := mem_dropped_unregister.1 h
    exact hl
  | sweep now => exact registered_of_mem_stale h
  | _ => cases h

/-- Whoever is taken off the board is struck off its user, and off the channels that it has
subscribed to by its own account. -/
theorem Grounded.mem_listed_drop (h : b.Grounded) {id' : ConnectionId}
    (hl : b.registered[id']? = some l) (id : ConnectionId) :
    (∀ channel : String, id ∈ (b.drop id' l).channels.listed channel ↔
      id ∈ b.channels.listed channel ∧ ¬ (id = id' ∧ b.Avows l channel)) ∧
    ∀ user : String, id ∈ (b.drop id' l).users.listed user ↔
      id ∈ b.users.listed user ∧ id ≠ id' := by
  obtain ⟨c, hc, -⟩ := h.named hl
  rw [drop_eq id' hc]
  constructor
  · intro channel
    show id ∈ (b.channels.leaveAll c.subscriptions.toList id').listed channel ↔ _
    rw [ChannelIndex.mem_listed_leaveAll, Std.ExtTreeSet.mem_toList, avows_iff hc,
      and_comm (a := id = id')]
  · intro user
    show id ∈ (usersWithout b.users c id').listed user ↔ _
    rw [listed_usersWithout]
    split
    · simp
    · -- it is listed under no user but its own
      rename_i hu
      refine (and_iff_left_of_imp fun hm => ?_).symm
      rintro rfl
      obtain ⟨d, hd, hu'⟩ := h.users hm
      rw [holder?_of hl hc] at hd
      cases hd
      exact hu hu'

theorem Alike.avows (a : Alike b b') : b'.Avows l channel ↔ b.Avows l channel := by
  constructor
  · rintro ⟨c', hc', hm⟩
    obtain ⟨c, hc, e⟩ := Option.map_eq_some_iff.1
      ((a.map_standing l).symm.trans (congrArg (Option.map _) hc'))
    exact ⟨c, hc, by rwa [Connection.subscriptions_eq_of_standing e]⟩
  · rintro ⟨c, hc, hm⟩
    obtain ⟨c', hc', e⟩ := a.exists_line hc
    exact ⟨c', hc', by rwa [Connection.subscriptions_eq_of_standing e]⟩

theorem Grounded.mem_listed_removeAll {gone : List (ConnectionId × LineNumber)} (h : b.Grounded)
    (hd : gone.Pairwise fun r r' => r.1 ≠ r'.1) (hg : ∀ r ∈ gone, b.registered[r.1]? = some r.2)
    (id : ConnectionId) :
    (∀ channel : String, id ∈ (gone.foldl (fun b r => b.remove r.1 r.2) b).channels.listed channel ↔
      id ∈ b.channels.listed channel ∧ ¬ ∃ l, (id, l) ∈ gone ∧ b.Avows l channel) ∧
    ∀ user : String, id ∈ (gone.foldl (fun b r => b.remove r.1 r.2) b).users.listed user ↔
      id ∈ b.users.listed user ∧ ¬ ∃ l, (id, l) ∈ gone := by
  induction gone generalizing b with
  | nil => simp
  | cons r gone ih =>
    obtain ⟨hr, hd⟩ := List.pairwise_cons.1 hd
    obtain ⟨hl, hg⟩ := List.forall_mem_cons.1 hg
    -- one connection has been closed, which does not matter to the lists
    have havows : ∀ l channel, (b.remove r.1 r.2).Avows l channel ↔ b.Avows l channel := by
      intro l channel
      refine (alike_close (b.drop r.1 r.2) r.2).avows.trans ?_
      rw [Avows, lines_drop]
      rfl
    obtain ⟨hchannels, husers⟩ := ih (h.remove hl) hd (registered_remove_of_ne hr hg)
    obtain ⟨hchannels', husers'⟩ := h.mem_listed_drop hl id
    simp only [List.foldl_cons, List.mem_cons]
    constructor
    · intro channel
      rw [hchannels]
      show id ∈ (b.drop r.1 r.2).channels.listed channel ∧ _ ↔ _
      simp only [hchannels', havows]
      grind
    · intro user
      rw [husers]
      show id ∈ (b.drop r.1 r.2).users.listed user ∧ _ ↔ _
      rw [husers']
      grind

/-! ### Lists that nothing is done to -/

theorem indices_register (b : Board) (l : LineNumber) :
    (b.register l).2.users = b.users ∧ (b.register l).2.channels = b.channels := by
  rcases hc : b.lines[l]? with - | c
  · simp [register, hc]
  · rcases register_cases hc with ⟨-, e⟩ | ⟨-, e⟩
    · rw [e]
      exact ⟨rfl, rfl⟩
    · rw [e]
      exact ⟨rfl, rfl⟩

theorem indices_open? {capacity now : Nat} (h : b.open? id capacity now = some (l, b')) :
    b'.users = b.users ∧ b'.channels = b.channels := by
  obtain ⟨outbox, -, rfl⟩ := open?_eq_some h
  exact ⟨rfl, rfl⟩

theorem indices_enter (b : Board) (id : ConnectionId) (capacity now : Nat) :
    (b.enter id capacity now).users = b.users ∧
      (b.enter id capacity now).channels = b.channels := by
  rw [enter]
  rcases e : b.open? id capacity now with - | ⟨l, b'⟩
  · exact ⟨rfl, rfl⟩
  · have hopen := indices_open? e
    have hregister := indices_register b' l
    exact ⟨hregister.1.trans hopen.1, hregister.2.trans hopen.2⟩

theorem channels_identify (b : Board) (id : ConnectionId) (who : Identity) :
    (b.orKeep (b.identify id who)).channels = b.channels := by
  rcases e : b.identify id who with f | b'
  · rfl
  · obtain ⟨l, c, -, -, -, rfl⟩ := identify_eq_ok e
    rfl

theorem users_subscribe (b : Board) (id : ConnectionId) (channel : String) :
    (b.orKeep (b.subscribe id channel)).users = b.users := by
  rcases e : b.subscribe id channel with f | b'
  · rfl
  · obtain ⟨l, c, -, -, rfl⟩ := subscribe_eq_ok e
    rfl

theorem users_unsubscribe (b : Board) (id : ConnectionId) (channel : String) :
    (b.orKeep (b.unsubscribe id channel)).users = b.users := by
  rcases e : b.unsubscribe id channel with f | b'
  · rfl
  · obtain ⟨l, c, -, -, rfl⟩ := unsubscribe_eq_ok e
    rfl

/-- What concerns a channel and is done on behalf of a name is done to the connection that the name
leads to; or else it is not done, because the channel has a name that none may have, or because
nobody is registered under the name. -/
theorem Grounded.checked_cases (h : b.Grounded) (id : ConnectionId) (channel : String)
    (change : LineNumber → Board) (a : Act) :
    let r : Except Fault Board := do
      checkChannel channel; let (l, _) ← b.find id; .ok (change l)
    let acts (l : LineNumber) : List Act := match checkChannel channel with
      | .ok () => aimed l (b.find? id).toList a
      | .error _ => []
    (∃ l', b.registered[id]? = some l' ∧ b.orKeep r = change l' ∧ ∀ l, acts l = aimed l [l'] a) ∨
      b.orKeep r = b ∧ ∀ l, acts l = [] := by
  intro r acts
  rcases hch : checkChannel channel with f | ⟨⟩
  · have hr : r = .error f := by simp only [r, hch, bind, Except.bind]
    exact .inr ⟨by rw [hr, Board.orKeep], fun l => by simp only [acts, hch]⟩
  · rcases hl : b.registered[id]? with - | l'
    · have hr : r = .error (.notFound id) := by
        simp only [r, hch, find_of_find?_eq_none hl, bind, Except.bind]
      have hnone : b.find? id = none := hl
      exact .inr ⟨by rw [hr, Board.orKeep], fun l => by simp only [acts, hch, hnone]; rfl⟩
    · obtain ⟨c, hc, -⟩ := h.named hl
      have hr : r = .ok (change l') := by simp only [r, hch, find_of hl hc, bind, Except.bind]
      have hsome : b.find? id = some l' := hl
      exact .inl ⟨l', rfl, by rw [hr, Board.orKeep], fun l => by simp only [acts, hch, hsome]; rfl⟩

/-! ### The lists of channels -/

/-- What is aimed at the connection that a name leads to is meant for the name. -/
theorem Grounded.exists_mem_aimed (h : b.Grounded) {id' : ConnectionId}
    (hl : b.registered[id']? = some l) {a a' : Act} :
    (∃ l', b.registered[id]? = some l' ∧ a' ∈ aimed l' [l] a) ↔ id = id' ∧ a' = a := by
  constructor
  · rintro ⟨l', hl', hm⟩
    obtain ⟨hmem, rfl⟩ := mem_aimed.1 hm
    obtain rfl := List.mem_singleton.1 hmem
    exact ⟨h.registered_inj hl' hl, rfl⟩
  · rintro ⟨rfl, rfl⟩
    exact ⟨l, hl, mem_aimed.2 ⟨List.mem_singleton_self l, rfl⟩⟩

/-- A call that neither changes the lists nor makes a connection join the channel or leave it. -/
theorem mem_listed_of_eq (he : (b.after k).channels = b.channels)
    (hj : ∀ l, .join channel ∉ plainActs l b k) (hv : ∀ l, .leave channel ∉ plainActs l b k)
    (hs : k ≠ .shutdown) (hd : b.dropped k = []) :
    id ∈ (b.after k).channels.listed channel ↔
      (∃ l, b.registered[id]? = some l ∧ .join channel ∈ plainActs l b k) ∨
      id ∈ b.channels.listed channel ∧
        (¬ ∃ l, b.registered[id]? = some l ∧ .leave channel ∈ plainActs l b k) ∧
        k ≠ .shutdown ∧ ¬ ∃ l, (id, l) ∈ b.dropped k ∧ b.Avows l channel := by
  rw [he, hd]
  simp [hj, hv, hs]

/-- Whoever subscribes is listed under the channel from then on, unless the call fails. -/
theorem Grounded.mem_listed_subscribe (h : b.Grounded) (id' : ConnectionId) (other : String)
    (id : ConnectionId) (channel : String) :
    id ∈ (b.after (.subscribe id' other)).channels.listed channel ↔
      (∃ l, b.registered[id]? = some l ∧
        .join channel ∈ plainActs l b (.subscribe id' other)) ∨
      id ∈ b.channels.listed channel := by
  rcases h.checked_cases id' other (fun l => { b.modify l (fun c => (c.join other).2) with
    channels := b.channels.join other id' }) (.join other) with ⟨l', hl', e, hacts⟩ | ⟨e, hacts⟩
  · have hok : (b.after (.subscribe id' other)).channels = b.channels.join other id' :=
      congrArg Board.channels e
    have hacts : ∀ l, plainActs l b (.subscribe id' other) = aimed l [l'] (.join other) := hacts
    simp only [hok, hacts, ChannelIndex.mem_listed_join, h.exists_mem_aimed hl']
    simp [and_comm]
  · have hacts : ∀ l, plainActs l b (.subscribe id' other) = [] := hacts
    have hsame : (b.after (.subscribe id' other)).channels = b.channels :=
      congrArg Board.channels e
    simp [hsame, hacts]

/-- Whoever takes a subscription back is not listed under the channel any more, unless the call
fails. -/
theorem Grounded.mem_listed_unsubscribe (h : b.Grounded) (id' : ConnectionId) (other : String)
    (id : ConnectionId) (channel : String) :
    id ∈ (b.after (.unsubscribe id' other)).channels.listed channel ↔
      id ∈ b.channels.listed channel ∧ ¬ ∃ l, b.registered[id]? = some l ∧
        .leave channel ∈ plainActs l b (.unsubscribe id' other) := by
  rcases h.checked_cases id' other (fun l => { b.modify l (fun c => (c.leave other).2) with
    channels := b.channels.leave other id' }) (.leave other) with ⟨l', hl', e, hacts⟩ | ⟨e, hacts⟩
  · have hok : (b.after (.unsubscribe id' other)).channels = b.channels.leave other id' :=
      congrArg Board.channels e
    have hacts : ∀ l, plainActs l b (.unsubscribe id' other) = aimed l [l'] (.leave other) := hacts
    simp only [hok, hacts, ChannelIndex.mem_listed_leave, h.exists_mem_aimed hl']
    simp [and_comm]
  · have hacts : ∀ l, plainActs l b (.unsubscribe id' other) = [] := hacts
    have hsame : (b.after (.unsubscribe id' other)).channels = b.channels :=
      congrArg Board.channels e
    simp [hsame, hacts]

/-- **Who is listed under a channel after a call**, frames apart. -/
theorem Grounded.mem_listed_plain (h : b.Grounded) (hk : k.Plain) (id : ConnectionId)
    (channel : String) : id ∈ (b.after k).channels.listed channel ↔
      (∃ l, b.registered[id]? = some l ∧ .join channel ∈ plainActs l b k) ∨
      id ∈ b.channels.listed channel ∧
        (¬ ∃ l, b.registered[id]? = some l ∧ .leave channel ∈ plainActs l b k) ∧
        k ≠ .shutdown ∧ ¬ ∃ l, (id, l) ∈ b.dropped k ∧ b.Avows l channel := by
  -- an act of another kind
  have hno : ∀ {ls : List LineNumber} {a a' : Act}, a' ≠ a → ∀ l, a' ∉ aimed l ls a :=
    fun hne _ hm => hne (mem_aimed.1 hm).2
  cases k with
  | enter id' capacity now =>
    exact mem_listed_of_eq (indices_enter b id' capacity now).2 (fun _ => List.not_mem_nil)
      (fun _ => List.not_mem_nil) Call.noConfusion rfl
  | unregister id' =>
    show id ∈ (b.unregister id').2.channels.listed channel ↔ _
    rw [Board.unregister]
    rcases e : b.registered[id']? with - | l'
    · simp [plainActs, mem_dropped_unregister, e]
    · simp [plainActs, mem_dropped_unregister, e, (h.mem_listed_drop e id).1]
  | identify id' who =>
    exact mem_listed_of_eq (channels_identify b id' who) (hno Act.noConfusion)
      (hno Act.noConfusion) Call.noConfusion rfl
  | subscribe id' other =>
    have hv : ∀ l, .leave channel ∉ plainActs l b (.subscribe id' other) := by
      intro l
      rw [plainActs]
      split
      · exact hno Act.noConfusion l
      · exact List.not_mem_nil
    simp [h.mem_listed_subscribe, hv, dropped]
  | unsubscribe id' other =>
    have hj : ∀ l, .join channel ∉ plainActs l b (.unsubscribe id' other) := by
      intro l
      rw [plainActs]
      split
      · exact hno Act.noConfusion l
      · exact List.not_mem_nil
    simp [h.mem_listed_unsubscribe, hj, dropped]
  | sweep now =>
    have hj : ∀ l, .join channel ∉ plainActs l b (.sweep now) := hno Act.noConfusion
    have hv : ∀ l, .leave channel ∉ plainActs l b (.sweep now) := hno Act.noConfusion
    have hgone := (h.mem_listed_removeAll (pairwise_stale b now)
      (fun _ hr => registered_of_mem_stale hr) id).1 channel
    simp only [hj, hv, and_false, exists_false, false_or, not_false_eq_true, true_and, ne_eq,
      reduceCtorEq]
    exact hgone
  | shutdown =>
    have hj : ∀ l, .join channel ∉ plainActs l b .shutdown := hno Act.noConfusion
    have hempty : (b.after .shutdown).channels = ∅ := (disbanded_shutdown b).channels
    rw [hempty]
    simp [hj]
  | broadcast m | toChannel other m | toUser user m =>
    exact mem_listed_of_eq (alike_offerAll m _ b).channels (hno Act.noConfusion)
      (hno Act.noConfusion) Call.noConfusion rfl
  | send l' m =>
    exact mem_listed_of_eq (alike_orKeep_send b l' m).channels (hno Act.noConfusion)
      (hno Act.noConfusion) Call.noConfusion rfl
  | close l' | touch l' now | receive l' | forsake l' =>
    exact mem_listed_of_eq rfl (hno Act.noConfusion) (hno Act.noConfusion) Call.noConfusion rfl
  | frame => exact hk.elim

/-- **Who is listed under a channel after a call.** -/
theorem Grounded.mem_listed_after (h : b.Grounded) (k : Call) (id : ConnectionId)
    (channel : String) : id ∈ (b.after k).channels.listed channel ↔
      (∃ l, b.registered[id]? = some l ∧ .join channel ∈ b.acts l k) ∨
      id ∈ b.channels.listed channel ∧
        (¬ ∃ l, b.registered[id]? = some l ∧ .leave channel ∈ b.acts l k) ∧
        k ≠ .shutdown ∧ ¬ ∃ l, (id, l) ∈ b.dropped k ∧ b.Avows l channel := by
  by_cases hk : k.Plain
  · simp only [acts_of_plain hk]
    exact h.mem_listed_plain hk id channel
  · cases k with
    | frame check now draw l' content =>
      have hmem : ∀ {a : Act}, (∀ m, a ≠ .send m) → ∀ l,
          a ∈ b.acts l (.frame check now draw l' content) ↔
            a ∈ b.trace (plainActs l) (b.asked? check now draw l' content).toList :=
        fun ha l => mem_acts_frame ha
      simp only [(alike_frame b check now draw l' content).channels,
        hmem (a := .join channel) (by simp), hmem (a := .leave channel) (by simp)]
      rcases e : b.asked? check now draw l' content with - | k
      · simp [run, trace, logged, dropped]
      · have hs := scripted_of_asked? e
        have htrace : ∀ l, b.trace (plainActs l) [k] = plainActs l b k :=
          fun l => List.append_nil _
        have hnone : b.dropped (.frame check now draw l' content) = [] := rfl
        show id ∈ (b.after k).channels.listed channel ↔ _
        simp only [Option.toList_some, htrace, hnone]
        rw [h.mem_listed_plain hs.plain.1, hs.dropped_eq]
        simp [hs.ne_shutdown]
    | _ => exact absurd trivial hk

/-! ### The lists of users -/

/-- The connection of that number has no identity, and by the acts it gets one of the user. -/
def Gains (b : Board) (l : LineNumber) (user : String) (as : List Act) : Prop :=
  (∃ c, b.lines[l]? = some c ∧ c.identity = none) ∧ ∃ who, .identify who ∈ as ∧ who.user = user

theorem not_gains {as : List Act} (h : ∀ who, .identify who ∉ as) : ¬ b.Gains l user as := by
  rintro ⟨-, who, hm, -⟩
  exact h who hm

/-- A call that neither changes the lists nor gives a connection an identity. -/
theorem mem_users_of_eq (he : (b.after k).users = b.users)
    (hi : ∀ l who, .identify who ∉ plainActs l b k) (hs : k ≠ .shutdown) (hd : b.dropped k = []) :
    id ∈ (b.after k).users.listed user ↔
      (∃ l, b.registered[id]? = some l ∧ b.Gains l user (plainActs l b k)) ∨
      id ∈ b.users.listed user ∧ k ≠ .shutdown ∧ ¬ ∃ l, (id, l) ∈ b.dropped k := by
  have hno : ∀ l, ¬ b.Gains l user (plainActs l b k) := fun l => not_gains (hi l)
  rw [he, hd]
  simp [hno, hs]

/-- Whoever is identified is listed under its user from then on.  The call fails if it has an
identity already, or if the name leads to nobody. -/
theorem Grounded.mem_users_identify (h : b.Grounded) (id' : ConnectionId) (who : Identity)
    (id : ConnectionId) (user : String) :
    id ∈ (b.after (.identify id' who)).users.listed user ↔
      (∃ l, b.registered[id]? = some l ∧ b.Gains l user (plainActs l b (.identify id' who))) ∨
      id ∈ b.users.listed user ∧ Call.identify id' who ≠ .shutdown ∧
        ¬ ∃ l, (id, l) ∈ b.dropped (.identify id' who) := by
  show id ∈ (b.orKeep (b.identify id' who)).users.listed user ↔ _
  rcases hb : b.identify id' who with f | b'
  · -- whoever the name leads to has an identity already
    have hhas : ¬ ∃ l, b.registered[id]? = some l ∧
        b.Gains l user (plainActs l b (.identify id' who)) := by
      rintro ⟨l, -, ⟨c, hc, hi⟩, who', hm, -⟩
      have hl : b.registered[id']? = some l := Option.mem_toList.1 (mem_aimed.1 hm).1
      obtain rfl := h.id_eq hl hc
      obtain ⟨b', hok⟩ := identify_of_registered hl hc hi who
      cases hb.symm.trans hok
    show id ∈ b.users.listed user ↔ _
    simp [hhas, dropped]
  · obtain ⟨l', c', hl', hc', hi', rfl⟩ := identify_eq_ok hb
    have hacts : ∀ l, plainActs l b (.identify id' who) = aimed l [l'] (.identify who) := by
      intro l
      simp only [plainActs, find?, hl', Option.toList_some]
    have hgains : (∃ l, b.registered[id]? = some l ∧
        b.Gains l user (plainActs l b (.identify id' who))) ↔ id = id' ∧ who.user = user := by
      simp only [hacts, Gains]
      constructor
      · rintro ⟨l, hl, -, who', hm, hu⟩
        obtain ⟨rfl, e⟩ := (h.exists_mem_aimed hl').1 ⟨l, hl, hm⟩
        cases e
        exact ⟨rfl, hu⟩
      · rintro ⟨rfl, hu⟩
        obtain ⟨l, hl, hm⟩ := (h.exists_mem_aimed hl').2 ⟨rfl, rfl⟩
        cases hl.symm.trans hl'
        exact ⟨l', hl, ⟨c', hc', hi'⟩, who, hm, hu⟩
    show id ∈ (b.users.join who.user id').listed user ↔ _
    rw [hgains, UserIndex.listed_join]
    by_cases hu : who.user = user <;> simp [hu, dropped, or_comm]

/-- **Who is listed under a user after a call**, frames apart. -/
theorem Grounded.mem_users_plain (h : b.Grounded) (hk : k.Plain) (id : ConnectionId)
    (user : String) : id ∈ (b.after k).users.listed user ↔
      (∃ l, b.registered[id]? = some l ∧ b.Gains l user (plainActs l b k)) ∨
      id ∈ b.users.listed user ∧ k ≠ .shutdown ∧ ¬ ∃ l, (id, l) ∈ b.dropped k := by
  -- an act of another kind
  have hno : ∀ {ls : List LineNumber} {a : Act}, (∀ who, .identify who ≠ a) →
      ∀ l who, .identify who ∉ aimed l ls a :=
    fun hne _ who hm => hne who (mem_aimed.1 hm).2
  cases k with
  | enter id' capacity now =>
    exact mem_users_of_eq (indices_enter b id' capacity now).1 (fun _ _ => List.not_mem_nil)
      Call.noConfusion rfl
  | unregister id' =>
    show id ∈ (b.unregister id').2.users.listed user ↔ _
    rw [Board.unregister]
    rcases e : b.registered[id']? with - | l'
    · simp [plainActs, mem_dropped_unregister, e, Gains]
    · simp [plainActs, mem_dropped_unregister, e, Gains, (h.mem_listed_drop e id).2]
  | identify id' who => exact h.mem_users_identify id' who id user
  | subscribe id' other =>
    refine mem_users_of_eq (users_subscribe b id' other) (fun l => ?_) Call.noConfusion rfl
    rw [plainActs]
    split
    · exact hno (fun _ => Act.noConfusion) l
    · exact fun _ => List.not_mem_nil
  | unsubscribe id' other =>
    refine mem_users_of_eq (users_unsubscribe b id' other) (fun l => ?_) Call.noConfusion rfl
    rw [plainActs]
    split
    · exact hno (fun _ => Act.noConfusion) l
    · exact fun _ => List.not_mem_nil
  | sweep now =>
    have hi : ∀ l, ¬ b.Gains l user (plainActs l b (.sweep now)) :=
      fun l => not_gains (hno (fun _ => Act.noConfusion) l)
    have hgone := (h.mem_listed_removeAll (pairwise_stale b now)
      (fun _ hr => registered_of_mem_stale hr) id).2 user
    simp only [hi, and_false, exists_false, false_or, ne_eq, reduceCtorEq, not_false_eq_true,
      true_and]
    exact hgone
  | shutdown =>
    have hi : ∀ l, ¬ b.Gains l user (plainActs l b .shutdown) :=
      fun l => not_gains (hno (fun _ => Act.noConfusion) l)
    have hempty : (b.after .shutdown).users = ∅ := (disbanded_shutdown b).users
    rw [hempty]
    simp [hi]
  | broadcast m | toChannel other m | toUser user m =>
    exact mem_users_of_eq (alike_offerAll m _ b).users (hno fun _ => Act.noConfusion)
      Call.noConfusion rfl
  | send l' m =>
    exact mem_users_of_eq (alike_orKeep_send b l' m).users (hno fun _ => Act.noConfusion)
      Call.noConfusion rfl
  | close l' | touch l' now | receive l' | forsake l' =>
    exact mem_users_of_eq rfl (hno fun _ => Act.noConfusion) Call.noConfusion rfl
  | frame => exact hk.elim

/-- **Who is listed under a user after a call.** -/
theorem Grounded.mem_users_after (h : b.Grounded) (k : Call) (id : ConnectionId) (user : String) :
    id ∈ (b.after k).users.listed user ↔
      (∃ l, b.registered[id]? = some l ∧ b.Gains l user (b.acts l k)) ∨
      id ∈ b.users.listed user ∧ k ≠ .shutdown ∧ ¬ ∃ l, (id, l) ∈ b.dropped k := by
  by_cases hk : k.Plain
  · simp only [acts_of_plain hk]
    exact h.mem_users_plain hk id user
  · cases k with
    | frame check now draw l' content =>
      have hmem : ∀ l who, .identify who ∈ b.acts l (.frame check now draw l' content) ↔
          .identify who ∈ b.trace (plainActs l) (b.asked? check now draw l' content).toList :=
        fun l who => mem_acts_frame (by simp)
      simp only [Gains, hmem, (alike_frame b check now draw l' content).users]
      rcases e : b.asked? check now draw l' content with - | k
      · simp [run, trace, logged, dropped]
      · have hs := scripted_of_asked? e
        have htrace : ∀ l, b.trace (plainActs l) [k] = plainActs l b k :=
          fun l => List.append_nil _
        have hnone : b.dropped (.frame check now draw l' content) = [] := rfl
        show id ∈ (b.after k).users.listed user ↔ _
        simp only [Option.toList_some, htrace, hnone]
        rw [h.mem_users_plain hs.plain.1, hs.dropped_eq]
        simp [hs.ne_shutdown, Gains]
    | _ => exact absurd trivial hk

/-! ### Operations -/

/-- What an operation does to a connection by way of the board, and not past it. -/
def errands (l : LineNumber) (b : Board) : Operation → List Act
  | .call k => b.acts l k
  | _ => []

/-- The registrations that an operation undoes one by one. -/
def leavers (b : Board) : Operation → List (ConnectionId × LineNumber)
  | .call k => b.dropped k
  | _ => []

theorem registered_of_mem_leavers (h : (id, l) ∈ b.leavers o) : b.registered[id]? = some l := by
  cases o with
  | call k => exact registered_of_mem_dropped h
  | _ => cases h

theorem errands_subset (l : LineNumber) (b : Board) (o : Operation) :
    b.errands l o ⊆ b.deeds l o := by
  cases o with
  | call k => exact List.Subset.refl _
  | _ => exact List.nil_subset _

/-- What changes what a connection says of itself is done by way of the board, or as an act of the
connection. -/
theorem mem_deeds_iff {a : Act} (ha : a.Telling) (ho : o ≠ .act l a) :
    a ∈ b.deeds l o ↔ a ∈ b.errands l o := by
  refine ⟨fun hm => ?_, fun hm => errands_subset l b o hm⟩
  cases o with
  | call k => exact hm
  | make => cases hm
  | register l' =>
    rw [deeds] at hm
    split at hm
    · obtain ⟨-, rfl⟩ := mem_aimed.1 hm
      exact ha.elim
    · cases hm
  | act l' a' =>
    obtain ⟨hl, rfl⟩ := mem_aimed.1 hm
    exact absurd (by rw [List.mem_singleton.1 hl]) ho

/-- The board changes what a connection says of itself only if it is registered, and then does
nothing else to anyone. -/
theorem errand_cases {a : Act} (ha : a.Telling) (hm : a ∈ b.errands l o) :
    (∃ id : ConnectionId, b.registered[id]? = some l) ∧ b.leavers o = [] ∧
      o ≠ .call .shutdown := by
  have hplain : ∀ {k : Call}, a ∈ plainActs l b k →
      (∃ id : ConnectionId, b.registered[id]? = some l) ∧ b.dropped k = [] ∧ k ≠ .shutdown := by
    have hno : ∀ {ls : List LineNumber} {a' : Act}, ¬ a'.Telling → a ∉ aimed l ls a' := by
      intro ls a' ha' hm
      obtain ⟨-, rfl⟩ := mem_aimed.1 hm
      exact ha' ha
    have hfind : ∀ {id : ConnectionId} {a' : Act}, a ∈ aimed l (b.find? id).toList a' →
        ∃ id : ConnectionId, b.registered[id]? = some l :=
      fun hm => ⟨_, Option.mem_toList.1 (mem_aimed.1 hm).1⟩
    intro k hm
    cases k with
    | enter | unregister | frame => cases hm
    | identify id who => exact ⟨hfind hm, rfl, Call.noConfusion⟩
    | subscribe id channel | unsubscribe id channel =>
      rw [plainActs] at hm
      split at hm
      · exact ⟨hfind hm, rfl, Call.noConfusion⟩
      · cases hm
    | _ => exact absurd hm (hno id)
  cases o with
  | call k =>
    have hcall : (∃ id : ConnectionId, b.registered[id]? = some l) ∧ b.dropped k = [] ∧
        k ≠ .shutdown := by
      by_cases hk : k.Plain
      · exact hplain (by rwa [← acts_of_plain hk])
      · cases k with
        | frame check now draw l' content =>
          have hsend : ∀ m, a ≠ .send m := by
            rintro m rfl
            exact ha
          have hm' := (mem_acts_frame hsend).1 hm
          rcases e : b.asked? check now draw l' content with - | k
          · rw [e] at hm'
            cases hm'
          · rw [e] at hm'
            have hasked : a ∈ plainActs l b k := by simpa [trace, logged] using hm'
            exact ⟨(hplain hasked).1, rfl, Call.noConfusion⟩
        | _ => exact absurd trivial hk
    exact ⟨hcall.1, hcall.2.1, fun e => hcall.2.2 (Operation.call.inj e)⟩
  | _ => cases hm

/-- Whatever is no call leaves the lists as they are. -/
theorem indices_operate (b : Board) (o : Operation) (ho : ∀ k, o ≠ .call k) :
    (b.operate o).users = b.users ∧ (b.operate o).channels = b.channels := by
  cases o with
  | call k => exact absurd rfl (ho k)
  | make id capacity now =>
    rcases e : b.open? id capacity now with - | ⟨l', b'⟩
    · simp [operate, e]
    · simp only [operate, e]
      exact indices_open? e
  | register l' => exact indices_register b l'
  | act l' a => exact ⟨rfl, rfl⟩

/-- **Who is listed under a channel after an operation**: whom the board has made join it, and
whoever was listed before, unless the board has made it leave the channel, the end has begun, or it
is taken off the board and has subscribed by its own account. -/
theorem Grounded.mem_listed_operate (h : b.Grounded) (o : Operation) (id : ConnectionId)
    (channel : String) : id ∈ (b.operate o).channels.listed channel ↔
      (∃ l, b.registered[id]? = some l ∧ .join channel ∈ b.errands l o) ∨
      id ∈ b.channels.listed channel ∧
        (¬ ∃ l, b.registered[id]? = some l ∧ .leave channel ∈ b.errands l o) ∧
        o ≠ .call .shutdown ∧ ¬ ∃ l, (id, l) ∈ b.leavers o ∧ b.Avows l channel := by
  cases o with
  | call k =>
    have hk : (Operation.call k ≠ .call .shutdown) ↔ k ≠ .shutdown := by simp
    rw [hk]
    exact h.mem_listed_after k id channel
  | _ =>
    rw [(indices_operate b _ fun _ => Operation.noConfusion).2]
    simp [errands, leavers]

/-- **Who is listed under a user after an operation**: whom the board has given an identity of the
user, and whoever was listed before, unless the end has begun or it is taken off the board. -/
theorem Grounded.mem_users_operate (h : b.Grounded) (o : Operation) (id : ConnectionId)
    (user : String) : id ∈ (b.operate o).users.listed user ↔
      (∃ l, b.registered[id]? = some l ∧ b.Gains l user (b.errands l o)) ∨
      id ∈ b.users.listed user ∧ o ≠ .call .shutdown ∧ ¬ ∃ l, (id, l) ∈ b.leavers o := by
  cases o with
  | call k =>
    have hk : (Operation.call k ≠ .call .shutdown) ↔ k ≠ .shutdown := by simp
    rw [hk]
    exact h.mem_users_after k id user
  | _ =>
    rw [(indices_operate b _ fun _ => Operation.noConfusion).1]
    simp [errands, leavers, Gains]

/-! ### Who comes onto the board and who stays -/

/-- Every other call leaves a name registered as it is, or undoes the registration. -/
theorem registered_after_cases (hk : ¬ k.Enters) (id : ConnectionId) :
    (b.after k).registered[id]? = b.registered[id]? ∧ k ≠ .shutdown ∧
        (∀ l, (id, l) ∉ b.dropped k) ∨
      (b.after k).registered[id]? = none ∧ (k = .shutdown ∨ ∃ l, (id, l) ∈ b.dropped k) := by
  -- a call that leaves all names registered as they are
  have hsame : ∀ {k : Call}, (b.after k).registered = b.registered → k ≠ .shutdown →
      b.dropped k = [] →
      (b.after k).registered[id]? = b.registered[id]? ∧ k ≠ .shutdown ∧
        ∀ l, (id, l) ∉ b.dropped k :=
    fun he hs hd => ⟨by rw [he], hs, fun l => by rw [hd]; exact List.not_mem_nil⟩
  cases k with
  | enter => exact absurd trivial hk
  | unregister id' =>
    show (b.unregister id').2.registered[id]? = _ ∧ _ ∨ (b.unregister id').2.registered[id]? = _ ∧ _
    rw [registered_unregister, Std.ExtTreeMap.getElem?_erase]
    by_cases e : id = id'
    · subst e
      rcases hl : b.registered[id]? with - | l
      · exact .inl ⟨by simp, Call.noConfusion, fun l hd => by
          cases hl.symm.trans (registered_of_mem_dropped hd)⟩
      · exact .inr ⟨if_pos (by simp), .inr ⟨l, mem_dropped_unregister.2 ⟨rfl, hl⟩⟩⟩
    · exact .inl ⟨if_neg (by simpa using Ne.symm e), Call.noConfusion,
        fun l hd => e (mem_dropped_unregister.1 hd).1⟩
  | identify id' who =>
    exact .inl (hsame (registered_orKeep fun _ hb => (FrameEffect.identify id' who hb).registered)
      Call.noConfusion rfl)
  | subscribe id' channel =>
    exact .inl (hsame
      (registered_orKeep fun _ hb => (FrameEffect.subscribe id' channel hb).registered)
      Call.noConfusion rfl)
  | unsubscribe id' channel =>
    exact .inl (hsame
      (registered_orKeep fun _ hb => (FrameEffect.unsubscribe id' channel hb).registered)
      Call.noConfusion rfl)
  | sweep now =>
    have hreg : (b.after (.sweep now)).registered[id]? =
        if id ∈ (b.stale now).map Prod.fst then none else b.registered[id]? :=
      registered_removeAll _ b id
    by_cases hm : id ∈ (b.stale now).map Prod.fst
    · obtain ⟨⟨_, l⟩, hr, rfl⟩ := List.mem_map.1 hm
      exact .inr ⟨hreg.trans (if_pos hm), .inr ⟨l, hr⟩⟩
    · exact .inl ⟨hreg.trans (if_neg hm), Call.noConfusion,
        fun l hd => hm (List.mem_map.2 ⟨_, hd, rfl⟩)⟩
  | shutdown =>
    exact .inr ⟨(disbanded_shutdown b).getElem?_registered id, .inl rfl⟩
  | broadcast m | toChannel channel m | toUser user m =>
    exact .inl (hsame (alike_offerAll m _ b).registered Call.noConfusion rfl)
  | send l' m => exact .inl (hsame (alike_orKeep_send b l' m).registered Call.noConfusion rfl)
  | close l' | touch l' now | receive l' | forsake l' =>
    exact .inl (hsame rfl Call.noConfusion rfl)
  | frame check now draw l' content =>
    exact .inl (hsame (registered_handleFrame b check now draw l' content) Call.noConfusion rfl)

theorem registered_after_of_mem_dropped (hd : (id, l) ∈ b.dropped k) :
    (b.after k).registered[id]? = none := by
  have hk : ¬ k.Enters := by
    intro hk
    cases k with
    | enter => cases hd
    | _ => exact hk
  rcases registered_after_cases hk id with ⟨-, -, hno⟩ | ⟨hn, -⟩
  · exact absurd hd (hno l)
  · exact hn

/-- Whoever is registered is so after a registration of somebody who has no rival. -/
theorem registered_insert (hl : b.registered[id]? = some l) {id' : ConnectionId} {l' : LineNumber}
    (hr : b.registered[id']? = none ∨ b.registered[id']? = some l') :
    (b.registered.insert id' l')[id]? = some l := by
  rw [Std.ExtTreeMap.getElem?_insert]
  split
  · -- the name has led to the same connection
    rename_i hid
    rw [Std.LawfulEqCmp.compare_eq_iff_eq] at hid
    subst hid
    rcases hr with hn | hl'
    · cases hn.symm.trans hl
    · exact hl'.symm.trans hl
  · exact hl

/-- **Who stays on the board**: whoever was on it, unless the end begins or it is taken off. -/
theorem registered_operate (hl : b.registered[id]? = some l) (ho : o.Unrivalled b) :
    (b.operate o).registered[id]? = some l ∧ o ≠ .call .shutdown ∧ (id, l) ∉ b.leavers o ∨
      (b.operate o).registered[id]? = none ∧ (o = .call .shutdown ∨ (id, l) ∈ b.leavers o) := by
  cases o with
  | call k =>
    by_cases hk : k.Enters
    · cases k with
      | enter id' capacity now =>
        refine .inl ⟨?_, by simp, List.not_mem_nil⟩
        show (b.enter id' capacity now).registered[id]? = _
        rcases registered_enter_cases b id' capacity now with e | e
        · rw [e, hl]
        · rw [e]
          exact registered_insert hl (.inl ho)
      | _ => exact hk.elim
    · have hc : (Operation.call k = .call .shutdown) ↔ k = .shutdown := by simp
      rw [ne_eq, hc]
      rcases registered_after_cases hk id with ⟨he, hs, hno⟩ | ⟨hn, hs | ⟨l', hd⟩⟩
      · exact .inl ⟨he.trans hl, hs, hno l⟩
      · exact .inr ⟨hn, .inl hs⟩
      · cases hl.symm.trans (registered_of_mem_dropped hd)
        exact .inr ⟨hn, .inr hd⟩
  | make id' capacity now =>
    refine .inl ⟨?_, Operation.noConfusion, List.not_mem_nil⟩
    rcases e : b.open? id' capacity now with - | ⟨l', b'⟩
    · simpa [operate, e] using hl
    · simpa [operate, e, (line_open? e).1] using hl
  | register l' =>
    refine .inl ⟨?_, Operation.noConfusion, List.not_mem_nil⟩
    show (b.register l').2.registered[id]? = _
    rcases hc' : b.lines[l']? with - | c'
    · simp [register, hc', hl]
    · rcases register_cases hc' with ⟨-, e⟩ | ⟨-, e⟩
      · rw [e]
        exact hl
      · rw [e]
        exact registered_insert hl (ho c' hc')
  | act l' a => exact .inl ⟨hl, Operation.noConfusion, List.not_mem_nil⟩

/-- **Who comes onto the board**: a connection of that name that is registered, or one that has just
come to be. -/
theorem registered_operate_of_none (hn : b.registered[id]? = none)
    (hl : (b.operate o).registered[id]? = some l) :
    (o = .register l ∧ b.closing = false ∧ ∃ c, b.lines[l]? = some c ∧ c.id = id) ∨
      b.lines[l]? = none := by
  cases o with
  | call k =>
    have hl' : (b.after k).registered[id]? = some l := hl
    by_cases hk : k.Enters
    · cases k with
      | enter id' capacity now =>
        right
        have hl' : (b.enter id' capacity now).registered[id]? = some l := hl
        rcases registered_enter_cases b id' capacity now with e | e
        · rw [e, hn] at hl'
          cases hl'
        · rw [e, Std.ExtTreeMap.getElem?_insert] at hl'
          split at hl'
          · cases hl'
            simp
          · cases hn.symm.trans hl'
      | _ => exact hk.elim
    · rcases registered_after_cases hk id with ⟨he, -⟩ | ⟨he, -⟩
      · cases (he.trans hn).symm.trans hl'
      · cases he.symm.trans hl'
  | make id' capacity now =>
    rcases e : b.open? id' capacity now with - | ⟨l', b'⟩
    · simp [operate, e, hn] at hl
    · simp [operate, e, (line_open? e).1, hn] at hl
  | register l' =>
    have hl' : (b.register l').2.registered[id]? = some l := hl
    rcases hc' : b.lines[l']? with - | c'
    · simp [register, hc', hn] at hl'
    · rcases register_cases hc' with ⟨-, e⟩ | ⟨hopen, e⟩
      · rw [e] at hl'
        cases hn.symm.trans hl'
      · rw [e] at hl'
        simp only [Std.ExtTreeMap.getElem?_insert] at hl'
        split at hl'
        · rename_i hid
          cases hl'
          exact .inl ⟨rfl, hopen, c', hc', Std.LawfulEqCmp.compare_eq_iff_eq.1 hid⟩
        · cases hn.symm.trans hl'
  | act l' a => cases hn.symm.trans hl

end Board

end Switchboard
