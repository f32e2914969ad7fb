import ObjectBus.Proofs.Broker.PeerRecords
import ObjectBus.Proofs.Connection.Handshake

/-!
# The lives of connections

A broker takes the changes of state of its connections in rounds and tells observers of each. The
life of a connection is the connection as it would be if nothing had been taken from its queue: the
queue then begins with what observers were told.

* `Connection.Hosted`, `Connection.ServedWith`: what becomes of a connection by what its host does,
  without and with what its guest sends;
* `Broker.toldOf`: the changes of state of a peer that observers were told;
* `Broker.Serves`: what the steps of a call do to the connection of a peer;
* `Broker.Shows`: what the broker shows of a life, told in part and in part still waiting;
* `Shows.served`, `Shows.drain`: it goes on when a peer is served and through all rounds.
-/

namespace ObjectBus

open Relation (ReflTransGen)

/-- Whether a host makes the call on its own account while it serves a guest. -/
def ConnectionCall.isHosts : ConnectionCall → Bool
  | .send _ => true
  | .close _ => true
  | .rememberImport _ => true
  | .disturb _ => true
  | _ => false

/-- What a guest sent, if the call is about that. -/
def ConnectionCall.heard? : ConnectionCall → Option Transmission
  | .receive t => some t
  | _ => none

/-- The change of state of a peer of which an event tells. -/
def BrokerEvent.change? (peer : PeerId) : BrokerEvent → Option Transition
  | .peerState q _ state cause => if q = peer then some ⟨state, cause⟩ else none
  | _ => none

namespace Connection

variable {c c' c'' : Connection} {now : Instant}

/-- What becomes of a connection by calls that its host makes on its own account. -/
def Hosted (c c' : Connection) : Prop :=
  ∃ calls : List (ConnectionCall × Instant), (∀ x ∈ calls, x.1.isHosts = true) ∧
    c' = c.after calls

namespace Hosted

theorem refl (c : Connection) : c.Hosted c := ⟨[], by simp, rfl⟩

theorem trans (h : c.Hosted c') (h' : c'.Hosted c'') : c.Hosted c'' := by
  obtain ⟨calls, hhosts, rfl⟩ := h
  obtain ⟨calls', hhosts', rfl⟩ := h'
  refine ⟨calls ++ calls', fun x hx => ?_, (after_append c calls calls').symm⟩
  exact (List.mem_append.1 hx).elim (hhosts x) (hhosts' x)

theorem perform (c : Connection) (call : ConnectionCall) (hcall : call.isHosts = true)
    (now : Instant) : c.Hosted (c.perform call now) :=
  ⟨[(call, now)], by simpa using hcall, rfl⟩

theorem foldl_send (ts : List Transmission) (c : Connection) :
    c.Hosted (ts.foldl (fun c t => (c.send t).value) c) := by
  induction ts generalizing c with
  | nil => exact .refl c
  -- A transmission carries its own time, so that of the call makes no difference.
  | cons t rest ih => exact (perform c (.send t) rfl default).trans (ih _)

/-- What sending and closing keep, and what can be done to a connection besides keeps as well, holds
of whatever a host makes of a connection. -/
theorem induction {I : Connection → Prop} (hsend : ∀ c t, I c → I (c.send t).value)
    (hclose : ∀ c cause, I c → I (c.close cause).value)
    (himport : ∀ c typeName, I c → I (c.rememberImport typeName))
    (hdisturb : ∀ c refusal, I c → I (c.disturbed refusal)) (hc : I c) (h : c.Hosted c') :
    I c' := by
  obtain ⟨calls, hhosts, rfl⟩ := h
  induction calls generalizing c with
  | nil => exact hc
  | cons call rest ih =>
    obtain ⟨hcall, hrest⟩ := List.forall_mem_cons.1 hhosts
    have hfirst : I (c.perform call.1 call.2) := by
      cases hcall' : call.1 with
      | send t => exact hsend c t hc
      | close cause => exact hclose c cause hc
      | rememberImport typeName => exact himport c typeName hc
      | disturb refusal => exact hdisturb c refusal hc
      | beginHandshake | receive | suspend | resume | fail | transportFailed =>
        rw [hcall'] at hcall
        cases hcall
    exact ih hfirst hrest

/-- What waited in front of the queue makes no difference. -/
theorem remembering (h : c.Hosted c') (taken : List Transition) :
    (c.remembering taken).Hosted (c'.remembering taken) := by
  obtain ⟨calls, hhosts, rfl⟩ := h
  exact ⟨calls, hhosts, (after_remembering c taken calls).symm⟩

theorem orderly (h : c.Hosted c') (hc : c.Orderly) : c'.Orderly := by
  obtain ⟨calls, -, rfl⟩ := h
  exact hc.after calls

end Hosted

/-- What becomes of a connection by what its guest sent, in that order, and by calls that its host
makes on its own account before, after and in between. -/
def ServedWith (c : Connection) (heard : List (Transmission × Instant)) (c' : Connection) : Prop :=
  ∃ calls : List (ConnectionCall × Instant),
    (∀ x ∈ calls, x.1.isHosts = true ∨ ∃ t, x.1 = .receive t) ∧
      calls.filterMap (fun x => x.1.heard?.map (·, x.2)) = heard ∧ c' = c.after calls

namespace ServedWith

variable {heard heard' : List (Transmission × Instant)}

theorem trans (h : c.ServedWith heard c') (h' : c'.ServedWith heard' c'') :
    c.ServedWith (heard ++ heard') c'' := by
  obtain ⟨calls, hcalls, rfl, rfl⟩ := h
  obtain ⟨calls', hcalls', rfl, rfl⟩ := h'
  refine ⟨calls ++ calls', fun x hx => ?_, List.filterMap_append,
    (after_append c calls calls').symm⟩
  exact (List.mem_append.1 hx).elim (hcalls x) (hcalls' x)

theorem of_hosted (h : c.Hosted c') : c.ServedWith [] c' := by
  obtain ⟨calls, hhosts, rfl⟩ := h
  refine ⟨calls, fun x hx => .inl (hhosts x hx), List.filterMap_eq_nil_iff.2 fun x hx => ?_, rfl⟩
  have hcall := hhosts x hx
  cases hx' : x.1 with
  | receive t =>
    rw [hx'] at hcall
    cases hcall
  | beginHandshake | send | suspend | resume | fail | close | transportFailed | rememberImport |
    disturb => rfl

theorem receive (c : Connection) (t : Transmission) (now : Instant) :
    c.ServedWith [(t, now)] (c.perform (.receive t) now) :=
  ⟨[(.receive t, now)], by simp, rfl, rfl⟩

theorem orderly (h : c.ServedWith heard c') (hc : c.Orderly) : c'.Orderly := by
  obtain ⟨calls, -, -, rfl⟩ := h
  exact hc.after calls

end ServedWith

theorem Acts.hosted (h : c.Acts now c') : c.Hosted c' := by
  cases h with
  | tell messages => exact .foldl_send _ c
  | close cause => exact .perform c (.close cause) rfl now
  | rememberImport typeName => exact .perform c (.rememberImport typeName) rfl now
  | disturb refusal => exact .perform c (.disturb refusal) rfl now

/-- An object changes nothing about any connection, in whatever state it is. -/
theorem receive_fst_of_object {t : Transmission} {o : Object} (hpayload : t.payload = .object o)
    (c : Connection) : (c.receive t now).value.1 = c := by
  unfold receive
  rw [hpayload]
  split <;> rfl

/-- A request for control work changes nothing about any connection, in whatever state it is. -/
theorem receive_fst_of_request {t : Transmission} {request : ControlRequest}
    (hpayload : t.payload = .control request.message) (c : Connection) :
    (c.receive t now).value.1 = c := by
  have hmessage : ∀ h, (c.receiveMessage h request.message now).value.1 = c := by
    intro h
    unfold receiveMessage
    cases request <;> split <;> rfl
  unfold receive
  rw [hpayload]
  split
  · rfl
  · simp only
    split
    · cases request <;> exact hmessage _
    · rfl

end Connection

namespace Broker

variable {call : BrokerCall} {now : Instant} {b b' b'' : Broker} {peer sender : PeerId}
variable {c : Connection} {taken : List (PeerId × Transition)} {life life' : Option Connection}

/-! ## What observers are told -/

/-- The changes of state of a peer that observers were told, in order. -/
def toldOf (b : Broker) (peer : PeerId) : List Transition := b.events.filterMap (·.change? peer)

theorem toldOf_emit (b : Broker) (e : BrokerEvent) (peer : PeerId) :
    (b.emit e).toldOf peer = b.toldOf peer ++ (e.change? peer).toList := by
  unfold toldOf emit
  rw [List.filterMap_append]
  cases h : e.change? peer <;> simp [h]

/-- Accepting an object tells nothing of any connection. -/
@[simp]
theorem toldOf_dispatch (b : Broker) (schema : StructSchema) (h : Header) (o : Object)
    (now : Instant) (peer : PeerId) :
    (b.dispatch schema h o now).value.1.toldOf peer = b.toldOf peer := by
  have hobject : (b.eventsOf schema h o now).filterMap (·.change? peer) = [] := by
    unfold eventsOf
    split <;> rfl
  unfold toldOf
  rw [events_dispatch, List.filterMap_append, hobject, List.append_nil]

@[simp]
theorem toldOf_publishAsHost (b : Broker) (o : Object) (included : Option PropertySet)
    (remove : Bool) (now : Instant) (peer : PeerId) :
    (b.publishAsHost o included remove now).value.1.toldOf peer = b.toldOf peer := by
  rcases b.publishAsHost_cases o now included remove with ⟨schema, -, -, heq⟩ | heq
  · rw [heq, toldOf_dispatch]
  · rw [heq]

theorem toldOf_foldl {α : Type} {f : Broker → α → Broker}
    (hf : ∀ b a, (f b a).toldOf peer = b.toldOf peer) (l : List α) (b : Broker) :
    (l.foldl f b).toldOf peer = b.toldOf peer := by
  induction l generalizing b with
  | nil => rfl
  | cons a rest ih => rw [List.foldl_cons, ih, hf]

@[simp]
theorem toldOf_retract (b : Broker) (objects : List Object) (keys : PropertySet)
    (failure : String) (fields : List (String × NoteValue)) (now : Instant) (peer : PeerId) :
    (b.retract objects keys failure fields now).value.toldOf peer = b.toldOf peer := by
  rw [value_retract]
  exact toldOf_foldl (fun b o => toldOf_publishAsHost b o _ _ now peer) _ _

@[simp]
theorem toldOf_setAside (b : Broker) (q peer : PeerId) :
    (b.setAside q).toldOf peer = b.toldOf peer := by
  rw [toldOf, events_setAside, toldOf]

@[simp]
theorem toldOf_onClosed (b : Broker) (q : PeerId) (now : Instant) (peer : PeerId) :
    (b.onClosed q now).value.toldOf peer = b.toldOf peer := by
  unfold onClosed
  rw [Noted.value_foldlM, toldOf_foldl (fun b typeName => ?_), toldOf_setAside]
  unfold cleanUpType
  split
  · rfl
  · simp only
    split
    · rfl
    · exact toldOf_retract _ _ _ _ _ _ _

/-- Processing a change of state tells of it, and of nothing else. -/
theorem toldOf_onTransition (b : Broker) (q : PeerId) (t : Transition) (now : Instant)
    (peer : PeerId) : (b.onTransition q t now).value.toldOf peer =
      b.toldOf peer ++ if q = peer then [t] else [] := by
  have hleft : (b.leftBy q t now).toldOf peer = b.toldOf peer := by
    unfold leftBy
    split
    · exact toldOf_onClosed b q now peer
    · rfl
  rw [value_onTransition, toldOf_publishAsHost, toldOf_emit, hleft, BrokerEvent.change?]
  split <;> rfl

@[simp]
theorem toldOf_report (b : Broker) (q : PeerId) (e : BrokerError) (now : Instant)
    (peer : PeerId) : (b.report q e now).value.toldOf peer = b.toldOf peer := by
  unfold report
  split
  · rfl
  · split <;> rfl

theorem toldOf_settle (r : Broker × Outcome Unit) (q : PeerId) (now : Instant) (peer : PeerId) :
    (settle q now r).value.toldOf peer = r.1.toldOf peer := by
  unfold settle
  split
  · rfl
  · exact toldOf_report _ _ _ _ _

theorem toldOf_acceptObject (b : Broker) (h : Header) (o : Object) (now : Instant)
    (peer : PeerId) : (b.acceptObject h o now).value.1.toldOf peer = b.toldOf peer := by
  unfold acceptObject
  split
  · rfl
  · split
    · rfl
    · split
      · rfl
      · exact toldOf_dispatch _ _ _ _ _ _

theorem toldOf_changeMembership (b : Broker) (q : PeerId) (group : String) (event : MemberEvent)
    (now : Instant) (peer : PeerId) :
    (b.changeMembership q group event now).value.1.toldOf peer = b.toldOf peer := by
  unfold changeMembership
  split
  · simp only [Noted.value_bind]
    split
    · split
      · unfold replayTo
        simp only
        split <;> rfl
      · rfl
    · rfl
  · rfl
  · rfl

theorem toldOf_discover (b : Broker) (q : PeerId) (whitelist blacklist : List String)
    (now : Instant) (peer : PeerId) :
    (b.discover q whitelist blacklist now).value.1.toldOf peer = b.toldOf peer := by
  unfold discover
  split <;> rfl

theorem toldOf_clearType (b : Broker) (typeName : String) (now : Instant) (peer : PeerId) :
    (b.clearType typeName now).value.toldOf peer = b.toldOf peer := by
  unfold clearType
  split
  · rfl
  · exact toldOf_retract _ _ _ _ _ _ _

theorem toldOf_onNewType (b : Broker) (schema : StructSchema) (now : Instant) (peer : PeerId) :
    (b.onNewType schema now).value.toldOf peer = b.toldOf peer := by
  unfold onNewType
  simp only [Noted.value_bind, value_publishOrNote, toldOf_publishAsHost, toldOf_emit]
  exact List.append_nil _

/-! ## What happens to one connection -/

/-- Between two states the connection of a peer stays in its table, and only its host does
something with it. -/
structure Serves (peer : PeerId) (b b' : Broker) : Prop where
  /-- The connection, if it is open. -/
  connection : Option.Rel Connection.Hosted (b.connections.find? peer)
    (b'.connections.find? peer)
  /-- If it has closed it stays as it is. -/
  closed : b'.closed.find? peer = b.closed.find? peer
  /-- If it is forgotten its channel stays as it is. -/
  released : b'.released.find? peer = b.released.find? peer

namespace Serves

theorem of_eq (hconnections : b'.connections.find? peer = b.connections.find? peer)
    (hclosed : b'.closed.find? peer = b.closed.find? peer)
    (hreleased : b'.released.find? peer = b.released.find? peer) : Serves peer b b' where
  connection := hconnections ▸ rel_refl .refl _
  closed := hclosed
  released := hreleased

theorem refl (peer : PeerId) (b : Broker) : Serves peer b b := .of_eq rfl rfl rfl

theorem trans (h : Serves peer b b') (h' : Serves peer b' b'') : Serves peer b b'' where
  connection := rel_trans Connection.Hosted.trans h.connection h'.connection
  closed := h'.closed.trans h.closed
  released := h'.released.trans h.released

theorem find?_eq_none_iff (h : Serves peer b b') :
    b'.connections.find? peer = none ↔ b.connections.find? peer = none :=
  eq_none_iff_of_rel h.connection

theorem assigned_iff (h : Serves peer b b') : b'.Assigned peer ↔ b.Assigned peer := by
  rw [Broker.assigned_iff, Broker.assigned_iff, h.closed, h.released, ne_eq, ne_eq,
    h.find?_eq_none_iff]

/-- Serving a peer that is not in the table leaves its channel as it was. -/
theorem channel?_of_gone (h : Serves peer b b') (hc : b.connections.find? peer = none) :
    b'.channel? peer = b.channel? peer := by
  rw [Broker.channel?_of_gone hc, Broker.channel?_of_gone (h.find?_eq_none_iff.2 hc), h.closed,
    h.released]

end Serves

/-- Steps of a call serve a peer, unless they rearrange the tables or its guest sent something that
is more than handed on. -/
theorem Steps.serves (h : Steps call now b b') (hcall : call.rearranges = false)
    (hhear : ∀ t, call = .receive peer t → ∀ c : Connection, (c.receive t now).value.1 = c) :
    Serves peer b b' := by
  -- A step that hears the guest of this peer leaves its connection as it was.
  have hkept : ∀ t (c : Connection), call = .receive peer t → c.Hosted (c.receive t now).value.1 :=
    fun t c heq => (hhear t heq c).symm ▸ .refl c
  induction h with
  | refl => exact .refl peer b
  | tail _ h ih =>
    refine ih.trans ⟨?_, ?_, ?_⟩
    · rcases h.connection_of Connection.Hosted.foldl_send (fun _ _ hact => hact.hosted) hkept with
        ⟨channel, rfl, -⟩ | hrel
      · cases hcall
      · exact hrel
    · rcases h.tables with ⟨hclosed, -⟩ | ⟨rfl | rfl, -⟩
      · rw [hclosed]
      · cases hcall
      · cases hcall
    · rcases h.tables with ⟨-, hreleased⟩ | ⟨rfl | rfl, -⟩
      · rw [hreleased]
      · cases hcall
      · cases hcall

/-- Steps that can belong to any call serve every peer. -/
theorem serves_of_steps (h : Steps (.clearCache []) now b b') (peer : PeerId) :
    Serves peer b b' :=
  h.serves rfl fun t heq => by cases heq

/-- Putting a connection in its place concerns no other peer. -/
theorem serves_putConnection (b : Broker) (c : Connection) (hne : peer ≠ sender) :
    Serves peer b (b.putConnection sender c) :=
  .of_eq (by rw [find?_putConnection, if_neg hne]) rfl rfl

/-- The leaving of a connection concerns no other peer. -/
theorem serves_setAside (b : Broker) (hne : peer ≠ sender) :
    Serves peer b (b.setAside sender) := by
  refine .of_eq (by rw [find?_setAside, if_neg hne]) (carries_setAside b hne).closed ?_
  obtain ⟨connections, closed, heq⟩ := b.setAside_eq sender
  rw [heq]

/-! ## The life of a connection -/

/-- What the broker shows of the life of a peer's connection, if the peer has one: the connection as
it would be if nothing had been taken from its queue. What is missing from the queue was told, in
that order, or was taken and waits to be told. -/
inductive Shows (peer : PeerId) (taken : List (PeerId × Transition)) (b : Broker) :
    Option Connection → Prop
  /-- The number is not assigned, and nothing was told of it. -/
  | unknown (hassigned : ¬b.Assigned peer) (htaken : takenOf peer taken = [])
      (htold : b.toldOf peer = []) : Shows peer taken b none
  /-- The connection is in the table. -/
  | present {c : Connection} (hc : b.connections.find? peer = some c) :
      Shows peer taken b (some (c.remembering (b.toldOf peer ++ takenOf peer taken)))
  /-- The connection has closed, and a sweep may have forgotten all but its channel. -/
  | gone {c : Connection} (hc : b.connections.find? peer = none) (hclosed : c.isClosed = true)
      (hqueue : c.transitions = []) (htaken : takenOf peer taken = [])
      (hkept : b.closed.find? peer = some c ∨
        b.closed.find? peer = none ∧ b.released.find? peer = some c.channel) :
      Shows peer taken b (some (c.remembering (b.toldOf peer)))

/-- The life of a connection goes on by what the host does with it. -/
def GoesOn (life life' : Option Connection) : Prop :=
  Option.Rel Connection.Hosted life life'

/-- Every connection has an orderly life. -/
def OrderlyLife (life : Option Connection) : Prop := ∀ w ∈ life, w.Orderly

theorem GoesOn.orderly (h : GoesOn life life') (hlife : OrderlyLife life) :
    OrderlyLife life' := by
  intro w' hw'
  obtain ⟨w, hw, hhosted⟩ := exists_before_of_rel h hw'
  exact hhosted.orderly (hlife w hw)

namespace Shows

/-- Serving a peer without telling of it. -/
theorem served (h : Shows peer taken b life) (hserves : Serves peer b b')
    (htold : b'.toldOf peer = b.toldOf peer) :
    ∃ life', GoesOn life life' ∧ Shows peer taken b' life' := by
  cases h with
  | unknown hassigned htaken hnothing =>
    exact ⟨none, .none, .unknown (fun h => hassigned (hserves.assigned_iff.1 h)) htaken
      (htold.trans hnothing)⟩
  | present hc =>
    obtain ⟨c', hc', hhosted⟩ := exists_after_of_rel hserves.connection hc
    rw [← htold]
    exact ⟨_, .some (hhosted.remembering _), .present hc'⟩
  | gone hc hclosed hqueue htaken hkept =>
    rw [← htold]
    refine ⟨_, .some (.refl _), .gone (hserves.find?_eq_none_iff.2 hc) hclosed hqueue htaken ?_⟩
    rw [hserves.closed, hserves.released]
    exact hkept

/-- Processing the first change of state that was taken, of whichever peer. -/
theorem onTransition {t : Transition} (h : Shows peer ((sender, t) :: taken) b life)
    (hlife : OrderlyLife life) (now : Instant) :
    ∃ life', GoesOn life life' ∧ Shows peer taken (b.onTransition sender t now).value life' := by
  have htold := b.toldOf_onTransition sender t now peer
  have hserves : Serves peer (if t.closes then b.setAside sender else b)
      (b.onTransition sender t now).value :=
    serves_of_steps (steps_departed (.clearCache []) b sender t now) peer
  by_cases hsender : sender = peer
  · subst hsender
    rw [if_pos rfl] at htold
    -- A change that waits is one of a connection in the table, where it is the next to be told.
    cases h with
    | unknown hassigned htaken hnothing => simp [takenOf_cons] at htaken
    | gone hc hclosed hqueue htaken hkept => simp [takenOf_cons] at htaken
    | @present c hc =>
      have hsplit : takenOf sender ((sender, t) :: taken) = t :: takenOf sender taken := by
        rw [takenOf_cons, if_pos rfl]
      rw [hsplit] at hlife ⊢
      have hqueue : (c.remembering (b.toldOf sender ++ t :: takenOf sender taken)).transitions =
          b.toldOf sender ++ t :: (takenOf sender taken ++ c.transitions) := by
        simp [Connection.remembering]
      have horderly := hlife _ rfl
      by_cases hcloses : t.closes = true
      · -- Nothing follows the closing, which was therefore the last change that waited.
        have hstate : t.state = .closed := by simpa [Transition.closes] using hcloses
        have hrest := horderly.nil_of_closes hqueue hstate
        obtain ⟨htaken, hnone⟩ := List.append_eq_nil_iff.1 hrest
        have hclosed : c.isClosed = true := by
          have hlast := horderly.last
          rw [hqueue, hrest, List.getLast?_concat, Option.map_some, hstate] at hlast
          rw [Connection.isClosed_eq_true_iff]
          exact (Option.some.inj hlast).symm
        rw [if_pos hcloses] at hserves
        have hgone := hserves.find?_eq_none_iff.2 (by simp)
        have hkept := hserves.closed.trans (closed_setAside hc)
        rw [htaken, ← htold]
        exact ⟨_, .some (.refl _), .gone hgone hclosed hnone htaken (.inl hkept)⟩
      · -- What was told grows by the change, and what waits shrinks by it.
        rw [if_neg hcloses] at hserves
        obtain ⟨c', hc', hhosted⟩ := exists_after_of_rel hserves.connection hc
        rw [List.append_cons, ← htold]
        exact ⟨_, .some (hhosted.remembering _), .present hc'⟩
  · -- The change of another peer is not told of this one, whose connection stays in its table.
    rw [if_neg hsender, List.append_nil] at htold
    have hstays : Serves peer b (if t.closes then b.setAside sender else b) := by
      split
      · exact serves_setAside b (Ne.symm hsender)
      · exact .refl peer b
    have hrest : Shows peer taken b life := by
      have hsame : takenOf peer ((sender, t) :: taken) = takenOf peer taken := by
        rw [takenOf_cons, if_neg hsender]
      cases h with
      | unknown hassigned htaken hnothing => exact .unknown hassigned (hsame ▸ htaken) hnothing
      | present hc =>
        rw [hsame]
        exact .present hc
      | gone hc hclosed hqueue htaken hkept =>
        exact .gone hc hclosed hqueue (hsame ▸ htaken) hkept
    exact hrest.served (hstays.trans hserves) htold

/-- Taking what waits in the queues. -/
theorem takePending (h : Shows peer [] b life) : Shows peer b.pending b.takePending life := by
  have hpending := takenOf_pending b peer
  have htable := b.find?_takePending peer
  cases h with
  | unknown hassigned _ hnothing =>
    have hnone : b.connections.find? peer = none := by
      by_contra hsome
      exact hassigned (assigned_iff.2 (.inl hsome))
    rw [hnone] at hpending
    exact .unknown (fun h => hassigned (assigned_takePending.1 h)) hpending hnothing
  | @present c hc =>
    rw [hc] at hpending htable
    -- What was in the queue waits now, so that the life is the same.
    have hsame : c.remembering (b.toldOf peer ++ takenOf peer []) =
        c.drained.remembering (b.takePending.toldOf peer ++ takenOf peer b.pending) := by
      rw [hpending]
      simp [Connection.remembering, Connection.drained, takenOf, toldOf, Broker.takePending]
    rw [hsame]
    exact .present htable
  | gone hc hclosed hqueue _ hkept =>
    rw [hc] at hpending htable
    exact .gone htable hclosed hqueue hpending hkept

/-- Processing all changes of state that wait. -/
theorem drain (h : Shows peer [] b life) (hlife : OrderlyLife life) (now : Instant) :
    ∃ life', GoesOn life life' ∧ Shows peer [] (b.drain now).value life' := by
  refine drain_induction (I := fun taken s => ∃ life', GoesOn life life' ∧ Shows peer taken s life')
    ?_ ?_ ⟨life, rel_refl .refl life, h⟩
  · rintro s ⟨life', hgoes, hshows⟩
    exact ⟨life', hgoes, hshows.takePending⟩
  · rintro s ⟨q, t⟩ taken ⟨life', hgoes, hshows⟩
    obtain ⟨life'', hmore, hshows'⟩ := hshows.onTransition (hgoes.orderly hlife) now
    exact ⟨life'', rel_trans Connection.Hosted.trans hgoes hmore, hshows'⟩

/-- Forgetting the closed connections keeps their channels. -/
theorem forgetClosed (h : Shows peer [] b life) : Shows peer [] b.forgetClosed life := by
  cases h with
  | unknown hassigned htaken hnothing =>
    exact .unknown (fun h => hassigned (assigned_forgetClosed.1 h)) htaken hnothing
  | present hc => exact .present (b := b.forgetClosed) hc
  | @gone c hc hclosed hqueue htaken hkept =>
    have hreleased :=
      SortedMap.find?_foldl_insert_toList b.closed Connection.channel b.released peer
    -- No closed connection is left, and the released channels have grown by theirs.
    refine .gone (b := b.forgetClosed) hc hclosed hqueue htaken (.inr ⟨rfl, ?_⟩)
    refine hreleased.trans ?_
    rcases hkept with hkept | ⟨hnone, hkept⟩
    · simp [hkept]
    · simp [hnone, hkept]

end Shows

end Broker

end ObjectBus
