import ObjectBus.Proofs.Broker.Evolution

/-!
# The states of a connection

A connection that has begun its handshake goes through its states in the order of the protocol,
whatever its guest sends, whatever is sent to it and however its channel fails. It queues every
change of state, so the queue of a connection from which nothing is taken is its whole history.

* `ConnectionCall`, `Connection.after`: what can be done with a connection, in any order;
* `ConnectionState.successors`: the states that may follow a state;
* `Connection.Orderly`: what the queue says of such a connection;
* `Connection.orderly_begun`, `Connection.Orderly.after`: the handshake makes a connection
  orderly, and it stays so;
* `Connection.remembering`: what was taken from the queue before makes no difference.
-/

namespace ObjectBus

open Relation (ReflTransGen)

/-- One call on a connection. -/
inductive ConnectionCall where
  /-- Begin the handshake. -/
  | beginHandshake (hostName : String)
  /-- Process what the guest sent. -/
  | receive (t : Transmission)
  /-- Send a transmission, be it an object or a control message. -/
  | send (t : Transmission)
  /-- Pause delivery. -/
  | suspend
  /-- Go on with delivery. -/
  | resume
  /-- Close because processing failed. -/
  | fail (error : BrokerError)
  /-- Close. -/
  | close (cause : Option String)
  /-- The transport failed. -/
  | transportFailed (error : TransportError)
  /-- Remember that a type which the guest announced is registered. -/
  | rememberImport (typeName : String)
  /-- From now on the channel fails in another way. -/
  | disturb (refusal : List ChannelAction → Transmission → Option TransportError)

/-- The states that may follow a state. -/
def ConnectionState.successors : ConnectionState → List ConnectionState
  | connecting => [earlySubscribe, connected, closed]
  | earlySubscribe => [connected, closed]
  | connected => [suspended, closed]
  | suspended => [connected, closed]
  | closed => []

namespace Connection

variable {c c' : Connection} {now : Instant}

/-- The connection after a call. -/
def perform (c : Connection) (call : ConnectionCall) (now : Instant) : Connection :=
  match call with
  | .beginHandshake hostName => (c.beginHandshake hostName now).value.1
  | .receive t => (c.receive t now).value.1
  | .send t => (c.send t).value
  | .suspend => c.suspend.value.1
  | .resume => c.resume.value.1
  | .fail error => (c.fail error).value
  | .close cause => (c.close cause).value
  | .transportFailed error => (c.transportFailed error).value
  | .rememberImport typeName => c.rememberImport typeName
  | .disturb refusal => c.disturbed refusal

/-- The connection after some calls, each at its own time. -/
def after (c : Connection) (calls : List (ConnectionCall × Instant)) : Connection :=
  calls.foldl (fun c call => c.perform call.1 call.2) c

theorem after_append (c : Connection) (calls calls' : List (ConnectionCall × Instant)) :
    c.after (calls ++ calls') = (c.after calls).after calls' :=
  List.foldl_append

/-- A connection over a new channel that has begun its handshake. -/
def begun (peer : PeerId) (channel : Channel) (hostName : String) (now : Instant) : Connection :=
  (ofChannel peer channel).perform (.beginHandshake hostName) now

/-! ## One change of state -/

/-- One stride of a connection: it enters no state, or one that may follow its present state. -/
inductive Stride (c c' : Connection) : Prop
  /-- Neither the state nor the queue changes. -/
  | stay (hstarted : c'.started = c.started) (hstate : c'.state = c.state)
      (hqueue : c'.transitions = c.transitions)
  /-- The connection enters a state and queues that; only a closing has a cause. -/
  | enter (t : Transition) (hstarted : c'.started = c.started) (hstate : c'.state = t.state)
      (hqueue : c'.transitions = c.transitions ++ [t])
      (hfollows : t.state ∈ c.state.successors) (hcause : t.cause ≠ none → t.state = .closed)

/-- Any number of strides. -/
abbrev Strides : Connection → Connection → Prop := ReflTransGen Stride

theorem Strides.stay (hstarted : c'.started = c.started) (hstate : c'.state = c.state)
    (hqueue : c'.transitions = c.transitions) : c.Strides c' :=
  .single (.stay hstarted hstate hqueue)

/-- Every state but the last may be followed by it. -/
theorem closed_mem_successors {state : ConnectionState} (h : state ≠ .closed) :
    .closed ∈ state.successors := by
  cases state with
  | closed => exact absurd rfl h
  | connecting | earlySubscribe | connected | suspended => simp [ConnectionState.successors]

theorem strides_setState {state : ConnectionState}
    (hfollows : c.isClosed = false → state ∈ c.state.successors) :
    c.Strides (c.setState state none).value := by
  by_cases hclosed : c.isClosed = true
  · unfold setState
    rw [if_pos hclosed]
    exact .refl
  · have hopen : c.isClosed = false := by simpa using hclosed
    rw [value_setState_of_open hopen]
    exact .single (.enter ⟨state, none⟩ rfl rfl rfl (hfollows hopen) fun h => absurd rfl h)

theorem strides_close (c : Connection) (cause : Option String) :
    c.Strides (c.close cause).value := by
  by_cases hclosed : c.isClosed = true
  · unfold close
    rw [if_pos hclosed]
    exact .refl
  · have hopen : c.isClosed = false := by simpa using hclosed
    rw [value_close_of_open hopen]
    exact .single (.enter ⟨.closed, cause⟩ rfl rfl rfl
      (closed_mem_successors (isClosed_eq_false_iff.1 hopen)) fun _ => rfl)

theorem strides_transportFailed (c : Connection) (error : TransportError) :
    c.Strides (c.transportFailed error).value := by
  rw [value_transportFailed]
  exact strides_close c _

/-- Sending closes the connection if its channel refuses. -/
theorem strides_send (c : Connection) (t : Transmission) : c.Strides (c.send t).value := by
  rcases c.send_cases t with ⟨hsame, -⟩ | ⟨-, ⟨channel, heq, -⟩ | ⟨channel, error, heq, -⟩⟩
  · rw [hsame]
  · rw [heq]
    exact .stay rfl rfl rfl
  · have hchannel : c.Strides { c with channel := channel } := .stay rfl rfl rfl
    rw [heq]
    exact hchannel.trans (strides_transportFailed _ _)

/-- A guest that is accepted goes on from the state in which it was greeted, unless the response
could not be sent. -/
theorem strides_acceptConnect (hstate : c.state = .connecting) (name : String) (preload : Bool)
    (now : Instant) : c.Strides (c.acceptConnect name preload now).value := by
  let named : Connection := { c with name := name }
  let response : Transmission :=
    .ofControl (.connectResponse (some c.hostName) (some c.peer) true preload false) now
  have hname : c.Strides named := .stay rfl rfl rfl
  refine (hname.trans (strides_send named response)).trans (strides_setState fun hopen => ?_)
  -- Sending the response left the state as it was, unless it closed the connection.
  have hconnecting : (named.send response).value.state = .connecting := by
    rcases (settles_send named response).state with h | h
    · exact h.trans hstate
    · exact absurd h (isClosed_eq_false_iff.1 hopen)
  rw [hconnecting]
  cases preload <;> simp [ConnectionState.successors]

theorem strides_finishPreload (hstate : c.state = .earlySubscribe) (now : Instant) :
    c.Strides (c.finishPreload now).value := by
  -- The state changes before the acknowledgement is sent, which may close the connection.
  refine .trans (strides_setState fun _ => ?_) (strides_send _ _)
  simp [hstate, ConnectionState.successors]

theorem strides_receiveMessage (c : Connection) (h : Header) (message : ControlMessage)
    (now : Instant) : c.Strides (c.receiveMessage h message now).value.1 := by
  unfold receiveMessage
  split
  · rename_i hstate
    split
    · exact strides_acceptConnect hstate _ _ now
    · exact .refl
  · rename_i hstate
    split
    · exact strides_finishPreload hstate now
    · exact .refl
  · exact .refl
  · exact .refl
  · exact .refl

theorem strides_receive (c : Connection) (t : Transmission) (now : Instant) :
    c.Strides (c.receive t now).value.1 := by
  unfold receive
  split
  · exact .refl
  · simp only
    split
    · exact .refl
    · split
      · split
        · unfold peerReported
          split <;> exact strides_close c _
        · exact strides_receiveMessage c _ _ now
      · exact .refl

theorem strides_suspend (c : Connection) : c.Strides c.suspend.value.1 := by
  unfold suspend
  split
  · rename_i hstate
    exact strides_setState fun _ => by simp [hstate, ConnectionState.successors]
  · exact .refl

theorem strides_resume (c : Connection) : c.Strides c.resume.value.1 := by
  unfold resume
  split
  · rename_i hstate
    exact strides_setState fun _ => by simp [hstate, ConnectionState.successors]
  · exact .refl

theorem strides_rememberImport (c : Connection) (typeName : String) :
    c.Strides (c.rememberImport typeName) := by
  unfold Connection.rememberImport
  split
  · exact .refl
  · exact .stay rfl rfl rfl

/-- The handshake cannot be begun again, and trying to changes nothing. -/
theorem value_beginHandshake_of_started (hstarted : c.started = true) (hostName : String)
    (now : Instant) :
    (c.beginHandshake hostName now).value = (c, .error .handshakeAlreadyStarted) := by
  unfold beginHandshake
  rw [if_pos hstarted]
  rfl

/-- Whatever is done with a connection that has been started, its state follows the protocol. -/
theorem strides_perform (hstarted : c.started = true) (call : ConnectionCall) (now : Instant) :
    c.Strides (c.perform call now) := by
  cases call with
  | beginHandshake hostName =>
    rw [perform, value_beginHandshake_of_started hstarted]
  | receive t => exact strides_receive c t now
  | send t => exact strides_send c t
  | suspend => exact strides_suspend c
  | resume => exact strides_resume c
  | fail error => exact strides_close c _
  | close cause => exact strides_close c cause
  | transportFailed error => exact strides_transportFailed c error
  | rememberImport typeName => exact strides_rememberImport c typeName
  | disturb refusal => exact .stay rfl rfl rfl

/-! ## The whole history -/

/-- The queue of a connection from which nothing was taken: it holds all states of the connection
in the order of the protocol. -/
structure Orderly (c : Connection) : Prop where
  /-- The handshake has begun. -/
  started : c.started = true
  /-- The first state is `connecting`. -/
  first : c.transitions.head? = some ⟨.connecting, none⟩
  /-- Each state may follow the one before. -/
  chain : c.transitions.IsChain fun t t' => t'.state ∈ t.state.successors
  /-- The last change led to the present state. -/
  last : c.transitions.getLast?.map (·.state) = some c.state
  /-- Only a closing has a cause. -/
  cause : ∀ t ∈ c.transitions, t.cause ≠ none → t.state = .closed

namespace Orderly

theorem stride (h : c.Orderly) (hstride : c.Stride c') : c'.Orderly := by
  cases hstride with
  | stay hstarted hstate hqueue =>
    exact ⟨hstarted.trans h.started, hqueue ▸ h.first, hqueue ▸ h.chain,
      by rw [hqueue, hstate, h.last], hqueue ▸ h.cause⟩
  | enter t hstarted hstate hqueue hfollows hcause =>
    refine ⟨hstarted.trans h.started, ?_, ?_, ?_, ?_⟩
    -- There is a first change already, so that the new one is not the first.
    · rw [hqueue, List.head?_append, h.first]
      rfl
    · rw [hqueue, List.isChain_append]
      refine ⟨h.chain, .singleton t, fun last hlast next hnext => ?_⟩
      -- The present state is that of the last change, which the new one follows.
      obtain rfl : t = next := by simpa using hnext
      have hpresent : last.state = c.state := by
        have hmap := h.last
        rw [Option.mem_def.1 hlast] at hmap
        simpa using hmap
      rw [hpresent]
      exact hfollows
    · rw [hqueue, List.getLast?_append]
      simp [hstate]
    · intro t' ht'
      rw [hqueue] at ht'
      rcases List.mem_append.1 ht' with hbefore | hnew
      · exact h.cause t' hbefore
      · obtain rfl := List.mem_singleton.1 hnew
        exact hcause

theorem strides (h : c.Orderly) (hstrides : c.Strides c') : c'.Orderly := by
  induction hstrides with
  | refl => exact h
  | tail _ hstride ih => exact ih.stride hstride

/-- Whatever is done with an orderly connection leaves it orderly. -/
theorem after (h : c.Orderly) (calls : List (ConnectionCall × Instant)) :
    (c.after calls).Orderly := by
  induction calls generalizing c with
  | nil => exact h
  | cons call rest ih => exact ih (h.strides (strides_perform h.started call.1 call.2))

/-- Nothing follows the closing of a connection. -/
theorem nil_of_closes (h : c.Orderly) {before rest : List Transition} {t : Transition}
    (hqueue : c.transitions = before ++ t :: rest) (hcloses : t.state = .closed) : rest = [] := by
  cases rest with
  | nil => rfl
  | cons t' rest =>
    have hchain := h.chain
    rw [hqueue, List.isChain_append] at hchain
    have hfollows := (List.isChain_cons_cons.1 hchain.2.1).1
    rw [hcloses] at hfollows
    cases hfollows

end Orderly

/-- The handshake begins with the first state and makes the connection orderly. -/
theorem orderly_begun (peer : PeerId) (channel : Channel) (hostName : String) (now : Instant) :
    (begun peer channel hostName now).Orderly := by
  let greeting : Connection :=
    { ofChannel peer channel with
      started := true
      hostName := hostName
      transitions := [⟨.connecting, none⟩] }
  have hgreeting : greeting.Orderly := by
    refine ⟨rfl, rfl, .singleton _, rfl, fun t ht hcause => ?_⟩
    obtain rfl : t = ⟨.connecting, none⟩ := by simpa [greeting] using ht
    exact absurd rfl hcause
  exact hgreeting.strides (strides_send greeting (.ofControl (.hello hostName 0 false) now))

/-! ## What was taken from the queue -/

/-- The connection as it would be if the given changes of state still waited in front. -/
def remembering (c : Connection) (taken : List Transition) : Connection :=
  { c with transitions := taken ++ c.transitions }

section Remembering

variable (c : Connection) (taken : List Transition)

theorem setState_remembering (state : ConnectionState) (cause : Option String) :
    ((c.remembering taken).setState state cause).value =
      (c.setState state cause).value.remembering taken := by
  unfold setState
  rw [show (c.remembering taken).isClosed = c.isClosed from rfl]
  split
  · rfl
  · simp [remembering]

theorem close_remembering (cause : Option String) :
    ((c.remembering taken).close cause).value = (c.close cause).value.remembering taken := by
  unfold close
  rw [show (c.remembering taken).isClosed = c.isClosed from rfl]
  split
  · rfl
  · simp only [Noted.value_bind, Noted.value_pure, setState_remembering]
    rfl

theorem transportFailed_remembering (error : TransportError) :
    ((c.remembering taken).transportFailed error).value =
      (c.transportFailed error).value.remembering taken := by
  rw [value_transportFailed, value_transportFailed, close_remembering]

theorem send_remembering (t : Transmission) :
    ((c.remembering taken).send t).value = (c.send t).value.remembering taken := by
  unfold send
  rw [show (c.remembering taken).state = c.state from rfl,
    show (c.remembering taken).channel = c.channel from rfl]
  split
  · rfl
  · rfl
  · split
    · rfl
    · rename_i channel error _
      exact transportFailed_remembering { c with channel := channel } taken error

theorem receiveMessage_remembering (h : Header) (message : ControlMessage) (now : Instant) :
    ((c.remembering taken).receiveMessage h message now).value.1 =
      (c.receiveMessage h message now).value.1.remembering taken := by
  unfold receiveMessage
  rw [show (c.remembering taken).state = c.state from rfl]
  split
  · split
    · rename_i name preload
      let named : Connection := { c with name := name }
      simp only [acceptConnect, sendControl, Noted.value_bind, Noted.value_pure]
      rw [show ({ c.remembering taken with name := name } : Connection) =
        named.remembering taken from rfl, send_remembering, setState_remembering]
      rfl
    · rfl
  · split
    · simp only [finishPreload, sendControl, Noted.value_bind, Noted.value_pure,
        setState_remembering, send_remembering]
    · rfl
  · rfl
  · rfl
  · rfl

theorem receive_remembering (t : Transmission) (now : Instant) :
    ((c.remembering taken).receive t now).value.1 =
      (c.receive t now).value.1.remembering taken := by
  unfold receive
  rw [show (c.remembering taken).isClosed = c.isClosed from rfl,
    show (c.remembering taken).stamp t.header now = c.stamp t.header now from rfl]
  split
  · rfl
  · simp only
    split
    · rfl
    · split
      · split
        · simp only [peerReported, Noted.value_bind, Noted.value_pure]
          split <;> exact close_remembering c taken _
        · exact receiveMessage_remembering c taken _ _ now
      · rfl

theorem beginHandshake_remembering (hostName : String) (now : Instant) :
    ((c.remembering taken).beginHandshake hostName now).value.1 =
      (c.beginHandshake hostName now).value.1.remembering taken := by
  let started : Connection := { c with started := true, hostName := hostName }
  unfold beginHandshake
  rw [show (c.remembering taken).started = c.started from rfl,
    show ({ c.remembering taken with started := true, hostName := hostName } : Connection) =
      started.remembering taken from rfl]
  split
  · rfl
  · simp only [sendControl, Noted.value_bind, Noted.value_pure, setState_remembering,
      send_remembering]
    rfl

theorem suspend_remembering :
    (c.remembering taken).suspend.value.1 = c.suspend.value.1.remembering taken := by
  unfold suspend
  rw [show (c.remembering taken).state = c.state from rfl]
  split
  · exact setState_remembering c taken _ _
  · rfl

theorem resume_remembering :
    (c.remembering taken).resume.value.1 = c.resume.value.1.remembering taken := by
  unfold resume
  rw [show (c.remembering taken).state = c.state from rfl]
  split
  · exact setState_remembering c taken _ _
  · rfl

theorem rememberImport_remembering (typeName : String) :
    (c.remembering taken).rememberImport typeName =
      (c.rememberImport typeName).remembering taken := by
  unfold Connection.rememberImport
  rw [show (c.remembering taken).imported = c.imported from rfl]
  split <;> rfl

theorem perform_remembering (call : ConnectionCall) (now : Instant) :
    (c.remembering taken).perform call now = (c.perform call now).remembering taken := by
  cases call with
  | beginHandshake hostName => exact beginHandshake_remembering c taken hostName now
  | receive t => exact receive_remembering c taken t now
  | send t => exact send_remembering c taken t
  | suspend => exact suspend_remembering c taken
  | resume => exact resume_remembering c taken
  | fail error => exact close_remembering c taken _
  | close cause => exact close_remembering c taken cause
  | transportFailed error => exact transportFailed_remembering c taken error
  | rememberImport typeName => exact rememberImport_remembering c taken typeName
  | disturb refusal => rfl

/-- What was taken from the queue makes no difference to what is done with a connection. -/
theorem after_remembering (calls : List (ConnectionCall × Instant)) :
    (c.remembering taken).after calls = (c.after calls).remembering taken := by
  induction calls generalizing c with
  | nil => rfl
  | cons call rest ih =>
    rw [after, List.foldl_cons, perform_remembering]
    exact ih (c.perform call.1 call.2)

end Remembering

end Connection

end ObjectBus
