import ObjectBus.Connection

/-!
# What the changes of a connection keep

A connection changes by what its guest sends, by what is sent to it and by failures of its
channel. All of these keep its number, only append to what was sent and to the queue of changes
of state, and are over once it is closed (`Advances`). Its own part of the protocol sends
control messages only.

* `advances_send`: sending;
* `advances_receive`: processing what the guest sent;
* `settles_send`: sending leaves the state as it is or closes;
* `sent_send_of_open`: what is handed to an open connection is sent, unless that closes it.
-/

namespace ObjectBus

/-- How far a connection has come. A host never goes back to an earlier state. -/
def ConnectionState.progress : ConnectionState → Nat
  | connecting => 0
  | earlySubscribe => 1
  | connected => 2
  | suspended => 3
  | closed => 4

theorem ConnectionState.progress_le_closed (s : ConnectionState) :
    s.progress ≤ closed.progress := by
  cases s <;> decide

/-- No two states are equally far. -/
theorem ConnectionState.eq_of_progress_eq {s s' : ConnectionState}
    (h : s.progress = s'.progress) : s = s' := by
  cases s <;> cases s' <;> first | rfl | cases h

/-- Whether a change of state is the end of a connection. -/
def Transition.closes (t : Transition) : Bool := t.state == .closed

/-- Whether a transmission carries no object. -/
def Transmission.NoObject (t : Transmission) : Prop := t.object? = none

theorem Transmission.noObject_ofControl (message : ControlMessage) (now : Instant) :
    (Transmission.ofControl message now).NoObject := rfl

/-- Whether a control message is a notice. -/
def ControlMessage.isNotice : ControlMessage → Bool
  | error .. => true
  | _ => false

/-- Whether a transmission carries a control message other than a notice. -/
def Transmission.IsAnswer (t : Transmission) : Prop :=
  ∃ message, t.payload = .control message ∧ message.isNotice = false

theorem Transmission.isAnswer_ofControl {message : ControlMessage}
    (h : message.isNotice = false) (now : Instant) :
    (Transmission.ofControl message now).IsAnswer := ⟨message, rfl, h⟩

theorem Transmission.IsAnswer.noObject {t : Transmission} (h : t.IsAnswer) : t.NoObject := by
  obtain ⟨message, hpayload, -⟩ := h
  rw [NoObject, object?, hpayload]

/-- Handing a transmission to a channel adds it to what was sent, unless it is refused. -/
theorem Channel.sent_send (c : Channel) (t : Transmission) :
    (c.send t).1.sent = if (c.send t).2 = none then c.sent ++ [t] else c.sent := by
  unfold send
  split
  · simp [sent, ChannelAction.sent?]
  · simp [sent, ChannelAction.sent?]

@[simp]
theorem Channel.sent_close (c : Channel) : c.close.sent = c.sent := by
  simp [close, sent, ChannelAction.sent?]

/-- The control message by which a guest asks for control work. -/
def ControlRequest.message : ControlRequest → ControlMessage
  | member group event => .member group event
  | descriptorRequest whitelist blacklist => .descriptorRequest whitelist blacklist
  | clearCache typeNames _ => .clearCache typeNames
  | importStruct schema _ => .structSchema schema
  | importEnum schema _ => .enumSchema schema

namespace Connection

variable {c c' c'' : Connection} {allowed : Transmission → Prop}

/-- What every change of a connection keeps, as long as it sends nothing but what is
allowed. -/
structure Advances (allowed : Transmission → Prop) (c c' : Connection) : Prop where
  /-- The guest keeps its number. -/
  peer : c'.peer = c.peer
  /-- The protocol never goes back. -/
  progress : c.state.progress ≤ c'.state.progress
  /-- What was sent is only appended to, and not once the connection is closed. -/
  sent : ∃ frames, c'.channel.sent = c.channel.sent ++ frames ∧ (∀ t ∈ frames, allowed t) ∧
    (c.isClosed = true → frames = [])
  /-- Changes of state are only appended to the queue, and not once the connection is closed,
  which it is after exactly those changes that say so. -/
  queue : ∃ queued, c'.transitions = c.transitions ++ queued ∧
    (c.isClosed = true → queued = []) ∧ c'.isClosed = (c.isClosed || queued.any (·.closes))

namespace Advances

theorem refl (allowed : Transmission → Prop) (c : Connection) : c.Advances allowed c where
  peer := rfl
  progress := Nat.le_refl _
  sent := ⟨[], by simp⟩
  queue := ⟨[], by simp⟩

theorem trans (h : c.Advances allowed c') (h' : c'.Advances allowed c'') :
    c.Advances allowed c'' := by
  obtain ⟨frames, hsent, hallowed, hnone⟩ := h.sent
  obtain ⟨frames', hsent', hallowed', hnone'⟩ := h'.sent
  obtain ⟨queued, hqueue, hidle, hclosed⟩ := h.queue
  obtain ⟨queued', hqueue', hidle', hclosed'⟩ := h'.queue
  have hstays : c.isClosed = true → c'.isClosed = true := fun hc => by simp [hclosed, hc]
  refine ⟨h'.peer.trans h.peer, Nat.le_trans h.progress h'.progress,
    ⟨frames ++ frames', ?_, ?_, ?_⟩, queued ++ queued', ?_, ?_, ?_⟩
  · rw [hsent', hsent, List.append_assoc]
  · intro t ht
    rcases List.mem_append.1 ht with ht | ht
    · exact hallowed t ht
    · exact hallowed' t ht
  · intro hc
    rw [hnone hc, hnone' (hstays hc)]
    rfl
  · rw [hqueue', hqueue, List.append_assoc]
  · intro hc
    rw [hidle hc, hidle' (hstays hc)]
    rfl
  · rw [hclosed', hclosed, List.any_append, Bool.or_assoc]

theorem mono {allowed' : Transmission → Prop} (h : c.Advances allowed c')
    (himp : ∀ t, allowed t → allowed' t) : c.Advances allowed' c' := by
  obtain ⟨frames, hsent, hallowed, hnone⟩ := h.sent
  exact ⟨h.peer, h.progress, ⟨frames, hsent, fun t ht => himp t (hallowed t ht), hnone⟩, h.queue⟩

/-- A closed connection stays closed. -/
theorem isClosed (h : c.Advances allowed c') (hc : c.isClosed = true) : c'.isClosed = true := by
  obtain ⟨queued, -, -, hclosed⟩ := h.queue
  simp [hclosed, hc]

/-- A connection that is open after a change was open before. -/
theorem open_of_open (h : c.Advances allowed c') (hopen : c'.isClosed = false) :
    c.isClosed = false := by
  rw [Bool.eq_false_iff] at hopen ⊢
  exact fun hc => hopen (h.isClosed hc)

end Advances

/-- A change that concerns neither what was sent nor the state keeps all of that. -/
theorem Advances.of_eq (allowed : Transmission → Prop) (hpeer : c'.peer = c.peer)
    (hsent : c'.channel.sent = c.channel.sent) (hqueue : c'.transitions = c.transitions)
    (hstate : c'.state = c.state) : c.Advances allowed c' where
  peer := hpeer
  progress := hstate ▸ Nat.le_refl _
  sent := ⟨[], by simp [hsent]⟩
  queue := ⟨[], by simp [hqueue], fun _ => rfl, by simp [Connection.isClosed, hstate]⟩

/-- What sending and closing keep: the state and the queue, unless the connection closes. -/
def Settles (c c' : Connection) : Prop :=
  c'.state = c.state ∧ c'.transitions = c.transitions ∨ c.state ≠ .closed ∧ c'.state = .closed

namespace Settles

theorem refl (c : Connection) : c.Settles c := .inl ⟨rfl, rfl⟩

theorem trans (h : c.Settles c') (h' : c'.Settles c'') : c.Settles c'' := by
  rcases h with ⟨hstate, hqueue⟩ | ⟨hopen, hclosed⟩
  · rcases h' with ⟨hstate', hqueue'⟩ | ⟨hopen', hclosed'⟩
    · exact .inl ⟨hstate'.trans hstate, hqueue'.trans hqueue⟩
    · exact .inr ⟨hstate ▸ hopen', hclosed'⟩
  · rcases h' with ⟨hstate', -⟩ | ⟨-, hclosed'⟩
    · exact .inr ⟨hopen, hstate'.trans hclosed⟩
    · exact .inr ⟨hopen, hclosed'⟩

/-- The state stays or is closed. -/
theorem state (h : c.Settles c') : c'.state = c.state ∨ c'.state = .closed := by
  rcases h with ⟨hstate, -⟩ | ⟨-, hclosed⟩
  · exact .inl hstate
  · exact .inr hclosed

end Settles

/-! ## Changing state -/

theorem isClosed_eq_true_iff : c.isClosed = true ↔ c.state = .closed := by
  simp [isClosed]

theorem isClosed_eq_false_iff : c.isClosed = false ↔ c.state ≠ .closed := by
  rw [← Bool.not_eq_true, isClosed_eq_true_iff]

/-- Entering a later state queues that change. -/
theorem advances_setState (allowed : Transmission → Prop) {c : Connection}
    {state : ConnectionState} (cause : Option String)
    (hprogress : c.isClosed = false → c.state.progress ≤ state.progress) :
    c.Advances allowed (c.setState state cause).value := by
  unfold setState
  split
  · exact .refl allowed c
  · rename_i hopen
    refine ⟨rfl, hprogress (by simpa using hopen), ⟨[], by simp⟩,
      [⟨state, cause⟩], rfl, fun hc => absurd hc hopen, ?_⟩
    simp only [Bool.not_eq_true] at hopen
    simp [isClosed, Transition.closes, isClosed_eq_false_iff.1 hopen]

theorem state_setState (c : Connection) (state : ConnectionState) (cause : Option String) :
    (c.setState state cause).value.state = if c.isClosed then c.state else state := by
  unfold setState
  split <;> rfl

theorem advances_close (allowed : Transmission → Prop) (c : Connection) (cause : Option String) :
    c.Advances allowed (c.close cause).value := by
  unfold close
  split
  · exact .refl allowed c
  · refine (advances_setState allowed cause fun _ => c.state.progress_le_closed).trans ?_
    exact .of_eq allowed rfl (Channel.sent_close _) rfl rfl

/-- Closing closes. -/
theorem state_close (c : Connection) (cause : Option String) :
    (c.close cause).value.state = .closed := by
  unfold close
  split
  · rename_i h
    exact isClosed_eq_true_iff.1 h
  · rename_i h
    simp [state_setState, h]

theorem settles_close (c : Connection) (cause : Option String) :
    c.Settles (c.close cause).value := by
  by_cases hclosed : c.isClosed = true
  · unfold close
    rw [if_pos hclosed]
    exact .refl c
  · exact .inr ⟨fun h => hclosed (isClosed_eq_true_iff.2 h), state_close c cause⟩

/-- A failing channel closes the connection with its error as the cause. -/
theorem value_transportFailed (c : Connection) (error : TransportError) :
    (c.transportFailed error).value =
      (c.close (some (BrokerError.transport error).message)).value := by
  unfold transportFailed
  split
  · rename_i h
    simp [close, h]
  · cases error <;> rfl

theorem advances_transportFailed (allowed : Transmission → Prop) (c : Connection)
    (error : TransportError) : c.Advances allowed (c.transportFailed error).value := by
  rw [value_transportFailed]
  exact advances_close allowed c _

theorem state_transportFailed (c : Connection) (error : TransportError) :
    (c.transportFailed error).value.state = .closed := by
  rw [value_transportFailed]
  exact state_close c _

/-- An open connection that goes on over its channel. -/
theorem advances_of_channel (hopen : c.isClosed = false) {channel : Channel}
    (hsent : ∃ frames, channel.sent = c.channel.sent ++ frames ∧ ∀ t ∈ frames, allowed t) :
    c.Advances allowed { c with channel := channel } := by
  obtain ⟨frames, hframes, hallowed⟩ := hsent
  refine ⟨rfl, Nat.le_refl _, ⟨frames, hframes, hallowed, fun hc => ?_⟩,
    [], by simp, fun _ => rfl, ?_⟩
  · rw [hopen] at hc
    cases hc
  · simp [isClosed]

/-! ## Sending -/

/-- What becomes of a connection that is handed a transmission: a suspended or closed one
ignores it, an open one sends it, and it closes if its channel refuses. -/
theorem send_cases (c : Connection) (t : Transmission) :
    (c.send t).value = c ∧ (c.state = .closed ∨ c.state = .suspended) ∨
    (c.state ≠ .closed ∧ c.state ≠ .suspended) ∧
      ((∃ channel, (c.send t).value = { c with channel := channel } ∧
          channel.sent = c.channel.sent ++ [t]) ∨
        ∃ channel error, (c.send t).value =
            (transportFailed { c with channel := channel } error).value ∧
          channel.sent = c.channel.sent) := by
  have hsent := c.channel.sent_send t
  unfold send
  cases hstate : c.state with
  | closed => exact .inl ⟨rfl, .inl rfl⟩
  | suspended => exact .inl ⟨rfl, .inr rfl⟩
  | connecting | earlySubscribe | connected =>
    refine .inr ⟨⟨by simp, by simp⟩, ?_⟩
    cases hresult : c.channel.send t with
    | mk channel refusal =>
      rw [hresult] at hsent
      cases refusal with
      | none => exact .inl ⟨channel, by simp, by simpa using hsent⟩
      | some error => exact .inr ⟨channel, error, by simp, by simpa using hsent⟩

/-- Sending something that is allowed. -/
theorem advances_send (c : Connection) {t : Transmission} (ht : allowed t) :
    c.Advances allowed (c.send t).value := by
  rcases c.send_cases t with ⟨hsame, -⟩ | ⟨⟨hopen, -⟩, ⟨channel, hc', hsent⟩ |
    ⟨channel, error, hc', hsent⟩⟩
  · rw [hsame]
    exact .refl allowed c
  · rw [hc']
    exact advances_of_channel (isClosed_eq_false_iff.2 hopen) ⟨[t], hsent, by simpa using ht⟩
  · rw [hc']
    -- A channel that refuses has not sent anything, and the connection then closes.
    refine .trans ?_ (advances_transportFailed allowed _ error)
    exact advances_of_channel (isClosed_eq_false_iff.2 hopen) ⟨[], by simp [hsent]⟩

/-- Sending leaves the state and the queue as they are or closes. -/
theorem settles_send (c : Connection) (t : Transmission) : c.Settles (c.send t).value := by
  rcases c.send_cases t with ⟨hsame, -⟩ | ⟨⟨hopen, -⟩, ⟨channel, hc', -⟩ | ⟨channel, error, hc', -⟩⟩
  · rw [hsame]
    exact .refl c
  · exact .inl (by simp [hc'])
  · exact .inr ⟨hopen, by rw [hc', state_transportFailed]⟩

/-- What is handed to a connection that takes part is sent, unless that closes it. -/
theorem sent_send_of_open {t : Transmission} (hsuspended : c.state ≠ .suspended)
    (hopen : (c.send t).value.isClosed = false) :
    (c.send t).value.channel.sent = c.channel.sent ++ [t] := by
  rcases c.send_cases t with ⟨hsame, hstate⟩ | ⟨-, ⟨channel, hc', hsent⟩ |
    ⟨channel, error, hc', -⟩⟩
  · rw [hsame, isClosed_eq_false_iff] at hopen
    rcases hstate with hstate | hstate
    · exact absurd hstate hopen
    · exact absurd hstate hsuspended
  · rw [hc', hsent]
  · rw [hc', isClosed_eq_false_iff, state_transportFailed] at hopen
    exact absurd rfl hopen

theorem advances_sendControl (c : Connection) (message : ControlMessage) (now : Instant) :
    c.Advances Transmission.NoObject (c.sendControl message now).value :=
  advances_send c (Transmission.noObject_ofControl message now)

/-- Sending several transmissions one after the other. -/
theorem advances_foldl_send (ts : List Transmission) (c : Connection)
    (hts : ∀ t ∈ ts, allowed t) :
    c.Advances allowed (ts.foldl (fun c t => (c.send t).value) c) := by
  induction ts generalizing c with
  | nil => exact .refl allowed c
  | cons t rest ih =>
    refine .trans (advances_send c (hts t List.mem_cons_self)) (ih _ fun t' ht' => ?_)
    exact hts t' (List.mem_cons_of_mem _ ht')

theorem settles_foldl_send (ts : List Transmission) (c : Connection) :
    c.Settles (ts.foldl (fun c t => (c.send t).value) c) := by
  induction ts generalizing c with
  | nil => exact .refl c
  | cons t rest ih => exact (settles_send c t).trans (ih (c.send t).value)

/-- What is handed to a connection that takes part is sent in order, unless that closes it. -/
theorem sent_foldl_send_of_open {ts : List Transmission} {c : Connection}
    (hsuspended : c.state ≠ .suspended)
    (hopen : (ts.foldl (fun c t => (c.send t).value) c).isClosed = false) :
    (ts.foldl (fun c t => (c.send t).value) c).channel.sent = c.channel.sent ++ ts := by
  induction ts generalizing c with
  | nil => simp
  | cons t rest ih =>
    rw [List.foldl_cons] at hopen ⊢
    -- Had the first transmission closed the connection, it would be closed at the end.
    have hrest : (c.send t).value.Advances (fun _ => True) _ :=
      advances_foldl_send rest _ fun _ _ => trivial
    have hfirst : (c.send t).value.isClosed = false := hrest.open_of_open hopen
    have hsuspended' : (c.send t).value.state ≠ .suspended := by
      rcases (settles_send c t).state with h | h
      · rwa [h]
      · simp [h]
    rw [ih hsuspended' hopen, sent_send_of_open hsuspended hfirst, List.append_assoc]
    rfl

/-! ## Receiving -/

theorem advances_peerReported (c : Connection) (code : UInt32) (text : String) :
    c.Advances Transmission.IsAnswer (c.peerReported code text).value := by
  unfold peerReported
  split
  · exact advances_close _ c none
  · exact advances_close _ c _

theorem advances_acceptConnect (hstate : c.state = .connecting) (name : String) (preload : Bool)
    (now : Instant) :
    c.Advances Transmission.IsAnswer (c.acceptConnect name preload now).value := by
  let named : Connection := { c with name := name }
  let response : ControlMessage :=
    .connectResponse (some c.hostName) (some c.peer) true preload false
  have hname : c.Advances Transmission.IsAnswer named := .of_eq _ rfl rfl rfl rfl
  have hsend : named.Advances Transmission.IsAnswer (named.sendControl response now).value :=
    advances_send named (Transmission.isAnswer_ofControl rfl now)
  refine (hname.trans hsend).trans (advances_setState _ none fun hopen => ?_)
  -- The response is sent while the guest is still connecting, and it may close the connection.
  rcases (settles_send named (.ofControl response now)).state with h | h
  · have hzero : (named.sendControl response now).value.state.progress = 0 := by
      rw [sendControl, h, show named.state = _ from hstate]
      rfl
    exact Nat.le_trans (Nat.le_of_eq hzero) (Nat.zero_le _)
  · exact absurd h (isClosed_eq_false_iff.1 hopen)

theorem advances_finishPreload (hstate : c.state = .earlySubscribe) (now : Instant) :
    c.Advances Transmission.IsAnswer (c.finishPreload now).value := by
  refine .trans (advances_setState _ none fun _ => ?_)
    (advances_send _ (Transmission.isAnswer_ofControl rfl now))
  simp [hstate, ConnectionState.progress]

theorem advances_receiveMessage (c : Connection) (h : Header) (message : ControlMessage)
    (now : Instant) :
    c.Advances Transmission.IsAnswer (c.receiveMessage h message now).value.1 := by
  unfold receiveMessage
  split
  · rename_i hstate
    split
    · exact advances_acceptConnect hstate _ _ now
    · exact .refl _ c
  · rename_i hstate
    split
    · exact advances_finishPreload hstate now
    · exact .refl _ c
  · exact .refl _ c
  · exact .refl _ c
  · exact .refl _ c

/-- Processing what the guest sent sends nothing but answers. -/
theorem answers_receive (c : Connection) (t : Transmission) (now : Instant) :
    c.Advances Transmission.IsAnswer (c.receive t now).value.1 := by
  unfold receive
  split
  · exact .refl _ c
  · simp only
    split
    · exact .refl _ c
    · split
      · split
        · exact advances_peerReported c _ _
        · exact advances_receiveMessage c _ _ now
      · exact .refl _ c

/-- Processing what the guest sent sends nothing but control messages. -/
theorem advances_receive (c : Connection) (t : Transmission) (now : Instant) :
    c.Advances Transmission.NoObject (c.receive t now).value.1 :=
  (answers_receive c t now).mono fun _ => Transmission.IsAnswer.noObject

theorem announced_cases (c : Connection) (typeName : String) (request : ControlRequest) :
    (c.announced typeName request).value = .handled ∨
      (c.announced typeName request).value = .control request := by
  unfold announced
  split
  · exact .inl rfl
  · exact .inr rfl

theorem classifyControl_ne_object (c : Connection) (h : Header) (message : ControlMessage)
    {h' : Header} {o : Object} : (c.classifyControl h message).value ≠ .object h' o := by
  unfold classifyControl
  split
  · simp
  · simp
  · simp
  · rename_i schema
    rcases c.announced_cases schema.name (.importStruct schema h) with heq | heq <;> simp [heq]
  · rename_i schema
    rcases c.announced_cases schema.name (.importEnum schema h) with heq | heq <;> simp [heq]
  · simp [unexpected]

/-- A control message is either dealt with by the connection, or it changes nothing about it
and is classified. -/
theorem receiveMessage_cases (c : Connection) (h : Header) (message : ControlMessage)
    (now : Instant) :
    (c.receiveMessage h message now).value.2 = .handled ∨
      (c.receiveMessage h message now).value = (c, c.unexpected message) ∨
      (c.receiveMessage h message now).value = (c, (c.classifyControl h message).value) := by
  unfold receiveMessage
  split
  · split
    · exact .inl rfl
    · exact .inr (.inl rfl)
  · split
    · exact .inl rfl
    · exact .inr (.inr rfl)
  · exact .inr (.inr rfl)
  · exact .inr (.inl rfl)
  · exact .inr (.inl rfl)

/-- An object is handed on under the stamped header, and nothing about the connection
changes. -/
theorem receive_eq_object {t : Transmission} {now : Instant} {h : Header} {o : Object}
    (hr : (c.receive t now).value.2 = .object h o) :
    (c.receive t now).value.1 = c ∧ t.payload = .object o ∧ h = c.stamp t.header now := by
  obtain ⟨header, payload⟩ := t
  unfold receive at hr ⊢
  by_cases hclosed : c.isClosed = true
  · rw [if_pos hclosed] at hr
    cases hr
  · rw [if_neg hclosed] at hr ⊢
    cases payload with
    | object o' =>
      refine ⟨rfl, ?_⟩
      simp only [Noted.value_pure] at hr
      -- Both classifications hand on the object and the header that they were given.
      have hsame : Received.object (c.stamp header now) o' = .object h o := by
        split at hr
        · unfold classifyInternal at hr
          split at hr
          · cases hr
          · split at hr
            · exact hr
            · exact hr
            · cases hr
        · unfold classifyObject at hr
          split at hr
          · exact hr
          · cases hr
      cases hsame
      exact ⟨rfl, rfl⟩
    -- Control messages are dealt with, rejected or handed on as control work, never as objects.
    | control message =>
      simp only at hr
      split at hr
      · split at hr
        · cases hr
        · rcases c.receiveMessage_cases (c.stamp header now) message now with heq | heq | heq
          · rw [heq] at hr
            cases hr
          · rw [heq] at hr
            cases hr
          · rw [heq] at hr
            exact absurd hr (c.classifyControl_ne_object _ _)
      · cases hr

/-- Control work is handed on as the guest asked for it, and nothing about the connection
changes. -/
theorem receive_eq_control {t : Transmission} {now : Instant} {request : ControlRequest}
    (hr : (c.receive t now).value.2 = .control request) :
    (c.receive t now).value.1 = c ∧ ∃ message, t.payload = .control message ∧
      (c.classifyControl (c.stamp t.header now) message).value = .control request := by
  obtain ⟨header, payload⟩ := t
  unfold receive at hr ⊢
  by_cases hclosed : c.isClosed = true
  · rw [if_pos hclosed] at hr
    cases hr
  · rw [if_neg hclosed] at hr ⊢
    cases payload with
    -- An object is never handed on as control work.
    | object o' =>
      simp only [Noted.value_pure] at hr
      split at hr
      · unfold classifyInternal at hr
        split at hr
        · cases hr
        · split at hr <;> cases hr
      · unfold classifyObject at hr
        split at hr <;> cases hr
    | control message =>
      simp only at hr ⊢
      by_cases hcontrol : (c.stamp header now).isControl = true
      · rw [if_pos hcontrol] at hr ⊢
        split at hr
        · cases hr
        · rcases c.receiveMessage_cases (c.stamp header now) message now with heq | heq | heq
          · rw [heq] at hr
            cases hr
          · rw [heq] at hr
            cases hr
          · rw [heq] at hr ⊢
            exact ⟨rfl, message, rfl, hr⟩
      · rw [if_neg hcontrol] at hr
        cases hr

/-- An announced type is handed on only if the broker does not have it from this guest. -/
theorem imported_of_announced {typeName : String} {request request' : ControlRequest}
    (hr : (c.announced typeName request).value = .control request') :
    c.imported.contains typeName = false ∧ request' = request := by
  unfold announced at hr
  split at hr
  · cases hr
  · rename_i hnew
    cases hr
    exact ⟨by simpa using hnew, rfl⟩

/-- Control work is handed on as the guest asked for it. -/
theorem message_of_classifyControl {h : Header} {message : ControlMessage}
    {request : ControlRequest} (hr : (c.classifyControl h message).value = .control request) :
    message = request.message := by
  unfold classifyControl at hr
  split at hr
  · cases hr
    rfl
  · cases hr
    rfl
  · cases hr
    rfl
  · obtain ⟨-, rfl⟩ := imported_of_announced hr
    rfl
  · obtain ⟨-, rfl⟩ := imported_of_announced hr
    rfl
  · cases hr

/-- What a connection hands on as control work the guest has asked for with its frame. -/
theorem payload_of_receive {t : Transmission} {now : Instant} {request : ControlRequest}
    (hr : (c.receive t now).value.2 = .control request) : t.payload = .control request.message := by
  obtain ⟨-, message, hpayload, hclassify⟩ := receive_eq_control hr
  rw [hpayload, message_of_classifyControl hclassify]

end Connection

end ObjectBus
