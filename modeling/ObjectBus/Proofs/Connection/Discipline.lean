import ObjectBus.Proofs.Broker.Fanout
import ObjectBus.Proofs.Connection.Handshake

/-!
# What a connection does with its channel

Sending, failing and closing nest: a transmission that is refused closes the connection in the
middle of a call, which then goes on to enter a state, to report an error or to close once more.
Whatever is done with a connection, in whatever order, its channel sees none of this: it takes some
transmissions, perhaps refuses one, and is closed once, and after that it is left alone.

* `ConnectionUse`, `Account`: everything that can be done with a connection, with the changes of
  state that were taken from it;
* `Conduct`: the traces of a channel and the changes of state that belong together;
* `Behaves.perform`: every call keeps to that;
* `perform_of_closed`, `attempts_perform_of_suspended`, `attempts_perform_of_suspends`: calls on a
  connection that is closed or suspended, and those that suspend it;
* `Account.disciplined_after`: what follows for every sequence of calls.
-/

namespace ObjectBus

/-- One thing done with a connection from outside. -/
inductive ConnectionUse where
  /-- A call. -/
  | call (call : ConnectionCall)
  /-- The changes of state that wait are taken. -/
  | take

/-- The transmission that was handed over, whether it was taken or refused. -/
def ChannelAction.handed? : ChannelAction → Option Transmission
  | sent t => some t
  | refused t _ => some t
  | closed => none

/-- The transmissions that were handed over, in order. -/
def Channel.attempts (c : Channel) : List Transmission := c.trace.filterMap (·.handed?)

@[simp]
theorem Channel.attempts_close (c : Channel) : c.close.attempts = c.attempts := by
  simp [close, attempts, ChannelAction.handed?]

namespace Connection

variable {c c' : Connection} {trace : List ChannelAction}
variable {taken changes : List Transition} {state : ConnectionState}

/-! ## Traces and changes of state -/

/-- What was done with the channel of a connection, all its changes of state and its present state,
as they belong together. -/
inductive Conduct : List ChannelAction → List Transition → ConnectionState → Prop
  /-- An open connection has handed over transmissions, and all were taken. -/
  | running {changes : List Transition} {state : ConnectionState} (ts : List Transmission)
      (hearlier : ∀ t ∈ changes, t.closes = false) (hopen : state ≠ .closed) :
      Conduct (ts.map .sent) changes state
  /-- The connection was closed for some cause or none. -/
  | closed {changes : List Transition} (ts : List Transmission) (cause : Option String)
      (hearlier : ∀ t ∈ changes, t.closes = false) :
      Conduct (ts.map .sent ++ [.closed]) (changes ++ [⟨.closed, cause⟩]) .closed
  /-- A transmission was refused, and that closed the connection. -/
  | failed {changes : List Transition} (ts : List Transmission) (t : Transmission)
      (error : TransportError) (hearlier : ∀ t ∈ changes, t.closes = false) :
      Conduct (ts.map .sent ++ [.refused t error, .closed])
        (changes ++ [⟨.closed, some (BrokerError.transport error).message⟩]) .closed

namespace Conduct

theorem open_cases (h : Conduct trace changes state) (hopen : state ≠ .closed) :
    ∃ ts : List Transmission, trace = ts.map .sent ∧ ∀ t ∈ changes, t.closes = false := by
  cases h with
  | running ts hearlier => exact ⟨ts, rfl, hearlier⟩
  | closed | failed => exact absurd rfl hopen

/-- An open connection enters another state. -/
theorem enter (h : Conduct trace changes state) (hopen : state ≠ .closed)
    {next : ConnectionState} (hnext : next ≠ .closed) :
    Conduct trace (changes ++ [⟨next, none⟩]) next := by
  obtain ⟨ts, rfl, hearlier⟩ := h.open_cases hopen
  refine .running ts (fun t ht => ?_) hnext
  rcases List.mem_append.1 ht with hbefore | hlast
  · exact hearlier t hbefore
  · obtain rfl := List.mem_singleton.1 hlast
    simpa [Transition.closes] using hnext

/-- A transmission is taken. -/
theorem send (h : Conduct trace changes state) (hopen : state ≠ .closed) (t : Transmission) :
    Conduct (trace ++ [.sent t]) changes state := by
  obtain ⟨ts, rfl, hearlier⟩ := h.open_cases hopen
  rw [← List.map_singleton, ← List.map_append]
  exact .running (ts ++ [t]) hearlier hopen

/-- A transmission is refused. -/
theorem refuse (h : Conduct trace changes state) (hopen : state ≠ .closed) (t : Transmission)
    (error : TransportError) : Conduct (trace ++ [.refused t error, .closed])
      (changes ++ [⟨.closed, some (BrokerError.transport error).message⟩]) .closed := by
  obtain ⟨ts, rfl, hearlier⟩ := h.open_cases hopen
  exact .failed ts t error hearlier

/-- An open connection is closed. -/
theorem close (h : Conduct trace changes state) (hopen : state ≠ .closed)
    (cause : Option String) :
    Conduct (trace ++ [.closed]) (changes ++ [⟨.closed, cause⟩]) .closed := by
  obtain ⟨ts, rfl, hearlier⟩ := h.open_cases hopen
  exact .closed ts cause hearlier

/-! What can be read off -/

theorem countP_closed (h : Conduct trace changes state) :
    trace.countP (·.isClosed) = if state = .closed then 1 else 0 := by
  have hsent : ∀ ts : List Transmission,
      (ts.map ChannelAction.sent).countP (·.isClosed) = 0 := by
    simp [List.countP_eq_zero, ChannelAction.isClosed]
  cases h with
  | running ts _ hopen => rw [hsent, if_neg hopen]
  | closed ts | failed ts =>
    rw [List.countP_append, hsent]
    rfl

/-- Whatever is no transmission that was taken stands behind all of those. -/
theorem after_sent {ts : List Transmission} {tail before rest : List ChannelAction}
    {a : ChannelAction} (ha : a.sent? = none)
    (htrace : ts.map .sent ++ tail = before ++ a :: rest) : ∃ mid, tail = mid ++ a :: rest := by
  rcases List.append_eq_append_iff.1 htrace with ⟨mid, -, htail⟩ | ⟨mid, hfront, hrest⟩
  · exact ⟨mid, htail⟩
  · cases mid with
    | nil => exact ⟨[], hrest.symm⟩
    | cons first mid =>
      obtain ⟨rfl, -⟩ := List.cons.inj hrest
      have hmem : a ∈ ts.map ChannelAction.sent := by simp [hfront]
      obtain ⟨t, -, rfl⟩ := List.mem_map.1 hmem
      cases ha

/-- Nothing is done with a channel that was closed. -/
theorem nil_of_closed (h : Conduct trace changes state) {before rest : List ChannelAction}
    (htrace : trace = before ++ .closed :: rest) : rest = [] := by
  cases h with
  | running ts =>
    rw [← List.append_nil (ts.map _)] at htrace
    obtain ⟨mid, hmid⟩ := after_sent rfl htrace
    simp at hmid
  | closed ts =>
    obtain ⟨mid, hmid⟩ := after_sent rfl htrace
    cases mid with
    | nil => exact (List.cons.inj hmid).2.symm
    | cons => simp at hmid
  | failed ts t error =>
    obtain ⟨mid, hmid⟩ := after_sent rfl htrace
    rcases mid with _ | ⟨first, _ | _⟩
    · cases (List.cons.inj hmid).1
    · exact (List.cons.inj (List.cons.inj hmid).2).2.symm
    · simp at hmid

/-- A refusal is followed by the closing of the channel alone, and its error is the cause of the
last change of state. -/
theorem of_refused (h : Conduct trace changes state) {before rest : List ChannelAction}
    {t : Transmission} {error : TransportError}
    (htrace : trace = before ++ .refused t error :: rest) : rest = [.closed] ∧
      ∃ earlier, changes = earlier ++ [⟨.closed, some (BrokerError.transport error).message⟩] := by
  cases h with
  | running ts =>
    rw [← List.append_nil (ts.map _)] at htrace
    obtain ⟨mid, hmid⟩ := after_sent rfl htrace
    simp at hmid
  | closed ts =>
    obtain ⟨mid, hmid⟩ := after_sent rfl htrace
    cases mid with
    | nil => cases (List.cons.inj hmid).1
    | cons => simp at hmid
  | @failed earlier ts t' error' =>
    -- Behind what was taken stand the refusal and the closing, so the split is at the refusal.
    obtain ⟨mid, hmid⟩ := after_sent rfl htrace
    rcases mid with _ | ⟨first, _ | _⟩
    · obtain ⟨hsame, hrest⟩ := List.cons.inj hmid
      obtain ⟨-, rfl⟩ := ChannelAction.refused.inj hsame
      exact ⟨hrest.symm, earlier, rfl⟩
    · cases (List.cons.inj (List.cons.inj hmid).2).1
    · simp at hmid

/-- A connection is closed if its last change of state says so, and no earlier one does. -/
theorem closed_iff (h : Conduct trace changes state) :
    state = .closed ↔ ∃ earlier cause, changes = earlier ++ [⟨.closed, cause⟩] := by
  cases h with
  | running ts hearlier hopen =>
    refine ⟨fun hclosed => absurd hclosed hopen, ?_⟩
    rintro ⟨earlier, cause, rfl⟩
    cases hearlier ⟨.closed, cause⟩ (by simp)
  | closed | failed => exact ⟨fun _ => ⟨_, _, rfl⟩, fun _ => rfl⟩

theorem closes_eq_false (h : Conduct trace changes state) {earlier : List Transition}
    {last : Transition} (hchanges : changes = earlier ++ [last]) :
    ∀ t ∈ earlier, t.closes = false := by
  cases h with
  | running ts hearlier => exact fun t ht => hearlier t (by simp [hchanges, ht])
  | closed ts cause hearlier | failed ts t error hearlier =>
    obtain ⟨rfl, -⟩ := List.append_inj' hchanges rfl
    exact hearlier

end Conduct

/-! ## Single calls -/

/-- Nothing is sent while a connection is closed or suspended. -/
theorem value_send_of_idle (hidle : c.state = .closed ∨ c.state = .suspended) (t : Transmission) :
    (c.send t).value = c := by
  unfold send
  rcases hidle with hstate | hstate <;> simp [hstate]

/-- What receiving something does to a connection: nothing, close it, accept a guest that connects,
or finish its preload. -/
theorem receive_effects (c : Connection) (t : Transmission) (now : Instant) :
    (c.receive t now).value.1 = c ∨
      (∃ cause, (c.receive t now).value.1 = (c.close cause).value) ∨
      (c.state = .connecting ∧ ∃ name preload,
        (c.receive t now).value.1 = (c.acceptConnect name preload now).value) ∨
      (c.state = .earlySubscribe ∧ (c.receive t now).value.1 = (c.finishPreload now).value) := by
  unfold receive
  split
  · exact .inl rfl
  · simp only
    split
    · exact .inl rfl
    · split
      · split
        · unfold peerReported
          split <;> exact .inr (.inl ⟨_, rfl⟩)
        · -- Only a guest that has not finished connecting can take the connection further.
          unfold receiveMessage
          split
          · rename_i hstate
            split
            · exact .inr (.inr (.inl ⟨hstate, _, _, rfl⟩))
            · exact .inl rfl
          · rename_i hstate
            split
            · exact .inr (.inr (.inr ⟨hstate, rfl⟩))
            · exact .inl rfl
          · exact .inl rfl
          · exact .inl rfl
          · exact .inl rfl
      · exact .inl rfl

/-- A connection, from which some changes of state were taken, has dealt with its channel as its
changes of state say. -/
def Behaves (taken : List Transition) (c : Connection) : Prop :=
  Conduct c.channel.trace (taken ++ c.transitions) c.state

namespace Behaves

theorem setState (h : c.Behaves taken) {next : ConnectionState} (hnext : next ≠ .closed) :
    (c.setState next none).value.Behaves taken := by
  by_cases hclosed : c.isClosed = true
  · unfold Connection.setState
    rw [if_pos hclosed]
    exact h
  · have hopen : c.isClosed = false := by simpa using hclosed
    rw [value_setState_of_open hopen, Behaves, ← List.append_assoc]
    exact Conduct.enter h (isClosed_eq_false_iff.1 hopen) hnext

theorem close (h : c.Behaves taken) (cause : Option String) :
    (c.close cause).value.Behaves taken := by
  by_cases hclosed : c.isClosed = true
  · unfold Connection.close
    rw [if_pos hclosed]
    exact h
  · have hopen : c.isClosed = false := by simpa using hclosed
    rw [value_close_of_open hopen, Behaves, ← List.append_assoc]
    exact Conduct.close h (isClosed_eq_false_iff.1 hopen) cause

theorem transportFailed (h : c.Behaves taken) (error : TransportError) :
    (c.transportFailed error).value.Behaves taken := by
  rw [value_transportFailed]
  exact h.close _

theorem send (h : c.Behaves taken) (t : Transmission) : (c.send t).value.Behaves taken := by
  by_cases hidle : c.state = .closed ∨ c.state = .suspended
  · rw [value_send_of_idle hidle t]
    exact h
  · have hstate := not_or.1 hidle
    cases hrefusal : c.channel.refusal c.channel.trace t with
    | none =>
      rw [value_send_of_taken hstate hrefusal]
      exact Conduct.send h hstate.1 t
    | some error =>
      rw [value_send_of_refused hstate hrefusal, Behaves, ← List.append_assoc]
      exact Conduct.refuse h hstate.1 t error

/-- If the response is refused, the state which the guest asked for is not entered any more. -/
theorem acceptConnect (h : c.Behaves taken) (name : String) (preload : Bool) (now : Instant) :
    (c.acceptConnect name preload now).value.Behaves taken := by
  have hnamed : ({ c with name := name } : Connection).Behaves taken := h
  exact (hnamed.send _).setState (by cases preload <;> simp)

theorem finishPreload (h : c.Behaves taken) (now : Instant) :
    (c.finishPreload now).value.Behaves taken :=
  (h.setState (by simp)).send _

theorem receive (h : c.Behaves taken) (t : Transmission) (now : Instant) :
    (c.receive t now).value.1.Behaves taken := by
  rcases c.receive_effects t now with
    heq | ⟨cause, heq⟩ | ⟨-, name, preload, heq⟩ | ⟨-, heq⟩
  · rw [heq]
    exact h
  · rw [heq]
    exact h.close cause
  · rw [heq]
    exact h.acceptConnect name preload now
  · rw [heq]
    exact h.finishPreload now

theorem beginHandshake (h : c.Behaves taken) (hostName : String) (now : Instant) :
    (c.beginHandshake hostName now).value.1.Behaves taken := by
  unfold Connection.beginHandshake
  split
  · exact h
  · have hstarted : ({ c with started := true, hostName := hostName } : Connection).Behaves taken :=
      h
    exact (hstarted.setState (by simp)).send _

theorem perform (h : c.Behaves taken) (call : ConnectionCall) (now : Instant) :
    (c.perform call now).Behaves taken := by
  cases call with
  | beginHandshake hostName => exact h.beginHandshake hostName now
  | receive t => exact h.receive t now
  | send t => exact h.send t
  | suspend =>
    show c.suspend.value.1.Behaves taken
    unfold Connection.suspend
    split
    · exact h.setState (by simp)
    · exact h
  | resume =>
    show c.resume.value.1.Behaves taken
    unfold Connection.resume
    split
    · exact h.setState (by simp)
    · exact h
  | fail error => exact h.close _
  | close cause => exact h.close cause
  | transportFailed error => exact h.transportFailed error
  | rememberImport typeName =>
    show (c.rememberImport typeName).Behaves taken
    unfold Connection.rememberImport
    split <;> exact h
  | disturb refusal => exact h

end Behaves

/-! ## Closed and suspended connections -/

theorem value_setState_of_closed (hclosed : c.isClosed = true) (state : ConnectionState)
    (cause : Option String) : (c.setState state cause).value = c := by
  unfold setState
  rw [if_pos hclosed]
  rfl

theorem value_close_of_closed (hclosed : c.isClosed = true) (cause : Option String) :
    (c.close cause).value = c := by
  unfold Connection.close
  rw [if_pos hclosed]
  rfl

/-- A call on a closed connection leaves the channel and the queue alone. -/
theorem perform_of_closed (hclosed : c.isClosed = true) (call : ConnectionCall) (now : Instant) :
    (c.perform call now).channel.trace = c.channel.trace ∧
      (c.perform call now).transitions = c.transitions ∧
        (c.perform call now).isClosed = true := by
  have hstate : c.state = .closed := isClosed_eq_true_iff.1 hclosed
  have hsame : ∀ {c' : Connection}, c' = c → c'.channel.trace = c.channel.trace ∧
      c'.transitions = c.transitions ∧ c'.isClosed = true := by
    rintro c' rfl
    exact ⟨rfl, rfl, hclosed⟩
  -- All calls but three leave a closed connection as it is.
  cases call with
  | beginHandshake hostName =>
    cases hstarted : c.started with
    | true =>
      refine hsame ?_
      rw [perform, value_beginHandshake_of_started hstarted]
    | false =>
      -- Even now the handshake can be begun, but the guest is not greeted.
      let started : Connection := { c with started := true, hostName := hostName }
      have hgreeted : c.perform (.beginHandshake hostName) now = started := by
        have hentered := value_setState_of_closed (c := started) hclosed .connecting none
        rw [perform, Connection.beginHandshake, if_neg (by simp [hstarted])]
        simp only [Noted.value_bind, Noted.value_pure, sendControl]
        rw [hentered]
        exact value_send_of_idle (c := started) (.inl hstate) _
      rw [hgreeted]
      exact ⟨rfl, rfl, hclosed⟩
  | receive t =>
    refine hsame ?_
    rw [perform, Connection.receive, if_pos hclosed]
    rfl
  | send t => exact hsame (value_send_of_idle (.inl hstate) t)
  | suspend =>
    refine hsame ?_
    rw [perform, Connection.suspend, if_neg (by simp [hstate])]
    rfl
  | resume =>
    refine hsame ?_
    rw [perform, Connection.resume, if_neg (by simp [hstate])]
    rfl
  | fail error => exact hsame (value_close_of_closed hclosed _)
  | close cause => exact hsame (value_close_of_closed hclosed cause)
  | transportFailed error =>
    exact hsame ((value_transportFailed c error).trans (value_close_of_closed hclosed _))
  | rememberImport typeName =>
    rw [perform, Connection.rememberImport]
    split <;> exact ⟨rfl, rfl, hclosed⟩
  | disturb refusal => exact ⟨rfl, rfl, hclosed⟩

theorem attempts_setState (c : Connection) (next : ConnectionState) (cause : Option String) :
    (c.setState next cause).value.channel.attempts = c.channel.attempts := by
  unfold setState
  split <;> rfl

theorem attempts_close (c : Connection) (cause : Option String) :
    (c.close cause).value.channel.attempts = c.channel.attempts := by
  unfold Connection.close
  split
  · rfl
  · simp only [Noted.value_bind, Noted.value_pure, Channel.attempts_close]
    exact attempts_setState c _ _

/-- A call on a suspended connection hands nothing over, except that a handshake which has not been
begun can still be begun: then the connection goes back to connecting before it greets the guest. -/
theorem attempts_perform_of_suspended (hsuspended : c.state = .suspended) (call : ConnectionCall)
    (now : Instant) : (c.perform call now).channel.attempts = c.channel.attempts ∨
      ∃ (hostName : String) (entered : Connection), call = .beginHandshake hostName ∧
        entered.state = .connecting ∧ entered.channel = c.channel ∧
        entered.transitions = c.transitions ++ [⟨.connecting, none⟩] ∧
        c.perform call now = (entered.sendControl (.hello hostName 0 false) now).value := by
  have hopen : c.isClosed = false := isClosed_eq_false_iff.2 (by simp [hsuspended])
  cases call with
  | beginHandshake hostName =>
    cases hstarted : c.started with
    | true =>
      refine .inl ?_
      rw [perform, value_beginHandshake_of_started hstarted]
    | false =>
      let started : Connection := { c with started := true, hostName := hostName }
      have hentered := value_setState_of_open (c := started) hopen .connecting none
      refine .inr ⟨hostName, (started.setState .connecting none).value, rfl,
        by rw [hentered], by rw [hentered], by rw [hentered], ?_⟩
      rw [perform, Connection.beginHandshake, if_neg (by simp [hstarted])]
      rfl
  | receive t =>
    refine .inl ?_
    rw [perform]
    rcases c.receive_effects t now with heq | ⟨cause, heq⟩ | ⟨hstate, -⟩ | ⟨hstate, -⟩
    · rw [heq]
    · rw [heq]
      exact attempts_close c cause
    · cases hsuspended.symm.trans hstate
    · cases hsuspended.symm.trans hstate
  | send t =>
    refine .inl ?_
    rw [perform, value_send_of_idle (.inr hsuspended)]
  | suspend =>
    refine .inl ?_
    rw [perform, Connection.suspend, if_neg (by simp [hsuspended])]
    rfl
  | resume =>
    refine .inl ?_
    rw [perform, Connection.resume, if_pos hsuspended]
    exact attempts_setState c _ _
  | fail error => exact .inl (attempts_close c _)
  | close cause => exact .inl (attempts_close c cause)
  | transportFailed error =>
    refine .inl ?_
    rw [perform, value_transportFailed]
    exact attempts_close c _
  | rememberImport typeName =>
    refine .inl ?_
    rw [perform, Connection.rememberImport]
    split <;> rfl
  | disturb refusal => exact .inl rfl

/-- A connection that sends is not suspended afterwards, whatever becomes of the transmission. -/
theorem send_ne_suspended (hactive : c.state ≠ .suspended) (t : Transmission) :
    (c.send t).value.state ≠ .suspended := by
  rcases (settles_send c t).state with hsame | hclosed
  · rwa [hsame]
  · simp [hclosed]

theorem setState_ne_suspended {next : ConnectionState} (hnext : next ≠ .suspended)
    (cause : Option String) : (c.setState next cause).value.state ≠ .suspended := by
  rw [state_setState]
  split
  · rename_i hclosed
    simp [isClosed_eq_true_iff.1 hclosed]
  · exact hnext

/-- Receiving something hands nothing over, unless it takes the connection to another state than
suspended. -/
theorem attempts_receive_of_suspends (t : Transmission) (now : Instant)
    (hsuspends : (c.receive t now).value.1.state = .suspended) :
    (c.receive t now).value.1.channel.attempts = c.channel.attempts := by
  rcases c.receive_effects t now with
    heq | ⟨cause, heq⟩ | ⟨-, name, preload, heq⟩ | ⟨-, heq⟩
  · rw [heq]
  · rw [heq]
    exact attempts_close c cause
  · rw [heq] at hsuspends
    refine absurd hsuspends (setState_ne_suspended ?_ none)
    cases preload <;> simp
  · rw [heq] at hsuspends
    exact absurd hsuspends (send_ne_suspended (setState_ne_suspended (by simp) none) _)

/-- A call that leaves a connection suspended hands nothing over. -/
theorem attempts_perform_of_suspends (call : ConnectionCall) (now : Instant)
    (hsuspends : (c.perform call now).state = .suspended) :
    (c.perform call now).channel.attempts = c.channel.attempts := by
  by_cases hbefore : c.state = .suspended
  · rcases attempts_perform_of_suspended hbefore call now with
      hnone | ⟨hostName, entered, -, hstate, -, -, hafter⟩
    · exact hnone
    · rw [hafter] at hsuspends
      exact absurd hsuspends (send_ne_suspended (by simp [hstate]) _)
  · cases call with
    | beginHandshake hostName =>
      cases hstarted : c.started with
      | true => rw [perform, value_beginHandshake_of_started hstarted]
      | false =>
        rw [perform, Connection.beginHandshake, if_neg (by simp [hstarted])] at hsuspends
        exact absurd hsuspends (send_ne_suspended (setState_ne_suspended (by simp) none) _)
    | receive t => exact attempts_receive_of_suspends t now hsuspends
    | send t => exact absurd hsuspends (send_ne_suspended hbefore t)
    | suspend =>
      rw [perform, Connection.suspend]
      split
      · exact attempts_setState c _ _
      · rfl
    | resume =>
      rw [perform, Connection.resume, if_neg hbefore]
      rfl
    | fail error => exact attempts_close c _
    | close cause => exact attempts_close c cause
    | transportFailed error =>
      rw [perform, value_transportFailed]
      exact attempts_close c _
    | rememberImport typeName =>
      rw [perform, Connection.rememberImport]
      split <;> rfl
    | disturb refusal => rfl

end Connection

/-! ## Any use of a connection -/

/-- A connection with the changes of state that were taken from it. -/
structure Account where
  /-- The connection. -/
  connection : Connection
  /-- The changes of state that were taken, in order. -/
  taken : List Transition

namespace Account

variable {a : Account}

/-- A connection over a new channel, whose transmissions fail as it pleases. -/
def opened (peer : PeerId) (endpoint : String)
    (refusal : List ChannelAction → Transmission → Option TransportError) : Account :=
  ⟨.ofChannel peer ⟨endpoint, refusal, []⟩, []⟩

/-- All changes of state, in order. -/
def changes (a : Account) : List Transition := a.taken ++ a.connection.transitions

/-- What was done with the channel, in order. -/
def trace (a : Account) : List ChannelAction := a.connection.channel.trace

/-- After one use. -/
def use (a : Account) (use : ConnectionUse) (now : Instant) : Account :=
  match use with
  | .call call => ⟨a.connection.perform call now, a.taken⟩
  | .take => ⟨a.connection.drained, a.taken ++ a.connection.transitions⟩

/-- After some uses, each at its own time. -/
def after (a : Account) (uses : List (ConnectionUse × Instant)) : Account :=
  uses.foldl (fun a use => a.use use.1 use.2) a

/-- Taking the changes of state that wait changes none of them. -/
theorem changes_take (a : Account) (now : Instant) : (a.use .take now).changes = a.changes := by
  simp [changes, use, Connection.drained]

theorem behaves_use (h : a.connection.Behaves a.taken) (use : ConnectionUse) (now : Instant) :
    (a.use use now).connection.Behaves (a.use use now).taken := by
  cases use with
  | call call => exact h.perform call now
  | take =>
    rw [Connection.Behaves]
    show Connection.Conduct a.connection.channel.trace (a.use .take now).changes a.connection.state
    rw [changes_take]
    exact h

theorem behaves_after (h : a.connection.Behaves a.taken)
    (uses : List (ConnectionUse × Instant)) :
    (a.after uses).connection.Behaves (a.after uses).taken := by
  induction uses generalizing a with
  | nil => exact h
  | cons use rest ih => exact ih (behaves_use h use.1 use.2)

theorem behaves_opened (peer : PeerId) (endpoint : String)
    (refusal : List ChannelAction → Transmission → Option TransportError) :
    (opened peer endpoint refusal).connection.Behaves [] :=
  .running [] (by simp [opened, Connection.ofChannel]) (by simp [opened, Connection.ofChannel])

/-- A use of a closed connection leaves its channel and all its changes of state alone. -/
theorem use_of_closed (hclosed : a.connection.isClosed = true) (use : ConnectionUse)
    (now : Instant) : (a.use use now).trace = a.trace ∧
      (a.use use now).changes = a.changes ∧ (a.use use now).connection.isClosed = true := by
  cases use with
  | call call =>
    obtain ⟨htrace, hqueue, hstill⟩ := Connection.perform_of_closed hclosed call now
    exact ⟨htrace, congrArg (a.taken ++ ·) hqueue, hstill⟩
  | take => exact ⟨rfl, changes_take a now, hclosed⟩

theorem after_of_closed (hclosed : a.connection.isClosed = true)
    (uses : List (ConnectionUse × Instant)) : (a.after uses).trace = a.trace ∧
      (a.after uses).changes = a.changes ∧ (a.after uses).connection.isClosed = true := by
  induction uses generalizing a with
  | nil => exact ⟨rfl, rfl, hclosed⟩
  | cons use rest ih =>
    obtain ⟨htrace, hchanges, hstill⟩ := use_of_closed hclosed use.1 use.2
    obtain ⟨htrace', hchanges', hstill'⟩ := ih hstill
    exact ⟨htrace'.trans htrace, hchanges'.trans hchanges, hstill'⟩

/-- What can be relied on after any use of a connection. -/
structure Disciplined (a : Account) : Prop where
  /-- The channel was closed once if the connection is closed, and not at all otherwise. -/
  closings : a.connection.channel.closeCount = if a.connection.isClosed then 1 else 0
  /-- Nothing was done with the channel after it was closed. -/
  last : ∀ before rest, a.trace = before ++ .closed :: rest → rest = []
  /-- Nothing but the closing came after a refusal, and its error is the recorded cause. -/
  refusal : ∀ before t error rest, a.trace = before ++ .refused t error :: rest →
    rest = [.closed] ∧ ∃ earlier,
      a.changes = earlier ++ [⟨.closed, some (BrokerError.transport error).message⟩]
  /-- The connection is closed if its last change of state says so. -/
  recorded : a.connection.isClosed = true ↔
    ∃ earlier cause, a.changes = earlier ++ [⟨.closed, cause⟩]
  /-- No change of state but the last is a closing. -/
  once : ∀ earlier t, a.changes = earlier ++ [t] → ∀ t' ∈ earlier, t'.closes = false
  /-- Once the connection is closed, nothing whatever adds to what was done with the channel or to
  the changes of state, nor alters them, nor opens the connection again. -/
  settled : a.connection.isClosed = true → ∀ uses, (a.after uses).trace = a.trace ∧
    (a.after uses).changes = a.changes ∧ (a.after uses).connection.isClosed = true
  /-- Nothing is handed over to the channel by what suspends the connection, nor by what is done
  with it while it is suspended; only a handshake that was never begun can be begun then, which
  takes the connection back to connecting before the guest is greeted. -/
  silent : ∀ use now,
    a.connection.state = .suspended ∨ (a.use use now).connection.state = .suspended →
      (a.use use now).connection.channel.attempts = a.connection.channel.attempts ∨
      ∃ (hostName : String) (entered : Connection), use = .call (.beginHandshake hostName) ∧
        entered.state = .connecting ∧ entered.channel = a.connection.channel ∧
        entered.transitions = a.connection.transitions ++ [⟨.connecting, none⟩] ∧
        (a.use use now).connection = (entered.sendControl (.hello hostName 0 false) now).value

theorem disciplined_of_behaves (h : a.connection.Behaves a.taken) : a.Disciplined where
  closings := by
    rw [Channel.closeCount, Connection.Conduct.countP_closed h]
    simp only [Connection.isClosed_eq_true_iff]
  last before rest htrace := Connection.Conduct.nil_of_closed h htrace
  refusal before t error rest htrace := Connection.Conduct.of_refused h htrace
  recorded := Connection.isClosed_eq_true_iff.trans (Connection.Conduct.closed_iff h)
  once earlier t hchanges := Connection.Conduct.closes_eq_false h hchanges
  settled hclosed uses := after_of_closed hclosed uses
  silent use now hsuspended := by
    cases use with
    | take => exact .inl rfl
    | call call =>
      rcases hsuspended with hbefore | hafter
      · rcases Connection.attempts_perform_of_suspended hbefore call now with
          hnone | ⟨hostName, entered, rfl, hentered⟩
        · exact .inl hnone
        · exact .inr ⟨hostName, entered, rfl, hentered⟩
      · exact .inl (Connection.attempts_perform_of_suspends call now hafter)

/-- **Channel discipline.** Whatever is done with a connection, in whatever order and however its
channel fails, the channel is closed once if the connection closes and otherwise never, nothing is
handed over to it after that or while the connection is suspended, and a refusal is the last
attempt and the recorded cause of the closing, which nothing later changes. -/
theorem disciplined_after (peer : PeerId) (endpoint : String)
    (refusal : List ChannelAction → Transmission → Option TransportError)
    (uses : List (ConnectionUse × Instant)) :
    ((opened peer endpoint refusal).after uses).Disciplined :=
  disciplined_of_behaves (behaves_after (behaves_opened peer endpoint refusal) uses)

end Account

end ObjectBus
