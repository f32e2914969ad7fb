import ObjectBus.Proofs.Broker.Soundness

/-!
# How connections evolve

Between two states of a broker a connection makes turns. In most of them its name, its state and
its queue stay as they are; in the others it enters a state, perhaps under a new name, and queues
that change. So the last change that waits is the one to the present state, and a name never
changes without a change of state that goes with it.

* `Connection.Turn`, `Connection.Evolves`: one turn, and any number of them;
* `Step.evolves`: what a step does to the connection of a peer;
* `Reachable.state_ne_suspended`: no connection of a broker is ever suspended.
-/

namespace ObjectBus

open Relation (ReflTransGen)

namespace Connection

variable {c c' : Connection} {now : Instant}

/-- One turn of a connection. -/
inductive Turn (c c' : Connection) : Prop
  /-- Neither the name nor the state nor the queue changes. -/
  | stay (hname : c'.name = c.name) (hstate : c'.state = c.state)
      (hqueue : c'.transitions = c.transitions)
  /-- An open connection enters a state and queues that. -/
  | enter (t : Transition) (hopen : c.isClosed = false) (hstate : c'.state = t.state)
      (hqueue : c'.transitions = c.transitions ++ [t]) (hruns : t.state ≠ .suspended)

/-- Any number of turns. -/
abbrev Evolves : Connection → Connection → Prop := ReflTransGen Turn

theorem Evolves.stay (hname : c'.name = c.name) (hstate : c'.state = c.state)
    (hqueue : c'.transitions = c.transitions) : c.Evolves c' :=
  .single (.stay hname hstate hqueue)

/-- A connection that evolves without being suspended is not suspended afterwards. -/
theorem Evolves.state_ne_suspended (h : c.Evolves c') (hc : c.state ≠ .suspended) :
    c'.state ≠ .suspended := by
  induction h with
  | refl => exact hc
  | tail _ hturn ih =>
    cases hturn with
    | stay _ hstate _ => rwa [hstate]
    | enter t _ hstate _ hruns => rwa [hstate]

/-! ## The turns of each operation -/

theorem value_setState_of_open (hopen : c.isClosed = false) (state : ConnectionState)
    (cause : Option String) : (c.setState state cause).value =
      { c with state := state, transitions := c.transitions ++ [⟨state, cause⟩] } := by
  unfold setState
  rw [if_neg (by simp [hopen])]
  rfl

theorem value_close_of_open (hopen : c.isClosed = false) (cause : Option String) :
    (c.close cause).value =
      { c with
        state := .closed
        transitions := c.transitions ++ [⟨.closed, cause⟩]
        channel := c.channel.close } := by
  unfold close
  rw [if_neg (by simp [hopen])]
  simp only [Noted.value_bind, Noted.value_pure, value_setState_of_open hopen]

theorem evolves_setState (c : Connection) {state : ConnectionState} (hruns : state ≠ .suspended)
    (cause : Option String) : c.Evolves (c.setState state cause).value := by
  by_cases hclosed : c.isClosed = true
  · unfold setState
    rw [if_pos hclosed]
    exact .refl
  · have hopen : c.isClosed = false := by simpa using hclosed
    rw [value_setState_of_open hopen]
    exact .single (.enter ⟨state, cause⟩ hopen rfl rfl hruns)

theorem evolves_close (c : Connection) (cause : Option String) :
    c.Evolves (c.close cause).value := by
  by_cases hclosed : c.isClosed = true
  · unfold close
    rw [if_pos hclosed]
    exact .refl
  · have hopen : c.isClosed = false := by simpa using hclosed
    rw [value_close_of_open hopen]
    exact .single (.enter ⟨.closed, cause⟩ hopen rfl rfl (by simp))

theorem evolves_send (c : Connection) (t : Transmission) : c.Evolves (c.send t).value := by
  rcases c.send_cases t with ⟨hsame, -⟩ | ⟨-, ⟨channel, heq, -⟩ | ⟨channel, error, heq, -⟩⟩
  · rw [hsame]
  · rw [heq]
    exact .stay rfl rfl rfl
  · have hchannel : c.Evolves { c with channel := channel } := .stay rfl rfl rfl
    rw [heq, value_transportFailed]
    exact hchannel.trans (evolves_close _ _)

theorem evolves_foldl_send (ts : List Transmission) (c : Connection) :
    c.Evolves (ts.foldl (fun c t => (c.send t).value) c) := by
  induction ts generalizing c with
  | nil => exact .refl
  | cons t rest ih => exact (evolves_send c t).trans (ih (c.send t).value)

/-- Accepting a guest gives it its name and its state in one turn, or closes the connection under
that name. -/
theorem evolves_acceptConnect (hstate : c.state = .connecting) (name : String) (preload : Bool)
    (now : Instant) : c.Evolves (c.acceptConnect name preload now).value := by
  let named : Connection := { c with name := name }
  let response : Transmission :=
    .ofControl (.connectResponse (some c.hostName) (some c.peer) true preload false) now
  let next : ConnectionState := if preload then .earlySubscribe else .connected
  have hopen : c.isClosed = false := isClosed_eq_false_iff.2 (by simp [hstate])
  have hnext : next ≠ .suspended := by
    cases preload <;> simp [next]
  show c.Evolves ((named.send response).value.setState next none).value
  rcases named.send_cases response with ⟨-, hover⟩ | ⟨-, ⟨channel, heq, -⟩ |
    ⟨channel, error, heq, -⟩⟩
  · exact absurd hover (by simp [named, hstate])
  · have hopen' : Connection.isClosed { named with channel := channel } = false := hopen
    rw [heq, value_setState_of_open hopen']
    exact .single (.enter ⟨next, none⟩ hopen rfl rfl hnext)
  · -- The channel refused, and a connection that has closed enters no other state.
    have hopen' : Connection.isClosed { named with channel := channel } = false := hopen
    rw [heq, value_transportFailed, value_close_of_open hopen']
    exact .single (.enter ⟨.closed, _⟩ hopen rfl rfl (by simp))

theorem evolves_receiveMessage (c : Connection) (h : Header) (message : ControlMessage)
    (now : Instant) : c.Evolves (c.receiveMessage h message now).value.1 := by
  unfold receiveMessage
  split
  · rename_i hstate
    split
    · exact evolves_acceptConnect hstate _ _ now
    · exact .refl
  · split
    · exact (evolves_setState c (by simp) none).trans (evolves_send _ _)
    · exact .refl
  · exact .refl
  · exact .refl
  · exact .refl

/-- Hearing what the guest sent. -/
theorem evolves_receive (c : Connection) (t : Transmission) (now : Instant) :
    c.Evolves (c.receive t now).value.1 := by
  unfold receive
  split
  · exact .refl
  · simp only
    split
    · exact .refl
    · split
      · split
        · unfold peerReported
          split <;> exact evolves_close c _
        · exact evolves_receiveMessage c _ _ now
      · exact .refl

theorem Acts.evolves (h : c.Acts now c') : c.Evolves c' := by
  cases h with
  | tell messages => exact evolves_foldl_send _ c
  | close cause => exact evolves_close c cause
  | rememberImport typeName =>
    unfold Connection.rememberImport
    split
    · exact .refl
    · exact .stay rfl rfl rfl
  | disturb refusal => exact .stay rfl rfl rfl

end Connection

namespace Broker

variable {call : BrokerCall} {now : Instant} {b b' : Broker} {peer : PeerId} {c : Connection}

/-- A step leaves every connection in the table and lets it evolve, except that a new guest takes
the place of its number. -/
theorem Step.evolves (h : Step call now b b') (peer : PeerId) :
    (∃ channel, call = .accept channel ∧ peer = b.nextPeer ∧
      b'.connections.find? peer = some (b.greeted channel now)) ∨
    Option.Rel Connection.Evolves (b.connections.find? peer) (b'.connections.find? peer) :=
  h.connection_of Connection.evolves_foldl_send (fun _ _ hact => hact.evolves)
    fun t c _ => c.evolves_receive t now

/-- No connection of a broker is ever suspended. -/
theorem Reachable.state_ne_suspended (hb : b.Reachable)
    (hc : b.connections.find? peer = some c) : c.state ≠ .suspended := by
  have hall : ∀ peer c, b.connections.find? peer = some c → c.state ≠ .suspended := by
    refine Reachable.induction (I := fun b => ∀ peer c,
      b.connections.find? peer = some c → c.state ≠ .suspended) ?_ ?_ ?_ ?_ ?_ hb
    · intro registry name eventCapacity _ peer c hc
      cases hc
    · exact fun hI _ => hI
    · intro call now b b' hI h peer c' hc'
      rcases h.evolves peer with ⟨channel, -, -, hfresh⟩ | hrel
      · obtain rfl : b.greeted channel now = c' := Option.some.inj (hfresh.symm.trans hc')
        rcases Connection.state_beginHandshake b.nextPeer channel b.name now with hstate | hstate
        · simp [greeted, hstate]
        · simp [greeted, hstate]
      · obtain ⟨c, hc, hevolves⟩ := exists_before_of_rel hrel hc'
        exact hevolves.state_ne_suspended (hI peer c hc)
    · intro b hI peer c' hc'
      rw [find?_takePending, Option.map_eq_some_iff] at hc'
      obtain ⟨c, hc, rfl⟩ := hc'
      exact hI peer c hc
    · intro b peer hI _ q c hc
      rw [find?_setAside] at hc
      split at hc
      · cases hc
      · exact hI q c hc
  exact hall peer c hc

end Broker

end ObjectBus
