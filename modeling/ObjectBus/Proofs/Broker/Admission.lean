import ObjectBus.Proofs.Broker.Bystander
import ObjectBus.Proofs.Broker.Preload

/-!
# Guests whose channel does not fail

What a host does with a guest over a channel that does not fail, frame by frame: it greets the
guest, accepts it under its name, replays caches to it when it joins groups, and acknowledges that
it has finished preloading. Before the guest is connected it is handed nothing else. Once it is
connected live frames follow, and the first of them comes behind the answer that made it connected.

* `greeting`, `acceptance`, `acknowledgement`: the answers of the host;
* `Reachable.accept_steady`: the greeting;
* `Reachable.receive_name`, `Reachable.receive_join`, `Reachable.receive_leave`,
  `Reachable.receive_finish`: what follows a frame of the guest.
-/

namespace ObjectBus.Broker

variable {now : Instant} {b : Broker} {p : PeerId} {c c' : Connection} {t : Transmission}
variable {name group : String} {preload : Bool}

/-- The greeting of a host. -/
def greeting (hostName : String) (now : Instant) : Transmission :=
  .ofControl (.hello hostName 0 false) now

/-- The answer by which a host accepts a guest. -/
def acceptance (hostName : String) (p : PeerId) (preload : Bool) (now : Instant) : Transmission :=
  .ofControl (.connectResponse (some hostName) (some p) true preload false) now

/-- The answer to a guest that has finished preloading. -/
def acknowledgement (now : Instant) : Transmission := .ofControl .preloadFinished now

/-- The state in which a guest is accepted. -/
def stateAfterAcceptance (preload : Bool) : ConnectionState :=
  if preload then .earlySubscribe else .connected

theorem stateAfterAcceptance_running (preload : Bool) :
    stateAfterAcceptance preload ≠ .closed ∧ stateAfterAcceptance preload ≠ .suspended := by
  cases preload <;> simp [stateAfterAcceptance]

/-! ## Processing what waits -/

/-- A guest stands by while changes of state are processed, and in the end none of its own waits. -/
theorem standsBy_drain (hrests : (b.drain now).value.Rested)
    (hc : b.connections.find? p = some c) (hsteady : c.Steady) :
    ∃ c', (b.drain now).value.connections.find? p = some c' ∧ c'.Steady ∧
      ∃ frames, c' = { c with channel := c.channel.handed frames, transitions := [] } ∧
        (c.state ≠ .connected → frames = []) := by
  obtain ⟨c', hc', hstands⟩ := (keptInSilence_bystander p).drain b now c hc hsteady
  have hsteady' := hsteady.standsBy hstands
  obtain ⟨frames, queue, rfl, -, hframes⟩ := hstands
  obtain rfl : queue = [] := (hrests p _ hc').1
  exact ⟨_, hc', hsteady', frames, rfl, hframes⟩

/-- A frame with which the connection of its guest deals itself. -/
theorem Reachable.standsBy_hear (hb : b.Reachable) (hc : b.connections.find? p = some c)
    (hreceive : (c.receive t now).value = (c', .handled)) (hsteady : c'.Steady) :
    ∃ d, (b.perform (.receive p t) now).connections.find? p = some d ∧ d.Steady ∧
      ∃ frames, d = { c' with channel := c'.channel.handed frames, transitions := [] } ∧
        (c'.state ≠ .connected → frames = []) := by
  have hperform : b.perform (.receive p t) now = ((b.putConnection p c').drain now).value := by
    unfold Broker.perform Broker.receive
    simp only [hc, Noted.value_bind, Noted.value_pure, hreceive, acceptReceived]
  have hrests := (hb.perform (.receive p t) now).rested
  rw [hperform] at hrests ⊢
  exact standsBy_drain hrests (by simp) hsteady

/-! ## The answers -/

/-- A new guest is greeted and handed nothing else. -/
theorem Reachable.accept_steady (hb : b.Reachable) {channel : Channel}
    (hlossless : channel.Lossless) (hopen : channel.isClosed = false) (now : Instant) :
    ∃ c, (b.perform (.accept channel) now).connections.find? b.nextPeer = some c ∧ c.Steady ∧
      c.peer = b.nextPeer ∧ c.hostName = b.name ∧ c.state = .connecting ∧
      c.channel = channel.handed [greeting b.name now] := by
  let begun : Connection :=
    { Connection.ofChannel b.nextPeer channel with
      started := true
      hostName := b.name
      transitions := [⟨.connecting, none⟩] }
  have hstate : begun.state = .connecting := rfl
  have hbegun : begun.Steady := by
    refine ⟨by simp [hstate], hlossless, hopen, fun t ht => ?_⟩
    obtain rfl := List.mem_singleton.1 ht
    rfl
  have hgreeted : b.greeted channel now =
      { begun with channel := channel.handed [greeting b.name now] } :=
    hbegun.value_send (greeting b.name now)
  let arrived : Broker :=
    { b with nextPeer := b.nextPeer + 1 }.putConnection b.nextPeer (b.greeted channel now)
  have hperform : b.perform (.accept channel) now = (arrived.drain now).value := rfl
  have hrests := (hb.perform (.accept channel) now).rested
  have hsteady : (b.greeted channel now).Steady := hgreeted ▸ hbegun.handed _
  rw [hperform] at hrests ⊢
  obtain ⟨c, hfind, hsteady', frames, rfl, hframes⟩ :=
    standsBy_drain (p := b.nextPeer) hrests (by simp [arrived]) hsteady
  rw [hgreeted] at hframes
  -- It is not connected, so that nothing follows the greeting.
  obtain rfl := hframes (by simp [hstate])
  refine ⟨_, hfind, hsteady', ?_⟩
  rw [hgreeted, Channel.handed_nil]
  exact ⟨rfl, rfl, rfl, rfl⟩

/-- A guest that names itself is accepted, and handed nothing else before that. -/
theorem Reachable.receive_name (hb : b.Reachable) (hc : b.connections.find? p = some c)
    (hsteady : c.Steady) (hstate : c.state = .connecting) (hspace : t.header.isControl = true)
    (hpayload : t.payload = .control (.connectAs name preload)) (now : Instant) :
    ∃ c' frames, (b.perform (.receive p t) now).connections.find? p = some c' ∧ c'.Steady ∧
      c'.state = stateAfterAcceptance preload ∧
      c'.channel = c.channel.handed (acceptance c.hostName c.peer preload now :: frames) ∧
      (preload = true → frames = []) := by
  let named : Connection := { c with name := name }
  have hnamed : named.Steady := ⟨hsteady.running, hsteady.lossless, hsteady.intact, hsteady.queue⟩
  let answered : Connection :=
    { named with channel := c.channel.handed [acceptance c.hostName c.peer preload now] }
  have hanswered : answered.Steady := hnamed.handed _
  have haccept : (c.acceptConnect name preload now).value =
      (answered.setState (stateAfterAcceptance preload) none).value := by
    show ((named.send (acceptance c.hostName c.peer preload now)).value.setState _ none).value = _
    rw [hnamed.value_send]
    rfl
  have hreceive : (c.receive t now).value =
      ((answered.setState (stateAfterAcceptance preload) none).value, .handled) := by
    have hopen : c.isClosed = false := Connection.isClosed_eq_false_iff.2 hsteady.running.1
    rw [Connection.receive_of_message hopen hpayload hspace rfl, ← haccept]
    unfold Connection.receiveMessage
    rw [hstate]
    rfl
  have hentered := hanswered.setState (stateAfterAcceptance_running preload)
  obtain ⟨c', hfind, hsteady', frames, rfl, hframes⟩ := hb.standsBy_hear hc hreceive hentered
  have hvalue := Connection.value_setState_of_open (c := answered)
    (Connection.isClosed_eq_false_iff.2 hsteady.running.1) (stateAfterAcceptance preload) none
  refine ⟨_, frames, hfind, hsteady', ?_, ?_, fun hpreload => hframes ?_⟩
  · rw [hvalue]
  · rw [hvalue]
    exact Channel.handed_handed _ _ _
  · rw [hvalue, hpreload]
    simp [stateAfterAcceptance]

/-- A guest that has named itself and joins a group is handed what it missed. -/
theorem Reachable.receive_join (hb : b.Reachable) (hc : b.connections.find? p = some c)
    (hsteady : c.Steady) (hnamed : c.state = .earlySubscribe ∨ c.state = .connected)
    (hspace : t.header.isControl = true)
    (hpayload : t.payload = .control (.member group .join)) (now : Instant) :
    (b.perform (.receive p t) now).connections.find? p =
      some { c with channel := c.channel.handed (b.joinFrames group now) } := by
  have htakes := hsteady.lossless.takes hsteady.intact (b.joinFrames group now)
  rw [Broker.perform, hb.receive_of_join hc hnamed hspace hpayload htakes]
  simp

/-- A guest that has named itself and leaves a group is handed nothing. -/
theorem Reachable.receive_leave (hb : b.Reachable) (hc : b.connections.find? p = some c)
    (hnamed : c.state = .earlySubscribe ∨ c.state = .connected)
    (hspace : t.header.isControl = true)
    (hpayload : t.payload = .control (.member group .leave)) (now : Instant) :
    (b.perform (.receive p t) now).connections.find? p = some c := by
  have hopen := (hb.rested p c hc).2
  have hreceive : (c.receive t now).value = (c, .control (.member group .leave)) := by
    rw [Connection.receive_of_message hopen hpayload hspace rfl]
    unfold Connection.receiveMessage
    rcases hnamed with hstate | hstate <;> rw [hstate] <;> rfl
  let left : Broker := { b with groups := (b.groups.leave group p).value.1 }
  have hleft : (b.changeMembership p group .leave now).value = (left, .ok ()) := rfl
  -- Nothing was queued, so that there is nothing to process.
  have hrests : left.Rested := hb.rested
  have hperform : b.perform (.receive p t) now = left := by
    unfold Broker.perform Broker.receive
    simp only [hc, Noted.value_bind, Noted.value_pure, hreceive, putConnection_self hc,
      acceptReceived, acceptRequest, hleft, settle, drain_of_rested hrests now]
  rw [hperform]
  exact hc

/-- A preloading guest that has finished is connected and handed the acknowledgement, ahead of
whatever else it is handed from then on. -/
theorem Reachable.receive_finish (hb : b.Reachable) (hc : b.connections.find? p = some c)
    (hsteady : c.Steady) (hearly : c.state = .earlySubscribe) (hspace : t.header.isControl = true)
    (hpayload : t.payload = .control .preloadClientFinished) (now : Instant) :
    ∃ c' frames, (b.perform (.receive p t) now).connections.find? p = some c' ∧ c'.Steady ∧
      c'.state = .connected ∧
      c'.channel = c.channel.handed (acknowledgement now :: frames) := by
  have hentered : (c.setState .connected none).value.Steady := hsteady.setState (by simp)
  have hfinish : (c.finishPreload now).value =
      { (c.setState .connected none).value with
        channel := (c.setState .connected none).value.channel.handed [acknowledgement now] } :=
    hentered.value_send (acknowledgement now)
  have hreceive : (c.receive t now).value = ((c.finishPreload now).value, .handled) :=
    receive_finishing hearly hspace hpayload rfl
  have hfinished : (c.finishPreload now).value.Steady := hfinish ▸ hentered.handed _
  obtain ⟨c', hfind, hsteady', frames, rfl, -⟩ := hb.standsBy_hear hc hreceive hfinished
  have hvalue := Connection.value_setState_of_open
    (Connection.isClosed_eq_false_iff.2 hsteady.running.1) .connected none
  refine ⟨_, frames, hfind, hsteady', ?_, ?_⟩
  · rw [hfinish, hvalue]
  · rw [hfinish, hvalue]
    exact Channel.handed_handed _ _ _

end ObjectBus.Broker
