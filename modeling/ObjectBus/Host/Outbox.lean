import ObjectBus.Host

/-!
# What a host has to carry

A host hands transmissions to the channels of its guests. Whoever carries them takes them from
there and lets the host forget them, so that a host that runs for long does not grow.
-/

namespace ObjectBus

/-- What has to be carried to a guest. -/
structure Outgoing where
  /-- The guest. -/
  peer : PeerId
  /-- The transmissions for it, in order. -/
  transmissions : List Transmission
  /-- Whether its channel is closed behind them. -/
  isClosed : Bool

namespace Channel

/-- A channel without its history, as open or closed as before. -/
def forgotten (c : Channel) : Channel :=
  { c with trace := if c.isClosed then [.closed] else [] }

end Channel

namespace Broker

/-- The channels of all guests, also of those whose connections are gone. -/
def channels (b : Broker) : List (PeerId × Channel) :=
  (b.connections.toList ++ b.closed.toList).map (fun x => (x.1, x.2.channel)) ++
    b.released.toList

/-- A broker without the history of its channels, events and subscribers. -/
def forgotten (b : Broker) : Broker :=
  let quiet (t : ConnectionTable) : ConnectionTable :=
    t.map fun _ c => { c with channel := c.channel.forgotten }
  { b with
    connections := quiet b.connections
    closed := quiet b.closed
    released := .empty
    events := []
    dispatcher := { b.dispatcher with told := [] } }

end Broker

namespace Host

/-- What has to be carried to each guest. -/
def outgoing (h : Host) : List Outgoing :=
  h.broker.channels.filterMap fun x =>
    let o : Outgoing := ⟨x.1, x.2.sent, x.2.isClosed⟩
    if o.transmissions.isEmpty && !o.isClosed then none else some o

/-- The host once everything has been taken from it. -/
def forgotten (h : Host) : Host := { h with broker := h.broker.forgotten }

end Host

end ObjectBus
