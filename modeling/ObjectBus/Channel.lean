import ObjectBus.Error
import ObjectBus.Protocol.Transmission

/-!
# Channels

The outgoing half of a connection. A channel remembers everything that was done with it, and
what it does with the next transmission may depend on all of that: its `refusal` is the way in
which a transport fails.
-/

namespace ObjectBus

/-- One thing done with a channel. -/
inductive ChannelAction where
  /-- A transmission was handed over and taken. -/
  | sent (t : Transmission)
  /-- A transmission was handed over and refused. -/
  | refused (t : Transmission) (error : TransportError)
  /-- The channel was closed. -/
  | closed
deriving DecidableEq

namespace ChannelAction

/-- The transmission that was taken. -/
def sent? : ChannelAction → Option Transmission
  | sent t => some t
  | _ => none

/-- Whether this closed the channel. -/
def isClosed : ChannelAction → Bool
  | closed => true
  | _ => false

end ChannelAction

/-- The outgoing half of a connection. -/
structure Channel where
  /-- The address of the other side, for people. -/
  endpoint : String
  /-- The error with which a transmission fails after what was done so far, if it does. -/
  refusal : List ChannelAction → Transmission → Option TransportError
  /-- What was done so far, in order. -/
  trace : List ChannelAction

namespace Channel

/-- The address of a side that has none. -/
def unknownEndpoint : String := "<unknown>"

/-- A channel that takes whatever it is given. -/
def reliable (endpoint : String) : Channel := ⟨endpoint, fun _ _ => none, []⟩

instance : Inhabited Channel := ⟨reliable unknownEndpoint⟩

/-- Whether the channel was closed. -/
def isClosed (c : Channel) : Bool := c.trace.any (·.isClosed)

/-- Refuse everything once closed. -/
def refuseOnceClosed (trace : List ChannelAction) (_ : Transmission) : Option TransportError :=
  if trace.any (·.isClosed) then some .closed else none

/-- A channel to a peer in the same process, which fails only once it is closed. -/
def inProcess (name : String) : Channel := ⟨"local:" ++ name, refuseOnceClosed, []⟩

/-- A channel over a network, which fails only once it is closed. -/
def network (address : String) : Channel := ⟨"tcp:" ++ address, refuseOnceClosed, []⟩

/-- From now on let every transmission fail with the given error, or none. -/
def failWith (c : Channel) (error : Option TransportError) : Channel :=
  { c with refusal := fun _ _ => error }

/-- Hand a transmission over. -/
def send (c : Channel) (t : Transmission) : Channel × Option TransportError :=
  match c.refusal c.trace t with
  | none => ({ c with trace := c.trace ++ [.sent t] }, none)
  | some error => ({ c with trace := c.trace ++ [.refused t error] }, some error)

/-- Stop taking transmissions. -/
def close (c : Channel) : Channel := { c with trace := c.trace ++ [.closed] }

/-- The transmissions that were taken, in order. -/
def sent (c : Channel) : List Transmission := c.trace.filterMap (·.sent?)

/-- How often the channel was closed. -/
def closeCount (c : Channel) : Nat := c.trace.countP (·.isClosed)

end Channel

end ObjectBus
