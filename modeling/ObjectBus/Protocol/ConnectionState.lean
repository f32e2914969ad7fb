/-!
# Connection states

The states of a guest's connection, their numbers in peer-state records and their names.
-/

namespace ObjectBus

/-- The state of a connection in its protocol. -/
inductive ConnectionState where
  /-- The guest has been greeted and has not named itself. -/
  | connecting
  /-- The guest joins groups and receives their cached objects before live traffic. -/
  | earlySubscribe
  /-- The guest takes part fully. -/
  | connected
  /-- Delivery to the guest is paused. -/
  | suspended
  /-- The connection is over. -/
  | closed
deriving DecidableEq, Repr, Inhabited

namespace ConnectionState

/-- All states in the order of their numbers. -/
def all : List ConnectionState := [connecting, earlySubscribe, connected, suspended, closed]

/-- The number of a state. -/
def toEnumerator : ConnectionState → Int32
  | connecting => 0
  | earlySubscribe => 1
  | connected => 2
  | suspended => 3
  | closed => 4

/-- The state with the given number. -/
def ofEnumerator? (n : Int32) : Option ConnectionState := all.find? fun s => s.toEnumerator == n

/-- The name of a state. -/
def text : ConnectionState → String
  | connecting => "connecting"
  | earlySubscribe => "early_subscribe"
  | connected => "connected"
  | suspended => "suspended"
  | closed => "closed"

/-- Whether traffic of a group is offered to a connection in this state. -/
def receivesFanout : ConnectionState → Bool
  | connected => true
  | suspended => true
  | _ => false

/-- A state can be read back from its number. -/
@[simp]
theorem ofEnumerator?_toEnumerator (s : ConnectionState) :
    ofEnumerator? s.toEnumerator = some s := by
  cases s <;> rfl

end ConnectionState

/-- The number of a peer. -/
abbrev PeerId := UInt32

/-- The number of the host itself. Guests are numbered from the next one on. -/
def hostId : PeerId := 1

end ObjectBus
