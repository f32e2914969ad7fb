import ObjectBus.Broker.Types
import ObjectBus.Schema.Definition
import ObjectBus.Text.Blank

/-!
# Configuration

What a host is told at startup, read from a JSON file in which every field may be missing.
-/

namespace ObjectBus

/-- The address on which a host listens, unless told otherwise. -/
def defaultListenAddress : String := "127.0.0.1:11235"

/-- The configuration of a host. -/
structure Config where
  /-- The name under which the host greets guests. -/
  name : String := "tidewire"
  /-- The address on which it listens. -/
  listen : String := defaultListenAddress
  /-- The time between two sweeps, in milliseconds. -/
  sweepInterval : UInt64 := 1000
  /-- How many events an observer may leave unread. -/
  eventCapacity : UInt64 := UInt64.ofNat defaultEventCapacity
  /-- The struct types known from the start. -/
  structs : List StructSchema := []
  /-- The enum types known from the start. -/
  enums : List EnumSchema := []
deriving DecidableEq

namespace Config

open Json (Tree)

/-- Read a configuration, with arrays and objects nested at most `depth` deep. -/
def ofTree? (depth : Nat) (t : Tree) : Option Config := do
  let standard : Config := {}
  match ← t.fields?
    ["name", "listen", "sweep_interval_ms", "event_capacity", "schemas", "enums"] with
  | [name, listen, sweepInterval, eventCapacity, structs, enums] =>
    pure {
      name := ← Tree.optional Tree.text? standard.name name
      listen := ← Tree.optional Tree.text? standard.listen listen
      sweepInterval := ← Tree.optional Tree.uint64? standard.sweepInterval sweepInterval
      eventCapacity := ← Tree.optional Tree.uint64? standard.eventCapacity eventCapacity
      structs := ← Tree.optional (Tree.list? (StructSchema.ofTree? (depth - 2))) [] structs
      enums := ← Tree.optional (Tree.list? EnumSchema.ofTree?) [] enums }
  | _ => none

/-- Read a configuration from a JSON text. -/
def ofText? (s : String) : Option Config := (Tree.ofText? s).bind (ofTree? Tree.depthLimit)

/-- The configuration as JSON. -/
def toJson (c : Config) : Json :=
  .object [("name", .string c.name), ("listen", .string c.listen),
    ("sweep_interval_ms", .ofUInt64 c.sweepInterval),
    ("event_capacity", .ofUInt64 c.eventCapacity),
    ("schemas", .array (c.structs.map StructSchema.toJson)),
    ("enums", .array (c.enums.map EnumSchema.toJson))]

/-- What is wrong with a configuration. -/
def fault? (c : Config) : Option ConfigFault :=
  if Text.allBlank c.name then some .blankName
  else if c.sweepInterval = 0 then some .zeroSweepInterval
  else if c.eventCapacity = 0 then some .zeroEventCapacity
  else none

/-- Check that a configuration makes sense. -/
def validate (c : Config) : Outcome Unit :=
  match c.fault? with
  | some fault => .error (.config fault)
  | none => .ok ()

/-- Read the configuration file of a path from its bytes, if it exists. -/
def load (path : String) (file : Option ByteArray) : Outcome Config :=
  match file with
  | none => .error .noSuchFile
  | some bytes =>
    match String.fromUTF8? bytes with
    | none => .error .notText
    | some text =>
      match ofText? text with
      | none => .error (.config (.notReadable path))
      | some c => c.validate.map fun _ => c

/-- The registry of the built-in and the configured types. -/
def registry (c : Config) : Outcome Registry := do
  let r ← c.enums.foldlM (fun r s => (Registry.registerEnum r s).map (·.1)) Registry.builtin
  c.structs.foldlM (fun r s => (Registry.registerStruct r s).map (·.1)) r

/-- Build the broker that a configuration describes. -/
def buildBroker (c : Config) (now : Instant) : Noted (Outcome Broker) :=
  match c.validate with
  | .error e => pure (.error e)
  | .ok () =>
    match c.registry with
    | .error e => pure (.error e)
    | .ok r => do
      Noted.note .info "config" "building broker"
        [("name", .shown c.name), ("structs", .count c.structs.length),
          ("enums", .count c.enums.length)]
      let b ← Broker.ofRegistry c.name r c.eventCapacity.toNat now
      pure (.ok b)

end Config

end ObjectBus
