import ObjectBus.Error
import ObjectBus.Inspection
import ObjectBus.Protocol.Transmission
import ObjectBus.Schema.Definition
import ObjectBus.Schema.Registry

/-!
# What the program prints

The lines for what a watcher receives, for the types that a host knows, and for failures with
their causes.
-/

namespace ObjectBus.CommandLine

/-! ## Transmissions -/

/-- The word for what a transmission of an object does. -/
def operationWord (h : Header) : String :=
  if h.remove then "remove" else if h.fromCache.isSome then "cached" else "update"

/-- An object by the names of its properties, or as it is if its type is not known. -/
def objectText (r : Registry) (o : Object) : String :=
  match r.findStruct? o.typeName with
  | some schema => (schema.objectToJson o).text
  | none => o.inspected

/-- The line for a transmission, if it has one. -/
def transmissionLine? (r : Registry) (t : Transmission) : Option String :=
  match t.payload with
  | .object o => some (o.typeName ++ " " ++ operationWord t.header ++ " " ++ objectText r o)
  | .control (.cacheInfo (some typeName) true _) => some (typeName ++ " end-of-replay")
  | .control _ => none

/-! ## Types -/

/-- A tag at the right end of two places. -/
def tagText (tag : Tag) : String :=
  let s := toString tag.toNat
  if s.length < 2 then " " ++ s else s

/-- The line for a property. -/
def propertyLine (p : PropertySchema) : String :=
  "  " ++ tagText p.tag ++ " " ++ p.name ++ (if p.key then " (key)" else "") ++ ": " ++ p.kind.text

/-- The lines for a type. -/
def schemaLines (s : StructSchema) : List String :=
  (s.name ++ " [" ++ s.flags.text ++ "]") :: s.properties.map propertyLine

/-- The lines for the types that a host knows. -/
def schemasLines (structs : List StructSchema) (asJson : Bool) : List String :=
  if asJson then (Json.array (structs.map StructSchema.toJson)).spreadText.splitOn "\n"
  else if structs.isEmpty then ["No types found."]
  else structs.flatMap schemaLines

/-! ## Failures -/

/-- Why the program fails. -/
inductive Failure where
  /-- An operation of the library failed. -/
  | broker (e : BrokerError)
  /-- The object to be published is not written as JSON. -/
  | objectNotJson
  /-- The host does not know the type of the object. -/
  | typeNotKnown (typeName : String)
  /-- The configuration cannot be used. -/
  | configuration (path : String) (e : BrokerError)
  /-- The host cannot listen, in the words of the system. -/
  | listen (address text : String)
  /-- The audit log cannot be opened, in the words of the system. -/
  | auditLog (directory text : String)

namespace Failure

/-- The wordings of a transport error and of its cause. -/
def transportChain (e : TransportError) : List String :=
  match e with
  | .io text => [e.message, text]
  | _ => [e.message]

/-- The wordings of an error and of its causes, the error first. -/
def errorChain (e : BrokerError) : List String :=
  match e with
  | .transport t => e.message :: transportChain t
  | .io text => [e.message, text]
  | _ => [e.message]

/-- The wordings of a failure and of its causes, the failure first. -/
def chain : Failure → List String
  | broker e => errorChain e
  | objectNotJson => ["object must be valid JSON", "not a JSON text"]
  | typeNotKnown typeName => ["host does not know type '" ++ typeName ++ "'"]
  | configuration path e => ("failed to load config " ++ path) :: errorChain e
  | listen address text => ["failed to listen on " ++ address, text]
  | auditLog directory text => ["failed to open audit log in " ++ directory, text]

/-- The lines of a text behind a mark. Those after the first are indented as far as the mark. -/
def marked (mark text : String) : List String :=
  match text.splitOn "\n" with
  | [] => []
  | line :: rest => (mark ++ line) :: rest.map fun line => "".pushn ' ' mark.length ++ line

/-- Causes, numbered from the given number on. -/
def numbered (n : Nat) : List String → List String
  | [] => []
  | cause :: rest => marked ("    " ++ toString n ++ ": ") cause ++ numbered (n + 1) rest

/-- The lines for the causes of a failure. Several causes are numbered. -/
def causeLines : List String → List String
  | [] => []
  | [cause] => ["", "Caused by:"] ++ marked "    " cause
  | causes => ["", "Caused by:"] ++ numbered 0 causes

/-- The lines for a failure. -/
def lines (f : Failure) : List String :=
  match f.chain with
  | [] => []
  | message :: causes => ("Error: " ++ message).splitOn "\n" ++ causeLines causes

end Failure

end ObjectBus.CommandLine
