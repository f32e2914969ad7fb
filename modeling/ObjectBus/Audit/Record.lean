import ObjectBus.Audit.Note
import ObjectBus.Json.Text
import ObjectBus.Schema.Definition

/-!
# Records of the audit log

A record is what is kept of one note: when and by which broker it was made, and what it says.
The peer and the group that a note names stand in columns of their own, so that a log can be
searched for them; everything else that belongs to the note is kept as JSON.

A record is written as a JSON object on one line. Columns that are empty are left out.
-/

namespace ObjectBus

/-- One record of an audit log. -/
structure AuditRecord where
  /-- The time, as text. -/
  time : String
  /-- The level, as text. -/
  level : String
  /-- The name of the broker. -/
  broker : String
  /-- The part of the library that made the note. -/
  target : String
  /-- What the note says. -/
  message : String
  /-- The peer that the note is about. -/
  peer : Option UInt64 := none
  /-- The group that the note is about. -/
  group : Option String := none
  /-- The other fields, by name. -/
  fields : SortedMap String Json := .empty

namespace AuditRecord

/-! ## From notes -/

/-- Keep a field of a note as JSON. -/
def keep (r : AuditRecord) (name : String) (j : Json) : AuditRecord :=
  { r with fields := r.fields.insert name j }

/-- Keep a text, in the column for it if there is one. -/
def takeText (r : AuditRecord) (name text : String) : AuditRecord :=
  if name = "message" then { r with message := text }
  else if name = "group" then { r with group := some text }
  else r.keep name (.string text)

/-- Keep one field of a note. A peer is a number from zero upwards, a double that is not finite
is dropped, and the wording of an error never fills a column. -/
def take (r : AuditRecord) (name : String) : NoteValue → AuditRecord
  | .signed n =>
    if name = "peer" ∧ 0 ≤ n then { r with peer := some n.toUInt64 } else r.keep name (.ofInt64 n)
  | .unsigned n =>
    if name = "peer" then { r with peer := some n } else r.keep name (.ofUInt64 n)
  | .float x => if x.isFinite then r.keep name (.ofBinary64 x) else r
  | .truth b => r.keep name (.bool b)
  | .text s => r.takeText name s
  | .shown s => r.takeText name s
  | .failure s => r.keep name (.string s)

/-- The target of the notes of a part of the library. -/
def targetOf (topic : String) : String := "tidewire_core::" ++ topic

/-- The record of a note. -/
def ofNote (time broker : String) (n : Note) : AuditRecord :=
  n.fields.foldl (fun r f => r.take f.1 f.2)
    { time := time, level := n.level.text, broker := broker, target := targetOf n.topic
      message := "" }

/-! ## As text -/

/-- The record as JSON. -/
def toJson (r : AuditRecord) : Json :=
  .object ([("ts", .string r.time), ("level", .string r.level), ("broker", .string r.broker),
      ("target", .string r.target), ("msg", .string r.message)] ++
    (r.peer.map fun n => ("peer", Json.ofUInt64 n)).toList ++
    (r.group.map fun s => ("group", Json.string s)).toList ++
    if r.fields.isEmpty then [] else [("fields", .object r.fields.toList)])

/-- The line for a record, without its end. -/
def line (r : AuditRecord) : String := r.toJson.text

/-- Read a column that may be null. -/
def column? (read : Json.Tree → Option α) (t : Json.Tree) : Option (Option α) :=
  if t.isNull then some none else (read t).map some

/-- Read the fields of a record. -/
def fieldsOfTree? : Json.Tree → Option (SortedMap String Json)
  | .object members => (Json.ofPairs? (Json.Tree.depthLimit - 2) members).map .ofList
  | _ => none

/-- Read a record. -/
def ofTree? (t : Json.Tree) : Option AuditRecord := do
  match ← t.fields? ["ts", "level", "broker", "target", "msg", "peer", "group", "fields"] with
  | [time, level, broker, target, message, peer, group, fields] =>
    pure {
      time := ← Json.Tree.required Json.Tree.text? time
      level := ← Json.Tree.required Json.Tree.text? level
      broker := ← Json.Tree.required Json.Tree.text? broker
      target := ← Json.Tree.required Json.Tree.text? target
      message := ← Json.Tree.required Json.Tree.text? message
      peer := ← Json.Tree.optional (column? Json.Tree.uint64?) none peer
      group := ← Json.Tree.optional (column? Json.Tree.text?) none group
      fields := ← Json.Tree.optional fieldsOfTree? .empty fields }
  | _ => none

/-- Read the record of a line. -/
def ofLine? (line : String) : Option AuditRecord := (Json.Tree.ofText? line).bind ofTree?

end AuditRecord

end ObjectBus
