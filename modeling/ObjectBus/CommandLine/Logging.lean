import ObjectBus.Audit.Log
import ObjectBus.Number.Shortest
import ObjectBus.Time.Clock

/-!
# Logging

Where the notes of a running program go: to its error output and, if it keeps one, to its audit
log.
-/

namespace ObjectBus.CommandLine

/-! ## Lines for people -/

/-- The rank of a level: the higher, the more it matters. -/
def levelRank : NoteLevel → Nat
  | .trace => 0
  | .debug => 1
  | .info => 2
  | .warn => 3
  | .error => 4

/-- Whether a program that is to tell so much shows notes of a level. -/
def isShown (verbosity : Nat) (level : NoteLevel) : Bool := 3 - verbosity ≤ levelRank level

/-- The name of a level, in five places. -/
def levelText (level : NoteLevel) : String :=
  let name := level.text.map Char.toUpper
  "".pushn ' ' (5 - name.length) ++ name

/-- A value for people. -/
def valueText : NoteValue → String
  | .signed n => toString n.toInt
  | .unsigned n => toString n.toNat
  | .float x => NumberStyle.inspected.text x
  | .truth b => if b then "true" else "false"
  | .text s => Text.quoted s
  | .shown s => s
  | .failure s => s

/-- The line for a note. -/
def noteLine (now : Instant) (n : Note) : String :=
  let said := n.fields.map fun f =>
    if f.1 = "message" then valueText f.2 else f.1 ++ "=" ++ valueText f.2
  now.logText ++ " " ++ levelText n.level ++ " " ++ AuditRecord.targetOf n.topic ++ ": " ++
    " ".intercalate said

/-! ## Writing -/

/-- Where notes go. -/
structure Logging where
  /-- How much is told. -/
  verbosity : Nat
  /-- The name of the broker and the file of its audit log, if it keeps one. -/
  audit : Option (String × IO.FS.Handle)

namespace Logging

/-- Open the audit log of a broker for today. -/
def openAudit (directory broker : String) : IO IO.FS.Handle := do
  IO.FS.createDirAll directory
  let date := ((← Date.today).map fun d => String.ofList d.text).getD ""
  IO.FS.Handle.mk (directory ++ "/" ++ AuditLog.fileName date broker) .append

/-- Write a note. A failure to write never stops the program. -/
def write (l : Logging) (n : Note) : IO Unit := do
  if isShown l.verbosity n.level then
    let now ← Instant.now
    try (← IO.getStderr).putStrLn (noteLine now n) catch _ => pure ()
    match l.audit with
    | none => pure ()
    | some (broker, file) =>
      try
        file.putStr (AuditLog.append "" (AuditRecord.ofNote now.logText broker n))
        file.flush
      catch _ => pure ()

/-- Go on with a value once its notes are written. -/
def keep (l : Logging) (x : Noted α) : IO α := do
  x.notes.forM l.write
  pure x.value

end Logging

end ObjectBus.CommandLine
