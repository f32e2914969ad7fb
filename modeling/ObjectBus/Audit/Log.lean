import ObjectBus.Audit.Record
import ObjectBus.Error

/-!
# Audit logs

An audit log is a file of records, one on each line. Lines that are no record are skipped on
reading, so that a log with a damaged line remains of use.
-/

namespace ObjectBus.AuditLog

/-- The name of the file of a broker for a day. -/
def fileName (date broker : String) : String := date ++ "_" ++ broker ++ ".jsonl"

/-- The contents of a log after one more record. -/
def append (contents : String) (r : AuditRecord) : String := contents ++ r.line ++ "\n"

/-- The contents of a log after more records. -/
def appendAll (contents : String) (records : List AuditRecord) : String :=
  records.foldl append contents

/-- The lines of a text. A text need not end with the end of a line. -/
def splitLines : List Char → List (List Char)
  | [] => []
  | '\n' :: rest => [] :: splitLines rest
  | c :: rest =>
    -- The character belongs to the first line of the rest, which may not have begun yet.
    match splitLines rest with
    | [] => [[c]]
    | line :: more => (c :: line) :: more

/-- A line without the carriage return at its end, if it has one. -/
def dropReturn (line : List Char) : List Char :=
  if line.getLast? = some '\r' then line.dropLast else line

/-- The lines of a text. -/
def lines (contents : String) : List String :=
  (splitLines contents.toList).map fun line => String.ofList (dropReturn line)

/-- The records of a log. -/
def records (contents : String) : List AuditRecord := (lines contents).filterMap AuditRecord.ofLine?

/-- The records of a file. -/
def readBytes (bytes : ByteArray) : Outcome (List AuditRecord) :=
  match String.fromUTF8? bytes with
  | some contents => .ok (records contents)
  | none => .error .notText

end ObjectBus.AuditLog
