import ObjectBus.Audit.Log
import ObjectBus.Proofs.Audit.Record

/-!
# Audit logs are read back

Whatever stands between them, the records that were appended to a log are read back in order. The
lines of a text are told apart by their ends only, and no line of a record has such an end in it.

* `AuditLog.splitLines_line`, `AuditLog.splitLines_append`: lines of a text;
* `AuditLog.Line`, `AuditLog.write`: what is written to a log, records and anything else;
* `AuditLog.records_write`: one more line adds its record and changes nothing about the others;
* `AuditLog.readBytes_writeAll`: a whole log.
-/

namespace ObjectBus

namespace AuditLog

/-! ### Lines of a text -/

theorem splitLines_cons {c : Char} (hc : c ≠ '\n') (rest : List Char) :
    splitLines (c :: rest) =
      (c :: (splitLines rest).headD []) :: (splitLines rest).tail := by
  rw [splitLines]
  · cases splitLines rest <;> rfl
  · exact hc

theorem splitLines_ne_nil {cs : List Char} (h : cs ≠ []) : splitLines cs ≠ [] := by
  obtain ⟨c, rest, rfl⟩ := List.exists_cons_of_ne_nil h
  by_cases hc : c = '\n'
  · subst hc
    simp [splitLines]
  · simp [splitLines_cons hc]

/-- The end of a line ends the line in front of it. -/
theorem splitLines_line {line : List Char} (h : '\n' ∉ line) :
    splitLines (line ++ ['\n']) = [line] := by
  induction line with
  | nil => rfl
  | cons c line ih =>
    rw [List.cons_append, splitLines_cons fun hc => h (hc ▸ List.mem_cons_self),
      ih fun hmem => h (List.mem_cons_of_mem _ hmem)]
    rfl

/-- Behind the end of a line the lines of the rest begin. -/
theorem splitLines_append {cs : List Char} (h : ∀ c ∈ cs.getLast?, c = '\n') (rest : List Char) :
    splitLines (cs ++ rest) = splitLines cs ++ splitLines rest := by
  induction cs with
  | nil => rfl
  | cons c cs ih =>
    cases cs with
    | nil =>
      obtain rfl := h c rfl
      rfl
    | cons d cs =>
      -- The last character is that of the rest as well.
      have hrest := ih h
      by_cases hc : c = '\n'
      · subst hc
        rw [List.cons_append, splitLines, hrest, splitLines, List.cons_append]
      · obtain ⟨line, more, hlines⟩ :=
          List.exists_cons_of_ne_nil (splitLines_ne_nil (List.cons_ne_nil d cs))
        rw [List.cons_append, splitLines_cons hc, hrest, splitLines_cons hc, hlines]
        rfl

theorem ofLine?_dropReturn (line : List Char) :
    AuditRecord.ofLine? (String.ofList (dropReturn line)) =
      AuditRecord.ofLine? (String.ofList line) := by
  rw [dropReturn]
  split
  · rename_i hlast
    have hline : String.ofList line = String.ofList line.dropLast ++ "\r" := by
      obtain ⟨front, rfl⟩ := List.getLast?_eq_some_iff.1 hlast
      rw [List.dropLast_concat, String.ofList_append]
    rw [hline, AuditRecord.ofLine?_append_return]
  · rfl

/-! ### What is written -/

/-- What stands on a line of a log. -/
inductive Line where
  /-- A record that was appended. -/
  | record (r : AuditRecord)
  /-- Anything else. -/
  | foreign (text : String)

namespace Line

/-- The record on the line, if it was appended as one. -/
def record? : Line → Option AuditRecord
  | record r => some r
  | foreign _ => none

/-- The line without its end. -/
def text : Line → String
  | record r => r.line
  | foreign text => text

/-- Whether the line is what it is held for: a record has plain fields, and any other line is a
single one and cannot be read as a record. -/
def IsFair : Line → Prop
  | record r => r.HasPlainFields
  | foreign text => '\n' ∉ text.toList ∧ AuditRecord.ofLine? text = none

instance : DecidablePred IsFair
  | record r => inferInstanceAs (Decidable r.HasPlainFields)
  | foreign text =>
    inferInstanceAs (Decidable ('\n' ∉ text.toList ∧ AuditRecord.ofLine? text = none))

theorem ofLine?_text {l : Line} (h : l.IsFair) : AuditRecord.ofLine? l.text = l.record? := by
  cases l with
  | record r => exact AuditRecord.ofLine?_line h
  | foreign text => exact h.2

theorem lineFeed_not_mem_text {l : Line} (h : l.IsFair) : '\n' ∉ l.text.toList := by
  cases l with
  | record r => exact AuditRecord.lineFeed_not_mem_line h
  | foreign text => exact h.1

end Line

/-- The contents of a log after one more line. -/
def write (contents : String) : Line → String
  | .record r => append contents r
  | .foreign text => contents ++ text ++ "\n"

/-- The contents of a log after more lines. -/
def writeAll (contents : String) (ls : List Line) : String := ls.foldl write contents

/-- Whether the last line of a log has been ended. -/
def IsEnded (contents : String) : Prop := ∀ c ∈ contents.toList.getLast?, c = '\n'

theorem toList_write (contents : String) (l : Line) :
    (write contents l).toList = contents.toList ++ (l.text.toList ++ ['\n']) := by
  cases l <;> simp [write, append, Line.text, String.toList_append]

theorem isEnded_write (contents : String) (l : Line) : IsEnded (write contents l) := by
  intro c hc
  rw [toList_write, ← List.append_assoc, List.getLast?_concat] at hc
  exact (Option.some.inj hc).symm

/-- A line more adds its record, if it is one, to those of the log. -/
theorem records_write {contents : String} (hended : IsEnded contents) {l : Line} (h : l.IsFair) :
    records (write contents l) = records contents ++ l.record?.toList := by
  have hsplit := splitLines_line (Line.lineFeed_not_mem_text h)
  -- A foreign line may end with a carriage return, which is dropped before the line is read.
  have hread : AuditRecord.ofLine? (String.ofList (dropReturn l.text.toList)) = l.record? := by
    rw [ofLine?_dropReturn, String.ofList_toList, Line.ofLine?_text h]
  rw [records, records, lines, lines, toList_write, splitLines_append hended, hsplit,
    List.map_append, List.filterMap_append, List.map_singleton]
  cases hrecord : l.record? <;> simp [hread, hrecord]

/-- The bytes of a text are read as the text. -/
theorem readBytes_toUTF8 (contents : String) :
    readBytes contents.toUTF8 = .ok (records contents) := by
  simp [readBytes, String.fromUTF8?, String.fromUTF8, contents.isValidUTF8]

/-- What is written to a log is added to its records. -/
theorem records_writeAll {contents : String} (hended : IsEnded contents) {ls : List Line}
    (h : ∀ l ∈ ls, l.IsFair) :
    records (writeAll contents ls) = records contents ++ ls.filterMap Line.record? := by
  induction ls generalizing contents with
  | nil => simp [writeAll]
  | cons l rest ih =>
    -- Whatever was written, the log is ended again before the next line.
    have hrest := ih (isEnded_write contents l) fun l' hl' => h l' (List.mem_cons_of_mem _ hl')
    rw [writeAll, List.foldl_cons, ← writeAll, hrest, records_write hended (h l List.mem_cons_self),
      List.append_assoc]
    cases hrecord : l.record? <;> simp [hrecord]

/-- **Audit logs.** However records with plain fields and single lines that cannot be read as a
record follow one another in a file, its records are exactly those that were appended, in order. A
text in a record may hold quotes, line feeds and control characters, and a foreign line may be empty
or end with a carriage return. -/
theorem readBytes_writeAll {ls : List Line} (h : ∀ l ∈ ls, l.IsFair) :
    readBytes (writeAll "" ls).toUTF8 = .ok (ls.filterMap Line.record?) := by
  have hended : IsEnded "" := fun c hc => by cases hc
  rw [readBytes_toUTF8, records_writeAll hended h]
  rfl

/-- A record whose texts would break its line if they were written as they are. -/
def stormRecord : AuditRecord where
  time := "2024-03-09T05:06:07.008+01:00"
  level := "INFO"
  broker := "pier \"7\""
  target := "tidewire_core::\\host"
  message := "gale\r\n\tforce \x00 9"
  peer := some 18446744073709551615
  group := some ""
  fields := .ofList [("", .string "\u2028\n"), ("low", .ofInt64 (-9223372036854775808)),
    ("high", .ofUInt64 18446744073709551615), ("calm", .bool false)]

/-- A record without any column that may be left out. -/
def calmRecord : AuditRecord where
  time := ""
  level := "WARN"
  broker := "pier"
  target := "tidewire_core::broker"
  message := "calm"

/-- A log with damaged lines. -/
def stormLog : List Line :=
  [.foreign "", .record stormRecord, .foreign "\x7b\"ts\":\"cut off\"\x7d\r", .record calmRecord,
    .foreign "[1,2"]

theorem readBytes_stormLog :
    (∀ l ∈ stormLog, l.IsFair) ∧
      readBytes (writeAll "" stormLog).toUTF8 = .ok [stormRecord, calmRecord] := by
  have hfair : ∀ l ∈ stormLog, l.IsFair := by decide +kernel
  exact ⟨hfair, readBytes_writeAll hfair⟩

end AuditLog

end ObjectBus
