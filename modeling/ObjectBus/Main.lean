import ObjectBus.CommandLine.Join
import ObjectBus.CommandLine.Serve

/-!
# The program

Reads the arguments, runs what they ask for, and ends with an exit code.
-/

namespace ObjectBus.CommandLine

/-- Print why there is nothing to do, and give the exit code. -/
def explain (u : Usage) (configured : Option String) : IO UInt32 := do
  (u.lines configured).forM IO.println
  if u = .refused then (Page.program.lines configured).forM IO.eprintln
  pure u.exitCode.toUInt32

/-- The bytes of a file, if there is one. Gives the system's words if it cannot be read. -/
def fileBytes (path : String) : IO (Except String (Option ByteArray)) := do
  match ← attempt (IO.FS.readBinFile path) with
  | .ok bytes => pure (.ok (some bytes))
  | .error e => pure (if errorNumber? e = some 2 then .ok none else .error (systemMessage e))

/-- Where the notes of a host go. -/
def hostLogging (verbosity : Nat) (directory : Option String) (broker : String) :
    IO (Except Failure Logging) := do
  match directory with
  | none => pure (.ok ⟨verbosity, none⟩)
  | some directory =>
    match ← attempt (Logging.openAudit directory broker) with
    | .ok file => pure (.ok ⟨verbosity, some (broker, file)⟩)
    | .error e => pure (.error (.auditLog directory (systemMessage e)))

/-- Do what the program is asked to do. -/
def perform (i : Invocation) : IO (Except Failure Unit) := do
  match i.command with
  | .serve path listen name directory =>
    match hostConfiguration path listen name (← fileBytes (path.getD "")) with
    | .error failure => pure (.error failure)
    | .ok config =>
      match ← hostLogging i.verbosity directory config.name with
      | .error failure => pure (.error failure)
      | .ok log => serve config log
  | command =>
    match command.client? with
    | none => pure (.ok ())
    | some (_, .error failure) => pure (.error failure)
    | some (address, .ok client) => join address client ⟨i.verbosity, none⟩

/-- Run the program with its arguments. -/
def run (arguments : List String) : IO UInt32 := do
  let configured ← IO.getEnv configVariable
  match read arguments with
  | .error usage => explain usage configured
  | .ok i =>
    match i.command.withVariable configured with
    | .error usage => explain usage configured
    | .ok command =>
      match ← perform { i with command := command } with
      | .ok () => pure 0
      | .error failure =>
        failure.lines.forM IO.eprintln
        pure 1

end ObjectBus.CommandLine

/-- The program. -/
def main (arguments : List String) : IO UInt32 := ObjectBus.CommandLine.run arguments
