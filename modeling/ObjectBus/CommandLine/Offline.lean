import ObjectBus.CommandLine.Address
import ObjectBus.CommandLine.Client
import ObjectBus.CommandLine.Hosting
import ObjectBus.CommandLine.Logging
import ObjectBus.CommandLine.System
import ObjectBus.Host

/-!
# The program without a network

What the program does on a machine that is cut off from every network, as a value. There, names
of other machines cannot be looked up and nobody can be reached, not even the machine itself. A
host can listen; as nobody calls it, it runs until it is interrupted.
-/

namespace ObjectBus.CommandLine.Offline

/-! ## What the system refuses -/

/-- Why the system refuses something. -/
inductive Refusal where
  /-- There is no such file. -/
  | noSuchFile
  /-- There is a file of this name already. -/
  | fileExists
  /-- A file stands where a directory is needed. -/
  | notDirectory
  /-- A directory stands where a file is needed. -/
  | isDirectory
  /-- An address is of no use. -/
  | invalidArgument
  /-- An address does not belong to this machine. -/
  | addressNotAvailable
  /-- There is no way to a machine. -/
  | networkUnreachable
  /-- A name cannot be looked up. -/
  | noResolution
  /-- There cannot be a machine of a name. -/
  | unknownName
deriving DecidableEq, Repr

namespace Refusal

/-- The number of a refusal. -/
def number : Refusal → Nat
  | noSuchFile => 2
  | fileExists => 17
  | notDirectory => 20
  | isDirectory => 21
  | invalidArgument => 22
  | addressNotAvailable => 99
  | networkUnreachable => 101
  | noResolution => 3001
  | unknownName => 3008

/-- The wording of a refusal. -/
def message (r : Refusal) : String := (numberedMessage? r.number).getD ""

end Refusal

/-! ## Machines -/

/-- Whether a text may be a label in the name of a machine. -/
def isLabel (s : String) : Bool :=
  !s.isEmpty && s.length ≤ 63 && s.all fun c => c.isAlphanum || c = '-' || c = '_'

/-- Whether a text may be the name of a machine: labels with dots between them and perhaps one
more at the end. -/
def isMachineName (s : String) : Bool :=
  let labels := s.splitOn "."
  let labels := if 1 < labels.length && labels.getLast? = some "" then labels.dropLast else labels
  labels.all isLabel && s.length ≤ 253 && s.front ≠ '-'

/-- The number of the machine itself. -/
def loopback : UInt32 := 0x7f000001

/-- The address that a text stands for. The only name that can be looked up is the machine's own. -/
def resolve (text : String) : Except String Address :=
  match Address.ofText? text with
  | .error fault => .error fault.message
  | .ok ⟨.named name, number⟩ =>
    if name.map Char.toLower = "localhost" then .ok ⟨.v4 loopback, number⟩
    else .error (if isMachineName name then Refusal.noResolution else .unknownName).message
  | .ok address => .ok address

/-- Whether a number of 128 bits stands for one of 32 bits. -/
def isMapped (n : BitVec 128) : Bool := n >>> 32 == 0xffff

/-- Whether a number means machines on the same link, which has to be named too. -/
def isLinkLocal (n : BitVec 128) : Bool := n >>> 118 == 0x3fa

/-- Whether a number means several machines. -/
def isMulticast (n : BitVec 128) : Bool := n >>> 120 == 0xff

/-- Why a machine cannot be reached. -/
def reachRefusal : Machine → Refusal
  | .v6 n =>
    if isMapped n || isMulticast n then .networkUnreachable
    else if isLinkLocal n then .invalidArgument
    else .addressNotAvailable
  | _ => .networkUnreachable

/-- Why nobody can be reached at an address, in the words of the system. -/
def reachFault (text : String) : String :=
  match resolve text with
  | .error message => message
  | .ok address => (reachRefusal address.machine).message

/-- How the machine of a listener is shown, if it can listen. -/
def listeningMachine : Machine → Except Refusal String
  | .v4 n => .ok (dottedText n)
  | .v6 n =>
    if n = 0 then .ok "[::]"
    else if isMapped n then .ok ("[::ffff:" ++ dottedText (UInt32.ofBitVec (n.setWidth 32)) ++ "]")
    else if isLinkLocal n || isMulticast n then .error .invalidArgument
    else .error .addressNotAvailable
  | .named _ => .error .noResolution

/-- How the address of a listener is shown, if it can listen: its machine, and its number as it is
shown there. -/
def listeningAddress (number : UInt16 → String) (text : String) : Except String String :=
  match resolve text with
  | .error message => .error message
  | .ok address =>
    match listeningMachine address.machine with
    | .error refusal => .error refusal.message
    | .ok machine => .ok (machine ++ ":" ++ number address.number)

/-! ## Files -/

/-- The files that the program finds. Paths start from where it runs or from the root. -/
structure Files where
  /-- The files with their bytes. -/
  files : List (String × ByteArray) := []
  /-- The directories, where those that hold a file need not be named. -/
  directories : List String := []

/-- The names in a path, without those that stay where they are. A slash stands for the root. -/
def pathNames (path : String) : List String :=
  let names := (path.splitOn "/").filter fun name => name != "" && name != "."
  if path.startsWith "/" then "/" :: names else names

/-- Whether the names of one path begin with those of another and go on behind them. -/
def goesThrough (names start : List String) : Bool :=
  start.length < names.length && names.take start.length == start

namespace Files

/-- Whether there is a directory of these names. -/
def isDirectory (files : Files) (names : List String) : Bool :=
  names.all (· == "..") || names == ["/"] ||
    (files.directories.any fun d => pathNames d == names) ||
    files.files.any fun f => goesThrough (pathNames f.1) names

/-- Whether names lead through a file as if it were a directory. -/
def leadsThroughFile (files : Files) (names : List String) : Bool :=
  files.files.any fun f => goesThrough names (pathNames f.1)

/-- The bytes of a file. -/
def read (files : Files) (path : String) : Except Refusal ByteArray :=
  let names := pathNames path
  if files.isDirectory names then .error .isDirectory
  else
    match files.files.find? fun f => pathNames f.1 == names with
    | some f => if path.endsWith "/" then .error .notDirectory else .ok f.2
    | none => .error (if files.leadsThroughFile names then .notDirectory else .noSuchFile)

/-- Why the audit log of a broker cannot be opened in a directory, which is made if there is
none. -/
def openRefusal? (files : Files) (directory broker : String) : Option Refusal :=
  let names := pathNames directory
  if files.leadsThroughFile names then some .notDirectory
  else if files.files.any fun f => pathNames f.1 == names then some .fileExists
  else if broker.contains '/' then some .noSuchFile
  else none

end Files

/-! ## Runs -/

/-- What a run of the program leaves. -/
structure Run where
  /-- The exit code. -/
  exitCode : UInt8
  /-- The lines that it printed. -/
  printed : List String := []
  /-- Its failure, if it failed. -/
  failure : Option Failure := none
  /-- The records of its audit log with the directory of the log, if it kept one. -/
  audit : Option (String × List AuditRecord) := none

/-- A run that fails. -/
def Run.failed (f : Failure) : Run := { exitCode := 1, failure := some f }

/-- Run a host until it is interrupted. Gives what it printed, and why it failed if it did. -/
def host (c : Config) (number : UInt16 → String) (now : Instant) :
    Noted (List String × Option Failure) := do
  match ← c.buildBroker now with
  | .error e => pure ([], some (.broker e))
  | .ok b =>
    match listeningAddress number c.listen with
    | .error text => pure ([], some (.listen c.listen text))
    | .ok address => do
      let h ← Host.start b
      Noted.mk () [listeningNote address, stoppedNote]
      let _ ← h.stop now
      pure ([listeningLine c.name address, stoppingLine], none)

/-- Run a host with the log that it keeps. -/
def serve (files : Files) (c : Config) (logDirectory : Option String) (verbosity : Nat)
    (number : UInt16 → String) (now : Instant) : Run :=
  match logDirectory.bind fun d => (files.openRefusal? d c.name).map (d, ·) with
  | some (directory, refusal) => .failed (.auditLog directory refusal.message)
  | none =>
    let hosted := host c number now
    let records := (hosted.notes.filter fun n => isShown verbosity n.level).map fun n =>
      AuditRecord.ofNote "" c.name n
    { exitCode := if hosted.value.2.isSome then 1 else 0
      printed := hosted.value.1
      failure := hosted.value.2
      audit := logDirectory.map fun d => (d, records) }

/-- Run the program with its arguments. -/
def run (files : Files) (arguments : List String) (number : UInt16 → String) (now : Instant) :
    Run :=
  match CommandLine.read arguments with
  | .error usage => { exitCode := usage.exitCode, printed := usage.lines none }
  | .ok ⟨.serve path listen name logDirectory, verbosity⟩ =>
    let file := match files.read (path.getD "") with
      | .ok bytes => .ok (some bytes)
      | .error .noSuchFile => .ok none
      | .error refusal => .error refusal.message
    match hostConfiguration path listen name file with
    | .error f => .failed f
    | .ok c => serve files c logDirectory verbosity number now
  | .ok ⟨command, _⟩ =>
    match command.client? with
    | some (_, .error f) => .failed f
    | some (address, .ok _) => .failed (.broker (.io (reachFault address)))
    | none => { exitCode := 0 }

end ObjectBus.CommandLine.Offline
