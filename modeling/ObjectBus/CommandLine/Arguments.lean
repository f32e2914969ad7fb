import ObjectBus.CommandLine.Manual

/-!
# Arguments

How a command is read from the arguments of the program. An option has a long name and sometimes
a letter; its value stands behind it or is joined to it. Options may stand before and behind
other arguments, and behind `--` everything is taken as it is.

Arguments are taken one after the other, so that of a request for help and a mistake the one that
comes first decides. Only what is missing at the end is a mistake after all the others.
-/

namespace ObjectBus.CommandLine

/-- What the program is asked to do. -/
inductive Command where
  /-- Run a host. -/
  | serve (configPath listen name logDirectory : Option String)
  /-- Join groups and print what arrives. -/
  | watch (address : String) (groups : List String) (name : String)
  /-- Publish or remove one object. -/
  | publish (address typeName json : String) (remove : Bool) (name : String)
  /-- List the types that a host knows. -/
  | schemas (address : String) (wanted unwanted : List String) (asJson : Bool)
deriving DecidableEq, Repr

/-- What the program is asked to do, and how much it is to tell meanwhile. -/
structure Invocation where
  /-- What it is asked to do. -/
  command : Command
  /-- How much it is to tell: nothing but warnings at zero, and more with every step. -/
  verbosity : Nat
deriving DecidableEq, Repr

/-- Why arguments give no command. -/
inductive Usage where
  /-- A page of the manual was asked for. -/
  | help (page : Page)
  /-- The version was asked for. -/
  | version
  /-- They make no sense. -/
  | refused
deriving DecidableEq, Repr

namespace Usage

/-- The exit code of a program whose arguments give no command. -/
def exitCode : Usage → UInt8
  | help _ => 0
  | version => 0
  | refused => 2

/-- What such a program prints. The environment may have configured a host. -/
def lines (configured : Option String) : Usage → List String
  | help page => page.lines configured
  | version => [versionLine]
  | refused => []

end Usage

/-! ## The arguments of a command -/

/-- One argument or an option with its value. -/
inductive Token where
  /-- An option. -/
  | option (rule : OptionRule) (value : String)
  /-- Another argument. -/
  | plain (text : String)
deriving DecidableEq, Repr

namespace Token

/-- The plain arguments. -/
def plains (ts : List Token) : List String :=
  ts.filterMap fun
    | plain s => some s
    | option .. => none

/-- The values with which an option stands. -/
def valuesOf (ts : List Token) (long : String) : List String :=
  ts.filterMap fun
    | plain _ => none
    | option rule v => if rule.long = long then some v else none

/-- The values of an option that takes several. -/
def splitValues (ts : List Token) (long : String) : List String :=
  (valuesOf ts long).flatMap fun v => v.splitOn ","

/-- Whether something may stand behind other arguments of a command: an option as often as it
may, with a value that it may have, and no more operands than there are. -/
def mayFollow (c : CommandName) (ts : List Token) : Token → Bool
  | plain _ => c.takesMore (plains ts).length
  | option rule v =>
    (rule.kind.repeats || (valuesOf ts rule.long).isEmpty) && !(rule.kind == .path && v.isEmpty)

end Token

/-- What has been read of the arguments of a command. -/
structure Reading where
  /-- The command. -/
  name : CommandName
  /-- The arguments so far. -/
  tokens : List Token
  /-- An option that still needs its value. -/
  pending : Option OptionRule

namespace Reading

/-- Take something that may stand there. -/
def take (r : Reading) (t : Token) : Except Usage Reading :=
  if t.mayFollow r.name r.tokens then .ok { r with tokens := r.tokens ++ [t] }
  else .error .refused

/-- Take an option, whose value may be joined to it. -/
def takeOption (r : Reading) (rule : OptionRule) (joined : Option (List Char)) :
    Except Usage Reading :=
  if rule.kind.takesValue then
    match joined with
    | some v => r.take (.option rule (String.ofList v))
    | none => .ok { r with pending := some rule }
  else if joined.isSome then .error .refused
  else r.take (.option rule "")

/-- Take an option by its long name. -/
def takeLong (r : Reading) (cs : List Char) : Except Usage Reading :=
  let name := String.ofList (cs.takeWhile (· ≠ '='))
  let joined := (cs.dropWhile (· ≠ '=')).tail?
  match r.name.options.find? (·.long = name) with
  | some rule => r.takeOption rule joined
  | none =>
    .error (if name = helpRule.long ∧ joined = none then .help (.command r.name) else .refused)

/-- Take letters that stand together behind one dash. The value of an option may follow its
letter, perhaps behind an equals sign. -/
def takeLetters (r : Reading) : List Char → Except Usage Reading
  | [] => .ok r
  | c :: cs =>
    match r.name.options.find? (·.letter = some c) with
    | none => .error (if helpRule.letter = some c then .help (.command r.name) else .refused)
    | some rule =>
      if rule.kind.takesValue then
        r.takeOption rule (match cs with
          | [] => none
          | '=' :: v => some v
          | v => some v)
      else
        match r.takeOption rule none with
        | .error e => .error e
        | .ok r => takeLetters r cs

/-- Take the value of an option. It does not look like an option itself. -/
def takeValue (r : Reading) (rule : OptionRule) (a : String) : Except Usage Reading :=
  match a.toList with
  | '-' :: _ :: _ => .error .refused
  | _ => { r with pending := none }.take (.option rule a)

/-- Take an argument. -/
def takeArgument (r : Reading) (a : String) : Except Usage Reading :=
  match r.pending, a.toList with
  | some rule, _ => r.takeValue rule a
  | none, '-' :: '-' :: cs => r.takeLong cs
  | none, '-' :: c :: cs => r.takeLetters (c :: cs)
  | none, _ => r.take (.plain a)

/-- Take all arguments. -/
def takeAll (r : Reading) : List String → Except Usage Reading
  | [] => .ok r
  | a :: rest =>
    if a = "--" ∧ r.pending = none then rest.foldlM (fun r a => r.take (.plain a)) r
    else
      match r.takeArgument a with
      | .error e => .error e
      | .ok r => takeAll r rest

end Reading

/-- What a command is asked to do by its arguments, if none is missing. -/
def commandOf (name : CommandName) (ts : List Token) : Option Command :=
  let last (long : String) : Option String := (Token.valuesOf ts long).getLast?
  match name, Token.plains ts with
  | .serve, [] => some (.serve (last "config") (last "listen") (last "name") (last "log-dir"))
  | .watch, address :: group :: groups =>
    some (.watch address (group :: groups) ((last "name").getD watcherName))
  | .publish, [address, typeName, json] =>
    some (.publish address typeName json (last "remove").isSome
      ((last "name").getD publisherName))
  | .schemas, [address] =>
    some (.schemas address (Token.splitValues ts "only") (Token.splitValues ts "exclude")
      (last "json").isSome)
  | _, _ => none

/-- How often more telling was asked for among the arguments of a command, or if it was not, how
often before its name. -/
def verbosityOf (before : Nat) (ts : List Token) : Nat :=
  match (Token.valuesOf ts verboseRule.long).length with
  | 0 => before
  | n => n

/-- Read the arguments of a command. -/
def readCommand (before : Nat) (name : CommandName) (arguments : List String) :
    Except Usage Invocation :=
  match Reading.takeAll ⟨name, [], none⟩ arguments with
  | .error e => .error e
  | .ok r =>
    match r.pending, commandOf name r.tokens with
    | none, some c => .ok ⟨c, verbosityOf before r.tokens⟩
    | _, _ => .error .refused

/-! ## The arguments of the program -/

/-- Read what follows the request for a page. -/
def readHelp : List String → Usage
  | [] => .help .program
  | [name] =>
    match CommandName.ofText? name with
    | some c => .help (.command c)
    | none => if name = helpRule.long then .help .help else .refused
  | _ => .refused

/-- What an option in front of a command asks for, other than to tell more. -/
def usageOf (rule : OptionRule → Bool) : Usage :=
  if rule helpRule then .help .program else if rule versionRule then .version else .refused

/-- Read arguments behind so many requests to tell more. -/
def readAfter (before : Nat) : List String → Except Usage Invocation
  | [] => .error .refused
  | a :: rest =>
    match a.toList with
    | '-' :: '-' :: cs =>
      let name := String.ofList cs
      if name = verboseRule.long then readAfter (before + 1) rest
      else .error (usageOf (·.long = name))
    | '-' :: c :: cs =>
      match (c :: cs).find? (verboseRule.letter ≠ some ·) with
      | none => readAfter (before + (c :: cs).length) rest
      | some c => .error (usageOf (·.letter = some c))
    | _ =>
      match CommandName.ofText? a with
      | some c => readCommand before c rest
      | none => .error (if a = helpRule.long then readHelp rest else .refused)

/-- Read the arguments of the program. -/
def read (arguments : List String) : Except Usage Invocation := readAfter 0 arguments

/-- Let a variable of the environment name the configuration if no argument does. -/
def Command.withVariable (value : Option String) : Command → Except Usage Command
  | .serve none listen name logDirectory =>
    if value = some "" then .error .refused else .ok (.serve value listen name logDirectory)
  | c => .ok c

end ObjectBus.CommandLine
