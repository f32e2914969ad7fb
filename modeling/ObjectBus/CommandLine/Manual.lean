/-!
# The manual

The commands of the program with the options and operands that they take, and the pages that
describe them. What a page says and what is read from arguments come from the same tables.
-/

namespace ObjectBus.CommandLine

/-- The name of the program. -/
def programName : String := "tidewire"

/-- The version of the program. -/
def versionLine : String := programName ++ " 0.1.0"

/-- The variable of the environment that may name the configuration of a host. -/
def configVariable : String := "TIDEWIRE_CONFIG"

/-! ## Options and operands -/

/-- What an option takes. -/
inductive OptionKind where
  /-- Nothing; it may stand once. -/
  | flag
  /-- Nothing; it may be repeated. -/
  | count
  /-- One value; it may stand once. -/
  | value
  /-- One value that must not be empty; it may stand once. -/
  | path
  /-- Values divided by commas; it may be repeated. -/
  | values
deriving DecidableEq, Repr

/-- Whether an option takes a value. -/
def OptionKind.takesValue : OptionKind → Bool
  | flag => false
  | count => false
  | _ => true

/-- Whether an option may be repeated. -/
def OptionKind.repeats : OptionKind → Bool
  | count => true
  | values => true
  | _ => false

/-- What holds if an option is missing. -/
inductive Fallback where
  /-- A value. -/
  | value (text : String)
  /-- The value of a variable of the environment. -/
  | environment (name : String)
deriving DecidableEq, Repr

/-- An option. -/
structure OptionRule where
  /-- The long name. -/
  long : String
  /-- The letter, if it has one. -/
  letter : Option Char
  /-- What it takes. -/
  kind : OptionKind
  /-- What it is for. -/
  about : String
  /-- What holds if it is missing. -/
  fallback : Option Fallback := none
deriving DecidableEq, Repr

/-- An argument that is no option. -/
structure Operand where
  /-- What it is called. -/
  name : String
  /-- What it is. -/
  about : String
  /-- Whether more of its kind may follow. -/
  repeats : Bool := false
deriving DecidableEq, Repr

/-! ## Commands -/

/-- The commands of the program. -/
inductive CommandName where
  /-- Run a host. -/
  | serve
  /-- Join groups and print what arrives. -/
  | watch
  /-- Publish or remove one object. -/
  | publish
  /-- List the types that a host knows. -/
  | schemas
deriving DecidableEq, Repr

namespace CommandName

/-- Every command, in the order of the manual. -/
def all : List CommandName := [serve, watch, publish, schemas]

/-- The word for a command. -/
def text : CommandName → String
  | serve => "serve"
  | watch => "watch"
  | publish => "publish"
  | schemas => "schemas"

/-- The command of a word. -/
def ofText? (s : String) : Option CommandName := all.find? (·.text = s)

@[simp]
theorem ofText?_text (c : CommandName) : ofText? c.text = some c := by
  cases c <;> decide

/-- What a command does. -/
def about : CommandName → String
  | serve => "Run a broker host"
  | watch => "Join groups and print what arrives"
  | publish => "Publish one object given as a JSON object keyed by property name"
  | schemas => "List the types a host knows"

end CommandName

/-- The option that every command takes. -/
def verboseRule : OptionRule :=
  ⟨"verbose", some 'v', .count, "Increase verbosity (-v, -vv, -vvv)", none⟩

/-- The option that asks for a page. -/
def helpRule : OptionRule := ⟨"help", some 'h', .flag, "Print help", none⟩

/-- The option that asks for the version. -/
def versionRule : OptionRule := ⟨"version", some 'V', .flag, "Print version", none⟩

/-- The option for the name of a guest, with the name that holds if it is missing. -/
def guestNameRule (standard : String) : OptionRule :=
  ⟨"name", none, .value, "Guest name", some (.value standard)⟩

/-- The name of a watcher, unless told otherwise. -/
def watcherName : String := "tidewire-watch"

/-- The name of a publisher, unless told otherwise. -/
def publisherName : String := "tidewire-publish"

/-- The options of a command, in the order of its page. -/
def CommandName.options : CommandName → List OptionRule
  | serve =>
    [⟨"config", some 'c', .path, "JSON config file", some (.environment configVariable)⟩,
      verboseRule,
      ⟨"listen", some 'l', .value, "Address to listen on (overrides the config)", none⟩,
      ⟨"name", some 'n', .value, "Host name announced to guests (overrides the config)", none⟩,
      ⟨"log-dir", none, .path, "Write a JSONL audit log into this directory", none⟩]
  | watch => [guestNameRule watcherName, verboseRule]
  | publish =>
    [⟨"remove", none, .flag, "Remove the object instead (only key properties are needed)",
        none⟩,
      verboseRule, guestNameRule publisherName]
  | schemas =>
    [⟨"only", none, .values, "Only these types", none⟩, verboseRule,
      ⟨"exclude", none, .values, "Skip these types", none⟩,
      ⟨"json", none, .flag, "Print definitions as JSON", none⟩]

/-- The operand for the address of a host. -/
def addressOperand : Operand := { name := "ADDR", about := "Host address" }

/-- The operands of a command, in order. Only the last one may be repeated. -/
def CommandName.operands : CommandName → List Operand
  | serve => []
  | watch => [addressOperand, { name := "GROUPS", about := "Groups to join", repeats := true }]
  | publish =>
    [addressOperand, { name := "TYPE_NAME", about := "Type name" },
      { name := "JSON", about := "Object as JSON" }]
  | schemas => [addressOperand]

/-- Whether a command takes another operand behind so many. -/
def CommandName.takesMore (c : CommandName) (n : Nat) : Bool :=
  n < c.operands.length || c.operands.any (·.repeats)

/-! ## Pages -/

/-- The pages of the manual. -/
inductive Page where
  /-- The page of the program. -/
  | program
  /-- The page of a command. -/
  | command (name : CommandName)
  /-- The page of the command that prints pages. -/
  | help
deriving DecidableEq, Repr

/-- A part of a page: what is described, and what is said about it. -/
structure PageSection where
  /-- The heading. -/
  heading : String
  /-- The rows: on the left what is described, on the right what is said about it. -/
  rows : List (String × String)
deriving DecidableEq, Repr

namespace PageSection

/-- How wide the left side of a part is. -/
def width (s : PageSection) : Nat := s.rows.foldl (fun n r => max n r.1.length) 0

/-- The lines of a part, behind a blank one. A part without rows is left out. -/
def lines (s : PageSection) : List String :=
  if s.rows.isEmpty then []
  else "" :: (s.heading ++ ":") :: s.rows.map fun r =>
    "  " ++ r.1.pushn ' ' (s.width - r.1.length) ++ "  " ++ r.2

end PageSection

/-- An operand as a page shows it. -/
def Operand.usage (o : Operand) : String := "<" ++ o.name ++ ">" ++ if o.repeats then "..." else ""

namespace OptionRule

/-- The name of an option's value. -/
def valueName (r : OptionRule) : String :=
  r.long.map fun c => if c = '-' then '_' else c.toUpper

/-- An option as a page shows it. Without a letter, its place is left blank. -/
def usage (r : OptionRule) : String :=
  let letter := match r.letter with
    | some c => "-" ++ c.toString ++ ", "
    | none => "    "
  let behind :=
    if r.kind = .count then "..."
    else if r.kind.takesValue then " <" ++ r.valueName ++ ">"
    else ""
  letter ++ "--" ++ r.long ++ behind

/-- What a page says about an option. The environment may have configured a host. -/
def description (configured : Option String) (r : OptionRule) : String :=
  r.about ++ match r.fallback with
    | none => ""
    | some (.value text) => " [default: " ++ text ++ "]"
    | some (.environment name) => " [env: " ++ name ++ "=" ++ configured.getD "" ++ "]"

end OptionRule

/-- The part of a page about options. -/
def optionSection (configured : Option String) (rules : List OptionRule) : PageSection :=
  ⟨"Options", rules.map fun r => (r.usage, r.description configured)⟩

/-- What the command that prints pages does. -/
def helpAbout : String := "Print this message or the help of the given subcommand(s)"

namespace Page

/-- What a page is about. -/
def about : Page → String
  | program => "Tidewire - typed publish/subscribe broker with cached object replay"
  | command name => name.about
  | help => helpAbout

/-- How what a page is about is called. -/
def usage : Page → String
  | program => programName ++ " [OPTIONS] <COMMAND>"
  | command name =>
    " ".intercalate ([programName, name.text, "[OPTIONS]"] ++ name.operands.map (·.usage))
  | help => programName ++ " help [COMMAND]..."

/-- The parts of a page. -/
def sections (configured : Option String) : Page → List PageSection
  | program =>
    [⟨"Commands", CommandName.all.map (fun c => (c.text, c.about)) ++ [("help", helpAbout)]⟩,
      optionSection configured [verboseRule, helpRule, versionRule]]
  | command name =>
    [⟨"Arguments", name.operands.map fun o => (o.usage, o.about)⟩,
      optionSection configured (name.options ++ [helpRule])]
  | help => [⟨"Arguments", [("[COMMAND]...", "Print help for the subcommand(s)")]⟩]

/-- The lines of a page. The environment may have configured a host. -/
def lines (configured : Option String) (p : Page) : List String :=
  [p.about, "", "Usage: " ++ p.usage] ++ (p.sections configured).flatMap PageSection.lines

end Page

end ObjectBus.CommandLine
