import ObjectBus.CommandLine.Arguments
import ObjectBus.CommandLine.Report
import ObjectBus.Guest.Call

/-!
# Client programs

The commands that talk to a host as a guest. A client program is a state that goes on with
everything that arrives: it prints lines, sends through its guest, and has ended at some point.
-/

namespace ObjectBus.CommandLine

/-- What a client program is to do. -/
inductive ClientTask where
  /-- Join groups and print what arrives. -/
  | watch (groups : List String)
  /-- Publish or remove an object of the named type. -/
  | publish (typeName : String) (object : Json) (remove : Bool)
  /-- List the types that the host knows. -/
  | schemas (wanted unwanted : List String) (asJson : Bool)

/-- What a client program waits for. -/
inductive ClientPhase where
  /-- The greeting of the host. -/
  | greeting
  /-- To be accepted. -/
  | entering
  /-- Type definitions. -/
  | discovering (found : List StructSchema)
  /-- The end of preloading. -/
  | preloading (arrived : List Transmission)
  /-- What the host sends. -/
  | following
  /-- Nothing more; it has failed if there is a failure. -/
  | ended (failure : Option Failure)

/-- A client program. -/
structure Client where
  /-- What it is to do. -/
  task : ClientTask
  /-- The name of its guest. -/
  name : String
  /-- Its guest. -/
  guest : Guest
  /-- What it waits for. -/
  phase : ClientPhase
  /-- The lines it printed so far. -/
  printed : List String

namespace Client

/-- A client program that has just been connected. -/
def start (task : ClientTask) (name : String) : Client where
  task := task
  name := name
  guest := .fresh
  phase := .greeting
  printed := []

/-- Whether a client program has ended. -/
def hasEnded (c : Client) : Bool :=
  match c.phase with
  | .ended _ => true
  | _ => false

/-- Whether its guest stays in early subscription at first. -/
def preloads (c : Client) : Bool :=
  match c.task with
  | .watch _ => true
  | _ => false

/-- Print lines. -/
def print (c : Client) (lines : List String) : Client := { c with printed := c.printed ++ lines }

/-- Print the lines for transmissions. -/
def printAll (c : Client) (ts : List Transmission) : Client :=
  c.print (ts.filterMap (transmissionLine? c.guest.registry))

/-- End with a failure. -/
def fail (c : Client) (f : Failure) : Client := { c with phase := .ended (some f) }

/-- End in order. -/
def finish (c : Client) : Client := { c with phase := .ended none }

/-- A list that is not empty. -/
def nonEmpty (l : List String) : Option (List String) := if l.isEmpty then none else some l

/-- Ask for the type definitions that the task needs. -/
def askSchemas (c : Client) (now : Instant) : Client :=
  let (wanted, unwanted) := match c.task with
    | .watch _ => (none, none)
    | .publish typeName _ _ => (some [typeName], none)
    | .schemas wanted unwanted _ => (nonEmpty wanted, nonEmpty unwanted)
  { c with guest := c.guest.askSchemas wanted unwanted now, phase := .discovering [] }

/-- Go on with the type definitions. -/
def discovered (c : Client) (structs : List StructSchema) (now : Instant) : Client :=
  match c.task with
  | .watch groups =>
    let guest := groups.foldl (fun g group => g.join group now) c.guest
    { c with guest := guest.sendControl .preloadClientFinished now, phase := .preloading [] }
  | .publish typeName object remove =>
    match structs.find? fun s => s.name == typeName with
    | none => c.fail (.typeNotKnown typeName)
    | some schema =>
      match schema.objectOfJson object with
      | .error e => c.fail (.broker e)
      | .ok o =>
        let guest :=
          if remove then c.guest.remove schema o now else c.guest.publish schema o none now
        { c with guest := guest.close now }.print
          [(if remove then "removed " else "published ") ++ typeName] |>.finish
  | .schemas _ _ asJson =>
    { c with guest := c.guest.close now }.print (schemasLines structs asJson) |>.finish

/-- Go on with what a call gave. -/
def settle (c : Client) (r : Guest.Result α) (next : Client → α → Client) : Client :=
  let c := { c with guest := r.1 }
  match r.2 with
  | .error e => c.fail (.broker e)
  | .ok a => next c a

/-- Go on with something that arrives. -/
def arrive (c : Client) (a : Arrival) (now : Instant) : Noted Client :=
  match c.phase with
  | .greeting => do
    match ← (Guest.greet c.name c.preloads now).arrive c.guest a with
    | .waiting g => pure { c with guest := g }
    | .ended r => pure (c.settle r fun c _ => { c with phase := .entering })
  | .entering => do
    match ← (Guest.enter c.preloads).arrive c.guest a with
    | .waiting g => pure { c with guest := g }
    | .ended r => pure (c.settle r fun c _ => c.askSchemas now)
  | .discovering found => do
    match ← Guest.discovering.arrive (c.guest, found) a with
    | .waiting s => pure { c with guest := s.1, phase := .discovering s.2 }
    | .ended r => pure (c.settle r fun c structs => c.discovered structs now)
  | .preloading arrived => do
    match ← Guest.preloading.arrive (c.guest, arrived) a with
    | .waiting s => pure { c with guest := s.1, phase := .preloading s.2 }
    | .ended r => pure (c.settle r fun c ts => { c.printAll ts with phase := .following })
  | .following => do
    match ← Guest.receiving.arrive c.guest a with
    | .waiting g => pure { c with guest := g }
    | .ended r =>
      pure (c.settle r fun c received =>
        match received with
        | some t => c.printAll [t]
        | none => (c.print ["host closed the connection"]).finish)
  | .ended _ => pure c

/-- Go on with everything that arrives, up to the end of the program. -/
def arriveAll (c : Client) (arrivals : List Arrival) (now : Instant) : Noted Client :=
  arrivals.foldlM (fun c a => c.arrive a now) c

/-- The exit code of a program that has ended. -/
def exitCode (c : Client) : UInt8 :=
  match c.phase with
  | .ended (some _) => 1
  | _ => 0

/-- What a program that has ended prints about its failure. -/
def failureLines (c : Client) : List String :=
  match c.phase with
  | .ended (some f) => f.lines
  | _ => []

end Client

/-- The client program of a command, with the address of its host, if the command is one. -/
def Command.client? : Command → Option (String × Except Failure Client)
  | .serve .. => none
  | .watch address groups name => some (address, .ok (.start (.watch groups) name))
  | .publish address typeName json remove name =>
    some (address, match Json.ofText? json with
      | none => .error .objectNotJson
      | some object => .ok (.start (.publish typeName object remove) name))
  | .schemas address wanted unwanted asJson =>
    some (address, .ok (.start (.schemas wanted unwanted asJson) "tidewire-schemas"))

end ObjectBus.CommandLine
