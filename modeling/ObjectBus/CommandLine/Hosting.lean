import ObjectBus.Audit.Note
import ObjectBus.CommandLine.Report
import ObjectBus.Config

/-!
# Hosting

What a program that runs a host is given, what it prints, and what it notes about its listener.
-/

namespace ObjectBus.CommandLine

/-- The configuration of a host: from its file, if it has one, and what arguments say instead. The
file may be missing, or the system may refuse to read it. -/
def hostConfiguration (path listen name : Option String)
    (file : Except String (Option ByteArray)) : Except Failure Config :=
  let read : Except Failure Config :=
    match path, file with
    | none, _ => .ok {}
    | some path, .error text => .error (.configuration path (.io text))
    | some path, .ok bytes => (Config.load path bytes).mapError (Failure.configuration path)
  read.map fun c => { c with listen := listen.getD c.listen, name := name.getD c.name }

/-- What a host prints once it listens. -/
def listeningLine (name address : String) : String := name ++ " listening on " ++ address

/-- What a host prints when it is interrupted. -/
def stoppingLine : String := "shutting down"

/-- The topic of notes about connections. -/
def connectionTopic : String := "transport::tcp"

/-- A note about a connection. -/
def connectionNote (level : NoteLevel) (message : String) (fields : List (String × NoteValue)) :
    Note :=
  .saying level connectionTopic message fields

/-- The note that guests are listened for. -/
def listeningNote (address : String) : Note :=
  connectionNote .info "listening for guests" [("addr", .shown ("Some(" ++ address ++ ")"))]

/-- The note that guests are no longer listened for. -/
def stoppedNote : Note := connectionNote .debug "listener stopped" []

end ObjectBus.CommandLine
