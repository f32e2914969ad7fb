import ObjectBus.Audit.Record
import ObjectBus.ExactJson.Transmission

/-!
# Errors and notes as exact JSON

An error is written as the word for its kind with its wording. An error given in words can be
read, so that tools can inject failures.
-/

namespace ObjectBus

namespace BrokerError

/-- The word for the kind of an error. -/
def word : BrokerError → String
  | handshakeAlreadyStarted => "HandshakeAlreadyStarted"
  | unknownType _ => "UnknownType"
  | unknownConnection _ => "UnknownConnection"
  | schemaConflict _ => "SchemaConflict"
  | transport .closed => "Transport.Closed"
  | transport (.io _) => "Transport.Io"
  | transport (.codec _) => "Transport.Codec"
  | protocol _ => "Protocol"
  | peerError .. => "PeerError"
  | config _ => "Config"
  | io _ => "Io"
  | invalidOperation _ => "InvalidOperation"
  | hostStopped => "HostStopped"

/-- One error of each kind, with the given number and wording as far as it has one. -/
def samples (code : UInt32) (text : String) : List BrokerError :=
  [handshakeAlreadyStarted, unknownType text, unknownConnection code,
    schemaConflict (.described text), transport .closed, transport (.io text),
    transport (.codec (.described text)), protocol (.described text), peerError code text,
    config (.described text), io text, invalidOperation (.described text), hostStopped]

/-- The exact JSON of an error. -/
def toExactJson (e : BrokerError) : Json :=
  .object [("error", .string e.word), ("message", .string e.message)]

/-- An error that is given by the word for its kind and a wording. -/
def ofExactJson? (j : Json) : Option BrokerError := do
  let word ← j.textAt? "kind"
  let text := ((j.textAt? "text")).getD ""
  let code := ((j.given? "code").bind Json.asUInt32?).getD 0
  (samples code text).find? fun e => e.word == word

end BrokerError

/-- A transport error that is given by a word and a wording. -/
def TransportError.ofExactJson? (j : Json) : Option TransportError :=
  let text := (j.textAt? "text").getD ""
  match j.textAt? "kind" with
  | some "closed" => some .closed
  | some "io" => some (.io text)
  | some "codec" => some (.codec (.described text))
  | _ => none

/-- The exact JSON of an outcome. -/
def Json.ofOutcome (encode : α → Json) : Outcome α → Json
  | .ok a => .object [("ok", encode a)]
  | .error e => e.toExactJson

/-- The exact JSON of the outcome of an operation that gives nothing. -/
def Json.ofDone : Outcome Unit → Json := .ofOutcome fun _ => .null

/-- What a record of the audit log says, as exact JSON, with the given parts in front. -/
def AuditRecord.toExactJson (r : AuditRecord) (front : List (String × Json)) : Json :=
  .object (front ++ [("level", .string r.level), ("msg", .string r.message),
    ("peer", Json.ofOption .ofUInt64 r.peer), ("group", Json.ofOption .string r.group),
    ("fields", (Json.object r.fields.toList).exact)])

end ObjectBus
