import ObjectBus.Json.Text
import ObjectBus.PropertySet
import ObjectBus.Protocol.ConnectionState
import ObjectBus.Schema.Kind

/-!
# Errors

What can go wrong, by cause. The wording of each cause stands in one place, the function
`message` of its type.

Errors that a guest causes by sending something invalid are *violations*: a broker answers
them with a notice and keeps the connection. Every other error ends the connection.
-/

namespace ObjectBus

/-- Why bytes are no transmission. -/
inductive DecodeError where
  /-- The bytes end too early. -/
  | endOfInput
  /-- A variable-length number is too long or too large for its type. -/
  | badNumber
  /-- A truth value is neither 0 nor 1. -/
  | badBool
  /-- The mark of an optional value is neither 0 nor 1. -/
  | badOption
  /-- A text is not valid UTF-8. -/
  | badText
  /-- A part has the right form but no meaning: an unknown alternative or a text that is no
  instant. -/
  | badContent
  /-- A cause given in words. -/
  | described (text : String)
deriving DecidableEq, Repr

/-- The wording of a decoding error. -/
def DecodeError.message : DecodeError → String
  | endOfInput => "Hit the end of buffer, expected more data"
  | badNumber => "Found a varint that didn't terminate. Is the usize too big for this platform?"
  | badBool => "Found a bool that wasn't 0 or 1"
  | badOption => "Found an Option discriminant that wasn't 0 or 1"
  | badText => "Tried to parse invalid utf-8"
  | badContent => "Serde Deserialization Error"
  | described text => text

/-- Why a channel failed. -/
inductive TransportError where
  /-- The other side went away. -/
  | closed
  /-- Input or output failed, in the words of the system. -/
  | io (text : String)
  /-- A frame could not be encoded or decoded. -/
  | codec (cause : DecodeError)
deriving DecidableEq, Repr

/-- The wording of a transport error. -/
def TransportError.message : TransportError → String
  | closed => "channel closed"
  | io text => "I/O error: " ++ text
  | codec cause => "codec error: " ++ cause.message

/-- What a peer did that is not valid. -/
inductive Violation where
  /-- An object lacks a property of its type's key. -/
  | missingKey (typeName : String) (tag : Tag)
  /-- An object names another type than the schema it is held against. -/
  | otherType (typeName expected : String)
  /-- An object has a property that its type does not declare. -/
  | undeclared (typeName : String) (tag : Tag)
  /-- A property holds a value of the wrong kind. -/
  | wrongKind (typeName property : String) (expected : ValueKind) (actual : String)
  /-- A control message came outside the control namespace. -/
  | controlOutsideNamespace (kind : String)
  /-- An object of an application type came in a state that takes none. -/
  | objectInState (typeName : String) (state : ConnectionState)
  /-- An object of an internal type came in a state that takes none. -/
  | internalObjectInState (typeName : String) (state : ConnectionState)
  /-- A control message came in a state that has no use for it. -/
  | controlInState (kind : String) (state : ConnectionState)
  /-- An object came in the wrong namespace for its type. -/
  | wrongNamespace (typeName : String)
  /-- An object came where a control message was expected. -/
  | objectInHandshake (typeName : String)
  /-- Another control message came than the one expected. -/
  | otherControl (expected actual : String)
  /-- A violation given in words. -/
  | described (text : String)
deriving DecidableEq

/-- The wording of a violation. -/
def Violation.message : Violation → String
  | missingKey typeName tag =>
    "instance of '" ++ typeName ++ "' lacks key property " ++ toString tag.toNat
  | otherType typeName expected =>
    "instance of '" ++ typeName ++ "' does not match schema '" ++ expected ++ "'"
  | undeclared typeName tag =>
    "'" ++ typeName ++ "' has no property with tag " ++ toString tag.toNat
  | wrongKind typeName property expected actual =>
    "'" ++ typeName ++ "." ++ property ++ "' expects " ++ expected.text ++ ", got " ++ actual
  | controlOutsideNamespace kind =>
    "control message '" ++ kind ++ "' outside the control namespace"
  | objectInState typeName state =>
    "received instance of non-control type '" ++ typeName ++ "' while in state " ++ state.text
  | internalObjectInState typeName state =>
    "received instance of internal type '" ++ typeName ++ "' while in state " ++ state.text
  | controlInState kind state =>
    "unexpected control message '" ++ kind ++ "' in state " ++ state.text
  | wrongNamespace typeName => "type '" ++ typeName ++ "' sent in the wrong namespace"
  | objectInHandshake typeName =>
    "expected control message, got object of type '" ++ typeName ++ "'"
  | otherControl expected actual => "expected " ++ expected ++ ", got " ++ actual
  | described text => text

/-- Why a type definition is refused. -/
inductive DefinitionFault where
  /-- A property has a tag that no property may have. -/
  | tagOutOfRange (typeName property : String) (tag : Tag)
  /-- Two properties have one tag. -/
  | tagTwice (typeName : String) (tag : Tag)
  /-- A struct type of this name is known with another definition. -/
  | otherStruct (name : String)
  /-- An enum type of this name is known with another definition. -/
  | otherEnum (name : String)
  /-- A fault given in words. -/
  | described (text : String)
deriving DecidableEq, Repr

/-- The wording of a definition fault. -/
def DefinitionFault.message : DefinitionFault → String
  | tagOutOfRange typeName property tag =>
    "'" ++ typeName ++ "." ++ property ++ "' uses tag " ++ toString tag.toNat ++ " outside 1..=" ++
      toString maxTag
  | tagTwice typeName tag => "'" ++ typeName ++ "' declares tag " ++ toString tag.toNat ++ " twice"
  | otherStruct name =>
    "struct '" ++ name ++ "' is already registered with a different definition"
  | otherEnum name => "enum '" ++ name ++ "' is already registered with a different definition"
  | described text => text

/-- Why a configuration is refused. -/
inductive ConfigFault where
  /-- The name is blank. -/
  | blankName
  /-- The sweep interval is zero. -/
  | zeroSweepInterval
  /-- The event capacity is zero. -/
  | zeroEventCapacity
  /-- The file is not a configuration written as JSON. -/
  | notReadable (path : String)
  /-- A fault given in words. -/
  | described (text : String)
deriving DecidableEq, Repr

/-- The wording of a configuration fault. -/
def ConfigFault.message : ConfigFault → String
  | blankName => "name must not be empty"
  | zeroSweepInterval => "sweep_interval_ms must be greater than 0"
  | zeroEventCapacity => "event_capacity must be greater than 0"
  | notReadable path => path ++ ": not a valid configuration"
  | described text => text

/-- Why an operation makes no sense where it was asked for. -/
inductive InvalidOperation where
  /-- An object was to be read from JSON that is no object. -/
  | notAnObject (typeName : String)
  /-- A JSON object names a property that the type does not declare. -/
  | noProperty (typeName property : String)
  /-- A JSON value is not of the kind of its property. -/
  | cannotHold (typeName property : String) (value : Json)
  /-- There is no subscription of this number. -/
  | noSubscription (number : Nat)
  /-- A guest sent a record that only the host writes. -/
  | hostRecord (typeName : String)
  /-- Preloading was to be finished in a state without preloading. -/
  | finishPreload (state : ConnectionState)
  /-- A cause given in words. -/
  | described (text : String)

/-- The wording of an invalid operation. -/
def InvalidOperation.message : InvalidOperation → String
  | notAnObject typeName => "'" ++ typeName ++ "' instance must be a JSON object"
  | noProperty typeName property => "'" ++ typeName ++ "' has no property '" ++ property ++ "'"
  | cannotHold typeName property value =>
    "'" ++ typeName ++ "." ++ property ++ "' cannot hold " ++ value.text
  | noSubscription number => "no subscription with id " ++ toString number
  | hostRecord typeName => "'" ++ typeName ++ "' records are written by the host only"
  | finishPreload state => "cannot finish preload in state " ++ state.text
  | described text => text

/-- Errors of the broker and its guests. -/
inductive BrokerError where
  /-- A handshake was begun a second time. -/
  | handshakeAlreadyStarted
  /-- No struct type of this name is known. -/
  | unknownType (name : String)
  /-- No open connection has this number. -/
  | unknownConnection (peer : PeerId)
  /-- A type definition is refused. -/
  | schemaConflict (fault : DefinitionFault)
  /-- A channel failed. -/
  | transport (error : TransportError)
  /-- A peer sent something that is not valid. -/
  | protocol (violation : Violation)
  /-- The peer reported an error. -/
  | peerError (code : UInt32) (text : String)
  /-- A configuration is refused. -/
  | config (fault : ConfigFault)
  /-- Input or output failed, in the words of the system. -/
  | io (text : String)
  /-- An operation makes no sense here. -/
  | invalidOperation (cause : InvalidOperation)
  /-- The host no longer runs. -/
  | hostStopped

namespace BrokerError

/-- The wording of an error. -/
def message : BrokerError → String
  | handshakeAlreadyStarted =>
    "Handshake already started: only one receive loop may be outstanding"
  | unknownType name => "Unknown type: " ++ name
  | unknownConnection peer => "Unknown connection: " ++ toString peer.toNat
  | schemaConflict fault => "Schema conflict: " ++ fault.message
  | transport error => "Transport error: " ++ error.message
  | protocol violation => "Protocol violation: " ++ violation.message
  | peerError code text => "Peer error (" ++ toString code.toNat ++ "): " ++ text
  | config fault => "Config error: " ++ fault.message
  | io text => "IO error: " ++ text
  | invalidOperation cause => "Invalid operation: " ++ cause.message
  | hostStopped => "Host stopped"

/-- The error of a file that is not there. -/
def noSuchFile : BrokerError := .io "No such file or directory (os error 2)"

/-- The error of a file that is no text. -/
def notText : BrokerError := .io "stream did not contain valid UTF-8"

/-- Whether a guest caused the error by sending something invalid. -/
def isViolation : BrokerError → Bool
  | protocol _ => true
  | unknownType _ => true
  | schemaConflict _ => true
  | _ => false

end BrokerError

/-- The outcome of an operation that can fail. -/
abbrev Outcome := Except BrokerError

end ObjectBus
