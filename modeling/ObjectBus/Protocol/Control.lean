import ObjectBus.Protocol.ConnectionState
import ObjectBus.Schema.Basic

/-!
# Control messages

The messages by which host and guests run their connection: the handshake, group membership,
schema discovery and announcement, and notices.

The host greets with `hello`; the guest names itself with `connect` and is answered with
`connectResponse`. A guest that preloads then joins its groups, receives what is cached for
each up to a closing `cacheInfo`, and sends a second `connect` to say that it has finished.
-/

namespace ObjectBus

/-- A change of group membership that a guest asks for. -/
inductive MemberEvent where
  /-- Become a member. -/
  | join
  /-- Cease to be a member. -/
  | leave
  /-- Remove another member; not supported. -/
  | kill
deriving DecidableEq, Repr, Inhabited

/-- The name of a membership change. -/
def MemberEvent.text : MemberEvent → String
  | join => "join"
  | leave => "leave"
  | kill => "kill"

/-- The codes that error notices carry. -/
inductive NoticeCode where
  /-- An orderly end. -/
  | goodbye
  /-- The message was not valid here; the connection stays open. -/
  | violation
  /-- Processing failed; the connection ends. -/
  | failure
deriving DecidableEq, Repr

/-- The number of a notice code. -/
def NoticeCode.number : NoticeCode → UInt32
  | goodbye => 0
  | violation => 1
  | failure => 2

/-- A control message. -/
inductive ControlMessage where
  /-- The host's greeting. The challenge is a placeholder: guests are not authenticated. -/
  | hello (serverName : String) (authChallenge : UInt64) (authenticationRequired : Bool)
  /-- The guest names itself, or says that it has finished preloading. -/
  | connect (clientName : Option String) (preloadCache preloadClientFinished : Bool)
  /-- The host accepts a guest, or acknowledges that preloading has finished. -/
  | connectResponse (serverName : Option String) (clientId : Option PeerId)
      (accepted preload preloadFinished : Bool)
  /-- A guest asks for a change of its membership in a group. -/
  | member (groupName : String) (event : MemberEvent)
  /-- A guest asks for type definitions. -/
  | descriptorRequest (whitelist blacklist : Option (List String))
  /-- A guest asks to remove every cached object of the listed types. -/
  | clearCache (typeNames : List String)
  /-- The end of a replay or of a discovery. -/
  | cacheInfo (typeName : Option String) (endTransmission endDescriptorRequest : Bool)
  /-- An error notice. -/
  | error (code : UInt32) (text : String)
  /-- The definition of a struct type. -/
  | structSchema (schema : StructSchema)
  /-- The definition of an enum type. -/
  | enumSchema (schema : EnumSchema)
deriving DecidableEq, Inhabited

namespace ControlMessage

/-- The name of the kind of a message, which its header carries as type name. -/
def typeName : ControlMessage → String
  | hello .. => "Hello"
  | connect .. => "Connect"
  | connectResponse .. => "ConnectResponse"
  | member .. => "Member"
  | descriptorRequest .. => "DescriptorRequest"
  | clearCache .. => "ClearCache"
  | cacheInfo .. => "CacheInfo"
  | error .. => "Error"
  | structSchema _ => "StructSchema"
  | enumSchema _ => "EnumSchema"

/-- A guest's request to be accepted under a name. -/
def connectAs (clientName : String) (preloadCache : Bool) : ControlMessage :=
  connect (some clientName) preloadCache false

/-- A guest's statement that it has joined what it wanted before live traffic. -/
def preloadClientFinished : ControlMessage := connect none false true

/-- The host's acknowledgement of a finished preload. -/
def preloadFinished : ControlMessage := connectResponse none none true false true

/-- The end of the replay of one type. -/
def endOfReplay (typeName : String) : ControlMessage := cacheInfo (some typeName) true false

/-- The end of a schema discovery. -/
def endOfDiscovery : ControlMessage := cacheInfo none false true

/-- An error notice with one of the known codes. -/
def notice (code : NoticeCode) (text : String) : ControlMessage := error code.number text

/-- Whether the message says that preloading has finished, at the guest or at the host. -/
def finishesPreload : ControlMessage → Bool
  | connect _ _ finished => finished
  | _ => false

end ControlMessage

end ObjectBus
