import ObjectBus.ExactJson.Value
import ObjectBus.Protocol.Transmission
import ObjectBus.Schema.Definition

/-!
# Transmissions as exact JSON

Optional parts of a header that are absent or not set are left out. Instants are written
through a function of the caller, which can so give names to some of them.
-/

namespace ObjectBus

namespace Json

/-- A member that is neither missing nor null. -/
def given? (j : Json) (key : String) : Option Json :=
  match j.member? key with
  | some .null => none
  | other => other

/-- A text that has to be there. -/
def textAt? (j : Json) (key : String) : Option String := (j.member? key).bind asString?

/-- A truth value that is false when it is missing. -/
def flagAt? (j : Json) (key : String) : Option Bool :=
  match j.given? key with
  | none => some false
  | some v => v.asBool?

/-- An optional part. -/
def optionalAt? (j : Json) (key : String) (read : Json → Option α) : Option (Option α) :=
  match j.given? key with
  | none => some none
  | some v => (read v).map some

/-- A 32-bit number. -/
def asUInt32? (j : Json) : Option UInt32 := j.asUInt64?.map UInt64.toUInt32

/-- A list of texts. -/
def asTexts? (j : Json) : Option (List String) := j.asArray?.bind fun items => items.mapM asString?

/-- The object with those of the given members that are there. -/
def ofPresent (members : List (String × Option Json)) : Json :=
  .ofMembers (members.filterMap fun m => m.2.map (m.1, ·))

/-- True, or nothing. -/
def whenSet (b : Bool) : Option Json := if b then some (.bool true) else none

/-- The truth values, texts and numbers of message fields. -/
def ofText (s : String) : Json := .string s

/-- A 32-bit number. -/
def ofUInt32 (n : UInt32) : Json := .ofUInt64 n.toUInt64

/-- A list of texts. -/
def ofTexts (l : List String) : Json := .array (l.map .string)

end Json

/-- A struct definition from a JSON value, which is read like its text. -/
def StructSchema.ofJson? (j : Json) : Option StructSchema := StructSchema.ofText? j.text

/-- An enum definition from a JSON value, which is read like its text. -/
def EnumSchema.ofJson? (j : Json) : Option EnumSchema :=
  (Json.Tree.ofText? j.text).bind EnumSchema.ofTree?

namespace Header

/-- The exact JSON of a header. -/
def toExactJson (timeText : Instant → String) (h : Header) : Json :=
  .ofPresent [("type_name", some (.string h.typeName)),
    ("sender", h.sender.map .ofUInt32),
    ("sent_time", h.sentTime.map fun t => .string (timeText t)),
    ("server_sent_time", h.serverSentTime.map fun t => .string (timeText t)),
    ("attributes", some h.attributes.toExactJson),
    ("remove", Json.whenSet h.remove),
    ("from_cache", h.fromCache.map .ofUInt32),
    ("destination_group", h.destinationGroup.map .string),
    ("namespace", h.nameSpace.map .string),
    ("is_from_myself", Json.whenSet h.isFromMyself)]

/-- An instant from JSON. -/
def instantOfJson? (j : Json) : Option Instant := j.asString?.bind Instant.ofText?

/-- The header of exact JSON, in which all but the type name may be missing. -/
def ofExactJson? (j : Json) : Option Header := do
  pure {
    typeName := ← j.textAt? "type_name"
    sender := ← j.optionalAt? "sender" Json.asUInt32?
    sentTime := ← j.optionalAt? "sent_time" instantOfJson?
    serverSentTime := ← j.optionalAt? "server_sent_time" instantOfJson?
    attributes := (← j.optionalAt? "attributes" PropertySet.ofExactJson?).getD .none
    remove := ← j.flagAt? "remove"
    fromCache := ← j.optionalAt? "from_cache" Json.asUInt32?
    destinationGroup := ← j.optionalAt? "destination_group" Json.asString?
    nameSpace := ← j.optionalAt? "namespace" Json.asString?
    isFromMyself := ← j.flagAt? "is_from_myself" }

end Header

/-- The word for a membership change in JSON. -/
def MemberEvent.word : MemberEvent → String
  | join => "Join"
  | leave => "Leave"
  | kill => "Kill"

/-- The membership change of a word. -/
def MemberEvent.ofWord? (s : String) : Option MemberEvent :=
  [join, leave, kill].find? fun e => e.word == s

namespace ControlMessage

/-- The fields of a message as JSON. -/
def fieldsJson : ControlMessage → Json
  | hello serverName challenge required =>
    .object [("server_name", .string serverName), ("auth_challenge", .ofUInt64 challenge),
      ("authentication_required", .bool required)]
  | connect clientName preload finished =>
    .object [("client_name", Json.ofOption .string clientName), ("preload_cache", .bool preload),
      ("preload_client_finished", .bool finished)]
  | connectResponse serverName clientId accepted preload finished =>
    .object [("server_name", Json.ofOption .string serverName),
      ("client_id", Json.ofOption .ofUInt32 clientId), ("accepted", .bool accepted),
      ("preload", .bool preload), ("preload_finished", .bool finished)]
  | member groupName event =>
    .object [("group_name", .string groupName), ("event", .string event.word)]
  | descriptorRequest whitelist blacklist =>
    .object [("whitelist", Json.ofOption .ofTexts whitelist),
      ("blacklist", Json.ofOption .ofTexts blacklist)]
  | clearCache typeNames => .object [("type_names", .ofTexts typeNames)]
  | cacheInfo typeName endTransmission endDescriptorRequest =>
    .object [("type_name", Json.ofOption .string typeName),
      ("end_transmission", .bool endTransmission),
      ("end_descriptor_request", .bool endDescriptorRequest)]
  | error code text => .object [("code", .ofUInt32 code), ("text", .string text)]
  | structSchema schema => schema.toJson
  | enumSchema schema => schema.toJson

/-- The JSON of a message: an object whose only member is named for the kind. -/
def toJson (message : ControlMessage) : Json := .object [(message.typeName, message.fieldsJson)]

/-- The message of JSON. -/
def ofJson? (j : Json) : Option ControlMessage := do
  match j with
  | .object [(kind, j)] =>
    let text (key : String) := j.optionalAt? key Json.asString?
    let flag (key : String) := j.flagAt? key
    match kind with
    | "Hello" =>
      pure (.hello (← j.textAt? "server_name") (← (j.member? "auth_challenge").bind Json.asUInt64?)
        (← flag "authentication_required"))
    | "Connect" =>
      pure (.connect (← text "client_name") (← flag "preload_cache")
        (← flag "preload_client_finished"))
    | "ConnectResponse" =>
      pure (.connectResponse (← text "server_name") (← j.optionalAt? "client_id" Json.asUInt32?)
        (← flag "accepted") (← flag "preload") (← flag "preload_finished"))
    | "Member" =>
      pure (.member (← j.textAt? "group_name") (← (j.textAt? "event").bind MemberEvent.ofWord?))
    | "DescriptorRequest" =>
      pure (.descriptorRequest (← j.optionalAt? "whitelist" Json.asTexts?)
        (← j.optionalAt? "blacklist" Json.asTexts?))
    | "ClearCache" => pure (.clearCache (← (j.member? "type_names").bind Json.asTexts?))
    | "CacheInfo" =>
      pure (.cacheInfo (← text "type_name") (← flag "end_transmission")
        (← flag "end_descriptor_request"))
    | "Error" =>
      pure (.error (← (j.member? "code").bind Json.asUInt32?) (← j.textAt? "text"))
    | "StructSchema" => pure (.structSchema (← StructSchema.ofJson? j))
    | "EnumSchema" => pure (.enumSchema (← EnumSchema.ofJson? j))
    | _ => none
  | _ => none

end ControlMessage

namespace Transmission

/-- The exact JSON of a transmission. -/
def toExactJson (timeText : Instant → String) (t : Transmission) : Json :=
  let payload := match t.payload with
    | .object o => ("object", o.toExactJson)
    | .control message => ("control", message.toJson)
  .object [("header", t.header.toExactJson timeText), payload]

/-- The transmission of exact JSON. Without a header it gets the plain one for its payload, as
sent at the given time. -/
def ofExactJson? (now : Instant) (j : Json) : Option Transmission := do
  let header ← j.optionalAt? "header" Header.ofExactJson?
  match j.given? "control" with
  | some c =>
    let message ← ControlMessage.ofJson? c
    let t := ofControl message now
    pure { t with header := header.getD t.header }
  | none =>
    let o ← (j.member? "object").bind Object.ofExactJson?
    pure (ofObject (header.getD { typeName := o.typeName }) o)

end Transmission

end ObjectBus
