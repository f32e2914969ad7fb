import ObjectBus.Connection
import ObjectBus.ExactJson.Error

/-!
# What connections do, as exact JSON
-/

namespace ObjectBus

/-- The word for a connection state. -/
def ConnectionState.word : ConnectionState → String
  | connecting => "Connecting"
  | earlySubscribe => "EarlySubscribe"
  | connected => "Connected"
  | suspended => "Suspended"
  | closed => "Closed"

/-- The exact JSON of a change of state. -/
def Transition.toExactJson (t : Transition) : Json :=
  .array [.string t.state.word, Json.ofOption .string t.cause]

/-- The exact JSON of work that a connection hands to the broker. -/
def ControlRequest.toExactJson (timeText : Instant → String) : ControlRequest → Json
  | member group event =>
    .object [("Member", .array [.string group, .string event.word])]
  | descriptorRequest whitelist blacklist =>
    .object [("DescriptorRequest",
      .array [Json.ofOption .ofTexts whitelist, Json.ofOption .ofTexts blacklist])]
  | clearCache typeNames h =>
    .object [("ClearCache", .array [.ofTexts typeNames, h.toExactJson timeText])]
  | importStruct schema h =>
    .object [("ImportStruct", .array [schema.toJson, h.toExactJson timeText])]
  | importEnum schema h =>
    .object [("ImportEnum", .array [schema.toJson, h.toExactJson timeText])]

/-- The exact JSON of what became of a transmission. -/
def Received.toExactJson (timeText : Instant → String) : Received → Json
  | handled => .string "Handled"
  | object h o => .object [("Regular", (Transmission.ofObject h o).toExactJson timeText)]
  | control request => .object [("Control", request.toExactJson timeText)]
  | rejected violation => .object [("Rejected", .string violation.message)]
  | fatal error => .object [("Fatal", error.toExactJson)]

end ObjectBus
