import ObjectBus.Dispatcher
import ObjectBus.ExactJson.Transmission

/-!
# Cached objects and events as exact JSON
-/

namespace ObjectBus

/-- The word for an operation. -/
def Operation.word : Operation → String
  | create => "Create"
  | update => "Update"
  | remove => "Remove"

/-- The exact JSON of a provenance. -/
def Provenance.toExactJson (timeText : Instant → String) (p : Provenance) : Json :=
  .object [("last_operation", .string p.lastOperation.word),
    ("created_from", .ofUInt32 p.createdFrom), ("created", .string (timeText p.created)),
    ("last_update_from", .ofUInt32 p.lastUpdateFrom), ("modified", .string (timeText p.modified)),
    ("local_update_time", .string (timeText p.localUpdateTime))]

/-- The exact JSON of a cached object. -/
def Entry.toExactJson (timeText : Instant → String) (e : Entry) : Json :=
  .object [("instance", e.object.toExactJson), ("clone_info", e.provenance.toExactJson timeText)]

/-- The exact JSON of an event. -/
def ObjectEvent.toExactJson (timeText : Instant → String) (e : ObjectEvent) : Json :=
  .object [("header", e.header.toExactJson timeText), ("instance", e.object.toExactJson),
    ("transmitted", e.transmitted.toExactJson),
    ("clone_info", e.provenance.toExactJson timeText), ("operation", .string e.operation.word),
    ("type_name", .string e.typeName), ("is_from_myself", .bool e.isFromMyself)]

end ObjectBus
