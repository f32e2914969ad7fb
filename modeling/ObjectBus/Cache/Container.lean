import ObjectBus.KeyedList
import ObjectBus.Protocol.Transmission

/-!
# Containers

A container keeps the latest object of each key of one type. Writes are merged property by
property, so that peers can publish parts of objects: a write only touches the properties that
its header includes, and the properties of the key only when it creates the object.

The view of a container is `find?`, from keys to entries.
-/

namespace ObjectBus

/-- What a write did. -/
inductive Operation where
  /-- The object was not there before. -/
  | create
  /-- The object was there and was changed. -/
  | update
  /-- The object was there and was taken out. -/
  | remove
deriving DecidableEq, Repr, Inhabited

/-- Where the state of an object comes from. -/
structure Provenance where
  /-- What the last write did. -/
  lastOperation : Operation
  /-- Who created the object. -/
  createdFrom : PeerId
  /-- When the creating write was sent. -/
  created : Instant
  /-- Who wrote last. -/
  lastUpdateFrom : PeerId
  /-- When the last write was sent. -/
  modified : Instant
  /-- When the last write was applied here. -/
  localUpdateTime : Instant
deriving DecidableEq, Inhabited

/-- The peer from which a header's object comes: the host, unless the header names another. -/
def Header.origin (h : Header) : PeerId := h.sender.getD hostId

/-- The time at which a header's object was sent: now, unless the header tells. -/
def Header.sentAt (h : Header) (now : Instant) : Instant := h.sentTime.getD now

namespace Provenance

/-- The provenance of an object that a header's write has just created. -/
def ofCreate (h : Header) (now : Instant) : Provenance where
  lastOperation := .create
  createdFrom := h.origin
  created := h.sentAt now
  lastUpdateFrom := h.origin
  modified := h.sentAt now
  localUpdateTime := now

/-- The provenance after one more write. -/
def next (p : Provenance) (operation : Operation) (h : Header) (now : Instant) : Provenance :=
  { p with
    lastOperation := operation
    lastUpdateFrom := h.origin
    modified := h.sentAt now
    localUpdateTime := now }

/-- Whether a peer created the object or wrote it last. -/
def mentions (p : Provenance) (peer : PeerId) : Bool :=
  p.createdFrom == peer || p.lastUpdateFrom == peer

end Provenance

/-- A cached object with its provenance. -/
structure Entry where
  /-- The object as merged from all writes. -/
  object : Object
  /-- Where its state comes from. -/
  provenance : Provenance
deriving DecidableEq, Inhabited

/-- The cached objects of one type. -/
structure Container where
  /-- The type. -/
  schema : StructSchema
  /-- The objects by key. -/
  entries : KeyedList ObjectKey Entry

namespace Container

/-- The container of a type without objects. -/
def empty (schema : StructSchema) : Container := ⟨schema, .empty⟩

instance : Inhabited Container := ⟨empty default⟩

/-- The entry of a key. -/
def find? (c : Container) (key : ObjectKey) : Option Entry := c.entries.find? key

/-- The entry with the key of an object. -/
def findObject? (c : Container) (o : Object) : Option Entry :=
  match c.schema.keyOf o with
  | .ok key => c.find? key
  | .error _ => none

/-- How many objects are cached. -/
def size (c : Container) : Nat := c.entries.size

/-- Whether no object is cached. -/
def isEmpty (c : Container) : Bool := c.entries.isEmpty

/-- The entry of an object that a write creates: the included properties and the key. -/
def createdEntry (c : Container) (h : Header) (o : Object) (now : Instant) : Entry where
  object := o.restrict (h.attributes ∪ c.schema.keyProperties)
  provenance := .ofCreate h now

/-- An entry after a write to its key: the included properties apart from the key are
merged. -/
def writtenEntry (c : Container) (e : Entry) (operation : Operation) (h : Header) (o : Object)
    (now : Instant) : Entry where
  object := e.object.merge o (h.attributes \ c.schema.keyProperties)
  provenance := e.provenance.next operation h now

/-- Create or update the entry of an object. -/
def insert (c : Container) (h : Header) (o : Object) (now : Instant) :
    Outcome (Container × Entry) :=
  match c.schema.keyOf o with
  | .error e => .error e
  | .ok key =>
    let entry := match c.find? key with
      | none => c.createdEntry h o now
      | some e => c.writtenEntry e .update h o now
    .ok ({ c with entries := c.entries.insert key entry }, entry)

/-- Take the entry of an object out. The entry that is given back carries the removal's
properties; there is none when the key is not cached. -/
def remove (c : Container) (h : Header) (o : Object) (now : Instant) :
    Outcome (Container × Option Entry) :=
  match c.schema.keyOf o with
  | .error e => .error e
  | .ok key =>
    match c.find? key with
    | none => .ok (c, none)
    | some e =>
      .ok ({ c with entries := c.entries.erase key }, some (c.writtenEntry e .remove h o now))

/-- All entries. -/
def snapshot (c : Container) : List Entry := c.entries.values

/-- All cached objects. -/
def objects (c : Container) : List Object := c.snapshot.map (·.object)

/-- The objects that a peer wrote last. -/
def writtenBy (c : Container) (peer : PeerId) : List Object :=
  (c.snapshot.filter fun e => e.provenance.lastUpdateFrom == peer).map (·.object)

/-- Whether a peer created or last wrote some cached object. -/
def mentions (c : Container) (peer : PeerId) : Bool :=
  c.snapshot.any fun e => e.provenance.mentions peer

/-- The header of one entry in a replay, with the number of entries that follow it. -/
def replayHeader (c : Container) (e : Entry) (left : Nat) (now : Instant) : Header where
  typeName := c.schema.name
  sender := some e.provenance.lastUpdateFrom
  sentTime := some e.provenance.modified
  serverSentTime := some now
  attributes := c.schema.validProperties e.object
  fromCache := some (UInt32.ofNat left)
  nameSpace := if c.schema.flags.internal then some controlNamespace else none

/-- Transmissions of the given entries, counting down to zero. -/
def replayOf (c : Container) (now : Instant) : List Entry → List Transmission
  | [] => []
  | e :: rest =>
    .ofObject (c.replayHeader e rest.length now) e.object :: c.replayOf now rest

/-- The stream that brings a peer who joins up to date. -/
def replay (c : Container) (now : Instant) : List Transmission := c.replayOf now c.snapshot

end Container

/-- The containers of all cached types, each created when its type is first used. -/
structure ContainerPool where
  /-- The containers by type name. -/
  containers : SortedMap String Container

namespace ContainerPool

/-- The pool without containers. -/
def empty : ContainerPool := ⟨.empty⟩

instance : Inhabited ContainerPool := ⟨empty⟩

/-- The container of a type. -/
def find? (p : ContainerPool) (typeName : String) : Option Container :=
  p.containers.find? typeName

/-- The container of a type, empty if there was none. -/
def getD (p : ContainerPool) (schema : StructSchema) : Container :=
  (p.find? schema.name).getD (.empty schema)

/-- Put a container in the place of its type. -/
def put (p : ContainerPool) (typeName : String) (c : Container) : ContainerPool :=
  ⟨p.containers.insert typeName c⟩

/-- Make sure that a type has a container. -/
def touch (p : ContainerPool) (schema : StructSchema) : ContainerPool :=
  p.put schema.name (p.getD schema)

/-- How many types have a container. -/
def size (p : ContainerPool) : Nat := p.containers.size

/-- Whether no type has a container. -/
def isEmpty (p : ContainerPool) : Bool := p.containers.isEmpty

end ContainerPool

end ObjectBus
