import ObjectBus.Connection

/-!
# Groups

A group is named after the type, or the destination, of its traffic. Its members are numbers of
peers; their connections live in the broker's table and are looked up on delivery.
-/

namespace ObjectBus

/-- A table of connections by peer. -/
abbrev ConnectionTable := SortedMap PeerId Connection

/-- What became of one transmission to a group. -/
structure Delivery where
  /-- How many members it was handed to. -/
  delivered : Nat
  /-- The members whose connection closed meanwhile, in ascending order. -/
  failed : List PeerId
deriving DecidableEq, Repr, Inhabited

/-- A set of peers that receive the same traffic. -/
structure Group where
  /-- The name. -/
  name : String
  /-- The members. -/
  membership : SortedMap PeerId Unit
deriving DecidableEq

namespace Group

/-- The topic of this module's notes. -/
private def topic : String := "group"

/-- The group without members. -/
def empty (name : String) : Group := ⟨name, .empty⟩

instance : Inhabited Group := ⟨empty ""⟩

/-- The members in ascending order. -/
def members (g : Group) : List PeerId := g.membership.keys

/-- Whether a peer is a member. -/
def contains (g : Group) (peer : PeerId) : Bool := g.membership.contains peer

/-- How many members there are. -/
def size (g : Group) : Nat := g.membership.size

/-- Whether there are no members. -/
def isEmpty (g : Group) : Bool := g.membership.isEmpty

/-- Add a member. Says whether the peer was none before. -/
def join (g : Group) (peer : PeerId) : Noted (Group × Bool) :=
  if g.contains peer then do
    Noted.note .warn topic "peer already member of group"
      [("group", .shown g.name), ("peer", .number peer)]
    pure (g, false)
  else pure ({ g with membership := g.membership.insert peer () }, true)

/-- Take a member out. Says whether the peer was one. -/
def leave (g : Group) (peer : PeerId) : Noted (Group × Bool) :=
  if g.contains peer then pure ({ g with membership := g.membership.erase peer }, true)
  else do
    Noted.note .warn topic "peer is not a member of group"
      [("group", .shown g.name), ("peer", .number peer)]
    pure (g, false)

/-- Take a member out, or do nothing. -/
def drop (g : Group) (peer : PeerId) : Group :=
  { g with membership := g.membership.erase peer }

/-- Hand a transmission to one peer, if its connection is there and takes part in traffic. -/
def deliverTo (t : Transmission) (table : ConnectionTable) (delivery : Delivery) (peer : PeerId) :
    Noted (ConnectionTable × Delivery) :=
  match table.find? peer with
  | none => pure (table, delivery)
  | some c =>
    if c.state.receivesFanout then do
      let c ← c.send t
      let table := table.insert peer c
      if c.isClosed then pure (table, { delivery with failed := delivery.failed ++ [peer] })
      else pure (table, { delivery with delivered := delivery.delivered + 1 })
    else pure (table, delivery)

/-- Hand a transmission to the listed peers one after the other. -/
def deliverAll (t : Transmission) :
    List PeerId → ConnectionTable → Delivery → Noted (ConnectionTable × Delivery)
  | [], table, delivery => pure (table, delivery)
  | peer :: rest, table, delivery => do
    let r ← deliverTo t table delivery peer
    deliverAll t rest r.1 r.2

/-- Hand a transmission to every member that takes part in traffic. A member that fails is
closed by its own connection, and the others are served all the same. -/
def deliver (g : Group) (t : Transmission) (table : ConnectionTable) :
    Noted (ConnectionTable × Delivery) :=
  deliverAll t g.members table ⟨0, []⟩

end Group

/-- All groups, each created when it is first joined. -/
structure GroupTable where
  /-- The groups by name. -/
  groups : SortedMap String Group
deriving DecidableEq

namespace GroupTable

/-- The table without groups. -/
def empty : GroupTable := ⟨.empty⟩

instance : Inhabited GroupTable := ⟨empty⟩

/-- The group of a name. -/
def find? (t : GroupTable) (name : String) : Option Group := t.groups.find? name

/-- Let a peer join a group. Says whether it was no member before. -/
def join (t : GroupTable) (name : String) (peer : PeerId) : Noted (GroupTable × Bool) := do
  Noted.note .debug Group.topic "join" [("group", .text name), ("peer", .number peer)]
  let r ← ((t.find? name).getD (.empty name)).join peer
  pure (⟨t.groups.insert name r.1⟩, r.2)

/-- Let a peer leave a group. Says whether it was a member. -/
def leave (t : GroupTable) (name : String) (peer : PeerId) : Noted (GroupTable × Bool) :=
  match t.find? name with
  | none => do
    Noted.note .error Group.topic "leave for unknown group"
      [("group", .text name), ("peer", .number peer)]
    pure (t, false)
  | some g => do
    Noted.note .debug Group.topic "leave" [("group", .text name), ("peer", .number peer)]
    let r ← g.leave peer
    pure (⟨t.groups.insert name r.1⟩, r.2)

/-- Take a peer out of every group. -/
def drop (t : GroupTable) (peer : PeerId) : GroupTable := ⟨t.groups.map fun _ g => g.drop peer⟩

/-- The names of the groups of a peer, in order. -/
def memberships (t : GroupTable) (peer : PeerId) : List String :=
  (t.groups.values.filter (·.contains peer)).map (·.name)

/-- Hand a transmission to a group. A group that nobody ever joined receives nothing. -/
def deliver (t : GroupTable) (name : String) (transmission : Transmission)
    (table : ConnectionTable) : Noted (ConnectionTable × Delivery) :=
  match t.find? name with
  | none => pure (table, ⟨0, []⟩)
  | some g => g.deliver transmission table

end GroupTable

end ObjectBus
