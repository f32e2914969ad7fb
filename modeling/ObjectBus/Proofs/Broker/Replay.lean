import ObjectBus.Proofs.Broker.Convergence
import ObjectBus.Proofs.Broker.Refusal

/-!
# Replays

A guest that joins the group of a cached type is brought up to date: it is handed every cached
object once, with the number of objects that follow, and a mark of their end. Apart from the
membership of the guest nothing else changes.

* `Channel.Takes`, `Channel.handed`: a channel that does not fail while it is handed some frames;
* `Container.Carries`: the frame that brings a peer one cached object;
* `Container.Replayed`: the frames that bring a peer all of them;
* `Reachable.receive_of_join`: what the request to join makes of the broker, as a whole;
* `Reachable.replay_complete`: and what the guest is handed.
-/

namespace ObjectBus

/-! ## Channels that do not fail -/

namespace Channel

/-- A channel takes all of the transmissions, one after the other. -/
def Takes (c : Channel) : List Transmission → Prop
  | [] => True
  | t :: rest =>
    c.refusal c.trace t = none ∧ Takes { c with trace := c.trace ++ [.sent t] } rest

/-- A channel when it has taken the transmissions. -/
def handed (c : Channel) (ts : List Transmission) : Channel :=
  { c with trace := c.trace ++ ts.map ChannelAction.sent }

@[simp]
theorem handed_nil (c : Channel) : c.handed [] = c := by simp [handed]

theorem handed_cons (c : Channel) (t : Transmission) (ts : List Transmission) :
    c.handed (t :: ts) = handed { c with trace := c.trace ++ [.sent t] } ts := by
  simp [handed]

@[simp]
theorem sent_handed (c : Channel) (ts : List Transmission) :
    (c.handed ts).sent = c.sent ++ ts := by
  have hsent : (ts.map ChannelAction.sent).filterMap (·.sent?) = ts := by
    simp [List.filterMap_map, ChannelAction.sent?]
  rw [sent, handed, List.filterMap_append, hsent, sent]

end Channel

/-- A connection that takes part and whose channel does not fail sends everything, and nothing else
about it changes. -/
theorem Connection.value_foldl_send_of_takes {c : Connection} {ts : List Transmission}
    (hstate : c.state ≠ .closed ∧ c.state ≠ .suspended) (htakes : c.channel.Takes ts) :
    ts.foldl (fun c t => (c.send t).value) c = { c with channel := c.channel.handed ts } := by
  induction ts generalizing c with
  | nil => simp
  | cons t rest ih =>
    obtain ⟨htaken, hrest⟩ := htakes
    let next : Connection :=
      { c with channel := { c.channel with trace := c.channel.trace ++ [.sent t] } }
    have hsend : (c.send t).value = next := value_send_of_taken hstate htaken
    rw [List.foldl_cons, hsend, ih (c := next) hstate hrest, Channel.handed_cons]

/-! ## The frames of a replay -/

namespace Container

variable {c : Container} {now : Instant}

/-- A frame brings a peer a cached object: all of it, as from its last writer and at the time of the
last write, with the properties that are set and the number of objects that follow. -/
structure Carries (c : Container) (e : Entry) (left : Nat) (t : Transmission) : Prop where
  /-- The object as it is cached. -/
  payload : t.payload = .object e.object
  /-- Its type. -/
  typeName : t.header.typeName = c.schema.name
  /-- Who wrote it last. -/
  sender : t.header.sender = some e.provenance.lastUpdateFrom
  /-- When that was sent. -/
  sentTime : t.header.sentTime = some e.provenance.modified
  /-- The properties that are set. -/
  attributes : ∀ tag, t.header.attributes.contains tag = true ↔ e.object.get? tag ≠ none
  /-- How many objects follow, as far as the header can tell. -/
  fromCache : t.header.fromCache = some (UInt32.ofNat left)

/-- Some frames bring a peer all cached objects: there is one frame for each entry, counting down to
zero, and then the mark of the end. -/
def Replayed (c : Container) (now : Instant) (frames : List Transmission) : Prop :=
  ∃ entries : List (ObjectKey × Entry), (entries.map (·.1)).Nodup ∧
    (∀ key e, (key, e) ∈ entries ↔ c.find? key = some e) ∧
    entries.length = c.size ∧ frames.length = c.size + 1 ∧
    (∀ i key e, entries[i]? = some (key, e) →
      ∃ t, frames[i]? = some t ∧ c.Carries e (c.size - 1 - i) t) ∧
    frames[c.size]? = some (.ofControl (.endOfReplay c.schema.name) now)

theorem length_replayOf (c : Container) (now : Instant) (entries : List Entry) :
    (c.replayOf now entries).length = entries.length := by
  induction entries with
  | nil => rfl
  | cons e rest ih => simp [replayOf, ih]

/-- Each frame of a replay is made from the entry in its place. -/
theorem getElem?_replayOf (c : Container) (now : Instant) (entries : List Entry) (i : Nat) :
    (c.replayOf now entries)[i]? = entries[i]?.map fun e =>
      .ofObject (c.replayHeader e (entries.length - 1 - i) now) e.object := by
  induction entries generalizing i with
  | nil => rfl
  | cons e rest ih =>
    cases i with
    | zero => simp [replayOf]
    | succ i =>
      have hleft : rest.length - 1 - i = (e :: rest).length - 1 - (i + 1) := by
        rw [List.length_cons]
        omega
      rw [replayOf, List.getElem?_cons_succ, List.getElem?_cons_succ, ih, hleft]

theorem carries_replayHeader (hcheck : c.schema.checkDefinition = .ok ()) (hvalid : c.Valid)
    {key : ObjectKey} {e : Entry} (he : c.find? key = some e) (left : Nat) (now : Instant) :
    c.Carries e left (.ofObject (c.replayHeader e left now) e.object) where
  payload := rfl
  typeName := rfl
  sender := rfl
  sentTime := rfl
  attributes tag := by
    constructor
    · intro htag
      have hset : (c.schema.validProperties e.object).contains tag = true := htag
      rw [StructSchema.validProperties, PropertySet.contains_inter, Bool.and_eq_true] at hset
      exact (Object.contains_setProperties_iff.1 hset.1).2
    · exact StructSchema.contains_validProperties_of_validate hcheck (hvalid key e he).1
  fromCache := rfl

/-- The replay of a container and the mark of its end bring a peer all cached objects. -/
theorem replayed_replay (hcheck : c.schema.checkDefinition = .ok ()) (hvalid : c.Valid)
    (now : Instant) :
    c.Replayed now (c.replay now ++ [.ofControl (.endOfReplay c.schema.name) now]) := by
  have hlength : (c.replay now).length = c.size := by
    rw [replay, length_replayOf, snapshot, KeyedList.values, List.length_map, size,
      KeyedList.size]
  refine ⟨c.entries.toList, c.entries.nodup, fun key e => KeyedList.find?_eq_some_iff.symm, rfl,
    by simp [hlength], fun i key e hi => ?_, ?_⟩
  -- Before the mark of the end, the frame in a place is made from the entry in that place.
  · have hmem : c.find? key = some e :=
      KeyedList.find?_eq_some_iff.2 (List.mem_of_getElem? hi)
    have hframe : (c.replay now)[i]? =
        some (.ofObject (c.replayHeader e (c.size - 1 - i) now) e.object) := by
      rw [replay, getElem?_replayOf, snapshot, KeyedList.values, List.getElem?_map, hi,
        List.length_map]
      rfl
    refine ⟨_, ?_, carries_replayHeader hcheck hvalid hmem _ now⟩
    rw [List.getElem?_append_left (List.getElem?_eq_some_iff.1 hframe).1, hframe]
  · rw [← hlength, List.getElem?_append_right (Nat.le_refl _), Nat.sub_self]
    rfl

end Container

/-! ## Joining a group -/

/-- A peer is counted once among the members of a group that it joined. -/
theorem GroupTable.count_members_join (groups : GroupTable) (group : String) (peer : PeerId) :
    ∃ g, (groups.join group peer).value.1.find? group = some g ∧ g.members.count peer = 1 := by
  -- The members are the keys of a map, so that none is listed twice.
  have hmember : (groups.join group peer).value.1.hasMember group peer = true := by
    rw [hasMember_join]
    simp
  unfold hasMember at hmember
  split at hmember
  · rename_i g hg
    have hmem : peer ∈ g.members :=
      SortedMap.mem_keys_iff.2 (SortedMap.contains_eq_true_iff.1 hmember)
    exact ⟨g, hg, List.count_eq_one_of_mem g.membership.nodup_keys hmem⟩
  · cases hmember

namespace Broker

variable {b : Broker} {now : Instant} {peer : PeerId} {c : Connection} {t : Transmission}
variable {group : String}

/-- Joining a group makes the guest a member and sends it what it missed; the caches stay as they
are, because every registered cached type has a container already. -/
theorem value_changeMembership_join (hb : b.Sound) (hstock : b.Stocked)
    (hc : b.connections.find? peer = some c) (group : String) (now : Instant) :
    (b.changeMembership peer group .join now).value =
      ({ b with groups := (b.groups.join group peer).value.1 }.putConnection peer
        ((b.joinFrames group now).foldl (fun c t => (c.send t).value) c), .ok ()) := by
  let joined : Broker := { b with groups := (b.groups.join group peer).value.1 }
  have hkept : joined.putConnection peer c = joined := putConnection_self hc
  unfold changeMembership joinFrames
  simp only [Noted.value_bind]
  cases hschema : b.registry.findStruct? group with
  | none =>
    rw [List.foldl_nil, hkept]
    rfl
  | some schema =>
    simp only
    split
    · rename_i hcached
      obtain ⟨-, hs⟩ := hb.findStruct?_name hschema
      rw [value_replayTo joined schema now hc]
      -- A replay makes sure that there is a container, and there is one already.
      have htouch : joined.dispatcher.pool.touch schema = b.dispatcher.pool :=
        touch_of_stocked (hstock schema.name schema hs hcached)
      rw [htouch]
      rfl
    · rw [List.foldl_nil, hkept]
      rfl

/-- The request to join a group, when the guest has named itself and its channel does not fail: the
guest becomes a member and is handed what it missed, nothing else changes, and the broker goes on
reading. -/
theorem Reachable.receive_of_join (hb : b.Reachable) (hc : b.connections.find? peer = some c)
    (hstate : c.state = .earlySubscribe ∨ c.state = .connected)
    (hspace : t.header.isControl = true) (hpayload : t.payload = .control (.member group .join))
    (htakes : c.channel.Takes (b.joinFrames group now)) :
    (b.receive peer t now).value =
      ({ b with groups := (b.groups.join group peer).value.1 }.putConnection peer
        { c with channel := c.channel.handed (b.joinFrames group now) }, .proceed) := by
  obtain ⟨hqueue, hopen⟩ := hb.rested peer c hc
  have hstates : c.state ≠ .closed ∧ c.state ≠ .suspended :=
    ⟨Connection.isClosed_eq_false_iff.1 hopen, hb.state_ne_suspended hc⟩
  -- The connection hands the request on and stays as it is.
  have hreceive : (c.receive t now).value = (c, .control (.member group .join)) := by
    rw [Connection.receive_of_message hopen hpayload hspace rfl]
    unfold Connection.receiveMessage
    rcases hstate with hstate | hstate <;> rw [hstate] <;> rfl
  let joined : Broker :=
    { b with groups := (b.groups.join group peer).value.1 }.putConnection peer
      { c with channel := c.channel.handed (b.joinFrames group now) }
  have hjoin : (b.changeMembership peer group .join now).value = (joined, .ok ()) := by
    rw [value_changeMembership_join hb.sound hb.stocked hc,
      Connection.value_foldl_send_of_takes hstates htakes]
  -- Nothing was queued, so there is nothing to drain.
  have hrests : joined.Rested :=
    Rested.putConnection (b := { b with groups := _ }) hb.rested hqueue hopen
  have hflow : joined.flow peer = .proceed := flow_putConnection _ hopen
  unfold receive
  simp only [hc, Noted.value_bind, Noted.value_pure, hreceive, putConnection_self hc,
    acceptReceived, acceptRequest, hjoin, settle, drain_of_rested hrests now, hflow]
  rfl

/-- What a guest that joins the group of a registered cached type is sent brings it all cached
objects. -/
theorem Reachable.replayed_joinFrames (hb : b.Reachable) {schema : StructSchema}
    (hschema : b.registry.findStruct? group = some schema) (hcached : schema.flags.cached = true)
    (now : Instant) :
    ∃ cache, b.container? group = some cache ∧ cache.schema = schema ∧
      cache.Replayed now (b.joinFrames group now) := by
  obtain ⟨rfl, -⟩ := hb.sound.findStruct?_name hschema
  have hcache := hb.container?_eq_cacheOf hschema hcached
  -- The container is under the definition that is registered now.
  have hsame : (b.cacheOf schema).schema = schema :=
    Option.some.inj ((hb.sound.schemas _ _ hcache).1.symm.trans hschema)
  have hcheck : (b.cacheOf schema).schema.checkDefinition = .ok () := by
    rw [hsame]
    exact (hb.sound.registry _ _ hschema).2
  have hreplayed := Container.replayed_replay hcheck (hb.sound.valid _ _ hcache) now
  refine ⟨_, hcache, hsame, ?_⟩
  unfold joinFrames
  simp only [hschema, hcached, if_true]
  rwa [hsame] at hreplayed

/-- A guest that joins any other group is sent nothing. -/
theorem joinFrames_of_uncached
    (hother : ∀ schema, b.registry.findStruct? group = some schema → schema.flags.cached = false)
    (now : Instant) : b.joinFrames group now = [] := by
  unfold joinFrames
  cases hschema : b.registry.findStruct? group with
  | none => rfl
  | some schema => simp [hother schema hschema]

/-- Joining the group of a registered cached type, a guest that has named itself and whose channel
does not fail is handed one frame for each cached object and then the mark of the end; joining any
other group, it is handed nothing. The guest is a member once, also when it was one before. Nothing
else about the broker changes. -/
theorem Reachable.replay_complete (hb : b.Reachable) (hc : b.connections.find? peer = some c)
    (hstate : c.state = .earlySubscribe ∨ c.state = .connected)
    (hspace : t.header.isControl = true) (hpayload : t.payload = .control (.member group .join))
    (htakes : c.channel.Takes (b.joinFrames group now)) :
    let groups := (b.groups.join group peer).value.1
    let c' : Connection := { c with channel := c.channel.handed (b.joinFrames group now) }
    (b.receive peer t now).value = ({ b with groups := groups }.putConnection peer c', .proceed) ∧
    c'.channel.sent = c.channel.sent ++ b.joinFrames group now ∧
    (∀ schema, b.registry.findStruct? group = some schema → schema.flags.cached = true →
      ∃ cache, b.container? group = some cache ∧ cache.schema = schema ∧
        cache.Replayed now (b.joinFrames group now)) ∧
    ((∀ schema, b.registry.findStruct? group = some schema → schema.flags.cached = false) →
      b.joinFrames group now = []) ∧
    (∃ g, groups.find? group = some g ∧ g.members.count peer = 1) ∧
    ∀ name q, groups.hasMember name q =
      (decide (name = group ∧ q = peer) || b.groups.hasMember name q) := by
  intro groups c'
  exact ⟨hb.receive_of_join hc hstate hspace hpayload htakes, Channel.sent_handed _ _,
    fun schema hschema hcached => hb.replayed_joinFrames hschema hcached now,
    fun hother => joinFrames_of_uncached hother now, b.groups.count_members_join group peer,
    fun name q => b.groups.hasMember_join group name peer q⟩

/-- A reader that joins the notes on the board once it is connected is handed the one that is there
and the mark of the end. -/
theorem replay_to_reader : ∃ c cache,
    (boardWithReader false).connections.find? 2 = some c ∧
    (boardWithReader false).container? noteSchema.name = some cache ∧ cache.size = 1 ∧
    cache.Replayed default ((boardWithReader false).joinFrames noteSchema.name default) ∧
    ((boardWithReader false).perform (.receive 2 joinNotes) default).channel? 2 =
      some (c.channel.handed ((boardWithReader false).joinFrames noteSchema.name default)) ∧
    ∀ q, q ≠ 2 → ((boardWithReader false).perform (.receive 2 joinNotes) default).groups.hasMember
      noteSchema.name q = (boardWithReader false).groups.hasMember noteSchema.name q := by
  obtain ⟨c, hc, hstate, htakes⟩ : ∃ c, (boardWithReader false).connections.find? 2 = some c ∧
      c.state = .connected ∧
      c.channel.Takes ((boardWithReader false).joinFrames noteSchema.name default) :=
    ⟨_, rfl, rfl, rfl, rfl, trivial⟩
  obtain ⟨hreceive, -, hcached, -, -, hmembers⟩ :=
    Reachable.replay_complete (b := boardWithReader false) (t := joinNotes)
      (reachable_board.perform _ _) hc (.inr hstate) rfl rfl htakes
  obtain ⟨cache, hcache, -, hreplayed⟩ := hcached noteSchema rfl rfl
  have hsize : (some cache).map Container.size = some 1 := by
    rw [← hcache]
    rfl
  have hfinal := congrArg Prod.fst hreceive
  refine ⟨c, cache, hc, hcache, Option.some.inj hsize, hreplayed, ?_, fun q hq => ?_⟩
  · rw [perform, hfinal]
    simp [channel?, connection?]
  · rw [perform, hfinal]
    exact (hmembers noteSchema.name q).trans (by simp [hq])

end Broker

end ObjectBus
