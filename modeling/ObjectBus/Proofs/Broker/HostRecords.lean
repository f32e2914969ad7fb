import ObjectBus.Proofs.Broker.Authority

/-!
# The host's records under frames from guests

The records of peers and the announcements of types are the host's, and a guest that sends such a
record is thrown out. A frame can change a record in two ways nevertheless. The host renews the
records of what it tells observers meanwhile: of peers whose connections change their states, and of
types that become known. And a guest may ask to clear the caches of the host's records like any
others, which takes them all out.

* `Renews`: the keys of the records that the host renews;
* `Reachable.hostRecord_kept`: all other records outlast a frame that does not ask to clear them;
* `announcements_cleared`: one that does takes records out of which nothing was told.
-/

namespace ObjectBus

/-- The key of the record of a peer. -/
theorem PeerState.keyOf_record (peer : PeerId) (name : String) (state : ConnectionState) :
    schema.keyOf (record peer name state) = .ok [.uint peer.toUInt64] := rfl

/-- The key of the announcement of a type. -/
theorem TypeAnnounce.keyOf_record (id : UInt32) (s : StructSchema) :
    schema.keyOf (record id s) = .ok [.uint id.toUInt64] := rfl

namespace Broker

variable {now : Instant} {b b' : Broker} {peer : PeerId} {c : Connection} {t : Transmission}
variable {typeName : String} {key : ObjectKey}

/-- Under the key of a record something is told of which the host keeps a record there. -/
inductive Renews (events : List BrokerEvent) : String → ObjectKey → Prop
  /-- A connection has changed its state. -/
  | peer {peer : PeerId} {name : String} {state : ConnectionState} {cause : Option String}
      (h : .peerState peer name state cause ∈ events) :
      Renews events peerStateType [.uint peer.toUInt64]
  /-- A type has become known. -/
  | type {id : UInt32} {name : String} (h : .typeAnnounced id name ∈ events) :
      Renews events typeAnnounceType [.uint id.toUInt64]

/-- To a broker that knows the built-in types, an object of one of them belongs to the definition
that every registry starts with. -/
theorem KnowsBuiltin.schema_eq (hb : b.KnowsBuiltin) {p : Passage} (hof : p.IsOf b.registry)
    {s : StructSchema} (hs : s ∈ builtinStructs) (htype : p.object.typeName = s.name) :
    p.schema = s := by
  have hname : p.schema.name = s.name := hof.typeName_object.symm.trans htype
  exact Option.some.inj (hof.registered.symm.trans (hname ▸ hb s hs))

/-- No built-in type asks for clean-up. -/
theorem KnowsBuiltin.cleanup_eq_false (hb : b.KnowsBuiltin) {p : Passage}
    (hof : p.IsOf b.registry) (hrecord : isHostRecord p.schema.name = true) :
    p.schema.flags.cleanup = false := by
  have htype : p.object.typeName = p.schema.name := hof.typeName_object
  have hname : p.schema.name = peerStateType ∨ p.schema.name = typeAnnounceType := by
    simpa [isHostRecord] using hrecord
  rcases hname with hname | hname
  · rw [hb.schema_eq hof (s := PeerState.schema) (by simp [builtinStructs]) (htype.trans hname)]
    rfl
  · rw [hb.schema_eq hof (s := TypeAnnounce.schema) (by simp [builtinStructs])
      (htype.trans hname)]
    rfl

/-- A deed of the host under the key of a record renews it or clears it. -/
theorem Deed.renews {cleared : String → Prop} {p : Passage} (h : Deed now b b' cleared p)
    (hb : b'.KnowsBuiltin) (hof : p.IsOf b'.registry)
    (hrecord : isHostRecord p.schema.name = true) (hkey : p.schema.keyOf p.object = .ok key) :
    cleared p.schema.name ∨ Renews (b.newEvents b') p.schema.name key := by
  cases h with
  | errand h =>
    cases h with
    | @announcement schema known id htold =>
      obtain rfl : schema = TypeAnnounce.schema :=
        hb.schema_eq hof (by simp [builtinStructs]) rfl
      obtain rfl : [.uint id.toUInt64] = key :=
        Except.ok.inj ((TypeAnnounce.keyOf_record id known).symm.trans hkey)
      exact .inr (.type htold)
    | clear hcleared => exact .inl hcleared
  | record h =>
    obtain @⟨schema, peer, name, state, cause, htold, -⟩ := h
    obtain rfl : schema = PeerState.schema := hb.schema_eq hof (by simp [builtinStructs]) rfl
    obtain rfl : [.uint peer.toUInt64] = key :=
      Except.ok.inj ((PeerState.keyOf_record peer name state).symm.trans hkey)
    exact .inr (.peer htold)
  | cleanUp _ _ hcleanup _ =>
    have hnot := hb.cleanup_eq_false hof hrecord
    exact absurd hcleanup (by simpa [Passage.removal] using hnot)

/-- A frame of a guest leaves every record of the host as it is, unless it asks to clear the cache
of such records or observers are told of what the record is about. -/
theorem Reachable.hostRecord_kept (hb : b.Reachable) (hbuiltin : b.KnowsBuiltin)
    (hc : b.connections.find? peer = some c) (t : Transmission) (now : Instant)
    (hrecord : isHostRecord typeName = true) (hclear : ¬Clears t typeName)
    (hold : ¬Renews (b.newEvents (b.perform (.receive peer t) now)) typeName key) :
    (b.perform (.receive peer t) now).cachedAt? typeName key = b.cachedAt? typeName key := by
  have hbuiltin' : (b.perform (.receive peer t) now).KnowsBuiltin :=
    hbuiltin.perform hb.rested _ now
  have hdoes := (hb.does_frame hc t now)
  refine hdoes.spares fun p hp hof hname hkey => ?_
  subst hname
  -- Under the key goes an object of the guest, which is of no reserved type, or a deed of the host.
  rcases hp with hauthored | hdeed
  · refine hauthored.ordinary ((hbuiltin.reserved_iff).2 ?_)
    simpa [isHostRecord] using hrecord
  · exact (hdeed.renews hbuiltin' hof hrecord hkey).elim hclear hold

/-- A broker that knows the built-in types, and that one guest has reached. -/
def lobby : Broker :=
  (new "lobby" default).value.after
    [(.accept (.reliable "guest"), default),
      (.receive 2 (.ofControl (.connectAs "guest" false) default), default)]

theorem reachable_lobby : lobby.Reachable := Reachable.after (reachable_new "lobby" default) _

theorem knowsBuiltin_lobby : lobby.KnowsBuiltin := by
  have hstart : (new "lobby" default).value.KnowsBuiltin :=
    knowsBuiltin_ofRegistry findStruct?_builtin _ _ _
  exact hstart.after (reachable_new "lobby" default) _

/-- The guest asks to clear the announcements of types. -/
def clearAnnouncements : Transmission := .ofControl (.clearCache [typeAnnounceType]) default

/-- The record of the guest outlasts the frame by which it has the announcements cleared. -/
theorem hostRecord_kept_in_lobby :
    (lobby.perform (.receive 2 clearAnnouncements) default).cachedAt? peerStateType [.uint 2] =
      lobby.cachedAt? peerStateType [.uint 2] := by
  obtain ⟨c, hc⟩ : ∃ c, lobby.connections.find? 2 = some c := ⟨_, rfl⟩
  have hclear : ¬Clears clearAnnouncements peerStateType := by
    rintro ⟨typeNames, hpayload, hmem⟩
    cases hpayload
    exact absurd (List.mem_singleton.1 hmem) (by decide)
  -- Observers are told of the two announcements that are taken out, and of nothing else.
  obtain ⟨first, second, hevents⟩ : ∃ first second,
      lobby.newEvents (lobby.perform (.receive 2 clearAnnouncements) default) =
        [.object first, .object second] := ⟨_, _, rfl⟩
  have hold : ∀ typeName key, ¬Renews (lobby.newEvents
      (lobby.perform (.receive 2 clearAnnouncements) default)) typeName key := by
    rw [hevents]
    rintro typeName key (htold | htold)
    · simp at htold
    · simp at htold
  exact Reachable.hostRecord_kept reachable_lobby knowsBuiltin_lobby hc _ _ rfl hclear (hold _ _)

/-- The announcements of types do not outlast it, although no type becomes known meanwhile. -/
theorem announcements_cleared : ∃ e, lobby.cachedAt? typeAnnounceType [.uint 1] = some e ∧
    (lobby.perform (.receive 2 clearAnnouncements) default).cachedAt? typeAnnounceType [.uint 1] =
      none :=
  ⟨_, rfl, rfl⟩

end Broker

end ObjectBus
