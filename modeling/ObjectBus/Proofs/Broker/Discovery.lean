import ObjectBus.Proofs.Broker.Bystander
import ObjectBus.Proofs.Broker.HostRecords
import ObjectBus.Proofs.Schema.Discovery

/-!
# Discoveries

A guest that asks for type definitions is handed those that its lists select, in one reply with a
mark of its end, and nothing else about the broker changes.

* `Reachable.enumsNamed`: enum types are known under their names;
* `Reachable.receive_of_request`: what a request for definitions makes of the broker, as a whole;
* `Reachable.discovery_answered`: and what the guest is handed;
* `Reachable.enums_precede`: which enum types it has when a struct type reaches it.
-/

namespace ObjectBus.Broker

variable {b b' : Broker} {call : BrokerCall} {now : Instant} {peer : PeerId} {c : Connection}
variable {t : Transmission} {whitelist blacklist : Option (List String)}

/-! ## Enum types and their names -/

/-- Every step keeps enum types under their names. -/
theorem Step.enumsNamed (h : Step call now b b') (hnamed : b.registry.EnumsNamed) :
    b'.registry.EnumsNamed := by
  cases h with
  | learnEnum schema => exact Registry.enumsNamed_addEnum hnamed schema
  | publish => rwa [registry_dispatch]
  | dispatch => rwa [registry_dispatch]
  | replay _ _ _ _ hc => rwa [value_replayTo _ _ _ hc]
  | accept | hear | act | forward | join | leave | learn | announce | subscribe | unsubscribe |
    forgetClosed => exact hnamed

/-- In a reachable broker every enum type is known under its own name. -/
theorem Reachable.enumsNamed (h : b.Reachable) : b.registry.EnumsNamed :=
  Reachable.induction (I := fun b => b.registry.EnumsNamed)
    (fun _ _ hbuilt => hbuilt.enumsNamed) (fun hnamed _ => hnamed)
    (fun hnamed h => h.enumsNamed hnamed) (fun hnamed => hnamed)
    (fun hnamed _ => by rwa [registry_setAside]) h

/-! ## What a request does -/

/-- What the broker replies to a guest that asks for type definitions with some lists. -/
def discoveryReply (b : Broker) (whitelist blacklist : Option (List String)) :
    List ControlMessage :=
  Discovery.reply b.registry (whitelist.getD []) (blacklist.getD [])

/-- The frames of that reply. -/
def discoveryFrames (b : Broker) (whitelist blacklist : Option (List String)) (now : Instant) :
    List Transmission :=
  (b.discoveryReply whitelist blacklist).map (Transmission.ofControl · now)

/-- Answering a guest hands it the frames of the reply and changes nothing else. -/
theorem value_discover (hc : b.connections.find? peer = some c)
    (whitelist blacklist : Option (List String)) (now : Instant) :
    (b.discover peer (whitelist.getD []) (blacklist.getD []) now).value =
      (b.putConnection peer ((b.discoveryFrames whitelist blacklist now).foldl
        (fun c t => (c.send t).value) c), .ok ()) := by
  unfold discover
  simp only [hc, Noted.value_bind, Noted.value_foldlM, Noted.value_pure]
  rw [discoveryFrames, List.foldl_map]
  rfl

/-- The request for type definitions, when the guest has named itself and its channel does not fail:
the guest is handed the reply, nothing else changes, and the broker goes on reading. -/
theorem Reachable.receive_of_request (hb : b.Reachable)
    (hc : b.connections.find? peer = some c)
    (hstate : c.state = .earlySubscribe ∨ c.state = .connected)
    (hspace : t.header.isControl = true)
    (hpayload : t.payload = .control (.descriptorRequest whitelist blacklist))
    (htakes : c.channel.Takes (b.discoveryFrames whitelist blacklist now)) :
    (b.receive peer t now).value =
      (b.putConnection peer { c with
        channel := c.channel.handed (b.discoveryFrames whitelist blacklist now) }, .proceed) := by
  obtain ⟨hqueue, hopen⟩ := hb.rested peer c hc
  have hstates : c.state ≠ .closed ∧ c.state ≠ .suspended :=
    ⟨Connection.isClosed_eq_false_iff.1 hopen, hb.state_ne_suspended hc⟩
  -- The connection hands the request on and stays as it is.
  have hreceive : (c.receive t now).value =
      (c, .control (.descriptorRequest whitelist blacklist)) := by
    rw [Connection.receive_of_message hopen hpayload hspace rfl]
    unfold Connection.receiveMessage
    rcases hstate with hstate | hstate <;> rw [hstate] <;> rfl
  let answered : Broker := b.putConnection peer { c with
    channel := c.channel.handed (b.discoveryFrames whitelist blacklist now) }
  have hdiscover : (b.discover peer (whitelist.getD []) (blacklist.getD []) now).value =
      (answered, .ok ()) := by
    rw [value_discover hc, Connection.value_foldl_send_of_takes hstates htakes]
  -- Nothing was queued, so there is nothing to drain.
  have hrests : answered.Rested := Rested.putConnection hb.rested hqueue hopen
  have hflow : answered.flow peer = .proceed := flow_putConnection _ hopen
  unfold receive
  simp only [hc, Noted.value_bind, Noted.value_pure, hreceive, putConnection_self hc,
    acceptReceived, acceptRequest, hdiscover, settle, drain_of_rested hrests now, hflow]
  rfl

/-! ## A studio -/

/-- The shades of colours. -/
def shadeSchema : EnumSchema := ⟨"Shade", [⟨"light", 0⟩, ⟨"dark", 1⟩]⟩

/-- A type of things with a shade. -/
def shadedSchema (name : String) : StructSchema where
  name := name
  properties := [{ name := "shade", tag := 1, kind := .enumerator shadeSchema.name }]

/-- A type of things with many shades. -/
def paletteSchema : StructSchema where
  name := "Palette"
  properties := [{ name := "shades", tag := 1, kind := .list (.enumerator shadeSchema.name) }]

/-- A broker with a guest that knows brushes, paints and palettes. -/
def studio : Broker :=
  lobby.after
    [(.registerEnum shadeSchema, default), (.registerStruct (shadedSchema "Brush"), default),
      (.registerStruct (shadedSchema "Paint"), default), (.registerStruct paletteSchema, default)]

theorem reachable_studio : studio.Reachable := reachable_lobby.after _

/-- The guest asks for the types with the given names. -/
def askFor (names : List String) : Transmission :=
  .ofControl (.descriptorRequest (some names) none) default

/-- The guest of the studio takes whatever it is sent. -/
theorem studio_guest : ∃ c, studio.connections.find? 2 = some c ∧ c.state = .connected ∧
    c.channel.Lossless ∧ c.channel.isClosed = false :=
  ⟨_, rfl, rfl, Channel.lossless_reliable "guest", rfl⟩

/-! ## The answer -/

/-- A guest that asks for type definitions, in the control namespace as all control messages, that
has named itself and whose channel does not fail is handed an answer: the struct types that its
lists select in the order of their names, each enum type once and before a struct type that names
it, and then the mark of the end. Nothing else about the broker changes. -/
theorem Reachable.discovery_answered (hb : b.Reachable) (hc : b.connections.find? peer = some c)
    (hstate : c.state = .earlySubscribe ∨ c.state = .connected)
    (hspace : t.header.isControl = true)
    (hpayload : t.payload = .control (.descriptorRequest whitelist blacklist))
    (htakes : c.channel.Takes (b.discoveryFrames whitelist blacklist now)) :
    ∃ messages, Discovery.Answers b.registry whitelist blacklist messages ∧
      (c.channel.handed (messages.map (Transmission.ofControl · now))).sent =
        c.channel.sent ++ messages.map (Transmission.ofControl · now) ∧
      (b.receive peer t now).value = (b.putConnection peer { c with
        channel := c.channel.handed (messages.map (Transmission.ofControl · now)) }, .proceed) :=
  ⟨b.discoveryReply whitelist blacklist,
    Discovery.answers_reply hb.sound.registry hb.enumsNamed whitelist blacklist,
    Channel.sent_handed _ _, hb.receive_of_request hc hstate hspace hpayload htakes⟩

/-- The guest of the studio is told of brushes and paints, in whichever order and however often it
names them. -/
theorem brushes_and_paints_described : ∃ c messages, studio.connections.find? 2 = some c ∧
    Discovery.Answers studio.registry (some ["Paint", "Brush", "Paint", "Easel"]) none messages ∧
    (studio.perform (.receive 2 (askFor ["Paint", "Brush", "Paint", "Easel"])) default).channel? 2 =
      some (c.channel.handed (messages.map (Transmission.ofControl · default))) := by
  obtain ⟨c, hc, hstate, hlossless, hopen⟩ := studio_guest
  obtain ⟨messages, hanswers, -, hreceive⟩ :=
    Reachable.discovery_answered (t := askFor ["Paint", "Brush", "Paint", "Easel"])
      reachable_studio hc (.inr hstate) rfl rfl
      (hlossless.takes hopen (studio.discoveryFrames _ _ default))
  refine ⟨c, messages, hc, hanswers, ?_⟩
  rw [perform, congrArg Prod.fst hreceive]
  simp [channel?, connection?]

/-! ## Which enum types come with a struct type -/

/-- When a struct type reaches a guest that asked for definitions, it has been handed exactly those
registered enum types that a property of this struct type, or of one that came before it, names as
its kind. Kinds of lists are not searched. -/
theorem Reachable.enums_precede (hb : b.Reachable) (hc : b.connections.find? peer = some c)
    (hstate : c.state = .earlySubscribe ∨ c.state = .connected)
    (hspace : t.header.isControl = true)
    (hpayload : t.payload = .control (.descriptorRequest whitelist blacklist))
    (htakes : c.channel.Takes (b.discoveryFrames whitelist blacklist now)) :
    ∃ messages, (b.perform (.receive peer t) now).channel? peer =
        some (c.channel.handed (messages.map (Transmission.ofControl · now))) ∧
      ∀ before s after e, messages = before ++ .structSchema s :: after →
        (.enumSchema e ∈ before ↔ b.registry.findEnum? e.name = some e ∧
          ∃ s', (s' = s ∨ .structSchema s' ∈ before) ∧ s'.Names e.name) := by
  refine ⟨b.discoveryReply whitelist blacklist, ?_, fun before s after e hreply =>
    Discovery.mem_before_iff hb.enumsNamed hreply⟩
  rw [Broker.perform, congrArg Prod.fst (hb.receive_of_request hc hstate hspace hpayload htakes)]
  simp [channel?, connection?, discoveryFrames]

/-- The guest of the studio has the shades when it is told of paints. -/
theorem shades_precede_paints : ∃ c messages, studio.connections.find? 2 = some c ∧
    (studio.perform (.receive 2 (askFor ["Paint", "Brush"])) default).channel? 2 =
      some (c.channel.handed (messages.map (Transmission.ofControl · default))) ∧
    ∀ before after, messages = before ++ .structSchema (shadedSchema "Paint") :: after →
      .enumSchema shadeSchema ∈ before := by
  obtain ⟨c, hc, hstate, hlossless, hopen⟩ := studio_guest
  obtain ⟨messages, hchannel, henums⟩ :=
    Reachable.enums_precede (t := askFor ["Paint", "Brush"])
      reachable_studio hc (.inr hstate) rfl rfl
      (hlossless.takes hopen (studio.discoveryFrames _ _ default))
  refine ⟨c, messages, hc, hchannel, fun before after hmessages => ?_⟩
  have hnames : (shadedSchema "Paint").Names shadeSchema.name :=
    ⟨_, List.mem_singleton_self _, rfl⟩
  exact (henums _ _ _ _ hmessages).2 ⟨rfl, _, .inl rfl, hnames⟩

/-- A guest that is told of palettes learns nothing of the shades, although the broker knows them
and a palette holds a list of them. -/
theorem shades_of_palette_withheld :
    studio.registry.findEnum? shadeSchema.name = some shadeSchema ∧
    (∃ p ∈ paletteSchema.properties, p.kind.Mentions shadeSchema.name) ∧
    (studio.perform (.receive 2 (askFor ["Palette"])) default).framesTo 2 =
      studio.framesTo 2 ++ [.ofControl (.structSchema paletteSchema) default,
        .ofControl .endOfDiscovery default] :=
  ⟨rfl, ⟨_, List.mem_singleton_self _, rfl⟩, rfl⟩

end ObjectBus.Broker
