import ObjectBus.Proofs.Broker.Tables
import ObjectBus.Proofs.Broker.Tending
import ObjectBus.Proofs.Broker.Types

/-!
# Definitions that guests announce

A guest announces the definition of a type. Unless that is refused, the type is registered, and the
connection remembers its name. From then on whatever the same guest announces under this name is
dropped, which is harmless only as long as it announces the same definition.

* `Announcement`: the definition of a struct or enum type;
* `Registry.Holds`: a registry has exactly this definition;
* `remembers_after`: what a connection remembers was announced and is registered;
* `announcement_settled`: what becomes of an announcement in any run.
-/

namespace ObjectBus

/-- The definition of a type, as guests announce it. -/
inductive Announcement where
  /-- Of a struct type. -/
  | struct (schema : StructSchema)
  /-- Of an enum type. -/
  | enum (schema : EnumSchema)
deriving DecidableEq

namespace Announcement

/-- The name of the type. -/
def name : Announcement → String
  | struct schema => schema.name
  | enum schema => schema.name

/-- The message by which a guest announces it. -/
def message : Announcement → ControlMessage
  | struct schema => .structSchema schema
  | enum schema => .enumSchema schema

/-- What a connection asks the broker for when it hears the message. -/
def request (h : Header) : Announcement → ControlRequest
  | struct schema => .importStruct schema h
  | enum schema => .importEnum schema h

/-- Register the type. -/
def register (r : Registry) : Announcement → Outcome (Registry × Registered)
  | struct schema => r.registerStruct schema
  | enum schema => r.registerEnum schema

end Announcement

/-- A registry has exactly this definition under the name of the type, among the types of its
sort. -/
def Registry.Holds (r : Registry) : Announcement → Prop
  | .struct schema => r.findStruct? schema.name = some schema
  | .enum schema => r.findEnum? schema.name = some schema

/-- A guest announces a type with a frame. -/
structure Transmission.Announces (t : Transmission) (a : Announcement) : Prop where
  /-- Control messages travel in the control namespace. -/
  space : t.header.isControl = true
  /-- The message. -/
  payload : t.payload = .control a.message

namespace Registry

variable {r r' : Registry} {a : Announcement} {outcome : Registered}

/-- What was registered is there. -/
theorem holds_of_register (h : a.register r = .ok (r', outcome)) : r'.Holds a := by
  cases a with
  | struct schema =>
    obtain ⟨-, ⟨-, rfl, hknown⟩ | ⟨-, rfl, -⟩⟩ := registerStruct_cases h
    · exact hknown
    · simp [Holds]
  | enum schema =>
    simp only [Announcement.register, registerEnum] at h
    split at h
    · rename_i known hknown
      split at h
      · rename_i heq
        obtain ⟨rfl, -⟩ := Prod.mk.inj (Except.ok.inj h)
        rw [Holds, hknown, heq]
      · cases h
    · obtain ⟨rfl, -⟩ := Prod.mk.inj (Except.ok.inj h)
      simp [Holds, findEnum?, addEnum]

end Registry

namespace Broker

variable {b b' : Broker} {call : BrokerCall} {now : Instant} {peer : PeerId} {c : Connection}
variable {t : Transmission} {a : Announcement} {e : BrokerError}

/-! ## Types stay known -/

/-- Registering a type puts the registry with it in the place of the old one. -/
theorem registry_registerStruct {schema : StructSchema} {r : Registry} {outcome : Registered}
    (h : b.registry.registerStruct schema = .ok (r, outcome)) (now : Instant) :
    (b.registerStruct schema now).value.1.registry = r ∧
      (b.registerStruct schema now).value.2 = .ok outcome := by
  unfold registerStruct
  rw [h]
  cases outcome with
  | unchanged =>
    obtain ⟨-, ⟨-, rfl, -⟩ | ⟨hnew, -⟩⟩ := Registry.registerStruct_cases h
    · exact ⟨rfl, rfl⟩
    · cases hnew
  | new =>
    simp only [Noted.value_bind, Noted.value_pure, and_true]
    exact (congrArg (·.registry) (catalogue_drain _ now)).trans (registry_onNewType _ _ now)

theorem registry_registerEnum {schema : EnumSchema} {r : Registry} {outcome : Registered}
    (h : b.registry.registerEnum schema = .ok (r, outcome)) :
    (b.registerEnum schema).value.1.registry = r ∧
      (b.registerEnum schema).value.2 = .ok outcome := by
  unfold registerEnum
  rw [h]
  cases outcome with
  | unchanged =>
    obtain ⟨-, rfl⟩ | ⟨hnew, -⟩ := Registry.registerEnum_cases h
    · exact ⟨rfl, rfl⟩
    · cases hnew
  | new => exact ⟨rfl, rfl⟩

/-- Importing a type that can be registered succeeds, and the type is there. -/
theorem holds_acceptRequest {r : Registry} {outcome : Registered}
    (hregister : a.register b.registry = .ok (r, outcome)) (peer : PeerId) (h : Header)
    (now : Instant) :
    (b.acceptRequest peer (a.request h) now).value.1.registry.Holds a ∧
      (b.acceptRequest peer (a.request h) now).value.2 = .ok () := by
  -- Remembering the type and handing it on leave the registry alone.
  have hconfirm : ∀ b' : Broker, b'.registry = r →
      (b'.confirmImport peer a.name).registry.Holds a := by
    intro b' hregistry
    have hsame := congrArg (·.registry) (catalogue_confirmImport b' peer a.name)
    rw [show (b'.confirmImport peer a.name).registry = b'.registry from hsame, hregistry]
    exact Registry.holds_of_register hregister
  cases a with
  | struct schema =>
    obtain ⟨hregistry, houtcome⟩ := registry_registerStruct hregister now
    simp only [Announcement.request, acceptRequest, Noted.value_bind, houtcome]
    split <;> exact ⟨hconfirm _ hregistry, rfl⟩
  | enum schema =>
    obtain ⟨hregistry, houtcome⟩ := registry_registerEnum hregister
    simp only [Announcement.request, acceptRequest, Noted.value_bind, houtcome]
    exact ⟨hconfirm _ hregistry, rfl⟩

/-- Registering a struct type leaves the enum types as they are. -/
theorem enums_registerStruct (b : Broker) (schema : StructSchema) (now : Instant) :
    (b.registerStruct schema now).value.1.registry.enums = b.registry.enums := by
  cases hregister : b.registry.registerStruct schema with
  | error e =>
    unfold registerStruct
    rw [hregister]
    rfl
  | ok r =>
    obtain ⟨r, outcome⟩ := r
    rw [(registry_registerStruct hregister now).1]
    obtain ⟨-, ⟨-, rfl, -⟩ | ⟨-, rfl, -⟩⟩ := Registry.registerStruct_cases hregister
    · rfl
    · rfl

/-- So does importing one. -/
theorem enums_importStruct (b : Broker) (schema : StructSchema) (h : Header) (now : Instant) :
    (b.acceptRequest peer (.importStruct schema h) now).value.1.registry.enums =
      b.registry.enums := by
  have hregister := b.enums_registerStruct schema now
  have hconfirm : ∀ b' : Broker,
      (b'.confirmImport peer schema.name).registry.enums = b'.registry.enums := fun b' =>
    congrArg (·.registry.enums) (catalogue_confirmImport b' peer schema.name)
  simp only [acceptRequest, Noted.value_bind]
  split
  · exact hregister
  · split <;> exact (hconfirm _).trans hregister

/-- No call forgets a type or changes its definition. -/
theorem Reachable.holds_perform (hb : b.Reachable) (ha : b.registry.Holds a)
    (call : BrokerCall) (now : Instant) : (b.perform call now).registry.Holds a := by
  cases a with
  | struct schema => exact hb.findStruct?_perform ha
  | enum schema =>
    by_cases hregisters : ∀ s, ¬b.Registers s now call
    · exact (keeps_perform hregisters).enums _ _ ha
    · -- Registering a struct type leaves the enum types as they are.
      have hsame : (b.perform call now).registry.enums = b.registry.enums := by
        obtain ⟨s, hs⟩ := not_forall_not.1 hregisters
        cases call with
        | registerStruct s => exact b.enums_registerStruct s now
        | receive peer t =>
          obtain ⟨c, h, hc, hreceived⟩ := hs
          obtain ⟨hself, -⟩ := Connection.receive_eq_control hreceived
          have hsettle :=
            catalogue_settle peer now (b.acceptRequest peer (.importStruct s h) now).value
          show (b.receive peer t now).value.1.registry.enums = _
          unfold receive
          simp only [hc, Noted.value_bind, Noted.value_pure, hreceived, hself,
            putConnection_self hc, acceptReceived]
          refine (congrArg (·.registry.enums) (catalogue_drain _ now)).trans ?_
          exact (congrArg (·.registry.enums) hsettle).trans (b.enums_importStruct s h now)
        | _ => exact absurd hs id
      rw [Registry.Holds, Registry.findEnum?, hsame]
      exact ha

/-! ## What becomes of one announcement -/

/-- An announcement that the connection does not drop is handed on. -/
theorem Reachable.receive_announcement (hb : b.Reachable)
    (hc : b.connections.find? peer = some c)
    (hstate : c.state = .earlySubscribe ∨ c.state = .connected) (ht : t.Announces a)
    (now : Instant) : (c.receive t now).value =
      (c, if a.name ∈ c.imported then .handled
        else .control (a.request (c.stamp t.header now))) := by
  obtain ⟨-, hopen⟩ := hb.rested peer c hc
  cases a with
  | struct schema | enum schema =>
    rw [Connection.receive_of_message hopen ht.payload ht.space rfl,
      Connection.receiveMessage_of_request _ hstate rfl]
    simp only [Announcement.message, Connection.classifyControl, Connection.announced,
      Announcement.name, List.contains_iff_mem]
    by_cases hname : schema.name ∈ c.imported
    · simp only [hname, if_true]
      rfl
    · simp only [hname, if_false]
      rfl

/-- A type that can be registered is there when its announcement has been processed. -/
theorem holds_receive {h : Header} {outcome : Registry × Registered}
    (hc : b.connections.find? peer = some c)
    (hreceived : (c.receive t now).value.2 = .control (a.request h))
    (hregister : a.register b.registry = .ok outcome) :
    (b.perform (.receive peer t) now).registry.Holds a := by
  obtain ⟨hself, -⟩ := Connection.receive_eq_control hreceived
  obtain ⟨hholds, houtcome⟩ := holds_acceptRequest hregister peer h now
  have hdrain := congrArg (·.registry)
    (catalogue_drain (b.acceptRequest peer (a.request h) now).value.1 now)
  show (b.receive peer t now).value.1.registry.Holds a
  unfold receive
  simp only [hc, Noted.value_bind, Noted.value_pure, hreceived, hself, putConnection_self hc,
    acceptReceived, settle, houtcome]
  rwa [show (Broker.registry _) = _ from hdrain]

/-- An announcement under a name that the connection remembers is dropped. -/
theorem Reachable.perform_of_remembered (hb : b.Reachable)
    (hc : b.connections.find? peer = some c)
    (hstate : c.state = .earlySubscribe ∨ c.state = .connected) (ht : t.Announces a)
    (hname : a.name ∈ c.imported) (now : Instant) : b.perform (.receive peer t) now = b := by
  have hreceive := hb.receive_announcement hc hstate ht now
  rw [if_pos hname] at hreceive
  show (b.receive peer t now).value.1 = b
  unfold receive
  simp only [hc, Noted.value_bind, Noted.value_pure, hreceive, putConnection_self hc,
    acceptReceived, drain_of_rested hb.rested now]

/-- An announcement from a guest that has named itself is refused with a notice, or the type is
registered as it was announced, or the announcement is dropped because the connection remembers the
name. -/
theorem Reachable.announcement_cases (hb : b.Reachable) (hc : b.connections.find? peer = some c)
    (hstate : c.state = .earlySubscribe ∨ c.state = .connected) (ht : t.Announces a)
    (htakes : ∀ f, c.channel.refusal c.channel.trace f = none) (now : Instant) :
    (∃ e, Refused b c t e ∧
      b.perform (.receive peer t) now = b.handing peer c (violationNotice e now)) ∨
    (b.perform (.receive peer t) now).registry.Holds a ∨
    a.name ∈ c.imported ∧ b.perform (.receive peer t) now = b := by
  have hreceive := hb.receive_announcement hc hstate ht now
  by_cases hname : a.name ∈ c.imported
  · exact .inr (.inr ⟨hname, hb.perform_of_remembered hc hstate ht hname now⟩)
  · rw [if_neg hname] at hreceive
    have hnew : c.imported.contains a.name = false := by simpa using hname
    cases hregister : a.register b.registry with
    | error e =>
      have hrefused : Refused b c t e := by
        cases a with
        | struct schema => exact .structSchema ht.payload ht.space hstate hnew hregister
        | enum schema => exact .enumSchema ht.payload ht.space hstate hnew hregister
      refine .inl ⟨e, hrefused, ?_⟩
      exact congrArg Prod.fst (hb.receive_of_refused hc hrefused (htakes _))
    | ok outcome => exact .inr (.inl (holds_receive hc (by rw [hreceive]) hregister))

/-! ## What connections remember -/

/-- Whatever a connection remembers its guest has announced in some calls, and it is registered. -/
def Remembers (calls : List (BrokerCall × Instant)) (b : Broker) : Prop :=
  ∀ peer c, b.connections.find? peer = some c → ∀ name ∈ c.imported,
    ∃ t now a, (.receive peer t, now) ∈ calls ∧ t.Announces a ∧ a.name = name ∧ b.registry.Holds a

/-- Control work by which a type is learnt comes from an announcement, and if it succeeds the type
is registered in the end. -/
theorem Reachable.permits_announcements (hb : b.Reachable)
    (hc : b.connections.find? peer = some c) {request : ControlRequest}
    (hreceived : (c.receive t now).value.2 = .control request) :
    Permits (fun _ => True) (fun name => ∃ a, t.Announces a ∧ a.name = name ∧
      (b.perform (.receive peer t) now).registry.Holds a) b request now := by
  obtain ⟨-, hopen⟩ := hb.rested peer c hc
  have hpayload := Connection.payload_of_receive hreceived
  obtain ⟨hspace, -⟩ := named_of_receive hopen hreceived b
  have hlearnt : ∀ (a : Announcement) h outcome, request = a.request h →
      a.register b.registry = .ok outcome → ∃ a', t.Announces a' ∧ a'.name = a.name ∧
        (b.perform (.receive peer t) now).registry.Holds a' := by
    rintro a h outcome rfl hregister
    refine ⟨a, ⟨hspace, hpayload.trans ?_⟩, rfl, holds_receive hc hreceived hregister⟩
    cases a <;> rfl
  refine ⟨fun _ _ => trivial, fun _ _ _ _ => trivial, fun schema h outcome hrequest hok => ?_,
    fun schema h outcome hrequest hok => ?_⟩
  · cases hregister : b.registry.registerStruct schema with
    | error e => simp [registerStruct, hregister] at hok
    | ok r => exact hlearnt (.struct schema) h r hrequest hregister
  · cases hregister : b.registry.registerEnum schema with
    | error e => simp [registerEnum, hregister] at hok
    | ok r => exact hlearnt (.enum schema) h r hrequest hregister

/-- A new guest has announced nothing. -/
theorem imported_greeted (b : Broker) (channel : Channel) (now : Instant) :
    (b.greeted channel now).imported = [] := by
  have hkeeps : (Connection.ofChannel b.nextPeer channel).Keeps (fun _ => True) (fun _ => False)
      (b.greeted channel now) := by
    let begun : Connection :=
      { Connection.ofChannel b.nextPeer channel with started := true, hostName := b.name }
    have hbegun : (Connection.ofChannel b.nextPeer channel).Keeps (fun _ => True) (fun _ => False)
        begun := .of_eq rfl rfl fun _ => .inl
    exact (hbegun.trans (begun.keeps_setState .connecting none)).trans
      (Connection.keeps_send _ trivial)
  refine List.eq_nil_iff_forall_not_mem.2 fun name hname => ?_
  rcases hkeeps.imported name hname with hold | hnew
  · cases hold
  · exact hnew

/-- What a connection remembers after a part of a call it remembered before, or it was learnt. -/
theorem Tends.imported {learnt : String → Prop} {c' : Connection} {name : String}
    (h : Tends peer (fun _ => True) learnt b b') (hc' : b'.connections.find? peer = some c')
    (hname : name ∈ c'.imported) :
    (∃ c, b.connections.find? peer = some c ∧ name ∈ c.imported) ∨ learnt name := by
  obtain ⟨c, hc, hkeeps⟩ := (h fun _ _ => trivial).connection c' hc'
  exact (hkeeps.imported name hname).imp_left fun hold => ⟨c, hc, hold⟩

/-- The connection of a guest that arrives remembers nothing. -/
theorem imported_accept {channel : Channel} {c' : Connection}
    (hc' : (b.perform (.accept channel) now).connections.find? b.nextPeer = some c')
    (name : String) : name ∉ c'.imported := by
  let arrived : Broker :=
    { b with nextPeer := b.nextPeer + 1 }.putConnection b.nextPeer (b.greeted channel now)
  have htends : Tends b.nextPeer (fun _ => True) (fun _ => False) arrived
      (b.perform (.accept channel) now) :=
    tends_drain (fun _ _ => trivial) b.nextPeer (fun _ => False) arrived now
  intro hname
  obtain ⟨c, hc, hold⟩ := (htends.imported hc' hname).resolve_right id
  rw [find?_putConnection, if_pos rfl] at hc
  rw [← Option.some.inj hc, imported_greeted] at hold
  cases hold

/-- When the transport of a guest fails its connection learns nothing. -/
theorem tends_transportFailed (b : Broker) (peer : PeerId) (error : TransportError)
    (now : Instant) :
    Tends peer (fun _ => True) (fun _ => False) b (b.transportFailed peer error now).value := by
  unfold Broker.transportFailed
  cases hc : b.connections.find? peer with
  | none => exact .refl _ _ _ b
  | some c =>
    simp only [Noted.value_bind, Connection.value_transportFailed]
    exact (Tends.of_putConnection hc (c.keeps_close _)).trans
      (tends_drain (fun _ _ => trivial) _ _ _ now)

/-- A connection whose channel fails in another way remembers what it remembered. -/
theorem imported_disturb {refusal : List ChannelAction → Transmission → Option TransportError}
    {c' : Connection} (hc' : (b.disturb peer refusal).connections.find? peer = some c') :
    ∃ c, b.connections.find? peer = some c ∧ c'.imported = c.imported := by
  unfold disturb at hc'
  cases hc : b.connections.find? peer with
  | none => simp [hc] at hc'
  | some c =>
    simp only [hc, find?_putConnection, if_true] at hc'
    obtain rfl := Option.some.inj hc'
    exact ⟨c, rfl, rfl⟩

/-- What a connection remembers after a call it remembered before, or its guest has announced it
with this call. -/
theorem Reachable.imported_perform (hb : b.Reachable) {c' : Connection} {name : String}
    (hc' : (b.perform call now).connections.find? peer = some c') (hname : name ∈ c'.imported) :
    (∃ c, b.connections.find? peer = some c ∧ name ∈ c.imported) ∨
      ∃ t a, call = .receive peer t ∧ t.Announces a ∧ a.name = name ∧
        (b.perform call now).registry.Holds a := by
  by_cases haddressee : b.addressee? call = some peer
  · cases call with
    | accept channel =>
      obtain rfl := Option.some.inj haddressee
      exact absurd hname (imported_accept hc' name)
    | receive sender t =>
      obtain rfl := Option.some.inj haddressee
      have htends : Tends sender (fun _ => True) (fun name => ∃ a, t.Announces a ∧ a.name = name ∧
          (b.perform (.receive sender t) now).registry.Holds a) b
            (b.perform (.receive sender t) now) :=
        tends_receive (fun _ _ => trivial) fun _ _ hc hreceived =>
          hb.permits_announcements hc hreceived
      exact (htends.imported hc' hname).imp_right fun ⟨a, ht, ha, hholds⟩ =>
        ⟨t, a, rfl, ht, ha, hholds⟩
    | transportFailed sender error =>
      obtain rfl := Option.some.inj haddressee
      have htends := tends_transportFailed b sender error now
      exact .inl ((htends.imported hc' hname).resolve_right id)
    | disturb sender refusal =>
      obtain rfl := Option.some.inj haddressee
      obtain ⟨c, hc, hsame⟩ := imported_disturb hc'
      exact .inl ⟨c, hc, hsame ▸ hname⟩
    | _ => cases haddressee
  · have htends : Tends peer (fun _ => True) (fun _ => False) b (b.perform call now) :=
      tends_perform (fun _ _ => trivial) haddressee now
    exact .inl ((htends.imported hc' hname).resolve_right id)

/-- What a connection remembers in any run its guest has announced, and it is registered. -/
theorem remembers_after {registry : Registry} (hbuilt : registry.Built) (name : String)
    (eventCapacity : Nat) (started : Instant) (calls : List (BrokerCall × Instant)) :
    Remembers calls ((ofRegistry name registry eventCapacity started).value.after calls) := by
  have hstart := Reachable.start hbuilt name eventCapacity started
  induction calls using List.reverseRecOn with
  | nil =>
    intro peer c hc
    exact absurd (assigned_of_open hc)
      (not_assigned_ofRegistry hbuilt.wellFormed name eventCapacity started)
  | append_singleton calls call ih =>
    have hb := hstart.after calls
    rw [show ∀ b : Broker, b.after (calls ++ [call]) = (b.after calls).perform call.1 call.2 from
      fun b => by simp [after]]
    intro peer c' hc' name hname
    rcases hb.imported_perform hc' hname with ⟨c, hc, hold⟩ | ⟨t, a, hcall, ht, ha, hholds⟩
    · obtain ⟨t, now, a, hmem, ht, ha, hholds⟩ := ih peer c hc name hold
      exact ⟨t, now, a, List.mem_append_left _ hmem, ht, ha, hb.holds_perform hholds _ _⟩
    · refine ⟨t, call.2, a, List.mem_append_right _ ?_, ht, ha, hholds⟩
      rw [← hcall]
      exact List.mem_singleton_self _

/-! ## Announcements in any run -/

/-- In any run, an announcement from a guest that has named itself and whose channel takes what it
is sent is refused with a notice, or the type is registered as it was announced, or it is dropped,
and that only if the guest has announced another definition under the same name before, which is
registered. -/
theorem announcement_settled {registry : Registry} (hbuilt : registry.Built) (name : String)
    (eventCapacity : Nat) (started : Instant) (calls : List (BrokerCall × Instant))
    (hb : b = (ofRegistry name registry eventCapacity started).value.after calls)
    (hc : b.connections.find? peer = some c)
    (hstate : c.state = .earlySubscribe ∨ c.state = .connected) (ht : t.Announces a)
    (htakes : ∀ f, c.channel.refusal c.channel.trace f = none) (now : Instant) :
    (∃ e, Refused b c t e ∧
      b.perform (.receive peer t) now = b.handing peer c (violationNotice e now)) ∨
    (b.perform (.receive peer t) now).registry.Holds a ∨
    b.perform (.receive peer t) now = b ∧
      ∃ t' now' a', (.receive peer t', now') ∈ calls ∧ t'.Announces a' ∧ a'.name = a.name ∧
        a' ≠ a ∧ b.registry.Holds a' := by
  have hreachable : b.Reachable := by
    rw [hb]
    exact (Reachable.start hbuilt name eventCapacity started).after calls
  have hremembers : Remembers calls b := by
    rw [hb]
    exact remembers_after hbuilt name eventCapacity started calls
  -- If the announcement was dropped, the name was remembered, and so it was announced before.
  refine (hreachable.announcement_cases hc hstate ht htakes now).imp_right fun hrest => ?_
  refine or_iff_not_imp_left.2 fun hmissing => ?_
  obtain ⟨hname, hsame⟩ := hrest.resolve_left hmissing
  obtain ⟨t', now', a', hmem, ht', hname', hholds⟩ := hremembers peer c hc a.name hname
  refine ⟨hsame, t', now', a', hmem, ht', hname', ?_, hholds⟩
  rintro rfl
  rw [hsame] at hmissing
  exact hmissing hholds

/-- The guest in the lobby announces a struct type. -/
def announcing (schema : StructSchema) : BrokerCall :=
  .receive 2 (.ofControl (.structSchema schema) default)

/-- The notes that the guest in the lobby announces are registered. -/
theorem announced_notes_registered :
    (lobby.perform (announcing noteSchema) default).registry.Holds (.struct noteSchema) := by
  obtain ⟨c, hc, hstate, htakes⟩ : ∃ c, lobby.connections.find? 2 = some c ∧
      c.state = .connected ∧ ∀ f, c.channel.refusal c.channel.trace f = none :=
    ⟨_, rfl, rfl, fun _ => rfl⟩
  have hsettled := announcement_settled Registry.built_builtin "lobby" defaultEventCapacity default
    [(.accept (.reliable "guest"), default),
      (.receive 2 (.ofControl (.connectAs "guest" false) default), default)] rfl hc (.inr hstate)
    (t := .ofControl (.structSchema noteSchema) default) (a := .struct noteSchema) ⟨rfl, rfl⟩ htakes
    default
  rcases hsettled with ⟨e, -, hrefused⟩ | hholds | ⟨-, t', now', a', hmem, ht', -⟩
  · -- A notice would leave the registry as it was.
    cases congrArg (·.registry.findStruct? noteSchema.name) hrefused
  · exact hholds
  · -- The guest has only named itself before.
    simp only [List.mem_cons, Prod.mk.injEq, BrokerCall.receive.injEq, reduceCtorEq, false_and,
      List.not_mem_nil, or_false, false_or] at hmem
    obtain ⟨⟨-, rfl⟩, -⟩ := hmem
    have hpayload := ht'.payload
    cases a' <;> cases hpayload

/-- When the guest in the lobby has announced the notes, another definition of them and an enum type
of the same name are dropped without a notice, although neither is registered. -/
theorem changed_definition_dropped :
    let b := lobby.perform (announcing noteSchema) default
    b.perform (announcing otherNotes) default = b ∧
      ¬b.registry.Holds (.struct otherNotes) ∧
    b.perform (.receive 2 (.ofControl (.enumSchema ⟨noteSchema.name, []⟩) default)) default = b ∧
      ¬b.registry.Holds (.enum ⟨noteSchema.name, []⟩) := by
  intro b
  have hb : b.Reachable := reachable_lobby.perform _ _
  obtain ⟨c, hc, hstate, hname⟩ : ∃ c, b.connections.find? 2 = some c ∧ c.state = .connected ∧
      noteSchema.name ∈ c.imported := ⟨_, rfl, rfl, List.mem_singleton_self _⟩
  have hstruct : b.registry.findStruct? noteSchema.name = some noteSchema := rfl
  have henum : b.registry.findEnum? noteSchema.name = none := rfl
  refine ⟨hb.perform_of_remembered hc (.inr hstate) (a := .struct otherNotes) ⟨rfl, rfl⟩ hname
    default, fun hother => ?_, hb.perform_of_remembered hc (.inr hstate)
    (a := .enum ⟨noteSchema.name, []⟩) ⟨rfl, rfl⟩ hname default, fun hother => ?_⟩
  · cases hstruct.symm.trans hother
  · cases henum.symm.trans hother

end Broker

end ObjectBus
