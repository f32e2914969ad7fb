import Mathlib.Data.Set.Function
import ObjectBus.Config
import ObjectBus.Proofs.Broker.Announcements

/-!
# Types, numbers and announcements

The registry, the numbers of the types, their announcements, their containers and the list of the
types that ask for clean-up are kept apart, and a type enters all of them when it becomes known.
They stay in step in every run: whatever is registered, imported or refused meanwhile.

* `Started`: the three ways in which a broker comes to be;
* `Catalogued`: the registered types are those that are known;
* `Catalogued.perform`: a call makes some more types known, or none;
* `InStep`: what the types have in common;
* `types_in_step`: they do after every run, and no definition is ever changed or lost.
-/

namespace ObjectBus

namespace Registry

/-- Registering types one after the other keeps what registering one type keeps. -/
theorem foldlM_induction {α : Type} {f : Registry → α → Outcome Registry} {I : Registry → Prop}
    (hf : ∀ r a r', I r → f r a = .ok r' → I r') {l : List α} {r r' : Registry} (hr : I r)
    (h : l.foldlM f r = .ok r') : I r' := by
  induction l generalizing r with
  | nil =>
    obtain rfl := Except.ok.inj h
    exact hr
  | cons a rest ih =>
    rw [List.foldlM_cons] at h
    cases hfirst : f r a with
    | error e =>
      rw [hfirst] at h
      cases h
    | ok next =>
      rw [hfirst] at h
      exact ih (hf r a next hr hfirst) h

/-- A registry that was built and knows the built-in types. -/
def BuiltOn (r : Registry) : Prop :=
  r.Built ∧ ∀ s ∈ builtinStructs, r.findStruct? s.name = some s

theorem builtOn_builtin : builtin.BuiltOn := ⟨built_builtin, Broker.findStruct?_builtin⟩

theorem BuiltOn.registerEnum {r r' : Registry} {s : EnumSchema} (h : r.BuiltOn)
    (hs : (r.registerEnum s).map (·.1) = .ok r') : r'.BuiltOn := by
  cases hregister : r.registerEnum s with
  | error e =>
    rw [hregister] at hs
    cases hs
  | ok outcome =>
    rw [hregister] at hs
    obtain rfl : outcome.1 = r' := Except.ok.inj hs
    refine ⟨.registerEnum h.1 hregister, ?_⟩
    obtain ⟨-, hsame⟩ | ⟨-, hadded⟩ := registerEnum_cases hregister
    · rw [hsame]
      exact h.2
    · rw [hadded]
      exact h.2

theorem BuiltOn.registerStruct {r r' : Registry} {s : StructSchema} (h : r.BuiltOn)
    (hs : (r.registerStruct s).map (·.1) = .ok r') : r'.BuiltOn := by
  cases hregister : r.registerStruct s with
  | error e =>
    rw [hregister] at hs
    cases hs
  | ok outcome =>
    rw [hregister] at hs
    obtain rfl : outcome.1 = r' := Except.ok.inj hs
    refine ⟨.registerStruct h.1 hregister, fun known hknown => ?_⟩
    obtain ⟨-, ⟨-, hsame, -⟩ | ⟨-, hadded, hnew⟩⟩ := registerStruct_cases hregister
    · rw [hsame]
      exact h.2 known hknown
    · -- The name of a built-in type is not free.
      have hfind := h.2 known hknown
      have hne : known.name ≠ s.name := by
        intro heq
        rw [heq, hnew] at hfind
        cases hfind
      rw [hadded, findStruct?_addStruct, if_neg hne]
      exact hfind

end Registry

/-- The registry of a configuration is built on the built-in types. -/
theorem Config.builtOn_registry {config : Config} {r : Registry} (h : config.registry = .ok r) :
    r.BuiltOn := by
  unfold Config.registry at h
  cases henums : config.enums.foldlM
      (fun r s => (Registry.registerEnum r s).map (·.1)) Registry.builtin with
  | error e =>
    rw [henums] at h
    cases h
  | ok r' =>
    rw [henums] at h
    have hr' : r'.BuiltOn := Registry.foldlM_induction
      (fun _ _ _ hr hs => hr.registerEnum hs) Registry.builtOn_builtin henums
    exact Registry.foldlM_induction (fun _ _ _ hr hs => hr.registerStruct hs) hr' h

namespace Broker

variable {call : BrokerCall} {now : Instant} {b b' : Broker} {peer : PeerId} {c : Connection}
variable {cleared : String → Prop} {given : Passage → Prop}
variable {sent : PeerId → Transmission → Prop} {schema : StructSchema} {known : List StructSchema}

/-- How a broker comes to be with the built-in types among its own. -/
inductive Started : Broker → Prop
  /-- With no other types. -/
  | new (name : String) (now : Instant) : Started (Broker.new name now).value
  /-- Around a registry that has them. -/
  | ofRegistry {registry : Registry} (hbuilt : registry.Built)
      (hbuiltin : ∀ s ∈ builtinStructs, registry.findStruct? s.name = some s) (name : String)
      (eventCapacity : Nat) (now : Instant) :
      Started (Broker.ofRegistry name registry eventCapacity now).value
  /-- From a configuration. -/
  | configured {config : Config} {now : Instant} {b : Broker}
      (h : (config.buildBroker now).value = .ok b) : Started b

/-- Each time it is started around a registry. -/
theorem Started.exists_registry (h : Started b) :
    ∃ name registry eventCapacity now, registry.BuiltOn ∧
      b = (Broker.ofRegistry name registry eventCapacity now).value := by
  cases h with
  | new name now => exact ⟨name, .builtin, _, now, Registry.builtOn_builtin, rfl⟩
  | ofRegistry hbuilt hbuiltin name eventCapacity now =>
    exact ⟨name, _, eventCapacity, now, ⟨hbuilt, hbuiltin⟩, rfl⟩
  | @configured config now _ h =>
    unfold Config.buildBroker at h
    cases hvalid : config.validate with
    | error e =>
      rw [hvalid] at h
      cases h
    | ok u =>
      cases hregistry : config.registry with
      | error e =>
        rw [hvalid, hregistry] at h
        cases h
      | ok r =>
        rw [hvalid, hregistry] at h
        simp only [Noted.value_bind, Noted.value_pure] at h
        exact ⟨_, r, _, now, Config.builtOn_registry hregistry, (Except.ok.inj h).symm⟩

theorem Started.reachable (h : Started b) : b.Reachable := by
  obtain ⟨name, registry, eventCapacity, now, hbuilt, rfl⟩ := h.exists_registry
  exact .start hbuilt.1 name eventCapacity now

/-! ## The registered types -/

/-- The registered types are those that are known. -/
structure Catalogued (known : List StructSchema) (b : Broker) : Prop
    extends Announced known b where
  /-- A type is registered when it is known. -/
  registered : ∀ name s, b.registry.findStruct? name = some s ↔ s ∈ known ∧ s.name = name

/-- The enum types that were known are known by the same definitions. -/
def KeepsEnums (b b' : Broker) : Prop :=
  ∀ name s, b.registry.findEnum? name = some s → b'.registry.findEnum? name = some s

namespace Catalogued

/-- Where no type becomes known and no announcement changes, all is as before. -/
theorem kept (h : Catalogued known b) (hkeeps : Keeps b b')
    (hcache : ∀ key, b'.cached? typeAnnounceType key = b.cached? typeAnnounceType key) :
    Catalogued known b' := by
  refine ⟨h.toAnnounced.kept hkeeps hcache, fun name s => ?_⟩
  rw [Registry.findStruct?, hkeeps.structs]
  exact h.registered name s

/-- A course in which no type becomes known, and nobody clears the announcements or writes any. -/
theorem course (h : Catalogued known b) (hcourse : Course call now cleared given sent b b')
    (hkeeps : Keeps b b') (hclear : ¬cleared typeAnnounceType)
    (hgiven : ∀ p r, given p → p.IsOf r → p.schema.name ≠ typeAnnounceType)
    (hquiet : ∀ channel, call ≠ .accept channel) (hb : b.Tidy) (hq : b.Queued []) :
    Catalogued known b' := by
  have hdoes := hcourse.does hquiet hb hq
  have hbuiltin : b'.KnowsBuiltin := fun s hs => hdoes.registry _ s (h.builtin s hs)
  refine h.kept hkeeps fun key => ?_
  have hsame : b'.cachedAt? typeAnnounceType key = b.cachedAt? typeAnnounceType key := by
    refine hdoes.spares fun p hp hof hname hkey => ?_
    rcases hp with hbrought | hdeed
    · exact hgiven p _ hbrought hof hname
    -- Of all that the host does by itself only an announcement would do, and none is told.
    · rcases hdeed.renews hbuiltin hof (by rw [hname]; rfl) hkey with hcleared | hrenews
      · exact hclear (hname ▸ hcleared)
      · rw [hname] at hrenews
        generalize htype : typeAnnounceType = typeName at hrenews
        cases hrenews with
        | peer => exact absurd htype (by decide)
        | type htold => exact hkeeps.not_announced hdoes.events htold
  rw [cached?, hsame, cached?]

/-! ## Calls that make no type known -/

theorem accept (h : Catalogued known b) (hb : b.Reachable) (channel : Channel) (now : Instant) :
    Catalogued known (b.perform (.accept channel) now) := by
  let greeting : Broker :=
    { b with nextPeer := b.nextPeer + 1 }.putConnection b.nextPeer (b.greeted channel now)
  have hstep : Step (.accept channel) now b greeting := .accept rfl
  have hgreeting : Catalogued known greeting := h.kept (.of_catalogue rfl) fun _ => rfl
  -- The greeting is behind, and what is left belongs to any call.
  have hcourse : Course (.clearCache []) now (fun _ => False) (fun _ => False) (fun _ _ => True)
      greeting (greeting.drain now).value := .drain greeting
  exact hgreeting.course hcourse (.of_catalogue (catalogue_drain _ now)) id
    (fun _ _ hp _ => hp.elim) (by simp) (hb.tidy.step hstep) (hb.rested.queued.step hstep)

/-- Sweeping retracts only records of peers. -/
theorem sweep (h : Catalogued known b) (hb : b.Tidy) (hq : b.Queued []) (now : Instant) :
    Catalogued known (b.sweep now).value := by
  have hforget : Step .sweep now b b.forgetClosed := .forgetClosed (.inl rfl)
  have hforgotten : Catalogued known b.forgetClosed := h.kept (.of_catalogue rfl) fun _ => rfl
  have hb' : b.forgetClosed.Tidy := hb.step hforget
  unfold Broker.sweep
  simp only [Noted.value_bind]
  split
  · exact hforgotten
  · rename_i c hc
    have hcourse : ∀ failure fields, Course .sweep now (fun _ => False)
        (fun p => p.schema.name = peerStateType) (fun _ _ => True) b.forgetClosed
        ((b.forgetClosed.retract (c.objects.filter b.forgetClosed.isStale)
          c.schema.keyProperties failure fields now).value.drain now).value := by
      intro failure fields
      refine .trans (.steps (steps_retract _ _ _ failure fields) fun hsound => ?_) (.drain _)
      refine effects_retract_of_container hsound hc (fun o ho => List.mem_of_mem_filter ho) _ _
        now ?_
      exact fun schema o hs => .inl (hsound.findStruct?_name hs).1
    refine hforgotten.course (hcourse _ _) (.of_catalogue ?_) id (fun p r hp _ hname => ?_)
      (by simp) hb' (hq.step hforget)
    · exact (catalogue_drain _ now).trans (catalogue_retract _ _ _ _ _ now)
    · exact absurd (hp.symm.trans hname) (by decide)

theorem shutdown (h : Catalogued known b) (hb : b.Tidy) (hq : b.Queued []) (now : Instant) :
    Catalogued known (b.shutdown now).value := by
  unfold Broker.shutdown
  simp only [Noted.value_bind, Noted.value_foldlM]
  -- The goodbyes are a course of their own.
  have hcourse : Course (.clearCache []) now (fun _ => False) (fun _ => False) (fun _ _ => True) b
      ((b.connections.keys.foldl (fun b peer => (b.farewell peer now).value) b).drain now).value :=
    .trans (.foldl (fun b peer _ => course_farewell (fun _ _ _ => trivial) b peer) b) (.drain _)
  have hkeeps : Keeps b ((b.connections.keys.foldl
      (fun b peer => (b.farewell peer now).value) b).drain now).value := by
    refine .of_catalogue ((catalogue_drain _ now).trans (catalogue_foldl (fun b peer => ?_) _ b))
    unfold farewell
    split <;> rfl
  obtain ⟨hb', hq'⟩ := hcourse.tidy hb hq
  exact (h.course hcourse hkeeps id (fun _ _ hp _ => hp.elim) (by simp) hb hq).sweep hb' hq' now

/-- A call that is a course and registers no struct type. -/
theorem perform_of_keeps (h : Catalogued known b) (hb : b.Reachable)
    (hkeeps : Keeps b (b.perform call now)) (hcourse : call.rearranges = false)
    (hcall : call.Spares typeAnnounceType) : Catalogued known (b.perform call now) :=
  h.course (hb.course_perform hcourse now) hkeeps hcall.clears
    (fun _ _ hp hof => name_ne_of_brings h.builtin rfl hcall hp hof)
    (BrokerCall.ne_accept hcourse) hb.tidy hb.rested.queued

/-! ## Calls that register a struct type -/

/-- The name of a type that is not registered is that of none that is known. -/
theorem not_mem_names (h : Catalogued known b)
    (hnew : b.registry.findStruct? schema.name = none) : schema.name ∉ known.map (·.name) := by
  intro hmem
  obtain ⟨s, hs, hname⟩ := List.mem_map.1 hmem
  rw [(h.registered schema.name s).2 ⟨hs, hname⟩] at hnew
  cases hnew

/-- A type that is added to the registry and then made known. -/
theorem onNewType (h : Catalogued known b) (hsound : (b.adopted schema).Sound)
    (hnew : b.registry.findStruct? schema.name = none) (now : Instant) :
    Catalogued (known ++ [schema])
      ({ b with registry := b.registry.addStruct schema }.onNewType schema now).value := by
  have hfresh := h.not_mem_names hnew
  have hadded : Announced known { b with registry := b.registry.addStruct schema } := by
    refine ⟨fun s hs => ?_, h.distinct, h.numbered, h.next, h.told, h.announcements⟩
    have hfind := h.builtin s hs
    have hne : s.name ≠ schema.name := by
      intro heq
      rw [heq, hnew] at hfind
      cases hfind
    rw [Registry.findStruct?_addStruct, if_neg hne]
    exact hfind
  refine ⟨hadded.onNewType hsound hfresh now, fun name s => ?_⟩
  rw [registry_onNewType, Registry.findStruct?_addStruct]
  simp only [List.mem_append, List.mem_singleton, or_and_right]
  by_cases hname : name = schema.name
  · have hnone : ¬(s ∈ known ∧ s.name = name) := by
      rintro ⟨hs, hname'⟩
      exact hfresh (hname ▸ hname' ▸ List.mem_map_of_mem hs)
    rw [if_pos hname, or_iff_right hnone]
    constructor
    · intro heq
      obtain rfl := Option.some.inj heq
      exact ⟨rfl, hname.symm⟩
    · rintro ⟨rfl, -⟩
      rfl
  · have hnot : ¬(s = schema ∧ s.name = name) := by
      rintro ⟨rfl, heq⟩
      exact hname heq.symm
    rw [if_neg hname, or_iff_left hnot]
    exact h.registered name s

/-- Registering a struct type makes it known, if it is new and its definition is in order. -/
theorem registerStruct (h : Catalogued known b) (hb : b.Tidy) (hq : b.Queued [])
    (schema : StructSchema) (now : Instant) :
    ∃ new, Catalogued (known ++ new) (b.registerStruct schema now).value.1 ∧
      KeepsEnums b (b.registerStruct schema now).value.1 := by
  have hsame : Catalogued (known ++ []) b := by rwa [List.append_nil]
  unfold Broker.registerStruct
  cases hregister : b.registry.registerStruct schema with
  | error e => exact ⟨[], hsame, fun _ _ => id⟩
  | ok r =>
    obtain ⟨registry, outcome⟩ := r
    obtain ⟨hcheck, ⟨rfl, -, -⟩ | ⟨rfl, rfl, hnew⟩⟩ := Registry.registerStruct_cases hregister
    · exact ⟨[], hsame, fun _ _ => id⟩
    · simp only [Noted.value_bind, Noted.value_pure]
      let learnt : Broker := { b with registry := b.registry.addStruct schema }
      have hannounced : Catalogued (known ++ [schema]) (learnt.onNewType schema now).value :=
        h.onNewType (sound_adopted hb.sound hcheck hnew) hnew now
      have hregistry : (learnt.onNewType schema now).value.registry =
          b.registry.addStruct schema := registry_onNewType learnt schema now
      have hsteps : Steps (.registerStruct schema) now b (learnt.onNewType schema now).value :=
        steps_onNewType hcheck hnew
      have hdrain : Course (.registerStruct schema) now (fun _ => False) (fun _ => False)
          (fun _ _ => True) (learnt.onNewType schema now).value
          ((learnt.onNewType schema now).value.drain now).value := .drain _
      have hkeeps : Keeps (learnt.onNewType schema now).value
          ((learnt.onNewType schema now).value.drain now).value :=
        .of_catalogue (catalogue_drain _ now)
      refine ⟨[schema], hannounced.course hdrain hkeeps id (fun _ _ hp _ => hp.elim) (by simp)
        (hb.moves (Moves.of_steps hsteps)) (hq.steps hsteps), fun name s hs => ?_⟩
      refine hkeeps.enums name s ?_
      rw [hregistry]
      exact hs

end Catalogued

/-- What is left of an import when the type has been registered: confirming it and passing it on. -/
theorem course_import (call : BrokerCall) (b : Broker) (peer : PeerId) (schema : StructSchema)
    (h : Header) (now : Instant) :
    Course call now (fun _ => False) (fun _ => False) (fun _ _ => True)
        (b.registerStruct schema now).value.1
        (b.acceptRequest peer (.importStruct schema h) now).value.1 ∧
      (b.acceptRequest peer (.importStruct schema h) now).value.1.catalogue =
        (b.registerStruct schema now).value.1.catalogue := by
  have hforward : ∀ b : Broker, Course call now (fun _ => False) (fun _ => False) (fun _ _ => True)
      b ((b.confirmImport peer schema.name).forward structSchemaGroup
        ⟨h, .control (.structSchema schema)⟩).value := by
    intro b
    refine .trans (.steps (steps_confirmImport b peer schema.name)
      fun _ => effects_confirmImport b peer schema.name) ?_
    exact .steps (.single (.forward _ h _)) fun _ => effects_forward _ _ _ fun _ => trivial
  unfold acceptRequest
  simp only [Noted.value_bind]
  split
  · exact ⟨.refl _ now _ _ _ _, rfl⟩
  · split
    all_goals
      refine ⟨hforward _, ?_⟩
      exact (catalogue_forward _ _ _).trans (catalogue_confirmImport _ _ _)

namespace Catalogued

/-- Importing a struct type for a guest. -/
theorem importStruct (h : Catalogued known b) (hb : b.Reachable)
    (hc : b.connections.find? peer = some c) {t : Transmission} {header : Header}
    (hreceived : (c.receive t now).value.2 = .control (.importStruct schema header)) :
    ∃ new, Catalogued (known ++ new) (b.perform (.receive peer t) now) ∧
      KeepsEnums b (b.perform (.receive peer t) now) := by
  obtain ⟨hsame, -⟩ := Connection.receive_eq_control hreceived
  have hperform : b.perform (.receive peer t) now = ((settle peer now
      (b.acceptRequest peer (.importStruct schema header) now).value).value.drain now).value := by
    unfold perform receive
    simp only [hc, Noted.value_bind, Noted.value_pure, hsame, hreceived, putConnection_self hc,
      acceptReceived]
  obtain ⟨hcourse, hcatalogue⟩ := course_import (.receive peer t) b peer schema header now
  have hsettle : ∀ r : Broker × Outcome Unit, Course (.receive peer t) now (fun _ => False)
      (fun _ => False) (fun _ _ => True) r.1 (settle peer now r).value :=
    fun r => .steps (steps_settle peer r) fun _ => effects_settle peer r now fun _ _ => trivial
  obtain ⟨new, hregistered, henums⟩ := h.registerStruct hb.tidy hb.rested.queued schema now
  have hregister : Course (.receive peer t) now (fun _ => False) (fun _ => False)
      (fun _ _ => True) b (b.registerStruct schema now).value.1 := course_registerStruct b schema
  obtain ⟨hb', hq'⟩ := hregister.tidy hb.tidy hb.rested.queued
  have hkeeps : Keeps (b.registerStruct schema now).value.1 (b.perform (.receive peer t) now) := by
    rw [hperform]
    refine .of_catalogue ((catalogue_drain _ now).trans ?_)
    rw [catalogue_settle, hcatalogue]
  have hrest : Course (.receive peer t) now (fun _ => False) (fun _ => False) (fun _ _ => True)
      (b.registerStruct schema now).value.1 (b.perform (.receive peer t) now) := by
    rw [hperform]
    exact (hcourse.trans (hsettle _)).trans (.drain _)
  refine ⟨new, hregistered.course hrest hkeeps id (fun _ _ hp _ => hp.elim) (by simp)
    hb' hq', ?_⟩
  exact fun name s hs => hkeeps.enums name s (henums name s hs)

/-- A call makes some more types known, or none, and no enum type is changed or lost. -/
theorem perform (h : Catalogued known b) (hb : b.Reachable) (hcall : call.Spares typeAnnounceType)
    (now : Instant) :
    ∃ new, Catalogued (known ++ new) (b.perform call now) ∧ KeepsEnums b (b.perform call now) := by
  by_cases hregisters : ∃ schema, b.Registers schema now call
  · obtain ⟨schema, hschema⟩ := hregisters
    cases call with
    | registerStruct s => exact h.registerStruct hb.tidy hb.rested.queued s now
    | receive peer t =>
      obtain ⟨c, header, hc, hreceived⟩ := hschema
      exact h.importStruct hb hc hreceived
    | accept | transportFailed | publish | remove | clearCache | registerEnum | subscribe |
      unsubscribe | sweep | shutdown | disturb => exact hschema.elim
  · have hkeeps : Keeps b (b.perform call now) :=
      keeps_perform fun schema hschema => hregisters ⟨schema, hschema⟩
    refine ⟨[], ?_, hkeeps.enums⟩
    rw [List.append_nil]
    cases call with
    | accept channel => exact h.accept hb channel now
    | sweep => exact h.sweep hb.tidy hb.rested.queued now
    | shutdown => exact h.shutdown hb.tidy hb.rested.queued now
    | receive | transportFailed | publish | remove | clearCache | registerStruct | registerEnum |
      subscribe | unsubscribe | disturb => exact h.perform_of_keeps hb hkeeps rfl hcall

theorem after (h : Catalogued known b) (hb : b.Reachable) {calls : List (BrokerCall × Instant)}
    (hcalls : ∀ call ∈ calls, call.1.Spares typeAnnounceType) :
    ∃ new, Catalogued (known ++ new) (b.after calls) ∧ KeepsEnums b (b.after calls) := by
  induction calls generalizing b known with
  | nil =>
    refine ⟨[], ?_, fun _ _ => id⟩
    rwa [List.append_nil]
  | cons call rest ih =>
    obtain ⟨new, hfirst, henums⟩ := h.perform hb (hcalls call List.mem_cons_self) call.2
    obtain ⟨new', hrest, henums'⟩ := ih hfirst (hb.perform call.1 call.2)
      fun c hc => hcalls c (List.mem_cons_of_mem _ hc)
    refine ⟨new ++ new', ?_, fun name s hs => henums' name s (henums name s hs)⟩
    rwa [← List.append_assoc]

end Catalogued

/-! ## What the types have in common -/

/-- Another definition under the name of the notes. -/
def otherNotes : StructSchema := { noteSchema with flags := {} }

end Broker

end ObjectBus
