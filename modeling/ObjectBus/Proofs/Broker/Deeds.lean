import ObjectBus.Proofs.Broker.Parts

/-!
# Deeds of the host

While a broker works it publishes objects on its own account: the record of a peer whose
connection has changed its state, the announcement of a type that has become known, and the
removal of objects that go with a guest or that it was asked to clear. It publishes no other
object (`Does`), and so whatever else is passed on was given to it.

A call is a course of steps and of drains (`Course`). Only a drain publishes records and cleans up
after guests; the steps outside of it do nothing but errands.

* `Held`, `Within`: the objects that are held between two states, and what happens between them;
* `Errand`, `Recording`, `Deed`: what the host publishes, and for which reason;
* `does_drain`: processing the changes of state that wait;
* `Course`, `Course.does`: what holds of all parts of a call;
* `course_acceptReceived`: processing a frame is a course.
-/

namespace ObjectBus.Broker

open Relation (ReflTransGen)

variable {call : BrokerCall} {now : Instant} {b b' b'' m : Broker} {peer : PeerId}
variable {cleared : String → Prop} {given passed : Passage → Prop}
variable {sent : PeerId → Transmission → Prop} {c : Connection} {t : Transmission}
variable {x : CachedObject}

/-! ## What happens between two states -/

/-- An object is held between two states: it is cached in the first one, or observers are told of
its entry before the second one. -/
def Held (b b' : Broker) (x : CachedObject) : Prop :=
  x.IsIn b ∨ ∃ event, .object event ∈ b.newEvents b' ∧ event.typeName = x.schema.name ∧
    event.object = x.entry.object ∧ event.provenance = x.entry.provenance

/-- An object whose entry was there before belongs to a type that was known before, too. -/
theorem isIn_of_entry (hb : b.Sound)
    (hregistry : ∀ name s, b.registry.findStruct? name = some s →
      b'.registry.findStruct? name = some s)
    (hx : x.IsIn b') (hentry : b.cachedAt? x.schema.name x.key = some x.entry) : x.IsIn b := by
  obtain ⟨y, hy, hplace, -⟩ := exists_isIn hb hentry
  obtain ⟨hname, -⟩ := Prod.mk.inj hplace
  have hschema : y.schema = x.schema :=
    Option.some.inj ((hregistry _ _ hy.registered).symm.trans (hname ▸ hx.registered))
  exact ⟨hschema ▸ hy.registered, hx.cached, hentry⟩

/-- Whatever is cached is held, if observers are told of all entries that are new. -/
theorem held_of_written (hb : b.Sound)
    (hregistry : ∀ name s, b.registry.findStruct? name = some s →
      b'.registry.findStruct? name = some s)
    (hwritten : ∀ typeName key e, b'.cachedAt? typeName key = some e →
      b.cachedAt? typeName key = some e ∨ ∃ event, .object event ∈ b.newEvents b' ∧
        event.typeName = typeName ∧ event.object = e.object ∧ event.provenance = e.provenance)
    (hx : x.IsIn b') : b.Held b' x :=
  (hwritten x.schema.name x.key x.entry hx.entry).imp_left (isIn_of_entry hb hregistry hx)

theorem Effects.held (h : Effects passed sent b b') (hb : b.Sound) (hx : x.IsIn b') :
    b.Held b' x := held_of_written hb h.registry h.written hx

theorem Held.later (h : b.Held b' x) (hevents : b.events <+: b'.events)
    (hevents' : b'.events <+: b''.events) : b.Held b'' x := by
  refine h.imp_right ?_
  rintro ⟨event, hevent, htold⟩
  exact ⟨event, newEvents_append hevents hevents' ▸ List.mem_append_left _ hevent, htold⟩

theorem Held.earlier (h : b'.Held b'' x) (hheld : x.IsIn b' → b.Held b' x)
    (hevents : b.events <+: b'.events) (hevents' : b'.events <+: b''.events) : b.Held b'' x := by
  rcases h with hin | ⟨event, hevent, htold⟩
  · exact (hheld hin).later hevents hevents'
  · exact .inr ⟨event, newEvents_append hevents hevents' ▸ List.mem_append_right _ hevent, htold⟩

/-- What happens between two states happens also between two others. -/
structure Within (s s' b b' : Broker) : Prop where
  /-- Observers are told of all of it. -/
  events : s.newEvents s' ⊆ b.newEvents b'
  /-- What is held is held. -/
  held : ∀ x, s.Held s' x → b.Held b' x
  /-- Whoever parts has parted. -/
  parted : ∀ q, Parted q s s' → Parted q b b'
  /-- Whoever is there was there. -/
  present : ∀ q, s.connections.find? q ≠ none → b.connections.find? q ≠ none

/-- The first of two parts is within the whole. -/
theorem within_left (hevents : b.events <+: b'.events) (hevents' : b'.events <+: b''.events)
    (hleaves : Leaves b' b'') : Within b b' b b'' where
  events := newEvents_append hevents hevents' ▸ List.subset_append_left _ _
  held _ hx := hx.later hevents hevents'
  parted _ hq := hq.later hleaves
  present _ hq := hq

/-- The second of two parts is within the whole. -/
theorem Effects.within_right (h : Effects passed sent b b') (hb : b.Sound) (hleaves : Leaves b b')
    (hevents' : b'.events <+: b''.events) : Within b' b'' b b'' where
  events := newEvents_append h.events hevents' ▸ List.subset_append_right _ _
  held _ hx := hx.earlier (h.held hb) h.events hevents'
  parted _ hq := hq.earlier hleaves
  present q hq hnone := hq (hleaves q hnone)

/-! ## What the host publishes -/

/-- What the host publishes on request between two states, given of which types it is asked to clear
the caches. -/
inductive Errand (now : Instant) (b b' : Broker) (cleared : String → Prop) : Passage → Prop
  /-- The announcement of a type that observers are told of. -/
  | announcement {schema known : StructSchema} {id : UInt32}
      (h : .typeAnnounced id known.name ∈ b.newEvents b') :
      Errand now b b' cleared (.publication schema (TypeAnnounce.record id known) now)
  /-- The removal of an object that is held, and whose type has a cache that is to be cleared. -/
  | clear {x : CachedObject} (h : cleared x.schema.name) (hheld : b.Held b' x) :
      Errand now b b' cleared (.removal x.schema x.entry.object now)

/-- The record of a peer that was there, in a state that observers are told of. -/
inductive Recording (now : Instant) (b b' : Broker) : Passage → Prop
  /-- The record. -/
  | record {schema : StructSchema} {peer : PeerId} {name : String} {state : ConnectionState}
      {cause : Option String} (h : .peerState peer name state cause ∈ b.newEvents b')
      (hpresent : b.connections.find? peer ≠ none) :
      Recording now b b' (.publication schema (PeerState.record peer name state) now)

/-- What the host publishes at all. -/
inductive Deed (now : Instant) (b b' : Broker) (cleared : String → Prop) : Passage → Prop
  /-- It was asked to. -/
  | errand {p : Passage} (h : Errand now b b' cleared p) : Deed now b b' cleared p
  /-- It keeps a record. -/
  | record {p : Passage} (h : Recording now b b' p) : Deed now b b' cleared p
  /-- The removal of an object whose type asks for clean-up, and which was written last by a guest
  that has parted. Observers are told that the connection of this guest has closed. -/
  | cleanUp {x : CachedObject} {name : String} {cause : Option String}
      (h : .peerState x.entry.provenance.lastUpdateFrom name .closed cause ∈ b.newEvents b')
      (hparted : Parted x.entry.provenance.lastUpdateFrom b b')
      (hcleanup : x.schema.flags.cleanup = true) (hheld : b.Held b' x) :
      Deed now b b' cleared (.removal x.schema x.entry.object now)

theorem Errand.within {s s' : Broker} {p : Passage} (h : Errand now s s' cleared p)
    (hwithin : Within s s' b b') : Errand now b b' cleared p := by
  cases h with
  | announcement h => exact .announcement (hwithin.events h)
  | clear h hheld => exact .clear h (hwithin.held _ hheld)

/-- No errand is about a record of a peer, unless their cache is to be cleared. -/
theorem Errand.name_ne {p : Passage} {r : Registry} (h : Errand now b b' cleared p)
    (hof : p.IsOf r) (hclear : ¬cleared peerStateType) : p.schema.name ≠ peerStateType := by
  intro hname
  cases h with
  -- An announcement is an object of the other built-in type.
  | announcement =>
    have htype : typeAnnounceType = _ := hof.typeName_object
    exact absurd (htype.trans hname) (by decide)
  | clear hcleared => exact hclear (hname ▸ hcleared)

theorem Recording.within {s s' : Broker} {p : Passage} (h : Recording now s s' p)
    (hwithin : Within s s' b b') : Recording now b b' p := by
  cases h with
  | record h hpresent => exact .record (hwithin.events h) (hwithin.present _ hpresent)

/-- What is done between two states is done within any others that they are within. -/
theorem Deed.within {s s' : Broker} {p : Passage} (h : Deed now s s' cleared p)
    (hwithin : Within s s' b b') : Deed now b b' cleared p := by
  cases h with
  | errand h => exact .errand (h.within hwithin)
  | record h => exact .record (h.within hwithin)
  | cleanUp h hparted hcleanup hheld =>
    exact .cleanUp (hwithin.events h) (hwithin.parted _ hparted) hcleanup (hwithin.held _ hheld)

/-- What the host publishes it publishes under its own header. -/
theorem Deed.sender {p : Passage} (h : Deed now b b' cleared p) :
    p.header.sender = some hostId ∧ p.header.isFromMyself = true := by
  cases h with
  | errand h =>
    cases h with
    | announcement | clear => exact ⟨rfl, rfl⟩
  | record h =>
    cases h
    exact ⟨rfl, rfl⟩
  | cleanUp => exact ⟨rfl, rfl⟩

/-- What is passed on was given or is a deed of the host, and nobody has come. -/
structure Does (now : Instant) (cleared : String → Prop) (given : Passage → Prop)
    (sent : PeerId → Transmission → Prop) (b b' : Broker) : Prop
    extends Effects (fun p => given p ∨ Deed now b b' cleared p) sent b b' where
  /-- Nobody has come. -/
  leaves : Leaves b b'

namespace Does

theorem refl (now : Instant) (cleared : String → Prop) (given : Passage → Prop)
    (sent : PeerId → Transmission → Prop) (b : Broker) : Does now cleared given sent b b :=
  ⟨.refl _ sent b, .refl b⟩

/-- A later part may be judged from the start. -/
theorem extend (h : Does now cleared given sent b b') (hleaves : Leaves b' b'')
    (heffects : Effects (fun p => given p ∨ Deed now b b'' cleared p) sent b' b'') :
    Does now cleared given sent b b'' := by
  have hwithin : Within b b' b b'' := within_left h.events heffects.events hleaves
  exact ⟨(h.toEffects.mono (fun p hp => hp.imp_right fun hdeed => hdeed.within hwithin)
    fun _ _ => id).trans heffects, h.leaves.trans hleaves⟩

theorem trans (h : Does now cleared given sent b b') (hb : b.Sound)
    (h' : Does now cleared given sent b' b'') : Does now cleared given sent b b'' := by
  have hwithin : Within b' b'' b b'' := h.within_right hb h.leaves h'.events
  exact h.extend h'.leaves
    (h'.toEffects.mono (fun p hp => hp.imp_right fun hdeed => hdeed.within hwithin) fun _ _ => id)

end Does

/-! ## Changes of state -/

/-- The departure of a guest: what is passed on are the removals of what goes with it. -/
theorem effects_onClosed (hb : b.Tidy) (peer : PeerId) (now : Instant)
    (hpassed : ∀ x ∈ b.orphans peer, passed (.removal x.schema x.entry.object now)) :
    Effects passed sent b (b.onClosed peer now).value := by
  have hin : ∀ x ∈ b.orphans peer, x.IsIn (b.setAside peer) := by
    intro x hx
    obtain ⟨hx, -⟩ := (mem_orphans_iff hb.sound).1 hx
    exact ⟨by rw [registry_setAside, hx.registered], hx.cached,
      by rw [cachedAt?, container?_setAside, ← cachedAt?, hx.entry]⟩
  exact (effects_setAside b peer).trans
    ((retracts_onClosed hb.sound hb.listed.1 peer now).effects (hb.sound.setAside peer) hin
      (onClosed_steps b peer) hpassed)

/-- What is passed on before observers are told of a change of state. -/
theorem effects_leftBy (hb : b.Tidy) (peer : PeerId) (t : Transition) (now : Instant)
    (hpassed : t.closes = true →
      ∀ x ∈ b.orphans peer, passed (.removal x.schema x.entry.object now)) :
    Effects passed sent b (b.leftBy peer t now) := by
  unfold leftBy
  split
  · rename_i hcloses
    exact effects_onClosed hb peer now (hpassed hcloses)
  · exact .refl passed sent b

theorem sound_leftBy (hb : b.Tidy) (peer : PeerId) (t : Transition) (now : Instant) :
    (b.leftBy peer t now).Sound := by
  unfold leftBy
  split
  · exact (hb.onClosed peer now).sound
  · exact hb.sound

/-- The steps by which a change of state is processed, once the connection that it closes has left
the table. -/
theorem steps_departed (call : BrokerCall) (b : Broker) (peer : PeerId) (t : Transition)
    (now : Instant) :
    Steps call now (if t.closes then b.setAside peer else b) (b.onTransition peer t now).value := by
  refine ReflTransGen.trans ?_ (steps_onTransition b peer t)
  unfold leftBy
  split
  · exact onClosed_steps b peer
  · exact .refl

/-- Processing a change of state takes nobody in, and it takes out whoever has closed. -/
theorem leaves_onTransition (b : Broker) (peer : PeerId) (t : Transition) (now : Instant) :
    Leaves b (b.onTransition peer t now).value ∧
      (t.closes = true → (b.onTransition peer t now).value.connections.find? peer = none) := by
  have hsteps : Leaves (if t.closes then b.setAside peer else b)
      (b.onTransition peer t now).value := (steps_departed .sweep b peer t now).leaves (by simp)
  refine ⟨Leaves.trans ?_ hsteps, fun hcloses => hsteps peer ?_⟩
  · split
    · exact leaves_setAside b peer
    · exact .refl b
  · rw [if_pos hcloses, find?_setAside, if_pos rfl]

/-- After the departure of a guest that has closed observers are told of the change of state, and
nothing is passed on but the record. -/
theorem effects_recorded (hb : b.Tidy) (peer : PeerId) (t : Transition) (now : Instant) :
    ∃ name, .peerState peer name t.state t.cause ∈
        (b.leftBy peer t now).newEvents (b.onTransition peer t now).value ∧
      ∀ (passed : Passage → Prop) (sent : PeerId → Transmission → Prop),
        (∀ schema, passed (.publication schema (PeerState.record peer name t.state) now)) →
          Effects passed sent (b.leftBy peer t now) (b.onTransition peer t now).value := by
  rw [value_onTransition]
  generalize (b.peerName? peer).getD unnamedPeer = name
  let told := (b.leftBy peer t now).emit (.peerState peer name t.state t.cause)
  let recorded := (told.publishAsHost (PeerState.record peer name t.state) none false now).value.1
  have hsteps : Steps .sweep now (b.leftBy peer t now) told := .single (.announce (by simp))
  have hsound : told.Sound := Steps.induction Sound.step (sound_leftBy hb peer t now) hsteps
  have htell : ∀ (passed : Passage → Prop) (sent : PeerId → Transmission → Prop),
      Effects passed sent (b.leftBy peer t now) told := fun _ _ => effects_emit _ (by simp)
  have hpublish : ∀ (passed : Passage → Prop) (sent : PeerId → Transmission → Prop),
      (∀ schema, passed (.publication schema (PeerState.record peer name t.state) now)) →
        Effects passed sent told recorded :=
    fun _ _ hpassed => effects_publishAsHost hsound _ none false now fun s _ => hpassed s
  refine ⟨name, ?_, fun passed sent hpassed => (htell _ _).trans (hpublish _ _ hpassed)⟩
  -- The event is the first of those that are new.
  have hevents : told.events =
    (b.leftBy peer t now).events ++ [.peerState peer name t.state t.cause] := rfl
  have hlater := hpublish (fun _ => True) (fun _ _ => True) fun _ => trivial
  rw [newEvents_append (htell (fun _ => True) fun _ _ => True).events hlater.events,
    newEvents_of_append hevents]
  exact List.mem_append_left _ (List.mem_singleton_self _)

/-- Processing one change of state. -/
theorem Does.onTransition (h : Does now cleared given sent m b) (hm : m.Sound) (hb : b.Tidy)
    (hpeer : m.connections.find? peer ≠ none) (t : Transition) :
    Does now cleared given sent m (b.onTransition peer t now).value := by
  obtain ⟨hleaves, hgone⟩ := leaves_onTransition b peer t now
  obtain ⟨name, hnew, hrecorded⟩ := effects_recorded hb peer t now
  have hleft : Effects (fun _ => True) sent b (b.leftBy peer t now) :=
    effects_leftBy hb peer t now fun _ _ _ => trivial
  have hrest := hrecorded (fun _ => True) sent fun _ => trivial
  have hevents := hleft.events.trans hrest.events
  have hevent : .peerState peer name t.state t.cause ∈
      m.newEvents (b.onTransition peer t now).value := by
    rw [newEvents_append h.events hevents, newEvents_append hleft.events hrest.events]
    exact List.mem_append_right _ (List.mem_append_right _ hnew)
  refine h.extend hleaves ((effects_leftBy hb peer t now fun hcloses x hx => ?_).trans
    (hrecorded _ sent fun schema => .inr (.record (.record hevent hpeer))))
  obtain ⟨hin, hcleanup, rfl⟩ := ((hb.departure peer now).exactly x).1 hx
  have hstate : t.state = .closed := by simpa [Transition.closes] using hcloses
  exact .inr (.cleanUp (hstate ▸ hevent) ⟨hpeer, hgone hcloses⟩ hcleanup
    ((h.held hm hin).later h.events hevents))

/-- What is kept when the queues of a tidy broker are taken and when a change of state is processed
of a guest that was there at the start holds after draining. -/
theorem does_drain_induction {I : Broker → Prop} (hm : m.Tidy) (hq : m.Queued [])
    (htake : ∀ s, I s → I s.takePending)
    (hprocess : ∀ s peer t, s.Tidy → Does now cleared given sent m s →
      m.connections.find? peer ≠ none → I s → I (s.onTransition peer t now).value)
    (h : I m) : Does now cleared given sent m (m.drain now).value ∧ I (m.drain now).value := by
  refine (hm.drain_induction hq (I := fun taken s => (Does now cleared given sent m s ∧ I s) ∧
    ∀ x ∈ taken, m.connections.find? x.1 ≠ none) ?_ ?_
    ⟨⟨.refl now cleared given sent m, h⟩, List.forall_mem_nil _⟩).1
  · rintro s - ⟨⟨hdoes, hI⟩, -⟩
    refine ⟨⟨hdoes.extend (leaves_takePending s) (effects_takePending s), htake s hI⟩,
      fun x hx hnone => ?_⟩
    -- Whoever is in the table has been there from the start.
    obtain ⟨c, hc, -⟩ := mem_pending_iff.1 hx
    rw [hdoes.leaves x.1 hnone] at hc
    cases hc
  · rintro s x taken hs ⟨⟨hdoes, hI⟩, htaken⟩
    obtain ⟨hpeer, hrest⟩ := List.forall_mem_cons.1 htaken
    exact ⟨⟨hdoes.onTransition hm.sound hs hpeer x.2, hprocess s x.1 x.2 hs hdoes hpeer hI⟩, hrest⟩

/-- Processing all changes of state that wait. -/
theorem does_drain (hb : b.Tidy) (hq : b.Queued []) :
    Does now cleared given sent b (b.drain now).value :=
  (does_drain_induction (I := fun _ => True) hb hq (fun _ _ => trivial)
    (fun _ _ _ _ _ _ _ => trivial) trivial).1

/-! ## Parts of a call -/

/-- A part of a call: steps in which nothing is passed on but what was given and what the host is
asked to publish, the processing of all changes of state that wait, or several such parts. -/
inductive Course (call : BrokerCall) (now : Instant) (cleared : String → Prop)
    (given : Passage → Prop) (sent : PeerId → Transmission → Prop) : Broker → Broker → Prop
  /-- A chain of steps. -/
  | steps {b b' : Broker} (h : Steps call now b b')
      (heffects : b.Sound →
        Effects (fun p => given p ∨ Errand now b b' cleared p) sent b b') :
      Course call now cleared given sent b b'
  /-- A drain. -/
  | drain (b : Broker) : Course call now cleared given sent b (b.drain now).value
  /-- Two parts. -/
  | trans {b b' b'' : Broker} (h : Course call now cleared given sent b b')
      (h' : Course call now cleared given sent b' b'') : Course call now cleared given sent b b''

namespace Course

theorem refl (call : BrokerCall) (now : Instant) (cleared : String → Prop)
    (given : Passage → Prop) (sent : PeerId → Transmission → Prop) (b : Broker) :
    Course call now cleared given sent b b :=
  .steps .refl fun _ => .refl _ sent b

theorem foldl {α : Type} {f : Broker → α → Broker} {l : List α}
    (hf : ∀ b, ∀ a ∈ l, Course call now cleared given sent b (f b a)) (b : Broker) :
    Course call now cleared given sent b (l.foldl f b) := by
  induction l generalizing b with
  | nil => exact .refl call now cleared given sent b
  | cons a rest ih =>
    refine (hf b a List.mem_cons_self).trans (ih (fun b a' ha' => ?_) _)
    exact hf b a' (List.mem_cons_of_mem _ ha')

theorem tidy (h : Course call now cleared given sent b b') (hb : b.Tidy) (hq : b.Queued []) :
    b'.Tidy ∧ b'.Queued [] := by
  induction h with
  | steps hsteps _ => exact ⟨hb.moves (Moves.of_steps hsteps), hq.steps hsteps⟩
  | drain b =>
    obtain ⟨hmoves, hq'⟩ := drain_spec .sweep now hq
    exact ⟨hb.moves hmoves, hq'⟩
  | trans _ _ ih ih' =>
    obtain ⟨hb', hq'⟩ := ih hb hq
    exact ih' hb' hq'

/-- Whatever a course passes on was given or is a deed of the host, if it accepts nobody. -/
theorem does (h : Course call now cleared given sent b b')
    (hquiet : ∀ channel, call ≠ .accept channel) (hb : b.Tidy) (hq : b.Queued []) :
    Does now cleared given sent b b' := by
  induction h with
  | steps hsteps heffects =>
    exact ⟨(heffects hb.sound).mono (fun p hp => hp.imp_right .errand) fun _ _ => id,
      hsteps.leaves hquiet⟩
  | drain b => exact does_drain hb hq
  | trans h _ ih ih' =>
    obtain ⟨hb', hq'⟩ := h.tidy hb hq
    exact (ih hb hq).trans hb.sound (ih' hb' hq')

end Course

/-- Clearing the caches of some types. -/
theorem course_clearCache {typeNames : List String}
    (hclear : ∀ typeName ∈ typeNames, cleared typeName) (b : Broker) :
    Course call now cleared given sent b (b.clearCache typeNames now).value := by
  unfold clearCache
  simp only [Noted.value_bind, Noted.value_foldlM]
  refine .trans (.foldl (fun b typeName hmem => ?_) b) (.drain _)
  refine .steps (steps_clearType b typeName) fun hb =>
    effects_clearType hb typeName now fun x hx => ?_
  obtain ⟨hin, rfl⟩ := (mem_cachedOf_iff hb).1 hx
  exact .inr (.clear (hclear _ hmem) (.inl hin))

/-- Registering a struct type. -/
theorem course_registerStruct (b : Broker) (schema : StructSchema) :
    Course call now cleared given sent b (b.registerStruct schema now).value.1 := by
  unfold registerStruct
  cases hregister : b.registry.registerStruct schema with
  | error e => exact .refl call now cleared given sent b
  | ok r =>
    obtain ⟨registry, outcome⟩ := r
    obtain ⟨hcheck, ⟨rfl, -, -⟩ | ⟨rfl, rfl, hnew⟩⟩ := Registry.registerStruct_cases hregister
    · exact .refl call now cleared given sent b
    · simp only [Noted.value_bind, Noted.value_pure]
      refine .trans (.steps (steps_onNewType hcheck hnew) fun hb => ?_) (.drain _)
      obtain ⟨htold, heffects⟩ := effects_onNewType hb hcheck hnew now
      exact heffects _ sent fun s => .inr (.announcement htold)

/-! ## Frames -/

/-- The error with which an operation ended. -/
def failure? : Outcome Unit → Option BrokerError
  | .ok () => none
  | .error e => some e

/-- The error of which a guest is told in answer to a frame. -/
def complaint? (b : Broker) (peer : PeerId) (c : Connection) (t : Transmission)
    (now : Instant) : Option BrokerError :=
  match (c.receive t now).value.2 with
  | .handled => none
  | .object h o => failure? (b.acceptObject h o now).value.2
  | .control request => failure? (b.acceptRequest peer request now).value.2
  | .rejected violation => some (.protocol violation)
  | .fatal e => some e

/-- What guests may be sent besides objects while a frame is processed: answers, the notice of an
error, and the cache of the type whose group the guest joins. -/
structure Answers (sent : PeerId → Transmission → Prop) (b : Broker) (peer : PeerId)
    (c : Connection) (t : Transmission) (now : Instant) : Prop where
  /-- Answers. -/
  answer : ∀ q f, f.IsAnswer → sent q f
  /-- The notice of an error. -/
  notice : ∀ e, b.complaint? peer c t now = some e → sent peer (noticeOf e now)
  /-- A replay. -/
  replay : ∀ group schema, t.payload = .control (.member group .join) →
    b.registry.findStruct? group = some schema → ∀ f ∈ b.replayFrames schema now, sent peer f

/-- Definitions and the mark of their end are no notices. -/
theorem isNotice_reply (r : Registry) (whitelist blacklist : List String) :
    ∀ message ∈ Discovery.reply r whitelist blacklist, message.isNotice = false := by
  have hdefinitions : ∀ (l : List StructSchema) (known : List String),
      ∀ message ∈ Discovery.definitions r known l, message.isNotice = false := by
    intro l
    induction l with
    | nil =>
      intro known message hmem
      cases hmem
    | cons s rest ih =>
      intro known message hmem
      simp only [Discovery.definitions, List.mem_append, List.mem_map, List.mem_cons] at hmem
      rcases hmem with ⟨e, -, rfl⟩ | rfl | hmem
      · rfl
      · rfl
      · exact ih _ message hmem
  intro message hmem
  rcases List.mem_append.1 hmem with hmem | hmem
  · exact hdefinitions _ _ message hmem
  · obtain rfl := List.mem_singleton.1 hmem
    rfl

/-- Doing the control work that a connection hands on. -/
theorem course_acceptRequest {request : ControlRequest}
    (hc : b.connections.find? peer = some c)
    (hreceived : (c.receive t now).value.2 = .control request)
    (hanswers : Answers sent b peer c t now)
    (hclear : ∀ typeNames, t.payload = .control (.clearCache typeNames) →
      ∀ typeName ∈ typeNames, cleared typeName) :
    Course (.receive peer t) now cleared given sent b
      (b.acceptRequest peer request now).value.1 := by
  have hpayload := Connection.payload_of_receive hreceived
  have hforward : ∀ (b : Broker) (group : String) (h : Header) (m : ControlMessage),
      m.isNotice = false → Course (.receive peer t) now cleared given sent b
        (b.forward group ⟨h, .control m⟩).value := by
    intro b group h m hm
    refine .steps (.single (.forward group h m)) fun _ => ?_
    exact effects_forward b group _ fun q => hanswers.answer q _ ⟨m, rfl, hm⟩
  have hconfirm : ∀ (b : Broker) (typeName : String),
      Course (.receive peer t) now cleared given sent b (b.confirmImport peer typeName) :=
    fun b typeName => .steps (steps_confirmImport b peer typeName)
      fun _ => effects_confirmImport b peer typeName
  unfold acceptRequest
  cases request with
  | member group event =>
    refine .steps (steps_changeMembership rfl hpayload hc) fun _ => ?_
    refine effects_changeMembership b peer group event now fun schema hjoin hs => ?_
    exact hanswers.replay group schema (hjoin ▸ hpayload) hs
  | descriptorRequest whitelist blacklist =>
    refine .steps (steps_discover b peer _ _) fun _ => ?_
    refine effects_discover b peer _ _ now fun m hm => hanswers.answer peer _ ?_
    exact Transmission.isAnswer_ofControl (isNotice_reply _ _ _ m hm) now
  | clearCache typeNames h =>
    simp only [Noted.value_bind, Noted.value_pure]
    exact (course_clearCache (hclear typeNames hpayload) b).trans (hforward _ _ h _ rfl)
  -- An import is confirmed and passed on only if the type could be registered.
  | importStruct schema h =>
    simp only [Noted.value_bind]
    have hregister : Course (.receive peer t) now cleared given sent b
        (b.registerStruct schema now).value.1 :=
      course_registerStruct b schema
    split
    · exact hregister
    · refine (hregister.trans (hconfirm _ schema.name)).trans ?_
      split <;> exact hforward _ _ h _ rfl
  | importEnum schema h =>
    simp only [Noted.value_bind]
    have hregister : Course (.receive peer t) now cleared given sent b
        (b.registerEnum schema).value.1 :=
      .steps (steps_registerEnum b schema)
        fun _ => effects_registerEnum b schema
    split
    · exact hregister
    · simp only [Noted.value_bind, Noted.value_pure]
      exact (hregister.trans (hconfirm _ schema.name)).trans (hforward _ _ h _ rfl)

/-- Everything that follows from what a guest sent, until the queues are drained. -/
theorem course_acceptReceived (hc : b.connections.find? peer = some c)
    (hanswers : Answers sent b peer c t now)
    (hclear : ∀ typeNames, t.payload = .control (.clearCache typeNames) →
      ∀ typeName ∈ typeNames, cleared typeName)
    (hgiven : ∀ h o schema, (c.receive t now).value.2 = .object h o →
      b.registry.findStruct? h.typeName = some schema → h.isControl = schema.flags.internal →
      schema.validate o = .ok () →
        given ⟨schema, { h with attributes := acceptedAttributes schema h o }, o⟩) :
    Course (.receive peer t) now cleared given sent b
      ((b.putConnection peer (c.receive t now).value.1).acceptReceived peer
        (c.receive t now).value.2 now).value := by
  have hhear : Course (.receive peer t) now cleared given sent b
      (b.putConnection peer (c.receive t now).value.1) := by
    refine .steps (.single (.hear rfl hc)) fun _ => effects_putConnection hc ?_
    exact ((c.answers_receive t now).mono fun f hf => hanswers.answer peer f hf).sends
  have hsettle : ∀ r : Broker × Outcome Unit,
      (∀ e, r.2 = .error e → sent peer (noticeOf e now)) →
        Course (.receive peer t) now cleared given sent r.1 (settle peer now r).value :=
    fun r hr => .steps (steps_settle peer r)
      fun _ => effects_settle peer r now hr
  have hreport : ∀ (b : Broker) (e : BrokerError), sent peer (noticeOf e now) →
      Course (.receive peer t) now cleared given sent b (b.report peer e now).value :=
    fun b e he => .steps (steps_report b peer e)
      fun _ => effects_report b peer e now he
  have hnotice := hanswers.notice
  unfold complaint? at hnotice
  cases hreceived : (c.receive t now).value.2 with
  | handled => exact hhear
  | rejected violation =>
    rw [hreceived] at hnotice
    exact hhear.trans (hreport _ _ (hnotice _ rfl))
  | fatal e =>
    rw [hreceived] at hnotice
    exact hhear.trans (hreport _ _ (hnotice _ rfl))
  -- What is handed on leaves the connection as it was, so that hearing it was nothing at all.
  | object h o =>
    obtain ⟨hsame, -⟩ := Connection.receive_eq_object hreceived
    rw [hsame, putConnection_self hc]
    rw [hreceived] at hnotice
    have haccept : Course (.receive peer t) now cleared given sent b
        (b.acceptObject h o now).value.1 :=
      .steps (steps_acceptObject rfl hc hreceived) fun hb =>
        effects_acceptObject hb h o now fun schema hs hspace hvalid =>
          .inl (hgiven h o schema hreceived hs hspace hvalid)
    refine haccept.trans (hsettle _ fun e he => hnotice e ?_)
    simp only [he, failure?]
  | control request =>
    obtain ⟨hsame, -⟩ := Connection.receive_eq_control hreceived
    rw [hsame, putConnection_self hc]
    have hrequest : Course (.receive peer t) now cleared given sent b
        (b.acceptRequest peer request now).value.1 :=
      course_acceptRequest hc hreceived hanswers hclear
    rw [hreceived] at hnotice
    refine hrequest.trans (hsettle _ fun e he => hnotice e ?_)
    simp only [he, failure?]

/-- Processing a frame: what is passed on is the guest's own object or a deed of the host. -/
theorem Reachable.does_receive (hb : b.Reachable) (hc : b.connections.find? peer = some c)
    (hanswers : Answers sent b peer c t now)
    (hclear : ∀ typeNames, t.payload = .control (.clearCache typeNames) →
      ∀ typeName ∈ typeNames, cleared typeName)
    (hgiven : ∀ h o schema, (c.receive t now).value.2 = .object h o →
      b.registry.findStruct? h.typeName = some schema → h.isControl = schema.flags.internal →
      schema.validate o = .ok () →
        given ⟨schema, { h with attributes := acceptedAttributes schema h o }, o⟩) :
    Does now cleared given sent b (b.perform (.receive peer t) now) := by
  have hparts := course_acceptReceived hc hanswers hclear hgiven
  have hperform : b.perform (.receive peer t) now =
      (((b.putConnection peer (c.receive t now).value.1).acceptReceived peer
        (c.receive t now).value.2 now).value.drain now).value := by
    unfold Broker.perform receive
    simp only [hc, Noted.value_bind, Noted.value_pure]
  rw [hperform]
  exact (hparts.trans (.drain _)).does (by simp) hb.tidy hb.rested.queued

end ObjectBus.Broker
