import ObjectBus.Proofs.Broker.Courses
import ObjectBus.Proofs.Broker.Lives

/-!
# What goes with guests that part

When guests part, exactly the objects that they wrote last go with them, as far as their types ask
for it, each with one event and with one frame for every connected member of its group. This holds
from any state of a broker to a later one, whatever makes the connections close on the way, if
nothing else is passed on but what was asked for.

* `removalsTold`, `removalsTo`: the removals of which observers and guests are told;
* `CleansUp`: which objects are gone between two states, and what is seen of it;
* `CleansUp.trans`: what two parts of a call clean up, one after the other;
* `Unmoved`: a guest that has stayed in its groups;
* `Tidy.cleansUp_onClosed`, `Tidy.cleansUp_drain`: the departure of one guest, and a whole drain;
* `Tidies`, `Tidy.tidies_drain`: in a drain nothing else is removed.
-/

namespace ObjectBus

/-- Whether observers are told of the removal of an object. -/
def BrokerEvent.removes : BrokerEvent → Bool
  | .object e => decide (e.operation = .remove)
  | _ => false

/-- Who wrote the object last. -/
def CachedObject.writer (x : CachedObject) : PeerId := x.entry.provenance.lastUpdateFrom

namespace Broker

open Relation (ReflTransGen)

variable {call : BrokerCall} {now : Instant} {b b' b'' m s : Broker} {peer q : PeerId}
variable {asked asked' : Passage → Prop} {onlooker onlooker' : PeerId → Prop}
variable {gone gone' : List CachedObject} {x : CachedObject} {typeName : String} {key : ObjectKey}
variable {sent : PeerId → Transmission → Prop} {cleared : String → Prop} {given : Passage → Prop}

/-! ## Removals -/

/-- The removals of which observers are told between two states. -/
def removalsTold (b b' : Broker) : List BrokerEvent := (b.newEvents b').filter (·.removes)

/-- The removals that a guest is handed between two states. -/
def removalsTo (b b' : Broker) (q : PeerId) : List Transmission :=
  (b.newFrames b' q).filter (·.removes)

theorem newFrames_of_append {frames : List Transmission}
    (h : b'.framesTo q = b.framesTo q ++ frames) : b.newFrames b' q = frames := by
  rw [newFrames, h, List.drop_left]

/-- The new frames of two parts are those of the first and then those of the second. -/
theorem newFrames_append (h : b.framesTo q <+: b'.framesTo q)
    (h' : b'.framesTo q <+: b''.framesTo q) :
    b.newFrames b'' q = b.newFrames b' q ++ b'.newFrames b'' q := by
  obtain ⟨frames, hframes⟩ := h
  obtain ⟨frames', hframes'⟩ := h'
  rw [newFrames_of_append hframes.symm, newFrames_of_append hframes'.symm]
  refine newFrames_of_append ?_
  rw [← hframes', ← hframes, List.append_assoc]

/-! ## What is cleaned up -/

/-- A guest is connected. -/
def Connected (b : Broker) (q : PeerId) : Prop :=
  ∃ c, b.connections.find? q = some c ∧ c.state = .connected

/-- Something that may be passed on has its place under a key. -/
def Touched (asked : Passage → Prop) (b' : Broker) (typeName : String) (key : ObjectKey) : Prop :=
  ∃ p, asked p ∧ p.IsOf b'.registry ∧ p.schema.name = typeName ∧ p.schema.keyOf p.object = .ok key

/-- Between two states exactly some objects are gone with guests that have parted. Whatever else is
passed on was asked for. -/
structure CleansUp (now : Instant) (asked : Passage → Prop) (onlooker : PeerId → Prop)
    (gone : List CachedObject) (b b' : Broker) : Prop where
  /-- Known types stay known. -/
  registry : ∀ name s, b.registry.findStruct? name = some s →
    b'.registry.findStruct? name = some s
  /-- Events are only appended. -/
  events : b.events <+: b'.events
  /-- A number that is assigned stays so. -/
  assigned : ∀ q, b.Assigned q → b'.Assigned q
  /-- The frames that a guest is handed are only appended, too. -/
  handed : ∀ q, b.Assigned q → b.framesTo q <+: b'.framesTo q
  /-- What is gone was held, its type asks for clean-up, and the guest that wrote it last has
  parted. -/
  follows : ∀ x ∈ gone, b.Held b' x ∧ x.schema.flags.cleanup = true ∧ Parted x.writer b b'
  /-- Nothing is gone twice with one guest. -/
  once : (gone.map fun x => (x.place, x.writer)).Nodup
  /-- Nothing is left behind by a guest that has parted, unless something that was asked for has
  taken its place. -/
  complete : ∀ x, x.IsIn b → x.schema.flags.cleanup = true → Parted x.writer b b' →
    x ∈ gone ∨ Touched asked b' x.schema.name x.key
  /-- Other entries are the same, unless something that was asked for has its place there. -/
  entries : ∀ typeName key, b'.cachedAt? typeName key = b.cachedAt? typeName key ∨
    Touched asked b' typeName key ∨
    ∃ x ∈ gone, x.IsIn b ∧ x.place = (typeName, key) ∧ b'.cachedAt? typeName key = none
  /-- Observers are told of all entries that are new. -/
  written : ∀ typeName key e, b'.cachedAt? typeName key = some e →
    b.cachedAt? typeName key = some e ∨ ∃ event, .object event ∈ b.newEvents b' ∧
      event.typeName = typeName ∧ event.object = e.object ∧ event.provenance = e.provenance
  /-- Observers are told of one removal for each object that is gone, and of none besides but those
  that were asked for. -/
  told : ∃ own, (b.removalsTold b').Perm (own ++ gone.map fun x => .object (x.removal now)) ∧
    ∀ event ∈ own, ∃ e p, event = .object e ∧ asked p ∧ p.IsOf b'.registry ∧ e.Tells p
  /-- A guest is handed at most one removal for each object that is gone, and none besides but those
  that were asked for. An onlooker is handed removals of its groups only, and all of them if it is
  connected in the end. -/
  frames : ∀ q, b.Assigned q → ∃ own handed,
    (b.removalsTo b' q).Perm (own ++ handed.map (·.removalFrame now)) ∧
    (∀ t ∈ own, ∃ p, asked p ∧ p.IsOf b'.registry ∧ t = p.frame) ∧ handed.Sublist gone ∧
    (onlooker q → handed.Sublist (gone.filter fun x => b'.groups.hasMember x.schema.name q) ∧
      (b'.Connected q → handed = gone.filter fun x => b'.groups.hasMember x.schema.name q))

/-- The memberships of a guest are the same, and it has not been connected meanwhile. -/
structure Unmoved (q : PeerId) (b b' : Broker) : Prop where
  /-- It is in the same groups. -/
  groups : ∀ group, b'.groups.hasMember group q = b.groups.hasMember group q
  /-- It was connected if it is. -/
  connected : b'.Connected q → b.Connected q

theorem Unmoved.refl (q : PeerId) (b : Broker) : Unmoved q b b := ⟨fun _ => rfl, id⟩

theorem Unmoved.trans (h : Unmoved q b b') (h' : Unmoved q b' b'') : Unmoved q b b'' :=
  ⟨fun group => (h'.groups group).trans (h.groups group), fun hq => h.connected (h'.connected hq)⟩

theorem Touched.later (h : Touched asked b' typeName key)
    (hregistry : ∀ name s, b'.registry.findStruct? name = some s →
      b''.registry.findStruct? name = some s) : Touched asked b'' typeName key := by
  obtain ⟨p, hp, hof, hplace⟩ := h
  exact ⟨p, hp, hof.mono hregistry, hplace⟩

namespace CleansUp

theorem mono (h : CleansUp now asked onlooker gone b b') (hasked : ∀ p, asked p → asked' p)
    (honlooker : ∀ q, onlooker' q → onlooker q) :
    CleansUp now asked' onlooker' gone b b' := by
  have htouched : ∀ {typeName key}, Touched asked b' typeName key →
      Touched asked' b' typeName key := by
    rintro typeName key ⟨p, hp, hrest⟩
    exact ⟨p, hasked p hp, hrest⟩
  refine ⟨h.registry, h.events, h.assigned, h.handed, h.follows, h.once,
    fun x hx hcleanup hparted => ?_, fun typeName key => ?_, h.written, ?_, fun q hq => ?_⟩
  · exact (h.complete x hx hcleanup hparted).imp_right htouched
  · exact (h.entries typeName key).imp_right fun hchanged => hchanged.imp_left htouched
  · obtain ⟨own, hperm, hown⟩ := h.told
    refine ⟨own, hperm, fun event hevent => ?_⟩
    obtain ⟨e, p, heq, hp, hrest⟩ := hown event hevent
    exact ⟨e, p, heq, hasked p hp, hrest⟩
  · obtain ⟨own, handed, hperm, hown, hsub, hall⟩ := h.frames q hq
    refine ⟨own, handed, hperm, fun t ht => ?_, hsub, fun hq => hall (honlooker q hq)⟩
    obtain ⟨p, hp, hrest⟩ := hown t ht
    exact ⟨p, hasked p hp, hrest⟩

/-- Whatever is cached afterwards is held. -/
theorem held (h : CleansUp now asked onlooker gone b b') (hb : b.Sound) (hx : x.IsIn b') :
    b.Held b' x := held_of_written hb h.registry h.written hx

/-- Nothing is gone twice with one guest in two parts: the guest parts in one of them. -/
theorem once_append (h : CleansUp now asked onlooker gone b b')
    (h' : CleansUp now asked onlooker gone' b' b'') :
    ((gone ++ gone').map fun x => (x.place, x.writer)).Nodup := by
  rw [List.map_append, List.nodup_append]
  refine ⟨h.once, h'.once, fun place hplace place' hplace' hsame => ?_⟩
  obtain ⟨x, hx, rfl⟩ := List.mem_map.1 hplace
  obtain ⟨y, hy, rfl⟩ := List.mem_map.1 hplace'
  have hwriter : x.writer = y.writer := (Prod.mk.inj hsame).2
  obtain ⟨-, -, -, hnone⟩ := h.follows x hx
  obtain ⟨-, -, hthere, -⟩ := h'.follows y hy
  exact hthere (hwriter ▸ hnone)

/-- What was there before both parts, and whose guest parts in one of them, is gone. -/
theorem complete_append (h : CleansUp now asked onlooker gone b b')
    (h' : CleansUp now asked onlooker gone' b' b'') (hx : x.IsIn b)
    (hcleanup : x.schema.flags.cleanup = true) (hparted : Parted x.writer b b'') :
    x ∈ gone ++ gone' ∨ Touched asked b'' x.schema.name x.key := by
  by_cases hnone : b'.connections.find? x.writer = none
  · rcases h.complete x hx hcleanup ⟨hparted.1, hnone⟩ with hgone | htouched
    · exact .inl (List.mem_append_left _ hgone)
    · exact .inr (htouched.later h'.registry)
  · -- The guest is there after the first part, and so is what it wrote last.
    rcases h.entries x.schema.name x.key with hsame | htouched | ⟨y, hy, hin, hplace, -⟩
    · have hx' : x.IsIn b' := ⟨h.registry _ _ hx.registered, hx.cached, hsame.trans hx.entry⟩
      exact (h'.complete x hx' hcleanup ⟨hnone, hparted.2⟩).imp_left (List.mem_append_right _)
    · exact .inr (htouched.later h'.registry)
    · obtain ⟨hname, hkey⟩ := Prod.mk.inj hplace
      have hentry := hin.entry
      rw [hname, hkey, hx.entry] at hentry
      have hwriter : x.writer = y.writer := by
        rw [CachedObject.writer, Option.some.inj hentry, CachedObject.writer]
      obtain ⟨-, -, hparted'⟩ := h.follows y hy
      exact absurd (hwriter ▸ hparted'.2) hnone

/-- An entry is changed by one part or by the other, or it is the same. -/
theorem entries_append (h : CleansUp now asked onlooker gone b b') (hb : b.Sound)
    (h' : CleansUp now asked onlooker gone' b' b'') (typeName : String) (key : ObjectKey) :
    b''.cachedAt? typeName key = b.cachedAt? typeName key ∨ Touched asked b'' typeName key ∨
      ∃ x ∈ gone ++ gone', x.IsIn b ∧ x.place = (typeName, key) ∧
        b''.cachedAt? typeName key = none := by
  rcases h.entries typeName key with hsame | htouched | ⟨x, hx, hin, hplace, hnone⟩
  · rcases h'.entries typeName key with hsame' | htouched' | ⟨y, hy, hin, hplace, hnone⟩
    · exact .inl (hsame'.trans hsame)
    · exact .inr (.inl htouched')
    · -- It is the same after the first part, so that the object was there before.
      obtain ⟨rfl, rfl⟩ := Prod.mk.inj hplace
      have hentry := hin.entry
      rw [hsame] at hentry
      exact .inr (.inr ⟨y, List.mem_append_right _ hy, isIn_of_entry hb h.registry hin hentry, rfl,
        hnone⟩)
  · exact .inr (.inl (htouched.later h'.registry))
  · rcases h'.entries typeName key with hsame' | htouched' | ⟨y, -, hin', hplace', -⟩
    · exact .inr (.inr ⟨x, List.mem_append_left _ hx, hin, hplace, hsame'.trans hnone⟩)
    · exact .inr (.inl htouched')
    · obtain ⟨rfl, rfl⟩ := Prod.mk.inj hplace'
      rw [hin'.entry] at hnone
      cases hnone

/-- What two parts clean up, one after the other. The second one is over before anybody else has
come, those who part in it were there before the first one, and it leaves the onlookers in their
groups. -/
theorem trans (h : CleansUp now asked onlooker gone b b') (hb : b.Sound)
    (h' : CleansUp now asked onlooker gone' b' b'') (hleaves : Leaves b' b'')
    (hthere : ∀ x ∈ gone', b.connections.find? x.writer ≠ none)
    (hunmoved : ∀ q, onlooker q → Unmoved q b' b'') :
    CleansUp now asked onlooker (gone ++ gone') b b'' := by
  have hnew := newEvents_append h.events h'.events
  have hperm : ∀ {α : Type} {l l' own own' g g' : List α}, l.Perm (own ++ g) →
      l'.Perm (own' ++ g') → (l ++ l').Perm (own ++ own' ++ (g ++ g')) := by
    intro α l l' own own' g g' hl hl'
    refine (hl.append hl').trans ?_
    rw [List.append_assoc, List.append_assoc]
    exact (List.perm_append_comm_assoc g own' g').append_left own
  refine ⟨fun name s hs => h'.registry name s (h.registry name s hs), h.events.trans h'.events,
    fun q hq => h'.assigned q (h.assigned q hq),
    fun q hq => (h.handed q hq).trans (h'.handed q (h.assigned q hq)), fun x hx => ?_,
    h.once_append h', fun x hx hcleanup hparted => h.complete_append h' hx hcleanup hparted,
    h.entries_append hb h', fun typeName key e he => ?_, ?_, fun q hq => ?_⟩
  · rcases List.mem_append.1 hx with hx | hx
    · obtain ⟨hheld, hcleanup, hparted⟩ := h.follows x hx
      exact ⟨hheld.later h.events h'.events, hcleanup, hparted.later hleaves⟩
    · obtain ⟨hheld, hcleanup, hparted⟩ := h'.follows x hx
      exact ⟨hheld.earlier (h.held hb) h.events h'.events, hcleanup, hthere x hx, hparted.2⟩
  · rw [hnew]
    rcases h'.written typeName key e he with hold | ⟨event, hmem, htold⟩
    · refine (h.written typeName key e hold).imp_right ?_
      rintro ⟨event, hmem, htold⟩
      exact ⟨event, List.mem_append_left _ hmem, htold⟩
    · exact .inr ⟨event, List.mem_append_right _ hmem, htold⟩
  · obtain ⟨own, htold, hown⟩ := h.told
    obtain ⟨own', htold', hown'⟩ := h'.told
    refine ⟨own ++ own', ?_, fun event hevent => ?_⟩
    · rw [removalsTold, hnew, List.filter_append, List.map_append]
      exact hperm htold htold'
    · rcases List.mem_append.1 hevent with hevent | hevent
      · obtain ⟨e, p, heq, hp, hof, htells⟩ := hown event hevent
        exact ⟨e, p, heq, hp, hof.mono h'.registry, htells⟩
      · exact hown' event hevent
  · have hq' : b'.Assigned q := h.assigned q hq
    obtain ⟨own, handed, hframes, hown, hsub, hall⟩ := h.frames q hq
    obtain ⟨own', handed', hframes', hown', hsub', hall'⟩ := h'.frames q hq'
    refine ⟨own ++ own', handed ++ handed', ?_, fun t ht => ?_, hsub.append hsub',
      fun honlooker => ?_⟩
    · rw [removalsTo, newFrames_append (h.handed q hq) (h'.handed q hq'), List.filter_append,
        List.map_append]
      exact hperm hframes hframes'
    · rcases List.mem_append.1 ht with ht | ht
      · obtain ⟨p, hp, hof, heq⟩ := hown t ht
        exact ⟨p, hp, hof.mono h'.registry, heq⟩
      · exact hown' t ht
    · obtain ⟨hmembers, hconnected⟩ := hall honlooker
      obtain ⟨hmembers', hconnected'⟩ := hall' honlooker
      obtain ⟨hgroups, hbefore⟩ := hunmoved q honlooker
      simp only [List.filter_append, hgroups] at hmembers' hconnected' ⊢
      refine ⟨hmembers.append hmembers', fun hend => ?_⟩
      rw [hconnected (hbefore hend), hconnected' hend]

end CleansUp

/-! ## Onlookers -/

/-- A guest that does not change its state or its memberships by the call itself. -/
theorem Step.unmoved (h : Step call now b b') (hcall : call.rearranges = false)
    (hq : ∀ t, call ≠ .receive q t) : Unmoved q b b' where
  groups group := by
    cases h with
    | @join peer t name hreceive =>
      have hne : q ≠ peer := fun heq => hq t (heq ▸ hreceive)
      simp [GroupTable.hasMember_join, hne]
    | @leave peer t name hreceive =>
      have hne : q ≠ peer := fun heq => hq t (heq ▸ hreceive)
      simp [GroupTable.hasMember_leave, hne]
    | forgetClosed hsweep =>
      rcases hsweep with rfl | rfl <;> cases hcall
    | publish => rw [groups_dispatch]
    | dispatch => rw [groups_dispatch]
    | replay _ _ _ _ hc => rw [value_replayTo _ _ _ hc]; rfl
    | accept | hear | act | forward | learn | learnEnum | announce | subscribe | unsubscribe => rfl
  connected := by
    rintro ⟨c', hc', hconnected⟩
    rcases h.connection q with ⟨channel, rfl, -⟩ | hrel
    · cases hcall
    · obtain ⟨c, hc, -, hsettles⟩ := exists_before_of_rel hrel hc'
      rcases hsettles hq with ⟨hstate, -⟩ | ⟨-, hclosed⟩
      · exact ⟨c, hc, hstate.symm.trans hconnected⟩
      · rw [hconnected] at hclosed
        cases hclosed

theorem Steps.unmoved (h : Steps call now b b') (hcall : call.rearranges = false)
    (hq : ∀ t, call ≠ .receive q t) : Unmoved q b b' :=
  Steps.induction (I := Unmoved q b) (fun hI hstep => hI.trans (hstep.unmoved hcall hq))
    (.refl q b) h

theorem unmoved_setAside (b : Broker) (peer q : PeerId) : Unmoved q b (b.setAside peer) where
  groups group := by rw [groups_setAside]
  connected := by
    rintro ⟨c, hc, hconnected⟩
    rw [find?_setAside] at hc
    split at hc
    · cases hc
    · exact ⟨c, hc, hconnected⟩

/-- Processing a change of state moves no guest. -/
theorem unmoved_onTransition (b : Broker) (peer : PeerId) (t : Transition) (now : Instant)
    (q : PeerId) : Unmoved q b (b.onTransition peer t now).value := by
  have hsteps : Unmoved q (if t.closes then b.setAside peer else b)
      (b.onTransition peer t now).value :=
    (steps_departed (.clearCache []) b peer t now).unmoved rfl (by simp)
  refine .trans ?_ hsteps
  split
  · exact unmoved_setAside b peer q
  · exact .refl q b

theorem unmoved_takePending (b : Broker) (q : PeerId) : Unmoved q b b.takePending where
  groups _ := rfl
  connected := by
    rintro ⟨c', hc', hconnected⟩
    rw [find?_takePending, Option.map_eq_some_iff] at hc'
    obtain ⟨c, hc, rfl⟩ := hc'
    exact ⟨c, hc, hconnected⟩

/-- Draining moves no guest. -/
theorem unmoved_drain (b : Broker) (now : Instant) (q : PeerId) :
    Unmoved q b (b.drain now).value :=
  drain_induction (I := fun _ s => Unmoved q b s) (fun s hI => hI.trans (unmoved_takePending s q))
    (fun s x _ hI => hI.trans (unmoved_onTransition s x.1 x.2 now q)) (.refl q b)

/-! ## Parts in which nobody parts -/

theorem Sends.handed {allowed : PeerId → Transmission → Prop} (h : Sends allowed b b')
    (hafter : b'.Assigned q) : b.framesTo q <+: b'.framesTo q := by
  obtain ⟨channel', hchannel'⟩ := Option.ne_none_iff_exists'.1 hafter
  obtain ⟨channel, hchannel, frames, hsent, -⟩ := h q channel' hchannel'
  rw [framesTo, framesTo, hchannel, hchannel', Option.map_some, Option.map_some, Option.getD_some,
    Option.getD_some, hsent]
  exact List.prefix_append _ _

/-- While nobody parts, nothing is gone with anybody. -/
theorem Effects.cleansUp (h : Effects asked sent b b')
    (hsent : ∀ q t, sent q t → RemovesNothing q t)
    (hassigned : ∀ q, b.Assigned q → b'.Assigned q) (hstays : ∀ q, ¬Parted q b b') :
    CleansUp now asked onlooker [] b b' := by
  refine ⟨h.registry, h.events, hassigned, fun q hq => h.frames.handed (hassigned q hq),
    List.forall_mem_nil _, List.nodup_nil, fun x _ _ hparted => absurd hparted (hstays _),
    fun typeName key => (h.entries typeName key).imp_right .inl, h.written, ?_, fun q _ => ?_⟩
  · refine ⟨b.removalsTold b', by simp, fun event hevent => ?_⟩
    obtain ⟨hnew, hremoves⟩ := List.mem_filter.1 hevent
    cases event with
    | object e =>
      obtain ⟨p, hp, hof, htells⟩ := h.told e hnew
      exact ⟨e, p, rfl, hp, hof, htells⟩
    | peerState | typeAnnounced => cases hremoves
  · refine ⟨b.removalsTo b' q, [], by simp, fun t ht => ?_, List.Sublist.refl [],
      fun _ => ⟨List.Sublist.refl [], fun _ => rfl⟩⟩
    obtain ⟨hnew, hremoves⟩ := List.mem_filter.1 ht
    rcases h.frames.of_mem_newFrames hnew with hother | hpassed
    · exact absurd (hsent q t hother) (by simp [RemovesNothing, hremoves])
    · exact hpassed

/-- So it is after steps. -/
theorem Effects.cleansUp_of_steps (h : Effects asked sent b b')
    (hsent : ∀ q t, sent q t → RemovesNothing q t) (hsteps : Steps call now b b') :
    CleansUp now asked onlooker [] b b' :=
  h.cleansUp hsent (fun _ hq => hsteps.assigned hq) fun _ => hsteps.not_parted

/-- Where nothing changes for those who are there, nothing is gone. -/
theorem CleansUp.of_untouched (hregistry : b'.registry = b.registry)
    (hevents : b'.events = b.events)
    (hentries : ∀ typeName key, b'.cachedAt? typeName key = b.cachedAt? typeName key)
    (hchannel : ∀ q, b.Assigned q → b'.channel? q = b.channel? q)
    (hstays : ∀ q, ¬Parted q b b') : CleansUp now asked onlooker [] b b' := by
  have hnew : b.newEvents b' = [] := newEvents_of_append (by rw [hevents, List.append_nil])
  have hframes : ∀ q, b.Assigned q → b'.framesTo q = b.framesTo q := by
    intro q hq
    rw [framesTo, framesTo, hchannel q hq]
  refine ⟨fun _ _ hs => hregistry ▸ hs, hevents ▸ List.prefix_refl _, fun q hq => ?_,
    fun q hq => ⟨[], by rw [hframes q hq, List.append_nil]⟩, List.forall_mem_nil _, List.nodup_nil,
    fun x _ _ hparted => absurd hparted (hstays _),
    fun typeName key => .inl (hentries typeName key),
    fun typeName key e he => .inl (hentries typeName key ▸ he), ⟨[], ?_, List.forall_mem_nil _⟩,
    fun q hq => ⟨[], [], ?_, List.forall_mem_nil _, List.Sublist.refl [],
      fun _ => ⟨List.Sublist.refl [], fun _ => rfl⟩⟩⟩
  · rwa [Assigned, hchannel q hq]
  · rw [removalsTold, hnew]
    exact .refl []
  · rw [removalsTo, newFrames_of_append ((hframes q hq).trans (List.append_nil _).symm)]
    exact .refl []

theorem CleansUp.refl (now : Instant) (asked : Passage → Prop) (onlooker : PeerId → Prop)
    (b : Broker) : CleansUp now asked onlooker [] b b :=
  .of_untouched rfl rfl (fun _ _ => rfl) (fun _ _ => rfl) fun _ hparted => hparted.1 hparted.2

/-! ## The departure of a guest -/

/-- What others are handed when the connection of a guest has closed: removals of what goes with the
guest, as far as they are in the group, and all of these if they are connected afterwards. -/
theorem Tidy.framesTo_onClosed (hb : b.Tidy) (peer : PeerId) (now : Instant) (q : PeerId) :
    ∃ handed, (b.onClosed peer now).value.framesTo q =
        b.framesTo q ++ handed.map (·.removalFrame now) ∧
      handed.Sublist ((b.orphans peer).filter fun x => b.groups.hasMember x.schema.name q) ∧
      ((b.onClosed peer now).value.Connected q →
        handed = (b.orphans peer).filter fun x => b.groups.hasMember x.schema.name q) := by
  have hdeparture := hb.departure peer now
  cases hc : (b.setAside peer).connections.find? q with
  | none =>
    -- Nobody is handed anything who is not in the table, not even the guest itself.
    have hsteps : Steps (.clearCache []) now (b.setAside peer) (b.onClosed peer now).value :=
      onClosed_steps b peer
    have hserves := serves_of_steps hsteps q
    refine ⟨[], ?_, List.nil_sublist _, ?_⟩
    · rw [framesTo, hserves.channel?_of_gone hc, channel?_setAside, framesTo, List.map_nil,
        List.append_nil]
    · rintro ⟨c', hc', -⟩
      rw [hserves.find?_eq_none_iff.2 hc] at hc'
      cases hc'
  | some c =>
    rw [find?_setAside] at hc
    split at hc
    · cases hc
    · rename_i hq
      obtain ⟨c', frames, hc', hsent, hframes, hall, hsame⟩ := hdeparture.frames q hq c hc
      obtain ⟨handed, hmembers, rfl⟩ := List.prefix_map_iff.1 hframes
      refine ⟨handed, ?_, hmembers.sublist, ?_⟩
      · rw [framesTo, channel?_of_open hc', framesTo, channel?_of_open hc]
        exact hsent
      · rintro ⟨d, hd, hconnected⟩
        obtain rfl := Option.some.inj (hc'.symm.trans hd)
        have hbefore : c.state = .connected := by
          by_contra hother
          rw [hsame hother] at hconnected
          exact hother hconnected
        -- A prefix that is as long as the whole is the whole.
        have hlength := congrArg List.length
          (hall hbefore (by simp [Connection.isClosed, hconnected]))
        rw [List.length_map, List.length_map] at hlength
        exact hmembers.eq_of_length hlength

/-- Whatever is cached of a type that asks for clean-up was written last by the host or by a guest
that is there. -/
theorem Tidy.writer (hb : b.Tidy) (hx : x.IsIn b) (hcleanup : x.schema.flags.cleanup = true) :
    x.writer = hostId ∨ b.connections.find? x.writer ≠ none := by
  have hlisted : x.schema.name ∈ b.cleanupTypes :=
    (hb.listed.2 _).2 ⟨x.schema, hx.registered, hx.cached, hcleanup⟩
  refine (hb.owned _ _ _ hlisted hx.entry).imp_right ?_
  rintro ⟨c, hc⟩
  rw [CachedObject.writer, hc]
  exact Option.some_ne_none c

/-- What goes with a guest was cached, and the guest was there, unless it has the number of the
host. -/
theorem Tidy.of_mem_orphans (hb : b.Tidy) (hx : x ∈ b.orphans peer) (hpeer : peer ≠ hostId) :
    x.IsIn b ∧ x.schema.flags.cleanup = true ∧ x.writer = peer ∧
      b.connections.find? peer ≠ none := by
  obtain ⟨hin, hcleanup, rfl⟩ := ((hb.departure peer default).exactly x).1 hx
  exact ⟨hin, hcleanup, rfl, (hb.writer hin hcleanup).resolve_left hpeer⟩

/-- What is gone with a guest when its connection has closed. -/
theorem Tidy.cleansUp_onClosed (hb : b.Tidy) (hpeer : peer ≠ hostId) (now : Instant) :
    CleansUp now asked onlooker (b.orphans peer) b (b.onClosed peer now).value := by
  have hdeparture := hb.departure peer now
  have hretracts := retracts_onClosed hb.sound hb.listed.1 peer now
  have hgroups : (b.onClosed peer now).value.groups = b.groups := by
    rw [hretracts.groups, groups_setAside]
  have hremoval : ∀ event ∈ (b.orphans peer).map fun x => BrokerEvent.object (x.removal now),
      event.removes = true := by
    intro event hevent
    obtain ⟨x, -, rfl⟩ := List.mem_map.1 hevent
    rfl
  refine ⟨fun name s hs => ?_, ⟨_, hdeparture.events.symm⟩, fun q hq => ?_, fun q _ => ?_,
    fun x hx => ?_, ?_, fun x hx hcleanup hparted => .inl ?_, fun typeName key => ?_,
    fun typeName key e he => .inl ?_, ⟨[], ?_, List.forall_mem_nil _⟩, fun q _ => ?_⟩
  · rwa [hretracts.registry, registry_setAside]
  · have hsteps : Steps (.clearCache []) now (b.setAside peer) (b.onClosed peer now).value :=
      onClosed_steps b peer
    exact hsteps.assigned ((assigned_setAside peer).2 hq)
  · obtain ⟨handed, hframes, -⟩ := hb.framesTo_onClosed peer now q
    exact ⟨_, hframes.symm⟩
  · obtain ⟨hin, hcleanup, rfl, hthere⟩ := hb.of_mem_orphans hx hpeer
    exact ⟨.inl hin, hcleanup, hthere, hdeparture.gone⟩
  · refine List.Nodup.of_map Prod.fst ?_
    rw [List.map_map]
    exact hdeparture.once
  · -- Nobody else leaves the table.
    refine (hdeparture.exactly x).2 ⟨hx, hcleanup, ?_⟩
    by_contra hother
    obtain ⟨c, hc⟩ := Option.ne_none_iff_exists'.1 hparted.1
    obtain ⟨c', frames, hc', -⟩ := hdeparture.frames _ hother c hc
    cases hparted.2.symm.trans hc'
  · rw [hdeparture.entries]
    split
    · rename_i hplace
      obtain ⟨x, hx, heq⟩ := List.mem_map.1 hplace
      obtain ⟨hin, -⟩ := hb.of_mem_orphans hx hpeer
      exact .inr (.inr ⟨x, hx, hin, heq, rfl⟩)
    · exact .inl rfl
  · rw [hdeparture.entries] at he
    split at he
    · cases he
    · exact he
  · rw [removalsTold, newEvents_of_append hdeparture.events, List.filter_eq_self.2 hremoval,
      List.nil_append]
  · obtain ⟨handed, hframes, hmembers, hall⟩ := hb.framesTo_onClosed peer now q
    refine ⟨[], handed, ?_, List.forall_mem_nil _, hmembers.trans List.filter_sublist,
      fun _ => ⟨hgroups ▸ hmembers, hgroups ▸ hall⟩⟩
    rw [removalsTo, newFrames_of_append hframes, List.nil_append, List.filter_eq_self.2]
    intro t ht
    obtain ⟨x, -, rfl⟩ := List.mem_map.1 ht
    rfl

/-! ## Draining -/

/-- What is gone before observers are told of a change of state. -/
theorem Tidy.cleansUp_leftBy (hb : b.Tidy) (hpeer : peer ≠ hostId) (t : Transition)
    (now : Instant) :
    CleansUp now asked onlooker (if t.closes then b.orphans peer else []) b
      (b.leftBy peer t now) := by
  unfold leftBy
  by_cases hcloses : t.closes = true
  · rw [if_pos hcloses, if_pos hcloses]
    exact hb.cleansUp_onClosed hpeer now
  · rw [if_neg hcloses, if_neg hcloses]
    exact .refl now asked onlooker b

/-- While nothing is given to the host, it writes on its own account only, so that what a guest
wrote last was there before. -/
theorem Does.isIn_of_guest (h : Does now cleared (fun _ => False) sent m b) (hm : m.Sound)
    (hx : x.IsIn b) (hguest : x.writer ≠ hostId) : x.IsIn m := by
  rcases h.held hm hx with hin | ⟨event, hevent, -, -, hprovenance⟩
  · exact hin
  · obtain ⟨p, hgiven | hdeed, -, htells⟩ := h.told event hevent
    · exact hgiven.elim
    · refine absurd ?_ hguest
      rw [CachedObject.writer, ← hprovenance, htells.writer, Header.origin, hdeed.sender.1]
      rfl

/-- Processing a change of state of a guest that was there at the start. -/
theorem CleansUp.onTransition (h : CleansUp now (Recording now m b) onlooker gone m b)
    (hm : m.Sound) (hb : b.Tidy) (hdoes : Does now cleared (fun _ => False) sent m b)
    (hhost : m.connections.find? hostId = none) (hpeer : m.connections.find? peer ≠ none)
    (t : Transition) :
    ∃ gone', CleansUp now (Recording now m (b.onTransition peer t now).value) onlooker
        (gone ++ gone') m (b.onTransition peer t now).value ∧ ∀ x ∈ gone', x.IsIn m := by
  have hguest : peer ≠ hostId := by
    rintro rfl
    exact hpeer hhost
  obtain ⟨hleaves, -⟩ := leaves_onTransition b peer t now
  obtain ⟨name, hnew, hrecorded⟩ := effects_recorded hb peer t now
  have hsteps : Steps (.clearCache []) now (b.leftBy peer t now)
      (b.onTransition peer t now).value :=
    steps_onTransition b peer t
  have hleft : ∀ asked, CleansUp now asked onlooker (if t.closes then b.orphans peer else []) b
      (b.leftBy peer t now) := fun _ => hb.cleansUp_leftBy hguest t now
  have hrest := hrecorded (fun _ => True) RemovesNothing fun _ => trivial
  have hevents := (hleft fun _ => True).events.trans hrest.events
  have hevent : .peerState peer name t.state t.cause ∈
      m.newEvents (b.onTransition peer t now).value := by
    rw [newEvents_append h.events hevents,
      newEvents_append (hleft fun _ => True).events hrest.events]
    exact List.mem_append_right _ (List.mem_append_right _ hnew)
  have hrecord : CleansUp now (Recording now m (b.onTransition peer t now).value) onlooker []
      (b.leftBy peer t now) (b.onTransition peer t now).value :=
    (hrecorded _ RemovesNothing fun schema => .record hevent hpeer).cleansUp_of_steps
      (fun _ _ => id) hsteps
  have hsecond := (hleft _).trans hb.sound hrecord (hsteps.leaves (by simp)) (List.forall_mem_nil _)
    fun q _ => hsteps.unmoved rfl (by simp)
  have hfirst := h.mono (fun p hp => hp.within (within_left h.events hevents hleaves))
    fun q hq => hq
  refine ⟨_, hfirst.trans hm hsecond hleaves (fun x hx => ?_)
    fun q _ => unmoved_onTransition b peer t now q, fun x hx => ?_⟩
  · obtain ⟨-, -, hparted⟩ := hsecond.follows x hx
    exact (hparted.earlier hdoes.leaves).1
  · rw [List.append_nil] at hx
    split at hx
    · obtain ⟨hin, -, rfl, -⟩ := hb.of_mem_orphans hx hguest
      exact hdoes.isIn_of_guest hm hin hguest
    · cases hx

/-- What a drain cleans up was there before. Besides, only the records of peers are written, and no
removal is passed on. -/
theorem Tidy.cleansUp_drain (hm : m.Tidy) (hq : m.Queued [])
    (hhost : m.connections.find? hostId = none) (now : Instant) (onlooker : PeerId → Prop) :
    ∃ gone, CleansUp now (Recording now m (m.drain now).value) onlooker gone m (m.drain now).value ∧
      ∀ x ∈ gone, x.IsIn m := by
  let Cleaned (s : Broker) : Prop :=
    ∃ gone, CleansUp now (Recording now m s) onlooker gone m s ∧ ∀ x ∈ gone, x.IsIn m
  have hstart : Cleaned m := ⟨[], .refl now _ onlooker m, List.forall_mem_nil _⟩
  suffices hall : Does now (fun _ => False) (fun _ => False) (fun _ _ => True) m
      (m.drain now).value ∧ Cleaned (m.drain now).value from hall.2
  refine does_drain_induction hm hq ?_ ?_ hstart
  · rintro s ⟨gone, hgone, hin⟩
    have htake : ∀ asked, CleansUp now asked onlooker [] s s.takePending := by
      refine fun asked => .of_untouched rfl rfl (fun _ _ => rfl)
        (fun q _ => channel?_takePending s q) ?_
      rintro q ⟨hthere, hnone⟩
      rw [find?_takePending, Option.map_eq_none_iff] at hnone
      exact hthere hnone
    have hwithin : Within m s m s.takePending :=
      within_left hgone.events (htake fun _ => True).events (leaves_takePending s)
    have hbefore := hgone.mono (fun p hp => Recording.within hp hwithin) fun q hq => hq
    have hboth := hbefore.trans hm.sound (htake _) (leaves_takePending s) (List.forall_mem_nil _)
      fun q _ => unmoved_takePending s q
    rw [List.append_nil] at hboth
    exact ⟨gone, hboth, hin⟩
  · rintro s peer t hs hdoes hpeer ⟨gone, hgone, hin⟩
    obtain ⟨gone', hboth, hin'⟩ := hgone.onTransition hm.sound hs hdoes hhost hpeer t
    exact ⟨gone ++ gone', hboth, List.forall_mem_append.2 ⟨hin, hin'⟩⟩

/-- What goes when a broker drains: exactly the objects whose last writers part meanwhile, each with
one event and with one frame for every connected member of its group. -/
structure Tidies (now : Instant) (gone : List CachedObject) (before after : Broker) : Prop where
  /-- Nothing goes twice. -/
  once : (gone.map (·.place)).Nodup
  /-- What goes was cached, its type asks for clean-up, and the guest that wrote it last parts. -/
  follows : ∀ x ∈ gone, x.IsIn before ∧ x.schema.flags.cleanup = true ∧
    Parted x.writer before after
  /-- All of that goes, of all types but that of the records, which the host writes anew. -/
  complete : ∀ x, x.IsIn before → x.schema.flags.cleanup = true → Parted x.writer before after →
    x.schema.name = peerStateType ∨ x ∈ gone
  /-- It is cached no more, and everything else is as it was, apart from the records. -/
  entries : ∀ typeName key, typeName = peerStateType ∨ after.cachedAt? typeName key =
    if (typeName, key) ∈ gone.map (·.place) then none else before.cachedAt? typeName key
  /-- Observers are told of one removal for each object that goes, and of no others. -/
  told : (before.removalsTold after).Perm (gone.map fun x => .object (x.removal now))
  /-- A guest is handed no other removals than those of objects in its groups, each at most once,
  and all of them if it is connected in the end. -/
  frames : ∀ q, before.Assigned q → ∃ handed,
    (before.removalsTo after q).Perm (handed.map (·.removalFrame now)) ∧
    handed.Sublist (gone.filter fun x => after.groups.hasMember x.schema.name q) ∧
    (after.Connected q → handed = gone.filter fun x => after.groups.hasMember x.schema.name q)

/-- A record that is passed on is no removal, and it is of the type of records. -/
theorem Recording.spec {p : Passage} (h : Recording now b b' p) :
    p.header.remove = false ∧ p.object.typeName = peerStateType := by
  cases h
  exact ⟨rfl, rfl⟩

/-- Records have their places under their own type. -/
theorem Touched.of_recording (h : Touched (Recording now b b') s typeName key) :
    typeName = peerStateType := by
  obtain ⟨p, hp, hof, rfl, -⟩ := h
  exact hof.typeName_object.symm.trans hp.spec.2

/-- There is one object in one place. -/
theorem eq_of_place {y : CachedObject} (hx : x.IsIn b) (hy : y.IsIn b)
    (hplace : x.place = y.place) : x = y := by
  obtain ⟨schema, key, e⟩ := x
  obtain ⟨schema', key', e'⟩ := y
  obtain ⟨hname, rfl⟩ := Prod.mk.inj hplace
  have hregistered := hx.registered
  have hentry := hx.entry
  simp only at hname hregistered hentry
  rw [hname] at hregistered hentry
  obtain rfl : schema' = schema := Option.some.inj (hy.registered.symm.trans hregistered)
  obtain rfl : e' = e := Option.some.inj (hy.entry.symm.trans hentry)
  rfl

/-- That is what goes when a tidy broker drains. -/
theorem Tidy.tidies_drain (hm : m.Tidy) (hq : m.Queued [])
    (hhost : m.connections.find? hostId = none) (now : Instant) :
    ∃ gone, Tidies now gone m (m.drain now).value := by
  obtain ⟨gone, h, hin⟩ := hm.cleansUp_drain hq hhost now fun _ => True
  have hmoves : Moves .sweep now m (m.drain now).value := drain_moves hq
  have htidy : (m.drain now).value.Tidy := hm.moves hmoves
  refine ⟨gone, ?_, fun x hx => ⟨hin x hx, (h.follows x hx).2⟩, fun x hx hcleanup hparted => ?_,
    fun typeName key => ?_, ?_, fun q hq => ?_⟩
  · -- What is in one place has one writer.
    exact List.Nodup.map_on (fun x hx y hy => eq_of_place (hin x hx) (hin y hy)) h.once.of_map
  · exact (h.complete x hx hcleanup hparted).symm.imp_left Touched.of_recording
  · rcases h.entries typeName key with hsame | htouched | ⟨x, hx, -, hplace, hnone⟩
    · refine .inr ?_
      split
      · -- It would have no writer any more.
        rename_i hmem
        obtain ⟨x, hx, heq⟩ := List.mem_map.1 hmem
        obtain ⟨rfl, rfl⟩ := Prod.mk.inj heq
        obtain ⟨-, hcleanup, hparted⟩ := h.follows x hx
        have hstill : x.IsIn (m.drain now).value :=
          ⟨h.registry _ _ (hin x hx).registered, (hin x hx).cached, hsame.trans (hin x hx).entry⟩
        rcases htidy.writer hstill hcleanup with hwriter | hthere
        · exact absurd (hwriter ▸ hhost) hparted.1
        · exact absurd hparted.2 hthere
      · exact hsame
    · exact .inl htouched.of_recording
    · rw [if_pos (List.mem_map.2 ⟨x, hx, hplace⟩)]
      exact .inr hnone
  · obtain ⟨own, hperm, hown⟩ := h.told
    suffices hnone : own = [] by rwa [hnone] at hperm
    refine List.eq_nil_iff_forall_not_mem.2 fun event hevent => ?_
    obtain ⟨e, p, rfl, hrecord, -, htells⟩ := hown event hevent
    obtain ⟨-, hremoves⟩ := List.mem_filter.1 (hperm.mem_iff.2 (List.mem_append_left _ hevent))
    have hremove : p.header.remove = true := htells.removal.1 (of_decide_eq_true hremoves)
    rw [hrecord.spec.1] at hremove
    cases hremove
  · obtain ⟨own, handed, hperm, hown, -, hall⟩ := h.frames q hq
    refine ⟨handed, ?_, hall trivial⟩
    suffices hnone : own = [] by rwa [hnone] at hperm
    refine List.eq_nil_iff_forall_not_mem.2 fun t ht => ?_
    obtain ⟨p, hrecord, -, rfl⟩ := hown t ht
    obtain ⟨-, hremoves⟩ := List.mem_filter.1 (hperm.mem_iff.2 (List.mem_append_left _ ht))
    rw [Passage.removes_frame, hrecord.spec.1] at hremoves
    cases hremoves

end Broker

end ObjectBus
