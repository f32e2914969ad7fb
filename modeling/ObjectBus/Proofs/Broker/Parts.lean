import ObjectBus.Proofs.Broker.Numbers

/-!
# The effects of the parts of a call

What each part of a call passes on and sends, as far as it has nothing to do with changes of
state: the publications of the host, the answers to one guest, and what is done with types and
with the objects of guests.
-/

namespace ObjectBus.Broker

variable {now : Instant} {b b' : Broker} {peer : PeerId} {l : List CachedObject}
variable {passed : Passage → Prop} {sent : PeerId → Transmission → Prop}

/-! ## Publishing as the host -/

/-- Publishing an object as the host, which may fail. -/
theorem effects_publishAsHost (hb : b.Sound) (o : Object) (included : Option PropertySet)
    (remove : Bool) (now : Instant)
    (hpassed : ∀ schema, b.registry.findStruct? o.typeName = some schema →
      passed ⟨schema, hostHeader schema o included remove now, o⟩) :
    Effects passed sent b (b.publishAsHost o included remove now).value.1 := by
  rcases b.publishAsHost_cases o now included remove with ⟨schema, hschema, hvalid, heq⟩ | heq
  · obtain ⟨-, hs⟩ := hb.findStruct?_name hschema
    have hof : Passage.IsOf ⟨schema, hostHeader schema o included remove now, o⟩ b.registry :=
      ⟨hs, rfl, hvalid⟩
    rw [heq]
    exact effects_dispatch hb hof (hpassed schema hschema) now
  · rw [heq]
    exact .refl passed sent b

/-- Publishing the removals of some objects. -/
theorem effects_retract (hb : b.Sound) (objects : List Object) (keys : PropertySet)
    (failure : String) (fields : List (String × NoteValue)) (now : Instant)
    (hpassed : ∀ o ∈ objects, ∀ schema, b.registry.findStruct? o.typeName = some schema →
      passed ⟨schema, hostHeader schema o (some keys) true now, o⟩) :
    Effects passed sent b (b.retract objects keys failure fields now).value := by
  rw [value_retract]
  induction objects generalizing b with
  | nil => exact .refl passed sent b
  | cons o rest ih =>
    have hfirst : Effects passed sent b (b.publishAsHost o (some keys) true now).value.1 :=
      effects_publishAsHost hb o (some keys) true now (hpassed o List.mem_cons_self)
    have hsteps : Steps .sweep now b (b.publishAsHost o (some keys) true now).value.1 :=
      steps_publishAsHost b o (some keys) true
    refine hfirst.trans (ih (Steps.induction Sound.step hb hsteps) fun o' ho' schema hs => ?_)
    rw [registry_publishAsHost] at hs
    exact hpassed o' (List.mem_cons_of_mem _ ho') schema hs

/-- A cached object has the type of its container. -/
theorem Sound.typeName_of_mem_objects (hb : b.Sound) {typeName : String} {c : Container}
    (hc : b.container? typeName = some c) {o : Object} (ho : o ∈ c.objects) :
    o.typeName = typeName := by
  obtain ⟨e, he, rfl⟩ := List.mem_map.1 ho
  obtain ⟨⟨key, e⟩, hmem, rfl⟩ := List.mem_map.1 he
  obtain ⟨hconforms, -⟩ := hb.valid typeName c hc key e (KeyedList.find?_eq_some_iff.2 hmem)
  obtain ⟨hname, -⟩ := hb.findStruct?_name (hb.schemas typeName c hc).1
  exact (StructSchema.validate_eq_ok_iff.1 hconforms).1.trans hname

/-- Removing some cached objects of one type. -/
theorem effects_retract_of_container (hb : b.Sound) {typeName : String} {c : Container}
    (hc : b.container? typeName = some c) {objects : List Object}
    (hobjects : ∀ o ∈ objects, o ∈ c.objects) (failure : String)
    (fields : List (String × NoteValue)) (now : Instant)
    (hpassed : ∀ schema o, b.registry.findStruct? typeName = some schema →
      passed (.removal schema o now)) :
    Effects passed sent b
      (b.retract objects c.schema.keyProperties failure fields now).value := by
  obtain ⟨hschema, -⟩ := hb.schemas typeName c hc
  refine effects_retract hb objects _ failure fields now fun o ho schema hs => ?_
  rw [hb.typeName_of_mem_objects hc (hobjects o ho)] at hs
  obtain rfl : c.schema = schema := Option.some.inj (hschema.symm.trans hs)
  exact hpassed c.schema o hs

/-! ## Retracting cached objects -/

/-- The event of a removal tells of it. -/
theorem tells_removal (x : CachedObject) (now : Instant) :
    (x.removal now).Tells (.removal x.schema x.entry.object now) :=
  ⟨rfl, rfl, rfl, iff_of_true rfl rfl, rfl, fun hcreate => by cases hcreate⟩

/-- Nothing is sent for a retraction but the frames of the removals. -/
theorem Retracts.sends (h : Retracts now l b b')
    (htables : b'.closed = b.closed ∧ b'.released = b.released) :
    b.Sends (fun _ t => ∃ x ∈ l, t = x.removalFrame now) b' := by
  refine sends_of_connections htables.1 htables.2 fun q => ?_
  rw [h.frames]
  refine rel_map (fun c => Connection.sends_offeredAll (fun t ht => ?_) c) _
  obtain ⟨x, hx, rfl⟩ := List.mem_map.1 ht
  exact ⟨x, (List.mem_filter.1 hx).1, rfl⟩

/-- What is passed on in a retraction are the removals of what was cached. -/
theorem Retracts.effects (h : Retracts now l b b') (hb : b.Sound) (hl : ∀ x ∈ l, x.IsIn b)
    (hsteps : Steps (.clearCache []) now b b')
    (hpassed : ∀ x ∈ l, passed (.removal x.schema x.entry.object now)) :
    Effects passed sent b b' := by
  have hof : ∀ x ∈ l, Passage.IsOf (.removal x.schema x.entry.object now) b'.registry := by
    intro x hx
    obtain ⟨-, -, -, -, hvalid, -⟩ := container?_of_isIn hb (hl x hx)
    exact ⟨h.registry ▸ (hl x hx).registered, rfl, hvalid⟩
  refine ⟨fun name s hs => h.registry ▸ hs, ⟨_, h.events.symm⟩, fun e he => ?_,
    (h.sends hsteps.closed).mono fun q t ht => ?_, fun typeName key => ?_,
    fun typeName key e he => .inl ?_⟩
  · rw [newEvents_of_append h.events] at he
    obtain ⟨x, hx, heq⟩ := List.mem_map.1 he
    obtain rfl := BrokerEvent.object.inj heq
    exact ⟨_, hpassed x hx, hof x hx, tells_removal x now⟩
  · obtain ⟨x, hx, rfl⟩ := ht
    exact .inr ⟨_, hpassed x hx, hof x hx, rfl⟩
  · rw [h.entries]
    split
    · rename_i hplace
      obtain ⟨x, hx, heq⟩ := List.mem_map.1 hplace
      obtain ⟨rfl, rfl⟩ := Prod.mk.inj heq
      obtain ⟨-, -, -, -, -, hkey⟩ := container?_of_isIn hb (hl x hx)
      exact .inr ⟨_, hpassed x hx, hof x hx, rfl, hkey⟩
    · exact .inl rfl
  · rw [h.entries] at he
    split at he
    · cases he
    · exact he

/-- Clearing the cache of a type. -/
theorem effects_clearType (hb : b.Sound) (typeName : String) (now : Instant)
    (hpassed : ∀ x ∈ b.cachedOf typeName, passed (.removal x.schema x.entry.object now)) :
    Effects passed sent b (b.clearType typeName now).value := by
  have hin : ∀ x ∈ b.cachedOf typeName, x.IsIn b := fun x hx => ((mem_cachedOf_iff hb).1 hx).1
  rw [value_clearType]
  exact (retracts_afterRemovals hb hin (nodup_cachedOf b typeName) now).effects hb hin
    (steps_afterRemovals _ _ b) hpassed

/-! ## What is done with connections -/

/-- A connection is sent something. -/
theorem effects_putConnection {c c' : Connection} (hc : b.connections.find? peer = some c)
    (hsends : c.channel.Sends (sent peer) c'.channel) :
    Effects passed sent b (b.putConnection peer c') :=
  .of_sends (fun _ _ => id) rfl (fun _ _ => rfl) (sends_putConnection hc hsends)

theorem effects_setAside (b : Broker) (peer : PeerId) :
    Effects passed sent b (b.setAside peer) := by
  refine .of_sends (fun name s hs => ?_) (events_setAside b peer) (fun typeName key => ?_)
    (.of_eq _ (channel?_setAside b peer))
  · rwa [registry_setAside]
  · rw [cachedAt?, container?_setAside, cachedAt?]

theorem effects_takePending (b : Broker) : Effects passed sent b b.takePending :=
  .of_sends (fun _ _ => id) rfl (fun _ _ => rfl) (.of_eq _ (channel?_takePending b))

/-- Telling observers of something other than an object. -/
theorem effects_emit (b : Broker) {e : BrokerEvent} (he : ∀ event, e ≠ .object event) :
    Effects passed sent b (b.emit e) := by
  have hnew : b.newEvents (b.emit e) = [e] := newEvents_of_append rfl
  refine ⟨fun _ _ => id, ⟨[e], rfl⟩, fun event hmem => ?_, .of_eq _ fun _ => rfl,
    fun _ _ => .inl rfl, fun _ _ _ => .inl⟩
  rw [hnew, List.mem_singleton] at hmem
  exact absurd hmem.symm (he event)

/-- Handing a control message on to a group. -/
theorem effects_forward (b : Broker) (group : String) (t : Transmission)
    (hsent : ∀ q, sent q t) : Effects passed sent b (b.forward group t).value := by
  refine .of_sends (fun _ _ => id) rfl (fun _ _ => rfl) (sends_of_connections rfl rfl fun q => ?_)
  rw [connections_forward, GroupTable.find?_deliver]
  split
  · exact rel_sends_offered (hsent q) _
  · exact rel_refl (fun _ => .refl _ _) _

/-- The notice by which a guest is told of an error. -/
def noticeOf (e : BrokerError) (now : Instant) : Transmission :=
  .ofControl (.notice (if e.isViolation then .violation else .failure) e.message) now

theorem effects_report (b : Broker) (peer : PeerId) (e : BrokerError) (now : Instant)
    (hsent : sent peer (noticeOf e now)) :
    Effects passed sent b (b.report peer e now).value := by
  unfold report
  cases hc : b.connections.find? peer with
  | none => exact .refl passed sent b
  | some c =>
    have hnotice : c.channel.Sends (sent peer) (c.send (noticeOf e now)).value.channel :=
      (c.advances_send hsent).sends
    unfold noticeOf at hnotice
    simp only
    split
    · rename_i hviolation
      rw [if_pos hviolation] at hnotice
      exact effects_putConnection hc hnotice
    · rename_i hviolation
      rw [if_neg hviolation] at hnotice
      -- Closing the connection afterwards sends nothing more.
      refine effects_putConnection hc (hnotice.trans ?_)
      exact (Connection.advances_close (sent peer) _ _).sends

theorem effects_settle (peer : PeerId) (r : Broker × Outcome Unit) (now : Instant)
    (hsent : ∀ e, r.2 = .error e → sent peer (noticeOf e now)) :
    Effects passed sent r.1 (settle peer now r).value := by
  unfold settle
  split
  · exact .refl passed sent r.1
  · rename_i e he
    exact effects_report r.1 peer e now (hsent e he)

theorem effects_confirmImport (b : Broker) (peer : PeerId) (typeName : String) :
    Effects passed sent b (b.confirmImport peer typeName) := by
  unfold confirmImport
  cases hc : b.connections.find? peer with
  | none => exact .refl passed sent b
  | some c =>
    refine effects_putConnection hc ?_
    unfold Connection.rememberImport
    split <;> exact .refl _ _

/-- Answering a guest that asks for type definitions. -/
theorem effects_discover (b : Broker) (peer : PeerId) (whitelist blacklist : List String)
    (now : Instant)
    (hsent : ∀ message ∈ Discovery.reply b.registry whitelist blacklist,
      sent peer (.ofControl message now)) :
    Effects passed sent b (b.discover peer whitelist blacklist now).value.1 := by
  unfold discover
  cases hc : b.connections.find? peer with
  | none => exact .refl passed sent b
  | some c =>
    simp only [Noted.value_bind, Noted.value_foldlM, Noted.value_pure]
    refine effects_putConnection hc ?_
    have hframes : ∀ t ∈ (Discovery.reply b.registry whitelist blacklist).map
        (Transmission.ofControl · now), sent peer t := by
      intro t ht
      obtain ⟨message, hmem, rfl⟩ := List.mem_map.1 ht
      exact hsent message hmem
    have hadvances := c.advances_foldl_send _ hframes
    rw [List.foldl_map] at hadvances
    exact hadvances.sends

/-- Bringing a guest up to date with the cached objects of a type. -/
theorem effects_replayTo (b : Broker) (peer : PeerId) (schema : StructSchema) (now : Instant)
    (hsent : ∀ t ∈ b.replayFrames schema now, sent peer t) :
    Effects passed sent b (b.replayTo peer schema now).value.1 := by
  have htouch : Effects passed sent b { b with
      dispatcher := { b.dispatcher with pool := b.dispatcher.pool.touch schema } } :=
    .of_sends (fun _ _ => id) rfl (cachedAt?_of_touch rfl) (.of_eq _ fun _ => rfl)
  cases hc : b.connections.find? peer with
  | none =>
    unfold replayTo
    simp only [hc]
    exact htouch
  | some c =>
    rw [value_replayTo _ _ _ hc]
    exact htouch.trans
      (effects_putConnection hc (Connection.advances_foldl_send _ c hsent).sends)

/-- Changing a membership, with the replay that joining may bring. -/
theorem effects_changeMembership (b : Broker) (peer : PeerId) (group : String)
    (event : MemberEvent) (now : Instant)
    (hsent : ∀ schema, event = .join → b.registry.findStruct? group = some schema →
      ∀ t ∈ b.replayFrames schema now, sent peer t) :
    Effects passed sent b (b.changeMembership peer group event now).value.1 := by
  have hgroups : ∀ groups : GroupTable, Effects passed sent b { b with groups := groups } :=
    fun groups => .of_sends (fun _ _ => id) rfl (fun _ _ => rfl) (.of_eq _ fun _ => rfl)
  unfold changeMembership
  cases event with
  | join =>
    simp only [Noted.value_bind]
    cases hschema : b.registry.findStruct? group with
    | none => exact hgroups _
    | some schema =>
      simp only
      split
      · exact (hgroups _).trans (effects_replayTo _ peer schema now (hsent schema rfl hschema))
      · exact hgroups _
  | leave => exact hgroups _
  | kill => exact .refl passed sent b

/-! ## What is done with types and objects -/

theorem effects_registerEnum (b : Broker) (schema : EnumSchema) :
    Effects passed sent b (b.registerEnum schema).value.1 := by
  have hlearn : Effects passed sent b { b with registry := b.registry.addEnum schema } :=
    .of_sends (fun _ _ => id) rfl (fun _ _ => rfl) (.of_eq _ fun _ => rfl)
  unfold registerEnum
  cases hregister : b.registry.registerEnum schema with
  | error e => exact .refl passed sent b
  | ok r =>
    obtain ⟨registry, outcome⟩ := r
    obtain ⟨rfl, -⟩ | ⟨rfl, rfl⟩ := Registry.registerEnum_cases hregister
    · exact .refl passed sent b
    · exact hlearn

/-- The broker after a new type has been given its number and observers have been told. -/
def adopted (b : Broker) (schema : StructSchema) : Broker :=
  ({ b with registry := b.registry.addStruct schema }.adoptType schema).emit
    (.typeAnnounced b.nextTypeId schema.name)

theorem sound_adopted (hb : b.Sound) {schema : StructSchema}
    (hcheck : schema.checkDefinition = .ok ())
    (hnew : b.registry.findStruct? schema.name = none) : (b.adopted schema).Sound := by
  have hsteps : Steps .sweep default b (b.adopted schema) :=
    .tail (.single (.learn hcheck hnew)) (.announce (by simp))
  exact Steps.induction Sound.step hb hsteps

/-- Making a newly registered type known: observers are told of it, and nothing is passed on but
its announcement. -/
theorem effects_onNewType (hb : b.Sound) {schema : StructSchema}
    (hcheck : schema.checkDefinition = .ok ())
    (hnew : b.registry.findStruct? schema.name = none) (now : Instant) :
    .typeAnnounced b.nextTypeId schema.name ∈ b.newEvents
      (onNewType { b with registry := b.registry.addStruct schema } schema now).value ∧
    ∀ (passed : Passage → Prop) (sent : PeerId → Transmission → Prop),
      (∀ s, passed (.publication s (TypeAnnounce.record b.nextTypeId schema) now)) →
        Effects passed sent b
          (onNewType { b with registry := b.registry.addStruct schema } schema now).value := by
  have hadopt : ∀ (passed : Passage → Prop) (sent : PeerId → Transmission → Prop),
      Effects passed sent b
        ({ b with registry := b.registry.addStruct schema }.adoptType schema) := by
    intro passed sent
    refine .of_sends (fun name s hs => ?_) rfl (fun typeName key => ?_) (.of_eq _ fun _ => rfl)
    · have hne : name ≠ schema.name := by
        rintro rfl
        rw [hnew] at hs
        cases hs
      simpa [adoptType, hne] using hs
    · exact cachedAt?_adoptType _ schema typeName key
  have htell : ∀ (passed : Passage → Prop) (sent : PeerId → Transmission → Prop),
      Effects passed sent b (b.adopted schema) :=
    fun passed sent => (hadopt passed sent).trans (effects_emit _ (by simp))
  have hsound : (b.adopted schema).Sound := sound_adopted hb hcheck hnew
  have hpublish : ∀ (passed : Passage → Prop) (sent : PeerId → Transmission → Prop),
      (∀ s, passed (.publication s (TypeAnnounce.record b.nextTypeId schema) now)) →
        Effects passed sent (b.adopted schema)
          (onNewType { b with registry := b.registry.addStruct schema } schema now).value := by
    intro passed sent hpassed
    unfold onNewType
    simp only [Noted.value_bind, value_publishOrNote]
    exact effects_publishAsHost hsound _ none false now fun s _ => hpassed s
  refine ⟨?_, fun passed sent hpassed => (htell passed sent).trans (hpublish passed sent hpassed)⟩
  -- The event is the first of those that are new.
  have hevents : (b.adopted schema).events =
    b.events ++ [.typeAnnounced b.nextTypeId schema.name] := rfl
  have hlater := hpublish (fun _ => True) (fun _ _ => True) fun _ => trivial
  rw [newEvents_append (htell (fun _ => True) fun _ _ => True).events hlater.events,
    newEvents_of_append hevents]
  exact List.mem_append_left _ (List.mem_singleton_self _)

/-- Checking an object from a guest, and passing it on if nothing is wrong with it. -/
theorem effects_acceptObject (hb : b.Sound) (h : Header) (o : Object) (now : Instant)
    (hpassed : ∀ schema, b.registry.findStruct? h.typeName = some schema →
      h.isControl = schema.flags.internal → schema.validate o = .ok () →
        passed ⟨schema, { h with attributes := acceptedAttributes schema h o }, o⟩) :
    Effects passed sent b (b.acceptObject h o now).value.1 := by
  unfold acceptObject Registry.resolve
  cases hschema : b.registry.findStruct? h.typeName with
  | none => exact .refl passed sent b
  | some schema =>
    simp only
    split
    · exact .refl passed sent b
    · rename_i hspace
      split
      · exact .refl passed sent b
      · rename_i hvalid
        obtain ⟨hname, hs⟩ := hb.findStruct?_name hschema
        have hof : Passage.IsOf
            ⟨schema, { h with attributes := acceptedAttributes schema h o }, o⟩ b.registry :=
          ⟨hs, hname.symm, hvalid⟩
        exact effects_dispatch hb hof (hpassed schema hschema (not_not.1 hspace) hvalid) now

end ObjectBus.Broker
