import ObjectBus.Proofs.Broker.Publish

/-!
# Who is told of what

A dispatcher is used through three calls: an object is applied, and subscriptions begin and end.
Whatever the calls are, a subscription is told of what happens to the objects of its type, once and
in order, from its beginning to its end, and of nothing else.

* `DispatcherCall`, `Dispatcher.perform`, `Dispatcher.after`: the calls and what they lead to;
* `Dispatcher.heard`: what a subscription has been told;
* `Dispatcher.eventsOf`: what some calls answer;
* `Dispatcher.ListensTo`: the type that a subscription listens to, if it has not ended;
* `Dispatcher.ListensTo.after`: what it is told of meanwhile.
-/

namespace ObjectBus

/-! ## Calls -/

/-- One call on a dispatcher. -/
inductive DispatcherCall where
  /-- Apply one object. -/
  | apply (schema : StructSchema) (h : Header) (o : Object) (isFromMyself : Bool)
  /-- Subscribe to a type. -/
  | subscribe (schema : StructSchema)
  /-- End a subscription. -/
  | unsubscribe (id : SubscriptionId)

namespace Dispatcher

/-- The dispatcher after a call, whether the call succeeded or not. -/
def perform (d : Dispatcher) (call : DispatcherCall) (now : Instant) : Dispatcher :=
  match call with
  | .apply schema h o isFromMyself => (d.apply schema h o isFromMyself now).value.1
  | .subscribe schema => (d.subscribe schema now).1
  | .unsubscribe id => (d.unsubscribe id).1

/-- The dispatcher after some calls, each at its own time. -/
def after (d : Dispatcher) (calls : List (DispatcherCall × Instant)) : Dispatcher :=
  calls.foldl (fun d call => d.perform call.1 call.2) d

/-- What happened according to the answer of a call. -/
def event? (d : Dispatcher) (call : DispatcherCall) (now : Instant) : Option ObjectEvent :=
  match call with
  | .apply schema h o isFromMyself =>
    (d.apply schema h o isFromMyself now).value.2.toOption.bind (·.event)
  | .subscribe _ | .unsubscribe _ => none

/-- What happened according to the answers of some calls, in order. -/
def eventsOf (d : Dispatcher) : List (DispatcherCall × Instant) → List ObjectEvent
  | [] => []
  | call :: rest =>
    (d.event? call.1 call.2).toList ++ (d.perform call.1 call.2).eventsOf rest

/-- The subscriptions to a type. -/
def listeners (d : Dispatcher) (typeName : String) : List SubscriptionId :=
  (d.subscribers.find? typeName).getD []

/-- What a subscription has been told, in order. -/
def heard (d : Dispatcher) (id : SubscriptionId) : List ObjectEvent :=
  (d.told.filter fun x => decide (x.1 = id)).map (·.2)

variable {d d' : Dispatcher} {call : DispatcherCall} {now : Instant} {id : SubscriptionId}
variable {typeName : String} {told : List (SubscriptionId × ObjectEvent)}

/-! ## What a call tells -/

theorem heard_append (h : d'.told = d.told ++ told) :
    d'.heard id = d.heard id ++ (told.filter fun x => decide (x.1 = id)).map (·.2) := by
  rw [heard, h, List.filter_append, List.map_append, ← heard]

/-- A subscription that is listed some number of times is told of an event as often. -/
theorem heard_of_listed (ids : List SubscriptionId) (e : ObjectEvent) (id : SubscriptionId) :
    ((ids.map (·, e)).filter fun x => decide (x.1 = id)).map (·.2) =
      List.replicate (ids.count id) e := by
  induction ids with
  | nil => rfl
  | cons other rest ih =>
    by_cases h : other = id
    · simp [h, ih, List.replicate_succ]
    · simp [h, ih]

/-- What was told to one subscription is heard by that one only. -/
theorem heard_of_one (id other : SubscriptionId) (events : List ObjectEvent) :
    ((events.map (other, ·)).filter fun x => decide (x.1 = id)).map (·.2) =
      if other = id then events else [] := by
  by_cases h : other = id
  · subst h
    rw [if_pos rfl, List.filter_eq_self.2 (by simp), List.map_map]
    exact List.map_id' events
  · simp [h]

theorem told_tell (d : Dispatcher) (e : ObjectEvent) :
    (d.tell e).value.told = d.told ++ (d.listeners e.typeName).map (·, e) := by
  unfold tell listeners
  split <;> simp [*]

theorem subscribers_tell (d : Dispatcher) (e : ObjectEvent) :
    (d.tell e).value.subscribers = d.subscribers ∧
      (d.tell e).value.nextSubscription = d.nextSubscription := by
  unfold tell
  split <;> exact ⟨rfl, rfl⟩

theorem subscribers_applyCached (d : Dispatcher) (schema : StructSchema) (h : Header) (o : Object)
    (mine : Bool) (now : Instant) :
    (d.applyCached schema h o mine now).1.subscribers = d.subscribers ∧
      (d.applyCached schema h o mine now).1.nextSubscription = d.nextSubscription ∧
      (d.applyCached schema h o mine now).1.told = d.told := by
  unfold applyCached
  simp only
  split <;> split <;> exact ⟨rfl, rfl, rfl⟩

/-- Applying an object tells the subscribers of its type of what the answer says, and leaves the
subscriptions as they are. -/
theorem told_apply (d : Dispatcher) (schema : StructSchema) (h : Header) (o : Object)
    (mine : Bool) (now : Instant) :
    (d.apply schema h o mine now).value.1.subscribers = d.subscribers ∧
    (d.apply schema h o mine now).value.1.nextSubscription = d.nextSubscription ∧
    (d.apply schema h o mine now).value.1.told = d.told ++
      (d.event? (.apply schema h o mine) now).toList.flatMap fun e =>
        (d.listeners e.typeName).map (·, e) := by
  obtain ⟨hsubscribers, hnext, htold⟩ := d.subscribers_applyCached schema h o mine now
  simp only [event?]
  unfold apply
  split
  · -- Whatever became of the object, its container alone has changed before the event is told.
    cases happly : d.applyCached schema h o mine now with
    | mk d' outcome =>
      rw [happly] at hsubscribers hnext htold
      have hlisteners : ∀ typeName, d'.listeners typeName = d.listeners typeName := by
        intro typeName
        rw [listeners, hsubscribers, listeners]
      match outcome with
      | .error e => exact ⟨hsubscribers, hnext, by simpa [Except.toOption] using htold⟩
      | .ok none => exact ⟨hsubscribers, hnext, by simpa [Except.toOption] using htold⟩
      | .ok (some e) =>
        refine ⟨(d'.subscribers_tell e).1.trans hsubscribers,
          (d'.subscribers_tell e).2.trans hnext, ?_⟩
        simpa [Except.toOption, told_tell, hlisteners] using htold
  · split
    · exact ⟨rfl, rfl, by simp [Except.toOption]⟩
    · exact ⟨(d.subscribers_tell _).1, (d.subscribers_tell _).2,
        by simp [Except.toOption, told_tell]⟩

@[simp]
theorem listeners_subscribe (d : Dispatcher) (schema : StructSchema) (now : Instant)
    (typeName : String) :
    (d.subscribe schema now).1.listeners typeName =
      d.listeners typeName ++ if typeName = schema.name then [⟨d.nextSubscription⟩] else [] := by
  unfold subscribe listeners
  by_cases h : typeName = schema.name <;> simp [h]

theorem listeners_unsubscribe (d : Dispatcher) (id : SubscriptionId) (typeName : String) :
    (d.unsubscribe id).1.listeners typeName =
      (d.listeners typeName).filter fun other => decide (other ≠ id) := by
  unfold unsubscribe
  split
  · unfold listeners
    cases hfind : d.subscribers.find? typeName <;> simp [hfind]
  · -- A subscription that is not there cannot be taken out.
    rename_i hnone
    refine (List.filter_eq_self.2 fun other hother => ?_).symm
    rw [decide_eq_true_iff]
    rintro rfl
    unfold listeners at hother
    cases hfind : d.subscribers.find? typeName with
    | none =>
      rw [hfind] at hother
      cases hother
    | some ids =>
      rw [hfind] at hother
      refine hnone (List.any_eq_true.2 ⟨ids, SortedMap.mem_values_iff.2 ⟨typeName, hfind⟩, ?_⟩)
      simpa using hother

theorem unsubscribe_keeps (d : Dispatcher) (id : SubscriptionId) :
    (d.unsubscribe id).1.pool = d.pool ∧ (d.unsubscribe id).1.told = d.told ∧
      (d.unsubscribe id).1.nextSubscription = d.nextSubscription := by
  unfold unsubscribe
  split <;> exact ⟨rfl, rfl, rfl⟩

/-! ## The numbers of subscriptions -/

/-- All subscriptions so far have numbers below that of the next one. -/
structure Numbered (d : Dispatcher) : Prop where
  /-- The present ones. -/
  listening : ∀ typeName, ∀ id ∈ d.listeners typeName, id.number < d.nextSubscription
  /-- Those that were told of anything. -/
  told : ∀ x ∈ d.told, x.1.number < d.nextSubscription

theorem numbered_empty : empty.Numbered where
  listening typeName id hid := by cases hid
  told x hx := by cases hx

theorem Numbered.perform (hd : d.Numbered) (call : DispatcherCall) (now : Instant) :
    (d.perform call now).Numbered := by
  cases call with
  | apply schema h o mine =>
    obtain ⟨hsubscribers, hnext, htold⟩ := d.told_apply schema h o mine now
    refine ⟨fun typeName id hid => ?_, fun x hx => ?_⟩
    · rw [Dispatcher.perform, listeners, hsubscribers, ← listeners] at hid
      exact hnext ▸ hd.listening typeName id hid
    · rw [Dispatcher.perform, htold] at hx
      rw [Dispatcher.perform, hnext]
      rcases List.mem_append.1 hx with hx | hx
      · exact hd.told x hx
      · obtain ⟨e, -, hx⟩ := List.mem_flatMap.1 hx
        obtain ⟨id, hid, rfl⟩ := List.mem_map.1 hx
        exact hd.listening e.typeName id hid
  | subscribe schema =>
    refine ⟨fun typeName id hid => ?_, fun x hx => ?_⟩
    · rw [Dispatcher.perform, listeners_subscribe] at hid
      rcases List.mem_append.1 hid with hid | hid
      · exact Nat.lt_succ_of_lt (hd.listening typeName id hid)
      · split at hid
        · rw [List.mem_singleton.1 hid]
          exact Nat.lt_succ_self _
        · cases hid
    · rcases List.mem_append.1 hx with hx | hx
      · exact Nat.lt_succ_of_lt (hd.told x hx)
      · obtain ⟨e, -, rfl⟩ := List.mem_map.1 hx
        exact Nat.lt_succ_self _
  | unsubscribe id =>
    obtain ⟨-, htold, hnext⟩ := d.unsubscribe_keeps id
    refine ⟨fun typeName other hother => ?_, fun x hx => ?_⟩
    · rw [Dispatcher.perform, listeners_unsubscribe] at hother
      rw [Dispatcher.perform, hnext]
      exact hd.listening typeName other (List.mem_of_mem_filter hother)
    · rw [Dispatcher.perform, htold] at hx
      rw [Dispatcher.perform, hnext]
      exact hd.told x hx

theorem Numbered.after (hd : d.Numbered) (calls : List (DispatcherCall × Instant)) :
    (d.after calls).Numbered := by
  induction calls generalizing d with
  | nil => exact hd
  | cons call rest ih => exact ih (hd.perform call.1 call.2)

/-- A subscription that is yet to begin has been told of nothing. -/
theorem Numbered.heard_next (hd : d.Numbered) : d.heard ⟨d.nextSubscription⟩ = [] := by
  refine List.map_eq_nil_iff.2 (List.filter_eq_nil_iff.2 fun x hx => ?_)
  rw [decide_eq_true_iff]
  rintro hid
  exact Nat.lt_irrefl _ (hid ▸ hd.told x hx)

/-! ## What one subscription is told -/

/-- A subscription that has begun listens to one type, or to none once it has ended. -/
structure ListensTo (d : Dispatcher) (id : SubscriptionId) (subject : Option String) : Prop where
  /-- It has begun. -/
  begun : id.number < d.nextSubscription
  /-- It is listed once, under the type it listens to. -/
  listed : ∀ typeName, (d.listeners typeName).count id = if subject = some typeName then 1 else 0

/-- A new subscription listens to its type. -/
theorem Numbered.listensTo (hd : d.Numbered) (schema : StructSchema) (now : Instant) :
    (d.subscribe schema now).1.ListensTo (d.subscribe schema now).2 (some schema.name) := by
  refine ⟨Nat.lt_succ_self _, fun typeName => ?_⟩
  have hnone : (d.listeners typeName).count (d.subscribe schema now).2 = 0 :=
    List.count_eq_zero.2 fun hid => Nat.lt_irrefl _ (hd.listening typeName _ hid)
  rw [listeners_subscribe, List.count_append, hnone]
  by_cases h : typeName = schema.name
  · simp [h, subscribe]
  · simp [h, Ne.symm h]

/-- It is told first of what is cached. -/
theorem Numbered.heard_subscribe (hd : d.Numbered) (schema : StructSchema) (now : Instant) :
    (d.subscribe schema now).1.heard (d.subscribe schema now).2 =
      d.replayEvents schema.name now := by
  have htold : (d.subscribe schema now).1.told =
    d.told ++ (d.replayEvents schema.name now).map ((d.subscribe schema now).2, ·) := rfl
  rw [heard_append htold, heard_of_one, if_pos rfl, subscribe, hd.heard_next, List.nil_append]

/-- A subscription that ends listens to nothing. -/
theorem ListensTo.unsubscribe {subject : Option String} (h : d.ListensTo id subject) :
    (d.unsubscribe id).1.ListensTo id none := by
  refine ⟨(d.unsubscribe_keeps id).2.2 ▸ h.begun, fun typeName => ?_⟩
  rw [listeners_unsubscribe]
  exact List.count_eq_zero.2 fun hid => by simpa using (List.mem_filter.1 hid).2

/-- A call tells a subscription of what happens to the objects of its type, once, and does not end
it, unless that is what the call is for. -/
theorem ListensTo.perform {subject : Option String} (h : d.ListensTo id subject)
    (hcall : subject ≠ none → call ≠ .unsubscribe id) :
    (d.perform call now).ListensTo id subject ∧
      (d.perform call now).heard id = d.heard id ++
        (d.event? call now).toList.filter fun e => decide (subject = some e.typeName) := by
  cases call with
  | apply schema header o mine =>
    obtain ⟨hsubscribers, hnext, htold⟩ := d.told_apply schema header o mine now
    refine ⟨⟨hnext ▸ h.begun, fun typeName => ?_⟩, ?_⟩
    · rw [Dispatcher.perform, listeners, hsubscribers, ← listeners]
      exact h.listed typeName
    · rw [Dispatcher.perform, heard_append htold]
      congr 1
      cases d.event? (.apply schema header o mine) now with
      | none => rfl
      | some e =>
        rw [Option.toList_some, List.flatMap_singleton, heard_of_listed, h.listed]
        by_cases hto : subject = some e.typeName <;> simp [hto]
  | subscribe schema =>
    -- The subscription that begins is another one.
    have hother : (⟨d.nextSubscription⟩ : SubscriptionId) ≠ id :=
      fun heq => Nat.lt_irrefl _ (heq ▸ h.begun)
    refine ⟨⟨Nat.lt_succ_of_lt h.begun, fun typeName => ?_⟩, ?_⟩
    · rw [Dispatcher.perform, listeners_subscribe, List.count_append, h.listed]
      by_cases hname : typeName = schema.name <;> simp [hname, hother]
    · have htold : (d.subscribe schema now).1.told =
        d.told ++ (d.replayEvents schema.name now).map (⟨d.nextSubscription⟩, ·) := rfl
      rw [Dispatcher.perform, heard_append htold, heard_of_one, if_neg hother]
      rfl
  | unsubscribe other =>
    obtain ⟨-, htold, hnext⟩ := d.unsubscribe_keeps other
    have hheard : (d.unsubscribe other).1.heard id = d.heard id := by
      rw [heard, htold, ← heard]
    refine ⟨⟨hnext ▸ h.begun, fun typeName => ?_⟩, hheard.trans (List.append_nil _).symm⟩
    rw [Dispatcher.perform, listeners_unsubscribe]
    by_cases hid : id = other
    · -- Only a subscription that has ended can be ended here.
      subst hid
      have hnone : subject = none := by_contra fun hto => hcall hto rfl
      rw [List.count_eq_zero.2 fun hmem => by simpa using (List.mem_filter.1 hmem).2]
      simp [hnone]
    · rw [List.count_filter (by simpa using hid), h.listed]

/-- Some calls tell a subscription of what happens to the objects of its type, once and in
order. -/
theorem ListensTo.after {subject : Option String} (h : d.ListensTo id subject)
    (calls : List (DispatcherCall × Instant))
    (hcalls : subject ≠ none → ∀ call ∈ calls, call.1 ≠ .unsubscribe id) :
    (d.after calls).ListensTo id subject ∧
      (d.after calls).heard id = d.heard id ++
        (d.eventsOf calls).filter fun e => decide (subject = some e.typeName) := by
  induction calls generalizing d with
  | nil => exact ⟨h, (List.append_nil _).symm⟩
  | cons call rest ih =>
    obtain ⟨hfirst, hheard⟩ := h.perform fun hto => hcalls hto call List.mem_cons_self
    obtain ⟨hlast, hrest⟩ := ih hfirst fun hto c hc => hcalls hto c (List.mem_cons_of_mem _ hc)
    refine ⟨hlast, ?_⟩
    rw [eventsOf, List.filter_append, ← List.append_assoc, ← hheard]
    exact hrest

/-! ## Answers that say nothing -/

/-- Nobody is told of an object that could not be applied, nor of the removal of an object that is
not cached. -/
theorem told_apply_of_nothing (d : Dispatcher) (schema : StructSchema) (h : Header) (o : Object)
    (mine : Bool) (now : Instant)
    (hnothing : (∃ e, (d.apply schema h o mine now).value.2 = .error e) ∨
      h.remove = true ∧ (d.pool.getD schema).findObject? o = none) :
    (d.apply schema h o mine now).value.1.told = d.told := by
  have hevent : d.event? (.apply schema h o mine) now = none := by
    rcases hnothing with ⟨e, he⟩ | ⟨hremove, habsent⟩
    · simp [event?, he, Except.toOption]
    · rw [event?, outcome_apply]
      by_cases hcached : schema.flags.cached = true
      · have hanswer : (∃ e, ((d.pool.getD schema).perform (callOf h o now)).2 = .error e) ∨
            ((d.pool.getD schema).perform (callOf h o now)).2 = .ok none := by
          cases hkey : (d.pool.getD schema).schema.keyOf o with
          | error e => exact .inl ⟨e, by rw [Container.perform_of_keyOf_error hkey]⟩
          | ok key =>
            rw [Container.findObject?, hkey] at habsent
            exact .inr (by rw [Container.perform_removal_of_none hremove hkey habsent])
        rcases hanswer with ⟨e, he⟩ | hnone
        · simp [hcached, he, Except.map, Except.toOption]
        · simp [hcached, hnone, Except.map, Except.toOption]
      · simp [hcached, hremove, Except.toOption]
  rw [(d.told_apply schema h o mine now).2.2, hevent]
  simp

end Dispatcher

end ObjectBus
