import ObjectBus.Proofs.Cache.Container

/-!
# Mirroring a container

A guest that keeps a container of its own and feeds it with the objects that it is sent has a
mirror of the host's container. What is compared is the face of an entry: the object and, if
wanted, who wrote it last and when.

* `look_perform_congr`: the same write to two containers that agree on a key leaves them agreeing
  on it, whenever it arrives;
* `look_replay`: a replay makes a mirror agree on every key that it lacked or agreed on before.
-/

namespace ObjectBus

/-- Whether a transmission carries an object of the given type. -/
def Transmission.isObjectOf (typeName : String) (t : Transmission) : Bool :=
  t.object?.isSome && t.header.typeName == typeName

/-- The call that a received object asks for. -/
def CacheCall.ofFrame? (t : Transmission) (now : Instant) : Option CacheCall :=
  t.object?.map fun o => ⟨t.header.remove, t.header, o, now⟩

/-- What entries are compared by: the object and, if wanted, who wrote it last and when. -/
def Entry.face (full : Bool) (e : Entry) : Object × Option (PeerId × Instant) :=
  (e.object, if full then some (e.provenance.lastUpdateFrom, e.provenance.modified) else none)

namespace Container

variable {c c' view : Container} {key : ObjectKey} {call call' : CacheCall} {full : Bool}
variable {now : Instant}

/-- The face of the entry of a key. -/
def look (c : Container) (full : Bool) (key : ObjectKey) :
    Option (Object × Option (PeerId × Instant)) :=
  (c.find? key).map (·.face full)

/-- A container after some transmissions, each of which arrived at its own time. An object is
taken out if its header says so, and written otherwise. -/
def afterFrames (c : Container) (received : List (Transmission × Instant)) : Container :=
  c.after (received.filterMap fun x => CacheCall.ofFrame? x.1 x.2)

theorem afterFrames_append (c : Container) (received received' : List (Transmission × Instant)) :
    c.afterFrames (received ++ received') = (c.afterFrames received).afterFrames received' := by
  simp [afterFrames, after, List.filterMap_append, List.foldl_append]

theorem afterFrames_cons_object (c : Container) (h : Header) (o : Object) (arrival : Instant)
    (received : List (Transmission × Instant)) :
    c.afterFrames ((.ofObject h o, arrival) :: received) =
      (c.perform ⟨h.remove, h, o, arrival⟩).1.afterFrames received := rfl

@[simp]
theorem schema_afterFrames (c : Container) (received : List (Transmission × Instant)) :
    (c.afterFrames received).schema = c.schema := schema_after _ _

/-- What a call does to the face of each key. -/
theorem look_perform (c : Container) (call : CacheCall) (full : Bool) (key : ObjectKey) :
    (c.perform call).1.look full key =
      if call.removes c.schema key then none
      else if call.inserts c.schema key then
        some ((c.afterWrite call (c.find? key)).face full)
      else c.look full key := by
  unfold look
  rw [find?_perform]
  split
  · rfl
  · split <;> rfl

/-- A write leaves the same face behind when the entries before it had the same face, whenever
the two writes are made. -/
theorem face_afterWrite_congr (hschema : c.schema = c'.schema)
    (hlook : c.look full key = c'.look full key) (hheader : call.header = call'.header)
    (hobject : call.object = call'.object) {sent : Instant}
    (hsent : call.header.sentTime = some sent) :
    (c.afterWrite call (c.find? key)).face full =
      (c'.afterWrite call' (c'.find? key)).face full := by
  -- The header tells when the write was sent, so that it does not matter when it is made.
  have hat : call.header.sentAt call.now = call'.header.sentAt call'.now := by
    rw [← hheader]
    simp [Header.sentAt, hsent]
  unfold look at hlook
  cases hfind : c.find? key with
  | none =>
    cases hfind' : c'.find? key with
    | some e' => simp [hfind, hfind'] at hlook
    | none =>
      simp only [afterWrite, createdEntry, Entry.face, Provenance.ofCreate]
      rw [hschema, hat, hheader, hobject]
  | some e =>
    cases hfind' : c'.find? key with
    | none => simp [hfind, hfind'] at hlook
    | some e' =>
      have hobjects : e.object = e'.object := by
        simp only [hfind, hfind', Option.map_some, Option.some.injEq] at hlook
        exact congrArg Prod.fst hlook
      simp only [afterWrite, writtenEntry, Entry.face, Provenance.next]
      rw [hschema, hat, hheader, hobject, hobjects]

/-- The same write to two containers that agree on a key leaves them agreeing on it. -/
theorem look_perform_congr (hschema : c.schema = c'.schema)
    (hlook : c.look full key = c'.look full key) (hremoval : call.removal = call'.removal)
    (hheader : call.header = call'.header) (hobject : call.object = call'.object)
    {sent : Instant} (hsent : call.header.sentTime = some sent) :
    (c.perform call).1.look full key = (c'.perform call').1.look full key := by
  have hremoves : call.removes c.schema key = call'.removes c'.schema key := by
    simp [CacheCall.removes, CacheCall.concerns, hremoval, hobject, hschema]
  have hinserts : call.inserts c.schema key = call'.inserts c'.schema key := by
    simp [CacheCall.inserts, CacheCall.concerns, hremoval, hobject, hschema]
  rw [look_perform, look_perform, hremoves, hinserts, hlook,
    face_afterWrite_congr hschema hlook hheader hobject hsent]

/-! ## Replays -/

/-- The call that a replayed entry asks for. -/
def replayCall (c : Container) (e : Entry) (left : Nat) (now arrival : Instant) : CacheCall :=
  ⟨false, c.replayHeader e left now, e.object, arrival⟩

/-- A replayed entry includes everything that it holds. -/
theorem restrict_replayed (hcheck : c.schema.checkDefinition = .ok ()) (hvalid : c.Valid)
    {e : Entry} (he : c.find? key = some e) :
    e.object.restrict (c.schema.validProperties e.object ∪ c.schema.keyProperties) = e.object := by
  refine Object.restrict_eq_self fun tag hset => ?_
  rw [PropertySet.contains_union, Bool.or_eq_true]
  exact .inl (StructSchema.contains_validProperties_of_validate hcheck (hvalid key e he).1 hset)

/-- Writing a replayed entry to a mirror that lacks it, or agrees on it, makes the mirror agree
on it. -/
theorem face_afterWrite_replayed (hcheck : c.schema.checkDefinition = .ok ()) (hvalid : c.Valid)
    (hschema : view.schema = c.schema) {e : Entry} (he : c.find? key = some e)
    (hlook : view.look full key = none ∨ view.look full key = some (e.face full)) (left : Nat)
    (arrival : Instant) :
    (view.afterWrite (c.replayCall e left now arrival) (view.find? key)).face full =
      e.face full := by
  unfold look at hlook
  cases hfind : view.find? key with
  | none =>
    simp only [afterWrite, createdEntry, replayCall, replayHeader, Entry.face,
      Provenance.ofCreate, Header.origin, Header.sentAt, hschema, Option.getD_some]
    rw [restrict_replayed hcheck hvalid he]
  -- An agreeing mirror has the object already, and merging it with itself changes nothing.
  | some e' =>
    have hobject : e'.object = e.object := by
      simp only [hfind, Option.map_some, reduceCtorEq, false_or, Option.some.injEq] at hlook
      exact congrArg Prod.fst hlook
    simp only [afterWrite, writtenEntry, replayCall, replayHeader, Entry.face, Provenance.next,
      Header.origin, Header.sentAt, Option.getD_some]
    rw [hobject, Object.merge_self]

/-- Receiving one replayed entry. -/
theorem look_perform_replayed (hcheck : c.schema.checkDefinition = .ok ()) (hvalid : c.Valid)
    (hschema : view.schema = c.schema) {key' : ObjectKey} {e : Entry}
    (he : c.find? key' = some e)
    (hlook : view.look full key = none ∨ view.look full key = c.look full key) (left : Nat)
    (arrival : Instant) :
    (view.perform (c.replayCall e left now arrival)).1.look full key =
      if key = key' then c.look full key else view.look full key := by
  have hconcerns : (c.replayCall e left now arrival).concerns view.schema key =
      decide (key' = key) :=
    CacheCall.concerns_of_keyOf (hschema.symm ▸ (hvalid key' e he).2)
  rw [look_perform]
  simp only [CacheCall.removes, CacheCall.inserts, hconcerns,
    show (c.replayCall e left now arrival).removal = false from rfl, Bool.false_and,
    Bool.not_false, Bool.true_and, Bool.false_eq_true, if_false, decide_eq_true_eq]
  by_cases hkey : key' = key
  · subst hkey
    have hface : c.look full key' = some (e.face full) := by simp [look, he]
    rw [if_pos rfl, if_pos rfl, hface,
      face_afterWrite_replayed hcheck hvalid hschema he (hface ▸ hlook)]
  · rw [if_neg hkey, if_neg (Ne.symm hkey)]

/-- Receiving some of the entries of a replay, each key at most once. -/
theorem look_replayOf (hcheck : c.schema.checkDefinition = .ok ()) (hvalid : c.Valid)
    (hschema : view.schema = c.schema) {entries : List (ObjectKey × Entry)}
    (hentries : ∀ x ∈ entries, c.find? x.1 = some x.2) (hnodup : (entries.map (·.1)).Nodup)
    (hlook : view.look full key = none ∨ view.look full key = c.look full key)
    {received : List (Transmission × Instant)}
    (hreceived : received.map (·.1) = c.replayOf now (entries.map (·.2))) :
    (view.afterFrames received).look full key =
      if key ∈ entries.map (·.1) then c.look full key else view.look full key := by
  induction entries generalizing view received with
  | nil =>
    obtain rfl : received = [] := by simpa [replayOf] using hreceived
    simp [afterFrames]
  | cons x rest ih =>
    obtain ⟨key', e⟩ := x
    obtain ⟨hfresh, hrest⟩ := List.nodup_cons.1 (List.map_cons ▸ hnodup)
    cases received with
    | nil => cases hreceived
    | cons y later =>
      obtain ⟨t, arrival⟩ := y
      simp only [List.map_cons, replayOf, List.cons.injEq] at hreceived
      obtain ⟨rfl, hlater⟩ := hreceived
      let call := c.replayCall e (rest.map (·.2)).length now arrival
      have hstep : (view.perform call).1.look full key =
          if key = key' then c.look full key else view.look full key :=
        look_perform_replayed hcheck hvalid hschema (hentries (key', e) List.mem_cons_self) hlook
          _ arrival
      rw [afterFrames_cons_object]
      change ((view.perform call).1.afterFrames later).look full key = _
      rw [ih (by rw [schema_perform, hschema]) (fun x hx => hentries x (List.mem_cons_of_mem _ hx))
        hrest ?_ hlater, hstep]
      · by_cases hkey : key = key'
        · subst hkey
          simp
        · simp only [hkey, if_false, List.map_cons, List.mem_cons, false_or]
      · -- The mirror still lacks the key or agrees on it after the first entry.
        rw [hstep]
        split
        · exact .inr rfl
        · exact hlook

/-- A whole replay makes a mirror agree with the container on every key that it lacked or agreed
on before. -/
theorem look_replay (hcheck : c.schema.checkDefinition = .ok ()) (hvalid : c.Valid)
    (hschema : view.schema = c.schema)
    (hlook : view.look full key = none ∨ view.look full key = c.look full key)
    {received : List (Transmission × Instant)} (hreceived : received.map (·.1) = c.replay now) :
    (view.afterFrames received).look full key = c.look full key := by
  have hentries : ∀ x ∈ c.entries.toList, c.find? x.1 = some x.2 :=
    fun x hx => KeyedList.find?_eq_some_iff.2 hx
  rw [look_replayOf hcheck hvalid hschema hentries c.entries.nodup hlook hreceived]
  split
  · rfl
  · -- What is not cached is not replayed, and a mirror that lacks it agrees already.
    rename_i habsent
    have hnone : c.find? key = none := by
      refine Option.eq_none_iff_forall_ne_some.2 fun e he => habsent ?_
      exact List.mem_map.2 ⟨(key, e), KeyedList.find?_eq_some_iff.1 he, rfl⟩
    rcases hlook with hlook | hlook
    · rw [hlook, look, hnone]
      rfl
    · exact hlook

end Container

end ObjectBus
