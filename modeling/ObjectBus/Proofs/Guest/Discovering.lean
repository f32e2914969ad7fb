import ObjectBus.Proofs.Broker.Tending
import ObjectBus.Proofs.Guest.Waiting

/-!
# A discovery, frame by frame

A guest that has asked for type definitions keeps the struct types that arrive until the mark of the
end. Frames carry no hint at the request that they answer, so that what it keeps depends on what
else is on the way.

* `Guest.take_discovering_cases`: what a guest makes of a frame meanwhile;
* `Broker.discoveryFrames_eq`: the frames of an answer, up to the mark of the end;
* `Transmission.Rounded`: streams in which no answer is left open.
-/

namespace ObjectBus

namespace Transmission

variable {t t' : Transmission} {frames more before before' rest rest' : List Transmission}

/-- Whether a frame asks for type definitions. -/
def asksForTypes (t : Transmission) : Bool :=
  match t.payload with
  | .control (.descriptorRequest ..) => true
  | _ => false

theorem countP_endsDiscovery_eq_zero (h : ∀ t ∈ frames, t.endsDiscovery = false) :
    frames.countP (·.endsDiscovery) = 0 :=
  List.countP_eq_zero.2 fun t ht => by simp [h t ht]

/-- The first mark of an end is at one place only. -/
theorem eq_of_first_mark (hbefore : ∀ x ∈ before, x.endsDiscovery = false)
    (hbefore' : ∀ x ∈ before', x.endsDiscovery = false) (ht : t.endsDiscovery = true)
    (ht' : t'.endsDiscovery = true) (h : before ++ t :: rest = before' ++ t' :: rest') :
    before = before' := by
  -- Up to the first mark a list is what can be taken from it without one.
  have hfirst : ∀ (l : List Transmission) (x : Transmission) (after : List Transmission),
      (∀ y ∈ l, y.endsDiscovery = false) → x.endsDiscovery = true →
      (l ++ x :: after).takeWhile (fun y => !y.endsDiscovery) = l := by
    intro l x after hl hx
    rw [List.takeWhile_append_of_pos fun y hy => by simp [hl y hy],
      List.takeWhile_cons_of_neg (by simp [hx]), List.append_nil]
  rw [← hfirst before t rest hbefore ht, h, hfirst before' t' rest' hbefore' ht']

/-! ## Streams without an open answer -/

/-- In a stream no answer is left open: behind the last mark of an end there is nothing that belongs
to one. -/
def Rounded (frames : List Transmission) : Prop :=
  ∀ before late, frames = before ++ late → (∀ t ∈ late, t.endsDiscovery = false) →
    ∀ t ∈ late, t.AddsNothing

namespace Rounded

/-- Frames that add nothing to a discovery leave no answer open. -/
theorem append_beside (h : Rounded frames) (hmore : ∀ t ∈ more, t.AddsNothing) :
    Rounded (frames ++ more) := by
  intro before late hsplit hlate t ht
  -- The late frames begin among those that were added, or among those before them.
  rcases List.append_eq_append_iff.1 hsplit with ⟨between, -, rfl⟩ | ⟨between, hframes, rfl⟩
  · exact hmore t (List.mem_append_right _ ht)
  · rcases List.mem_append.1 ht with hbetween | hnew
    · exact h before between hframes (fun x hx => hlate x (List.mem_append_left _ hx)) t hbetween
    · exact hmore t hnew

/-- An answer with a mark of its end leaves no answer open. -/
theorem append_answer {mark : Transmission} (hmark : mark.endsDiscovery = true)
    (frames definitions : List Transmission) : Rounded (frames ++ (definitions ++ [mark])) := by
  intro before late hsplit hlate t ht
  -- The mark would be the last of the late frames.
  rcases List.eq_nil_or_concat late with rfl | ⟨init, last, rfl⟩
  · cases ht
  · rw [List.concat_eq_append, ← List.append_assoc, ← List.append_assoc] at hsplit
    obtain ⟨-, hlast⟩ := List.append_inj' hsplit rfl
    obtain rfl := (List.cons.inj hlast).1
    rw [hlate mark (by simp)] at hmark
    cases hmark

end Rounded

end Transmission

/-! ## The frames of an answer -/

/-- An answer ends with its only mark of an end, and the struct types before it are those that are
selected. -/
theorem Broker.discoveryFrames_eq (b : Broker) (whitelist blacklist : Option (List String))
    (now : Instant) :
    ∃ definitions, b.discoveryFrames whitelist blacklist now =
        definitions ++ [.ofControl .endOfDiscovery now] ∧
      (∀ t ∈ definitions, t.endsDiscovery = false) ∧
      definitions.filterMap (·.struct?) =
        Discovery.selected b.registry (whitelist.getD []) (blacklist.getD []) := by
  refine ⟨(Discovery.definitions b.registry [] (Discovery.selected b.registry
    (whitelist.getD []) (blacklist.getD []))).map (Transmission.ofControl · now), ?_, ?_, ?_⟩
  · rw [discoveryFrames, discoveryReply, Discovery.reply, List.map_append]
    rfl
  · intro t ht
    obtain ⟨message, hmessage, rfl⟩ := List.mem_map.1 ht
    obtain ⟨s, rfl⟩ | ⟨e, rfl⟩ := Discovery.defines_of_mem_definitions hmessage <;> rfl
  · have hstruct : Transmission.struct? ∘ (Transmission.ofControl · now) =
        ControlMessage.struct? := by
      funext message
      cases message <;> rfl
    rw [List.filterMap_map, hstruct, Discovery.filterMap_struct?_definitions]

/-! ## What the guest makes of a frame -/

namespace Guest

/-- A guest that waits for type definitions goes on waiting and keeps the struct type that a frame
defines, if it does, or it fails, or it ends with the mark of the end. -/
theorem take_discovering_cases (g : Guest) (found : List StructSchema) (t : Transmission) :
    (∃ g', (discovering.take (g, found) t).value = .waiting (g', found ++ t.struct?.toList) ∧
      t.endsDiscovery = false ∧ g'.sent = g.sent) ∨
    (∃ e, (discovering.take (g, found) t).value = .ended (g, .error e)) ∨
    t.endsDiscovery = true ∧ (discovering.take (g, found) t).value = .ended (g, .ok found) := by
  unfold discovering
  simp only
  split
  · exact .inr (.inl ⟨_, rfl⟩)
  · split
    · rename_i schema hpayload
      have hstruct : t.struct? = some schema := by rw [Transmission.struct?, hpayload]
      have hmark : t.endsDiscovery = false := by rw [Transmission.endsDiscovery, hpayload]
      split
      · exact .inr (.inl ⟨_, rfl⟩)
      · rename_i registry outcome _
        exact .inl ⟨{ g with registry := registry }, by rw [hstruct]; rfl, hmark, rfl⟩
    · rename_i schema hpayload
      have hstruct : t.struct? = none := by rw [Transmission.struct?, hpayload]
      have hmark : t.endsDiscovery = false := by rw [Transmission.endsDiscovery, hpayload]
      split
      · exact .inr (.inl ⟨_, rfl⟩)
      · rename_i registry outcome _
        refine .inl ⟨{ g with registry := registry }, ?_, hmark, rfl⟩
        rw [hstruct, Option.toList_none, List.append_nil]
        rfl
    · rename_i hpayload
      exact .inr (.inr ⟨by rw [Transmission.endsDiscovery, hpayload], rfl⟩)
    · rename_i hstructs _ hmarks
      -- Whatever else arrives is skipped.
      have hstruct : t.struct? = none := by
        unfold Transmission.struct?
        split
        · exact absurd ‹_› (hstructs _)
        · rfl
      have hmark : t.endsDiscovery = false := by
        unfold Transmission.endsDiscovery
        split
        · rename_i typeName final finished hpayload
          cases finished with
          | true => exact absurd hpayload (hmarks _ _)
          | false => rfl
        · rfl
      refine .inl ⟨g, ?_, hmark, rfl⟩
      rw [hstruct, Option.toList_none, List.append_nil]
      rfl

end Guest

end ObjectBus
