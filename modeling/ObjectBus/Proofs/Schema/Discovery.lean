import ObjectBus.Proofs.Broker.Call

/-!
# Answers to a schema discovery

What a guest is told that asks for type definitions, said without the code that collects them:
which struct types it learns and in which order, which enum types come with them and where, and
that the end is marked.

* `Registry.Wanted`: a struct type is selected by the lists of a guest;
* `ValueKind.Mentions`: an enum type occurs in a kind, however deep;
* `Discovery.Answers`: some messages answer a discovery;
* `Discovery.answers_reply`: the reply to a discovery does;
* `Discovery.mem_before_iff`: which enum types precede a struct type.
-/

namespace ObjectBus

namespace ControlMessage

/-- The struct type that a message defines. -/
def struct? : ControlMessage → Option StructSchema
  | structSchema s => some s
  | _ => none

/-- The enum type that a message defines. -/
def enum? : ControlMessage → Option EnumSchema
  | enumSchema e => some e
  | _ => none

/-- A message defines a type. -/
def Defines (message : ControlMessage) : Prop :=
  (∃ s, message = .structSchema s) ∨ ∃ e, message = .enumSchema e

end ControlMessage

/-- An enum type occurs in a kind, as the kind itself or within lists. -/
def ValueKind.Mentions (typeName : String) : ValueKind → Prop
  | .enumerator name => name = typeName
  | .list item => item.Mentions typeName
  | _ => False

/-- A property of a struct type holds enumerators of an enum type. -/
def StructSchema.Names (s : StructSchema) (typeName : String) : Prop :=
  ∃ p ∈ s.properties, p.kind = .enumerator typeName

namespace Registry

/-- Every enum type is known under its own name. -/
def EnumsNamed (r : Registry) : Prop :=
  ∀ name e, r.findEnum? name = some e → e.name = name

theorem enumsNamed_addEnum {r : Registry} (h : r.EnumsNamed) (e : EnumSchema) :
    (r.addEnum e).EnumsNamed := by
  intro name e' he'
  simp only [addEnum, findEnum?, SortedMap.find?_insert] at he'
  split at he'
  · rename_i hname
    rw [← Option.some.inj he', hname]
  · exact h name e' he'

/-- Registering types keeps enum types under their names. -/
theorem Built.enumsNamed {r : Registry} (h : r.Built) : r.EnumsNamed := by
  induction h with
  | empty =>
    intro name e he
    cases he
  | registerStruct _ hs ih =>
    obtain ⟨-, ⟨-, rfl, -⟩ | ⟨-, rfl, -⟩⟩ := registerStruct_cases hs
    · exact ih
    · exact ih
  | registerEnum _ hs ih =>
    obtain ⟨-, rfl⟩ | ⟨-, rfl⟩ := registerEnum_cases hs
    · exact ih
    · exact enumsNamed_addEnum ih _

/-- A guest that asks with these lists wants a struct type: it is registered and not internal, the
whitelist, if there is one with names, has its name, and the blacklist has not. -/
structure Wanted (r : Registry) (whitelist blacklist : Option (List String))
    (s : StructSchema) : Prop where
  /-- It is registered with this definition. -/
  registered : r.findStruct? s.name = some s
  /-- It is not internal. -/
  ordinary : s.flags.internal = false
  /-- A whitelist with names has its name. -/
  listed : ∀ names, whitelist = some names → names = [] ∨ s.name ∈ names
  /-- A blacklist has not. -/
  unlisted : ∀ names, blacklist = some names → s.name ∉ names

end Registry

namespace Discovery

variable {r : Registry} {whitelist blacklist : Option (List String)} {sent : List String}
variable {ps : List PropertySchema} {l : List StructSchema} {s : StructSchema} {e : EnumSchema}

/-- Some messages answer a discovery with these lists. -/
structure Answers (r : Registry) (whitelist blacklist : Option (List String))
    (messages : List ControlMessage) : Prop where
  /-- The struct types are those that the guest wants. -/
  structs : ∀ s, .structSchema s ∈ messages ↔ r.Wanted whitelist blacklist s
  /-- They come in the order of their names, so that none comes twice. -/
  ordered : (messages.filterMap (·.struct?)).Pairwise (·.name < ·.name)
  /-- An enum type is registered, and a property of the next struct type names it. -/
  enums : ∀ e rest, .enumSchema e :: rest <:+ messages →
    r.findEnum? e.name = some e ∧ ∃ s, rest.findSome? (·.struct?) = some s ∧ s.Names e.name
  /-- No enum type comes twice. -/
  distinct : ((messages.filterMap (·.enum?)).map (·.name)).Nodup
  /-- The last message marks the end, and all before it define types. -/
  ended : ∃ definitions, messages = definitions ++ [.endOfDiscovery] ∧
    ∀ message ∈ definitions, message.Defines

/-! ## The struct types -/

/-- A struct type is selected if it is wanted by the lists, a missing one of which is empty. -/
theorem selects_iff (hs : r.findStruct? s.name = some s) :
    selects (whitelist.getD []) (blacklist.getD []) s = true ↔
      r.Wanted whitelist blacklist s := by
  have hwhite : ((whitelist.getD []).isEmpty || (whitelist.getD []).contains s.name) = true ↔
      ∀ names, whitelist = some names → names = [] ∨ s.name ∈ names := by
    cases whitelist <;> simp
  have hblack : (blacklist.getD []).contains s.name = false ↔
      ∀ names, blacklist = some names → s.name ∉ names := by
    cases blacklist <;> simp
  simp only [selects, Bool.and_eq_true, Bool.not_eq_true', hwhite, hblack]
  exact ⟨fun ⟨⟨hinternal, hlisted⟩, hunlisted⟩ => ⟨hs, hinternal, hlisted, hunlisted⟩,
    fun h => ⟨⟨h.ordinary, h.listed⟩, h.unlisted⟩⟩

/-- The selected struct types are those that are wanted. -/
theorem mem_selected_iff (hwf : r.WellFormed) :
    s ∈ selected r (whitelist.getD []) (blacklist.getD []) ↔
      r.Wanted whitelist blacklist s := by
  rw [selected, List.mem_filter]
  constructor
  · rintro ⟨hmem, hselects⟩
    exact (selects_iff (hwf.findStruct?_eq_some_iff.2 ⟨hmem, rfl⟩)).1 hselects
  · intro h
    exact ⟨(hwf.findStruct?_eq_some_iff.1 h.registered).1, (selects_iff h.registered).2 h⟩

/-- The selected struct types stand in the order of their names. -/
theorem pairwise_selected (hwf : r.WellFormed) (whitelist blacklist : List String) :
    (selected r whitelist blacklist).Pairwise (·.name < ·.name) := by
  have hkeys : r.structs.keys.Pairwise (· < ·) := List.pairwise_map.2 r.structs.sorted
  rw [← hwf.map_name_values, List.pairwise_map] at hkeys
  exact hkeys.filter _

@[simp]
theorem filterMap_struct?_enums (enums : List EnumSchema) :
    (enums.map ControlMessage.enumSchema).filterMap (·.struct?) = [] := by
  simp [ControlMessage.struct?]

@[simp]
theorem filterMap_enum?_enums (enums : List EnumSchema) :
    (enums.map ControlMessage.enumSchema).filterMap (·.enum?) = enums := by
  simp [ControlMessage.enum?]

/-- Enum types do not come in the way of the next struct type. -/
theorem findSome?_struct?_enums_append (enums : List EnumSchema) (rest : List ControlMessage) :
    (enums.map ControlMessage.enumSchema ++ rest).findSome? (·.struct?) =
      rest.findSome? (·.struct?) := by
  induction enums with
  | nil => rfl
  | cons e enums ih => exact ih

/-- The struct types among the definitions are those that were selected, in their order. -/
@[simp]
theorem filterMap_struct?_definitions (r : Registry) (sent : List String)
    (l : List StructSchema) : (definitions r sent l).filterMap (·.struct?) = l := by
  induction l generalizing sent with
  | nil => rfl
  | cons s rest ih =>
    rw [definitions, List.filterMap_append, filterMap_struct?_enums, List.nil_append,
      List.filterMap_cons, ih]
    rfl

/-- All definitions define types. -/
theorem defines_of_mem_definitions {message : ControlMessage}
    (h : message ∈ definitions r sent l) : message.Defines := by
  induction l generalizing sent with
  | nil => cases h
  | cons s rest ih =>
    rw [definitions, List.mem_append, List.mem_map, List.mem_cons] at h
    rcases h with ⟨e, -, rfl⟩ | rfl | h
    · exact .inr ⟨e, rfl⟩
    · exact .inl ⟨s, rfl⟩
    · exact ih h

theorem mem_definitions_struct_iff : .structSchema s ∈ definitions r sent l ↔ s ∈ l := by
  have hmem : s ∈ (definitions r sent l).filterMap (·.struct?) ↔
      .structSchema s ∈ definitions r sent l := by
    rw [List.mem_filterMap]
    constructor
    · rintro ⟨message, hmessage, hs⟩
      cases message <;> cases hs
      exact hmessage
    · exact fun h => ⟨_, h, rfl⟩
  rw [← hmem, filterMap_struct?_definitions]

/-! ## The enum types of one struct type -/

/-- The enum types that go before a struct type: those that are registered, were not sent before and
are named by a property. -/
theorem mem_newEnums_iff (hnamed : r.EnumsNamed) :
    e ∈ newEnums r sent ps ↔ r.findEnum? e.name = some e ∧ e.name ∉ sent ∧
      ∃ p ∈ ps, p.kind = .enumerator e.name := by
  induction ps generalizing sent with
  | nil => simp [newEnums]
  | cons p rest ih =>
    unfold newEnums
    split
    · rename_i typeName hkind
      have hp : p.kind = .enumerator e.name ↔ typeName = e.name := by rw [hkind]; simp
      split
      · -- The property names what was sent before, which does not count for either side.
        rename_i hsent
        rw [List.contains_iff_mem] at hsent
        rw [ih]
        simp only [List.exists_mem_cons_iff, hp]
        refine and_congr_right fun _ => and_congr_right fun hfresh => ?_
        exact (or_iff_right fun heq : typeName = e.name => hfresh (heq ▸ hsent)).symm
      · rename_i hsent
        rw [List.contains_iff_mem] at hsent
        split
        · -- It names a registered type, which is sent now and from then on counts as sent.
          rename_i e' hfound
          obtain rfl := hnamed _ _ hfound
          rw [List.mem_cons, ih]
          simp only [List.exists_mem_cons_iff, hp, List.mem_append, List.mem_singleton, not_or]
          constructor
          · rintro (rfl | ⟨hknown, ⟨hfresh, -⟩, hrest⟩)
            · exact ⟨hfound, hsent, .inl rfl⟩
            · exact ⟨hknown, hfresh, .inr hrest⟩
          · rintro ⟨hknown, hfresh, hany⟩
            by_cases heq : e'.name = e.name
            · rw [heq, hknown] at hfound
              exact .inl (Option.some.inj hfound)
            · exact .inr ⟨hknown, ⟨hfresh, Ne.symm heq⟩, hany.resolve_left heq⟩
        · -- It names nothing that is registered.
          rename_i hunknown
          rw [ih]
          simp only [List.exists_mem_cons_iff, hp]
          refine and_congr_right fun hknown => and_congr_right fun _ => ?_
          refine (or_iff_right fun heq => ?_).symm
          rw [← heq, hunknown] at hknown
          cases hknown
    · -- Its kind is no enum type; what it may hold in lists is not looked at.
      rename_i hother
      rw [ih]
      simp only [List.exists_mem_cons_iff]
      refine and_congr_right fun _ => and_congr_right fun _ => ?_
      exact (or_iff_right fun hkind => hother _ hkind).symm

/-- No enum type goes twice before a struct type. -/
theorem nodup_newEnums (hnamed : r.EnumsNamed) (sent : List String) (ps : List PropertySchema) :
    ((newEnums r sent ps).map (·.name)).Nodup := by
  induction ps generalizing sent with
  | nil => exact .nil
  | cons p rest ih =>
    unfold newEnums
    split
    · split
      · exact ih sent
      · split
        · rename_i typeName _ _ e hfound
          obtain rfl := hnamed _ _ hfound
          refine List.nodup_cons.2 ⟨fun hmem => ?_, ih _⟩
          obtain ⟨e', he', hname⟩ := List.mem_map.1 hmem
          obtain ⟨-, hfresh, -⟩ := (mem_newEnums_iff hnamed).1 he'
          exact hfresh (by simp [hname])
        · exact ih sent
    · exact ih sent

/-! ## The definitions -/

/-- The enum types among the definitions come once, and none was sent before. -/
theorem nodup_definitions (hnamed : r.EnumsNamed) (sent : List String) (l : List StructSchema) :
    (((definitions r sent l).filterMap (·.enum?)).map (·.name)).Nodup ∧
      ∀ name ∈ ((definitions r sent l).filterMap (·.enum?)).map (·.name), name ∉ sent := by
  induction l generalizing sent with
  | nil => exact ⟨.nil, by simp [definitions]⟩
  | cons s rest ih =>
    -- What goes before the first struct type counts as sent for those after it.
    obtain ⟨hnodup, hfresh⟩ := ih (sent ++ (newEnums r sent s.properties).map (·.name))
    have hsplit : (definitions r sent (s :: rest)).filterMap (·.enum?) =
        newEnums r sent s.properties ++
          (definitions r (sent ++ (newEnums r sent s.properties).map (·.name)) rest).filterMap
            (·.enum?) := by
      rw [definitions, List.filterMap_append, filterMap_enum?_enums]
      rfl
    rw [hsplit, List.map_append]
    refine ⟨List.nodup_append.2 ⟨nodup_newEnums hnamed _ _, hnodup, ?_⟩, fun name hname => ?_⟩
    · rintro name hname name' hname' rfl
      exact hfresh name hname' (List.mem_append_right _ hname)
    · rcases List.mem_append.1 hname with hname | hname
      · obtain ⟨e, he, rfl⟩ := List.mem_map.1 hname
        exact ((mem_newEnums_iff hnamed).1 he).2.1
      · exact fun hsent => hfresh name hname (List.mem_append_left _ hsent)

/-- A struct type follows after its enum types in a list of definitions: what comes before another
place of a definition is either just these, or they and the struct type and more. -/
theorem split_at_struct {enums : List EnumSchema} {first : StructSchema}
    {before after rest : List ControlMessage}
    (h : enums.map .enumSchema ++ .structSchema first :: rest =
      before ++ .structSchema s :: after) :
    before = enums.map .enumSchema ∧ first = s ∧ rest = after ∨
      ∃ between, before = enums.map .enumSchema ++ .structSchema first :: between ∧
        rest = between ++ .structSchema s :: after := by
  induction enums generalizing before with
  | nil =>
    cases before with
    | nil =>
      obtain ⟨hsame, hrest⟩ := List.cons.inj h
      exact .inl ⟨rfl, ControlMessage.structSchema.inj hsame, hrest⟩
    | cons message between =>
      obtain ⟨rfl, hrest⟩ := List.cons.inj h
      exact .inr ⟨between, rfl, hrest⟩
  | cons e enums ih =>
    cases before with
    | nil => cases (List.cons.inj h).1
    | cons message before =>
      obtain ⟨rfl, htail⟩ := List.cons.inj h
      rcases ih htail with ⟨rfl, hsame⟩ | ⟨between, rfl, hrest⟩
      · exact .inl ⟨rfl, hsame⟩
      · exact .inr ⟨between, rfl, hrest⟩

/-- Up to a struct type the definitions are those for the struct types up to it. -/
theorem definitions_split {before after : List ControlMessage}
    (h : definitions r sent l = before ++ .structSchema s :: after) :
    ∃ earlier later, l = earlier ++ s :: later ∧
      definitions r sent (earlier ++ [s]) = before ++ [.structSchema s] := by
  induction l generalizing sent before with
  | nil => simp [definitions] at h
  | cons first l ih =>
    rcases split_at_struct h with ⟨rfl, rfl, -⟩ | ⟨between, rfl, hrest⟩
    · exact ⟨[], l, rfl, rfl⟩
    · obtain ⟨earlier, later, rfl, hearlier⟩ := ih hrest
      refine ⟨first :: earlier, later, rfl, ?_⟩
      rw [List.cons_append, definitions, hearlier]
      simp

/-- The enum types among the definitions: those that are registered, were not sent before and are
named by a property. -/
theorem mem_definitions_enum_iff (hnamed : r.EnumsNamed) :
    .enumSchema e ∈ definitions r sent l ↔
      r.findEnum? e.name = some e ∧ e.name ∉ sent ∧ ∃ s ∈ l, s.Names e.name := by
  induction l generalizing sent with
  | nil => simp [definitions]
  | cons s l ih =>
    have hnew : e ∈ newEnums r sent s.properties ↔
        r.findEnum? e.name = some e ∧ e.name ∉ sent ∧ s.Names e.name := mem_newEnums_iff hnamed
    have hname : r.findEnum? e.name = some e →
        (e.name ∈ (newEnums r sent s.properties).map (·.name) ↔
          e ∈ newEnums r sent s.properties) := by
      intro hknown
      refine ⟨fun hmem => ?_, List.mem_map_of_mem⟩
      obtain ⟨e', he', hsame⟩ := List.mem_map.1 hmem
      obtain ⟨hknown', -⟩ := (mem_newEnums_iff hnamed).1 he'
      rw [hsame, hknown] at hknown'
      exact Option.some.inj hknown' ▸ he'
    have hhere : .enumSchema e ∈ (newEnums r sent s.properties).map ControlMessage.enumSchema ↔
        e ∈ newEnums r sent s.properties := by
      simp
    rw [definitions, List.mem_append, hhere, List.mem_cons, ih, List.mem_append,
      List.exists_mem_cons_iff]
    constructor
    · rintro (hmem | hsame | ⟨hknown, hfresh, hlater⟩)
      · obtain ⟨hknown, hfresh, hnames⟩ := hnew.1 hmem
        exact ⟨hknown, hfresh, .inl hnames⟩
      · cases hsame
      · exact ⟨hknown, fun hsent => hfresh (.inl hsent), .inr hlater⟩
    · rintro ⟨hknown, hfresh, hany⟩
      -- Either it goes before the first struct type, or this one does not name it.
      by_cases hmem : e ∈ newEnums r sent s.properties
      · exact .inl hmem
      · refine .inr (.inr ⟨hknown, ?_, ?_⟩)
        · rintro (hsent | hsent)
          · exact hfresh hsent
          · exact hmem ((hname hknown).1 hsent)
        · exact hany.resolve_left fun hnames => hmem (hnew.2 ⟨hknown, hfresh, hnames⟩)

/-- After an enum type among the definitions comes the struct type before which it was sent. -/
theorem next_of_suffix_definitions (hnamed : r.EnumsNamed) {rest : List ControlMessage}
    (h : .enumSchema e :: rest <:+ definitions r sent l) :
    ∃ s, rest.findSome? (·.struct?) = some s ∧ s.Names e.name := by
  induction l generalizing sent with
  | nil => simp [definitions] at h
  | cons s l ih =>
    -- It is one of the enum types just before the first struct type, or comes after that.
    have hfirst : ∀ (enums : List EnumSchema) (after : List ControlMessage),
        (∀ e ∈ enums, s.Names e.name) →
        .enumSchema e :: rest <:+ enums.map .enumSchema ++ .structSchema s :: after →
        .enumSchema e :: rest <:+ after ∨
          rest.findSome? (·.struct?) = some s ∧ s.Names e.name := by
      intro enums after henums hsuffix
      induction enums with
      | nil => exact .inl ((List.suffix_cons_iff.1 hsuffix).resolve_left (by simp))
      | cons e' enums ih =>
        rcases List.suffix_cons_iff.1 hsuffix with heq | hsuffix
        · obtain ⟨hsame, hrest⟩ := List.cons.inj heq
          obtain rfl := ControlMessage.enumSchema.inj hsame
          refine .inr ⟨?_, henums e List.mem_cons_self⟩
          exact (congrArg _ hrest).trans (findSome?_struct?_enums_append enums _)
        · exact ih (fun e he => henums e (List.mem_cons_of_mem _ he)) hsuffix
    rcases hfirst _ _ (fun e he => ((mem_newEnums_iff hnamed).1 he).2.2) h with
      hlater | ⟨hnext, hnames⟩
    · exact ih hlater
    · exact ⟨s, hnext, hnames⟩

/-! ## The reply -/

theorem mem_reply_iff_of_defines {message : ControlMessage} {whitelist blacklist : List String}
    (hdefines : message.Defines) : message ∈ reply r whitelist blacklist ↔
      message ∈ definitions r [] (selected r whitelist blacklist) := by
  rw [reply, List.mem_append, List.mem_singleton]
  refine or_iff_left ?_
  rintro rfl
  obtain ⟨s, hs⟩ | ⟨e, he⟩ := hdefines
  · cases hs
  · cases he

/-- The mark of the end comes after all definitions. -/
theorem eq_concat_of_reply {message : ControlMessage} {before rest : List ControlMessage}
    {whitelist blacklist : List String} (hdefines : message.Defines)
    (h : reply r whitelist blacklist = before ++ message :: rest) :
    ∃ rest', rest = rest' ++ [.endOfDiscovery] ∧
      definitions r [] (selected r whitelist blacklist) = before ++ message :: rest' := by
  rcases List.eq_nil_or_concat rest with rfl | ⟨rest', last, rfl⟩
  · -- The mark of the end defines nothing.
    obtain ⟨-, hlast⟩ := List.append_inj' h rfl
    obtain rfl := (List.cons.inj hlast).1
    obtain ⟨s, hs⟩ | ⟨e, he⟩ := hdefines
    · cases hs
    · cases he
  · rw [List.concat_eq_append, ← List.cons_append, ← List.append_assoc] at h
    obtain ⟨hdefinitions, hlast⟩ := List.append_inj' h rfl
    exact ⟨rest', by rw [List.concat_eq_append, hlast], hdefinitions⟩

/-- The reply to a discovery answers it. -/
theorem answers_reply (hwf : r.WellFormed) (hnamed : r.EnumsNamed)
    (whitelist blacklist : Option (List String)) :
    Answers r whitelist blacklist (reply r (whitelist.getD []) (blacklist.getD [])) where
  structs s := by
    rw [mem_reply_iff_of_defines (.inl ⟨s, rfl⟩), mem_definitions_struct_iff, mem_selected_iff hwf]
  ordered := by
    rw [reply, List.filterMap_append, filterMap_struct?_definitions]
    simpa [ControlMessage.struct?, ControlMessage.endOfDiscovery] using
      pairwise_selected hwf (whitelist.getD []) (blacklist.getD [])
  enums e rest h := by
    obtain ⟨before, hreply⟩ := h
    obtain ⟨rest', rfl, hdefinitions⟩ := eq_concat_of_reply (.inr ⟨e, rfl⟩) hreply.symm
    have hmem : .enumSchema e ∈
        definitions r [] (selected r (whitelist.getD []) (blacklist.getD [])) := by
      rw [hdefinitions]
      simp
    obtain ⟨hknown, -⟩ := (mem_definitions_enum_iff hnamed).1 hmem
    obtain ⟨s, hnext, hnames⟩ :=
      next_of_suffix_definitions hnamed ⟨before, hdefinitions.symm⟩
    exact ⟨hknown, s, by rw [List.findSome?_append, hnext, Option.some_or], hnames⟩
  distinct := by
    rw [reply, List.filterMap_append]
    simpa [ControlMessage.enum?, ControlMessage.endOfDiscovery] using
      (nodup_definitions hnamed [] (selected r (whitelist.getD []) (blacklist.getD []))).1
  ended := ⟨_, rfl, fun _ => defines_of_mem_definitions⟩

/-- The enum types that come before a struct type in a reply are those that are registered and that
this struct type, or one that comes before it, names. -/
theorem mem_before_iff (hnamed : r.EnumsNamed) {whitelist blacklist : List String}
    {before after : List ControlMessage}
    (h : reply r whitelist blacklist = before ++ .structSchema s :: after) :
    .enumSchema e ∈ before ↔ r.findEnum? e.name = some e ∧
      ∃ s', (s' = s ∨ .structSchema s' ∈ before) ∧ s'.Names e.name := by
  obtain ⟨after', -, hdefinitions⟩ := eq_concat_of_reply (.inl ⟨s, rfl⟩) h
  obtain ⟨earlier, later, -, hearlier⟩ := definitions_split hdefinitions
  have henum : .enumSchema e ∈ before ↔ .enumSchema e ∈ definitions r [] (earlier ++ [s]) := by
    simp [hearlier]
  have hstruct : ∀ s', s' ∈ earlier ++ [s] ↔ s' = s ∨ .structSchema s' ∈ before := by
    intro s'
    have hmem : .structSchema s' ∈ definitions r [] (earlier ++ [s]) ↔ s' ∈ earlier ++ [s] :=
      mem_definitions_struct_iff
    rw [← hmem, hearlier]
    simp [or_comm]
  rw [henum, mem_definitions_enum_iff hnamed]
  simp only [hstruct, List.not_mem_nil, not_false_eq_true, true_and]

end Discovery

end ObjectBus
