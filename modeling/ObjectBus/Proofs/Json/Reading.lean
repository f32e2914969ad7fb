import ObjectBus.Json.Tree

/-!
# What a reader takes of a JSON text

Two facts about the readers of JSON texts, for texts of any kind. They are given fuel, of which a
unit for each character is enough. And they have no use for a carriage return at the end of a text,
so a line says the same however its end is written.

* `Tree.SettledWith`, `Tree.settled`: what is read, is read with a unit of fuel for each character
  taken; `Tree.readValue_eq_of_length_le` follows;
* `Tree.LeavesReturn`, `Tree.leavesReturn`: each reader leaves a carriage return at the end there;
* `Tree.ofText?_append_return`: a text says the same with a carriage return at its end.
-/

namespace ObjectBus.Json.Tree

/-- A reader that changes what another one has read leaves what that one leaves. -/
theorem exists_of_map_eq_some {α β : Type} {result : Option (α × List Char)} {f : α → β} {b : β}
    {rest : List Char} (h : (result.map fun r => (f r.1, r.2)) = some (b, rest)) :
    ∃ a, result = some (a, rest) ∧ f a = b := by
  obtain ⟨⟨a, rest'⟩, hresult, heq⟩ := Option.map_eq_some_iff.1 h
  obtain ⟨hvalue, rfl⟩ := Prod.mk.inj heq
  exact ⟨a, hresult, hvalue⟩

/-! ## What is taken of a text -/

theorem length_skipBlanks_le (cs : List Char) : (skipBlanks cs).length ≤ cs.length :=
  (List.dropWhile_suffix _).length_le

theorem length_lt_of_skipBlanks {c : Char} {cs others : List Char}
    (h : skipBlanks cs = c :: others) : others.length < cs.length := by
  have hle := length_skipBlanks_le cs
  rwa [h, List.length_cons] at hle

theorem length_of_readUnits {done us : List Nat} {cs rest : List Char}
    (h : readUnits done cs = some (us, rest)) : rest.length < cs.length := by
  fun_induction readUnits done cs with
  | case1 => cases h
  | case2 =>
    cases h
    simp
  | case3 done a b c d others _ _ _ _ _ _ _ _ ih =>
    have := ih h
    simp only [List.length_cons]
    omega
  | case4 => cases h
  | case5 done c others _ _ _ ih =>
    have := ih h
    simp only [List.length_cons]
    omega
  | case6 => cases h
  | case7 => cases h
  | case8 done c others _ _ _ _ ih =>
    have := ih h
    simp only [List.length_cons]
    omega

theorem length_of_readString {s : Option String} {cs rest : List Char}
    (h : readString cs = some (s, rest)) : rest.length < cs.length := by
  obtain ⟨⟨us, rest'⟩, hunits, heq⟩ := Option.map_eq_some_iff.1 h
  obtain rfl : rest' = rest := congrArg Prod.snd heq
  exact length_of_readUnits hunits

theorem length_leadingDigits_le (cs : List Char) : (leadingDigits cs).length ≤ cs.length := by
  rw [leadingDigits, List.length_map]
  exact (List.takeWhile_prefix _).length_le

theorem length_of_readDigits {ds : List Nat} {cs rest : List Char}
    (h : readDigits cs = some (ds, rest)) : rest.length < cs.length := by
  have hle := length_leadingDigits_le cs
  simp only [readDigits] at h
  split at h
  · cases h
  · rename_i hsome
    cases h
    have hpos := List.length_pos_iff.2 fun hnil => hsome (List.isEmpty_iff.2 hnil)
    rw [List.length_drop]
    omega

theorem length_of_readExponent {e : Option (Bool × List Nat)} {cs rest : List Char}
    (h : readExponent cs = some (e, rest)) : rest.length ≤ cs.length := by
  unfold readExponent at h
  split at h
  · rename_i c others
    split at h
    · obtain ⟨⟨ds, rest'⟩, hdigits, heq⟩ := Option.map_eq_some_iff.1 h
      obtain rfl : rest' = rest := congrArg Prod.snd heq
      have hlt := length_of_readDigits hdigits
      rw [List.length_cons]
      revert hlt
      split <;> simp only [List.length_cons] <;> omega
    · cases h
      exact Nat.le_refl _
  · cases h
    exact Nat.le_refl _

theorem length_of_readNumeral {negative : Bool} {n : Numeral} {cs rest : List Char}
    (h : readNumeral negative cs = some (n, rest)) : rest.length < cs.length := by
  rw [readNumeral] at h
  obtain ⟨⟨whole, behindWhole⟩, hwhole, h⟩ := Option.bind_eq_some_iff.1 h
  have hlt := length_of_readDigits hwhole
  simp only at h
  split at h
  · cases h
  · -- The fraction is there or not, and an exponent may follow either way.
    have hrest : ∀ {fraction : Option (List Nat)} {behind : List Char},
        ((readExponent behind).bind fun e => some (⟨negative, whole, fraction, e.1⟩, e.2)) =
          some (n, rest) → rest.length ≤ behind.length := by
      intro fraction behind h
      obtain ⟨⟨exponent, behindExponent⟩, hexponent, h⟩ := Option.bind_eq_some_iff.1 h
      cases h
      exact length_of_readExponent hexponent
    split at h
    · obtain ⟨⟨fraction, behind⟩, hfraction, h⟩ := Option.bind_eq_some_iff.1 h
      obtain ⟨ds, hdigits, -⟩ := exists_of_map_eq_some hfraction
      have hle : rest.length ≤ behind.length := hrest h
      have hpoint := length_of_readDigits hdigits
      rw [List.length_cons] at hlt
      omega
    · exact Nat.lt_of_le_of_lt (hrest h) hlt

/-! ## How much fuel a reader needs -/

/-- With this fuel, whatever is read takes at least one character, and it is read as well with any
fuel that has a unit for each character taken. -/
def SettledWith {α : Type} (read : Nat → List Char → Option (α × List Char)) (fuel : Nat) : Prop :=
  ∀ {cs rest : List Char} {a : α}, read fuel cs = some (a, rest) →
    rest.length < cs.length ∧ ∀ more, cs.length ≤ more + rest.length → read more cs = some (a, rest)

/-- A bracket pays for the step to the reader behind it. -/
theorem SettledWith.behindBracket {α : Type} {read : Nat → List Char → Option (α × List Char)}
    {fuel : Nat} (h : SettledWith read fuel) {cs rest : List Char} {a : α}
    (hread : read fuel (skipBlanks cs) = some (a, rest)) (bracket : Char) :
    rest.length < (bracket :: cs).length ∧
      ∀ more, (bracket :: cs).length ≤ more + 1 + rest.length →
        read more (skipBlanks cs) = some (a, rest) := by
  obtain ⟨hlt, hmore⟩ := h hread
  have hblanks := length_skipBlanks_le cs
  simp only [List.length_cons]
  exact ⟨by omega, fun more hfuel => hmore more (by omega)⟩

theorem settled_readValue {fuel : Nat} (hitems : SettledWith readItems fuel)
    (hmembers : SettledWith readMembers fuel) : SettledWith readValue (fuel + 1) := by
  intro cs rest t h
  have hblanks := length_skipBlanks_le cs
  suffices hvisible : rest.length < (skipBlanks cs).length ∧
      ∀ more, (skipBlanks cs).length ≤ more + 1 + rest.length →
        readValue (more + 1) cs = some (t, rest) by
    refine ⟨by omega, fun more hmore => ?_⟩
    obtain ⟨more, rfl⟩ := Nat.exists_eq_add_one.2 (show 0 < more by omega)
    exact hvisible.2 more (by omega)
  rw [readValue] at h
  simp only [readValue]
  generalize skipBlanks cs = visible at h ⊢
  split at h
  -- The three words need no more fuel than they have.
  · cases h
    exact ⟨by simp only [List.length_cons]; omega, fun _ _ => rfl⟩
  · cases h
    exact ⟨by simp only [List.length_cons]; omega, fun _ _ => rfl⟩
  · cases h
    exact ⟨by simp only [List.length_cons]; omega, fun _ _ => rfl⟩
  -- Texts and numbers are read without fuel.
  · obtain ⟨s, hread, rfl⟩ := exists_of_map_eq_some h
    exact ⟨Nat.lt_succ_of_lt (length_of_readString hread), fun _ _ => h⟩
  · obtain ⟨n, hread, rfl⟩ := exists_of_map_eq_some h
    exact ⟨Nat.lt_succ_of_lt (length_of_readNumeral hread), fun _ _ => h⟩
  -- Arrays and objects are empty, or what is in them is read.
  · split at h
    · rename_i behind hclose
      cases h
      exact ⟨Nat.lt_succ_of_lt (length_lt_of_skipBlanks hclose), fun _ _ => rfl⟩
    · obtain ⟨parts, hread, rfl⟩ := exists_of_map_eq_some h
      obtain ⟨hlt, hmore⟩ := hitems.behindBracket hread _
      refine ⟨hlt, fun more hfuel => ?_⟩
      simp only [hmore more hfuel]
      rfl
  · split at h
    · rename_i behind hclose
      cases h
      exact ⟨Nat.lt_succ_of_lt (length_lt_of_skipBlanks hclose), fun _ _ => rfl⟩
    · obtain ⟨parts, hread, rfl⟩ := exists_of_map_eq_some h
      obtain ⟨hlt, hmore⟩ := hmembers.behindBracket hread _
      refine ⟨hlt, fun more hfuel => ?_⟩
      simp only [hmore more hfuel]
      rfl
  · obtain ⟨n, hread, rfl⟩ := exists_of_map_eq_some h
    refine ⟨length_of_readNumeral hread, fun _ _ => ?_⟩
    simp only [hread]
    rfl

theorem settled_readItems {fuel : Nat} (hvalue : SettledWith readValue fuel)
    (hitems : SettledWith readItems fuel) : SettledWith readItems (fuel + 1) := by
  intro cs rest ts h
  rw [readItems] at h
  split at h
  · cases h
  · rename_i item behind hread
    obtain ⟨hlt, hmore⟩ := hvalue hread
    split at h
    · rename_i others hcomma
      obtain ⟨ts', hothers, rfl⟩ := exists_of_map_eq_some h
      obtain ⟨hlt', hmore'⟩ := hitems hothers
      have hskip := length_lt_of_skipBlanks hcomma
      refine ⟨by omega, fun more hfuel => ?_⟩
      obtain ⟨more, rfl⟩ := Nat.exists_eq_add_one.2 (show 0 < more by omega)
      rw [readItems, hmore more (by omega)]
      simp only [hcomma, hmore' more (by omega)]
      rfl
    · rename_i others hclose
      cases h
      have hskip := length_lt_of_skipBlanks hclose
      refine ⟨by omega, fun more hfuel => ?_⟩
      obtain ⟨more, rfl⟩ := Nat.exists_eq_add_one.2 (show 0 < more by omega)
      rw [readItems, hmore more (by omega)]
      simp only [hclose]
    · cases h

theorem settled_readMembers {fuel : Nat} (hvalue : SettledWith readValue fuel)
    (hmembers : SettledWith readMembers fuel) : SettledWith readMembers (fuel + 1) := by
  intro cs rest ps h
  rw [readMembers] at h
  split at h
  · rename_i behindQuote hquote
    have hskipQuote := length_lt_of_skipBlanks hquote
    split at h
    · cases h
    · rename_i key behindKey hkey
      have hkeyLength := length_of_readString hkey
      split at h
      · rename_i behindColon hcolon
        have hskipKey := length_lt_of_skipBlanks hcolon
        split at h
        · cases h
        · rename_i value behind hread
          obtain ⟨hlt, hmore⟩ := hvalue hread
          split at h
          · rename_i others hcomma
            obtain ⟨ps', hothers, rfl⟩ := exists_of_map_eq_some h
            obtain ⟨hlt', hmore'⟩ := hmembers hothers
            have hskip := length_lt_of_skipBlanks hcomma
            refine ⟨by omega, fun more hfuel => ?_⟩
            obtain ⟨more, rfl⟩ := Nat.exists_eq_add_one.2 (show 0 < more by omega)
            rw [readMembers]
            simp only [hquote, hkey, hcolon, hmore more (by omega), hcomma, hmore' more (by omega)]
            rfl
          · rename_i others hclose
            cases h
            have hskip := length_lt_of_skipBlanks hclose
            refine ⟨by omega, fun more hfuel => ?_⟩
            obtain ⟨more, rfl⟩ := Nat.exists_eq_add_one.2 (show 0 < more by omega)
            rw [readMembers]
            simp only [hquote, hkey, hcolon, hmore more (by omega), hclose]
          · cases h
      · cases h
  · cases h

/-- However much fuel there is, what is read is read as well with a unit of it for each character
taken. -/
theorem settled (fuel : Nat) : SettledWith readValue fuel ∧ SettledWith readItems fuel ∧
    SettledWith readMembers fuel := by
  induction fuel with
  | zero => refine ⟨?_, ?_, ?_⟩ <;> (intro cs rest a h; cases h)
  | succ fuel ih =>
    obtain ⟨hvalue, hitems, hmembers⟩ := ih
    exact ⟨settled_readValue hitems hmembers, settled_readItems hvalue hitems,
      settled_readMembers hvalue hmembers⟩

/-- Fuel for each character is enough, and more of it changes nothing. -/
theorem readValue_eq_of_length_le {cs : List Char} {fuel more : Nat} (hfuel : cs.length ≤ fuel)
    (hmore : cs.length ≤ more) : readValue fuel cs = readValue more cs := by
  cases hread : readValue fuel cs with
  | some r => exact ((settled fuel).1 hread).2 more (by omega) |>.symm
  | none =>
    cases hread' : readValue more cs with
    | none => rfl
    | some r =>
      rw [((settled more).1 hread').2 fuel (by omega)] at hread
      cases hread

/-! ## A carriage return at the end -/

/-- A reader that has no use for a carriage return at the end of a text: it reads what it reads
without it, and leaves it. -/
def LeavesReturn {α : Type} (read : List Char → Option (α × List Char)) : Prop :=
  ∀ cs, read (cs ++ ['\r']) = (read cs).map fun r => (r.1, r.2 ++ ['\r'])

theorem LeavesReturn.map {α β : Type} {read : List Char → Option (α × List Char)}
    (h : LeavesReturn read) (f : α → β) :
    LeavesReturn fun cs => (read cs).map fun r => (f r.1, r.2) := by
  intro cs
  simp only [h cs, Option.map_map]
  rfl

/-- A text does not start otherwise for a carriage return at its end. -/
theorem append_return_ne {cs rest : List Char} (start : List Char) (hstart : '\r' ∉ start)
    (h : ∀ others, cs = start ++ others → False) : cs ++ ['\r'] ≠ start ++ rest := by
  intro heq
  rcases List.append_eq_append_iff.1 heq with ⟨middle, hmiddle, hreturn⟩ | ⟨middle, hcs, -⟩
  · cases middle with
    | nil => exact h [] (by rw [hmiddle, List.append_nil, List.append_nil])
    | cons c middle =>
      obtain rfl := (List.cons.inj hreturn).1
      exact absurd (hmiddle ▸ List.mem_append_right cs List.mem_cons_self) hstart
  · exact h middle hcs

theorem leavesReturn_readUnits (done : List Nat) : LeavesReturn (readUnits done) := by
  intro cs
  fun_induction readUnits done cs with
  | case1 => rfl
  | case2 => simp [readUnits]
  | case3 done a b c d others _ _ _ _ ha hb hc hd ih =>
    simp only [List.cons_append, readUnits, ha, hb, hc, hd, ih]
  | case4 done a b c d others hnot =>
    simp only [List.cons_append, readUnits]
    rfl
  | case5 done c others hnot d hd ih =>
    have hletter : c ≠ 'u' := by
      rintro rfl
      cases hd
    rw [List.cons_append, List.cons_append, readUnits, hd]
    · exact ih
    · exact fun _ _ _ _ _ hc => absurd hc hletter
  | case6 done c others hnot hnone =>
    -- Three digits may stand in front of the carriage return, which is no fourth one.
    by_cases hthree : ∃ a b d, c = 'u' ∧ others = [a, b, d]
    · obtain ⟨a, b, d, rfl, rfl⟩ := hthree
      have hreturn : hexValue '\r' = none := by decide
      simp [readUnits, hreturn]
    · rw [List.cons_append, List.cons_append, readUnits, hnone]
      · rfl
      · intro a b d e rest hc hothers
        match others, hothers with
        | [x, y, z], _ => exact hthree ⟨x, y, z, hc, rfl⟩
        | x :: y :: z :: w :: others, _ => exact hnot x y z w others hc rfl
  | case7 done c others hquote hfour hslash hcontrol =>
    rcases hcontrol with hlow | rfl
    · have hc : c ≠ '\\' := by
        rintro rfl
        exact absurd hlow (by decide)
      rw [List.cons_append, readUnits, if_pos (.inl hlow)]
      · rfl
      · exact hquote
      · exact fun _ _ _ _ _ hc' => absurd hc' hc
      · exact fun _ _ hc' => absurd hc' hc
    · cases others with
      | nil => rfl
      | cons d others => exact absurd rfl (hslash d others rfl)
  | case8 done c others hquote hfour hslash hplain ih =>
    have hc : ¬c = '\\' := fun hc => hplain (.inr hc)
    rw [List.cons_append, readUnits, if_neg hplain]
    · exact ih
    · exact hquote
    · exact fun _ _ _ _ _ hc' => absurd hc' hc
    · exact fun _ _ hc' => absurd hc' hc

theorem leavesReturn_readString : LeavesReturn readString := by
  intro cs
  rw [readString, readString, leavesReturn_readUnits [] cs, Option.map_map, Option.map_map]
  rfl

theorem leavesReturn_readDigits : LeavesReturn readDigits := by
  intro cs
  have hlead : leadingDigits (cs ++ ['\r']) = leadingDigits cs := by
    rw [leadingDigits, leadingDigits]
    congr 1
    induction cs with
    | nil => rfl
    | cons c cs ih =>
      rw [List.cons_append, List.takeWhile_cons, List.takeWhile_cons, ih]
  simp only [readDigits, hlead]
  split
  · rfl
  · rw [List.drop_append_of_le_length (length_leadingDigits_le cs)]
    rfl

theorem leavesReturn_readExponent : LeavesReturn readExponent := by
  intro cs
  cases cs with
  | nil => rfl
  | cons c cs =>
    simp only [List.cons_append, readExponent]
    split
    · cases cs with
      | nil => rfl
      | cons d cs =>
        by_cases hplus : d = '+'
        · subst hplus
          exact leavesReturn_readDigits.map (fun ds => some (false, ds)) cs
        · by_cases hminus : d = '-'
          · subst hminus
            exact leavesReturn_readDigits.map (fun ds => some (true, ds)) cs
          · have hread := leavesReturn_readDigits.map (fun ds => some (false, ds)) (d :: cs)
            simp only [List.cons_append]
            simpa [hplus, hminus] using hread
    · rfl

theorem leavesReturn_readNumeral (negative : Bool) : LeavesReturn (readNumeral negative) := by
  intro cs
  rw [readNumeral, readNumeral, leavesReturn_readDigits]
  cases hwhole : readDigits cs with
  | none => rfl
  | some r =>
    obtain ⟨whole, behind⟩ := r
    simp only [Option.bind_eq_bind, Option.bind_some, Option.map_some]
    split
    · rfl
    · have hexponent : ∀ (fraction : Option (List Nat)) (cs : List Char),
          ((readExponent (cs ++ ['\r'])).bind fun e =>
            some (Numeral.mk negative whole fraction e.1, e.2)) =
          ((readExponent cs).bind fun e =>
            some (Numeral.mk negative whole fraction e.1, e.2)).map
              fun r => (r.1, r.2 ++ ['\r']) := by
        intro fraction cs
        rw [leavesReturn_readExponent cs]
        cases readExponent cs <;> rfl
      symm
      split
      · rename_i others
        simp only [List.cons_append, leavesReturn_readDigits others]
        cases readDigits others with
        | none => rfl
        | some r => exact (hexponent (some r.1) r.2).symm
      · rename_i hpoint
        split
        · rename_i heq
          exact absurd heq (append_return_ne ['.'] (by decide) hpoint)
        · exact (hexponent none behind).symm

/-- Behind the blanks there is nothing, or there is the carriage return behind everything else. -/
theorem skipBlanks_append_return (cs : List Char) :
    skipBlanks (cs ++ ['\r']) = if skipBlanks cs = [] then [] else skipBlanks cs ++ ['\r'] := by
  induction cs with
  | nil => rfl
  | cons c cs ih =>
    rw [skipBlanks] at ih ⊢
    rw [List.cons_append, List.dropWhile_cons, skipBlanks, List.dropWhile_cons]
    split
    · exact ih
    · rfl

theorem skipBlanks_append_return_of_eq_cons {c : Char} {cs others : List Char}
    (h : skipBlanks cs = c :: others) : skipBlanks (cs ++ ['\r']) = c :: (others ++ ['\r']) := by
  rw [skipBlanks_append_return, h]
  rfl

theorem skipBlanks_append_return_ne {c : Char} {cs : List Char} (hc : c ≠ '\r')
    (h : ∀ others, skipBlanks cs = c :: others → False) {rest : List Char} :
    skipBlanks (cs ++ ['\r']) ≠ c :: rest := by
  intro hrest
  rw [skipBlanks_append_return] at hrest
  split at hrest
  · cases hrest
  · exact append_return_ne [c] (by simpa using hc.symm) h hrest

/-- Of an empty text nothing is read. -/
theorem eq_none_of_settledWith {α : Type} {read : Nat → List Char → Option (α × List Char)}
    {fuel : Nat} (h : SettledWith read fuel) : read fuel [] = none :=
  Option.eq_none_iff_forall_ne_some.2 fun _ hread => Nat.not_lt_zero _ (h hread).1

/-- A reader that goes on behind blanks leaves a carriage return there. -/
theorem LeavesReturn.behindBlanks {α : Type} {read : List Char → Option (α × List Char)}
    (h : LeavesReturn read) (hnil : read [] = none) :
    LeavesReturn fun cs => read (skipBlanks cs) := by
  intro cs
  simp only [skipBlanks_append_return]
  split
  · rename_i hblank
    rw [hblank, hnil]
    rfl
  · exact h _

theorem leavesReturn_readValue {fuel : Nat} (hitems : LeavesReturn (readItems fuel))
    (hmembers : LeavesReturn (readMembers fuel)) : LeavesReturn (readValue (fuel + 1)) := by
  obtain ⟨-, hsettledItems, hsettledMembers⟩ := settled fuel
  have hitems' := (hitems.behindBlanks (eq_none_of_settledWith hsettledItems)).map Tree.array
  have hmembers' :=
    (hmembers.behindBlanks (eq_none_of_settledWith hsettledMembers)).map Tree.object
  intro cs
  rw [readValue, readValue, skipBlanks_append_return]
  by_cases hnil : skipBlanks cs = []
  · rw [if_pos hnil, hnil]
    rfl
  · rw [if_neg hnil]
    generalize skipBlanks cs = visible
    symm
    split
    -- The three words.
    · rfl
    · rfl
    · rfl
    · exact (leavesReturn_readString.map Tree.string _).symm
    · exact ((leavesReturn_readNumeral true).map Tree.number _).symm
    · rename_i others
      rw [List.cons_append]
      simp only
      split
      · rename_i rest hclose
        rw [skipBlanks_append_return_of_eq_cons hclose]
        rfl
      · rename_i hopen
        split
        · rename_i hclose
          exact absurd hclose (skipBlanks_append_return_ne (by decide) hopen)
        · exact (hitems' others).symm
    · rename_i others
      rw [List.cons_append]
      simp only
      split
      · rename_i rest hclose
        rw [skipBlanks_append_return_of_eq_cons hclose]
        rfl
      · rename_i hopen
        split
        · rename_i hclose
          exact absurd hclose (skipBlanks_append_return_ne (by decide) hopen)
        · exact (hmembers' others).symm
    · rename_i hnull htrue hfalse hquote hminus hbracket hbrace
      -- The text is none of these with the carriage return either.
      split
      · rename_i heq
        exact absurd heq (append_return_ne ['n', 'u', 'l', 'l'] (by decide) hnull)
      · rename_i heq
        exact absurd heq (append_return_ne ['t', 'r', 'u', 'e'] (by decide) htrue)
      · rename_i heq
        exact absurd heq (append_return_ne ['f', 'a', 'l', 's', 'e'] (by decide) hfalse)
      · rename_i heq
        exact absurd heq (append_return_ne ['"'] (by decide) hquote)
      · rename_i heq
        exact absurd heq (append_return_ne ['-'] (by decide) hminus)
      · rename_i heq
        exact absurd heq (append_return_ne ['['] (by decide) hbracket)
      · rename_i heq
        exact absurd heq (append_return_ne ['{'] (by decide) hbrace)
      · exact ((leavesReturn_readNumeral false).map Tree.number _).symm

theorem leavesReturn_readItems {fuel : Nat} (hvalue : LeavesReturn (readValue fuel))
    (hitems : LeavesReturn (readItems fuel)) : LeavesReturn (readItems (fuel + 1)) := by
  intro cs
  rw [readItems, readItems, hvalue cs]
  cases readValue fuel cs with
  | none => rfl
  | some r =>
    obtain ⟨item, behind⟩ := r
    simp only [Option.map_some]
    symm
    split
    · rename_i others hcomma
      rw [skipBlanks_append_return_of_eq_cons hcomma]
      exact (hitems.map (item :: ·) others).symm
    · rename_i others hclose
      rw [skipBlanks_append_return_of_eq_cons hclose]
      rfl
    · rename_i hcomma hclose
      split
      · rename_i heq
        exact absurd heq (skipBlanks_append_return_ne (by decide) hcomma)
      · rename_i heq
        exact absurd heq (skipBlanks_append_return_ne (by decide) hclose)
      · rfl

theorem leavesReturn_readMembers {fuel : Nat} (hvalue : LeavesReturn (readValue fuel))
    (hmembers : LeavesReturn (readMembers fuel)) : LeavesReturn (readMembers (fuel + 1)) := by
  intro cs
  rw [readMembers, readMembers]
  symm
  -- What stands at each step stands there with the carriage return, and nothing else does.
  split
  · rename_i behindQuote hquote
    rw [skipBlanks_append_return_of_eq_cons hquote]
    simp only [leavesReturn_readString behindQuote]
    cases readString behindQuote with
    | none => rfl
    | some r =>
      obtain ⟨key, behindKey⟩ := r
      simp only [Option.map_some]
      split
      · rename_i behindColon hcolon
        rw [skipBlanks_append_return_of_eq_cons hcolon]
        simp only [hvalue behindColon]
        cases readValue fuel behindColon with
        | none => rfl
        | some r =>
          obtain ⟨value, behind⟩ := r
          simp only [Option.map_some]
          split
          · rename_i others hcomma
            rw [skipBlanks_append_return_of_eq_cons hcomma]
            exact (hmembers.map ((key, value) :: ·) others).symm
          · rename_i others hclose
            rw [skipBlanks_append_return_of_eq_cons hclose]
            rfl
          · rename_i hcomma hclose
            split
            · rename_i heq
              exact absurd heq (skipBlanks_append_return_ne (by decide) hcomma)
            · rename_i heq
              exact absurd heq (skipBlanks_append_return_ne (by decide) hclose)
            · rfl
      · rename_i hcolon
        split
        · rename_i heq
          exact absurd heq (skipBlanks_append_return_ne (by decide) hcolon)
        · rfl
  · rename_i hquote
    split
    · rename_i heq
      exact absurd heq (skipBlanks_append_return_ne (by decide) hquote)
    · rfl

/-- None of the readers of values has a use for a carriage return at the end. -/
theorem leavesReturn (fuel : Nat) : LeavesReturn (readValue fuel) ∧ LeavesReturn (readItems fuel) ∧
    LeavesReturn (readMembers fuel) := by
  induction fuel with
  | zero => exact ⟨fun _ => rfl, fun _ => rfl, fun _ => rfl⟩
  | succ fuel ih =>
    obtain ⟨hvalue, hitems, hmembers⟩ := ih
    exact ⟨leavesReturn_readValue hitems hmembers, leavesReturn_readItems hvalue hitems,
      leavesReturn_readMembers hvalue hmembers⟩

/-- A text says the same with a carriage return at its end. -/
theorem ofText?_append_return (s : String) : ofText? (s ++ "\r") = ofText? s := by
  have hlist : (s ++ "\r").toList = s.toList ++ ['\r'] := by
    rw [String.toList_append]
    rfl
  have hfuel : readValue (s.toList.length + 1 + 1) s.toList =
      readValue (s.toList.length + 1) s.toList :=
    readValue_eq_of_length_le (by omega) (by omega)
  simp only [ofText?, hlist, List.length_append, List.length_singleton]
  rw [(leavesReturn _).1, hfuel]
  cases readValue (s.toList.length + 1) s.toList with
  | none => rfl
  | some r =>
    simp only [Option.map_some, skipBlanks_append_return]
    by_cases hblank : skipBlanks r.2 = []
    · rw [if_pos hblank, hblank]
    · rw [if_neg hblank]
      simp [hblank]

end ObjectBus.Json.Tree
