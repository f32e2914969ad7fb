import Mathlib.Algebra.Group.Int.Defs
import Mathlib.Data.Nat.Basic
import ObjectBus.Proofs.SortedMap
import ObjectBus.Proofs.Time.Reader
import ObjectBus.Wire.Basic

/-!
# Values read back from their bytes

A layout has no marks between its parts, so a reader has to stop exactly where the writer did.
`Decoder.Takes` says that a reader takes given bytes off the front of its input, whatever
follows them, and makes a given value of them. Readers that are put together take the bytes of
their parts one after the other (`Takes.bind`).

`LawfulWire` collects the types whose reader takes what their writer writes. The lengths of
texts and sequences are announced in words of sixty-four bits, so `Takes` speaks only of byte
sequences that are shorter than that.
-/

namespace ObjectBus

/-! ## Readers that take given bytes -/

namespace Decoder

variable {α β : Type} {r : Decoder α} {f : α → Decoder β} {bs cs : List UInt8} {a : α} {b : β}

/-- The reader takes these bytes off the front of its input and makes this value of them, as
long as there are no more of them than a word can count. -/
def Takes (r : Decoder α) (bs : List UInt8) (a : α) : Prop :=
  bs.length < UInt64.size → ∀ rest, r.run (bs ++ rest) = .ok (a, rest)

namespace Takes

theorem pure (a : α) : Takes (Pure.pure a) [] a := fun _ _ => rfl

/-- Two readers one after the other take their bytes one after the other. -/
theorem bind (hr : r.Takes bs a) (hf : (f a).Takes cs b) : (r >>= f).Takes (bs ++ cs) b := by
  intro hsize rest
  rw [List.length_append] at hsize
  rw [StateT.run_bind, List.append_assoc, hr (by omega)]
  exact hf (by omega) rest

/-- What comes after the last byte only looks at what was read. -/
theorem finish (hr : r.Takes bs a) (hf : (f a).Takes [] b) : (r >>= f).Takes bs b := by
  rw [← List.append_nil bs]
  exact hr.bind hf

theorem map (g : α → β) (hr : r.Takes bs a) : (g <$> r).Takes bs (g a) := by
  intro hsize rest
  rw [StateT.run_map, hr hsize]
  rfl

end Takes

end Decoder

open Decoder

/-- Types whose values are read back from the bytes that were written for them. -/
class LawfulWire (α : Type) [Wire α] : Prop where
  /-- The reader takes what the writer wrote. -/
  takes : ∀ a : α, Takes Wire.read (Wire.write a) a
  /-- Every value has at least one byte. -/
  write_ne_nil : ∀ a : α, Wire.write a ≠ []

namespace Wire

open LawfulWire

variable {α β : Type}

/-! ## Numbers -/

theorem takes_readByte (b : UInt8) : Takes readByte [b] b := fun _ _ => rfl

theorem writeNat_of_lt {n : Nat} (h : n < 128) : writeNat n = [UInt8.ofNat n] := by
  rw [writeNat, if_pos h]

theorem writeNat_ne_nil (n : Nat) : writeNat n ≠ [] := by
  rw [writeNat]
  split <;> simp

/-- A number is read back from its groups of seven bits if it has no more of them than the
reader takes. -/
theorem takes_readGroups {left n : Nat} (h : n < 128 ^ left) (hleft : 0 < left) :
    Takes (readGroups left) (writeNat n) n := by
  induction left generalizing n with
  | zero => exact absurd hleft (by decide)
  | succ left ih =>
    rw [writeNat]
    split
    · rename_i hsmall
      have hbyte : (UInt8.ofNat n).toNat = n :=
        UInt8.toNat_ofNat_of_lt' (show n < 256 by omega)
      refine (takes_readByte _).finish ?_
      rw [hbyte, if_pos hsmall]
      exact .pure n
    · rename_i hlarge
      -- The high bit says that more groups follow, and it is taken off again.
      have hbyte : (UInt8.ofNat (n % 128 + 128)).toNat = n % 128 + 128 :=
        UInt8.toNat_ofNat_of_lt' (show n % 128 + 128 < 256 by omega)
      have hhigh : n / 128 < 128 ^ left := by
        rw [Nat.pow_succ] at h
        exact Nat.div_lt_of_lt_mul (by rwa [Nat.mul_comm])
      have hmore : 0 < left := by
        rcases Nat.eq_zero_or_pos left with rfl | hpos
        · omega
        · exact hpos
      have hvalue : n % 128 + 128 - 128 + 128 * (n / 128) = n := by omega
      refine (takes_readByte _).bind (?_ : Takes _ (writeNat (n / 128)) n)
      rw [hbyte, if_neg (by omega)]
      refine (ih hhigh hmore).finish ?_
      rw [hvalue]
      exact .pure n

/-- A number is read back by a reader of words that it fits. -/
theorem takes_readNat (width : Nat) {n : Nat} (hwidth : 0 < width) (h : n < 2 ^ width) :
    Takes (readNat width) (writeNat n) n := by
  have hgroups : n < 128 ^ ((width + 6) / 7) := by
    calc n < 2 ^ width := h
      _ ≤ 2 ^ (7 * ((width + 6) / 7)) := Nat.pow_le_pow_right (by decide) (by omega)
      _ = 128 ^ ((width + 6) / 7) := by rw [Nat.pow_mul]
  refine (takes_readGroups hgroups (by omega)).finish ?_
  rw [if_pos (show n < Nat.pow 2 width from h)]
  exact .pure n

/-- The number of an alternative takes one byte, and its fields follow. -/
theorem takes_alternative {k : Nat} {f : Nat → Decoder α} {cs : List UInt8} {a : α}
    (hk : k < 128) (hf : Takes (f k) cs a) :
    Takes (readNat 32 >>= f) (UInt8.ofNat k :: cs) a := by
  have hindex : Takes (readNat 32) [UInt8.ofNat k] k := by
    rw [← writeNat_of_lt hk]
    exact takes_readNat _ (by decide) (by omega)
  exact hindex.bind hf

/-- Folding a signed number can be undone. -/
theorem unfold_fold (n : Int) : unfold (fold n) = n := by
  unfold unfold fold
  split <;> split <;> omega

theorem fold_lt {n : Int} (width : Nat) (hlow : -2 ^ width ≤ n) (hhigh : n < 2 ^ width) :
    fold n < 2 ^ (width + 1) := by
  have hpow : (2 : Int) ^ width = ((2 ^ width : Nat) : Int) := by simp
  rw [hpow] at hlow hhigh
  rw [Nat.pow_succ]
  unfold fold
  split <;> omega

theorem length_writeFixed (left n : Nat) : (writeFixed left n).length = left := by
  induction left generalizing n with
  | zero => rfl
  | succ left ih => rw [writeFixed, List.length_cons, ih]

/-- The bytes of a number stand for it if there are enough of them. -/
theorem fixedValue_writeFixed {left n : Nat} (h : n < 256 ^ left) :
    fixedValue (writeFixed left n) = n := by
  induction left generalizing n with
  | zero =>
    have : n = 0 := by simpa using h
    rw [this, writeFixed, fixedValue]
  | succ left ih =>
    have hbyte : (UInt8.ofNat (n % 256)).toNat = n % 256 :=
      UInt8.toNat_ofNat_of_lt' (show n % 256 < 256 by omega)
    have hhigh : n / 256 < 256 ^ left := by
      rw [Nat.pow_succ] at h
      exact Nat.div_lt_of_lt_mul (by rwa [Nat.mul_comm])
    rw [writeFixed, fixedValue, hbyte, ih hhigh]
    omega

theorem takes_readBytes {n : Nat} {bs : List UInt8} (h : bs.length = n) :
    Takes (readBytes n) bs bs := by
  intro _ rest
  have htake : (bs ++ rest).take n = bs := List.take_left' h
  have hdrop : (bs ++ rest).drop n = rest := List.drop_left' h
  simp only [StateT.run, readBytes, htake, hdrop, h, Nat.lt_irrefl, if_false]

instance : LawfulWire UInt8 where
  takes b := takes_readByte b
  write_ne_nil _ := by simp [write]

instance : LawfulWire UInt32 where
  takes n := by
    have h := (takes_readNat 32 (by decide) n.toNat_lt).map UInt32.ofNat
    rwa [UInt32.ofNat_toNat] at h
  write_ne_nil n := writeNat_ne_nil n.toNat

instance : LawfulWire UInt64 where
  takes n := by
    have h := (takes_readNat 64 (by decide) n.toNat_lt).map UInt64.ofNat
    rwa [UInt64.ofNat_toNat] at h
  write_ne_nil n := writeNat_ne_nil n.toNat

instance : LawfulWire Int32 where
  takes n := by
    have h := (takes_readNat 32 (by decide)
      (fold_lt 31 n.le_toInt n.toInt_lt)).map fun n => Int32.ofInt (unfold n)
    rwa [unfold_fold, Int32.ofInt_toInt] at h
  write_ne_nil n := writeNat_ne_nil (fold n.toInt)

instance : LawfulWire Int64 where
  takes n := by
    have h := (takes_readNat 64 (by decide)
      (fold_lt 63 n.le_toInt n.toInt_lt)).map fun n => Int64.ofInt (unfold n)
    rwa [unfold_fold, Int64.ofInt_toInt] at h
  write_ne_nil n := writeNat_ne_nil (fold n.toInt)

instance : LawfulWire Binary64 where
  takes x := by
    have h := (takes_readBytes (length_writeFixed 8 x.bits.toNat)).map
      fun bs => (⟨UInt64.ofNat (fixedValue bs)⟩ : Binary64)
    rwa [fixedValue_writeFixed (by exact x.bits.toNat_lt), UInt64.ofNat_toNat] at h
  write_ne_nil _ := by simp [write, writeFixed]

instance : LawfulWire Bool where
  takes b := by
    cases b with
    | false => exact (takes_readByte 0).finish (.pure false)
    | true => exact (takes_readByte 1).finish (.pure true)
  write_ne_nil _ := by simp [write]

/-! ## Texts and sequences -/

/-- A text is read back from its bytes in UTF-8. -/
theorem ofUtf8?_utf8 (s : String) : ofUtf8? (utf8 s) = some s := by
  have hbytes : (⟨(utf8 s).toArray⟩ : ByteArray) = s.toByteArray := by
    simp [utf8]
  rw [ofUtf8?, hbytes]
  simp [String.fromUTF8?, String.fromUTF8, s.isValidUTF8]

instance : LawfulWire String where
  takes s := by
    intro hsize
    have hlength : (utf8 s).length < 2 ^ 64 := by
      have : (write s).length = (writeNat (utf8 s).length).length + (utf8 s).length :=
        List.length_append
      simp only [UInt64.size] at hsize
      omega
    refine (takes_readNat _ (by decide) hlength).bind ((takes_readBytes rfl).finish ?_) hsize
    rw [ofUtf8?_utf8]
    exact .pure s
  write_ne_nil s := List.append_ne_nil_of_left_ne_nil (writeNat_ne_nil _) _

section Composite

variable [Wire α] [LawfulWire α] [Wire β] [LawfulWire β]

theorem length_le_length_flatMap_write (items : List α) :
    items.length ≤ (items.flatMap write).length := by
  induction items with
  | nil => simp
  | cons a rest ih =>
    have := List.length_pos_iff.2 (write_ne_nil a)
    simp only [List.flatMap_cons, List.length_append, List.length_cons]
    omega

/-- Values are read back one after the other. -/
theorem takes_readMany (items : List α) :
    Takes (readMany read items.length) (items.flatMap write) items := by
  induction items with
  | nil => exact .pure []
  | cons a rest ih => exact (takes a).bind (ih.finish (.pure (a :: rest)))

instance : LawfulWire (List α) where
  takes items := by
    intro hsize
    have hlength : items.length < 2 ^ 64 := by
      have hcount := length_le_length_flatMap_write items
      have : (write items).length =
          (writeNat items.length).length + (items.flatMap write).length := List.length_append
      simp only [UInt64.size] at hsize
      omega
    exact (takes_readNat _ (by decide) hlength).bind (takes_readMany items) hsize
  write_ne_nil items := List.append_ne_nil_of_left_ne_nil (writeNat_ne_nil _) _

instance : LawfulWire (Option α) where
  takes o := by
    cases o with
    | none => exact (takes_readByte 0).finish (.pure none)
    | some a => exact (takes_readByte 1).bind ((takes a).map some)
  write_ne_nil o := by
    cases o <;> simp [write]

instance : LawfulWire (α × β) where
  takes p := (takes p.1).bind ((takes p.2).finish (.pure p))
  write_ne_nil p := List.append_ne_nil_of_left_ne_nil (write_ne_nil p.1) _

end Composite

/-! ## Property values -/

instance : LawfulWire Instant where
  takes t := by
    refine (takes t.wireText).finish ?_
    rw [Instant.ofWireText?_wireText]
    exact .pure t
  write_ne_nil t := write_ne_nil t.wireText

instance : LawfulWire PropertySet where
  takes s := by
    have h := (takes_readNat 32 (by decide) s.bits.isLt).map
      fun n => (⟨BitVec.ofNat 32 n⟩ : PropertySet)
    rwa [BitVec.ofNat_toNat, BitVec.setWidth_eq] at h
  write_ne_nil s := writeNat_ne_nil s.bits.toNat

/-- A reader that is given as many steps as there are bytes takes what it takes with any
number of steps that suffices. -/
theorem takes_of_fuel {r : Nat → Decoder α} {bs : List UInt8} {a : α}
    (h : ∀ fuel, bs.length ≤ fuel → Takes (r fuel) bs a) :
    Takes (do r ((← get).length + 1)) bs a := by
  intro hsize rest
  refine h ((bs ++ rest).length + 1) ?_ hsize rest
  rw [List.length_append]
  omega

theorem two_le_length_writeValue (v : Value) : 2 ≤ (writeValue v).length := by
  have hrest : ∀ {bs : List UInt8}, bs ≠ [] → ∀ b, 2 ≤ (b :: bs).length := by
    intro bs h b
    have := List.length_pos_iff.2 h
    rw [List.length_cons]
    omega
  cases v with
  | bool b => exact hrest (write_ne_nil b) _
  | int n => exact hrest (write_ne_nil n) _
  | uint n => exact hrest (write_ne_nil n) _
  | float x => exact hrest (write_ne_nil x) _
  | str s => exact hrest (write_ne_nil s) _
  | bytes bs => exact hrest (write_ne_nil bs) _
  | time t => exact hrest (write_ne_nil t) _
  | enumerator n => exact hrest (write_ne_nil n) _
  | list items => exact hrest (List.append_ne_nil_of_left_ne_nil (writeNat_ne_nil _) _) _

theorem length_le_length_writeValues (items : List Value) :
    items.length ≤ (writeValues items).length := by
  induction items with
  | nil => simp
  | cons v rest ih =>
    have := two_le_length_writeValue v
    simp only [writeValues, List.length_append, List.length_cons]
    omega

mutual

/-- A value is read back with as many steps as it has bytes. The step for the value itself is
paid by its number, so one step less suffices. -/
theorem takes_readValueWithin (v : Value) (fuel : Nat) (h : (writeValue v).length ≤ fuel + 1) :
    Takes (readValueWithin fuel) (writeValue v) v := by
  have htwo := two_le_length_writeValue v
  cases fuel with
  | zero => omega
  | succ fuel =>
    cases v with
    | bool b => exact takes_alternative (k := 0) (by decide) ((takes b).map Value.bool)
    | int n => exact takes_alternative (k := 1) (by decide) ((takes n).map Value.int)
    | uint n => exact takes_alternative (k := 2) (by decide) ((takes n).map Value.uint)
    | float x => exact takes_alternative (k := 3) (by decide) ((takes x).map Value.float)
    | str s => exact takes_alternative (k := 4) (by decide) ((takes s).map Value.str)
    | bytes bs => exact takes_alternative (k := 5) (by decide) ((takes bs).map Value.bytes)
    | time t => exact takes_alternative (k := 6) (by decide) ((takes t).map Value.time)
    | enumerator n => exact takes_alternative (k := 7) (by decide) ((takes n).map Value.enumerator)
    | list items =>
      intro hsize
      have hbytes : (writeValue (.list items)).length =
          (writeNat items.length).length + (writeValues items).length + 1 := by
        rw [writeValue, List.cons_append, List.length_cons, List.length_append]
      -- Every value has a byte, so that there are no more values than the frame has bytes.
      have hcount : items.length < 2 ^ 64 := by
        have := length_le_length_writeValues items
        simp only [UInt64.size] at hsize
        omega
      have hitems := takes_readValuesWithin items fuel (by
        have := List.length_pos_iff.2 (writeNat_ne_nil items.length)
        omega)
      exact takes_alternative (k := 8) (by decide)
        ((takes_readNat _ (by decide) hcount).bind (hitems.map Value.list)) hsize

/-- Values are read back one after the other. -/
theorem takes_readValuesWithin (items : List Value) (fuel : Nat)
    (h : (writeValues items).length ≤ fuel) :
    Takes (readValuesWithin fuel items.length) (writeValues items) items := by
  cases items with
  | nil =>
    cases fuel with
    | zero => exact .pure []
    | succ fuel => exact .pure []
  | cons v rest =>
    have htwo := two_le_length_writeValue v
    rw [writeValues, List.length_append] at h
    cases fuel with
    | zero => omega
    | succ fuel =>
      exact (takes_readValueWithin v fuel (by omega)).bind
        ((takes_readValuesWithin rest fuel (by omega)).finish (.pure (v :: rest)))

end

instance : LawfulWire Value where
  takes v := takes_of_fuel fun fuel h => takes_readValueWithin v fuel (Nat.le_succ_of_le h)
  write_ne_nil v := List.ne_nil_of_length_pos
    (Nat.lt_of_lt_of_le (by decide) (two_le_length_writeValue v))

instance : LawfulWire Object where
  takes o := by
    refine (takes o.typeName).bind ((takes o.values.toList).finish ?_)
    rw [SortedMap.ofList_toList]
    exact .pure o
  write_ne_nil o := List.append_ne_nil_of_left_ne_nil (write_ne_nil o.typeName) _

end Wire

end ObjectBus
