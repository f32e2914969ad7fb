import ObjectBus.Proofs.Wire.Basic
import ObjectBus.Wire.Transmission

/-!
# Frames read back

Every transmission is read back from its frame, whatever bytes follow it. Each record and each
alternative on the way has the fields of its reader in the order of its writer, which is all
that its `LawfulWire` instance says; `Transmission.decode_encode_append` puts them together.
-/

namespace ObjectBus

open Decoder LawfulWire

namespace Wire

/-! ## Type definitions -/

/-- A kind is read back with as many steps as it has bytes. -/
theorem takes_readKindWithin (k : ValueKind) (fuel : Nat) (h : (writeKind k).length ≤ fuel) :
    Takes (readKindWithin fuel) (writeKind k) k := by
  induction k generalizing fuel with
  | list item ih =>
    cases fuel with
    | zero => simp [writeKind] at h
    | succ fuel =>
      have hitem : (writeKind item).length ≤ fuel := by
        simpa [writeKind] using h
      exact takes_alternative (k := 8) (by decide) ((ih fuel hitem).map ValueKind.list)
  | enumerator typeName =>
    cases fuel with
    | zero => simp [writeKind] at h
    | succ fuel =>
      exact takes_alternative (k := 7) (by decide) ((takes typeName).map ValueKind.enumerator)
  | bool | int | uint | float | string | bytes | time =>
    cases fuel with
    | zero => simp [writeKind] at h
    | succ fuel => exact takes_alternative (by decide) (.pure _)

instance : LawfulWire ValueKind where
  takes k := takes_of_fuel (takes_readKindWithin k)
  write_ne_nil k := by
    cases k <;> simp [write, writeKind]

instance : LawfulWire StructFlags where
  takes f := by
    change Takes _ (_ ++ _ ++ _ ++ _ ++ _) _
    simp only [List.append_assoc]
    exact (takes f.cached).bind ((takes f.internal).bind ((takes f.cleanup).bind
      ((takes f.localOnly).bind ((takes f.persistent).finish (.pure f)))))
  write_ne_nil f := List.append_ne_nil_of_right_ne_nil _ (write_ne_nil f.persistent)

instance : LawfulWire PropertySchema where
  takes p := by
    change Takes _ (_ ++ _ ++ _ ++ _) _
    simp only [List.append_assoc]
    exact (takes p.name).bind ((takes p.tag).bind ((takes p.kind).bind
      ((takes p.key).finish (.pure p))))
  write_ne_nil p := List.append_ne_nil_of_right_ne_nil _ (write_ne_nil p.key)

instance : LawfulWire StructSchema where
  takes s := by
    change Takes _ (_ ++ _ ++ _) _
    simp only [List.append_assoc]
    exact (takes s.name).bind ((takes s.flags).bind ((takes s.properties).finish (.pure s)))
  write_ne_nil s := List.append_ne_nil_of_right_ne_nil _ (write_ne_nil s.properties)

instance : LawfulWire Enumerator where
  takes e := (takes e.name).bind ((takes e.value).finish (.pure e))
  write_ne_nil e := List.append_ne_nil_of_right_ne_nil _ (write_ne_nil e.value)

instance : LawfulWire EnumSchema where
  takes s := (takes s.name).bind ((takes s.enumerators).finish (.pure s))
  write_ne_nil s := List.append_ne_nil_of_right_ne_nil _ (write_ne_nil s.enumerators)

/-! ## Messages -/

instance : LawfulWire MemberEvent where
  takes e := by
    cases e with
    | join => exact takes_alternative (k := 0) (by decide) (.pure MemberEvent.join)
    | leave => exact takes_alternative (k := 1) (by decide) (.pure MemberEvent.leave)
    | kill => exact takes_alternative (k := 2) (by decide) (.pure MemberEvent.kill)
  write_ne_nil e := by
    cases e <;> simp [write]

/-- A control message is read back from its number and its fields. -/
theorem takes_readControl (m : ControlMessage) : Takes readControl (writeControl m) m := by
  -- One case for each number that the reader tells apart; the fields follow in their order.
  cases m with
  | hello serverName challenge required =>
    refine takes_alternative (k := 0) (by decide) ?_
    simp only [List.append_assoc]
    exact (takes serverName).bind ((takes challenge).bind ((takes required).finish (.pure _)))
  | connect clientName preload finished =>
    refine takes_alternative (k := 1) (by decide) ?_
    simp only [List.append_assoc]
    exact (takes clientName).bind ((takes preload).bind ((takes finished).finish (.pure _)))
  | connectResponse serverName clientId accepted preload finished =>
    refine takes_alternative (k := 2) (by decide) ?_
    simp only [List.append_assoc]
    exact (takes serverName).bind ((takes clientId).bind ((takes accepted).bind
      ((takes preload).bind ((takes finished).finish (.pure _)))))
  | member groupName event =>
    exact takes_alternative (k := 3) (by decide)
      ((takes groupName).bind ((takes event).finish (.pure _)))
  | descriptorRequest whitelist blacklist =>
    exact takes_alternative (k := 4) (by decide)
      ((takes whitelist).bind ((takes blacklist).finish (.pure _)))
  | clearCache typeNames =>
    exact takes_alternative (k := 5) (by decide) ((takes typeNames).map ControlMessage.clearCache)
  | cacheInfo typeName endTransmission endDescriptorRequest =>
    refine takes_alternative (k := 6) (by decide) ?_
    simp only [List.append_assoc]
    exact (takes typeName).bind ((takes endTransmission).bind
      ((takes endDescriptorRequest).finish (.pure _)))
  | error code text =>
    exact takes_alternative (k := 7) (by decide)
      ((takes code).bind ((takes text).finish (.pure _)))
  | structSchema schema =>
    exact takes_alternative (k := 8) (by decide) ((takes schema).map ControlMessage.structSchema)
  | enumSchema schema =>
    exact takes_alternative (k := 9) (by decide) ((takes schema).map ControlMessage.enumSchema)

instance : LawfulWire ControlMessage where
  takes := takes_readControl
  write_ne_nil m := by
    cases m <;> simp [write, writeControl]

instance : LawfulWire Header where
  takes h := by
    change Takes _ (_ ++ _ ++ _ ++ _ ++ _ ++ _ ++ _ ++ _ ++ _ ++ _) _
    simp only [List.append_assoc]
    exact (takes h.typeName).bind ((takes h.sender).bind ((takes h.sentTime).bind
      ((takes h.serverSentTime).bind ((takes h.attributes).bind ((takes h.remove).bind
      ((takes h.fromCache).bind ((takes h.destinationGroup).bind ((takes h.nameSpace).bind
      ((takes h.isFromMyself).finish (.pure h))))))))))
  write_ne_nil h := List.append_ne_nil_of_right_ne_nil _ (write_ne_nil h.isFromMyself)

instance : LawfulWire Payload where
  takes p := by
    cases p with
    | object o => exact takes_alternative (k := 0) (by decide) ((takes o).map Payload.object)
    | control m => exact takes_alternative (k := 1) (by decide) ((takes m).map Payload.control)
  write_ne_nil p := by
    cases p <;> simp [write]

instance : LawfulWire Transmission where
  takes t := (takes t.header).bind ((takes t.payload).finish (.pure t))
  write_ne_nil t := List.append_ne_nil_of_right_ne_nil _ (write_ne_nil t.payload)

end Wire

/-! ## Frames -/

namespace Transmission

/-- Reading a frame takes all of its bytes and none of those that follow. -/
theorem takes_readFrame (t : Transmission) : Takes readFrame t.encode t :=
  Wire.takes_alternative (k := 0) (by decide) (takes t)

/-- A transmission is read back from its frame, whatever bytes follow. Lengths within the
frame are announced in words of sixty-four bits, and the frame is no longer than such a word
can say, which is true of every sequence of bytes in memory. -/
theorem decode_encode_append (t : Transmission) (rest : List UInt8)
    (hsize : t.encode.length < UInt64.size) : decode (t.encode ++ rest) = .ok t := by
  rw [decode, takes_readFrame t hsize rest]
  rfl

/-- A leap second of a year that takes five digits and a sign. -/
def lateLeapSecond : Instant :=
  ⟨⟨12016, 12, 31, by decide⟩, 86399, 1500000000, by decide⟩

/-- An object that holds a list of values of several kinds, one of them not a number, and was
sent within a leap second. -/
def mixedNote : Transmission :=
  .ofObject { typeName := "Note", sentTime := some lateLeapSecond }
    ((Object.empty "Note").set 70000
      (.list [.time lateLeapSecond, .list [.int (-3), .float ⟨0x7ff8000000000001⟩], .str "ü"]))

/-- The object with nested values is read back in front of two more bytes. -/
theorem decode_mixedNote : mixedNote.encode.length < UInt64.size ∧
    decode (mixedNote.encode ++ [7, 255]) = .ok mixedNote := by
  have hsize : mixedNote.encode.length < UInt64.size := by decide +kernel
  exact ⟨hsize, decode_encode_append mixedNote [7, 255] hsize⟩

end Transmission

end ObjectBus
