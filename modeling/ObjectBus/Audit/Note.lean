import ObjectBus.Number.Binary64

/-!
# Notes

While it works, the library notes what happens for an audit log. A note never changes what is
computed: a computation that takes notes gives a value and, beside it, the notes in order.
-/

namespace ObjectBus

/-- How much a note matters. -/
inductive NoteLevel where
  /-- Every detail. -/
  | trace
  /-- What helps to find a fault. -/
  | debug
  /-- What is worth knowing. -/
  | info
  /-- What should not happen but does no harm. -/
  | warn
  /-- What went wrong. -/
  | error
deriving DecidableEq, Repr

/-- The name of a level. -/
def NoteLevel.text : NoteLevel → String
  | trace => "trace"
  | debug => "debug"
  | info => "info"
  | warn => "warn"
  | error => "error"

/-- The value of a field of a note. -/
inductive NoteValue where
  /-- A signed integer. -/
  | signed (n : Int64)
  /-- An unsigned integer. -/
  | unsigned (n : UInt64)
  /-- A double. -/
  | float (x : Binary64)
  /-- A truth value. -/
  | truth (b : Bool)
  /-- A text. -/
  | text (s : String)
  /-- The text under which some other value is shown. -/
  | shown (s : String)
  /-- The wording of an error. -/
  | failure (s : String)
deriving DecidableEq

/-- One note. -/
structure Note where
  /-- How much it matters. -/
  level : NoteLevel
  /-- The part of the library that made it. -/
  topic : String
  /-- The named values that belong to it, among them what it says. -/
  fields : List (String × NoteValue)
deriving DecidableEq

/-- A note that says something in words. -/
def Note.saying (level : NoteLevel) (topic message : String)
    (fields : List (String × NoteValue)) : Note :=
  ⟨level, topic, ("message", .shown message) :: fields⟩

/-- The field for a number of things. -/
def NoteValue.count (n : Nat) : NoteValue := .unsigned (UInt64.ofNat n)

/-- The field for a 32-bit number. -/
def NoteValue.number (n : UInt32) : NoteValue := .unsigned n.toUInt64

/-- A value with the notes that were made while it was computed. -/
structure Noted (α : Type) where
  /-- The value. -/
  value : α
  /-- The notes in order. -/
  notes : List Note := []

namespace Noted

/-- Go on with a value, and append the notes made on the way. -/
def bind (x : Noted α) (f : α → Noted β) : Noted β :=
  let y := f x.value
  ⟨y.value, x.notes ++ y.notes⟩

instance : Monad Noted where
  pure a := ⟨a, []⟩
  bind := bind

/-- Make a note. -/
def note (level : NoteLevel) (topic message : String) (fields : List (String × NoteValue)) :
    Noted Unit :=
  ⟨(), [.saying level topic message fields]⟩

/-- Make a note if something holds. -/
def noteIf (p : Prop) [Decidable p] (level : NoteLevel) (topic message : String)
    (fields : List (String × NoteValue)) : Noted Unit :=
  if p then note level topic message fields else pure ()

@[simp]
theorem value_pure (a : α) : (pure a : Noted α).value = a := rfl

@[simp]
theorem value_bind (x : Noted α) (f : α → Noted β) : (x >>= f).value = (f x.value).value := rfl

@[simp]
theorem value_map (f : α → β) (x : Noted α) : (f <$> x).value = f x.value := rfl

@[simp]
theorem value_foldlM (f : β → α → Noted β) (b : β) (l : List α) :
    (l.foldlM f b).value = l.foldl (fun b a => (f b a).value) b := by
  induction l generalizing b with
  | nil => rfl
  | cons a rest ih => simp [List.foldlM_cons, ih]

end Noted

end ObjectBus
