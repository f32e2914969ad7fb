import ObjectBus.Object
import ObjectBus.Text.Quoted

/-!
# Objects for inspection

An object whose type is not known is shown as it is: every value with the name of its kind,
under its tag.
-/

namespace ObjectBus

namespace Value

mutual

/-- A value with the name of its kind. -/
def inspected : Value → String
  | bool b => "Bool(" ++ (if b then "true" else "false") ++ ")"
  | int n => "Int(" ++ toString n.toInt ++ ")"
  | uint n => "UInt(" ++ toString n.toNat ++ ")"
  | float x => "Float(" ++ NumberStyle.inspected.text x ++ ")"
  | str s => "Str(" ++ Text.quoted s ++ ")"
  | bytes bs => "Bytes([" ++ ", ".intercalate (bs.map fun b => toString b.toNat) ++ "])"
  | time t => "Time(" ++ t.wireText ++ ")"
  | enumerator n => "Enum(" ++ toString n.toInt ++ ")"
  | list items => "List([" ++ ", ".intercalate (inspectedItems items) ++ "])"

/-- The items of a list, each with the name of its kind. -/
def inspectedItems : List Value → List String
  | [] => []
  | v :: rest => v.inspected :: inspectedItems rest

end

end Value

/-- An object with its type and all its values. -/
def Object.inspected (o : Object) : String :=
  "Instance \x7b type_name: " ++ Text.quoted o.typeName ++ ", values: \x7b" ++
    ", ".intercalate (o.values.toList.map fun b =>
      toString b.1.toNat ++ ": " ++ b.2.inspected) ++ "\x7d \x7d"

end ObjectBus
