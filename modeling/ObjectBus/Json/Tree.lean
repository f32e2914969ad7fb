import ObjectBus.Json.Basic

/-!
# Reading JSON

A JSON text is first read into a tree that keeps what the text says: numbers as their digits,
members in order with repeated keys. The tree of a part that nobody asks for is never looked
at, so a number too large for any word or a broken surrogate pair does no harm there. Values
and records are then taken from the tree, with a bound on how deeply they may be nested.
-/

namespace ObjectBus

/-- A number as it is written. -/
structure Numeral where
  /-- Whether a minus stands in front. -/
  negative : Bool
  /-- The digits before the point. -/
  whole : List Nat
  /-- The digits after the point, if there is one. -/
  fraction : Option (List Nat)
  /-- Whether the exponent, if there is one, is negative, and its digits. -/
  exponent : Option (Bool × List Nat)
deriving DecidableEq

namespace Numeral

/-- Append digits to a whole number for as long as it stays below `2 ^ 64`. Gives the number
and how many digits were left over. -/
def absorb (n : Nat) : List Nat → Nat × Nat
  | [] => (n, 0)
  | d :: rest => if n * 10 + d < UInt64.size then absorb (n * 10 + d) rest else (n, rest.length + 1)

/-- A double divided by ten as often as told, in steps of at most 308. -/
def divideByTens (x : Binary64) (e : Nat) : Binary64 :=
  if e ≤ 308 then x.div (Binary64.ofNat (Nat.pow 10 e))
  else if x.significand = 0 then x
  else divideByTens (x.div (Binary64.ofNat (Nat.pow 10 308))) (e - 308)
termination_by e

/-- The double for a whole number times a power of ten, computed by one multiplication or by
divisions of doubles. Too large a result is none. -/
def scaled? (n : Nat) (e : Int) : Option Binary64 :=
  let x := Binary64.ofNat n
  if 0 ≤ e then
    if 308 < e then (if n = 0 then some x else none)
    else
      let y := x.mul (Binary64.ofNat (Nat.pow 10 e.toNat))
      if y.isInfinite then none else some y
  else some (divideByTens x (-e).toNat)

/-- The largest exponent that is read digit by digit. -/
def exponentLimit : Nat := Nat.pow 2 31

/-- The number that a numeral stands for, or nothing when it is too large for a double.
An integer that fits a 64-bit word stays one, except for minus zero. -/
def toNumber? (n : Numeral) : Option JsonNumber :=
  -- Digits that no longer fit a word only count for the power of ten.
  let (significand, dropped) := absorb 0 n.whole
  let asFloat (significand : Nat) (e : Int) : Option JsonNumber :=
    (scaled? significand e).map fun x => .float (if n.negative then x.neg else x)
  match n.fraction, n.exponent with
  | none, none =>
    if dropped ≠ 0 then asFloat significand dropped
    else if !n.negative then some (.natural (UInt64.ofNat significand))
    else if significand = 0 ∨ Nat.pow 2 63 < significand then
      some (.float (Binary64.ofNat significand).neg)
    else some (.negative (Int64.ofInt (-significand)))
  | fraction, exponent =>
    let digits := fraction.getD []
    let (significand, unread) := absorb significand digits
    let shift : Int := (dropped : Int) - ((digits.length - unread : Nat) : Int)
    match exponent with
    | none => asFloat significand shift
    | some (down, ds) =>
      let e : Nat := ds.foldl (fun n d => 10 * n + d) 0
      if e < exponentLimit then
        asFloat significand (if down then shift - (e : Int) else shift + (e : Int))
      else if significand ≠ 0 ∧ down = false then none
      else some (.float (Binary64.zero n.negative))

/-- The integer that a numeral without point and exponent stands for, if it is not minus
zero. -/
def toInt? (n : Numeral) : Option Int :=
  match n.fraction, n.exponent with
  | none, none =>
    let v : Nat := n.whole.foldl (fun n d => 10 * n + d) 0
    if n.negative then (if v = 0 then none else some (-(v : Int))) else some v
  | _, _ => none

end Numeral

namespace Json

/-- What a JSON text says. A text that is no sequence of characters, because half of a
surrogate pair is missing, is none. -/
inductive Tree where
  /-- The word `null`. -/
  | null
  /-- One of the words `true` and `false`. -/
  | bool (b : Bool)
  /-- A number as it is written. -/
  | number (n : Numeral)
  /-- A text. -/
  | string (s : Option String)
  /-- The items of an array. -/
  | array (items : List Tree)
  /-- The members of an object in the order of the text. -/
  | object (members : List (Option String × Tree))
deriving Inhabited

namespace Tree

/-! ## Numbers and texts -/

/-- Drop the blanks that may stand between the parts of a JSON text. -/
def skipBlanks (cs : List Char) : List Char :=
  cs.dropWhile fun c => c = ' ' || c = '\n' || c = '\t' || c = '\r'

/-- The digits at the start of a text. -/
def leadingDigits (cs : List Char) : List Nat :=
  (cs.takeWhile Char.isDigit).map fun c => c.toNat - '0'.toNat

/-- Read at least one digit. -/
def readDigits (cs : List Char) : Option (List Nat × List Char) :=
  let ds := leadingDigits cs
  if ds.isEmpty then none else some (ds, cs.drop ds.length)

/-- Read the optional exponent of a number. -/
def readExponent : List Char → Option (Option (Bool × List Nat) × List Char)
  | c :: rest =>
    if c = 'e' ∨ c = 'E' then
      let (down, digits) := match rest with
        | '+' :: digits => (false, digits)
        | '-' :: digits => (true, digits)
        | digits => (false, digits)
      (readDigits digits).map fun r => (some (down, r.1), r.2)
    else some (none, c :: rest)
  | [] => some (none, [])

/-- Read a number after its sign. A zero at the start stands alone. -/
def readNumeral (negative : Bool) (cs : List Char) : Option (Numeral × List Char) := do
  let (whole, cs) ← readDigits cs
  if whole.head? = some 0 ∧ 1 < whole.length then none
  else
    let (fraction, cs) ← match cs with
      | '.' :: rest => (readDigits rest).map fun r => (some r.1, r.2)
      | cs => some (none, cs)
    let (exponent, cs) ← readExponent cs
    pure (⟨negative, whole, fraction, exponent⟩, cs)

/-- The value of a hexadecimal digit. -/
def hexValue (c : Char) : Option Nat :=
  if '0' ≤ c ∧ c ≤ '9' then some (c.toNat - '0'.toNat)
  else if 'a' ≤ c ∧ c ≤ 'f' then some (c.toNat - 'a'.toNat + 10)
  else if 'A' ≤ c ∧ c ≤ 'F' then some (c.toNat - 'A'.toNat + 10)
  else none

/-- The character that a letter after a backslash stands for. -/
def simpleEscape (c : Char) : Option Char :=
  if c = '"' ∨ c = '\\' ∨ c = '/' then some c
  else if c = 'b' then some '\x08'
  else if c = 'f' then some '\x0c'
  else if c = 'n' then some '\n'
  else if c = 'r' then some '\r'
  else if c = 't' then some '\t'
  else none

/-- Read a text after its opening quote, as code points; a numbered escape gives its number
even if that is half of a surrogate pair. What was read so far is kept in reverse. -/
def readUnits (done : List Nat) : List Char → Option (List Nat × List Char)
  | [] => none
  | '"' :: rest => some (done.reverse, rest)
  | '\\' :: 'u' :: a :: b :: c :: d :: rest =>
    match hexValue a, hexValue b, hexValue c, hexValue d with
    | some a, some b, some c, some d => readUnits ((((a * 16 + b) * 16 + c) * 16 + d) :: done) rest
    | _, _, _, _ => none
  | '\\' :: c :: rest =>
    match simpleEscape c with
    | some c => readUnits (c.toNat :: done) rest
    | none => none
  | c :: rest => if c.toNat < 0x20 ∨ c = '\\' then none else readUnits (c.toNat :: done) rest

/-- Put surrogate pairs together. What was put together so far is kept in reverse. -/
def joinUnits (done : List Char) : List Nat → Option (List Char)
  | [] => some done.reverse
  | u :: rest =>
    if 0xDC00 ≤ u ∧ u < 0xE000 then none
    else if 0xD800 ≤ u ∧ u < 0xDC00 then
      match rest with
      | v :: rest =>
        if 0xDC00 ≤ v ∧ v < 0xE000 then
          joinUnits (Char.ofNat (0x10000 + (u - 0xD800) * 0x400 + (v - 0xDC00)) :: done) rest
        else none
      | [] => none
    else joinUnits (Char.ofNat u :: done) rest

/-- Read a text after its opening quote. -/
def readString (cs : List Char) : Option (Option String × List Char) :=
  (readUnits [] cs).map fun r => ((joinUnits [] r.1).map String.ofList, r.2)

/-! ## Values -/

mutual

/-- Read a value. The first argument bounds the number of nested and consecutive reads. -/
def readValue : Nat → List Char → Option (Tree × List Char)
  | 0, _ => none
  | fuel + 1, cs =>
    match skipBlanks cs with
    | 'n' :: 'u' :: 'l' :: 'l' :: rest => some (.null, rest)
    | 't' :: 'r' :: 'u' :: 'e' :: rest => some (.bool true, rest)
    | 'f' :: 'a' :: 'l' :: 's' :: 'e' :: rest => some (.bool false, rest)
    | '"' :: rest => (readString rest).map fun r => (.string r.1, r.2)
    | '-' :: rest => (readNumeral true rest).map fun r => (.number r.1, r.2)
    | '[' :: rest =>
      match skipBlanks rest with
      | ']' :: rest => some (.array [], rest)
      | rest => (readItems fuel rest).map fun r => (.array r.1, r.2)
    | '{' :: rest =>
      match skipBlanks rest with
      | '}' :: rest => some (.object [], rest)
      | rest => (readMembers fuel rest).map fun r => (.object r.1, r.2)
    | rest => (readNumeral false rest).map fun r => (.number r.1, r.2)

/-- Read the items of an array up to its closing bracket. -/
def readItems : Nat → List Char → Option (List Tree × List Char)
  | 0, _ => none
  | fuel + 1, cs =>
    match readValue fuel cs with
    | none => none
    | some (item, cs) =>
      match skipBlanks cs with
      | ',' :: cs => (readItems fuel cs).map fun r => (item :: r.1, r.2)
      | ']' :: cs => some ([item], cs)
      | _ => none

/-- Read the members of an object up to its closing brace. -/
def readMembers : Nat → List Char → Option (List (Option String × Tree) × List Char)
  | 0, _ => none
  | fuel + 1, cs =>
    match skipBlanks cs with
    | '"' :: cs =>
      match readString cs with
      | none => none
      | some (key, cs) =>
        match skipBlanks cs with
        | ':' :: cs =>
          match readValue fuel cs with
          | none => none
          | some (value, cs) =>
            match skipBlanks cs with
            | ',' :: cs => (readMembers fuel cs).map fun r => ((key, value) :: r.1, r.2)
            | '}' :: cs => some ([(key, value)], cs)
            | _ => none
        | _ => none
    | _ => none

end

/-- Read a whole text. -/
def ofText? (s : String) : Option Tree :=
  let cs := s.toList
  match readValue (cs.length + 1) cs with
  | some (t, rest) => if (skipBlanks rest).isEmpty then some t else none
  | none => none

/-- How deeply arrays and objects that are looked at may be nested. -/
def depthLimit : Nat := 127

end Tree

mutual

/-- The value that a tree stands for, with arrays and objects nested at most `depth` deep. -/
def ofTree? (depth : Nat) : Tree → Option Json
  | .null => some .null
  | .bool b => some (.bool b)
  | .number n => n.toNumber?.map .number
  | .string s => s.map .string
  | .array items => if depth = 0 then none else (ofTrees? (depth - 1) items).map .array
  | .object members => if depth = 0 then none else (ofPairs? (depth - 1) members).map ofMembers

/-- The values of the items of an array. -/
def ofTrees? (depth : Nat) : List Tree → Option (List Json)
  | [] => some []
  | t :: rest =>
    match ofTree? depth t with
    | none => none
    | some j => (ofTrees? depth rest).map (j :: ·)

/-- The values of the members of an object. -/
def ofPairs? (depth : Nat) : List (Option String × Tree) → Option (List (String × Json))
  | [] => some []
  | (key, t) :: rest =>
    match key, ofTree? depth t with
    | some key, some j => (ofPairs? depth rest).map ((key, j) :: ·)
    | _, _ => none

end

/-- Read a value from a text. -/
def ofText? (s : String) : Option Json :=
  (Tree.ofText? s).bind (ofTree? Tree.depthLimit)

end Json

end ObjectBus
