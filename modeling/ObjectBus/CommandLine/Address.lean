/-!
# Addresses

Where a host listens: a machine and, behind the last colon, the number of the host on that
machine. A machine is given by a number of 32 bits, by a number of 128 bits, or by its name.
-/

namespace ObjectBus.CommandLine

/-- A machine on a network. -/
inductive Machine where
  /-- The machine with a number of 32 bits. -/
  | v4 (number : UInt32)
  /-- The machine with a number of 128 bits. -/
  | v6 (number : BitVec 128)
  /-- The machine of a name, which has to be looked up. -/
  | named (name : String)
deriving DecidableEq, Repr

/-- Where a host listens. -/
structure Address where
  /-- The machine. -/
  machine : Machine
  /-- The number of the host on it. -/
  number : UInt16
deriving DecidableEq, Repr

/-- Why a text is no address. -/
inductive AddressFault where
  /-- It has no colon. -/
  | noNumber
  /-- What follows the last colon is no number of 16 bits. -/
  | badNumber
deriving DecidableEq, Repr

/-- The wording of a fault. -/
def AddressFault.message : AddressFault → String
  | noNumber => "invalid socket address"
  | badNumber => "invalid port value"

/-! ## Numbers -/

/-- The value of a digit in a base up to sixteen. -/
def digitValue? (base : Nat) (c : Char) : Option Nat :=
  let value :=
    if '0' ≤ c ∧ c ≤ '9' then c.toNat - '0'.toNat
    else if 'a' ≤ c ∧ c ≤ 'f' then c.toNat - 'a'.toNat + 10
    else if 'A' ≤ c ∧ c ≤ 'F' then c.toNat - 'A'.toNat + 10
    else base
  if value < base then some value else none

/-- The number that digits give, of which there is at least one. -/
def numberOfDigits? (base : Nat) (cs : List Char) : Option Nat :=
  if cs.isEmpty then none
  else cs.foldlM (fun n c => (digitValue? base c).map (base * n + ·)) 0

/-- The number of 16 bits that a text gives: digits, perhaps behind a plus sign. -/
def hostNumber? (cs : List Char) : Option UInt16 :=
  let digits := match cs with
    | '+' :: rest => rest
    | _ => cs
  match numberOfDigits? 10 digits with
  | some n => if n < UInt16.size then some (UInt16.ofNat n) else none
  | none => none

/-! ## Machines with a number of 32 bits -/

/-- One part of a dotted number: hexadecimal behind `0x`, octal behind another zero, and decimal
otherwise. -/
def dottedPart? : List Char → Option Nat
  | '0' :: 'x' :: cs => numberOfDigits? 16 cs
  | '0' :: 'X' :: cs => numberOfDigits? 16 cs
  | '0' :: c :: cs => numberOfDigits? 8 (c :: cs)
  | cs => numberOfDigits? 10 cs

/-- Join parts into a number of so many bytes. Every part but the last is one byte, and the last
one fills what is left. -/
def joinParts : Nat → List Nat → Option Nat
  | 0, _ => none
  | _, [] => none
  | n + 1, [last] => if last < Nat.pow 256 (n + 1) then some last else none
  | n + 1, part :: rest =>
    if part < 256 then (joinParts n rest).map (part * Nat.pow 256 n + ·) else none

/-- The machine number of 32 bits that a text gives: up to four parts with dots between them. -/
def dottedNumber? (s : String) : Option UInt32 :=
  match (s.splitOn ".").mapM fun part => dottedPart? part.toList with
  | some parts => (joinParts 4 parts).map UInt32.ofNat
  | none => none

/-- A machine number of 32 bits as four decimal bytes. -/
def dottedText (n : UInt32) : String :=
  ".".intercalate ([24, 16, 8, 0].map fun places =>
    toString (n >>> UInt32.ofNat places).toUInt8.toNat)

/-! ## Machines with a number of 128 bits -/

/-- A word of a long number: up to four hexadecimal digits. -/
def word? (s : String) : Option Nat :=
  if s.length ≤ 4 then numberOfDigits? 16 s.toList else none

/-- The two words that a dotted number gives. It must be written the way it is shown. -/
def dottedWords? (s : String) : Option (List Nat) :=
  match dottedNumber? s with
  | some n => if dottedText n = s then some [n.toNat / UInt16.size, n.toNat % UInt16.size] else none
  | none => none

/-- The words of the parts of a long number. The last two may be written as a dotted number. -/
def words? : List String → Option (List Nat)
  | [] => some []
  | [part] => ((word? part).map fun w => [w]).or (dottedWords? part)
  | part :: rest => do
    let w ← word? part
    let ws ← words? rest
    pure (w :: ws)

/-- The words on one side of two colons, where there may be none. -/
def sideWords? (s : String) : Option (List Nat) :=
  if s = "" then some [] else words? (s.splitOn ":")

/-- Join eight words. -/
def joinWords (ws : List Nat) : Option (BitVec 128) :=
  if ws.length = 8 then some (BitVec.ofNat 128 (ws.foldl (fun n w => UInt16.size * n + w) 0))
  else none

/-- The machine number of 128 bits that a text gives: eight words, where two colons may stand for
any number of zeros. -/
def longNumber? (s : String) : Option (BitVec 128) :=
  match s.splitOn "::" with
  | [whole] => (words? (whole.splitOn ":")).bind joinWords
  | [before, behind] => do
    let ws ← sideWords? before
    let vs ← sideWords? behind
    -- A dotted number stands at the very end only.
    if before.contains '.' || 8 ≤ ws.length + vs.length then none
    else joinWords (ws ++ List.replicate (8 - ws.length - vs.length) 0 ++ vs)
  | _ => none

/-! ## Reading -/

/-- What stands between square brackets, if the text is bracketed. -/
def bracketed? (cs : List Char) : Option String :=
  match cs, cs.getLast? with
  | '[' :: rest, some ']' => some (String.ofList rest.dropLast)
  | _, _ => none

/-- The machine that a text means. -/
def Machine.ofText (s : String) : Machine :=
  match dottedNumber? s, longNumber? s with
  | some n, _ => .v4 n
  | none, some n => .v6 n
  | none, none => .named s

/-- Read an address. A long number may stand in brackets if the number of the host has no sign. -/
def Address.ofText? (s : String) : Except AddressFault Address :=
  let backwards := s.toList.reverse
  let digits := (backwards.takeWhile (· ≠ ':')).reverse
  match backwards.dropWhile (· ≠ ':'), hostNumber? digits with
  | [], _ => .error .noNumber
  | _ :: _, none => .error .badNumber
  | _ :: machine, some number =>
    match (bracketed? machine.reverse).bind longNumber?, digits.head? with
    | some _, some '+' => .ok ⟨.named (String.ofList machine.reverse), number⟩
    | some n, _ => .ok ⟨.v6 n, number⟩
    | none, _ => .ok ⟨.ofText (String.ofList machine.reverse), number⟩

end ObjectBus.CommandLine
