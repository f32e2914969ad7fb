import ObjectBus.Json.Basic

/-!
# Writing JSON

The compact form has no blanks. The spread form gives every item and member a line of its own,
indented by two blanks for each level. In both, a text escapes quotes, backslashes and controls
and writes every other character as it is.
-/

namespace ObjectBus.Json

/-- The two lower case hexadecimal digits of a number below 256. -/
def hexPair (n : Nat) : List Char := [Nat.digitChar (n / 16 % 16), Nat.digitChar (n % 16)]

/-- How one character of a text is written. -/
def escapedChar (c : Char) : List Char :=
  if c = '"' then ['\\', '"']
  else if c = '\\' then ['\\', '\\']
  else if c = '\n' then ['\\', 'n']
  else if c = '\r' then ['\\', 'r']
  else if c = '\t' then ['\\', 't']
  else if c = '\x08' then ['\\', 'b']
  else if c = '\x0c' then ['\\', 'f']
  else if c.toNat < 0x20 then ['\\', 'u', '0', '0'] ++ hexPair c.toNat
  else [c]

/-- A text between quotes. -/
def textOfString (s : String) : List Char := '"' :: s.toList.flatMap escapedChar ++ ['"']

/-- The text of a number. -/
def textOfNumber : JsonNumber → List Char
  | .natural n => Nat.toDigits 10 n.toNat
  | .negative n => '-' :: Nat.toDigits 10 n.toInt.natAbs
  | .float x => (NumberStyle.json.text x).toList

mutual

/-- The compact form of a value. -/
def compact : Json → List Char
  | null => ['n', 'u', 'l', 'l']
  | bool true => ['t', 'r', 'u', 'e']
  | bool false => ['f', 'a', 'l', 's', 'e']
  | number n => textOfNumber n
  | string s => textOfString s
  | array items => '[' :: compactItems items
  | object members => '{' :: compactMembers members

/-- The items of an array and its closing bracket. -/
def compactItems : List Json → List Char
  | [] => [']']
  | [j] => compact j ++ [']']
  | j :: k :: rest => compact j ++ ',' :: compactItems (k :: rest)

/-- The members of an object and its closing brace. -/
def compactMembers : List (String × Json) → List Char
  | [] => ['}']
  | [(key, j)] => textOfString key ++ ':' :: compact j ++ ['}']
  | (key, j) :: m :: rest =>
    textOfString key ++ ':' :: compact j ++ ',' :: compactMembers (m :: rest)

end

/-- A line break and the indentation of a level. -/
def newLine (level : Nat) : List Char := '\n' :: List.replicate (2 * level) ' '

mutual

/-- The spread form of a value that stands at the given level. -/
def spread (level : Nat) : Json → List Char
  | array [] => ['[', ']']
  | object [] => ['{', '}']
  | array (j :: rest) => '[' :: spreadItems (level + 1) (j :: rest) ++ newLine level ++ [']']
  | object (m :: rest) => '{' :: spreadMembers (level + 1) (m :: rest) ++ newLine level ++ ['}']
  | null => ['n', 'u', 'l', 'l']
  | bool true => ['t', 'r', 'u', 'e']
  | bool false => ['f', 'a', 'l', 's', 'e']
  | number n => textOfNumber n
  | string s => textOfString s

/-- The items of an array, each on its own line. -/
def spreadItems (level : Nat) : List Json → List Char
  | [] => []
  | [j] => newLine level ++ spread level j
  | j :: k :: rest => newLine level ++ spread level j ++ ',' :: spreadItems level (k :: rest)

/-- The members of an object, each on its own line. -/
def spreadMembers (level : Nat) : List (String × Json) → List Char
  | [] => []
  | [(key, j)] => newLine level ++ textOfString key ++ ':' :: ' ' :: spread level j
  | (key, j) :: m :: rest =>
    newLine level ++ textOfString key ++ ':' :: ' ' :: spread level j ++
      ',' :: spreadMembers level (m :: rest)

end

/-- The compact text of a value. -/
def text (j : Json) : String := String.ofList (compact j)

/-- The spread text of a value. -/
def spreadText (j : Json) : String := String.ofList (spread 0 j)

end ObjectBus.Json
