import ObjectBus.ExactJson.Transmission

/-!
# Sequences whose order means nothing

Some parts of what a broker does have no order of their own: the objects of a replay, and the
removals that follow from one cause. To compare two runs, such parts are sorted by their
compact text. A replay keeps its countdown: the numbers stay in their places and only what
they stand beside is sorted.
-/

namespace ObjectBus

namespace Json

mutual

/-- The value with the members of every object in ascending key order. -/
def keySorted : Json → Json
  | array items => array (keySortedItems items)
  | object members => ofMembers (keySortedMembers members)
  | j => j

/-- The items of an array, each key-sorted. -/
def keySortedItems : List Json → List Json
  | [] => []
  | j :: rest => j.keySorted :: keySortedItems rest

/-- The members of an object, each key-sorted. -/
def keySortedMembers : List (String × Json) → List (String × Json)
  | [] => []
  | (key, j) :: rest => (key, j.keySorted) :: keySortedMembers rest

end

/-- Sort values by the text of something about them. -/
def sortOn (f : α → Json) (l : List α) : List α :=
  ((l.map fun a => (((f a).keySorted).text, a)).mergeSort fun a b => !decide (b.1 < a.1)).map (·.2)

/-- Values in the order of their texts. -/
def sorted (l : List Json) : List Json := sortOn (fun j => j) l

/-- Change one member of an object. -/
def changeMember (key : String) (f : Json → Json) : Json → Json
  | object members => object (members.map fun m => if m.1 = key then (key, f m.2) else m)
  | j => j

/-- Change the header of a transmission, an event or an event that holds another. -/
def changeHeader (f : Json → Json) (j : Json) : Json :=
  if (j.member? "header").isSome then j.changeMember "header" f
  else
    (j.changeMember "object" (changeMember "header" f)).changeMember "event"
      (changeMember "header" f)

/-- The header of a transmission, an event or an event that holds another. -/
def headerPart? (j : Json) : Option Json :=
  j.member? "header" <|>
    ((j.member? "object" <|> j.member? "event").bind fun j => j.member? "header")

/-- The type name in the header. -/
def headerType? (j : Json) : Option String := j.headerPart?.bind fun h => h.textAt? "type_name"

/-- The countdown in the header. -/
def countdown? (j : Json) : Option Json := j.headerPart?.bind fun h => h.given? "from_cache"

/-- The value with another countdown in its header. -/
def withCountdown (j count : Json) : Json :=
  j.changeHeader (changeMember "from_cache" fun _ => count)

/-- Whether the header is that of a removal by the host. -/
def isHostRemoval (j : Json) : Bool :=
  match j.headerPart? with
  | some h => h.flagAt? "remove" == some true && h.flagAt? "is_from_myself" == some true
  | none => false

/-- Sort the runs of consecutive values of one type that all have a property. -/
def sortRuns (p : Json → Bool) (sort : List Json → List Json) (l : List Json) : List Json :=
  (l.splitBy fun a b => p a && p b && a.headerType? == b.headerType?).flatMap fun run =>
    if run.all p then sort run else run

/-- Sort the objects of a replay beside their countdown. -/
def sortReplay (run : List Json) : List Json :=
  List.zipWith (fun j count => j.withCountdown (count.getD null))
    (sorted (run.map fun j => j.withCountdown null)) (run.map countdown?)

/-- A sequence with its replays and its removals by the host sorted. -/
def arranged (l : List Json) : List Json :=
  sortRuns isHostRemoval sorted (sortRuns (fun j => j.countdown?.isSome) sortReplay l)

end Json

end ObjectBus
