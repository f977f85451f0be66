import SketchApk.Regex.Basic

/-!
# Matching regular expressions

A regular expression matches a part of a text. Of all parts that it matches, the one that begins first
counts, and among those the longest one. An expression may match in several ways; of those that end at the
same place only the one is kept in which earlier parts are as long as possible.

## Main definitions

* `Regex.ends` : the ends of the parts that an expression matches from a place on.
* `Regex.find?` : the part of a text that an expression matches.
-/

namespace SketchApk.Regex

/-- How expressions are matched. -/
structure Mode where
  ignoresCase : Bool := false
  /-- Anchors match at every line of a text. -/
  isMultiline : Bool := false

/-- How far an expression has been matched. -/
structure Place where
  position : Nat
  /-- The parts that groups have matched, by their first positions and those behind their ends. -/
  groups : List (Nat × Nat × Nat) := []

namespace Place

/-- The part that a group has matched. -/
def group? (place : Place) (number : Nat) : Option (Nat × Nat) :=
  List.lookup number place.groups

/-- The group has matched a part. -/
def withGroup (place : Place) (number start stop : Nat) : Place :=
  { place with groups := (number, start, stop) :: place.groups.filter (·.1 ≠ number) }

end Place

/-- Places without those at the position of an earlier one. -/
def distinct (places : List Place) : List Place :=
  (places.foldl (fun (kept : List Place × List Nat) place =>
    if place.position ∈ kept.2 then kept
    else (place :: kept.1, place.position :: kept.2)) ([], [])).1.reverse

/-- A letter, digit or underscore. -/
def isWordCharacter (c : Option Char) : Bool :=
  c.any fun c => CharacterSet.word.describes c

/-- An anchor matches at a position of a text. -/
def isAnchored (mode : Mode) (text : Array Char) (position : Nat) : Anchor → Bool
  | .textStart => position = 0
  | .textEnd => position = text.size
  | .lineStart =>
    position = 0 || (mode.isMultiline && text[position - 1]? = some '\n')
  | .lineEnd =>
    position = text.size || (mode.isMultiline && text[position]? = some '\n')
  | .wordStart => !before && after
  | .wordEnd => before && !after
  | .wordEdge => before != after
  | .inside => before == after
where
  /-- There is a word in front of the position. -/
  before : Bool := position ≠ 0 && isWordCharacter text[position - 1]?
  /-- There is a word behind the position. -/
  after : Bool := isWordCharacter text[position]?

/-- Two characters are the same, where the case of letters may not matter. -/
def sameCharacter (mode : Mode) (a b : Char) : Bool :=
  a = b || (mode.ignoresCase && a.toLower = b.toLower)

/-- The places that are reached by steps from a place, those after more steps first. Positions that have
been reached before are left out. -/
def reachable (step : Place → List Place) : (fuel : Nat) → (seen : List Nat) → Place →
    List Nat × List Place
  | 0, seen, place => (seen, [place])
  | fuel + 1, seen, place =>
    let (seen, found) := (step place).foldl (fun (seen, found) next =>
      if next.position ∈ seen then (seen, found)
      else
        let (seen, more) := reachable step fuel (next.position :: seen) next
        (seen, found ++ more)) (seen, ([] : List Place))
    (seen, found ++ [place])

/-- The places that are reached by a number of steps. -/
def afterSteps (step : Place → List Place) : (count : Nat) → List Place → List Place
  | 0, places => places
  | count + 1, places => afterSteps step count (distinct (places.flatMap step))

/-- The places that are reached by at most a number of steps, those after more steps first. -/
def withinSteps (step : Place → List Place) : (count : Nat) → Place → List Place
  | 0, place => [place]
  | count + 1, place =>
    let next := (step place).filter (·.position ≠ place.position)
    distinct (next.flatMap (withinSteps step count) ++ [place])

/-- The position behind a part of a text that is found again, if it is. -/
def repeatedEnd? (mode : Mode) (text : Array Char) (start stop position : Nat) : Option Nat :=
  let isSame := (List.range (stop - start)).all fun n =>
    match text[start + n]?, text[position + n]? with
    | some a, some b => sameCharacter mode a b
    | _, _ => false
  if isSame then some (position + (stop - start)) else none

/-- The ends of the parts that an expression matches from a place on. -/
def ends (mode : Mode) (text : Array Char) : Regex → Place → List Place
  | empty, place => [place]
  | character c, place =>
    match text[place.position]? with
    | some d =>
      if sameCharacter mode c d then [{ place with position := place.position + 1 }] else []
    | none => []
  | any, place =>
    if place.position < text.size then [{ place with position := place.position + 1 }] else []
  | oneOf set, place =>
    match text[place.position]? with
    | some c =>
      if set.contains mode.ignoresCase c then [{ place with position := place.position + 1 }] else []
    | none => []
  | anchor kind, place => if isAnchored mode text place.position kind then [place] else []
  | sequence first second, place =>
    distinct ((ends mode text first place).flatMap fun next => ends mode text second next)
  | either first second, place =>
    let all := ends mode text first place ++ ends mode text second place
    distinct (all.mergeSort fun a b => b.position ≤ a.position)
  | repeated body least most, place =>
    let step := fun next => ends mode text body next
    let required := afterSteps step least [place]
    match most with
    | none =>
      distinct (required.flatMap fun next =>
        (reachable step (text.size + 1) [next.position] next).2)
    | some count => distinct (required.flatMap (withinSteps step (count - least)))
  | group number body, place =>
    (ends mode text body place).map fun next =>
      next.withGroup number place.position next.position
  | reference number, place =>
    match place.group? number with
    | some (start, stop) =>
      ((repeatedEnd? mode text start stop place.position).map fun position =>
        { place with position }).toList
    | none => []

/-- A part of a text that an expression matches. -/
structure Found where
  start : Nat
  stop : Nat
  groups : List (Nat × Nat × Nat)

/-- The longest part that an expression matches from a position on. -/
def longestAt? (mode : Mode) (regex : Regex) (text : Array Char) (position : Nat) : Option Found :=
  let best := (regex.ends mode text { position }).foldl (fun (best : Option Place) place =>
    match best with
    | some other => if other.position < place.position then some place else best
    | none => some place) none
  best.map fun place => { start := position, stop := place.position, groups := place.groups }

/-- The part that an expression matches at one of `count` positions from a given one on. -/
def findFrom? (mode : Mode) (regex : Regex) (text : Array Char) : (count position : Nat) →
    Option Found
  | 0, _ => none
  | count + 1, position =>
    match regex.longestAt? mode text position with
    | some found => some found
    | none => findFrom? mode regex text count (position + 1)

/-- The part of a text that an expression matches from a position on or later. -/
def find? (mode : Mode) (regex : Regex) (text : Array Char) (position : Nat) : Option Found :=
  regex.findFrom? mode text (text.size + 1 - position) position

/-- The characters of a text between two positions. -/
def slice (text : Array Char) (start stop : Nat) : List Char :=
  (text.extract start stop).toList

end SketchApk.Regex
