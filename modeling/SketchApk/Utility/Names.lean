import SketchApk.Utility.Files

/-!
# Utilities that tell names of files

Parts of paths, the targets of links, and the working directory.

## Main definitions

* `Utility.lastPart`, `Utility.frontPart` : the last name of a path, and the path in front of it.
* `Utility.canonical?` : a path without links and dots.
-/

namespace SketchApk.Utility

/-- A text without slashes at its end. -/
def dropSlashes (path : List Char) : List Char :=
  (path.reverse.dropWhile (· = '/')).reverse

/-- The last name of a path. A path of nothing but slashes is the root. -/
def lastPart (path : List Char) : List Char :=
  let short := dropSlashes path
  if short.isEmpty then path.take 1 else (short.reverse.takeWhile (· ≠ '/')).reverse

/-- The path in front of the last name of a path. -/
def frontPart (path : List Char) : List Char :=
  let short := dropSlashes path
  if short.isEmpty then (if path.isEmpty then ['.'] else ['/'])
  else if '/' ∉ short then ['.']
  else
    let front := dropSlashes (short.reverse.dropWhile (· ≠ '/')).reverse
    if front.isEmpty then ['/'] else front

/-- A name without a suffix, unless nothing would be left. -/
def withoutSuffix (suffix name : List Char) : List Char :=
  if suffix.isSuffixOf name && suffix.length < name.length && name ≠ ['/'] then
    name.take (name.length - suffix.length)
  else name

/-- Print names, each of them with an end of its own. -/
def printNames (isNullEnded : Bool) (names : List (List Char)) : Work Nat := do
  let ending := if isNullEnded then Char.ofNat 0 else '\n'
  emit (String.ofList (names.flatMap (· ++ [ending])))
  return 0

/-- Print the last names of paths. -/
def printLastParts : Utility := fun arguments => do
  let table : OptionTable :=
    { letters := "as:z"
      long := [⟨"multiple", 'a', false, false⟩, ⟨"suffix", 's', true, false⟩,
        ⟨"zero", 'z', false, false⟩]
      stopsAtOperand := true }
  let given ← table.parse arguments
  let names (suffix : String) (paths : List String) : List (List Char) :=
    paths.map fun path => withoutSuffix suffix.toList (lastPart path.toList)
  let isMultiple := given.has 'a' || given.has 's'
  match given.operands with
  | [] => giveUpUsage 1 "missing operand"
  | [path] => printNames (given.has 'z') (names ((given.value? 's').getD "") [path])
  | path :: second :: rest =>
    if isMultiple then
      printNames (given.has 'z') (names ((given.value? 's').getD "") given.operands)
    else
      match rest with
      | extra :: _ => giveUpUsage 1 ("extra operand " ++ cited extra)
      | [] => printNames (given.has 'z') (names second [path])

/-- Print what is in front of the last names of paths. -/
def printFrontParts : Utility := fun arguments => do
  let table : OptionTable := { letters := "z", long := [⟨"zero", 'z', false, false⟩] }
  let given ← table.parse arguments
  if given.operands.isEmpty then giveUpUsage 1 "missing operand"
  printNames (given.has 'z') (given.operands.map fun path => frontPart path.toList)

/-- What has to exist of a path. -/
inductive Existence where
  | all
  /-- The last name may be missing. -/
  | butLast
  | none
  deriving DecidableEq

/-- The text of a location. -/
def locationText (place : Location) : String :=
  Octets.ofText ("/" ++ "/".intercalate place)

/-- The location that the names of a path lead to from a directory. Links are followed if that is
wanted. At most `fuel` names are dealt with. -/
def canonicalFrom (existence : Existence) (follows : Bool) :
    (fuel : Nat) → Location → List String → Work (Except FileError Location)
  | 0, _, _ => return .error .tooManyLinks
  | _ + 1, place, [] => return .ok place
  | fuel + 1, place, name :: rest => do
    if name.isEmpty || name = "." then canonicalFrom existence follows fuel place rest
    else if name = ".." then canonicalFrom existence follows fuel place.dropLast rest
    else
      let next := place ++ [Octets.toText name]
      match ← nodeAt? (locationText next) false with
      | .ok (_, .link target) =>
        if follows then
          let steps := target.segments.map Octets.ofText
          canonicalFrom existence follows fuel (if target.isAbsolute then [] else place)
            (steps ++ rest)
        else canonicalFrom existence follows fuel next rest
      | .ok (_, .file ..) =>
        if rest.isEmpty || existence = .none then
          canonicalFrom existence follows fuel next rest
        else return .error .notADirectory
      | .ok (_, .directory _) => canonicalFrom existence follows fuel next rest
      | .error .notFound =>
        let isMissingAllowed :=
          match existence with
          | .all => false
          | .butLast => rest.all String.isEmpty
          | .none => true
        if isMissingAllowed then canonicalFrom existence follows fuel next rest
        else return .error .notFound
      | .error error =>
        if existence = .none then canonicalFrom existence follows fuel next rest
        else return .error error

/-- The number of names that a path is made of at most. -/
def nameLimit : Nat := 4096

/-- A path without links and dots. -/
def canonical? (existence : Existence) (follows : Bool) (path : String) :
    Work (Except FileError Location) := do
  if path.isEmpty then return .error .notFound
  else
    let here : Location ← Steps.call .directory
    let names := ((Text.split '/' path.toList).map String.ofList)
    canonicalFrom existence follows nameLimit (if path.toList.head? = some '/' then [] else here)
      names

/-- Print the targets of links, or paths without links. -/
def printLinkTargets : Utility := fun arguments => do
  let table : OptionTable :=
    { letters := "femnqsvz"
      long := [⟨"canonicalize", 'f', false, false⟩, ⟨"canonicalize-existing", 'e', false, false⟩,
        ⟨"canonicalize-missing", 'm', false, false⟩, ⟨"no-newline", 'n', false, false⟩,
        ⟨"verbose", 'v', false, false⟩, ⟨"zero", 'z', false, false⟩,
        ⟨"quiet", 'q', false, false⟩, ⟨"silent", 's', false, false⟩] }
  let given ← table.parse arguments
  if given.operands.isEmpty then giveUpUsage 1 "missing operand"
  let mode := given.last? ['f', 'e', 'm']
  let isBare := given.has 'n' && given.operands.length = 1
  let ending := if isBare then "" else if given.has 'z' then (Char.ofNat 0).toString else "\n"
  let isLoud := given.last? ['q', 's', 'v'] = some 'v'
  forEach (fun path => do
    let found : Except FileError String ←
      match mode with
      | none =>
        match ← nodeAt? path false with
        | .ok (_, .link target) => pure (.ok (Octets.ofText target.text))
        | .ok _ => pure (.error .invalidArgument)
        | .error error => pure (.error error)
      | some letter =>
        let existence : Existence :=
          match letter with
          | 'f' => .butLast
          | 'e' => .all
          | _ => .none
        pure ((← canonical? existence true path).map locationText)
    match found with
    | .ok text =>
      emit (text ++ ending)
      return true
    | .error error => if isLoud then failed (shown path ++ ": " ++ error.reason) else return false)
    given.operands

/-- Print paths without links and dots. -/
def printRealPaths : Utility := fun arguments => do
  let table : OptionTable :=
    { letters := "eEmqszLP"
      long := [⟨"canonicalize-existing", 'e', false, false⟩,
        ⟨"canonicalize-missing", 'm', false, false⟩, ⟨"quiet", 'q', false, false⟩,
        ⟨"strip", 's', false, false⟩, ⟨"no-symlinks", 's', false, false⟩,
        ⟨"zero", 'z', false, false⟩, ⟨"relative-to", 'r', true, false⟩,
        ⟨"relative-base", 'b', true, false⟩] }
  let given ← table.parse arguments
  if given.operands.isEmpty then giveUpUsage 1 "missing operand"
  let existence : Existence :=
    match given.last? ['e', 'm', 'E'] with
    | some 'e' => .all
    | some 'm' => .none
    | _ => .butLast
  let follows := !given.has 's'
  let ending := if given.has 'z' then (Char.ofNat 0).toString else "\n"
  let start? ←
    match given.value? 'r' with
    | none => pure none
    | some start =>
      match ← canonical? existence follows start with
      | .ok place => pure (some place)
      | .error error => giveUp 1 (shown start ++ ": " ++ error.reason)
  forEach (fun path => do
    match ← canonical? existence follows path with
    | .ok place =>
      emit ((match start? with
        | some start => relativePath start place
        | none => locationText place) ++ ending)
      return true
    | .error error =>
      if given.has 'q' then return false else failed (shown path ++ ": " ++ error.reason))
    given.operands

/-- Print the working directory. A name for it that has links in it is given by the environment. -/
def printDirectory : Utility := fun arguments => do
  let table : OptionTable :=
    { letters := "LP", long := [⟨"logical", 'L', false, false⟩, ⟨"physical", 'P', false, false⟩] }
  let given ← table.parse arguments
  unless given.operands.isEmpty do complain "ignoring non-option arguments"
  let place : Location ← Steps.call .directory
  let known := ((← get).environment.lookup "PWD").getD ""
  let isUsable := given.last? ['L', 'P'] = some 'L' && known.toList.head? = some '/' &&
    (Text.split '/' known.toList).all fun name => name ≠ ['.'] && name ≠ ['.', '.']
  let leads ←
    if isUsable then do
      match ← nodeAt? known true with
      | .ok (found, _) => pure (decide (found = place))
      | .error _ => pure false
    else pure false
  emitLine (if leads then known else locationText place)
  return 0

end SketchApk.Utility
