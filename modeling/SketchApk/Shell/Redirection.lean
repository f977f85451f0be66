import SketchApk.Shell.Expansion

/-!
# Redirections

While a statement is carried out, descriptors may lead elsewhere. What they led to before is put aside
and restored afterwards.

## Main definitions

* `Shell.Connection` : where a descriptor is to lead.
* `Shell.redirect`, `Shell.restore` : redirect descriptors, and restore them.
-/

namespace SketchApk.Shell

/-- Where a descriptor is to lead. -/
inductive Connection where
  | file (path : String) (mode : OpenMode)
  /-- Where another descriptor leads. -/
  | same (source : Nat)
  | nowhere
  /-- To a text that can be read. -/
  | document (text : String)

/-- A descriptor with the copy of it that was put aside, if it led anywhere. -/
abbrev Saved := Nat × Option Nat

/-- Where a redirection leads. -/
def Redirection.connection (substitute : Option Statement → Exec String) :
    Redirection → Exec (Nat × Connection)
  | .mk descriptor kind target => do
    match kind with
    | .document => return (descriptor, .document (← expandDocument substitute target))
    | .duplicate =>
      let text ← expandText substitute false target
      match text.toList with
      | ['-'] => return (descriptor, .nowhere)
      | [digit] =>
        unless digit.isDigit do fail "Syntax error: Bad fd number"
        return (descriptor, .same (digit.toNat - '0'.toNat))
      | _ => fail "Syntax error: Bad fd number"
    | _ =>
      let path ← expandText substitute false target
      let isProtected := (← get).has 'C'
      let mode : OpenMode :=
        match kind with
        | .read => .read
        | .append => .append
        | .update => .update
        | .write => if isProtected then .fresh else .write
        | _ => .write
      return (descriptor, .file path mode)

/-- The wording of an error of a file that was to be opened. -/
def openingError (mode : OpenMode) (path : String) (error : FileError) : String :=
  let isMissing := error = .notFound || error = .notADirectory
  if mode = .read then
    "cannot open " ++ path ++ ": " ++ if isMissing then "No such file" else error.reason
  else
    "cannot create " ++ path ++ ": " ++
      if isMissing then "Directory nonexistent" else error.reason

/-- Put a descriptor aside. -/
def save (saves : Bool) (descriptor : Nat) : Exec (List Saved) := do
  if saves then return [(descriptor, ← Steps.call (.putAside descriptor))] else return []

/-- Let descriptors lead to where they led before. -/
def restore (saved : List Saved) : Exec Unit := do
  for (descriptor, copy?) in saved.reverse do
    match copy? with
    | some copy =>
      discard (Steps.call (.duplicate copy descriptor))
      Steps.call (.close copy)
    | none => Steps.call (.close descriptor)

/-- Forget to where descriptors led before. -/
def forget (saved : List Saved) : Exec Unit := do
  for (_, copy?) in saved do
    if let some copy := copy? then Steps.call (.close copy)

/-- Let a descriptor lead to where a new one leads, which is closed. -/
def moveTo (saves : Bool) (source descriptor : Nat) : Exec (List Saved) := do
  if source = descriptor then return if saves then [(descriptor, none)] else []
  else
    let saved ← save saves descriptor
    discard (Steps.call (.duplicate source descriptor))
    Steps.call (.close source)
    return saved

/-- Let a descriptor lead elsewhere. -/
def connect (saves : Bool) (descriptor : Nat) : Connection → Exec (List Saved)
  | .file path mode => do
    match ← Steps.call (.openFile (Octets.toPath path) mode) with
    | .error error => fail (openingError mode path error)
    | .ok source => moveTo saves source descriptor
  | .same source => do
    if source = descriptor then return []
    else
      let saved ← save saves descriptor
      let isOpen : Bool ← Steps.call (.duplicate source descriptor)
      if isOpen then return saved
      else
        restore saved
        fail (toString source ++ ": Bad file descriptor")
  | .nowhere => do
    let saved ← save saves descriptor
    Steps.call (.close descriptor)
    return saved
  | .document text => do
    let (source, drain) : Nat × Nat ← Steps.call .pipe
    let data := Octets.toBytes text
    if data.size ≤ 65536 then discard (Steps.call (.write drain data))
    else
      discard (Steps.fork fun _ =>
        .step (.close source) fun _ => .step (.write drain data) fun _ => .exit 0)
    Steps.call (.close drain)
    moveTo saves source descriptor

/-- Let descriptors lead elsewhere, one after the other. -/
def redirect (saves : Bool) : List (Nat × Connection) → Exec (List Saved)
  | [] => return []
  | (descriptor, connection) :: rest => do
    let saved ← connect saves descriptor connection
    let more ← tryCatch (redirect saves rest) fun exit => do
      restore saved
      throw exit
    return saved ++ more

end SketchApk.Shell
