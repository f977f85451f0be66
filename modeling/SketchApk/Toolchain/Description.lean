import SketchApk.Toolchain.Value
import SketchApk.Tool.Basic

/-!
# Toolchain descriptions

A toolchain may come with a description that says where its tools are. The description is written in
TOML and consists of one table called `tools`, in which the names of tools are keys and locations
are strings. The table can be written with a header, as an inline table, or by dotted keys. It can
also be written as an array that begins with one location for each tool, in the order of the tools.
Nothing else may occur in a description, and no key may occur twice.

## Main definitions

* `Description` : the locations of tools.
* `Description.read?` : the description that a text is, if it is one.
-/

namespace SketchApk

/-- The locations of tools, in the order in which they were described. -/
abbrev Description := List (Tool × String)

namespace Description

/-- The location of a tool, if the description has one. -/
def location? (description : Description) (tool : Tool) : Option String :=
  List.lookup tool description

/-- The description with one more location, unless the name is that of no tool or of a tool whose
location is known. -/
def add? (description : Description) (name : String) (location : List Char) :
    Option Description := do
  let tool ← Tool.ofName? name
  if (description.location? tool).isSome then none
  else some (description ++ [(tool, String.ofList location)])

/-- The description that the entries of a table are. -/
def ofEntries? (entries : List (String × Value)) : Option Description :=
  entries.foldlM (fun description entry =>
    match entry.2 with
    | .text location => add? description entry.1 location
    | _ => none) []

/-- The description that a list of values is: its first items are the locations of the tools, in
order. -/
def ofItems? (items : List Value) : Option Description :=
  if items.length < Tool.all.length then none
  else
    (Tool.all.zip items).mapM fun entry =>
      match entry.2 with
      | .text location => some (entry.1, String.ofList location)
      | _ => none

/-- The description that the value of the table is. -/
def ofValue? : Value → Option Description
  | .table _ entries => ofEntries? entries
  | .list items => ofItems? items
  | _ => none

/-- Where in a description a line stands, and how the table has been written so far. -/
inductive Section where
  /-- No part of the table has been written. -/
  | start
  /-- Parts of the table have been written by dotted keys. -/
  | dotted
  /-- The table has been written as one value. -/
  | complete
  /-- The header of the table has been written. -/
  | headed

/-- The lines of a description, added to what has been read before; at most `fuel` lines are read. -/
def lines? : (fuel : Nat) → Section → Description → List Char → Option Description
  | 0, _, _, _ => none
  | fuel + 1, place, description, text =>
    match endLine? text with
    | some [] => some description
    | some rest => lines? fuel place description rest
    | none => do
      match expect? '[' text with
      | some rest =>
        let (keys, rest) ← key? rest
        let rest ← endLine? (← expect? ']' rest)
        match place, keys with
        | .start, ["tools"] => lines? fuel .headed description rest
        | _, _ => none
      | none =>
        let (keys, rest) ← key? text
        let value ← (expect? '=' rest).map skipBlanks
        match place, keys with
        | .start, ["tools"] =>
          let (table, rest) ← value? value
          lines? fuel .complete (← ofValue? table) (← endLine? rest)
        | .headed, [name] =>
          let (location, rest) ← string? value
          lines? fuel .headed (← description.add? name location) (← endLine? rest)
        | .start, ["tools", name] | .dotted, ["tools", name] =>
          let (location, rest) ← string? value
          lines? fuel .dotted (← description.add? name location) (← endLine? rest)
        | _, _ => none

/-- The description that a text is, if it is one. A mark of the byte order may stand in front. -/
def read? (text : String) : Option Description :=
  let body :=
    match text.toList with
    | '\uFEFF' :: rest => rest
    | body => body
  lines? (body.length + 1) .start [] body

end Description

end SketchApk
