/-!
# Substitution of a pattern in a text

The occurrences of a pattern are found from left to right and do not overlap: after one occurrence
the search goes on behind it. Each is replaced by the same text, which is not searched again.
-/

namespace SketchApk.Text

/-- Substitution in a text whose first `skip` characters belong to an occurrence that has been
replaced already. -/
def substituteFrom (pattern replacement : List Char) : (skip : Nat) → List Char → List Char
  | _, [] => []
  | skip + 1, _ :: rest => substituteFrom pattern replacement skip rest
  | 0, c :: rest =>
    if pattern.isPrefixOf (c :: rest) then
      replacement ++ substituteFrom pattern replacement (pattern.length - 1) rest
    else c :: substituteFrom pattern replacement 0 rest

/-- The text with every occurrence of a nonempty pattern replaced. -/
def substitute (pattern replacement : List Char) (text : List Char) : List Char :=
  substituteFrom pattern replacement 0 text

/-- The string with every occurrence of a nonempty pattern replaced. -/
def substituted (pattern replacement text : String) : String :=
  String.ofList (substitute pattern.toList replacement.toList text.toList)

@[simp] theorem substitute_nil (pattern replacement : List Char) :
    substitute pattern replacement [] = [] := by
  simp [substitute, substituteFrom]

/-- A skipped part of the text has no influence on the result. -/
theorem substituteFrom_length_append (pattern replacement skipped rest : List Char) :
    substituteFrom pattern replacement skipped.length (skipped ++ rest) =
      substituteFrom pattern replacement 0 rest := by
  induction skipped with
  | nil => rfl
  | cons c skipped ih => simpa [substituteFrom] using ih

end SketchApk.Text
