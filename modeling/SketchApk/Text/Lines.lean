/-!
# Lines of a text

Two notions of line are used. *Splitting* cuts a text at every separator and keeps all pieces,
the last one included, so that joining the pieces restores the text. The *lines* of a text file
are what splitting at the newline yields, without the empty piece after a final newline. A line that
is ended by a newline also loses one carriage return in front of it.

## Main statements

* `Text.join_split` : joining the pieces of a text restores it.
* `Text.not_mem_of_mem_split` : no piece contains the separator.
-/

namespace SketchApk.Text

/-- The pieces of a text between the occurrences of a separator. There is always at least one. -/
def split (separator : Char) : List Char → List (List Char)
  | [] => [[]]
  | c :: rest =>
    if c = separator then [] :: split separator rest
    else
      match split separator rest with
      | [] => [[c]]
      | piece :: pieces => (c :: piece) :: pieces

/-- The pieces put together with a separator between neighbours. -/
def join (separator : Char) : List (List Char) → List Char
  | [] => []
  | [piece] => piece
  | piece :: pieces => piece ++ separator :: join separator pieces

/-- The line without one trailing carriage return. -/
def dropReturn (line : List Char) : List Char :=
  if line.getLast? = some '\r' then line.dropLast else line

/-- The lines of a text file: a final newline ends the last line and starts no further one. -/
def lines (text : List Char) : List (List Char) :=
  let pieces := split '\n' text
  pieces.dropLast.map dropReturn ++ pieces.getLast?.toList.filter (· ≠ [])

@[simp] theorem split_nil (separator : Char) : split separator [] = [[]] := rfl

theorem split_ne_nil (separator : Char) (text : List Char) : split separator text ≠ [] := by
  induction text with
  | nil => simp
  | cons c rest ih =>
    rw [split]
    split
    · simp
    · split <;> simp

@[simp] theorem split_cons_self (separator : Char) (rest : List Char) :
    split separator (separator :: rest) = [] :: split separator rest := by
  simp [split]

/-- Joining the pieces of a text restores it. -/
theorem join_split (separator : Char) (text : List Char) :
    join separator (split separator text) = text := by
  induction text with
  | nil => rfl
  | cons c rest ih =>
    have hne := split_ne_nil separator rest
    rw [split]
    split
    · next h =>
      cases hs : split separator rest with
      | nil => exact absurd hs hne
      | cons piece pieces => rw [hs] at ih; simp [join, ih, h]
    · split
      · next hs => exact absurd hs hne
      · next piece pieces hs =>
        rw [hs] at ih
        cases pieces with
        | nil => simp only [join] at ih ⊢; rw [ih]
        | cons next others => simp only [join, List.cons_append] at ih ⊢; rw [ih]

/-- No piece of a split text contains the separator. -/
theorem not_mem_of_mem_split {separator : Char} {text piece : List Char}
    (h : piece ∈ split separator text) : separator ∉ piece := by
  induction text generalizing piece with
  | nil => simp_all [split]
  | cons c rest ih =>
    rw [split] at h
    split at h
    · rcases List.mem_cons.1 h with rfl | h
      · simp
      · exact ih h
    · next hc =>
      split at h
      · simp only [List.mem_singleton] at h
        subst h
        simpa using fun h' => hc h'.symm
      · next first others hs =>
        rcases List.mem_cons.1 h with rfl | h
        · have : separator ∉ first := ih (by rw [hs]; simp)
          simp only [List.mem_cons, not_or]
          exact ⟨fun h' => hc h'.symm, this⟩
        · exact ih (by rw [hs]; simp [h])

end SketchApk.Text
