import Mathlib.Data.List.Induction
import SketchApk.Config.Property
import SketchApk.Proofs.Text.Trim

/-!
# Properties line by line

Every line of a text of properties is read on its own. Of several entries with one key the last one
counts, and the first line that is malformed is reported. So a text that is put behind another one,
which ends with a newline, adds its entries to those of the other, and if only the second text has a
malformed line, that line is reported with the number that it has in the whole.

An equals sign separates a key from a value unless an odd number of backslashes stands right before
it: with the first of two backslashes the second one is protected, and not what follows.

## Main definitions

* `Properties.slashesBehind`, `Properties.HasSeparator` : the equals signs that separate.
* `Properties.IsMalformed` : the lines that are reported.
* `Properties.lineEntry?`, `Properties.insertAll` : the entries of lines, added one by one.

## Main statements

* `Properties.splitAtEquals?_eq_none_iff` : the lines that cannot be cut.
* `Properties.parse_eq_error_iff` : the errors of parsing.
* `Properties.parse_append` : what is parsed of two texts in a row.
-/

namespace SketchApk

namespace Properties

open Text

variable {line raw : List Char}

/-! ### Separators -/

/-- The number of backslashes at the end of a text. -/
def slashesBehind (text : List Char) : Nat :=
  (text.reverse.takeWhile (· = '\\')).length

theorem slashesBehind_concat (text : List Char) (c : Char) :
    slashesBehind (text ++ [c]) = if c = '\\' then slashesBehind text + 1 else 0 := by
  rw [slashesBehind, List.reverse_concat, List.takeWhile_cons]
  split <;> simp_all [slashesBehind]

/-- The line has an equals sign that is not protected by a backslash. -/
def HasSeparator (line : List Char) : Prop :=
  ∃ front rest, line = front ++ '=' :: rest ∧ slashesBehind front % 2 = 0

/-- Whether a backslash protects what follows a text. The flag tells the same of the text. -/
def isProtected (escaped : Bool) (text : List Char) : Bool :=
  text.foldl (fun escaped c => !escaped && c = '\\') escaped

theorem isProtected_concat (escaped : Bool) (text : List Char) (c : Char) :
    isProtected escaped (text ++ [c]) = (!isProtected escaped text && decide (c = '\\')) :=
  List.foldl_append

theorem isProtected_eq (text : List Char) :
    isProtected false text = decide (slashesBehind text % 2 = 1) := by
  induction text using List.reverseRecOn with
  | nil => rfl
  | append_singleton text c ih =>
    rw [isProtected_concat, slashesBehind_concat, ih]
    by_cases hc : c = '\\'
    · simp only [hc, if_true, decide_true, Bool.and_true, ← decide_not, decide_eq_decide]
      omega
    · simp [hc]

theorem splitAtEquals?_eq_none_iff_isProtected (escaped : Bool) :
    splitAtEquals? escaped line = none ↔
      ∀ front rest, line = front ++ '=' :: rest → isProtected escaped front = true := by
  induction line generalizing escaped with
  | nil => simp [splitAtEquals?]
  | cons c line ih =>
    have hcons (next : Bool) (hnext : (!escaped && decide (c = '\\')) = next)
        (hfirst : c = '=' → escaped = true) :
        splitAtEquals? next line = none ↔
          ∀ front rest, c :: line = front ++ '=' :: rest → isProtected escaped front = true := by
      rw [ih]
      constructor
      · intro h front rest hline
        cases front with
        | nil => exact hfirst (List.cons.inj hline).1
        | cons other front =>
          obtain ⟨rfl, hrest⟩ := List.cons.inj hline
          rw [isProtected, List.foldl_cons, hnext]
          exact h front rest hrest
      · intro h front rest hline
        have hfront := h (c :: front) rest (congrArg (c :: ·) hline)
        rwa [isProtected, List.foldl_cons, hnext] at hfront
    cases escaped with
    | true =>
      rw [splitAtEquals?, Option.map_eq_none_iff]
      exact hcons false rfl fun _ => rfl
    | false =>
      rw [splitAtEquals?]
      split
      · rename_i hequals
        exact iff_of_false (by simp) fun h => Bool.false_ne_true (h [] line (by rw [hequals]; rfl))
      · rename_i hequals
        rw [Option.map_eq_none_iff]
        exact hcons (c = '\\') rfl fun h => absurd h hequals

/-- A line cannot be cut if and only if it has no separator. -/
theorem splitAtEquals?_eq_none_iff : splitAtEquals? false line = none ↔ ¬HasSeparator line := by
  rw [splitAtEquals?_eq_none_iff_isProtected, HasSeparator]
  simp only [isProtected_eq, decide_eq_true_eq, not_exists, not_and]
  refine forall₂_congr fun front rest => imp_congr_right fun _ => ?_
  omega

/-! ### Lines -/

/-- The line is neither blank nor a comment, leading blanks aside, and has no separator. -/
structure IsMalformed (raw : List Char) : Prop where
  not_blank : trimStart raw ≠ []
  not_comment : ∀ c ∈ (trimStart raw).head?, c ≠ '#' ∧ c ≠ '!'
  not_separated : ¬HasSeparator (trimStart raw)

theorem isPassedOver_eq_false_iff : isPassedOver line = false ↔
    line ≠ [] ∧ ∀ c ∈ line.head?, c ≠ '#' ∧ c ≠ '!' := by
  cases line <;> simp [isPassedOver]

theorem isMalformed_iff : IsMalformed raw ↔
    isPassedOver (trimStart raw) = false ∧ readEntry? (trimStart raw) = none := by
  unfold readEntry?
  rw [Option.map_eq_none_iff, splitAtEquals?_eq_none_iff, isPassedOver_eq_false_iff]
  exact ⟨fun h => ⟨⟨h.not_blank, h.not_comment⟩, h.not_separated⟩, fun h => ⟨h.1.1, h.1.2, h.2⟩⟩

instance : DecidablePred IsMalformed := fun _ => decidable_of_iff' _ isMalformed_iff

/-- A malformed line is the first one. -/
structure IsFirstMalformed (pieces before : List (List Char)) (raw : List Char) : Prop where
  exists_after : ∃ after, pieces = before ++ raw :: after
  not_before : ∀ other ∈ before, ¬IsMalformed other
  isMalformed : IsMalformed raw

/-- Either no line is malformed, or there is a first one. -/
theorem forall_or_exists_isFirstMalformed (pieces : List (List Char)) :
    (∀ raw ∈ pieces, ¬IsMalformed raw) ∨ ∃ before raw, IsFirstMalformed pieces before raw := by
  induction pieces with
  | nil => exact .inl (by simp)
  | cons raw pieces ih =>
    by_cases hraw : IsMalformed raw
    · exact .inr ⟨[], raw, ⟨pieces, rfl⟩, by simp, hraw⟩
    · rcases ih with hall | ⟨before, other, ⟨after, rfl⟩, hbefore, hother⟩
      · exact .inl (List.forall_mem_cons.mpr ⟨hraw, hall⟩)
      · exact .inr ⟨raw :: before, other, ⟨after, rfl⟩,
          List.forall_mem_cons.mpr ⟨hraw, hbefore⟩, hother⟩

/-- The entry of a line that has one. -/
def lineEntry? (raw : List Char) : Option (String × String) :=
  if isPassedOver (trimStart raw) then none else readEntry? (trimStart raw)

/-- Add entries one by one. -/
def insertAll (entries : List (String × String)) (properties : Properties) : Properties :=
  entries.foldl (fun found entry => found.insert entry.1 entry.2) properties

theorem insertAll_append (entries others : List (String × String)) (properties : Properties) :
    insertAll (entries ++ others) properties = insertAll others (insertAll entries properties) :=
  List.foldl_append

/-- Of several entries with one key the last one counts. -/
theorem getElem?_insertAll (entries : List (String × String)) (properties : Properties)
    (key : String) : (insertAll entries properties)[key]? =
      (entries.reverse.lookup key).or properties[key]? := by
  induction entries using List.reverseRecOn with
  | nil => rfl
  | append_singleton entries entry ih =>
    rw [insertAll_append, List.reverse_concat, List.lookup_cons]
    refine Std.ExtTreeMap.getElem?_insert.trans ?_
    by_cases hkey : key = entry.1
    · simp [hkey]
    · have hother : (key == entry.1) = false := beq_eq_false_iff_ne.mpr hkey
      rw [hother]
      simpa [Ne.symm hkey] using ih

/-- Lines of which none is malformed add their entries. -/
theorem parseLines_of_forall {pieces : List (List Char)} (h : ∀ raw ∈ pieces, ¬IsMalformed raw)
    (number : Nat) (properties : Properties) : parseLines number pieces properties =
      .ok (insertAll (pieces.filterMap lineEntry?) properties) := by
  induction pieces generalizing number properties with
  | nil => rfl
  | cons raw pieces ih =>
    obtain ⟨hraw, hpieces⟩ := List.forall_mem_cons.mp h
    rw [isMalformed_iff, not_and] at hraw
    rw [parseLines, List.filterMap_cons, lineEntry?]
    split
    · exact ih hpieces _ _
    · rename_i hpassed
      cases hentry : readEntry? (trimStart raw) with
      | none => exact absurd hentry (hraw (Bool.eq_false_iff.mpr hpassed))
      | some entry => exact ih hpieces _ _

/-- The first malformed line is reported. -/
theorem parseLines_of_isFirstMalformed {pieces before : List (List Char)}
    (h : IsFirstMalformed pieces before raw) (number : Nat) (properties : Properties) :
    parseLines number pieces properties =
      .error (.malformedLine (number + before.length) (String.ofList raw)) := by
  obtain ⟨⟨after, rfl⟩, hbefore, hraw⟩ := h
  induction before generalizing number properties with
  | nil =>
    obtain ⟨hpassed, hentry⟩ := isMalformed_iff.mp hraw
    rw [List.nil_append, parseLines]
    simp [hpassed, hentry]
  | cons other before ih =>
    obtain ⟨hother, hbefore⟩ := List.forall_mem_cons.mp hbefore
    rw [isMalformed_iff, not_and] at hother
    have hnumber : number + (other :: before).length = number + 1 + before.length := by
      rw [List.length_cons]
      omega
    rw [List.cons_append, parseLines, hnumber]
    split
    · exact ih _ _ hbefore
    · rename_i hpassed
      cases hentry : readEntry? (trimStart other) with
      | none => exact absurd hentry (hother (Bool.eq_false_iff.mpr hpassed))
      | some entry => exact ih _ _ hbefore

/-! ### Texts -/

theorem parse_of_forall {text : String} (h : ∀ raw ∈ lines text.toList, ¬IsMalformed raw) :
    parse text = .ok (insertAll ((lines text.toList).filterMap lineEntry?) ∅) :=
  parseLines_of_forall h 1 ∅

theorem parse_of_isFirstMalformed {text : String} {before : List (List Char)}
    (h : IsFirstMalformed (lines text.toList) before raw) :
    parse text = .error (.malformedLine (before.length + 1) (String.ofList raw)) := by
  rw [parse, parseLines_of_isFirstMalformed h, Nat.add_comm]

/-- A text is parsed if and only if none of its lines is malformed. -/
theorem parse_eq_ok_iff {text : String} {properties : Properties} :
    parse text = .ok properties ↔ (∀ raw ∈ lines text.toList, ¬IsMalformed raw) ∧
      properties = insertAll ((lines text.toList).filterMap lineEntry?) ∅ := by
  constructor
  · intro h
    rcases forall_or_exists_isFirstMalformed (lines text.toList) with hall | ⟨before, raw, hfirst⟩
    · exact ⟨hall, Except.ok.inj (h.symm.trans (parse_of_forall hall))⟩
    · cases h.symm.trans (parse_of_isFirstMalformed hfirst)
  · rintro ⟨hall, rfl⟩
    exact parse_of_forall hall

/-- The error of a text is about its first malformed line. -/
theorem parse_eq_error_iff {text : String} {error : ConfigError} :
    parse text = .error error ↔ ∃ before raw, IsFirstMalformed (lines text.toList) before raw ∧
      error = .malformedLine (before.length + 1) (String.ofList raw) := by
  constructor
  · intro h
    rcases forall_or_exists_isFirstMalformed (lines text.toList) with hall | ⟨before, raw, hfirst⟩
    · cases h.symm.trans (parse_of_forall hall)
    · exact ⟨before, raw, hfirst, Except.error.inj (h.symm.trans (parse_of_isFirstMalformed hfirst))⟩
  · rintro ⟨before, raw, hfirst, rfl⟩
    exact parse_of_isFirstMalformed hfirst

/-- The text ends where one of its lines ends. -/
def EndsLine (text : String) : Prop :=
  text = "" ∨ text.toList.getLast? = some '\n'

theorem lines_append_of_endsLine {first : String} (h : EndsLine first) (second : String) :
    lines (first ++ second).toList = lines first.toList ++ lines second.toList := by
  rw [String.toList_append]
  exact lines_append (h.imp_left String.toList_eq_nil_iff.mpr) _

/-- Behind lines of which none is malformed, the first malformed line is the first one of the
rest. -/
theorem IsFirstMalformed.append {pieces before others : List (List Char)}
    (hothers : ∀ other ∈ others, ¬IsMalformed other) (h : IsFirstMalformed pieces before raw) :
    IsFirstMalformed (others ++ pieces) (others ++ before) raw := by
  obtain ⟨⟨after, rfl⟩, hbefore, hraw⟩ := h
  exact ⟨⟨after, by rw [List.append_assoc]⟩, List.forall_mem_append.mpr ⟨hothers, hbefore⟩, hraw⟩

/-- The first malformed line stays the first one when more lines follow. -/
theorem IsFirstMalformed.append_right {pieces before : List (List Char)}
    (h : IsFirstMalformed pieces before raw) (others : List (List Char)) :
    IsFirstMalformed (pieces ++ others) before raw := by
  obtain ⟨⟨after, rfl⟩, hbefore, hraw⟩ := h
  exact ⟨⟨after ++ others, by rw [List.append_assoc, List.cons_append]⟩, hbefore, hraw⟩

/-- What is parsed of two texts in a row. -/
structure Concatenates (first second : String) : Prop where
  /-- The entries of both texts are found, those of the second one first. -/
  both {entries others : Properties} (hfirst : parse first = .ok entries)
    (hsecond : parse second = .ok others) : ∃ all, parse (first ++ second) = .ok all ∧
      ∀ key : String, all[key]? = others[key]?.or entries[key]?
  /-- An error in the first text is the error of the whole. -/
  first_error {error : ConfigError} (hfirst : parse first = .error error) :
    parse (first ++ second) = .error error
  /-- An error in the second text alone is an error of the whole, in a line that is counted from the
  beginning. -/
  second_error {entries : Properties} {number : Nat} {content : String}
    (hfirst : parse first = .ok entries)
    (hsecond : parse second = .error (.malformedLine number content)) :
    parse (first ++ second) =
      .error (.malformedLine (number + (lines first.toList).length) content)

/-- What a text that is not parsed is refused for. -/
structure ReportsFirst (text : String) : Prop where
  /-- A text is refused if and only if one of its lines is malformed. -/
  exists_iff : (∃ error, parse text = .error error) ↔ ∃ raw ∈ lines text.toList, IsMalformed raw
  /-- The line that is reported is the first one that is malformed, with its number and content. -/
  error_eq {error : ConfigError} (h : parse text = .error error) :
    ∃ before raw, IsFirstMalformed (lines text.toList) before raw ∧
      error = .malformedLine (before.length + 1) (String.ofList raw)

theorem concatenates {first : String} (h : EndsLine first) (second : String) :
    Concatenates first second := by
  have hlines := lines_append_of_endsLine h second
  constructor
  case both =>
    intro entries others hfirst hsecond
    obtain ⟨hbefore, rfl⟩ := parse_eq_ok_iff.mp hfirst
    obtain ⟨hbehind, rfl⟩ := parse_eq_ok_iff.mp hsecond
    have hall := hlines ▸ List.forall_mem_append.mpr ⟨hbefore, hbehind⟩
    refine ⟨_, parse_of_forall hall, fun key => ?_⟩
    rw [hlines, List.filterMap_append, getElem?_insertAll, getElem?_insertAll, getElem?_insertAll,
      List.reverse_append, List.lookup_append, Option.or_assoc, Std.ExtTreeMap.getElem?_empty,
      Option.or_none, Option.or_none]
  case first_error =>
    intro error hfirst
    obtain ⟨before, raw, hraw, rfl⟩ := parse_eq_error_iff.mp hfirst
    exact parse_of_isFirstMalformed (hlines ▸ hraw.append_right _)
  case second_error =>
    intro entries number content hfirst hsecond
    obtain ⟨before, raw, hraw, herror⟩ := parse_eq_error_iff.mp hsecond
    obtain ⟨rfl, rfl⟩ := ConfigError.malformedLine.inj herror
    have hall := parse_of_isFirstMalformed
      (hlines ▸ hraw.append (parse_eq_ok_iff.mp hfirst).1)
    rw [hall, List.length_append, Nat.add_comm _ before.length, Nat.add_right_comm]

theorem reportsFirst (text : String) : ReportsFirst text := by
  constructor
  case exists_iff =>
    constructor
    · rintro ⟨error, herror⟩
      obtain ⟨before, raw, ⟨⟨after, hlines⟩, -, hraw⟩, -⟩ := parse_eq_error_iff.mp herror
      exact ⟨raw, hlines ▸ List.mem_append_right _ List.mem_cons_self, hraw⟩
    · rintro ⟨raw, hmem, hraw⟩
      rcases forall_or_exists_isFirstMalformed (lines text.toList) with hall | ⟨before, other, hfirst⟩
      · exact absurd hraw (hall raw hmem)
      · exact ⟨_, parse_of_isFirstMalformed hfirst⟩
  case error_eq => exact parse_eq_error_iff.mp

/-- Texts are read line by line, and the first line that cannot be read is reported. -/
theorem parse_lineByLine :
    (∀ first second : String, EndsLine first → Concatenates first second) ∧
      ∀ text : String, ReportsFirst text :=
  ⟨fun _ second h => concatenates h second, reportsFirst⟩

/-- The protected equals sign on the second line of a text does not separate, and behind a text of
two lines this line is the fourth. -/
theorem parse_lineByLine_sample : EndsLine "a=1\r\n\n" ∧
    (∃ entries, parse "a=1\r\n\n" = .ok entries) ∧
    parse "#c\nb\\=2" = .error (.malformedLine 2 "b\\=2") ∧
    parse ("a=1\r\n\n" ++ "#c\nb\\=2") = .error (.malformedLine 4 "b\\=2") := by
  have hends : EndsLine "a=1\r\n\n" := .inr (by decide)
  have hfirst : ∀ raw ∈ lines "a=1\r\n\n".toList, ¬IsMalformed raw := by decide
  have hsecond : parse "#c\nb\\=2" = .error (.malformedLine 2 "b\\=2") := rfl
  exact ⟨hends, ⟨_, parse_of_forall hfirst⟩, hsecond,
    (parse_lineByLine.1 _ _ hends).second_error (parse_of_forall hfirst) hsecond⟩

end Properties

end SketchApk
