import Mathlib.Tactic.SplitIfs
import SketchApk.Proofs.Path.Trim

/-!
# File names

The file name of a path is its last segment, unless that is silent or leads upwards. A name that is
put behind a directory keeps its last segment, so paths that end in one name have one file name.

## Main definitions

* `Path.IsName` : the names of entries.

## Main statements

* `Path.fileName?_of_split` : the file name of a path that does not end in a dot or a slash.
* `Path.exists_fileName?_div` : the file name of an entry does not depend on its directory.
* `Path.isName_of_fileName?` : a file name is a name that can be put behind a directory.
* `Path.toList_text_div_of_isName`, `Path.exists_segments_div` : the text and the segments of an
  entry of a directory.
-/

namespace SketchApk

namespace Path

open Text

/-- The file name of a path that does not end in a dot or a slash is its last segment. -/
theorem fileName?_of_split {path : Path} {front : List (List Char)} {last : List Char} {c : Char}
    (h : split '/' path.text.toList = front ++ [last ++ [c]]) (hdot : c ≠ '.') :
    path.fileName? = some (String.ofList (last ++ [c])) := by
  have hne (text : String) (htext : text.toList.getLast? ≠ some c) :
      String.ofList (last ++ [c]) ≠ text := by
    rintro rfl
    simp only [String.toList_ofList, List.getLast?_concat, ne_eq, not_true_eq_false] at htext
  have hdots (text : String) (htext : text.toList.getLast? = some '.') :
      String.ofList (last ++ [c]) ≠ text :=
    hne text (by rw [htext]; exact fun heq => hdot (Option.some.inj heq).symm)
  have hsilent : isSilent (String.ofList (last ++ [c])) = false := by
    simp only [isSilent, Bool.or_eq_false_iff, decide_eq_false_iff_not]
    exact ⟨hne "" (by simp), hdots "." rfl⟩
  have hloud (segments : List String) :
      (dropSilentEnd (segments ++ [String.ofList (last ++ [c])])).getLast? =
        some (String.ofList (last ++ [c])) := by
    rw [dropSilentEnd, List.reverse_concat, List.dropWhile_cons_of_neg (by simp only [hsilent]; decide),
      List.reverse_cons, List.reverse_reverse, List.getLast?_concat]
  have hsplit : ∃ parent, path.splitLast? = some (parent, String.ofList (last ++ [c])) := by
    rw [splitLast?, segments, h, List.map_append]
    cases front with
    | nil =>
      have htext : path.text.toList = last ++ [c] := by rw [← join_split '/' path.text.toList, h]; rfl
      have hmem : last ++ [c] ∈ split '/' path.text.toList := by
        rw [h]
        exact List.mem_singleton_self _
      have hslash : '/' ∉ last ++ [c] := not_mem_of_mem_split hmem
      have habsolute : path.isAbsolute = false := by
        rw [isAbsolute, htext]
        exact decide_eq_false fun hhead => hslash (List.mem_of_mem_head? hhead)
      refine ⟨⟨""⟩, ?_⟩
      simp only [List.map_nil, List.map_cons, List.nil_append, habsolute, Bool.false_or]
      rw [if_neg (by simp)]
      rfl
    | cons first front =>
      simp only [List.map_cons, List.map_nil, List.cons_append, hloud]
      split <;> exact ⟨_, rfl⟩
  obtain ⟨parent, hsplit⟩ := hsplit
  rw [fileName?, hsplit]
  dsimp only
  rw [hsilent, decide_eq_false (hdots ".." rfl)]
  rfl

/-- The text of an entry of a directory ends with its name, behind a slash if anything stands in
front of it. -/
theorem toList_text_div (path : Path) (name : String) :
    (path / name).text.toList = name.toList ∨
      ∃ front, (path / name).text.toList = front ++ '/' :: name.toList := by
  change (path.join ⟨name⟩).text.toList = _ ∨ ∃ front, (path.join ⟨name⟩).text.toList = _
  rw [join]
  split_ifs with habsolute hslash
  · exact .inl rfl
  · rcases Bool.or_eq_true_iff.mp hslash with hempty | hlast
    · left
      rw [isEmpty, String.isEmpty_iff] at hempty
      simp [hempty]
    · right
      obtain ⟨front, hfront⟩ := List.getLast?_eq_some_iff.mp (of_decide_eq_true hlast)
      exact ⟨front, by simp [hfront]⟩
  · exact .inr ⟨path.text.toList, by simp⟩

theorem isEmpty_div (path : Path) {name : String} (h : name ≠ "") : (path / name).isEmpty = false := by
  have hne : name.toList ≠ [] := by simpa using h
  rw [isEmpty, Bool.eq_false_iff, ne_eq, String.isEmpty_iff, ← String.toList_eq_nil_iff]
  rcases path.toList_text_div name with htext | ⟨front, htext⟩ <;> rw [htext]
  · exact hne
  · simp

/-- The file name of an entry does not depend on its directory. -/
theorem exists_fileName?_div {name : String} {text : List Char} {c : Char}
    (h : name.toList = text ++ [c]) (hslash : c ≠ '/') (hdot : c ≠ '.') :
    ∃ file, ∀ path : Path, (path / name).fileName? = some file := by
  obtain ⟨front, last, -, hsplit⟩ := exists_split_concat hslash text
  refine ⟨String.ofList (last ++ [c]), fun path => ?_⟩
  rcases path.toList_text_div name with htext | ⟨before, htext⟩
  · exact fileName?_of_split (by rw [htext, h, hsplit]) hdot
  · have hpieces : split '/' (path / name).text.toList =
        split '/' before ++ front ++ [last ++ [c]] := by
      rw [htext, split_append_separator, h, hsplit, List.append_assoc]
    exact fileName?_of_split hpieces hdot

/-! ### Entries of directories -/

theorem descend_nil (path : Path) : path.descend [] = path :=
  rfl

theorem descend_append (path : Path) (front rest : List String) :
    path.descend (front ++ rest) = (path.descend front).descend rest :=
  List.foldl_append

theorem descend_concat (path : Path) (front : List String) (name : String) :
    path.descend (front ++ [name]) = path.descend front / name :=
  path.descend_append front [name]

theorem isEmpty_descend {path : Path} (h : path.isEmpty = false) (names : List String) :
    (path.descend names).isEmpty = false := by
  induction names using List.reverseRecOn with
  | nil => exact h
  | append_singleton front name ih =>
    rw [descend_concat]
    by_cases hname : name = ""
    · subst hname
      change ((path.descend front).join ⟨""⟩).isEmpty = false
      rw [isEmpty] at ih
      rw [join, if_neg (by decide), isEmpty]
      split_ifs <;> simp_all
    · exact isEmpty_div _ hname

/-- The text is one segment, and it is neither silent nor leads upwards. -/
structure IsName (name : String) : Prop where
  not_mem : '/' ∉ name.toList
  ne_empty : name ≠ ""
  ne_dot : name ≠ "."
  ne_dots : name ≠ ".."

instance : DecidablePred IsName := fun name =>
  decidable_of_iff ('/' ∉ name.toList ∧ name ≠ "" ∧ name ≠ "." ∧ name ≠ "..")
    ⟨fun ⟨hmem, hempty, hdot, hdots⟩ => ⟨hmem, hempty, hdot, hdots⟩,
      fun ⟨hmem, hempty, hdot, hdots⟩ => ⟨hmem, hempty, hdot, hdots⟩⟩

theorem mem_of_mem_dropSilentEnd {segments : List String} {segment : String}
    (h : segment ∈ dropSilentEnd segments) : segment ∈ segments :=
  List.mem_reverse.mp ((List.dropWhile_sublist _).subset (List.mem_reverse.mp h))

/-- The last segment of a path is one of its segments. -/
theorem mem_segments_of_splitLast? {path before : Path} {last : String}
    (h : path.splitLast? = some (before, last)) : last ∈ path.segments := by
  rw [splitLast?] at h
  split at h
  · cases h
  · rename_i first rest hsegments
    rw [hsegments]
    split at h
    · have hmem : last ∈ dropSilentEnd rest := by
        dsimp only at h
        split_ifs at h <;> cases h <;> exact List.mem_of_getLast? ‹_›
      exact List.mem_cons_of_mem _ (mem_of_mem_dropSilentEnd hmem)
    · split_ifs at h
      cases h
      exact List.mem_cons_self

/-- A file name is a name that can be put behind a directory. -/
theorem isName_of_fileName? {path : Path} {name : String} (h : path.fileName? = some name) :
    IsName name := by
  rw [fileName?] at h
  split at h
  · split_ifs at h with hloud
    cases h
    obtain ⟨segment, hsegment, rfl⟩ := List.mem_map.mp (mem_segments_of_splitLast? ‹_›)
    simp only [isSilent, Bool.or_eq_true, decide_eq_true_eq, not_or] at hloud
    refine ⟨?_, hloud.1.1, hloud.1.2, hloud.2⟩
    rw [String.toList_ofList]
    exact not_mem_of_mem_split hsegment
  · cases h

variable {directory : Path} {name : String}

/-- The text of an entry is that of its directory with at most one slash and the name behind it. -/
theorem toList_text_div_of_isName (hname : IsName name) (hdirectory : directory.isEmpty = false) :
    (directory / name).text.toList = directory.text.toList ++ '/' :: name.toList ∨
      ∃ front, directory.text.toList = front ++ ['/'] ∧
        (directory / name).text.toList = front ++ '/' :: name.toList := by
  have hrelative : (Path.mk name).isAbsolute = false := by
    rw [isAbsolute, decide_eq_false_iff_not]
    exact fun hhead => hname.not_mem (List.mem_of_mem_head? hhead)
  change (directory.join ⟨name⟩).text.toList = _ ∨ ∃ front, _ ∧ (directory.join ⟨name⟩).text.toList = _
  rw [join, hrelative, hdirectory, Bool.false_or, if_neg Bool.false_ne_true]
  split_ifs with hslash
  · obtain ⟨front, hfront⟩ := List.getLast?_eq_some_iff.mp (of_decide_eq_true hslash)
    exact .inr ⟨front, hfront, by simp [hfront]⟩
  · exact .inl (by simp)

/-- The last segment of the path of an entry is its name. -/
theorem exists_segments_div (directory : Path) (hname : IsName name) :
    ∃ front, (directory / name).segments = front ++ [name] := by
  cases hdirectory : directory.isEmpty with
  | true =>
    have htext : (directory / name).text = name := by
      have hempty : directory.text = "" := String.isEmpty_iff.mp hdirectory
      change (directory.join ⟨name⟩).text = name
      rw [join]
      split
      · rfl
      · simp [hdirectory, hempty]
    refine ⟨[], ?_⟩
    rw [segments, htext, split_eq_singleton hname.not_mem]
    simp
  | false =>
    obtain ⟨front, htext⟩ :
        ∃ front, (directory / name).text.toList = front ++ '/' :: name.toList := by
      rcases toList_text_div_of_isName hname hdirectory with htext | ⟨front, -, htext⟩
      · exact ⟨_, htext⟩
      · exact ⟨_, htext⟩
    refine ⟨(split '/' front).map String.ofList, ?_⟩
    rw [segments, htext, split_append_separator, split_eq_singleton hname.not_mem, List.map_append]
    simp

/-- Segments are joined by slashes. -/
theorem toList_text_ofSegments (pieces : List String) :
    (ofSegments pieces).text.toList = Text.join '/' (pieces.map String.toList) := by
  rw [ofSegments, String.toList_intercalate]
  exact intercalate_eq_join '/' _

/-- A path consists of its segments. -/
theorem ofSegments_segments (path : Path) : ofSegments path.segments = path := by
  have hpieces : path.segments.map String.toList = split '/' path.text.toList := by
    simp [segments, Function.comp_def]
  have htext : (ofSegments path.segments).text.toList = path.text.toList := by
    rw [toList_text_ofSegments, hpieces, join_split]
  exact congrArg Path.mk (String.toList_inj.mp htext)

end Path

end SketchApk
