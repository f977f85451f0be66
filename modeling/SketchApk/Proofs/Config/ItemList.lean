import SketchApk.Config.Property
import SketchApk.Proofs.Config.Property
import SketchApk.Proofs.Text.Substitution

/-!
# Reading lists back

A list of items that was saved as one value is read back with its items trimmed, and without those
of which nothing is left. Blanks that a value loses at its start make no difference.

## Main definitions

* `ItemList.reread` : the items that are read back.

## Main statements

* `ItemList.escape_eq_substitute` : the spelling of an item as two replacements in a row.
* `ItemList.splitString_kept` : what is read back of the value that saves some items.
* `ItemList.map_reread_eq_iff` : the items that come back as they were.
-/

namespace SketchApk.ItemList

open Text

/-! ### Pieces -/

/-- The spelling of an item doubles its backslashes, and then it puts a backslash in front of each
comma. -/
theorem escape_eq_substitute (item : List Char) :
    escape item = substitute [','] ['\\', ','] (substitute ['\\'] ['\\', '\\'] item) := by
  rw [substitute_singleton, substitute_singleton, List.flatMap_assoc, escape]
  refine List.flatMap_congr fun c _ => ?_
  by_cases hslash : c = '\\'
  · subst hslash
    rfl
  · by_cases hcomma : c = ',' <;> simp [hslash, hcomma]

theorem pieces_cons {c : Char} (hslash : c ≠ '\\') (hcomma : c ≠ ',') (current rest : List Char) :
    pieces current (c :: rest) = pieces (current ++ [c]) rest := by
  rw [pieces, if_neg hcomma] <;> simp [hslash]

theorem pieces_comma (current rest : List Char) :
    pieces current (',' :: rest) = current :: pieces [] rest := by
  rw [pieces] <;> simp

/-- The spelling of an item continues a piece by the item. -/
theorem pieces_escape_append (current item rest : List Char) :
    pieces current (escape item ++ rest) = pieces (current ++ item) rest := by
  induction item generalizing current with
  | nil => rw [List.append_nil]; rfl
  | cons c item ih =>
    have hcurrent : current ++ c :: item = current ++ [c] ++ item := by simp
    rw [escape, List.flatMap_cons, hcurrent, ← ih]
    by_cases hc : c = '\\' ∨ c = ','
    · rw [if_pos hc]
      rfl
    · rw [if_neg hc]
      rw [not_or] at hc
      exact pieces_cons hc.1 hc.2 current _

theorem pieces_escape (current item : List Char) :
    pieces current (escape item) = [current ++ item] := by
  have h := pieces_escape_append current item []
  rwa [List.append_nil] at h

/-- The pieces of the value that saves some items are the items. -/
theorem pieces_join (item : List Char) (items : List (List Char)) :
    pieces [] (join (item :: items)) = item :: items := by
  induction items generalizing item with
  | nil => exact pieces_escape [] item
  | cons other items ih =>
    rw [join, pieces_escape_append, pieces_comma, ih other, List.nil_append]
    simp

/-- A blank in front of a value makes no difference once the pieces are trimmed. -/
theorem map_trim_pieces_cons {c : Char} (hc : isBlank c = true) (current value : List Char) :
    (pieces (c :: current) value).map trim = (pieces current value).map trim := by
  have htrim (text : List Char) : trim (c :: text) = trim text := by
    rw [trim, trim, trimStart_cons_of_isBlank text hc]
  induction current, value using pieces.induct with
  | case1 current => simp [pieces, htrim]
  | case2 current d rest ih => exact ih
  | case3 current => simp [pieces, htrim]
  | case4 current rest => rw [pieces_comma, pieces_comma, List.map_cons, List.map_cons, htrim]
  | case5 current d rest hpair hsingle hcomma ih =>
    have hslash : d ≠ '\\' := by
      intro hslash
      cases rest with
      | nil => exact hsingle hslash rfl
      | cons e rest => exact hpair e rest hslash rfl
    rw [pieces_cons hslash hcomma, pieces_cons hslash hcomma]
    exact ih

theorem split_cons_of_isBlank {c : Char} (hc : isBlank c = true) (rest : List Char) :
    split (c :: rest) = split rest := by
  have hslash : c ≠ '\\' := by rintro rfl; exact absurd hc (by decide)
  have hcomma : c ≠ ',' := by rintro rfl; exact absurd hc (by decide)
  rw [split, split, pieces_cons hslash hcomma, List.nil_append, map_trim_pieces_cons hc]

/-- Blanks that a value loses at its start make no difference. -/
theorem split_dropWhile {p : Char → Bool} (hp : ∀ c, p c = true → isBlank c = true)
    (value : List Char) : split (value.dropWhile p) = split value := by
  induction value with
  | nil => rfl
  | cons c rest ih =>
    cases hc : p c with
    | false => rw [List.dropWhile_cons_of_neg (by simp [hc])]
    | true => rw [List.dropWhile_cons_of_pos hc, ih, split_cons_of_isBlank (hp c hc)]

/-- The items that are listed by the value that saves some items. -/
theorem split_join (items : List (List Char)) :
    split (join items) = (items.map trim).filter (· ≠ []) := by
  cases items with
  | nil => rfl
  | cons item items => rw [split, pieces_join]

/-! ### Items -/

/-- The items that are read back of some items. -/
def reread (items : List String) : List String :=
  (items.map trimmed).filter (· ≠ "")

/-- The items that are listed by the value that saves some items. -/
theorem splitString_joinStrings_eq (items : List String) :
    splitString (joinStrings items) = reread items := by
  rw [splitString, joinStrings, String.toList_ofList, split_join, reread]
  have hempty (item : String) : trimmed item ≠ "" ↔ trim item.toList ≠ [] := by simp [trimmed]
  simp only [List.filter_map, List.map_map, Function.comp_def, hempty]
  rfl

/-- What is read back of the value that saves some items. -/
theorem splitString_kept (items : List String) :
    splitString (String.ofList (Properties.kept (joinStrings items).toList)) = reread items := by
  obtain ⟨p, hp, hkept⟩ := Properties.exists_kept (joinStrings items).toList
  rw [splitString, String.toList_ofList, hkept, split_dropWhile hp]
  exact splitString_joinStrings_eq items

theorem reread_eq_self {items : List String} (h : ∀ item ∈ items, item ≠ "" ∧ trimmed item = item) :
    reread items = items := by
  have htrimmed : items.map trimmed = items :=
    (List.map_congr_left fun item hitem => (h item hitem).2).trans items.map_id
  rw [reread, htrimmed]
  exact List.filter_eq_self.mpr fun item hitem => decide_eq_true (h item hitem).1

/-- The items come back as they were if and only if none is empty or has a blank at an end. Items
may be compared by any function that tells an item from what trimming makes of it. -/
theorem map_reread_eq_iff {γ : Type} {g : String → γ}
    (hg : ∀ item, g (trimmed item) = g item → trimmed item = item) {items : List String} :
    (reread items).map g = items.map g ↔ ∀ item ∈ items, item ≠ "" ∧ trimmed item = item := by
  constructor
  · intro h
    have hlength := congrArg List.length h
    rw [List.length_map, List.length_map, reread, ← items.length_map trimmed,
      List.length_filter_eq_length_iff] at hlength
    have hreread : reread items = items.map trimmed := List.filter_eq_self.mpr hlength
    rw [hreread, List.map_map, List.map_inj_left] at h
    intro item hitem
    have htrimmed := hg item (h item hitem)
    have hne := hlength (trimmed item) (List.mem_map_of_mem hitem)
    rw [htrimmed] at hne
    exact ⟨of_decide_eq_true hne, htrimmed⟩
  · intro h
    rw [reread_eq_self h]

end SketchApk.ItemList
