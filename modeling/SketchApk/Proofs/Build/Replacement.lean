import SketchApk.Proofs.Build.Report
import SketchApk.Proofs.File.Standing
import SketchApk.Proofs.Plan.Course
import SketchApk.Proofs.Plan.Directories

/-!
# Replacing a report at one stroke

A report is written under a temporary name and then renamed. So at any time there is under its path
what was there before, or the complete report: whatever the write is that is under way, and whatever
goes wrong. When it is through, nothing is left under the temporary name.

That is a statement about a path, and a path may depend on what it leads to. It fails when the build
path passes through the place of the report itself, as a link that is replaced or as a directory
that is created, and when the entry of the report is a link to the temporary file.

## Main definitions

* `RunReport.IsComplete` : under a path there is a report.
* `RunReport.ReplacesAtOnce` : a history in which there is never anything between the older report
  and the complete new one.
* `RunReport.IsApart` : a build path that does not depend on the report in it.

## Main statements

* `RunReport.replacesAtOnce` : reports are replaced at one stroke.
-/

namespace SketchApk

open Plan Attempt

variable {process : Nat} {place there : Location} {files last state : FileSystem} {base path : Path}
  {history : History}

/-- A world whose tools do nothing. -/
def World.still (place : Location) : World :=
  ⟨place, fun _ files => (.ok ⟨none, "", ""⟩, files)⟩

namespace RunReport

/-- Under a path there is a file with a text, which is no link. -/
def IsComplete (place : Location) (path : Path) (text : String) (state : FileSystem) : Prop :=
  ∃ mode, state.standing place path =
    (some (.file mode (.ofText text)), some (.file mode (.ofText text)))

/-- Under a path there is what there was with some files, or a report. -/
def IsSettled (files : FileSystem) (place : Location) (path : Path) (text : String)
    (state : FileSystem) : Prop :=
  state.standing place path = files.standing place path ∨ IsComplete place path text state

/-- In a history that begins with some files and ends with others, a text takes the place of what
there is under a path at one stroke, or what is there stays. Before, it has a temporary path. -/
structure ReplacesAtOnce (place : Location) (files : FileSystem) (path temporary : Path)
    (text : String) (history : History) (result : Except Fault Unit) (last : FileSystem) :
    Prop where
  isSettled {state : FileSystem} (h : FileSystem.Visits place files history last state) :
    IsSettled files place path text state
  of_error {fault : Fault} (h : result = .error fault) :
    last.standing place path = files.standing place path
  of_ok (h : result = .ok ()) :
    IsComplete place path text last ∧ last.standing place temporary = (none, none)

/-! ### The directory of a report -/

/-- The files when those directories have been created on the way to a path that are missing. -/
def withParent (files : FileSystem) (place : Location) (path : Path) : FileSystem :=
  match path.parent? with
  | none => files
  | some parent => ((makeDirectories parent).run.run ((World.still place).answer false) files).2

theorem only_makeDirectories_isMaking (path : Path) :
    (makeDirectories path).run.Only Request.IsMaking :=
  only_makeDirectories (fun _ => trivial) (fun _ => trivial) path

theorem sameFiles_withParent (files : FileSystem) (place : Location) (path : Path) :
    files.SameFiles (withParent files place path) := by
  rw [withParent]
  split
  · exact .refl files
  · exact (only_makeDirectories_isMaking _).sameFiles files

/-- Nothing is created when the directory of a report exists. -/
theorem withParent_eq_self (h : files.HasDirectory place base there) :
    withParent files place (base / fileName) = files := by
  obtain ⟨parent, hparent⟩ := Path.exists_parent?_div base isName_fileName
  rw [withParent, hparent]
  cases hempty : parent.isEmpty with
  | true =>
    obtain rfl : parent = ⟨""⟩ := congrArg Path.mk (String.isEmpty_iff.mp hempty)
    have hancestors : (⟨""⟩ : Path).ancestors = [⟨""⟩] := by decide
    have hchain : (makeChain (⟨""⟩ : Path).ancestors).run ((World.still place).answer false) files =
        (.ok (), files) := by
      rw [hancestors]
      rfl
    exact (Prod.mk.inj (run_makeDirectories hchain)).2
  | false =>
    have hbase : base.isEmpty = false := by
      refine Bool.eq_false_iff.mpr fun hbase => ?_
      obtain rfl : base = ⟨""⟩ := congrArg Path.mk (String.isEmpty_iff.mp hbase)
      have hnone : ((⟨""⟩ : Path) / fileName).parent? = some ⟨""⟩ := by decide
      cases Option.some.inj (hnone.symm.trans hparent)
      cases hempty
    obtain ⟨above, habove⟩ := h.exists_of_isOnWay
      (Path.isOnWay_of_parent?_div isName_fileName hbase hparent hempty)
    have hmakes : files.MakesWay place parent
        ((makeDirectories parent).run.run ((World.still place).answer false) files).2 :=
      makesWay_of_run_makeDirectories rfl
    exact hmakes.eq_self habove

/-- The way to a report does not depend on what there is in its place. Of some files others have
been made by creating the directories on the way. If there was something to create, there is nothing
yet in the place of the report. The way does not lead through a link in that place, and such a link
does not lead to the temporary file, which is no link itself. -/
structure IsApart (process : Nat) (files made : FileSystem) (place : Location) (base : Path) :
    Prop where
  vacant {there : Location} (hmissing : ∀ other, ¬files.HasDirectory place base other)
    (h : made.HasDirectory place base there) : made.get? (there ++ [fileName]) = none
  direct {there : Location} {target : Path} (h : made.HasDirectory place base there)
    (hlink : made.get? (there ++ [fileName]) = some (.link target)) :
    (made.eraseTree (there ++ [fileName])).HasDirectory place base there
  unlinked {there : Location} (h : made.HasDirectory place base there) (target : Path) :
    made.get? (there ++ [temporaryName process]) ≠ some (.link target)
  elsewhere {there : Location} {target : Target} (h : made.HasDirectory place base there)
    (hresolve : made.resolve place .followed (base / fileName) = .ok target) :
    target.place ≠ there ++ [temporaryName process]

namespace IsApart

variable {made : FileSystem} {written : Content}

/-- While directories are created, there is no other report. -/
theorem standing_withParent
    (h : IsApart process files (withParent files place (base / fileName)) place base) :
    (withParent files place (base / fileName)).standing place (base / fileName) =
      files.standing place (base / fileName) := by
  by_cases hdirectory : ∃ there, files.HasDirectory place base there
  · obtain ⟨there, hthere⟩ := hdirectory
    rw [withParent_eq_self hthere]
  · have hmissing := not_exists.mp hdirectory
    rw [FileSystem.standing_eq_none (FileSystem.nodeOf?_div_eq_none isName_fileName hmissing)]
    refine FileSystem.standing_eq_none ?_
    by_cases hmade : ∃ there,
        (withParent files place (base / fileName)).HasDirectory place base there
    · obtain ⟨there, hthere⟩ := hmade
      exact hthere.nodeOf?_div_eq_none isName_fileName (h.vacant hmissing hthere)
    · exact FileSystem.nodeOf?_div_eq_none isName_fileName (not_exists.mp hmade)

end IsApart

/-! ### The temporary file -/

/-- In a directory to which a path leads there is a temporary file with some content now. -/
structure HasTemporary (process : Nat) (made : FileSystem) (place : Location) (base : Path)
    (there : Location) (mode : Mode) (written : Content) (state : FileSystem) : Prop where
  hasDirectory : made.HasDirectory place base there
  isTree : state.IsTree
  eq_put : state = made.put (there ++ [temporaryName process]) (.file mode written)
  isLike (old : Node) (hold : made.get? (there ++ [temporaryName process]) = some old) :
    old.IsLike (.file mode written)

theorem places_ne (there : Location) (process : Nat) :
    there ++ [temporaryName process] ≠ there ++ [fileName] := by
  simpa using temporaryName_ne process

/-- What is written under the temporary name makes a temporary file. -/
theorem IsApart.exists_hasTemporary {made : FileSystem} {written : Content}
    (h : IsApart process files made place base) (htree : made.IsTree)
    (hwrite : made.overwrite place (base / temporaryName process) written none = .ok state) :
    ∃ there mode, HasTemporary process made place base there mode written state := by
  obtain ⟨-, hname⟩ := withExtension_fileName base process
  obtain ⟨target, mode, hresolve, rfl, hextends⟩ := FileSystem.exists_of_overwrite hwrite
  have hwithin : base.IsWithin (base / temporaryName process) [temporaryName process] :=
    (Path.IsWithin.refl base).div hname
  obtain ⟨there, hthere, -⟩ :=
    FileSystem.exists_of_resolve_within hwithin (List.cons_ne_nil _ _) hresolve
  have hfree : made.LinkFreeAlong there [temporaryName process] := by
    intro front path hne hfront
    obtain ⟨first, rest, rfl⟩ := List.exists_cons_of_ne_nil hne
    obtain ⟨rfl, hrest⟩ := List.cons_prefix_cons.mp hfront
    obtain rfl := List.prefix_nil.mp hrest
    exact h.unlinked hthere path
  have hplace : target.place = there ++ [temporaryName process] :=
    (FileSystem.SameLinks.refl made).place_eq_of_within hthere hfree hwithin (List.cons_ne_nil _ _)
      (List.forall_mem_singleton.mpr hname) hresolve
  refine ⟨there, mode, hthere, htree.overwrite hwrite, by rw [hplace], fun old hold => ?_⟩
  obtain ⟨later, hlater, hlike⟩ := hextends _ old hold
  rw [hplace, FileSystem.get?_put_self] at hlater
  exact Option.some.inj hlater ▸ hlike

namespace HasTemporary

variable {made : FileSystem} {mode : Mode} {written : Content}
  (h : HasTemporary process made place base there mode written state)

include h

theorem extends_state : made.Extends state := by
  rw [h.eq_put]
  exact FileSystem.extends_put h.isLike

/-- Under the temporary name there has been nothing or a file. -/
theorem exists_file {old : Node} (hold : made.get? (there ++ [temporaryName process]) = some old) :
    ∃ mode content, old = .file mode content := by
  have hlike := h.isLike old hold
  cases old with
  | file mode content => exact ⟨mode, content, rfl⟩
  | directory | link => cases hlike

/-- The temporary file does not show under the path of the report. -/
theorem standing_eq (hapart : IsApart process files made place base) :
    state.standing place (base / fileName) = made.standing place (base / fileName) := by
  have hwithin : base.IsWithin (base / fileName) [fileName] :=
    (Path.IsWithin.refl base).div isName_fileName
  have hstart : (base / fileName).start place ≠ there ++ [temporaryName process] := by
    intro hsame
    obtain ⟨mode, hmode⟩ := h.hasDirectory.exists_start
    rw [Path.start, ← hwithin.isAbsolute_eq, ← Path.start, hsame] at hmode
    obtain ⟨_, _, hfile⟩ := h.exists_file hmode
    cases hfile
  have hnode (lastName : LastName) (hne : ∀ target,
      made.resolve place lastName (base / fileName) = .ok target →
        target.place ≠ there ++ [temporaryName process]) :
      state.nodeOf? place lastName (base / fileName) =
        made.nodeOf? place lastName (base / fileName) := by
    rw [h.eq_put]
    exact FileSystem.nodeOf?_put_file (h.eq_put ▸ h.isTree) (by simp) hstart h.isLike hne
  rw [FileSystem.standing, FileSystem.standing, hnode .kept, hnode .followed]
  · exact fun target => hapart.elsewhere h.hasDirectory
  · intro target hresolve
    rw [h.hasDirectory.place_of_resolve_kept isName_fileName hresolve]
    exact (places_ne there process).symm

/-- Nothing but the two entries is touched when the temporary file is renamed. -/
theorem get?_moveTree {other : Location} (htemporary : ¬there ++ [temporaryName process] <+: other)
    (hname : ¬there ++ [fileName] <+: other) :
    (state.moveTree (there ++ [temporaryName process]) (there ++ [fileName])
      (.file mode written)).get? other = made.get? other := by
  rw [← List.isPrefixOf_iff_prefix, Bool.not_eq_true] at htemporary hname
  rw [FileSystem.get?_moveTree hname, FileSystem.get?_eraseTree_of_not_below htemporary, h.eq_put,
    FileSystem.get?_put_of_ne]
  rintro rfl
  rw [List.isPrefixOf_iff_prefix.mpr List.prefix_rfl] at htemporary
  cases htemporary

/-- The temporary file is renamed unless there is a directory in the place of the report. -/
theorem eq_moveTree_of_rename
    (hrename : state.rename place (base / temporaryName process) (base / fileName) = .ok last) :
    (∀ bits, made.get? (there ++ [fileName]) ≠ some (.directory bits)) ∧
      (base / fileName).IsUsable ∧ state.Admits there fileName ∧
      last = state.moveTree (there ++ [temporaryName process]) (there ++ [fileName])
        (.file mode written) := by
  obtain ⟨-, hname⟩ := withExtension_fileName base process
  have hdirectory : state.HasDirectory place base there := h.hasDirectory.extends h.extends_state
  obtain ⟨found, node, _, hsource, -, -⟩ := FileSystem.exists_of_rename hrename
  obtain rfl : found = there ++ [temporaryName process] :=
    hdirectory.place_of_resolve_kept hname hsource
  have hnode : state.get? (there ++ [temporaryName process]) = some node :=
    FileSystem.get?_of_resolve hsource
  rw [h.eq_put, FileSystem.get?_put_self] at hnode
  obtain rfl := Option.some.inj hnode
  obtain ⟨target, htarget, hmoved⟩ := FileSystem.exists_of_rename_file hrename hsource
  have hplace : target.place = there ++ [fileName] :=
    hdirectory.place_of_resolve_kept isName_fileName htarget
  have hold : made.get? (there ++ [fileName]) = target.node? := by
    rw [← FileSystem.get?_of_resolve htarget, hplace, h.eq_put,
      FileSystem.get?_put_of_ne (places_ne there process)]
  rw [hplace, ← hold] at hmoved
  obtain ⟨hnot, hlast⟩ := hmoved.resolve_left (places_ne there process).symm
  exact ⟨hnot, (FileSystem.resolve_eq_ok_iff.mp htarget).1,
    hdirectory.admits_of_resolve isName_fileName htarget, hlast⟩

/-- The way to the directory does not pass through the place of the report. -/
theorem hasDirectory_eraseTree (hapart : IsApart process files made place base)
    (htree : made.IsTree)
    (hnot : ∀ bits, made.get? (there ++ [fileName]) ≠ some (.directory bits)) :
    (made.eraseTree (there ++ [fileName])).HasDirectory place base there := by
  cases hold : made.get? (there ++ [fileName]) with
  | none =>
    rw [htree.eraseTree_eq_self hold]
    exact h.hasDirectory
  | some old =>
    cases old with
    | file bits held =>
      obtain ⟨wants, mode, hleads⟩ := h.hasDirectory
      refine ⟨wants, mode, (htree.keepsWays_eraseTree fun node hnode => ?_).leads hleads⟩
      exact ⟨bits, held, Option.some.inj (hnode.symm.trans hold)⟩
    | directory bits => exact absurd hold (hnot bits)
    | link target => exact hapart.direct h.hasDirectory hold

/-- The way to the directory stays when the temporary file is renamed. -/
theorem hasDirectory_moveTree (htree : made.IsTree)
    (hbefore : (made.eraseTree (there ++ [fileName])).HasDirectory place base there) :
    (state.moveTree (there ++ [temporaryName process]) (there ++ [fileName])
      (.file mode written)).HasDirectory place base there := by
  obtain ⟨wants, bits, hleads⟩ := hbefore
  refine ⟨wants, bits, FileSystem.KeepsWays.leads (fun other node hnode hnot => ?_) hleads⟩
  have hfile (old : Node)
      (hold : (made.eraseTree (there ++ [fileName])).get? (there ++ [temporaryName process]) =
        some old) : ∃ mode content, old = .file mode content :=
    h.exists_file (FileSystem.Keeps.eraseTree made _ _ _ hold)
  have hkept := (htree.eraseTree _).keepsWays_eraseTree hfile other node hnode hnot
  rw [FileSystem.get?_eraseTree, FileSystem.get?_eraseTree] at hkept
  split_ifs at hkept with htemporary hname
  rw [List.isPrefixOf_iff_prefix] at htemporary hname
  rw [h.get?_moveTree htemporary hname, hkept]

/-- When the temporary file has been renamed, it is found under the path of the report. -/
theorem resolve_moveTree (hadmits : state.Admits there fileName)
    (husable : (base / fileName).IsUsable)
    (hafter : (state.moveTree (there ++ [temporaryName process]) (there ++ [fileName])
      (.file mode written)).HasDirectory place base there) (lastName : LastName) :
    (state.moveTree (there ++ [temporaryName process]) (there ++ [fileName])
      (.file mode written)).resolve place lastName (base / fileName) =
        .ok (.existing (there ++ [fileName]) (.file mode written)) := by
  have hself := FileSystem.get?_moveTree_append state (there ++ [temporaryName process])
    (there ++ [fileName]) (.file mode written) []
  rw [if_pos rfl, List.append_nil] at hself
  have hthere : (state.moveTree (there ++ [temporaryName process]) (there ++ [fileName])
      (.file mode written)).get? there = state.get? there := by
    rw [h.get?_moveTree (FileSystem.not_concat_prefix_self _ _)
      (FileSystem.not_concat_prefix_self _ _), h.eq_put, FileSystem.get?_put_of_ne (by simp)]
  rw [hafter.resolve_div isName_fileName husable _ (by simp [hself]), FileSystem.targetAt, hself]
  refine { hadmits with searchable := ?_ }
  rw [FileSystem.isSearchable, hthere]
  exact hadmits.searchable

/-- Behind a temporary file that has been renamed there is the report, and nothing is left of the
other name. -/
theorem isComplete_of_rename {text : String} (htext : written = .ofText text)
    (hapart : IsApart process files made place base) (htree : made.IsTree)
    (hrename : state.rename place (base / temporaryName process) (base / fileName) = .ok last) :
    IsComplete place (base / fileName) text last ∧
      last.standing place (base / temporaryName process) = (none, none) := by
  obtain ⟨-, hname⟩ := withExtension_fileName base process
  obtain ⟨hnot, husable, hadmits, rfl⟩ := h.eq_moveTree_of_rename hrename
  have hafter := h.hasDirectory_moveTree htree (h.hasDirectory_eraseTree hapart htree hnot)
  have hresolve := h.resolve_moveTree hadmits husable hafter
  subst htext
  refine ⟨⟨mode, FileSystem.standing_eq_of_find (hresolve .kept)
    (FileSystem.find_eq_ok_iff.mpr (hresolve .followed))⟩, FileSystem.standing_eq_none ?_⟩
  refine hafter.nodeOf?_div_eq_none hname ?_
  rw [FileSystem.get?_moveTree, FileSystem.get?_eraseTree, if_pos]
  · exact List.isPrefixOf_iff_prefix.mpr List.prefix_rfl
  · refine Bool.eq_false_iff.mpr fun hprefix => ?_
    have hnames := FileSystem.concat_prefix_concat_iff.mp (List.isPrefixOf_iff_prefix.mp hprefix)
    exact temporaryName_ne process hnames.symm

end HasTemporary

/-! ### Writing a report -/

namespace IsApart

variable {made : FileSystem} {text : String}

/-- Creating the directory of a report shows no other report. -/
theorem passes_makeDirectories {parent : Path}
    (h : IsApart process files (withParent files place (base / fileName)) place base)
    (hparent : (base / fileName).parent? = some parent) (text : String) :
    (makeDirectories parent).Passes process place files
      (IsSettled files place (base / fileName) text)
      (fun last => last.standing place (base / fileName) =
        files.standing place (base / fileName))
      fun _ last => last = withParent files place (base / fileName) := by
  have hmade : withParent files place (base / fileName) =
      ((makeDirectories parent).run.run ((World.still place).answer false) files).2 := by
    rw [withParent, hparent]
  have hthrough : (makeDirectories parent).run.GoesThrough process (World.still place).place files
      (fun state => files.SameFiles state ∧ state.SameFiles
        ((makeDirectories parent).run.run ((World.still place).answer false) files).2)
      fun value last => (value, last) =
        (makeDirectories parent).run.run ((World.still place).answer false) files :=
    (only_makeDirectories_isMaking parent).goesThrough_sameFiles
  rw [← hmade] at hthrough
  refine (hthrough.mono_through fun state hstate => ?_).mono fun result last hlast => ?_
  · exact .inl (hstate.1.keeps.standing_eq hstate.2.keeps h.standing_withParent)
  · have hfiles : last = withParent files place (base / fileName) :=
      (congrArg Prod.snd hlast).trans hmade.symm
    cases result with
    | ok value => exact hfiles
    | error fault =>
      subst hfiles
      exact h.standing_withParent

/-- While the temporary file is written, the older report stays. -/
theorem passes_write (h : IsApart process files made place base) (htree : made.IsTree)
    (hmade : made.standing place (base / fileName) = files.standing place (base / fileName)) :
    (Attempt.file (.write (base / temporaryName process) (.ofText text))).Passes process place made
      (IsSettled files place (base / fileName) text)
      (fun last => last.standing place (base / fileName) =
        files.standing place (base / fileName))
      fun _ last => made.overwrite place (base / temporaryName process) (.ofText text) none =
        .ok last := by
  have hkept {written : Content} {state : FileSystem}
      (hwrite : made.overwrite place (base / temporaryName process) written none = .ok state) :
      state.standing place (base / fileName) = files.standing place (base / fileName) := by
    obtain ⟨there, mode, htemporary⟩ := h.exists_hasTemporary htree hwrite
    exact (htemporary.standing_eq h).trans hmade
  have hlast : ((FileOperation.write (base / temporaryName process) (.ofText text)).run place
      made).2.standing place (base / fileName) = files.standing place (base / fileName) := by
    rw [FileOperation.run]
    refine FileOperation.settle_of_forall (fun state => state.standing place (base / fileName) =
      files.standing place (base / fileName)) hmade fun changed hwrite => ?_
    exact hkept hwrite
  refine .file (fun path content written state hsame hwrite => ?_) (.inl hmade) (.inl hlast) ?_
    fun _ _ => hlast
  · cases hsame
    exact .inl (hkept hwrite)
  · intro value hvalue
    rw [FileOperation.run] at hvalue ⊢
    obtain ⟨changed, hwrite, hlast⟩ := FileOperation.exists_of_settle hvalue
    rw [hlast, hwrite]

/-- When the temporary file is renamed, the report is there all at once. -/
theorem passes_rename {state : FileSystem} (h : IsApart process files made place base)
    (htree : made.IsTree)
    (hmade : made.standing place (base / fileName) = files.standing place (base / fileName))
    (hwrite : made.overwrite place (base / temporaryName process) (.ofText text) none = .ok state) :
    (Attempt.file (.rename (base / temporaryName process) (base / fileName))).Passes process place
      state (IsSettled files place (base / fileName) text)
      (fun last => last.standing place (base / fileName) =
        files.standing place (base / fileName))
      fun _ last => IsComplete place (base / fileName) text last ∧
        last.standing place (base / temporaryName process) = (none, none) := by
  obtain ⟨there, mode, htemporary⟩ := h.exists_hasTemporary htree hwrite
  have hstate := (htemporary.standing_eq h).trans hmade
  have hcomplete {last : FileSystem}
      (hrename : state.rename place (base / temporaryName process) (base / fileName) = .ok last) :=
    htemporary.isComplete_of_rename rfl h htree hrename
  refine .file nofun (.inl hstate) ?_ ?_ ?_
  · rw [FileOperation.run]
    exact FileOperation.settle_of_forall (IsSettled files place (base / fileName) text)
      (.inl hstate) fun _ hrename => .inr (hcomplete hrename).1
  · intro value hvalue
    rw [FileOperation.run] at hvalue ⊢
    obtain ⟨changed, hrename, hlast⟩ := FileOperation.exists_of_settle hvalue
    rw [hlast]
    exact hcomplete hrename
  · intro error herror
    rw [FileOperation.run] at herror ⊢
    cases hrename : state.rename place (base / temporaryName process) (base / fileName) with
    | ok changed =>
      rw [hrename] at herror
      cases herror
    | error error => exact hstate

/-- The text of a report takes the place of an older one at one stroke. -/
theorem passes_replaceFile
    (h : IsApart process files (withParent files place (base / fileName)) place base)
    (htree : files.IsTree) (text : String) :
    (replaceFile (base / fileName) text).Passes process place files
      (IsSettled files place (base / fileName) text)
      (fun last => last.standing place (base / fileName) =
        files.standing place (base / fileName))
      fun _ last => IsComplete place (base / fileName) text last ∧
        last.standing place (base / temporaryName process) = (none, none) := by
  obtain ⟨htarget, -⟩ := withExtension_fileName base process
  obtain ⟨parent, hparent⟩ := Path.exists_parent?_div base isName_fileName
  have hmade := h.standing_withParent
  have htree' := (sameFiles_withParent files place (base / fileName)).isTree htree
  rw [replaceFile, hparent]
  refine Passes.bind ((h.passes_makeDirectories hparent text).during _)
    fun _ made hlast hthrough => ?_
  subst hlast
  refine Passes.bind (.always (.processId hthrough)) fun number _ hnumber _ => ?_
  obtain ⟨rfl, rfl⟩ := hnumber
  rw [htarget]
  exact Passes.bind ((h.passes_write htree' hmade).during _) fun _ state hwrite _ =>
    (h.passes_rename htree' hmade hwrite).during _

end IsApart

/-- A report is replaced at one stroke, if the way to it does not depend on what there is in its
place: at any time of any history there is what was there before or the complete report, the former
if writing fails, and the latter in the end if it succeeds, with nothing left of the temporary
file. -/
theorem replacesAtOnce {result : Except Fault Unit} (report : RunReport) (layout : BuildLayout)
    (htree : files.IsTree)
    (hapart : IsApart process files (withParent files place layout.report) place layout.root)
    (hends : (report.write layout.report).run.Ends history result)
    (hprocess : ∀ number ∈ history.processes, number = process)
    (hfiles : FileSystem.Evolves place files history last) :
    ReplacesAtOnce place files layout.report
      (layout.report.withExtension (temporaryExtension process)) report.text history result
      last := by
  obtain ⟨htemporary, -⟩ := withExtension_fileName layout.root process
  obtain ⟨hlast, hthrough⟩ :=
    ((hapart.passes_replaceFile htree report.text).during _) hends hprocess hfiles
  refine ⟨fun hstate => hthrough _ hstate, fun hresult => ?_, fun hresult => ?_⟩
  · subst hresult
    exact hlast
  · subst hresult
    rw [show layout.report = layout.root / fileName from rfl, htemporary]
    exact hlast

/-! ### Examples -/

/-- The report about a build that was stopped. -/
def sampleReport : RunReport :=
  ⟨"run", "start", "end", .stopped, [], none⟩

/-- Writing that report with some files. -/
def sampleWrite (layout : BuildLayout) (files : FileSystem) : Except Fault Unit × FileSystem :=
  (sampleReport.write layout.report).run.run ((World.still []).answer false) files

theorem exists_sampleWrite (layout : BuildLayout) (files : FileSystem) :
    ∃ history result last, sampleWrite layout files = (result, last) ∧
      (sampleReport.write layout.report).run.Ends history result ∧
      FileSystem.Evolves [] files history last ∧ ∀ number ∈ history.processes, number = 1 :=
  (World.still []).exists_history (sampleReport.write layout.report).run files

/-- A build directory. -/
def shelf : FileSystem := FileSystem.root.put ["b"] (.directory 0o755)

/-- A build directory with a node in the place of the report. -/
def shelfWith (node : Node) : FileSystem := shelf.put ["b", fileName] node

/-- A build directory behind a link, with an older report. -/
def usedShelf : FileSystem :=
  (shelfWith (.file 0o644 (.ofText "old"))).put ["l"] (.link ⟨"b"⟩)

/-- The layout of a build in that directory. -/
def usedLayout : BuildLayout := ⟨⟨"/l"⟩, "a.apk"⟩

theorem get?_shelfWith (node : Node) (place : Location) : (shelfWith node).get? place =
    if ["b", fileName] = place then some node
    else if ["b"] = place then some (.directory 0o755)
    else FileSystem.root.get? place := by
  rw [shelfWith, shelf, FileSystem.get?_put, FileSystem.get?_put]

theorem isTree_shelf : shelf.IsTree :=
  FileSystem.isTree_root.put [] "b" rfl rfl _

theorem isTree_shelfWith (node : Node) : (shelfWith node).IsTree :=
  isTree_shelf.put ["b"] fileName (FileSystem.get?_put_self ..)
    (by
      rw [shelf, FileSystem.get?_put_of_ne (by decide),
        FileSystem.get?_root_of_ne_nil (by decide)])
    node

theorem isTree_usedShelf : usedShelf.IsTree :=
  (isTree_shelfWith _).put [] "l" (get?_shelfWith _ _) (get?_shelfWith _ _) _

theorem isApart_usedShelf :
    IsApart 1 usedShelf (withParent usedShelf [] usedLayout.report) [] usedLayout.root := by
  have hdirectory : usedShelf.HasDirectory [] usedLayout.root ["b"] :=
    .of_find (show usedShelf.find [] ⟨"/l"⟩ = .ok (["b"], .directory 0o755) from rfl)
  have hplace {there : Location} (h : usedShelf.HasDirectory [] usedLayout.root there) :
      there = ["b"] :=
    hdirectory.eq_of_sameLinks (.refl _) h
  have hreport : (usedShelf.resolve [] .followed (usedLayout.root / fileName)).toOption.map
      Target.place = some ["b", fileName] := by
    decide +kernel
  rw [show usedLayout.report = usedLayout.root / fileName from rfl, withParent_eq_self hdirectory]
  constructor
  case vacant => exact fun hmissing _ => absurd hdirectory (hmissing _)
  case direct =>
    intro there target h hlink
    obtain rfl := hplace h
    cases hlink
  case unlinked =>
    intro there h target hlink
    obtain rfl := hplace h
    cases hlink
  case elsewhere =>
    intro there target h hresolve
    obtain rfl := hplace h
    rw [hresolve] at hreport
    rw [Option.some.inj hreport]
    exact (places_ne ["b"] 1).symm

theorem replacesAtOnce_usedShelf :
    usedShelf.IsTree ∧
      IsApart 1 usedShelf (withParent usedShelf [] usedLayout.report) [] usedLayout.root ∧
      ∃ history result last,
        (sampleReport.write usedLayout.report).run.Ends history result ∧
        (∀ number ∈ history.processes, number = 1) ∧
        FileSystem.Evolves [] usedShelf history last ∧ result.toBool = true ∧
        ReplacesAtOnce [] usedShelf usedLayout.report
          (usedLayout.report.withExtension (temporaryExtension 1)) sampleReport.text history result
          last := by
  have hok : (sampleWrite usedLayout usedShelf).1.toBool = true := by decide +kernel
  obtain ⟨history, result, last, hrun, hends, hevolves, hprocess⟩ :=
    exists_sampleWrite usedLayout usedShelf
  rw [hrun] at hok
  exact ⟨isTree_usedShelf, isApart_usedShelf, history, result, last, hends, hprocess, hevolves, hok,
    replacesAtOnce sampleReport usedLayout isTree_usedShelf isApart_usedShelf hends hprocess
      hevolves⟩

/-- A report is not replaced at one stroke, although no link has the temporary name. -/
def IsTorn (layout : BuildLayout) (files : FileSystem) : Prop :=
  files.IsTree ∧
    (∀ target, files.nodeOf? [] .kept (layout.report.withExtension (temporaryExtension 1)) ≠
      some (.link target)) ∧
    ∃ history result last, (sampleReport.write layout.report).run.Ends history result ∧
      (∀ number ∈ history.processes, number = 1) ∧
      FileSystem.Evolves [] files history last ∧
      ¬ReplacesAtOnce [] files layout.report
        (layout.report.withExtension (temporaryExtension 1)) sampleReport.text history result last

/-- A layout whose build path passes through the place of its report. -/
def circularLayout : BuildLayout := ⟨⟨"/b/build-report.json/.."⟩, "a.apk"⟩

/-- A build directory in which a link in the place of the report leads to the temporary file. -/
def pointingShelf : FileSystem := shelfWith (.link ⟨"build-report.tmp-1"⟩)

/-- The layout of a build in that directory. -/
def pointingLayout : BuildLayout := ⟨⟨"/b"⟩, "a.apk"⟩

/-- There is a time at which that link leads to an empty file. -/
theorem exists_visits_pointingShelf : ∃ history result last,
    (sampleReport.write pointingLayout.report).run.Ends history result ∧
      (∀ number ∈ history.processes, number = 1) ∧
      FileSystem.Evolves [] pointingShelf history last ∧
      FileSystem.Visits [] pointingShelf history last
        (pointingShelf.put ["b", "build-report.tmp-1"] (.file Mode.newFile .empty)) := by
  let plan := (sampleReport.write pointingLayout.report).run
  let opening : History := [
    ⟨.file (.makeDirectory ⟨"/b"⟩), (.error .alreadyExists : Except _ Unit)⟩,
    ⟨.file (.inspect ⟨"/b"⟩), (.ok ⟨.directory, 0o755⟩ : Except _ Inspection)⟩,
    ⟨.processId, (1 : Nat)⟩]
  let closing : History := [⟨.file (.rename ⟨"/b/build-report.tmp-1"⟩ ⟨"/b/build-report.json"⟩),
    (.ok () : Except _ Unit)⟩]
  have hhistory : plan.history ((World.still []).answer false) pointingShelf =
      opening ++ ⟨.file (.write ⟨"/b/build-report.tmp-1"⟩ (.ofText sampleReport.text)),
        (.ok () : Except _ Unit)⟩ :: closing := rfl
  have hends := plan.ends_run ((World.still []).answer false) pointingShelf
  have hprocess := (World.still []).forall_processes_history false plan pointingShelf
  have hevolves := (World.still []).evolves_history false plan pointingShelf
  rw [hhistory] at hends hprocess hevolves
  refine ⟨_, _, _, hends, hprocess, hevolves, ?_⟩
  obtain ⟨middle, hopening, hclosing⟩ := hevolves.exists_of_append
  obtain rfl : middle = pointingShelf := by
    have hmade : FileSystem.Evolves [] pointingShelf opening.tail middle := hopening.of_file.2
    exact hmade.of_file.2.eq_of_leavesFiles (by simp [Request.LeavesFiles])
  exact .writing opening closing rfl hopening hclosing .empty rfl

/-- A report is torn when its build path passes through a link in the place of the report, which is
replaced; or through a directory in that place that is missing, which is created; and when a link in
that place leads to the temporary file. -/
theorem isTorn_samples :
    IsTorn circularLayout ((shelfWith (.link ⟨"d"⟩)).put ["b", "d"] (.directory 0o755)) ∧
      IsTorn circularLayout shelf ∧
      IsTorn pointingLayout pointingShelf := by
  have hfree {files : FileSystem} {path : Path} (h : (files.nodeOf? [] .kept path).isNone = true)
      (target : Path) : files.nodeOf? [] .kept path ≠ some (.link target) := by
    intro hnode
    rw [hnode] at h
    cases h
  refine ⟨⟨(isTree_shelfWith _).put ["b"] "d" rfl rfl _, hfree (by decide +kernel), ?_⟩,
    ⟨isTree_shelf, hfree (by decide +kernel), ?_⟩,
    ⟨isTree_shelfWith _, hfree (by decide +kernel), ?_⟩⟩
  · have hok : (sampleWrite circularLayout
        ((shelfWith (.link ⟨"d"⟩)).put ["b", "d"] (.directory 0o755))).1.toBool = true := by
      decide +kernel
    have hnone : ((sampleWrite circularLayout
        ((shelfWith (.link ⟨"d"⟩)).put ["b", "d"] (.directory 0o755))).2.nodeOf? [] .kept
          circularLayout.report).isNone = true := by
      decide +kernel
    obtain ⟨history, result, last, hrun, hends, hevolves, hprocess⟩ :=
      exists_sampleWrite circularLayout
        ((shelfWith (.link ⟨"d"⟩)).put ["b", "d"] (.directory 0o755))
    rw [hrun] at hok hnone
    refine ⟨history, result, last, hends, hprocess, hevolves, fun h => ?_⟩
    cases result with
    | error fault => cases hok
    | ok value =>
      obtain ⟨⟨mode, hmode⟩, -⟩ := h.of_ok rfl
      rw [(Prod.mk.inj hmode).1] at hnone
      cases hnone
  · have herror : (sampleWrite circularLayout shelf).1.toBool = false := by decide +kernel
    have hsome : ((sampleWrite circularLayout shelf).2.nodeOf? [] .kept
        circularLayout.report).isSome = true := by
      decide +kernel
    have hnone : (shelf.nodeOf? [] .kept circularLayout.report).isSome = false := by
      decide +kernel
    obtain ⟨history, result, last, hrun, hends, hevolves, hprocess⟩ :=
      exists_sampleWrite circularLayout shelf
    rw [hrun] at herror hsome
    refine ⟨history, result, last, hends, hprocess, hevolves, fun h => ?_⟩
    cases result with
    | ok value => cases herror
    | error fault =>
      rw [(Prod.mk.inj (h.of_error rfl)).1, hnone] at hsome
      cases hsome
  · obtain ⟨history, result, last, hends, hprocess, hevolves, hvisits⟩ :=
      exists_visits_pointingShelf
    refine ⟨history, result, last, hends, hprocess, hevolves, fun h => ?_⟩
    rcases h.isSettled hvisits with hsame | ⟨mode, hmode⟩
    · have hsome : ((pointingShelf.put ["b", "build-report.tmp-1"]
          (.file Mode.newFile .empty)).nodeOf? [] .followed pointingLayout.report).isSome =
            true := by
        decide +kernel
      have hnone : (pointingShelf.nodeOf? [] .followed pointingLayout.report).isSome = false := by
        decide +kernel
      rw [(Prod.mk.inj hsame).2, hnone] at hsome
      cases hsome
    · have hlink : (pointingShelf.put ["b", "build-report.tmp-1"]
          (.file Mode.newFile .empty)).nodeOf? [] .kept pointingLayout.report =
            some (.link ⟨"build-report.tmp-1"⟩) :=
        FileSystem.nodeOf?_eq_some_iff.mpr ⟨_, rfl⟩
      cases hlink.symm.trans (Prod.mk.inj hmode).1

end RunReport

end SketchApk
