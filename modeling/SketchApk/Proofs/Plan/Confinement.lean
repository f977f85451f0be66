import SketchApk.Proofs.File.Located
import SketchApk.Proofs.Plan.Carrying
import SketchApk.Proofs.Plan.Evolution

/-!
# Plans that keep to a part of the tree of files

Some operations are confined to the region below a directory that is entered by certain names: all
paths under which they change files enter it, and directories are created on the way of such paths
only. A path may lead elsewhere than its text says when it meets links. But confined operations
leave the links outside the region as they are, so if there are none in it, each of them touches
the region alone, however many of them came before.

## Main definitions

* `Path.Enters`, `FileSystem.Region` : paths that enter a directory, and the places that they lead
  to.
* `FileOperation.IsConfined` : the paths of an operation enter a directory.
* `FileSystem.KeepsOutside` : files that are the same outside a region.
* `Plan.Obeys` : all operations of a plan obey a rule, and its outcome meets a condition.

## Main statements

* `FileOperation.IsConfined.region` : confined operations touch the region alone.
* `Plan.Obeys.bind`, `Plan.Only.obeys` : plans that obey a rule.
* `Plan.Obeys.rule_of_ends` : in every history the rule is obeyed.
-/

namespace SketchApk

/-- A path continues another one by a name with a property, and does not lead upwards. -/
def Path.Enters (base : Path) (inside : String → Prop) (path : Path) : Prop :=
  ∃ name rest, inside name ∧ base.IsWithin path (name :: rest)

namespace FileSystem

/-- The places that are reached from a place by a name with a property, and by any names behind
it. -/
def Region (place : Location) (inside : String → Prop) (there : Location) : Prop :=
  ∃ name rest, inside name ∧ there = place ++ name :: rest

variable {files middle : FileSystem} {cwd place there : Location} {inside : String → Prop}
  {region : Location → Prop} {base path whole : Path} {last : LastName} {target : Target}

theorem Region.of_isPrefix (h : Region place inside there) {other : Location}
    (hbegins : there <+: other) : Region place inside other := by
  obtain ⟨name, rest, hname, rfl⟩ := h
  obtain ⟨more, rfl⟩ := hbegins
  exact ⟨name, rest ++ more, hname, by simp⟩

/-- Some files have become others, which are the same outside a region apart from new nodes, and
which have the same links. -/
structure KeepsOutside (region : Location → Prop) (files other : FileSystem) : Prop where
  get?_eq {place : Location} {node : Node} (h : files.get? place = some node)
    (houtside : ¬region place) : other.get? place = some node
  sameLinks : files.SameLinks other

theorem KeepsOutside.refl (region : Location → Prop) (files : FileSystem) :
    files.KeepsOutside region files :=
  ⟨fun h _ => h, .refl files⟩

/-- An operation that touches the region alone, or takes nothing away, leaves the rest. -/
theorem KeepsOutside.run {operation : FileOperation} (h : files.KeepsOutside region middle)
    (hlinks : ∀ place path, region place → files.get? place ≠ some (.link path))
    (hstatic : operation.IsStatic)
    (htouch : (∀ there, operation.Touches cwd middle there → region there) ∨
      middle.Keeps (operation.run cwd middle).2) :
    files.KeepsOutside region (operation.run cwd middle).2 := by
  have hkept {place : Location} {node : Node} (hnode : files.get? place = some node)
      (houtside : ¬region place) : (operation.run cwd middle).2.get? place = some node := by
    have hmiddle := h.get?_eq hnode houtside
    rcases htouch with htouch | hkeeps
    · rw [FileOperation.get?_run fun hplace => houtside (htouch place hplace), hmiddle]
    · exact hkeeps _ _ hmiddle
  refine ⟨hkept, fun place path => ⟨fun hlink => ?_, fun hlink => ?_⟩⟩
  · exact hkept hlink fun hregion => hlinks place path hregion hlink
  · exact (h.sameLinks place path).mpr (FileOperation.link_of_run hstatic hlink)

end FileSystem

namespace FileOperation

open FileSystem

/-- The paths under which an operation changes files enter a directory. A directory is created on
the way of such a path. -/
def IsConfined (base : Path) (inside : String → Prop) : FileOperation → Prop
  | write path _ | ensureFile path | copy _ path | removeFile path | removeTree path
  | setMode path _ => base.Enters inside path
  | makeDirectory path => ∃ whole, base.Enters inside whole ∧ path.IsOnWay whole
  | rename _ _ => False
  | inspect _ | list _ | walk _ | read _ | readToExtend _ => True

theorem IsReading.isConfined {operation : FileOperation} (h : operation.IsReading) (base : Path)
    (inside : String → Prop) : operation.IsConfined base inside := by
  cases operation <;> first | exact trivial | cases h

namespace IsConfined

variable {files middle : FileSystem} {cwd place there : Location} {inside : String → Prop}
  {base : Path} {operation : FileOperation}

theorem isStatic (h : operation.IsConfined base inside) : operation.IsStatic := by
  cases operation <;> first | exact trivial | cases h

/-- What a confined operation touches lies in the region, or it is a directory that is created on
the way to the region. -/
theorem cases_of_touches (h : operation.IsConfined base inside)
    (hdot : ∀ name, inside name → name ≠ ".") (htouch : operation.Touches cwd middle there) :
    (∃ place, middle.HasDirectory cwd base place ∧
      (middle.LinkFree place → Region place inside there)) ∨
    ∃ path asDirectory, path.IsOnWay base ∧
      middle.resolve cwd .kept path = .ok (.vacant there asDirectory) := by
  have hfilter {name : String} {rest : List String} (hname : inside name) :
      (name :: rest).filter (· ≠ ".") = name :: rest.filter (· ≠ ".") :=
    List.filter_cons_of_pos (by simpa using hdot name hname)
  have hentered {path : Path} {last : LastName} {target : Target} (hpath : base.Enters inside path)
      (hresolve : middle.resolve cwd last path = .ok target) (hbegins : target.place <+: there) :
      ∃ place, middle.HasDirectory cwd base place ∧
        (middle.LinkFree place → Region place inside there) := by
    obtain ⟨name, rest, hname, hwithin⟩ := hpath
    obtain ⟨place, hplace, htarget⟩ :=
      exists_of_resolve_within hwithin (List.cons_ne_nil _ _) hresolve
    refine ⟨place, hplace, fun hfree => Region.of_isPrefix ?_ hbegins⟩
    exact ⟨name, _, hname, by rw [htarget (hfree.along _), hfilter hname]⟩
  cases operation with
  | inspect | list | walk | read | readToExtend => cases htouch
  | rename => cases h
  | write | ensureFile | copy | setMode =>
    obtain ⟨target, hresolve, rfl⟩ := htouch
    exact .inl (hentered h hresolve List.prefix_rfl)
  | removeFile | removeTree =>
    obtain ⟨target, hresolve, hbegins⟩ := htouch
    exact .inl (hentered h hresolve hbegins)
  | makeDirectory path =>
    obtain ⟨whole, ⟨name, rest, hname, hwithin⟩, hway⟩ := h
    obtain ⟨hloud, asDirectory, hresolve⟩ := htouch
    rcases exists_of_vacant_within hwithin ((Path.isOnWay_bare hloud).1.trans hway) hresolve with
      hbefore | ⟨front, place, hne, hfront, hplace, hthere⟩
    · exact .inr ⟨path.bare, asDirectory, hbefore, hresolve⟩
    · refine .inl ⟨place, hplace, fun hfree => ?_⟩
      obtain ⟨first, front, rfl⟩ := List.exists_cons_of_ne_nil hne
      obtain rfl : first = name := (List.cons_prefix_cons.mp hfront).1
      exact ⟨first, _, hname, by rw [hthere hfree, hfilter hname]⟩

/-- Where the base has led to a directory without links below, a confined operation touches the
region alone, also when the files in the region have become others. -/
theorem region (h : operation.IsConfined base inside) (hdot : ∀ name, inside name → name ≠ ".")
    (hbase : files.HasDirectory cwd base place) (hfree : files.LinkFree place)
    (hkeeps : files.KeepsOutside (Region place inside) middle)
    (htouch : operation.Touches cwd middle there) : Region place inside there := by
  rcases h.cases_of_touches hdot htouch with
    ⟨place', hplace', hregion⟩ | ⟨path, asDirectory, hway, hresolve⟩
  · obtain rfl := hbase.eq_of_sameLinks hkeeps.sameLinks hplace'
    exact hregion (hkeeps.sameLinks.linkFree hfree)
  · -- On the way to the base there was a directory, which is missing now.
    obtain ⟨there', wants, mode, hthere'⟩ := hbase.exists_of_isOnWay hway
    obtain rfl : there = there' :=
      hkeeps.sameLinks.place_eq hthere' (resolve_eq_ok_iff.mp hresolve).2 (by simp [Target.node?])
        (by simp [Target.node?])
    by_contra hregion
    have hnone : middle.get? there = none := get?_of_resolve hresolve
    cases hnone.symm.trans (hkeeps.get?_eq hthere'.get?_place hregion)

end IsConfined

/-- The operation creates a directory or an empty file. -/
def IsCreating : FileOperation → Prop
  | makeDirectory _ | ensureFile _ => True
  | _ => False

namespace IsCreating

variable {operation : FileOperation}

theorem isStatic (h : operation.IsCreating) : operation.IsStatic := by
  cases operation <;> first | exact trivial | cases h

theorem keeps (h : operation.IsCreating) (cwd : Location) (files : FileSystem) :
    files.Keeps (operation.run cwd files).2 := by
  cases operation with
  | makeDirectory path =>
    exact settle_of_forall files.Keeps (.refl files) fun _ => keeps_of_makeDirectory
  | ensureFile path =>
    refine settle_of_forall files.Keeps (.refl files) fun changed hchanged => ?_
    rw [FileSystem.ensureFile] at hchanged
    split at hchanged
    · split at hchanged <;> cases hchanged
      exact .refl files
    · cases hchanged
    · exact keeps_of_create (get?_of_resolve ‹_›) hchanged
    · cases hchanged
  | _ => cases h

end IsCreating

end FileOperation

/-! ### Sequences of operations -/

section Sequences

open FileSystem

variable {files middle last : FileSystem} {cwd place : Location} {inside : String → Prop}
  {base : Path} {exempt : FileOperation → Prop}

/-- All that an operation may change lies in a region. -/
def FileOperation.StaysIn (region : Location → Prop) (cwd : Location) (files : FileSystem)
    (operation : FileOperation) : Prop :=
  ∀ there, operation.Touches cwd files there → region there

/-- A confined operation touches the region alone and leaves the rest as it was, and so do the
operations behind it. Some directories and empty files may be created elsewhere. -/
theorem FileOperation.staysIn_and_keepsOutside {operation : FileOperation}
    (h : operation.IsConfined base inside ∨ exempt operation)
    (hdot : ∀ name, inside name → name ≠ ".") (hbase : files.HasDirectory cwd base place)
    (hfree : files.LinkFree place) (hexempt : ∀ other, exempt other → other.IsCreating)
    (hkeeps : files.KeepsOutside (Region place inside) middle) :
    (operation.StaysIn (Region place inside) cwd middle ∨ exempt operation) ∧
      files.KeepsOutside (Region place inside) (operation.run cwd middle).2 := by
  have hlinks (there : Location) (path : Path) (hthere : Region place inside there) :
      files.get? there ≠ some (.link path) := by
    obtain ⟨name, rest, -, rfl⟩ := hthere
    exact hfree _ path
  rcases h with hconfined | hcreating
  · have htouch (there : Location) (hthere : operation.Touches cwd middle there) :
        Region place inside there :=
      hconfined.region hdot hbase hfree hkeeps hthere
    exact ⟨.inl htouch, hkeeps.run hlinks hconfined.isStatic (.inl htouch)⟩
  · have hoperation := hexempt operation hcreating
    exact ⟨.inr hcreating, hkeeps.run hlinks hoperation.isStatic (.inr (hoperation.keeps _ _))⟩

/-- The request changes files in the region alone, as far as paths tell, or is exempt. -/
def Request.KeepsTo (base : Path) (inside : String → Prop) (exempt : FileOperation → Prop) :
    Request → Prop
  | file operation => operation.IsConfined base inside ∨ exempt operation
  | _ => True

/-- As long as no tool is called, the files outside the region stay what they were. -/
theorem FileSystem.Evolves.keepsOutside {history : History}
    (h : Evolves cwd middle history last) (hcalls : history.calls = [])
    (hrequests : ∀ entry ∈ history, entry.request.KeepsTo base inside exempt)
    (hdot : ∀ name, inside name → name ≠ ".") (hbase : files.HasDirectory cwd base place)
    (hfree : files.LinkFree place) (hexempt : ∀ other, exempt other → other.IsCreating)
    (hkeeps : files.KeepsOutside (Region place inside) middle) :
    files.KeepsOutside (Region place inside) last := by
  induction h with
  | nil => exact hkeeps
  | file operation _ ih =>
    obtain ⟨hfirst, hrest⟩ := List.forall_mem_cons.mp hrequests
    exact ih hcalls hrest
      (FileOperation.staysIn_and_keepsOutside hfirst hdot hbase hfree hexempt hkeeps).2
  | call => cases hcalls
  | other _ _ ih =>
    rw [History.calls_cons] at hcalls
    exact ih (List.append_eq_nil_iff.mp hcalls).2 (List.forall_mem_cons.mp hrequests).2 hkeeps

end Sequences

/-! ### Requests -/

section Requests

open Plan

variable {kind : Request → Prop} {base path : Path} {inside : String → Prop}
  (hkind : ∀ operation, FileOperation.IsConfined base inside operation → kind (.file operation))

include hkind

/-- Creating a directory in the region is confined to it. -/
theorem only_createDirectory_of_enters (h : base.Enters inside path) :
    (createDirectory path).run.Only kind :=
  (only_makeDirectories_of_mem (fun _ => hkind _ trivial) fun _ hmem hne =>
    hkind _ ⟨path, h, Path.isOnWay_of_mem_ancestors hmem hne⟩).during _

/-- Creating the directory of a path in the region is confined to it. -/
theorem only_makeDirectories_of_parent {parent : Path} (h : base.Enters inside path)
    (hparent : path.parent? = some parent) : (makeDirectories parent).run.Only kind :=
  only_makeDirectories_of_mem (fun _ => hkind _ trivial) fun _ hmem hne =>
    hkind _ ⟨path, h, Path.isOnWay_of_mem_ancestors_parent hparent hmem hne⟩

/-- Writing a text to a file in the region is confined to it. -/
theorem only_writeTextFile_of_enters (h : base.Enters inside path) (text : String) :
    (writeTextFile path text).run.Only kind :=
  only_writeTextFile (fun _ => hkind _ trivial)
    (fun _ hparent _ hmem hne =>
      hkind _ ⟨path, h, Path.isOnWay_of_mem_ancestors_parent hparent hmem hne⟩)
    (hkind _ h)

end Requests

/-! ### Rules for plans -/

namespace Plan

variable {α β : Type} {place : Location} {rule : FileSystem → FileOperation → Prop}
  {post : α → FileSystem → Prop} {post' : β → FileSystem → Prop} {files last : FileSystem}
  {plan : Plan α}

/-- All operations of a plan obey a rule at their time, and the outcome meets a condition. Tools may
leave any files. -/
def Obeys (place : Location) (rule : FileSystem → FileOperation → Prop)
    (post : α → FileSystem → Prop) : Plan α → FileSystem → Prop
  | done value, files => post value files
  | step (.file operation) next, files =>
    rule files operation ∧
      (next (operation.run place files).1).Obeys place rule post (operation.run place files).2
  | step (.call _) next, _ => ∀ answer later, (next answer).Obeys place rule post later
  | step _ next, files => ∀ answer, (next answer).Obeys place rule post files

namespace Obeys

theorem of_pure {value : α} {post : Except Fault α → FileSystem → Prop}
    (h : post (.ok value) files) : (pure value : Attempt α).run.Obeys place rule post files :=
  h

theorem bind {f : α → Plan β} (h : plan.Obeys place rule post files)
    (hf : ∀ value files, post value files → (f value).Obeys place rule post' files) :
    (plan.bind f).Obeys place rule post' files := by
  induction plan generalizing files with
  | done value => exact hf value files h
  | step request next ih =>
    cases request with
    | file operation => exact ⟨h.1, ih _ h.2⟩
    | call invocation => exact fun answer later => ih answer (h answer later)
    | _ => exact fun answer => ih answer (h answer)

theorem weaken {later : α → FileSystem → Prop} (h : plan.Obeys place rule post files)
    (hpost : ∀ value files, post value files → later value files) :
    plan.Obeys place rule later files := by
  have hbind : (plan.bind done).Obeys place rule later files := h.bind hpost
  rwa [bind_done] at hbind

/-- An attempt that does not fail, with another one behind it. -/
theorem alwaysBind {f : α → Attempt β} {post : Except Fault β → FileSystem → Prop}
    {later : α → FileSystem → Prop} (h : plan.Obeys place rule later files)
    (hf : ∀ value last, later value last → (f value).run.Obeys place rule post last) :
    (Attempt.always plan >>= f).run.Obeys place rule post files := by
  have hrun : (Attempt.always plan >>= f).run = plan.bind fun value => (f value).run := by
    rw [Attempt.run_bind]
    change (plan.bind fun value => done (Except.ok value)).bind _ = _
    rw [bind_assoc]
    rfl
  rw [hrun]
  exact h.bind hf

/-- One attempt after the other. -/
theorem attemptBind {attempt : Attempt α} {f : α → Attempt β} {later : α → FileSystem → Prop}
    {post : Except Fault β → FileSystem → Prop}
    (h : attempt.run.Obeys place rule (fun result last =>
      (∀ value, result = .ok value → later value last) ∧
        ∀ fault, result = .error fault → post (.error fault) last) files)
    (hf : ∀ value last, later value last → (f value).run.Obeys place rule post last) :
    (attempt >>= f).run.Obeys place rule post files := by
  rw [Attempt.run_bind]
  refine h.bind fun result last hresult => ?_
  cases result with
  | ok value => exact hf value last (hresult.1 value rfl)
  | error fault => exact hresult.2 fault rfl

/-- One attempt after the other, with the same condition behind both. -/
theorem attemptBind' {attempt : Attempt α} {f : α → Attempt β} {condition : FileSystem → Prop}
    (h : attempt.run.Obeys place rule (fun _ => condition) files)
    (hf : ∀ value last, condition last →
      (f value).run.Obeys place rule (fun _ => condition) last) :
    (attempt >>= f).run.Obeys place rule (fun _ => condition) files :=
  .attemptBind (h.weaken fun _ _ hlast => ⟨fun _ _ => hlast, fun _ _ => hlast⟩) hf

/-- Every operation of a history obeys the rule at its time. -/
theorem rule_of_ends (h : plan.Obeys place rule post files) {before after : History}
    {operation : FileOperation} {answer : Except FileError operation.Value} {result : α}
    {middle : FileSystem} (hends : plan.Ends (before ++ ⟨.file operation, answer⟩ :: after) result)
    (hfiles : FileSystem.Evolves place files before middle) : rule middle operation := by
  induction plan generalizing files before with
  | done value => exact absurd hends.1 (by simp)
  | step request next ih =>
    obtain ⟨first, rest, heq, hrest⟩ := hends
    cases before with
    | nil =>
      cases (List.cons.inj heq).1
      cases hfiles
      exact h.1
    | cons entry before =>
      obtain ⟨rfl, rfl⟩ := List.cons.inj heq
      cases request with
      | file operation' =>
        obtain ⟨rfl, hlater⟩ := hfiles.of_file
        exact ih _ h.2 hrest hlater
      | call invocation =>
        cases hfiles with
        | call _ _ hfiles => exact ih _ (h first _) hrest hfiles
        | other hentry => cases hentry
      | _ => exact ih _ (h first) hrest (hfiles.of_leavesFiles trivial)

end Obeys

/-- A plan that works on files alone obeys a rule when its operations keep an invariant that implies
the rule, and it does what it does when it is carried out. -/
theorem Only.obeys {kind : Request → Prop} {inv : FileSystem → Prop} {world : World}
    (h : plan.Only kind) (stop : Bool) (hlocal : ∀ request, kind request → request.IsLocal)
    (hstep : ∀ operation files, kind (.file operation) → inv files →
      rule files operation ∧ inv (operation.run world.place files).2) (hinv : inv files) :
    plan.Obeys world.place rule
      (fun value last => inv last ∧ plan.run (world.answer stop) files = (value, last)) files := by
  induction h generalizing files with
  | done value => exact ⟨hinv, rfl⟩
  | @step request next hrequest hnext ih =>
    cases request with
    | file operation =>
      obtain ⟨hrule, hinv⟩ := hstep operation files hrequest hinv
      exact ⟨hrule, ih _ hinv⟩
    | print text => exact fun _ => ih () hinv
    | _ => cases hlocal _ hrequest

-- From here on the rules above stand for the definition.
attribute [irreducible] Obeys

end Plan

/-- Some files have become others, which differ in a region alone apart from new nodes. Locations
consist of the names of entries. -/
structure FileSystem.ChangedWithin (region : Location → Prop) (files other : FileSystem) :
    Prop extends files.KeepsOutside region other where
  wellNamed : other.WellNamed

/-- The rule to stay in a region, with exemptions. -/
def FileOperation.KeepsIn (region : Location → Prop) (exempt : FileOperation → Prop)
    (cwd : Location) (files : FileSystem) (operation : FileOperation) : Prop :=
  operation.StaysIn region cwd files ∨ exempt operation

/-- A plan whose requests keep to a region stays in it. -/
theorem Plan.Only.obeys_keepsIn {inside : String → Prop} {base : Path} {place : Location}
    {exempt : FileOperation → Prop} {world : World} {files middle : FileSystem} {α : Type}
    {plan : Plan α}
    (h : plan.Only fun request => request.IsLocal ∧ request.KeepsTo base inside exempt)
    (hdot : ∀ name, inside name → name ≠ ".") (hbase : files.HasDirectory world.place base place)
    (hfree : files.LinkFree place) (hexempt : ∀ other, exempt other → other.IsCreating)
    (hmiddle : files.ChangedWithin (FileSystem.Region place inside) middle) :
    plan.Obeys world.place
      (FileOperation.KeepsIn (FileSystem.Region place inside) exempt world.place)
      (fun value last => files.ChangedWithin (FileSystem.Region place inside) last ∧
        plan.run (world.answer false) middle = (value, last)) middle := by
  refine h.obeys false (fun _ hrequest => hrequest.1) (fun operation later hrequest hlater => ?_)
    hmiddle
  obtain ⟨hrule, hkept⟩ := FileOperation.staysIn_and_keepsOutside hrequest.2 hdot hbase hfree
    hexempt hlater.toKeepsOutside
  have hstatic : operation.IsStatic :=
    hrequest.2.elim FileOperation.IsConfined.isStatic fun hcreating =>
      (hexempt operation hcreating).isStatic
  exact ⟨hrule, hkept, FileSystem.wellNamed_run hstatic hlater.wellNamed⟩

end SketchApk
