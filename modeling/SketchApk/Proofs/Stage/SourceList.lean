import SketchApk.Proofs.Stage.Assembly
import SketchApk.Proofs.Stage.Collecting
import SketchApk.Proofs.Stage.KeyMaterial
import SketchApk.Proofs.Text.ArgumentFile

/-!
# The sources that the compiler is given

The compiler is handed one argument file. What it reads there are the paths of the sources of the
configured directories, in their order, and those of the generated sources at the end. Between
writing the file and calling the compiler only directories are created, so that the file is still
what it was.

A root need not be a directory. A regular file is its own source if it has the extension, and a link
to a file has no sources.

## Main definitions

* `Stage.IsSources` : the sources below a root.

## Main statements

* `Stage.forall₂_of_run_collectSources` : the sources of some roots are collected one root after the
  other.
* `Stage.reaches_runCompileSources` : what has happened before the compiler is called.
* `Stage.arguments_runCompileSources` : the compiler reads the sources in the argument file, and it
  is not called when there are none.
-/

namespace SketchApk

open Attempt

/-- What asks for nothing but files does in a history what it does when it is carried out. -/
theorem Plan.Only.run_eq_of_evolves {α : Type} {plan : Plan α} {files last : FileSystem}
    {history : History} {value : α} (h : plan.Only Request.IsLocal) (world : World) (stop : Bool)
    (hends : plan.Ends history value)
    (hfiles : FileSystem.Evolves world.place files history last) :
    plan.run (world.answer stop) files = (value, last) := by
  have hprocesses : history.processes = [] := h.filterMap_eq_nil hends fun entry hentry => by
    rcases entry with ⟨_ | _, _⟩ <;> first | rfl | cases hentry
  have hachieves : plan.Achieves 1 world.place files fun result after =>
      result = (plan.run (world.answer stop) files).1 ∧
        after = (plan.run (world.answer stop) files).2 := .of_isLocal h rfl
  obtain ⟨hvalue, hlast⟩ := hachieves hends (by simp [hprocesses]) hfiles
  exact Prod.ext hvalue.symm hlast.symm

namespace FileSystem

variable {files changed : FileSystem} {cwd place : Location} {path : Path} {mode : Mode}
  {content : Content}

/-- What is written where there was no file can be read. -/
theorem read_of_overwrite_vacant (h : files.overwrite cwd path content none = .ok changed)
    (hfree : files.IsFree cwd path) : changed.read cwd path = .ok content := by
  obtain ⟨there, -, -, hresolve⟩ := exists_of_overwrite_free h hfree
  exact read_eq_ok_iff.mpr ⟨there, Mode.newFile, find_eq_ok_iff.mpr (hresolve _ (by decide)),
    by decide⟩

theorem Keeps.read {other : FileSystem} (h : files.Keeps other)
    (hread : files.read cwd path = .ok content) : other.read cwd path = .ok content := by
  obtain ⟨there, bits, hfind, hreadable⟩ := read_eq_ok_iff.mp hread
  exact read_eq_ok_iff.mpr ⟨there, bits, h.find hfind, hreadable⟩

end FileSystem

namespace Stage

variable {world : World} {stop : Bool} {files last : FileSystem} {cwd place : Location}
  {root : Path} {roots sources : List Path}

/-- The sources below a root. -/
inductive IsSources (files : FileSystem) (cwd : Location) (root : Path) : List Path → Prop
  | directory {place : Location} {mode : Mode} {names : List (List String)}
      (hroot : files.find cwd root = .ok (place, .directory mode))
      (hnames : IsCollection files place root "java" names) :
      IsSources files cwd root (names.map root.descend)
  | file {place : Location} {mode : Mode} {content : Content}
      (hroot : files.resolve cwd .kept root = .ok (.existing place (.file mode content))) :
      IsSources files cwd root (if root.extension? = some "java" then [root] else [])
  | link {there place : Location} {target : Path} {mode : Mode} {content : Content}
      (hlink : files.resolve cwd .kept root = .ok (.existing there (.link target)))
      (hroot : files.find cwd root = .ok (place, .file mode content)) : IsSources files cwd root []

theorem of_run_ensureExists {what : String}
    (h : (ensureExists root what).run.run (world.answer stop) files = (.ok (), last)) :
    last = files ∧ ∃ inspection, files.inspect world.place root = .ok inspection := by
  rw [ensureExists, run_bind_ok (run_always (Plan.run_pathExists root))] at h
  cases hinspect : files.inspect world.place root with
  | error error =>
    rw [hinspect] at h
    cases h
  | ok inspection =>
    rw [hinspect] at h
    cases h
    exact ⟨rfl, inspection, rfl⟩

/-- What is collected below a root that exists are its sources. -/
theorem isSources_of_run_collectFiles (hwell : files.WellNamed) {inspection : Inspection}
    (hexists : files.inspect world.place root = .ok inspection)
    (h : (collectFiles root "java").run.run (world.answer stop) files = (.ok sources, last)) :
    last = files ∧ IsSources files world.place root sources := by
  rw [run_collectFiles_eq] at h
  obtain ⟨hcollected, rfl⟩ := Prod.mk.inj h
  refine ⟨rfl, ?_⟩
  have hhalt : (files.walked world.place root).halt = none := by
    cases hhalt : (files.walked world.place root).halt with
    | none => rfl
    | some halt =>
      rw [collected, hhalt] at hcollected
      cases hcollected
  have hwalk := FileSystem.walk_eq_ok_walked hhalt
  by_cases hdirectory : ∃ place mode, files.find world.place root = .ok (place, .directory mode)
  · obtain ⟨place, mode, hroot⟩ := hdirectory
    obtain ⟨names, hnames, heq⟩ := isCollection_of_walk hwell hroot hwalk hhalt "java"
    obtain rfl := Except.ok.inj (heq.symm.trans hcollected)
    exact .directory hroot hnames
  · obtain ⟨place, mode, content, hfile⟩ : ∃ place mode content,
        files.find world.place root = .ok (place, .file mode content) := by
      rw [FileSystem.inspect] at hexists
      split at hexists
      · exact ⟨_, _, _, ‹_›⟩
      · exact absurd ⟨_, _, ‹_›⟩ hdirectory
      · cases hexists
      · cases hexists
    obtain ⟨there, node, hkept⟩ := FileSystem.exists_resolve_kept hfile
    rw [FileSystem.walk, hkept] at hwalk
    cases node with
    | directory bits =>
      simp [FileSystem.walkDirectory, FileSystem.findListable, hfile, Except.map] at hwalk
    | file bits held =>
      rw [collected, hhalt, ← Except.ok.inj hwalk] at hcollected
      obtain rfl := Except.ok.inj hcollected
      have hself : ([[]].map root.descend).filter (·.extension? = some "java") =
          if root.extension? = some "java" then [root] else [] := by
        simp [List.filter_cons, Path.descend_nil]
      rw [hself]
      exact .file hkept
    | link target =>
      rw [hfile] at hwalk
      rw [collected, hhalt, ← Except.ok.inj hwalk] at hcollected
      obtain rfl := Except.ok.inj hcollected
      exact .link hkept hfile

/-- The sources of some roots are collected one root after the other. -/
theorem forall₂_of_run_collectSources (hwell : files.WellNamed)
    (h : (collectSources roots).run.run (world.answer stop) files = (.ok sources, last)) :
    last = files ∧ ∃ lists, List.Forall₂ (IsSources files world.place) roots lists ∧
      sources = lists.flatten := by
  induction roots generalizing sources with
  | nil =>
    cases h
    exact ⟨rfl, [], .nil, rfl⟩
  | cons root rest ih =>
    rw [collectSources] at h
    obtain ⟨⟨⟩, first, hexists, hcollect⟩ := exists_of_run_bind h
    obtain ⟨rfl, inspection, hinspect⟩ := of_run_ensureExists hexists
    obtain ⟨found, second, hfound, hrest⟩ := exists_of_run_bind hcollect
    obtain ⟨rfl, hsources⟩ := isSources_of_run_collectFiles hwell hinspect hfound
    obtain ⟨others, third, hothers, hpure⟩ := exists_of_run_bind hrest
    cases hpure
    obtain ⟨rfl, lists, hlists, rfl⟩ := ih hothers
    exact ⟨rfl, found :: lists, .cons hsources hlists, rfl⟩

variable {context : StageContext} {package : Option Path} {before history : History}
  {invocation : Invocation} {middle : FileSystem}

/-- The directories whose sources are compiled, the generated ones at the end. -/
def sourceRoots (context : StageContext) : List Path :=
  context.config.javaSources ++ [context.layout.genDir]

/-- Before the compiler is called sources have been collected and written to the argument file, and
nothing has been done to files behind that but to create a directory. -/
theorem reaches_runCompileSources (h : (runCompileSources context package).Reaches before invocation) :
    ∃ sources classpath collecting room written directories printed,
      before = collecting ++ (room ++ (written ++ (directories ++ printed))) ∧
        (collectSources (sourceRoots context)).run.Ends collecting (.ok sources) ∧ sources ≠ [] ∧
          (prepareOutput context.layout.sourceList).run.Ends room (.ok ()) ∧
            (Attempt.file (.write context.layout.sourceList
              (.ofText (SourceList.text sources)))).run.Ends written (.ok ()) ∧
              (Plan.createDirectory context.layout.classesDir).run.Ends directories (.ok ()) ∧
                (∀ entry ∈ printed, entry.request.LeavesFiles) ∧
                  invocation = (compileSourcesCommand context classpath).toInvocation := by
  rw [runCompileSources] at h
  obtain ⟨collecting, sources, later, rfl, hcollecting, hguarded⟩ := h.of_bind (only_collectSources _)
  cases hempty : sources.isEmpty with
  | true =>
    rw [hempty] at hguarded
    exact absurd (hguarded.of_bind (Plan.Only.fail _)) (by rintro ⟨_, _, _, -, hfail, -⟩; cases hfail.2)
  | false =>
    rw [hempty] at hguarded
    obtain ⟨room, ⟨⟩, later, rfl, hroom, hwrite⟩ :=
      Reaches.of_bind hguarded (only_prepareOutput Request.isLocal_writeless _)
    obtain ⟨written, ⟨⟩, later, rfl, hwritten, hcompile⟩ :=
      hwrite.of_bind ((Plan.only_attemptFile (Request.isLocal_file _)).during _)
    split at hcompile
    · exact absurd hcompile (not_reaches_of_isLocal ((Plan.Only.fail _).during _))
    · rename_i classpath hclasspath
      obtain ⟨directories, ⟨⟩, later, rfl, hdirectories, hcall⟩ :=
        hcompile.of_bind (Plan.only_createDirectory (fun _ => Request.isLocal_file _)
          (fun _ => Request.isLocal_file _) _)
      obtain ⟨rfl, hprinted⟩ := StageContext.reaches_runCommand <| hcall.of_bind_isLocal fun _ =>
        (only_collectFiles (Request.isLocal_file _) _).attemptBind fun classes => by
          split
          · exact (Plan.Only.fail _).attemptBind fun _ => Plan.Only.done _
          · exact Plan.Only.done _
      exact ⟨sources, classpath, collecting, room, written, directories, later, rfl, hcollecting,
        by simpa using hempty, hroom, ends_during_ok.mp hwritten, hdirectories, hprinted, rfl⟩

/-- What is written where room has been made is there until the compiler is called. -/
theorem read_of_evolves {path directory : Path} {content : Content}
    {room written directories printed : History}
    (hroom : (prepareOutput path).run.Ends room (.ok ()))
    (hwritten : (Attempt.file (.write path content)).run.Ends written (.ok ()))
    (hdirectories : (Plan.createDirectory directory).run.Ends directories (.ok ()))
    (hprinted : ∀ entry ∈ printed, entry.request.LeavesFiles)
    (hfiles : FileSystem.Evolves world.place files (room ++ (written ++ (directories ++ printed)))
      middle) : middle.read world.place path = .ok content := by
  obtain ⟨ready, hready, hbehind⟩ := hfiles.exists_of_append
  obtain ⟨changed, hchanged, hbehind⟩ := hbehind.exists_of_append
  obtain ⟨made, hmade, hlast⟩ := hbehind.exists_of_append
  obtain rfl := hlast.eq_of_leavesFiles hprinted
  obtain ⟨_, -, hvacated⟩ := exists_of_prepareOutput <|
    (only_prepareOutput Request.isLocal_writeless _).run_eq_of_evolves world false hroom hready
  have hwrite : (FileOperation.write path content).run world.place ready = (.ok (), changed) :=
    of_run_file <| (Plan.only_attemptFile (Request.isLocal_file _)).run_eq_of_evolves world false
      hwritten hchanged
  obtain ⟨stored, hoverwrite, hstored⟩ := FileOperation.exists_of_settle (congrArg Prod.fst hwrite)
  obtain rfl := hstored.symm.trans (congrArg Prod.snd hwrite)
  have hmaking : (Plan.createDirectory directory).run.Only Request.IsMaking :=
    Plan.only_createDirectory (fun _ => trivial) (fun _ => trivial) directory
  have hkeeps : stored.Keeps
      ((Plan.createDirectory directory).run.run (world.answer false) stored).2 := hmaking.keeps stored
  rw [Plan.Only.run_eq_of_evolves (Plan.only_createDirectory (fun _ => Request.isLocal_file _)
    (fun _ => Request.isLocal_file _) directory) world false hdirectories hmade] at hkeeps
  exact hkeeps.read (FileSystem.read_of_overwrite_vacant hoverwrite hvacated.isFree)

/-- The compiler reads the sources of the roots in its last argument, a file, and it is not called
when there are none. -/
theorem arguments_runCompileSources (hwell : files.WellNamed) :
    (∀ ⦃before invocation middle⦄, (runCompileSources context package).Reaches before invocation →
      FileSystem.Evolves place files before middle → ∃ text lists,
        invocation.program = context.toolchain.javac ∧
          invocation.arguments.getLast? = some ("@" ++ context.layout.sourceList.text) ∧
          middle.read place context.layout.sourceList = .ok (.ofText text) ∧
          List.Forall₂ (IsSources files place) (sourceRoots context) lists ∧
          ArgumentFile.arguments text = lists.flatten.map Path.text ∧ lists.flatten ≠ []) ∧
    ∀ ⦃history result last⦄, (runCompileSources context package).run.Ends history result →
      FileSystem.Evolves place files history last →
        (∀ lists, List.Forall₂ (IsSources files place) (sourceRoots context) lists →
          lists.flatten = []) →
        history.calls = [] ∧ ∃ fault, result = .error fault := by
  let world : World := { uselessWorld with place }
  constructor
  · intro before invocation middle hreaches hfiles
    obtain ⟨sources, classpath, collecting, room, written, directories, printed, rfl, hcollecting,
      hne, hroom, hwritten, hdirectories, hprinted, rfl⟩ := reaches_runCompileSources hreaches
    obtain ⟨between, hbetween, hbehind⟩ := hfiles.exists_of_append
    obtain ⟨rfl, lists, hlists, rfl⟩ := forall₂_of_run_collectSources hwell <|
      (only_collectSources _).run_eq_of_evolves world false hcollecting hbetween
    have hread : middle.read world.place context.layout.sourceList = _ :=
      read_of_evolves hroom hwritten hdirectories hprinted hbehind
    exact ⟨_, lists, rfl, List.getLast?_concat, hread, hlists, ArgumentFile.arguments_text _, hne⟩
  · intro history result last hends hfiles hnone
    rw [runCompileSources] at hends
    rcases ends_bind.mp hends with ⟨fault, hfault, rfl⟩ | ⟨first, sources, second, rfl, hfirst, hsecond⟩
    · exact ⟨(only_collectSources _).calls_eq_nil hfault fun _ => id, fault, rfl⟩
    · obtain ⟨between, hbetween, -⟩ := hfiles.exists_of_append
      obtain ⟨-, lists, hlists, rfl⟩ := forall₂_of_run_collectSources hwell <|
        (only_collectSources _).run_eq_of_evolves world false hfirst hbetween
      rw [hnone lists hlists] at hsecond
      obtain ⟨rfl, rfl⟩ := hsecond
      refine ⟨?_, _, rfl⟩
      rw [List.append_nil]
      exact (only_collectSources _).calls_eq_nil hfirst fun _ => id

/-- Sources below one directory. -/
def quotedContext : StageContext where
  config := { buildPath := ⟨"/d"⟩, javaSources := [⟨"/s"⟩], androidJar := ⟨"/p"⟩ }
  toolchain := Toolchain.ofLocations ⟨"/d"⟩ fun _ => ⟨"/f"⟩

/-- Files with some sources. -/
def quotedFiles (sources : List Location) : FileSystem :=
  sources.foldl (fun files source => files.put source (.file 0o644 .empty))
    (((FileSystem.root.put ["s"] (.directory 0o755)).put ["d"] (.directory 0o755)).put ["d", "gen"]
      (.directory 0o755))

/-- A source with most of the characters that could be taken for something else, and a generated
one. -/
def quotedSources : List Location :=
  [["s", "a b\"\\n#'.java"], ["d", "gen", "R.java"]]

/-- The history of compiling some sources. -/
def quotedHistory (sources : List Location) : History :=
  (runCompileSources quotedContext none).run.history (deafWorld.answer false) (quotedFiles sources)

/-- The files behind compiling some sources. -/
def quotedFilesAfter (sources : List Location) : FileSystem :=
  ((runCompileSources quotedContext none).run.run (deafWorld.answer false) (quotedFiles sources)).2

/-- The call of the compiler. -/
def quotedCall : Invocation where
  program := ⟨"/f"⟩
  arguments := ["-source", "17", "-target", "17", "-encoding", "UTF-8", "-d", "/d/classes", "-cp",
    "/p", "-g", "@/d/javac-sources.txt"]

/-- The compiler reads both sources, and without sources it is not called. -/
theorem arguments_quoted : (quotedFiles quotedSources).WellNamed ∧
    (runCompileSources quotedContext none).Reaches (quotedHistory quotedSources).dropLast quotedCall ∧
    (∃ text lists, quotedCall.program = ⟨"/f"⟩ ∧
      quotedCall.arguments.getLast? = some "@/d/javac-sources.txt" ∧
      (quotedFilesAfter quotedSources).read [] ⟨"/d/javac-sources.txt"⟩ = .ok (.ofText text) ∧
      List.Forall₂ (IsSources (quotedFiles quotedSources) []) [⟨"/s"⟩, ⟨"/d/gen"⟩] lists ∧
      ArgumentFile.arguments text = lists.flatten.map Path.text ∧ lists.flatten ≠ []) ∧
    (quotedHistory []).calls = [] := by
  have hwell : (quotedFiles quotedSources).WellNamed :=
    ((((FileSystem.wellNamed_root.put (by decide) _).put (by decide) _).put (by decide) _).put
      (by decide) _).put (by decide) _
  have honly : (runCompileSources quotedContext none).run.Only Request.IsWork :=
    (works_runCompileSources quotedContext none).only
  have hcall : (quotedHistory quotedSources).getLast?.bind (·.request.invocation?) =
      some quotedCall := by decide +kernel
  obtain ⟨hreaches, hevolves⟩ := Attempt.reaches_of_getLast? honly (fun _ _ => rfl) hcall
  exact ⟨hwell, hreaches, (arguments_runCompileSources hwell).1 hreaches hevolves, by decide +kernel⟩

example : (((quotedFilesAfter quotedSources).read [] ⟨"/d/javac-sources.txt"⟩).toOption.bind
    Content.text?).map ArgumentFile.arguments =
      some ["/s/a b\"\\n#'.java", "/d/gen/R.java"] := by
  decide +kernel

end Stage

end SketchApk
