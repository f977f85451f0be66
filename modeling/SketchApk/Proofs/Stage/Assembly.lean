import SketchApk.Proofs.Plan.Requests
import SketchApk.Proofs.Plan.Writing
import SketchApk.Proofs.Stage.Packing
import SketchApk.Stage.Package

/-!
# What a package consists of

A package begins with the entries of the linked resources. Behind them stand the bytecode, the
assets and the native libraries, each with one entry for every file, in the order in which the trees
are walked. The package is put together if and only if there is bytecode and no two entries have the
same name. The linked resources themselves stay what they are.

The trees are taken as they are before and after a copy of the linked resources has been put in the
place of the package, so none of them contains that place.

## Main definitions

* `Stage.Parts` : the parts of a package.
* `Stage.Places` : there is room for the package.
* `Stage.Parts.Packs` : what has become of the package when the stage has ended.

## Main statements

* `Stage.exists_of_prepareOutput` : no file is left where room for an output has been made.
* `Packing.run_writeTo` : what is packed is written to the file, also when packing fails.
* `Stage.packs_runPackageResources` : the stage puts the package together.
-/

namespace SketchApk

open Attempt

variable {world : World} {stop : Bool} {files made ready copied : FileSystem} {path : Path}

/-! ### Making room -/

namespace Stage

/-- When room has been made for an output, no file is at its place, and nothing has been added but
directories. -/
theorem exists_of_prepareOutput
    (h : (prepareOutput path).run.run (world.answer stop) files = (.ok (), ready)) :
    ∃ made, files.SameFiles made ∧ made.Vacates world.place path ready := by
  have honly : (path.parent?.forM Plan.createDirectory : Attempt Unit).run.Only Request.IsMaking :=
    .attemptForM? _ fun parent =>
      (Plan.only_makeDirectories (fun _ => trivial) (fun _ => trivial) parent).during _
  have hsame : files.SameFiles (Plan.run (world.answer stop) _ files).2 := honly.sameFiles files
  rcases hmade : (path.parent?.forM Plan.createDirectory : Attempt Unit).run.run (world.answer stop)
    files with ⟨fault | ⟨⟨⟩⟩, made⟩
  · rw [prepareOutput, run_bind_error hmade] at h
    cases h
  · rw [hmade] at hsame
    refine ⟨made, hsame, ?_⟩
    rw [prepareOutput, run_bind_ok hmade, run_bind_ok (run_always (Plan.run_pathExists path))] at h
    cases hinspect : made.inspect world.place path with
    | error error =>
      rw [hinspect] at h
      cases h
      refine ⟨FileSystem.isFree_of_inspect fun inspection => ?_, .inl rfl⟩
      rw [hinspect]
      exact nofun
    | ok inspection =>
      rw [hinspect] at h
      have hremove : (Attempt.file (.removeFile path)).run.run (world.answer stop) made = _ :=
        run_file (.removeFile path)
      rw [FileOperation.run] at hremove
      cases hremoved : made.removeFile world.place path with
      | error error =>
        rw [hremoved] at hremove
        cases (run_during_error hremove).symm.trans h
      | ok changed =>
        rw [hremoved] at hremove
        obtain ⟨-, rfl⟩ := Prod.mk.inj ((run_during_ok hremove).symm.trans h)
        exact FileSystem.vacates_of_removeFile hremoved

theorem run_ensureExists {inspection : Inspection} (h : files.inspect world.place path = .ok inspection)
    (what : String) :
    (ensureExists path what).run.run (world.answer stop) files = (.ok (), files) := by
  rw [ensureExists, run_bind_ok (run_always (Plan.run_pathExists path)), h]
  rfl

theorem run_openArchive {content : Content} {linked : Archive}
    (h : files.readToExtend world.place path = .ok content) (hlinked : content.toArchive = .ok linked) :
    (openArchive path).run.run (world.answer stop) files = (.ok linked, files) := by
  have hread : (Attempt.file (.readToExtend path)).run.run (world.answer stop) files =
      (.ok content, files) := by
    rw [run_file, FileOperation.run, h]
    rfl
  rw [openArchive, run_bind_ok (run_during_ok hread), hlinked]
  rfl

end Stage

namespace Packing

variable {α : Type} {packing : Packing α} {initial : Archive}

/-- What has been packed is written to the file, whatever the result. -/
theorem run_writeTo_eq {result : Except Fault α} {extended : Archive} {written : FileSystem}
    (hpacked : (packing.run.run initial).run (world.answer stop) files = ((result, extended), files))
    (hwritten : files.overwrite world.place path (.ofArchive extended) none = .ok written) :
    (packing.writeTo path initial).run.run (world.answer stop) files = (result, written) := by
  have hask : (Plan.ask (.file (.write path (.ofArchive extended)))).run (world.answer stop) files =
      (.ok (), written) := by
    rw [Plan.run_ask_file, FileOperation.run, hwritten]
    rfl
  change ((packing.run.run initial).bind _).run _ _ = _
  rw [Plan.run_bind, hpacked]
  change ((Plan.ask _).bind _).run _ _ = _
  rw [Plan.run_bind, hask]
  cases result <;> rfl

/-- What is packed is written to the file, also when packing fails. -/
theorem run_writeTo {entries : List ArchiveEntry} (h : packing.Adds world stop files entries)
    {written : Content → FileSystem}
    (hwritten : ∀ content, files.overwrite world.place path content none = .ok (written content))
    (initial : Archive) :
    (Fits initial entries → ∃ value extended,
      (packing.writeTo path initial).run.run (world.answer stop) files =
        (.ok value, written (.ofArchive extended)) ∧
      extended.entries = initial.entries ++ entries) ∧
    (¬Fits initial entries → ∃ fault extended,
      (packing.writeTo path initial).run.run (world.answer stop) files =
        (.error fault, written (.ofArchive extended))) := by
  constructor
  · intro hfits
    obtain ⟨value, extended, hpacked, hextended⟩ := h.of_fits initial hfits
    exact ⟨value, extended, run_writeTo_eq hpacked (hwritten _), hextended⟩
  · intro hfits
    obtain ⟨fault, extended, hpacked⟩ := h.of_not_fits initial hfits
    exact ⟨fault, extended, run_writeTo_eq hpacked (hwritten _)⟩

end Packing

namespace Stage

/-! ### The parts of a package -/

/-- The parts of a package: the linked resources, and the files of three trees, with the names that
lead to them from the roots and with what they hold. -/
structure Parts where
  linked : Archive
  bytecode : List (List String × Content)
  assets : List (List String × Content)
  libraries : List (List String × Content)

namespace Parts

variable (parts : Parts)

/-- The trees of a configuration hold the files of the parts. -/
structure LieIn (context : StageContext) (cwd : Location) (files : FileSystem) : Prop where
  bytecode : files.HoldsTree cwd context.layout.dexDir parts.bytecode
  assets {root : Path} (h : context.config.assetsDir = some root) :
    files.HoldsTree cwd root parts.assets
  assets_eq_nil (h : context.config.assetsDir = none) : parts.assets = []
  libraries {root : Path} (h : context.config.nativeLibsDir = some root) :
    files.HoldsTree cwd root parts.libraries
  libraries_eq_nil (h : context.config.nativeLibsDir = none) : parts.libraries = []

/-- The files with bytecode. -/
def bytecodeFiles (root : Path) : List (List String × Content) :=
  parts.bytecode.filter fun file => (root.descend file.1).extension? = some "dex"

/-- The paths of the files with bytecode. -/
def bytecodePaths (root : Path) : List Path :=
  (parts.bytecodeFiles root).map fun file => root.descend file.1

/-- The entries behind those of the linked resources: each file with bytecode under its own name,
then the assets, then the native libraries, which are not compressed. -/
def added (layout : BuildLayout) : List ArchiveEntry :=
  ((parts.bytecodeFiles layout.dexDir).map fun file =>
    { name := (layout.dexDir.descend file.1).fileName?.getD "", compression := .deflated,
      data := file.2.toBytes }) ++
    (Packing.treeEntries "assets/" .deflated parts.assets ++
      Packing.treeEntries "lib/" .stored parts.libraries)

end Parts

/-- The package that is gone on with behind a stage, given how that has ended. -/
def packageBehind (package : Option Path) : Except Fault StageOutput → Option Path
  | .ok output => output.package
  | .error _ => package

/-- There is room for the package, and the linked resources can be copied there. -/
def Places (world : World) (stop : Bool) (layout : BuildLayout) (files copied : FileSystem) : Prop :=
  ∃ ready, (prepareOutput layout.unsignedPackage).run.run (world.answer stop) files =
      (.ok (), ready) ∧
    ready.copy world.place layout.baseArchive layout.unsignedPackage = .ok copied

/-- The files with bytecode are found by walking through their tree. -/
theorem run_collectFiles {parts : Parts} {root : Path}
    (h : files.HoldsTree world.place root parts.bytecode) :
    (collectFiles root "dex").run.run (world.answer stop) files =
      (.ok (parts.bytecodePaths root), files) := by
  have hwalk : (Plan.walkTree root).run.run (world.answer stop) files =
      (.ok (parts.bytecode.map (·.1)), files) := by
    rw [Plan.walkTree, run_bind_ok (run_always (Plan.run_walk h))]
    rfl
  rw [collectFiles, run_bind_ok hwalk, List.map_map, List.filter_map]
  rfl

/-- Packing the parts adds their entries. -/
theorem adds_packParts {parts : Parts} {context : StageContext}
    (h : parts.LieIn context world.place files) :
    (packParts context.config (parts.bytecodePaths context.layout.dexDir)).Adds world stop files
      (parts.added context.layout) := by
  refine .bind ?_ fun _ => .bind ?_ fun _ => ?_
  · rw [Parts.bytecodePaths, List.forM_eq_forM, List.forM_map, List.map_eq_flatMap]
    exact .forM _ fun file hfile =>
      Packing.adds_addFile (h.bytecode.read file (List.mem_of_mem_filter hfile))
  · refine .forM? _ (fun root hroot => ?_) fun hnone => ?_
    · exact (Packing.adds_addTree (h.assets hroot) _ _).discard
    · rw [h.assets_eq_nil hnone]
      rfl
  · refine .forM? _ (fun root hroot => ?_) fun hnone => ?_
    · exact (Packing.adds_addTree (h.libraries hroot) _ _).discard
    · rw [h.libraries_eq_nil hnone]
      rfl

/-- What has become of the package when the stage has ended. It has succeeded if and only if there
is bytecode and the names of all entries are distinct. Then the file of the package holds the
entries of the linked resources and those of the other parts, in order, and it is the package that
is gone on with; otherwise that is the one of before. The linked resources are what they were. -/
structure Parts.Packs (parts : Parts) (context : StageContext) (cwd : Location)
    (package : Option Path) (files : FileSystem) (ended : Except Fault StageOutput × FileSystem) :
    Prop where
  succeeds_iff : (∃ output, ended.1 = .ok output) ↔
    parts.bytecodeFiles context.layout.dexDir ≠ [] ∧
      (parts.linked.names ++ (parts.added context.layout).map (·.name)).Nodup
  holds {output : StageOutput} (h : ended.1 = .ok output) : ∃ content packed,
    ended.2.read cwd context.layout.unsignedPackage = .ok content ∧
      content.toArchive = .ok packed ∧
      packed.entries = parts.linked.entries ++ parts.added context.layout
  package_of_ok {output : StageOutput} (h : ended.1 = .ok output) :
    output.artifacts = [context.layout.unsignedPackage] ∧
      packageBehind package ended.1 = some context.layout.unsignedPackage
  package_of_error {fault : Fault} (h : ended.1 = .error fault) :
    packageBehind package ended.1 = package
  find_base : ended.2.find cwd context.layout.baseArchive =
    files.find cwd context.layout.baseArchive

variable {parts : Parts} {context : StageContext} {content : Content}

theorem fits_iff {layout : BuildLayout} : Packing.Fits parts.linked (parts.added layout) ↔
    (parts.linked.names ++ (parts.added layout).map (·.name)).Nodup := by
  rw [Packing.Fits, List.map_append, Archive.names]

theorem Parts.Packs.of_error {cwd : Location} {last : FileSystem} (package : Option Path)
    (fault : Fault)
    (h : ¬(parts.bytecodeFiles context.layout.dexDir ≠ [] ∧
      Packing.Fits parts.linked (parts.added context.layout)))
    (hbase : last.find cwd context.layout.baseArchive = files.find cwd context.layout.baseArchive) :
    parts.Packs context cwd package files (.error fault, last) where
  succeeds_iff := iff_of_false nofun (by rwa [← fits_iff])
  holds := nofun
  package_of_ok := nofun
  package_of_error _ := rfl
  find_base := hbase

theorem Parts.Packs.of_ok {cwd : Location} {last : FileSystem} {packed : Archive}
    (package : Option Path) (hbytecode : parts.bytecodeFiles context.layout.dexDir ≠ [])
    (hfits : Packing.Fits parts.linked (parts.added context.layout))
    (hread : last.read cwd context.layout.unsignedPackage = .ok (.ofArchive packed))
    (hpacked : packed.entries = parts.linked.entries ++ parts.added context.layout)
    (hbase : last.find cwd context.layout.baseArchive = files.find cwd context.layout.baseArchive) :
    parts.Packs context cwd package files
      (.ok ⟨[context.layout.unsignedPackage], some context.layout.unsignedPackage⟩, last) where
  succeeds_iff := iff_of_true ⟨_, rfl⟩ ⟨hbytecode, fits_iff.mp hfits⟩
  holds _ := by
    exact ⟨.ofArchive packed, packed, hread, Content.toArchive_ofArchive packed, hpacked⟩
  package_of_ok := by
    rintro _ ⟨⟩
    exact ⟨rfl, rfl⟩
  package_of_error := nofun
  find_base := hbase

/-- When the linked resources are at the place of the package, the rest is a matter of the names. -/
theorem packs_of_copied {place there : Location} {mode bits : Mode}
    (hcopied : ready.Copied world.place context.layout.baseArchive context.layout.unsignedPackage
      copied bits content there)
    (hreadable : bits.isReadable = true) (hwritable : bits.isWritable = true)
    (hlinked : content.toArchive = .ok parts.linked)
    (hbase : files.find world.place context.layout.baseArchive = .ok (place, .file mode content))
    (hsource : ready.find world.place context.layout.baseArchive = .ok (place, .file mode content))
    (hbytecode : parts.bytecodeFiles context.layout.dexDir ≠ [])
    (hafter : parts.LieIn context world.place copied) (package : Option Path) :
    parts.Packs context world.place package files
      ((do
        let linked ← openArchive context.layout.unsignedPackage
        (packParts context.config (parts.bytecodePaths context.layout.dexDir)).writeTo
          context.layout.unsignedPackage linked
        return ⟨[context.layout.unsignedPackage], some context.layout.unsignedPackage⟩ :
          Attempt StageOutput).run.run (world.answer stop) copied) := by
  have hopen : copied.readToExtend world.place context.layout.unsignedPackage = .ok content :=
    FileSystem.readToExtend_eq_ok_iff.mpr ⟨there, bits, hcopied.find_target, hreadable, hwritable⟩
  have hwritten (new : Content) :=
    (FileSystem.overwrite_of_resolve hcopied.resolve_target hwritable new).1
  have hpackage (new : Content) :=
    (FileSystem.overwrite_of_resolve hcopied.resolve_target hwritable new).2
  have hfind (new : Content) : (copied.put there (.file bits.afterWriting new)).find world.place
      context.layout.baseArchive = files.find world.place context.layout.baseArchive := by
    rw [hbase, (hcopied.find_source hsource _ new).2]
  have hadds : (packParts context.config (parts.bytecodePaths context.layout.dexDir)).Adds world stop
      copied (parts.added context.layout) :=
    adds_packParts hafter
  obtain ⟨hfits, hclash⟩ := Packing.run_writeTo hadds hwritten parts.linked
  rw [run_bind_ok (run_openArchive hopen hlinked)]
  by_cases hnames : Packing.Fits parts.linked (parts.added context.layout)
  · obtain ⟨value, packed, hrun, hpacked⟩ := hfits hnames
    rw [run_bind_ok hrun]
    have hread : (copied.put there (.file bits.afterWriting (.ofArchive packed))).read world.place
        context.layout.unsignedPackage = .ok (.ofArchive packed) := by
      rw [FileSystem.read, hpackage]
      exact if_pos (by simpa using hreadable)
    exact .of_ok package hbytecode hnames hread hpacked (hfind _)
  · obtain ⟨fault, packed, hrun⟩ := hclash hnames
    rw [run_bind_error hrun]
    exact .of_error package fault (fun h => hnames h.2) (hfind _)

/-- The stage puts the package together. -/
theorem packs_runPackageResources
    (hbase : files.readToExtend world.place context.layout.baseArchive = .ok content)
    (hlinked : content.toArchive = .ok parts.linked)
    (hbefore : parts.LieIn context world.place files)
    (hroom : Places world stop context.layout files copied)
    (hafter : parts.LieIn context world.place copied) (package : Option Path) :
    parts.Packs context world.place package files
      ((runPackageResources context package).run.run (world.answer stop) files) := by
  obtain ⟨place, mode, hfind, hreadable, hwritable⟩ := FileSystem.readToExtend_eq_ok_iff.mp hbase
  have hinspect : files.inspect world.place context.layout.baseArchive = .ok ⟨.file, mode⟩ := by
    rw [FileSystem.inspect, hfind]
  have hcollect : (collectFiles context.layout.dexDir "dex").run.run (world.answer stop) files = _ :=
    run_collectFiles hbefore.bytecode
  rw [runPackageResources, run_bind_ok (run_ensureExists hinspect _), run_bind_ok hcollect]
  by_cases hbytecode : parts.bytecodeFiles context.layout.dexDir = []
  · rw [if_pos (by rw [Parts.bytecodePaths, hbytecode]; rfl)]
    exact .of_error package _ (fun h => h.1 hbytecode) rfl
  · rw [if_neg (by simpa [Parts.bytecodePaths] using hbytecode)]
    obtain ⟨ready, hprepare, hcopy⟩ := hroom
    obtain ⟨made, hmade, hready⟩ := exists_of_prepareOutput hprepare
    obtain ⟨place', mode', content', there, bits, hsource, hreads, hwrites, hcopied⟩ :=
      FileSystem.exists_of_copy_vacant hcopy hready.isFree
    -- The linked resources that are copied are those that were there at first.
    cases (hmade.keeps.find hfind).symm.trans (hready.keeps.find hsource)
    have hrun : (Attempt.file (.copy context.layout.baseArchive context.layout.unsignedPackage)).run.run
        (world.answer stop) ready = (.ok (), copied) := by
      rw [run_file, FileOperation.run, hcopy]
      rfl
    dsimp only
    rw [run_bind_ok hprepare, run_bind_ok (run_during_ok hrun)]
    exact packs_of_copied hcopied (hreads.trans hreadable) (hwrites.trans hwritable) hlinked hfind
      hsource hbytecode hafter package

/-! ### Examples -/

/-- A world whose tools refuse to work. -/
def assemblyWorld : World where
  place := []
  tools _ files := (.error { cause := .tool (.refused "") }, files)

/-- A build below one directory, with assets and native libraries elsewhere. -/
def assemblyContext : StageContext where
  config := {
    buildPath := ⟨"/d"⟩
    assetsDir := some ⟨"/a"⟩
    nativeLibsDir := some ⟨"/n"⟩ }
  toolchain := Toolchain.ofLocations ⟨"/d"⟩ fun _ => ⟨"/f"⟩

/-- One entry of the linked resources and one file of each kind. -/
def assemblyParts : Parts where
  linked := ⟨[⟨"resources.arsc", .stored, "table".toUTF8, false⟩], by decide⟩
  bytecode := [(["classes.dex"], .ofText "code")]
  assets := [(["b", "c.txt"], .ofText "asset")]
  libraries := [(["x86", "l.so"], .ofText "library")]

/-- Files with these parts, where the linked resources have some permission bits. -/
def assemblyFiles (mode : Mode) : FileSystem :=
  [(["d"], .directory 0o755), (["d", "gen"], .directory 0o755), (["d", "dex"], .directory 0o755),
    (["a"], .directory 0o755), (["a", "b"], .directory 0o755), (["n"], .directory 0o755),
    (["n", "x86"], .directory 0o755),
    (["d", "gen", "resources.ap_"], .file mode (.archive assemblyParts.linked)),
    (["d", "dex", "classes.dex"], .file 0o644 (.ofText "code")),
    (["a", "b", "c.txt"], .file 0o644 (.ofText "asset")),
    (["n", "x86", "l.so"], .file 0o644 (.ofText "library"))].foldl
      (fun files entry => files.put entry.1 entry.2) FileSystem.root

/-- The files when there is a directory for the package. -/
def assemblyReady : FileSystem :=
  (assemblyFiles 0o644).put ["d", "package"] (.directory 0o755)

/-- The files when the linked resources have been copied. -/
def assemblyCopied : FileSystem :=
  assemblyReady.put ["d", "package", "com.example.app.apk"]
    (.file 0o644 (.archive assemblyParts.linked))

/-- The files with a directory at the place of the package. -/
def assemblyCrowded : FileSystem :=
  assemblyReady.put ["d", "package", "com.example.app.apk"] (.directory 0o755)

theorem holdsTree_singleton {cwd : Location} {root : Path} {names : List String} {content : Content}
    (hwalk : files.walk cwd root = .ok { files := [names] })
    (hread : files.read cwd (root.descend names) = .ok content) :
    files.HoldsTree cwd root [(names, content)] where
  walk := hwalk
  read entry hentry := by
    obtain rfl := List.mem_singleton.mp hentry
    exact hread

theorem lieIn_assemblyParts
    (hbytecode : files.HoldsTree [] assemblyContext.layout.dexDir assemblyParts.bytecode)
    (hassets : files.HoldsTree [] ⟨"/a"⟩ assemblyParts.assets)
    (hlibraries : files.HoldsTree [] ⟨"/n"⟩ assemblyParts.libraries) :
    assemblyParts.LieIn assemblyContext assemblyWorld.place files where
  bytecode := hbytecode
  assets h := Option.some.inj h ▸ hassets
  assets_eq_nil := nofun
  libraries h := Option.some.inj h ▸ hlibraries
  libraries_eq_nil := nofun

/-- The parts are put together when there is room for the package. -/
theorem packs_sample :
    (assemblyFiles 0o644).readToExtend assemblyWorld.place assemblyContext.layout.baseArchive =
        .ok (.archive assemblyParts.linked) ∧
      assemblyParts.LieIn assemblyContext assemblyWorld.place (assemblyFiles 0o644) ∧
      Places assemblyWorld false assemblyContext.layout (assemblyFiles 0o644) assemblyCopied ∧
      assemblyParts.LieIn assemblyContext assemblyWorld.place assemblyCopied ∧
      assemblyParts.bytecodeFiles assemblyContext.layout.dexDir ≠ [] ∧
      (assemblyParts.linked.names ++
        (assemblyParts.added assemblyContext.layout).map (·.name)).Nodup ∧
      assemblyParts.Packs assemblyContext assemblyWorld.place none (assemblyFiles 0o644)
        ((runPackageResources assemblyContext none).run.run (assemblyWorld.answer false)
          (assemblyFiles 0o644)) := by
  have hbase : (assemblyFiles 0o644).readToExtend assemblyWorld.place
      assemblyContext.layout.baseArchive = .ok (.archive assemblyParts.linked) := rfl
  have hbefore : assemblyParts.LieIn assemblyContext assemblyWorld.place (assemblyFiles 0o644) :=
    lieIn_assemblyParts (holdsTree_singleton rfl rfl) (holdsTree_singleton rfl rfl)
      (holdsTree_singleton rfl rfl)
  have hroom : Places assemblyWorld false assemblyContext.layout (assemblyFiles 0o644)
      assemblyCopied :=
    ⟨assemblyReady, rfl, rfl⟩
  have hafter : assemblyParts.LieIn assemblyContext assemblyWorld.place assemblyCopied :=
    lieIn_assemblyParts (holdsTree_singleton rfl rfl) (holdsTree_singleton rfl rfl)
      (holdsTree_singleton rfl rfl)
  exact ⟨hbase, hbefore, hroom, hafter, by decide +kernel, by decide +kernel,
    packs_runPackageResources hbase rfl hbefore hroom hafter none⟩

/-- A directory at the place of the package is not replaced, and linked resources that may not be
written to yield a package that cannot be extended, however the names are. -/
theorem not_packs_sample :
    assemblyParts.bytecodeFiles assemblyContext.layout.dexDir ≠ [] ∧
      (assemblyParts.linked.names ++
        (assemblyParts.added assemblyContext.layout).map (·.name)).Nodup ∧
      ∀ files ∈ [assemblyCrowded, assemblyFiles 0o444],
        files.read assemblyWorld.place assemblyContext.layout.baseArchive =
          .ok (.archive assemblyParts.linked) ∧
        assemblyParts.LieIn assemblyContext assemblyWorld.place files ∧
        assemblyParts.LieIn assemblyContext assemblyWorld.place
          ((runPackageResources assemblyContext none).run.run (assemblyWorld.answer false) files).2 ∧
        ∃ fault, ((runPackageResources assemblyContext none).run.run (assemblyWorld.answer false)
          files).1 = .error fault := by
  refine ⟨by decide +kernel, by decide +kernel, ?_⟩
  simp only [List.forall_mem_cons]
  refine ⟨⟨rfl, lieIn_assemblyParts ?_ ?_ ?_, lieIn_assemblyParts ?_ ?_ ?_, _, rfl⟩,
    ⟨rfl, lieIn_assemblyParts ?_ ?_ ?_, lieIn_assemblyParts ?_ ?_ ?_, _, rfl⟩, nofun⟩
  all_goals exact holdsTree_singleton rfl rfl

end Stage

end SketchApk
