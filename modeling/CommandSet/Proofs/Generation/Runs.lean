import CommandSet.Generation
import CommandSet.Proofs.Generation.Locations
import CommandSet.Proofs.Protocol.Validation
import Mathlib.Logic.Function.Basic

/-!
# Runs on files that may fail

A run reads the earlier modules before it writes anything, and each artifact is written or
fails on its own.  Files are a map from locations to contents here; any of them may refuse
to be read or to be written.

Main definitions:

- {lit}`FileMap`: files that may fail, as a file store.
- {lit}`FileMap.recovered`, {lit}`FileMap.rendered`: what a run recovers and renders.
- {lit}`Completes`: what a run on a valid protocol comes to.

Main results:

- Theorem {lit}`run_generateAll`: a run, step by step.
- Theorem {lit}`content_writeAll_of_mem`: what was written is not written over.
- Theorem {lit}`generateAll_all_or_nothing`: an invalid protocol changes no file, and a valid
  one writes each artifact on its own.
-/

namespace CommandSet

open Recovery (RecoveredCode recover)

/-! ## File maps -/

/-- The contents of files, with the locations that refuse an access. -/
structure FileMap where
  content : Location → Option ByteArray
  unreadable : Location → Option FileError
  unwritable : Location → Option FileError

namespace FileMap

/-- What comes of reading a file. -/
def readOutcome (files : FileMap) (path : String) : Except FileError ByteArray :=
  match files.unreadable (.ofPath path) with
  | some error => .error error
  | none =>
      match files.content (.ofPath path) with
      | some bytes => .ok bytes
      | none => .error .notFound

/-- What comes of writing a file. -/
def writeOutcome (files : FileMap) (path : String) : Except FileError Unit :=
  match files.unwritable (.ofPath path) with
  | some error => .error error
  | none => .ok ()

/-- The files after a write; a location that refuses it stays as it is. -/
def write (files : FileMap) (path text : String) : FileMap :=
  match files.unwritable (.ofPath path) with
  | some _ => files
  | none =>
      { files with
        content := Function.update files.content (.ofPath path) (some text.toUTF8) }

/-- A map of files is a file store. -/
instance : FileStore (StateM FileMap) where
  read path := fun files => (files.readOutcome path, files)
  write path text := fun files => (files.writeOutcome path, files.write path text)

variable {files : FileMap} {path text : String} {location : Location}

@[simp]
theorem unwritable_write (files : FileMap) (path text : String) :
    (files.write path text).unwritable = files.unwritable := by
  rw [write]
  split <;> rfl

theorem content_write_self (h : files.unwritable (.ofPath path) = none) :
    (files.write path text).content (.ofPath path) = some text.toUTF8 := by
  simp [write, h]

theorem content_write_of_ne
    (h : files.unwritable (.ofPath path) = none → Location.ofPath path ≠ location) :
    (files.write path text).content location = files.content location := by
  rw [write]
  split
  next => rfl
  next hwritable => exact Function.update_of_ne (h hwritable).symm _ _

/-! ## What a run reads and renders -/

/-- The code recovered from a file, if it can be read and recovered. -/
def recovered (files : FileMap) (protocol : Protocol) (path : String) : Option RecoveredCode :=
  match files.readOutcome path with
  | .error _ => none
  | .ok bytes =>
      (recover protocol.name (protocol.commands.map (·.name)) (Text.decodeSource bytes)).toOption

/-- The code recovered for a role. -/
def recoveredFor (files : FileMap) (protocol : Protocol) (options : Options) (role : Role) :
    Option RecoveredCode :=
  (options.importOf role).bind (files.recovered protocol)

/-- What is rendered from the files as they are. -/
def rendered (files : FileMap) (protocol : Protocol) (options : Options) : List RenderedFile :=
  render (Prepared.ofProtocol protocol)
    ⟨files.recoveredFor protocol options .a, files.recoveredFor protocol options .b⟩ options.typed

/-- What is reported of the earlier module of a role. -/
def importOutcomes (files : FileMap) (protocol : Protocol) (options : Options) (role : Role) :
    List ImportOutcome :=
  (options.importOf role).toList.map fun path =>
    ⟨role, path, (files.recovered protocol path).isSome⟩

end FileMap

/-- The path of a file below the output directory. -/
def Options.pathOf (options : Options) (file : RenderedFile) : String :=
  Path.join options.outDir file.path

/-- The options without the earlier module of a role. -/
def Options.withoutImport (options : Options) : Role → Options
  | .a => { options with importA := none }
  | .b => { options with importB := none }

/-- The report of a run whose protocol is valid. -/
def FileMap.report (before : FileMap) (protocol : Protocol) (options : Options) : Report :=
  ⟨(before.rendered protocol options).map fun file =>
      ⟨options.pathOf file, before.writeOutcome (options.pathOf file)⟩,
    before.importOutcomes protocol options .a ++ before.importOutcomes protocol options .b⟩

/-- Write files one after the other. -/
def FileMap.writeAll (directory : String) (artifacts : List RenderedFile) (files : FileMap) :
    FileMap :=
  artifacts.foldl (fun files file => files.write (Path.join directory file.path) file.content) files

/-! ## Steps of a run -/

section

variable {directory : String} {location : Location}

theorem run_importModule (protocol : Protocol) (path : String) (files : FileMap) :
    (importModule protocol path : StateM FileMap _).run files =
      pure (files.recovered protocol path, files) := by
  have hread : (FileStore.read path : StateM FileMap _).run files =
      pure (files.readOutcome path, files) := rfl
  rw [importModule, StateT.run_bind, hread, pure_bind, FileMap.recovered]
  cases files.readOutcome path with
  | error _ => rfl
  | ok bytes =>
      cases hrecover : recover protocol.name (protocol.commands.map (·.name))
          (Text.decodeSource bytes) <;>
        simp [hrecover, Except.toOption]

theorem run_importRole (protocol : Protocol) (options : Options) (role : Role) (files : FileMap) :
    (importRole protocol options role : StateM FileMap _).run files =
      pure ((files.recoveredFor protocol options role,
        files.importOutcomes protocol options role), files) := by
  rw [importRole, FileMap.recoveredFor, FileMap.importOutcomes]
  cases options.importOf role with
  | none => rfl
  | some path => simp [run_importModule]

/-- Every artifact is written or fails by its own location. -/
theorem run_writeArtifacts (directory : String) (artifacts : List RenderedFile)
    (files : FileMap) :
    (artifacts.mapM (writeArtifact directory) : StateM FileMap _).run files =
      pure (artifacts.map fun file =>
          ⟨Path.join directory file.path, files.writeOutcome (Path.join directory file.path)⟩,
        files.writeAll directory artifacts) := by
  induction artifacts generalizing files with
  | nil => rfl
  | cons file artifacts ih =>
      have hwrite : (writeArtifact directory file : StateM FileMap _).run files =
          pure (⟨Path.join directory file.path, files.writeOutcome (Path.join directory file.path)⟩,
            files.write (Path.join directory file.path) file.content) := rfl
      have houtcome (path : String) :
          (files.write (Path.join directory file.path) file.content).writeOutcome path =
            files.writeOutcome path := by
        rw [FileMap.writeOutcome, FileMap.unwritable_write, FileMap.writeOutcome]
      rw [List.mapM_cons, StateT.run_bind, hwrite, pure_bind, StateT.run_bind, ih, pure_bind]
      simp only [houtcome]
      rfl

/-- A run, step by step. -/
theorem run_generateAll (protocol : Protocol) (options : Options) (before : FileMap) :
    (generateAll protocol options : StateM FileMap _).run before =
      match validate protocol with
      | .error error => (.error error, before)
      | .ok _ =>
          (.ok (before.report protocol options),
            before.writeAll options.outDir (before.rendered protocol options)) := by
  rw [generateAll]
  cases hvalidate : validate protocol with
  | error error =>
      have hprepare : prepare protocol = .error error := by rw [prepare, hvalidate]; rfl
      rw [hprepare]
      rfl
  | ok _ =>
      have hprepare : prepare protocol = .ok (Prepared.ofProtocol protocol) := by
        rw [prepare, hvalidate]
        rfl
      simp only [hprepare, StateT.run_bind, run_importRole, pure_bind, run_writeArtifacts]
      rfl

/-! ## Written files -/

/-- A location at which no artifact is written keeps what it holds. -/
theorem content_writeAll_of_forall_ne {artifacts : List RenderedFile} {files : FileMap}
    (h : ∀ file ∈ artifacts, files.unwritable (.ofPath (Path.join directory file.path)) = none →
      Location.ofPath (Path.join directory file.path) ≠ location) :
    (files.writeAll directory artifacts).content location = files.content location := by
  induction artifacts generalizing files with
  | nil => rfl
  | cons file artifacts ih =>
      rw [List.forall_mem_cons] at h
      rw [FileMap.writeAll, List.foldl_cons, ← FileMap.writeAll, ih,
        FileMap.content_write_of_ne h.1]
      simpa using h.2

/-- What was written is not written over. -/
theorem content_writeAll_of_mem {artifacts : List RenderedFile} {files : FileMap}
    (hnodup : (artifacts.map fun file => Location.ofPath (Path.join directory file.path)).Nodup)
    {file : RenderedFile} (hfile : file ∈ artifacts)
    (hwritable : files.unwritable (.ofPath (Path.join directory file.path)) = none) :
    (files.writeAll directory artifacts).content (.ofPath (Path.join directory file.path)) =
      some file.content.toUTF8 := by
  induction artifacts generalizing files with
  | nil => exact absurd hfile List.not_mem_nil
  | cons first artifacts ih =>
      rw [List.map_cons, List.nodup_cons, List.mem_map, not_exists] at hnodup
      rw [FileMap.writeAll, List.foldl_cons, ← FileMap.writeAll]
      rcases List.mem_cons.mp hfile with rfl | hfile
      · rw [content_writeAll_of_forall_ne, FileMap.content_write_self hwritable]
        exact fun other hother _ heq => hnodup.1 other ⟨hother, heq⟩
      · exact ih hnodup.2 hfile (by rwa [FileMap.unwritable_write])

end

/-! ## What a run comes to -/

/-- Earlier modules that give no code: they cannot be read, or recovery refuses them. -/
def FileMap.Unusable (files : FileMap) (protocol : Protocol) (path : String) : Prop :=
  (∃ error, files.readOutcome path = .error error) ∨
    ∃ bytes error, files.readOutcome path = .ok bytes ∧
      recover protocol.name (protocol.commands.map (·.name)) (Text.decodeSource bytes) =
        .error error

/-- What a run on a valid protocol comes to.  Everything is rendered from the files as they
were before the run. -/
structure Completes (protocol : Protocol) (options : Options) (before after : FileMap)
    (report : Report) : Prop where
  /-- The report lists every file, in the order of rendering. -/
  listed : report.artifacts.map (·.path) = (before.rendered protocol options).map options.pathOf
  /-- Each artifact is reported as its location answers. -/
  outcomes : ∀ result ∈ report.artifacts, result.outcome = before.writeOutcome result.path
  /-- What is reported as written holds its text. -/
  written : ∀ entry ∈ report.artifacts.zip (before.rendered protocol options),
    entry.1.isOk = true → after.content (.ofPath entry.1.path) = some entry.2.content.toUTF8
  /-- Only what is reported as written changes. -/
  changed : ∀ location, after.content location ≠ before.content location →
    ∃ result ∈ report.artifacts, result.isOk = true ∧ .ofPath result.path = location
  /-- What could not be written stays as it was. -/
  failed : ∀ result ∈ report.artifacts, result.isOk = false →
    after.content (.ofPath result.path) = before.content (.ofPath result.path)
  /-- A run succeeds if no location refuses its artifact. -/
  success : report.isSuccess = true ↔ ∀ file ∈ before.rendered protocol options,
    before.unwritable (.ofPath (options.pathOf file)) = none
  /-- One line for each earlier module that was given, in the order of the roles. -/
  imports : report.imports.map (fun outcome => (outcome.role, outcome.path)) =
    Role.both.flatMap fun role => (options.importOf role).toList.map (role, ·)
  /-- An earlier module without code is reported and left out. -/
  unusable : ∀ role path, options.importOf role = some path → before.Unusable protocol path →
    ⟨role, path, false⟩ ∈ report.imports ∧
      before.rendered protocol options = before.rendered protocol (options.withoutImport role)
  /-- Every other one is reported as recovered. -/
  usable : ∀ role path, options.importOf role = some path → ¬before.Unusable protocol path →
    ⟨role, path, true⟩ ∈ report.imports

section

variable {protocol : Protocol} {options : Options} {before : FileMap}

/-- Modules without code are those from which nothing is recovered. -/
theorem FileMap.unusable_iff {files : FileMap} {path : String} :
    files.Unusable protocol path ↔ files.recovered protocol path = none := by
  rw [FileMap.Unusable, FileMap.recovered]
  cases files.readOutcome path with
  | error error => simp
  | ok bytes =>
      cases hrecover : recover protocol.name (protocol.commands.map (·.name))
          (Text.decodeSource bytes) <;>
        simp [hrecover, Except.toOption]

/-- A module without code counts as none. -/
theorem rendered_withoutImport {role : Role} {path : String}
    (himport : options.importOf role = some path) (h : before.recovered protocol path = none) :
    before.rendered protocol (options.withoutImport role) = before.rendered protocol options := by
  have hnone : before.recoveredFor protocol options role = none := by
    rw [FileMap.recoveredFor, himport, Option.bind_some, h]
  have hwithout (other : Role) : before.recoveredFor protocol (options.withoutImport role) other =
      before.recoveredFor protocol options other := by
    cases role with
    | a =>
        cases other with
        | a => exact hnone.symm
        | b => rfl
    | b =>
        cases other with
        | a => rfl
        | b => exact hnone.symm
  have htyped : (options.withoutImport role).typed = options.typed := by
    cases role <;> rfl
  rw [FileMap.rendered, hwithout, hwithout, htyped, FileMap.rendered]

/-- The report of an earlier module that was given. -/
theorem mem_importOutcomes (protocol : Protocol) (before : FileMap) {role : Role} {path : String}
    (himport : options.importOf role = some path) :
    ⟨role, path, (before.recovered protocol path).isSome⟩ ∈
      before.importOutcomes protocol options .a ++ before.importOutcomes protocol options .b := by
  have hmem : ⟨role, path, (before.recovered protocol path).isSome⟩ ∈
      before.importOutcomes protocol options role := by
    simp [FileMap.importOutcomes, himport]
  rw [List.mem_append]
  cases role with
  | a => exact Or.inl hmem
  | b => exact Or.inr hmem

theorem isOk_writeOutcome_iff {path : String} :
    (ArtifactResult.mk path (before.writeOutcome path)).isOk = true ↔
      before.unwritable (.ofPath path) = none := by
  rw [ArtifactResult.isOk, FileMap.writeOutcome]
  cases before.unwritable (.ofPath path) <;> simp

theorem mem_report_artifacts {result : ArtifactResult} :
    result ∈ (before.report protocol options).artifacts ↔
      ∃ file ∈ before.rendered protocol options,
        ⟨options.pathOf file, before.writeOutcome (options.pathOf file)⟩ = result :=
  List.mem_map

theorem mem_zip_report {entry : ArtifactResult × RenderedFile} :
    entry ∈ (before.report protocol options).artifacts.zip (before.rendered protocol options) ↔
      ∃ file ∈ before.rendered protocol options,
        (⟨options.pathOf file, before.writeOutcome (options.pathOf file)⟩, file) = entry := by
  have hzip (text : RenderedFile → ArtifactResult) (files : List RenderedFile) :
      (files.map text).zip files = files.map fun file => (text file, file) := by
    simpa using List.zip_map' (f := text) (g := id) (l := files)
  rw [FileMap.report, hzip, List.mem_map]

/-- A run on a valid protocol leaves every artifact that was written with its text. -/
theorem completes_of_validate (h : validate protocol = .ok ()) (options : Options)
    (before : FileMap) :
    Completes protocol options before
      (before.writeAll options.outDir (before.rendered protocol options))
      (before.report protocol options) where
  listed := by rw [FileMap.report, List.map_map]; rfl
  outcomes := by
    intro result hresult
    obtain ⟨file, -, rfl⟩ := mem_report_artifacts.mp hresult
    rfl
  written := by
    intro entry hentry hok
    obtain ⟨file, hfile, rfl⟩ := mem_zip_report.mp hentry
    have hname := (wellFormed_of_validate h).protocol_name
    exact content_writeAll_of_mem (nodup_locations_render hname _ _ _) hfile
      (isOk_writeOutcome_iff.mp hok)
  changed := by
    intro location hchanged
    by_contra hnone
    refine hchanged (content_writeAll_of_forall_ne fun file hfile hwritable hlocation => hnone ?_)
    exact ⟨_, mem_report_artifacts.mpr ⟨file, hfile, rfl⟩, isOk_writeOutcome_iff.mpr hwritable,
      hlocation⟩
  failed := by
    intro result hresult hfailed
    obtain ⟨file, -, rfl⟩ := mem_report_artifacts.mp hresult
    refine content_writeAll_of_forall_ne fun other _ hwritable hlocation => ?_
    rw [hlocation, ← isOk_writeOutcome_iff, hfailed] at hwritable
    cases hwritable
  success := by
    rw [Report.isSuccess, List.all_eq_true, FileMap.report, List.forall_mem_map]
    exact forall₂_congr fun file _ => isOk_writeOutcome_iff
  imports := by
    simp [FileMap.report, FileMap.importOutcomes, Role.both, Function.comp_def]
  unusable := by
    intro role path himport hunusable
    have hnone := FileMap.unusable_iff.mp hunusable
    have hmem := mem_importOutcomes protocol before himport
    rw [hnone] at hmem
    exact ⟨hmem, (rendered_withoutImport himport hnone).symm⟩
  usable := by
    intro role path himport husable
    have hsome := Option.ne_none_iff_isSome.mp (mt FileMap.unusable_iff.mpr husable)
    have hmem := mem_importOutcomes protocol before himport
    rwa [hsome] at hmem

/-- An invalid protocol changes no file.  A valid one is rendered from the files as they were,
and each artifact is written to a place of its own or fails there. -/
theorem generateAll_all_or_nothing (protocol : Protocol) (options : Options) (before : FileMap) :
    (∀ error, validate protocol = .error error →
      (generateAll protocol options : StateM FileMap _).run before = (.error error, before)) ∧
    (validate protocol = .ok () →
      ∃ report after,
        (generateAll protocol options : StateM FileMap _).run before = (.ok report, after) ∧
        Completes protocol options before after report) ∧
    ∀ prepared : Prepared, isIdentifier prepared.protocol.name = true →
      ∀ recovered typed directory, ((render prepared recovered typed).map fun file =>
        Location.ofPath (Path.join directory file.path)).Nodup := by
  refine ⟨fun error h => ?_, fun h => ?_, fun prepared hname recovered typed directory => ?_⟩
  · rw [run_generateAll, h]
  · refine ⟨before.report protocol options, _, ?_, completes_of_validate h options before⟩
    rw [run_generateAll, h]
  · exact nodup_locations_render (isIdentifier_iff.mp hname) recovered typed directory

private def sluice : Protocol :=
  ⟨"Sluice", 6, [⟨"Open", 1, .aToB, [], ""⟩]⟩

/-- The earlier module of role B is the file that its artifact replaces. -/
private def sluiceOptions : Options :=
  (Options.ofOutDir "out").withImport .b "out/Sluice_Main_b.c"

/-- No file is there, and the main header cannot be written. -/
private def sealed : FileMap where
  content := fun _ => none
  unreadable := fun _ => none
  unwritable := fun location =>
    if location = .ofPath "out/Sluice_Main.h" then some .isADirectory else none

/-- A run completes without its header. -/
theorem generateAll_sluice :
    ∃ report after,
      (generateAll sluice sluiceOptions : StateM FileMap _).run sealed = (.ok report, after) ∧
      Completes sluice sluiceOptions sealed after report ∧ report.isSuccess = false := by
  obtain ⟨report, after, hrun, hcompletes⟩ :=
    (generateAll_all_or_nothing sluice sluiceOptions sealed).2.1 (by decide)
  refine ⟨report, after, hrun, hcompletes, Bool.eq_false_iff.mpr fun hsuccess => ?_⟩
  have hheader : ∃ file ∈ sealed.rendered sluice sluiceOptions, file.path = "Sluice_Main.h" :=
    ⟨_, List.mem_cons_self, by decide⟩
  obtain ⟨file, hfile, hpath⟩ := hheader
  have hwritable := hcompletes.success.mp hsuccess file hfile
  rw [Options.pathOf, hpath] at hwritable
  revert hwritable
  decide

end

end CommandSet
