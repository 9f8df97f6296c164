import CommandSet.Artifacts
import CommandSet.FileStore
import CommandSet.Path
import CommandSet.Recovery.Recover
import CommandSet.Text.Encoding

/-!
# Generation

A run validates the protocol, recovers code from the earlier main modules that it
was given, and writes every artifact.  An invalid protocol stops it before the
first access.  An earlier module that cannot be read or recovered is reported and
left out, and each artifact is written or fails on its own.

Main definitions:

- {lit}`Options`: what a run is asked for.
- {lit}`Report`: what came of it.
- {lit}`generateAll`: the run.
-/

namespace CommandSet

open Recovery (RecoveredCode recover)

/-! ## Options -/

/-- What a run is asked for. -/
structure Options where
  outDir : String
  /-- The earlier main module of role A. -/
  importA : Option String
  /-- The earlier main module of role B. -/
  importB : Option String
  /-- Whether the Rust modules are generated too. -/
  typed : Bool
deriving Repr, DecidableEq

namespace Options

/-- The output directory unless another one is named; {lit}`configured` is the one of
the environment. -/
def defaultOutDir (configured : Option String) : String :=
  configured.getD "lcsf_out"

/-- C files only, without earlier modules. -/
def ofOutDir (outDir : String) : Options :=
  ⟨outDir, none, none, false⟩

/-- Ask for Rust modules or not. -/
def withTyped (options : Options) (typed : Bool) : Options :=
  { options with typed := typed }

/-- Give the earlier main module of a role. -/
def withImport (options : Options) (role : Role) (path : String) : Options :=
  match role with
  | .a => { options with importA := some path }
  | .b => { options with importB := some path }

/-- The earlier main module of a role. -/
def importOf (options : Options) : Role → Option String
  | .a => options.importA
  | .b => options.importB

end Options

/-! ## Reports -/

/-- What came of an artifact. -/
structure ArtifactResult where
  path : String
  outcome : Except FileError Unit

/-- Whether an artifact was written. -/
def ArtifactResult.isOk (result : ArtifactResult) : Bool :=
  match result.outcome with
  | .ok _ => true
  | .error _ => false

/-- What came of an earlier main module. -/
structure ImportOutcome where
  role : Role
  path : String
  /-- Whether its code was recovered. -/
  complete : Bool
deriving Repr, DecidableEq

/-- What came of a run. -/
structure Report where
  artifacts : List ArtifactResult
  imports : List ImportOutcome

namespace Report

/-- Whether every artifact was written. -/
def isSuccess (report : Report) : Bool :=
  report.artifacts.all (·.isOk)

/-- The artifacts that could not be written. -/
def failures (report : Report) : List ArtifactResult :=
  report.artifacts.filter (!·.isOk)

end Report

/-- The wording of the refusal of an invalid protocol. -/
def refusalMessage (error : ValidationError) : String :=
  "invalid protocol: " ++ error.message

/-! ## The run -/

section

variable {m : Type → Type} [Monad m] [FileStore m]

/-- The code recovered from a file, if it can be read and recovered. -/
def importModule (protocol : Protocol) (path : String) : m (Option RecoveredCode) := do
  match ← FileStore.read path with
  | .error _ => pure none
  | .ok bytes =>
      let source := Text.decodeSource bytes
      match recover protocol.name (protocol.commands.map (·.name)) source with
      | .ok code => pure (some code)
      | .error _ => pure none

/-- The code recovered for a role, with its report if a file was given. -/
def importRole (protocol : Protocol) (options : Options) (role : Role) :
    m (Option RecoveredCode × List ImportOutcome) := do
  match options.importOf role with
  | none => pure (none, [])
  | some path =>
      let code ← importModule protocol path
      pure (code, [⟨role, path, code.isSome⟩])

/-- Write a file below the output directory. -/
def writeArtifact (outDir : String) (file : RenderedFile) : m ArtifactResult := do
  let path := Path.join outDir file.path
  let outcome ← FileStore.write path file.content
  pure ⟨path, outcome⟩

/-- Generate all artifacts of a protocol. -/
def generateAll (protocol : Protocol) (options : Options) :
    m (Except ValidationError Report) := do
  match prepare protocol with
  | .error error => pure (.error error)
  | .ok prepared =>
      let (codeA, importsA) ← importRole protocol options .a
      let (codeB, importsB) ← importRole protocol options .b
      let files := render prepared ⟨codeA, codeB⟩ options.typed
      let artifacts ← files.mapM (writeArtifact options.outDir)
      pure (.ok ⟨artifacts, importsA ++ importsB⟩)

end

end CommandSet
