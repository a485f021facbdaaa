import DealFlow360.Lib.FileTree
import DealFlow360.Lib.Program
import DealFlow360.Paths

/-!
# Writing a generated project

`writer.ts` over a tree of files: the sandbox under `generated/`, the place of
each file in the output folder, and the loop that compares with what is there
and writes. Paths are absolute and resolved; the order, the digest and the
length in bytes of texts are given. The generation manifest comes as the text
of its file.

The writer resolves each path against the output folder, refuses one that
leaves it, compares with what is there, and writes through the file tree of
`Lib.FileTree`. A dry run answers the list of files and writes nothing. The
errors are the source's, with the path they are about.
-/

namespace DealFlow360.ProjectGenerator

open Events (Text)
open Paths Program

abbrev Files := FileTree Text Text

/-! ## The sandbox -/

inductive WriterError where
  | validation (message : String) (path : Option Text)
  | conflict (message : String) (path : Text)
  | system
  deriving DecidableEq, Repr

def generatedDirName : Text := codeUnits "generated"

def assertOutputSandbox (kitRoot outputRoot : Path) : Except WriterError Path :=
  if outputRoot = kitRoot then .error (.validation "Refusing to write into the starter kit root" none)
  else if ¬isInside outputRoot (kitRoot ++ [generatedDirName]) then
    .error (.validation "Generated output must stay under generated/" none)
  else if ["backend", "frontend", "workers", "database", "modules"].any fun segment =>
      outputRoot = kitRoot ++ [codeUnits segment] || isInside outputRoot (kitRoot ++ [codeUnits segment]) then
    .error (.validation "Refusing to write into starter kit source trees" none)
  else .ok outputRoot

def resolveOutputFile (outputRoot : Path) (relativePath : Text) : Except WriterError Path :=
  let target := resolve outputRoot (relativePath.splitOn '/'.toNat)
  if ¬isInside target outputRoot ∧ target ≠ outputRoot then
    .error (.validation "Generated file escaped the output root" (some relativePath))
  else .ok target

/-! ## Files -/

inductive GeneratedFileRole where
  | core | capability | adapter | problem | config | test | docs | registration | «manifest»
  deriving DecidableEq, Repr

structure GeneratedFile where
  path : Text
  contents : Text
  role : GeneratedFileRole
  capability : Option Text := none
  deriving DecidableEq, Repr

structure ProjectGenerationResult where
  files : List GeneratedFile
  /-- `generation.manifest.json` in write mode. -/
  manifestText : Text
  contentDigest : Text
  configurationDigest : Text
  deriving DecidableEq, Repr

structure WriteGeneratedProjectOptions where
  kitRoot : Path
  outputRoot : Path
  overwrite : Option Bool := none
  dryRun : Option Bool := none
  deriving DecidableEq, Repr

inductive WriteStatus where
  | written | unchanged | preview
  deriving DecidableEq, Repr

structure WrittenFileRecord where
  path : Text
  role : GeneratedFileRole
  sha256 : Text
  bytes : ℕ
  status : WriteStatus
  capability : Option Text
  deriving DecidableEq, Repr

structure WriteGeneratedProjectResult where
  outputRoot : Path
  relativeRoot : Path
  dryRun : Bool
  files : List WrittenFileRecord
  contentDigest : Text
  configurationDigest : Text
  deriving DecidableEq, Repr

/-- What the writer takes from the platform. -/
structure WriterPlatform where
  localeCompare : Text → Text → Num
  sha256Hex : Text → Text
  byteLength : Text → ℕ

def WriterPlatform.toWritten (platform : WriterPlatform) (file : GeneratedFile) (status : WriteStatus) :
    WrittenFileRecord :=
  { path := file.path, role := file.role, sha256 := platform.sha256Hex file.contents,
    bytes := platform.byteLength file.contents, status, capability := file.capability }

def manifestPath : Text := codeUnits "generation.manifest.json"

def WriterPlatform.withWriteMode (platform : WriterPlatform) (result : ProjectGenerationResult) : List GeneratedFile :=
  sortBy (fun left right => platform.localeCompare left.path right.path)
    ((result.files.filter fun file => file.path ≠ manifestPath) ++
      [{ path := manifestPath, contents := result.manifestText, role := .«manifest» }])

/-! ## Writing -/

/-- The tree, and what the loop has listed so far. -/
structure Writing where
  tree : Files
  written : List WrittenFileRecord

def mkdir (dir : Path) : EStateM WriterError Writing PUnit := fun w =>
  match w.tree.mkdirs dir with
  | some tree => .ok PUnit.unit { w with tree }
  | none => .error .system w

def writeFile (target : Path) (contents : Text) : EStateM WriterError Writing PUnit := fun w =>
  match w.tree.writeFile target contents with
  | some tree => .ok PUnit.unit { w with tree }
  | none => .error .system w

def push (record : WrittenFileRecord) : EStateM WriterError Writing PUnit :=
  Program.write fun w => { w with written := w.written ++ [record] }

/-- The body of the loop. A file that cannot be read is written. -/
def writeGeneratedFile (platform : WriterPlatform) (overwrite : Option Bool) (outputRoot : Path)
    (file : GeneratedFile) :
    EStateM WriterError Writing PUnit := do
  let target ← lift (resolveOutputFile outputRoot file.path)
  mkdir target.dropLast
  let existing ← Program.read fun w => w.tree.file target
  if existing = some file.contents then
    push (platform.toWritten file .unchanged)
  else do
    throwIf (existing.isSome = true ∧ overwrite = some false)
      (.conflict "Refusing to overwrite an existing generated file" file.path)
    writeFile target file.contents
    push (platform.toWritten file .written)

def writeGeneratedProject (platform : WriterPlatform) (result : ProjectGenerationResult)
    (options : WriteGeneratedProjectOptions) : EStateM WriterError Writing WriteGeneratedProjectResult := do
  let outputRoot ← lift (assertOutputSandbox options.kitRoot options.outputRoot)
  let relativeRoot := relative options.kitRoot outputRoot
  if options.dryRun = some true then
    pure { outputRoot, relativeRoot, dryRun := true, files := result.files.map (platform.toWritten · .preview),
           contentDigest := result.contentDigest, configurationDigest := result.configurationDigest }
  else do
    mkdir outputRoot
    Program.write fun w => { w with written := [] }
    (platform.withWriteMode result).foldlM
      (fun (_ : PUnit) file => writeGeneratedFile platform options.overwrite outputRoot file) PUnit.unit
    let files ← Program.read (·.written)
    pure { outputRoot, relativeRoot, dryRun := false, files,
           contentDigest := result.contentDigest, configurationDigest := result.configurationDigest }

end DealFlow360.ProjectGenerator
