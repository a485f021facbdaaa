import DealFlow360.Lib.Loops
import DealFlow360.ProjectGenerator.Writer

/-!
# Refused writes of a generated project

Without `overwrite` a file is refused where another is in its place, where its
path leaves the output folder and where a directory or a file is in the way.
Each file is checked and written before the next one is looked at, so what was
created before a refusal stays.

`writeGeneratedFile_run` is the step: a file is placed, or the loop stops and
leaves the tree as it is. The fold of the placed files is described by
`file_wrote`, and `wrote_same_iff` says when it left the folder alone.
`leavesFolder_iff` is the whole run: a refused project leaves its folder as it
was exactly if every file before the refused one was in place already;
`created_before_conflict` creates one file before it meets a conflict.
-/

namespace DealFlow360.ProjectGenerator

open Paths Program

/-! ## Paths in the output folder -/

theorem isPrefix_of_resolveOutputFile {outputRoot target : Path} {path : Events.Text}
    (h : resolveOutputFile outputRoot path = .ok target) : outputRoot <+: target := by
  unfold resolveOutputFile at h
  dsimp only at h
  split_ifs at h with hescaped
  obtain rfl := Except.ok.inj h
  rcases not_and_or.mp hescaped with hinside | hroot
  · exact isPrefix_of_isInside (not_not.mp hinside)
  · rw [not_not.mp hroot]

/-! ## One file -/

/-- The file is where it belongs, with its contents. -/
def InPlace (outputRoot : Path) (tree : Files) (file : GeneratedFile) : Prop :=
  ∃ target, resolveOutputFile outputRoot file.path = .ok target ∧ tree.file target = some file.contents

/-- The tree after a file is written without `overwrite`, if nothing refuses it. -/
def placed (outputRoot : Path) (tree : Files) (file : GeneratedFile) : Option (Files × WriteStatus) :=
  match resolveOutputFile outputRoot file.path with
  | .error _ => none
  | .ok target =>
      match tree.file target with
      | some existing => if existing = file.contents then some (tree, .unchanged) else none
      | none => do
          let made ← tree.mkdirs target.dropLast
          return (← made.writeFile target file.contents, .written)

/-- A file that goes through is in place, or it is created. -/
theorem placed_cases {outputRoot : Path} {tree tree' : Files} {file : GeneratedFile} {status : WriteStatus}
    (h : placed outputRoot tree file = some (tree', status)) :
    (InPlace outputRoot tree file ∧ tree' = tree) ∨
      (¬InPlace outputRoot tree file ∧ ∃ target, outputRoot <+: target ∧ tree.file target = none ∧
        tree'.file = Function.update tree.file target (some file.contents)) := by
  unfold placed at h
  cases hresolve : resolveOutputFile outputRoot file.path with
  | error error =>
      rw [hresolve] at h
      cases h
  | ok target =>
      rw [hresolve] at h
      dsimp only at h
      cases hfile : tree.file target with
      | some existing =>
          rw [hfile] at h
          dsimp only at h
          split_ifs at h with hsame
          obtain ⟨rfl, rfl⟩ := Prod.mk.inj (Option.some.inj h)
          exact .inl ⟨⟨target, hresolve, hsame ▸ hfile⟩, rfl⟩
      | none =>
          rw [hfile] at h
          obtain ⟨made, hmade, h⟩ := Option.bind_eq_some_iff.mp h
          obtain ⟨written, hwritten, h⟩ := Option.bind_eq_some_iff.mp h
          obtain ⟨rfl, rfl⟩ := Prod.mk.inj (Option.some.inj h)
          refine .inr ⟨?_, target, isPrefix_of_resolveOutputFile hresolve, hfile, ?_⟩
          · rintro ⟨target', hresolve', hplace⟩
            obtain rfl := Except.ok.inj (hresolve.symm.trans hresolve')
            rw [hfile] at hplace
            cases hplace
          · rw [FileTree.file_writeFile hwritten, funext (FileTree.file_mkdirs hmade)]

/-- What the loop does with a file: it places it, or it stops and leaves the tree as it is. -/
theorem writeGeneratedFile_run (platform : WriterPlatform) (outputRoot : Path) (file : GeneratedFile) (w : Writing) :
    match placed outputRoot w.tree file with
    | some (tree, status) => writeGeneratedFile platform (some false) outputRoot file w
        = .ok PUnit.unit { tree, written := w.written ++ [platform.toWritten file status] }
    | none => ∃ error, writeGeneratedFile platform (some false) outputRoot file w = .error error w := by
  have hmkdir {dir : Path} {made : Files} (h : w.tree.mkdirs dir = some made) :
      mkdir dir w = .ok PUnit.unit { w with tree := made } := by
    unfold mkdir
    rw [h]
  unfold writeGeneratedFile placed
  cases hresolve : resolveOutputFile outputRoot file.path with
  | error error => exact ⟨error, rfl⟩
  | ok target =>
      dsimp only
      rw [lift_bind rfl]
      cases hfile : w.tree.file target with
      | some existing =>
          -- what exists lies in a directory, so that none is made
          have hnode : w.tree.node target ≠ none := by
            intro hnone
            unfold FileTree.file at hfile
            rw [hnone] at hfile
            cases hfile
          rw [bind_of_ok (hmkdir (FileTree.mkdirs_of_directory (FileTree.directory_dropLast hnode))), read_bind]
          dsimp only
          rw [hfile]
          by_cases hsame : existing = file.contents
          · rw [if_pos hsame, if_pos (congrArg some hsame)]
            rfl
          · rw [if_neg hsame, if_neg fun heq => hsame (Option.some.inj heq), throwIf_bind, if_pos ⟨rfl, rfl⟩]
            exact ⟨_, rfl⟩
      | none =>
          dsimp only
          cases hmade : w.tree.mkdirs target.dropLast with
          | none =>
              have hfails : mkdir target.dropLast w = .error .system w := by
                unfold mkdir
                rw [hmade]
              rw [bind_of_error hfails]
              exact ⟨_, rfl⟩
          | some made =>
              rw [bind_of_ok (hmkdir hmade), read_bind]
              dsimp only
              rw [FileTree.file_mkdirs hmade, hfile, if_neg nofun, throwIf_bind, if_neg (by simp)]
              cases hwritten : made.writeFile target file.contents with
              | some written =>
                  have hwrites : writeFile target file.contents { w with tree := made }
                      = .ok PUnit.unit { w with tree := written } := by
                    unfold writeFile
                    dsimp only
                    rw [hwritten]
                  rw [bind_of_ok hwrites, Option.bind_eq_bind, Option.bind_some, hwritten]
                  rfl
              | none =>
                  -- a directory in the place of the file: its parents are there already
                  have hdirectory := FileTree.directory_of_writeFile hwritten (FileTree.directory_mkdirs hmade)
                  have hsame : made = w.tree := by
                    have hnode : w.tree.node target ≠ none ∨ target = [] := by
                      by_cases hnil : target = []
                      · exact .inr hnil
                      · refine .inl fun hnone => ?_
                        have hshort : ¬target <+: target.dropLast := fun hle => by
                          have hlength := hle.length_le
                          rw [List.length_dropLast] at hlength
                          have hpos := List.length_pos_of_ne_nil hnil
                          omega
                        rw [(FileTree.mkdirs_eq_some hmade).2, if_neg hshort, hnone] at hdirectory
                        cases hdirectory
                    have hparent : w.tree.node target.dropLast = some .directory := by
                      rcases hnode with hnode | rfl
                      · exact FileTree.directory_dropLast hnode
                      · exact w.tree.root
                    rw [FileTree.mkdirs_of_directory hparent] at hmade
                    exact (Option.some.inj hmade).symm
                  have hwrites : writeFile target file.contents { w with tree := made }
                      = .error .system { w with tree := made } := by
                    unfold writeFile
                    dsimp only
                    rw [hwritten]
                  rw [bind_of_error hwrites, Option.bind_eq_bind, Option.bind_some, hwritten, hsame]
                  exact ⟨_, rfl⟩

/-! ## The loop -/

section Loop

variable (platform : WriterPlatform) (outputRoot : Path)

def accepts (w : Writing) (file : GeneratedFile) : Bool := (placed outputRoot w.tree file).isSome

def place (file : GeneratedFile) (w : Writing) : Writing :=
  match placed outputRoot w.tree file with
  | some (tree, status) => { tree, written := w.written ++ [platform.toWritten file status] }
  | none => w

/-- The files before the first that is refused. -/
def passed (files : List GeneratedFile) (w : Writing) : List GeneratedFile :=
  Loops.taken (accepts outputRoot) (place platform outputRoot) files w

theorem guarded_writeGeneratedFile : Loops.Guarded (fun _ => True)
    (writeGeneratedFile platform (some false) outputRoot) (accepts outputRoot) (place platform outputRoot) where
  accepted := by
    intro file w _ h
    have hrun := writeGeneratedFile_run platform outputRoot file w
    obtain ⟨⟨tree, status⟩, hplaced⟩ := Option.isSome_iff_exists.mp h
    unfold place
    rw [hplaced] at hrun ⊢
    exact hrun
  refused := by
    intro file w _ h
    have hrun := writeGeneratedFile_run platform outputRoot file w
    rwa [Option.isSome_eq_false_iff.mp h |> Option.isNone_iff_eq_none.mp] at hrun
  keeps := fun _ _ => trivial

variable {platform outputRoot}

theorem place_cases {file : GeneratedFile} {w : Writing} (h : accepts outputRoot w file = true) :
    (InPlace outputRoot w.tree file ∧ (place platform outputRoot file w).tree = w.tree) ∨
      (¬InPlace outputRoot w.tree file ∧ ∃ target, outputRoot <+: target ∧ w.tree.file target = none ∧
        (place platform outputRoot file w).tree.file = Function.update w.tree.file target (some file.contents)) := by
  obtain ⟨⟨tree, status⟩, hplaced⟩ := Option.isSome_iff_exists.mp h
  have hplace : (place platform outputRoot file w).tree = tree := by
    unfold place
    rw [hplaced]
  rw [hplace]
  exact placed_cases hplaced

/-- A file that exists stays as it is. -/
theorem file_wrote {files : List GeneratedFile} {w : Writing} {path : Path} {contents : Events.Text}
    (h : w.tree.file path = some contents) :
    (Loops.wrote (place platform outputRoot) (passed platform outputRoot files w) w).tree.file path =
      some contents := by
  unfold passed
  induction files generalizing w with
  | nil => exact h
  | cons file files ih =>
      cases haccepts : accepts outputRoot w file with
      | false =>
          rw [Loops.taken_of_refused files haccepts]
          exact h
      | true =>
          rw [Loops.taken_of_accepted files haccepts]
          refine ih ?_
          rcases @place_cases platform _ _ _ haccepts with ⟨-, hsame⟩ | ⟨-, target, -, hfree, hfile⟩
          · rw [hsame]
            exact h
          · have hne : path ≠ target := fun heq => by
              rw [heq, hfree] at h
              cases h
            rw [hfile, Function.update_of_ne hne]
            exact h

/-- The files that went through left the folder alone exactly if each was in place. -/
theorem wrote_same_iff (files : List GeneratedFile) (w : Writing) :
    (∀ path, outputRoot <+: path →
        (Loops.wrote (place platform outputRoot) (passed platform outputRoot files w) w).tree.file path =
          w.tree.file path) ↔
      ∀ file ∈ passed platform outputRoot files w, InPlace outputRoot w.tree file := by
  induction files generalizing w with
  | nil => exact ⟨fun _ _ hfile => absurd hfile List.not_mem_nil, fun _ _ _ => rfl⟩
  | cons file files ih =>
      cases haccepts : accepts outputRoot w file with
      | false =>
          have hnone : passed platform outputRoot (file :: files) w = [] := Loops.taken_of_refused files haccepts
          rw [hnone]
          exact ⟨fun _ _ hfile => absurd hfile List.not_mem_nil, fun _ _ _ => rfl⟩
      | true =>
          have hcons : passed platform outputRoot (file :: files) w =
              file :: passed platform outputRoot files (place platform outputRoot file w) :=
            Loops.taken_of_accepted files haccepts
          rw [hcons, List.forall_mem_cons]
          show (∀ path, outputRoot <+: path → (Loops.wrote _ (passed platform outputRoot files
            (place platform outputRoot file w)) (place platform outputRoot file w)).tree.file path = _) ↔ _
          rcases @place_cases platform _ _ _ haccepts with ⟨hplace, hsame⟩ | ⟨hplace, target, htarget, hfree, hfile⟩
          · have hrest := ih (place platform outputRoot file w)
            rw [hsame] at hrest
            rw [hrest]
            exact (and_iff_right hplace).symm
          · refine iff_of_false (fun h => ?_) fun h => hplace h.1
            have hcreated : (place platform outputRoot file w).tree.file target = some file.contents := by
              rw [hfile, Function.update_self]
            have hkept := @file_wrote platform outputRoot files _ _ _ hcreated
            rw [h target htarget, hfree] at hkept
            cases hkept

end Loop

/-! ## The whole project -/

/-- A call that throws has left every file in the output folder as it was. -/
def LeavesFolder (platform : WriterPlatform) (result : ProjectGenerationResult) (options : WriteGeneratedProjectOptions)
    (w : Writing) : Prop :=
  match writeGeneratedProject platform result options w with
  | .error _ w' => ∀ path, options.outputRoot <+: path → w'.tree.file path = w.tree.file path
  | .ok _ _ => True

/--
A refused write leaves the output folder alone exactly if the files before the first that is refused were in place
before.
-/
theorem leavesFolder_iff (platform : WriterPlatform) (result : ProjectGenerationResult)
    (options : WriteGeneratedProjectOptions) (w : Writing) :
    LeavesFolder platform result { options with overwrite := some false } w ↔
      ((assertOutputSandbox options.kitRoot options.outputRoot).isOk = true → options.dryRun ≠ some true →
        ∀ made, w.tree.mkdirs options.outputRoot = some made →
          passed platform options.outputRoot (platform.withWriteMode result) { tree := made, written := [] } ≠
              platform.withWriteMode result →
            ∀ file ∈ passed platform options.outputRoot (platform.withWriteMode result) { tree := made, written := [] },
              InPlace options.outputRoot w.tree file) := by
  unfold LeavesFolder writeGeneratedProject
  dsimp only
  cases hsandbox : assertOutputSandbox options.kitRoot options.outputRoot with
  | error error => exact ⟨fun _ h => absurd h Bool.false_ne_true, fun _ _ _ => rfl⟩
  | ok outputRoot =>
      obtain rfl : options.outputRoot = outputRoot := by
        unfold assertOutputSandbox at hsandbox
        split_ifs at hsandbox
        exact Except.ok.inj hsandbox
      rw [lift_bind rfl]
      by_cases hdry : options.dryRun = some true
      · rw [if_pos hdry]
        exact ⟨fun _ _ h => absurd hdry h, fun _ => trivial⟩
      · rw [if_neg hdry]
        cases hmade : w.tree.mkdirs options.outputRoot with
        | none =>
            have hfails : mkdir options.outputRoot w = .error .system w := by
              unfold mkdir
              rw [hmade]
            rw [bind_of_error hfails]
            exact ⟨fun _ _ _ _ h => absurd h (by simp), fun _ _ _ => rfl⟩
        | some made =>
            have hmkdir : mkdir options.outputRoot w = .ok PUnit.unit { w with tree := made } := by
              unfold mkdir
              rw [hmade]
            have hsame (file : GeneratedFile) :
                InPlace options.outputRoot made file ↔ InPlace options.outputRoot w.tree file := by
              unfold InPlace
              simp only [FileTree.file_mkdirs hmade]
            have hwrite : (Program.write fun w : Writing => { w with written := [] } : EStateM WriterError
                Writing PUnit)
                { w with tree := made } = .ok PUnit.unit { tree := made, written := [] } := rfl
            have hfiles := @wrote_same_iff platform options.outputRoot
              (platform.withWriteMode result) { tree := made, written := [] }
            simp only [FileTree.file_mkdirs hmade, hsame] at hfiles
            rw [bind_of_ok hmkdir, bind_of_ok hwrite]
            rcases (guarded_writeGeneratedFile platform options.outputRoot).run (platform.withWriteMode result)
              { tree := made, written := [] } trivial with ⟨hall, hrun⟩ | ⟨hrest, error, hrun⟩
            · unfold Loops.loop at hrun
              rw [bind_of_ok hrun]
              refine ⟨fun _ _ _ made' hmade' hrest => ?_, fun _ => trivial⟩
              obtain rfl := Option.some.inj hmade'
              exact absurd hall hrest
            · unfold Loops.loop at hrun
              rw [bind_of_error hrun]
              refine hfiles.trans ⟨fun h _ _ made' hmade' _ => ?_, fun h => h rfl hdry made rfl hrest⟩
              obtain rfl := Option.some.inj hmade'
              exact h

theorem not_leavesFolder {platform : WriterPlatform} {result : ProjectGenerationResult}
    {options : WriteGeneratedProjectOptions} {w : Writing}
    (hthrows : (answer (writeGeneratedProject platform result options) w).isOk = false) {path : Path}
    (hpath : options.outputRoot <+: path)
    (hchanged : (after (writeGeneratedProject platform result options) w).tree.file path ≠ w.tree.file path) :
    ¬LeavesFolder platform result options w := by
  intro h
  unfold LeavesFolder at h
  unfold answer at hthrows
  unfold after at hchanged
  cases hrun : writeGeneratedProject platform result options w with
  | ok written w' =>
      rw [hrun] at hthrows
      cases hthrows
  | error error w' =>
      rw [hrun] at h hchanged
      exact hchanged (h path hpath)

/-! ## A refusal after a creation -/

def demoRoot : Path := [codeUnits "kit", generatedDirName, codeUnits "demo"]

/-- A folder with one file in it. -/
def oneFile (name contents : Events.Text) : Files where
  node path := if path <+: demoRoot then some .directory else if path = demoRoot ++ [name] then
    some (.file contents) else none
  root := if_pos List.nil_prefix
  closed := by
    intro path name' h
    refine if_pos ?_
    split_ifs at h with hdir hfile
    · exact (List.prefix_append _ _).trans hdir
    · rw [(List.append_inj' hfile rfl).1]
    · exact absurd rfl h

def demoPlatform : WriterPlatform where
  localeCompare left right := if left < right then -1 else if left = right then 0 else 1
  sha256Hex := id
  byteLength := List.length

def demoResult : ProjectGenerationResult where
  files := [{ path := codeUnits "alpha.txt", contents := codeUnits "a", role := .docs },
    { path := codeUnits "beta.txt", contents := codeUnits "b", role := .docs }]
  manifestText := []
  contentDigest := []
  configurationDigest := []

def demoOptions : WriteGeneratedProjectOptions where
  kitRoot := [codeUnits "kit"]
  outputRoot := demoRoot
  overwrite := some false

def demoWriting : Writing where
  tree := oneFile (codeUnits "beta.txt") (codeUnits "c")
  written := []

def alphaPath : Path := demoRoot ++ [codeUnits "alpha.txt"]

/-- A new file stays when the file after it is refused. -/
theorem created_before_conflict : ¬LeavesFolder demoPlatform demoResult demoOptions demoWriting :=
  @not_leavesFolder demoPlatform demoResult demoOptions demoWriting (by decide +kernel) alphaPath (by decide +kernel)
    (by decide +kernel)

end DealFlow360.ProjectGenerator
