import Mathlib.Data.List.Induction
import Mathlib.Data.List.Infix
import Mathlib.Logic.Function.Basic

/-!
# File trees

A tree of files and directories by their paths, where what exists lies in a
directory. Making a directory with its parents leaves the files alone, and does
nothing where the directory exists; writing a file changes that file only.

A tree is a map from paths to what is there, with the law that everything but
the root lies in a directory. The two operations can fail, on a file where a
directory is needed and on a directory where a file is to be written, and each
has a lemma that says what it changes (`directory_of_writeFile`,
`directory_of_isPrefix`). Contents are any type, and so are the segments of a
path.
-/

namespace FileTree

inductive Node (β : Type*) where
  | file (contents : β)
  | directory

end FileTree

structure FileTree (α β : Type*) where
  node : List α → Option (FileTree.Node β)
  root : node [] = some .directory
  closed : ∀ path name, node (path ++ [name]) ≠ none → node path = some .directory

namespace FileTree

variable {α β : Type*}

/-- The contents of the file at a path, if there is one. -/
def file (tree : FileTree α β) (path : List α) : Option β :=
  match tree.node path with
  | some (.file contents) => some contents
  | _ => none

def isDirectory (tree : FileTree α β) (path : List α) : Bool :=
  match tree.node path with
  | some .directory => true
  | _ => false

theorem isDirectory_iff {tree : FileTree α β} {path : List α} :
    tree.isDirectory path = true ↔ tree.node path = some .directory := by
  unfold isDirectory
  rcases tree.node path with _ | _ | _
  · exact ⟨nofun, nofun⟩
  · exact ⟨nofun, nofun⟩
  · exact ⟨fun _ => rfl, fun _ => rfl⟩

theorem file_of_directory {tree : FileTree α β} {path : List α} (h : tree.node path = some .directory) :
    tree.file path = none := by
  unfold file
  rw [h]

/-- The directories on the way to what exists. -/
theorem directory_of_isPrefix {tree : FileTree α β} {dir : List α} (h : tree.node dir = some .directory) {path : List α}
    (hpath : path <+: dir) : tree.node path = some .directory := by
  induction dir using List.reverseRecOn with
  | nil => rwa [List.prefix_nil.mp hpath]
  | append_singleton dir name ih =>
      rcases List.prefix_concat_iff.mp hpath with rfl | hpath
      · exact h
      · exact ih (tree.closed dir name (by rw [h]; exact Option.some_ne_none _)) hpath

theorem directory_dropLast {tree : FileTree α β} {path : List α} (h : tree.node path ≠ none) :
    tree.node path.dropLast = some .directory := by
  rcases List.eq_nil_or_concat path with rfl | ⟨dir, name, rfl⟩
  · exact tree.root
  · rw [List.concat_eq_append] at h ⊢
    rw [List.dropLast_concat]
    exact tree.closed dir name h

/-! ## Directories -/

section Directories

variable [DecidableEq α]

/-- Make a directory and its parents, unless a file is in the way. -/
def mkdirs (tree : FileTree α β) (dir : List α) : Option (FileTree α β) :=
  if dir.inits.all fun path => (tree.file path).isNone then
    some
      { node := fun path => if path <+: dir then some .directory else tree.node path
        root := if_pos List.nil_prefix
        closed := by
          intro path name h
          by_cases hpath : path <+: dir
          · exact if_pos hpath
          · have hlong : ¬path ++ [name] <+: dir := fun hlong => hpath ((List.prefix_append _ _).trans hlong)
            rw [if_neg hlong] at h
            rw [if_neg hpath]
            exact tree.closed path name h }
  else none

theorem mkdirs_eq_some {tree made : FileTree α β} {dir : List α} (h : tree.mkdirs dir = some made) :
    (∀ path, path <+: dir → tree.file path = none) ∧
      ∀ path, made.node path = if path <+: dir then some .directory else tree.node path := by
  unfold mkdirs at h
  split_ifs at h with hfree
  refine ⟨fun path hpath => ?_, fun path => by rw [← Option.some.inj h]⟩
  have hmem := List.all_eq_true.mp hfree path ((List.mem_inits path dir).mpr hpath)
  exact Option.isNone_iff_eq_none.mp hmem

theorem file_mkdirs {tree made : FileTree α β} {dir : List α} (h : tree.mkdirs dir = some made) (path : List α) :
    made.file path = tree.file path := by
  obtain ⟨hfree, hnode⟩ := mkdirs_eq_some h
  by_cases hpath : path <+: dir
  · rw [file_of_directory ((hnode path).trans (if_pos hpath)), hfree path hpath]
  · unfold file
    rw [hnode, if_neg hpath]

theorem directory_mkdirs {tree made : FileTree α β} {dir : List α} (h : tree.mkdirs dir = some made) :
    made.node dir = some .directory :=
  ((mkdirs_eq_some h).2 dir).trans (if_pos List.prefix_rfl)

theorem mkdirs_of_directory {tree : FileTree α β} {dir : List α} (h : tree.node dir = some .directory) :
    tree.mkdirs dir = some tree := by
  have hfree : (dir.inits.all fun path => (tree.file path).isNone) = true := by
    rw [List.all_eq_true]
    intro path hpath
    rw [file_of_directory (directory_of_isPrefix h ((List.mem_inits path dir).mp hpath))]
    rfl
  have hnode : (fun path => if path <+: dir then some .directory else tree.node path) = tree.node := by
    funext path
    split_ifs with hpath
    · exact (directory_of_isPrefix h hpath).symm
    · rfl
  unfold mkdirs
  rw [if_pos hfree]
  cases tree
  simp only [Option.some.injEq, mk.injEq]
  exact hnode

/-! ## Files -/

/-- Write a file in a directory that exists. -/
def writeFile (tree : FileTree α β) (path : List α) (contents : β) : Option (FileTree α β) :=
  if h : path ≠ [] ∧ tree.isDirectory path.dropLast = true ∧ tree.isDirectory path = false then
    some
      { node := Function.update tree.node path (some (.file contents))
        root := (Function.update_of_ne h.1.symm _ _).trans tree.root
        closed := by
          intro dir name hchild
          by_cases hdir : dir = path
          · have hold : tree.node (dir ++ [name]) ≠ none := by
              rwa [Function.update_of_ne (fun heq => by simpa [hdir] using congrArg List.length heq)] at hchild
            rw [hdir] at hold
            exact absurd (isDirectory_iff.mpr (tree.closed path name hold)) (by rw [h.2.2]; exact Bool.false_ne_true)
          · rw [Function.update_of_ne hdir]
            by_cases hpath : dir ++ [name] = path
            · have hparent := isDirectory_iff.mp h.2.1
              rwa [← hpath, List.dropLast_concat] at hparent
            · rw [Function.update_of_ne hpath] at hchild
              exact tree.closed dir name hchild }
  else none

theorem file_writeFile {tree written : FileTree α β} {path : List α} {contents : β}
    (h : tree.writeFile path contents = some written) :
    written.file = Function.update tree.file path (some contents) := by
  unfold writeFile at h
  split_ifs at h
  obtain rfl := Option.some.inj h
  funext other
  by_cases hother : other = path
  · rw [hother, Function.update_self]
    unfold file
    dsimp only
    rw [Function.update_self]
  · rw [Function.update_of_ne hother]
    unfold file
    dsimp only
    rw [Function.update_of_ne hother]

/-- Writing into a directory that exists fails on a directory only. -/
theorem directory_of_writeFile {tree : FileTree α β} {path : List α} {contents : β}
    (h : tree.writeFile path contents = none) (hparent : tree.node path.dropLast = some .directory) :
    tree.node path = some .directory := by
  by_contra hnot
  unfold writeFile at h
  rw [dif_pos] at h
  · cases h
  · refine ⟨fun hnil => hnot (hnil ▸ tree.root), isDirectory_iff.mpr hparent, ?_⟩
    rw [Bool.eq_false_iff, ne_eq, isDirectory_iff]
    exact hnot

end Directories

end FileTree
