import UnusedDeps.Proofs.Files.Tree
import UnusedDeps.Proofs.Text.Shown
import UnusedDeps.Spool.Index

/-!
# Directories of spooled files

A wrapper leaves texts in a spool directory, under names of their own. A directory
in which certain texts stand holds one more after a file with a new name is
written to it, and its files are the ones that hold these texts. Main statements:
`Holds.write`, `Holds.readText` and `Holds.filesIn`.
-/

namespace UnusedDeps

namespace FileTree

/-- Whether a path leads to a directory in which nothing stands but files with the given names and
texts, the last one first. -/
structure Holds (t : FileTree) (dir : Path) (held : List (String × String)) : Prop where
  directory : t.lookup dir = .ok .directory
  names : t.children dir = held.map (·.1)
  files : ∀ f ∈ held, t.lookup (dir.child f.1) = .ok (.file (bytesOf f.2) false)
  sound : ∀ f ∈ held, (dir.child f.1).fault? = none
  shown : ∀ f ∈ held, Text.IsShown f.2

/-- The names and bytes of the files directly below a path. -/
def filesIn (t : FileTree) (dir : Path) : SpoolFiles :=
  (t.children dir).filterMap fun name =>
    match t.lookup (dir.child name) with
    | .ok (.file bytes _) => some (name, bytes)
    | _ => none

/-- Short names of printable ASCII characters are fit for files in a directory with such a path. -/
theorem takesFile_of_isShown {dir : Path} {name : String} (part : isPathPart name = true)
    (down : name ≠ "..") (shown : Text.IsShown name) (short : name.length ≤ maxPartBytes)
    (path : Text.IsShown (dir.child name).text)
    (reached : (dir.child name).text.length ≤ maxPathBytes) : TakesFile dir name where
  part := part
  down := down
  host := shown.hostName
  short := shown.byteCount.trans_le short
  sound := path.nameFault?
  reached := path.byteCount.trans_le reached

variable {t : FileTree} {dir : Path} {held : List (String × String)}

/-- A file with a new name can be written, and stands in the directory beside the others. -/
theorem Holds.write (h : t.Holds dir held) {name : String} (takes : TakesFile dir name)
    (fresh : name ∉ held.map (·.1)) {s : String} (shown : Text.IsShown s) :
    ∃ t', t.write (dir.child name) (bytesOf s) = .ok t' ∧
      t'.Holds dir ((name, s) :: held) := by
  obtain ⟨place, located, here⟩ := lookup_eq_ok.1 h.directory
  rw [← h.names] at fresh
  have missing := node?_child_of_notMem located takes.host takes.down fresh
  have up : (place.child name).parts.all (· = "..") = false :=
    all_up_child (by rw [takes.host]; exact takes.down)
  refine ⟨_, write_child located here takes fresh _, ?_, ?_, ?_, ?_, ?_⟩
  · exact lookup_put missing h.directory
  · rw [children_put located takes.host takes.down fresh, h.names, List.map_cons]
  · rw [List.forall_mem_cons]
    exact ⟨lookup_child (locate_put missing located) (node?_put_of_some missing here) takes
      (node?_put_self up), fun f hf => lookup_put missing (h.files f hf)⟩
  · exact List.forall_mem_cons.2 ⟨takes.sound, h.sound⟩
  · exact List.forall_mem_cons.2 ⟨shown, h.shown⟩

theorem Holds.readText (h : t.Holds dir held) {f : String × String} (hf : f ∈ held) :
    t.readText (dir.child f.1) = .ok f.2 := by
  have shown := h.shown f hf
  rw [FileTree.readText, h.sound f hf, h.files f hf]
  simp only [shown.textOf?]

theorem Holds.read (h : t.Holds dir held) {f : String × String} (hf : f ∈ held) :
    t.read (dir.child f.1) = .ok f.2 := by
  rw [FileTree.read, h.readText hf]

theorem Holds.isFile (h : t.Holds dir held) {f : String × String} (hf : f ∈ held) :
    t.isFile (dir.child f.1) = .ok true := by
  rw [FileTree.isFile, h.sound f hf, h.files f hf]
  rfl

/-- The files of the directory are the ones that hold its texts. -/
theorem Holds.filesIn (h : t.Holds dir held) : t.filesIn dir = SpoolFiles.ofTexts held := by
  have each : ∀ f ∈ held, (match t.lookup (dir.child f.1) with
      | .ok (.file bytes _) => some (f.1, bytes)
      | _ => none) = some (f.1, bytesOf f.2) := fun f hf => by
    rw [h.files f hf]
  rw [FileTree.filesIn, h.names, List.filterMap_map, Function.comp_def,
    List.filterMap_congr each, SpoolFiles.ofTexts, ← List.filterMap_eq_map]
  rfl

end FileTree

end UnusedDeps
