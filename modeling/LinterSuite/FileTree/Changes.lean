import LinterSuite.FileTree.Basic

/-!
# Changes of a file tree

What has to be written and removed to make one file tree the files of another.

## Main definitions

* `Node.filesOf`: all files of some places
* `FileTree.writtenSince`, `FileTree.removedSince`: the changes from an earlier tree

## Main results

* `FileTree.removedSince_self`: nothing has to be removed from the same tree
-/

namespace LinterSuite

/-- The files in named places and below, with the names that lead to them. -/
def Node.filesOf (place : List String) : List (String × Node) → List (List String × FileData)
  | [] => []
  | (name, .file data) :: rest => (place ++ [name], data) :: filesOf place rest
  | (_, .link _) :: rest => filesOf place rest
  | (name, .dir _ es) :: rest => filesOf (place ++ [name]) es ++ filesOf place rest

namespace FileTree

/-- All files, with the names that lead to them. -/
def files (t : FileTree) : List (List String × FileData) := Node.filesOf [] t.root.entries

/-- The file that names lead to. -/
def fileAt? (t : FileTree) (place : List String) : Option FileData :=
  match t.root.get? place with
  | some (.file data) => some data
  | _ => none

/-- The files that an earlier tree does not have with the same content. -/
def writtenSince (t before : FileTree) : List (List String × FileData) :=
  t.files.filter fun f => (before.fileAt? f.1).map (·.content) != some f.2.content

/-- The places of files of an earlier tree where there is none any more. -/
def removedSince (t before : FileTree) : List (List String) :=
  (before.files.filter fun f => (t.root.get? f.1).isNone).map (·.1)

theorem removedSince_self {t : FileTree}
    (h : ∀ f ∈ t.files, t.root.get? f.1 = some (.file f.2)) : t.removedSince t = [] := by
  simp only [removedSince, List.map_eq_nil_iff, List.filter_eq_nil_iff]
  intro f hf
  simp [h f hf]

end FileTree

end LinterSuite
