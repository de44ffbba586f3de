import DocBlocks.Tree.Basic

/-!
# Trees with Refused Access

A guarded tree is a tree together with what is refused in it: to read some files, to write
some files, to come to one place of every listing, or to list at all. What is not refused is
left to the tree.
-/

namespace DocBlocks

/-- A tree in which some access is refused. -/
structure Guarded (σ : Type) where
  /-- The tree. -/
  tree : σ
  /-- The files that cannot be read. -/
  unreadable : List Path
  /-- The files that cannot be written. -/
  unwritable : List Path
  /-- The place of every listing that cannot be come to, counted from zero. -/
  barred : Option Nat
  /-- The fault that every listing ends in. -/
  noListing : Option Fault
  deriving Repr

namespace Guarded

variable {σ : Type}

/-- Bars one place of a listing. -/
def bar (place : Option Nat) (files : List (Except FileFault Path)) :
    List (Except FileFault Path) :=
  files.zipIdx.map fun (file, i) =>
    match file with
    | .ok path => if place = some i then .error (.io path .denied) else .ok path
    | .error fault => .error fault

instance [SourceTree σ] : SourceTree (Guarded σ) where
  files g selection :=
    match g.noListing with
    | some fault => .error fault
    | none => (SourceTree.files g.tree selection).map (bar g.barred)
  read g path :=
    if g.unreadable.any path.same then .error .denied else SourceTree.read g.tree path
  write g path s :=
    if g.unwritable.any path.same then .error .denied
    else (SourceTree.write g.tree path s).map fun tree => { g with tree }

end Guarded

end DocBlocks
