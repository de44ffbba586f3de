import DocBlocks.Keyed
import DocBlocks.Tree.Basic

/-!
# Trees in Memory

A tree in memory holds texts by path and a record of the paths written, in order. Its files
are listed in the order of their paths. Which file a path means depends on its parts alone,
and a file keeps the spelling under which it came in.
-/

namespace DocBlocks

/-- A source tree that is held in memory. -/
structure MemoryTree where
  /-- The texts, by path. -/
  texts : Keyed Path Text
  /-- The paths that have been written, in order. -/
  writes : List Path
  deriving DecidableEq, Repr

namespace MemoryTree

/-- The tree without files. -/
def empty : MemoryTree := ⟨.empty, []⟩

/-- A tree with one file more, which does not count as written. -/
def withFile (tree : MemoryTree) (path : Path) (s : Text) : MemoryTree :=
  { tree with texts := tree.texts.insert path s }

/-- The text of a file, if the tree has it. -/
def get? (tree : MemoryTree) (path : Path) : Option Text := tree.texts.get? path

instance : SourceTree MemoryTree where
  files tree selection :=
    .ok ((tree.texts.keys.filter selection.accepts).map .ok)
  read tree path :=
    match tree.get? path with
    | some s => .ok s
    | none => .error .unknown
  write tree path s := .ok ⟨tree.texts.insert path s, tree.writes ++ [path]⟩

end MemoryTree

end DocBlocks
