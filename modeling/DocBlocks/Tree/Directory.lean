import DocBlocks.Tree.Basic
import DocBlocks.Tree.Walk

/-!
# Trees in a Directory

A directory tree is a site together with a root in it. The root matters to listings only; paths
that are read and written start where the site has them start, not at the root. A root that is
no text cannot be walked.
-/

namespace DocBlocks

/-- A source tree that lies in a directory. -/
structure DirectoryTree where
  /-- All that there is, with the directory in which the program is started. -/
  top : Site
  /-- Where in it the source files lie. -/
  root : Path
  deriving DecidableEq, Repr

namespace DirectoryTree

instance : SourceTree DirectoryTree where
  files tree selection := do
    let pattern ← selection.pattern tree.root
    return (walk tree.top pattern).filter (selection.keeps tree.root)
  read tree path := tree.top.readText path
  write tree path s := do
    let top ← tree.top.writeFile path (Text.utf8 s)
    return { tree with top }

/-- The definition table in the file at a path. -/
def loadTable (top : Site) (path : Path) : Except Fault Table := do
  let s ← (top.readText path).mapError (.definitionsUnread path)
  Table.ofFile path s

end DirectoryTree

end DocBlocks
