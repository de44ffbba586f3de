import DocBlocks.Fault
import DocBlocks.Selection

/-!
# File Patterns

What a selection wants below a root is looked for by a file pattern. The pieces of the root
stand for themselves in it, also those with characters that would stand for others. Behind them
there are stars: one for each directory on the way to the files and one for the files, or, if
any depth will do, two stars for any number of directories.

A pattern knows nothing of extensions. It may cover more than is wanted, and the files that it
leads to are put to the selection afterwards.
-/

namespace DocBlocks

/-- A file pattern. -/
structure Pattern where
  /-- The pieces of the root. An empty one at the start stands for the slash there. -/
  root : List Bytes
  /-- How many directories there are between the root and the files, if not any number. -/
  folders : Option Nat
  deriving DecidableEq, Repr

/-- Whether a pattern covers the file that names lead to below the root. -/
def Pattern.covers (pattern : Pattern) (names : List Bytes) : Bool :=
  pattern.folders.all fun folders => names.length == folders + 1

/-- The pieces of a root. A slash at the end starts no new piece. -/
def rootPieces (root : Path) : List Bytes :=
  if root.endsWithSlash then root.pieces.dropLast else root.pieces

/-- The pattern for what a selection wants below a root, which must be text. -/
def Selection.pattern (selection : Selection) (root : Path) : Except Fault Pattern :=
  if (Text.decode? root.spelling).isNone then .error (.walk root.text "root is not valid UTF-8")
  else .ok ⟨rootPieces root, selection.depth.map (· - 1)⟩

end DocBlocks
