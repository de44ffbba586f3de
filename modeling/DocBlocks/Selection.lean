import DocBlocks.Path

/-!
# Selecting Files

A selection names the extensions of the files that are wanted, and possibly how many names
deep below the root they must lie. Only names count for the depth, so that a dot at the
start of a path makes no difference.
-/

namespace DocBlocks

/-- Which files below a root are wanted. -/
structure Selection where
  /-- How deep the files must lie; any depth will do if there is none. -/
  depth : Option Nat
  /-- The extensions, without a dot before them. -/
  extensions : List Text
  deriving DecidableEq, Repr

namespace Selection

/-- An extension without the dots before it. -/
def bareExtension (extension : Text) : Text := extension.dropWhile (· == '.')

/-- The files with one of the given extensions, at any depth. -/
def anywhere (extensions : List Text) : Selection := ⟨none, extensions.map bareExtension⟩

/-- The files with one of the given extensions that lie as deep as given. -/
def atDepth (depth : Nat) (extensions : List Text) : Selection :=
  ⟨some depth, extensions.map bareExtension⟩

/-- Whether the file that parts lead to is wanted. -/
def acceptsParts (selection : Selection) (parts : List Part) : Bool :=
  (extension? parts).any selection.extensions.contains &&
    selection.depth.all (· == parts.countP Part.isName)

/-- Whether the file at a path is wanted. -/
def accepts (selection : Selection) (p : Path) : Bool := selection.acceptsParts p.parts

end Selection

end DocBlocks
