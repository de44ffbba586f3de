import DocBlocks.Fault
import DocBlocks.Selection

/-!
# Source Trees

A source tree is anything whose files can be listed, read and written. A tree is a value:
writing yields the tree after the write, and a write that fails leaves the tree as it was.

A listing has the wanted files in the order in which they are visited. In place of a file it
may have a fault, which is met when the visit comes to it.
-/

namespace DocBlocks

/-- The operations of a tree of source files. -/
class SourceTree (σ : Type) where
  /-- The wanted files, in the order of the visit. -/
  files : σ → Selection → Except Fault (List (Except FileFault Path))
  /-- The text of a file. -/
  read : σ → Path → Except IoCause Text
  /-- The tree after a text has been written to a file. -/
  write : σ → Path → Text → Except IoCause σ

end DocBlocks
