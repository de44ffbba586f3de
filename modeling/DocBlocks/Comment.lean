import DocBlocks.Text.Basic

/-!
# Comment Markers

The two markers that matter in a source file: the one that opens a documenting comment and
the one that closes any block comment. Every rule of this library that speaks of opening
and closing means these.
-/

namespace DocBlocks.Comment

/-- Opens a documenting comment. -/
def opening : Text := ['/', '*', '*']

/-- Closes a block comment. -/
def closing : Text := ['*', '/']

end DocBlocks.Comment
