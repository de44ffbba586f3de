import DocBlocks.Declaration

/-!
# Finding a Doc Block

The doc block of a declaration ends on the line directly above it. From that line one goes
up to the nearest line that opens a doc block at the indentation of the declaration. If a
line on the way holds a closing marker, the comment that ends above the declaration was
opened in some other manner, and there is no doc block here; the search for the declaration
then goes on further down.

A file is searched from top to bottom with the lines already passed at hand, nearest first,
so that looking upwards is recursion on a list too.
-/

namespace DocBlocks

open Text

/-- The place of a doc block in a file: lines are counted from zero, `top` is its first
line and `decl` the line behind its last one, which is that of the declaration. -/
structure BlockSpan where
  top : Nat
  decl : Nat
  deriving DecidableEq, Repr

/-- The number of lines of a doc block. -/
def BlockSpan.length (span : BlockSpan) : Nat := span.decl - span.top

/-- A way to find the doc block of a declaration among the lines of a file. -/
abbrev Matcher := List Text → Declaration → Option BlockSpan

namespace Declaration

/-- Goes up through `above`, whose nearest line comes first, to a line that opens a block.
The answer is the number of lines above it; no line up to there may close a comment. -/
def openingAbove (d : Declaration) : List Text → Option Nat
  | [] => none
  | line :: above =>
    if contains Comment.closing line then none
    else if d.opensBlock line then some above.length
    else d.openingAbove above

/-- The first line of the doc block that ends with the first of the given lines, which are
those above the declaration, nearest first. -/
def blockTop (d : Declaration) : List Text → Option Nat
  | [] => none
  | last :: above =>
    if !closesBlock last then none
    else if d.opensBlock last then some above.length
    else d.openingAbove above

/-- Searches `lines` for the declaration, `above` being the lines before them, nearest
first. -/
def locateFrom (d : Declaration) (above : List Text) : List Text → Option BlockSpan
  | [] => none
  | line :: rest =>
    match if d.matchesLine line then d.blockTop above else none with
    | some top => some ⟨top, above.length⟩
    | none => d.locateFrom (line :: above) rest

end Declaration

/-- The doc block of the first place where the declaration has one directly above it. -/
def locate : Matcher := fun lines d => d.locateFrom [] lines

end DocBlocks
