import DocBlocks.Text.Utf8

/-!
# Paths

A path is kept as it is spelled, as bytes, and shown as it is spelled. What it means is the
list of its parts (`Path.parts`). The parts are the names between the slashes. Slashes next
to each other count as one, a slash at the end says nothing, and neither does a part `.`
unless the path starts with it. Two paths are compared by their parts alone, in the order in
which a directory listing has them: part by part, names byte by byte.

The name, the stem and the extension of a file are read off the last part.
-/

namespace DocBlocks

/-- A part of a path. -/
inductive Part where
  /-- The slash that an absolute path starts with. -/
  | root
  /-- A dot at the start. -/
  | here
  /-- Two dots. -/
  | parent
  /-- A name. -/
  | name (bytes : Bytes)
  deriving DecidableEq, Repr

namespace Part

/-- The order of parts of different kinds. -/
def rank : Part → Nat
  | root => 0
  | here => 1
  | parent => 2
  | name _ => 3

/-- The bytes of a name. -/
def bytes : Part → Bytes
  | name bytes => bytes
  | _ => []

/-- Parts are compared by their kind, and names by their bytes. -/
instance : Ord Part where
  compare := compareLex (compareOn rank) (compareOn bytes)

instance : Std.TransOrd Part :=
  inferInstanceAs (Std.TransCmp (compareLex (compareOn rank) (compareOn bytes)))

/-- The greatest number of bytes of a name. -/
def nameLimit : Nat := 255

/-- Whether a part is a name. -/
def isName : Part → Bool
  | name _ => true
  | _ => false

/-- What stands between two slashes, or behind the last one, as a part. -/
def inner? (piece : Bytes) : Option Part :=
  if piece = [] ∨ piece = [46] then none
  else if piece = [46, 46] then some parent
  else some (name piece)

/-- What stands between two slashes as a part of the way, which a dot is too. -/
def step? (piece : Bytes) : Option Part :=
  if piece.isEmpty then none
  else if piece = [46] then some here
  else if piece = [46, 46] then some parent
  else some (name piece)

/-- What stands before the first slash, as parts; `alone` says that there is no slash. -/
def leading (piece : Bytes) (alone : Bool) : List Part :=
  if piece = [] then if alone then [] else [root]
  else if piece = [46] then [here]
  else if piece = [46, 46] then [parent]
  else [name piece]

end Part

/-- A path as it is spelled. -/
structure Path where
  spelling : Bytes
  deriving DecidableEq, Repr

namespace Path

/-- The greatest number of bytes of a path that can be followed. -/
def limit : Nat := 4095

/-- Whether a path is short enough to be followed. -/
def fits (p : Path) : Bool := p.spelling.length ≤ limit

/-- The slash, the byte that separates the parts of a path. -/
def isSlash (b : UInt8) : Bool := b == 47

/-- The path that a text spells. -/
def ofText (s : Text) : Path := ⟨Text.utf8 s⟩

/-- A path as text, as it is shown. -/
def text (p : Path) : Text := Text.decodeLossy p.spelling

/-- A path as a string, as it is shown. -/
def toString (p : Path) : String := String.ofList p.text

/-- What stands before, between and behind the slashes of a path. -/
def pieces (p : Path) : List Bytes := DocBlocks.pieces isSlash p.spelling

/-- The parts of a path. -/
def parts (p : Path) : List Part :=
  match p.pieces with
  | [] => []
  | first :: rest => Part.leading first rest.isEmpty ++ rest.filterMap Part.inner?

/-- The parts of the way that a path describes. Unlike those that paths are compared by,
they include all dots. -/
def steps (p : Path) : List Part :=
  match p.pieces with
  | [] => []
  | first :: rest =>
    (if first.isEmpty then [.root] else (Part.step? first).toList) ++ rest.filterMap Part.step?

/-- Whether a path ends with a slash. -/
def endsWithSlash (p : Path) : Bool := p.spelling.getLast?.any isSlash

/-- Paths are compared by their parts. -/
instance : Ord Path where
  compare := compareOn parts

instance : Std.TransOrd Path := inferInstanceAs (Std.TransCmp (compareOn parts))

/-- Whether two paths have the same parts. -/
def same (p q : Path) : Bool := p.parts == q.parts

/-- A path with something behind it that is to be looked for there. -/
def join (p : Path) (piece : Bytes) : Path :=
  if p.spelling.isEmpty || p.spelling.getLast? == some 47 then ⟨p.spelling ++ piece⟩
  else ⟨p.spelling ++ 47 :: piece⟩

end Path

/-! ### File names -/

/-- The name of the file that parts lead to, if the last of them is a name. -/
def fileName? (parts : List Part) : Option Bytes :=
  match parts.getLast? with
  | some (.name bytes) => some bytes
  | _ => none

/-- What stands before and behind the last dot of a file name. A name that has no dot, or
none but the one it starts with, is all stem. -/
def splitExtension (name : Bytes) : Bytes × Option Bytes :=
  let behind := (name.reverse.takeWhile (· != 46)).reverse
  let before := name.take (name.length - behind.length - 1)
  if behind.length = name.length ∨ before = [] then (name, none) else (before, some behind)

/-- The extension of the file that parts lead to, if it has one that is text. -/
def extension? (parts : List Part) : Option Text := do
  Text.decode? (← (splitExtension (← fileName? parts)).2)

/-- The stem of the file that parts lead to, if it is text. -/
def stem? (parts : List Part) : Option Text := do
  Text.decode? (splitExtension (← fileName? parts)).1

/-- The symbol under which the definitions for a file are to be found: the stem of its
name. -/
def Path.symbol? (p : Path) : Option Text := stem? p.parts

end DocBlocks
