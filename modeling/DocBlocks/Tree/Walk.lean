import DocBlocks.Tree.Pattern
import DocBlocks.Tree.Site

/-!
# Walking a Directory

A walk lists what a file pattern leads to below a root, a directory's files at the place of its
name among its siblings. The paths it yields start with the root as it is spelled, except that
dots at the start are dropped, so that the root `.` adds nothing to the names below it, and
that slashes next to each other become one. An empty name right behind dots at the start leads
nowhere, so that nothing is found below a root spelled `.//src`.

A pattern with a number of directories looks only into directories that lie less deep. In any
case a path is put to the selection in the form that it has below the root. That form is found
by taking the parts of the root off the parts of the path. Where this fails, because the root
starts with a dot that the path has lost, the whole path is put to the selection in its place.

Names that are no text are passed over, and a pattern with a number of directories does not
look into directories of such names.

## Paths that are too long

A file whose path is too long is passed over. A directory whose path is too long cannot be
listed, and a fault stands at its place in the walk. On the way down to the start of the
walk this concerns only names with a wildcard character in them: such a name is looked for
by listing the directory that holds it, where it is found however long its path becomes. For
any other name its path is followed, and if that path is too long, the walk finds nothing.
-/

namespace DocBlocks

/-- What a walk comes across: a file, or a fault that stands in the place of files. -/
abbrev Found := Except FileFault Path

/-- What a walk finds in the directory at a path, which has to be listed for that. -/
def listed (path : Path) (found : List Found) : List Found :=
  if path.fits then found else [.error (.io path .nameTooLong)]

namespace Listing

/-- A file below `above`, unless it is passed over. -/
def foundFile (above : Path) (name : Bytes) : List Found :=
  let path := above.join name
  if (Text.decode? name).isSome && path.fits then [.ok path] else []

/-- What is found at any depth among the entries of a directory. -/
def allFiles (above : Path) : Listing → List Found
  | nil => []
  | file name _ rest => foundFile above name ++ rest.allFiles above
  | folder name inside rest =>
    let path := above.join name
    listed path (inside.allFiles path) ++ rest.allFiles above

/-- What is found below as many directories as given among the entries of a directory. -/
def filesBelow (above : Path) (folders : Nat) : Listing → List Found
  | nil => []
  | file name _ rest =>
    (if folders = 0 then foundFile above name else []) ++ rest.filesBelow above folders
  | folder name inside rest =>
    let path := above.join name
    (if folders = 0 ∨ (Text.decode? name).isNone then []
      else listed path (inside.filesBelow path (folders - 1))) ++
      rest.filesBelow above folders

end Listing

/-! ### The start of a walk -/

/-- Whether a name has a character in it that stands for others in a file pattern: a star, a
question mark or a square bracket. -/
def hasWildcard (name : Bytes) : Bool :=
  name.any fun b => b == 42 || b == 63 || b == 91 || b == 93

/-- The place that a piece of a root leads to from a place. -/
def placeBelow (place : List Bytes) (piece : Bytes) : List Bytes :=
  (Part.step? piece).elim place (Part.leadsTo place)

/-- How the paths of a walk start behind one more piece of the root. -/
def startBelow? (above : Path) (piece : Bytes) : Option Path :=
  if !above.spelling.isEmpty then some (above.join piece)
  else if piece.isEmpty then none
  else if piece = [46] then some above
  else some ⟨piece⟩

/-- The directory in which a walk starts, with its path and its entries. `above` and `place`
are the path and the place come to before the given pieces of the root. A directory on the
way that cannot be listed, although it has to be, is where the walk starts and ends. -/
def startFrom (top : Listing) (above : Path) (place : List Bytes) :
    List Bytes → Option (Path × Listing)
  | [] =>
    match top.node? place with
    | some (.folder inside) => some (above, inside)
    | _ => none
  | piece :: rest =>
    match top.node? place, startBelow? above piece with
    | some (.folder inside), some next =>
      if hasWildcard piece then
        if above.fits then startFrom top next (placeBelow place piece) rest
        else some (above, inside)
      else if next.fits then startFrom top next (placeBelow place piece) rest
      else none
    | _, _ => none

/-- The directory in which a walk along the pieces of a root starts. If the first one is empty,
the root starts with a slash, and the way with the directory at the top. -/
def Site.startOf (site : Site) : List Bytes → Option (Path × Listing)
  | [] :: pieces => startFrom site.all ⟨[47]⟩ [] pieces
  | pieces => startFrom site.all ⟨[]⟩ site.start pieces

/-! ### Walks -/

/-- What a walk along a file pattern comes across. -/
def walk (site : Site) (pattern : Pattern) : List Found :=
  match site.startOf pattern.root with
  | none => []
  | some (above, inside) =>
    listed above <|
      match pattern.folders with
      | none => inside.allFiles above
      | some folders => inside.filesBelow above folders

/-- The parts of a path behind those of a root, if it starts with them. -/
def partsBelow? : List Part → List Part → Option (List Part)
  | [], parts => some parts
  | _ :: _, [] => none
  | r :: root, p :: parts => if r = p then partsBelow? root parts else none

/-- Whether a file that a walk comes across is wanted. Faults always count. -/
def Selection.keeps (selection : Selection) (root : Path) : Found → Bool
  | .ok path =>
    selection.acceptsParts ((partsBelow? root.parts path.parts).getD path.parts)
  | .error _ => true

end DocBlocks
