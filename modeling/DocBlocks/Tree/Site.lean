import DocBlocks.Tree.Listing

/-!
# Following, Reading and Writing

A site is all that there is, and the place in it where relative paths start. A path that starts
with a slash leads down from the top instead. Two dots lead up, and at the top nowhere else, so
that there is nothing outside a site.

Names and paths are limited in length. The length of a path counts before the way is gone,
that of a name when the way comes to it. Nothing else stands in the way: there are no
permissions in a site, so that every file that is there can be read and written.

A directory on its own makes a site in which there is nothing else (`Site.alone`). Where a
directory is asked for, a site stands for the one in which relative paths start (`Site.here`).
-/

namespace DocBlocks

/-- What is wrong with a path already in its spelling. -/
def Path.spellingFault? (path : Path) : Option IoCause :=
  if path.spelling.contains 0 then some .zeroByte
  else if !path.fits then some .nameTooLong
  else if path.spelling.isEmpty then some .missing
  else none

/-- All files and directories that there are, and where relative paths start. -/
structure Site where
  /-- The directory at the top, at which paths start that start with a slash. -/
  all : Listing
  /-- The place of the directory at which all other paths start. -/
  start : List Bytes
  deriving DecidableEq, Repr

namespace Site

/-- The site in which a directory is alone, and relative paths start there. It does not lie at the
top, so that two dots lead out of it. -/
def alone (top : Listing) : Site := ⟨.folder [104, 101, 114, 101] top .nil, [[104, 101, 114, 101]]⟩

/-- The directory at which relative paths start. -/
def here (site : Site) : Listing :=
  match site.all.node? site.start with
  | some (.folder inside) => inside
  | _ => .nil

instance : Coe Listing Site := ⟨alone⟩

instance : Coe Site Listing := ⟨here⟩

@[simp] theorem here_alone (top : Listing) : (alone top).here = top := rfl

/-- Puts a file or a directory at a place, with all directories on the way to it. -/
def put (site : Site) (node : Node) (place : List Bytes) : Site :=
  { site with all := site.all.put node place }

@[simp] theorem all_put (site : Site) (node : Node) (place : List Bytes) :
    (site.put node place).all = site.all.put node place := rfl

/-! ### Following a path -/

/-- The place to which parts of a path lead, whether or not there is something. -/
def along? (site : Site) (path : Path) (parts : List Part) : Except IoCause (List Bytes) :=
  match path.spellingFault? with
  | some cause => .error cause
  | none => site.all.follow? site.start parts

/-- The place to which a path leads, whether or not there is something. -/
def place? (site : Site) (path : Path) : Except IoCause (List Bytes) :=
  site.along? path path.steps

/-! ### Reading and writing -/

/-- The bytes of the file to which a path leads. -/
def readFile (site : Site) (path : Path) : Except IoCause Bytes := do
  let place ← site.place? path
  match site.all.node? place with
  | none => .error .missing
  | some (.folder _) => .error .isDirectory
  | some (.file content) =>
    if path.endsWithSlash then .error .notDirectory else .ok content

/-- The text of the file to which a path leads. -/
def readText (site : Site) (path : Path) : Except IoCause Text := do
  match Text.decode? (← site.readFile path) with
  | some s => .ok s
  | none => .error .notText

/-- The site after the file to which a path leads has been given other bytes. The file need
not be there, but the directory it lies in must. A slash at the end asks for a directory,
which cannot be written to; it is the directory before the last part of the path that is then
looked for. -/
def writeFile (site : Site) (path : Path) (content : Bytes) : Except IoCause Site :=
  if path.endsWithSlash then do
    let _ ← site.along? path (path.steps.dropLast ++ [.here])
    .error .isDirectory
  else do
    let place ← site.place? path
    match site.all.node? place with
    | some (.folder _) => .error .isDirectory
    | _ => .ok (site.put (.file content) place)

end Site

end DocBlocks
