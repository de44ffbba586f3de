import DocBlocks.Fault

/-!
# Directories

A directory is given by its entries, which are files with their bytes and directories with
entries of their own, in ascending order of their names. Places in it are named by the names
on the way down from it.

Parts of a path lead from one place to another (`Listing.follow?`). The way goes through
directories only. A dot leads nowhere else but asks for a directory; two dots lead up, and from
the top nowhere else. A slash at the start leads to the top.
-/

namespace DocBlocks

/-- The entries of a directory. -/
inductive Listing where
  /-- No entries. -/
  | nil
  /-- A file and the entries behind it. -/
  | file (name : Bytes) (content : Bytes) (rest : Listing)
  /-- A directory and the entries behind it. -/
  | folder (name : Bytes) (inside : Listing) (rest : Listing)
  deriving DecidableEq, Repr

/-- What is found at a place. -/
inductive Node where
  | file (content : Bytes)
  | folder (inside : Listing)
  deriving DecidableEq, Repr

namespace Listing

/-! ### Looking up and changing entries -/

/-- The entry of the given name. -/
def entry? (name : Bytes) : Listing → Option Node
  | nil => none
  | file n content rest => if n = name then some (.file content) else rest.entry? name
  | folder n inside rest => if n = name then some (.folder inside) else rest.entry? name

/-- What is found by going down from a directory along some names. -/
def node? (top : Listing) : List Bytes → Option Node
  | [] => some (.folder top)
  | name :: names =>
    match top.entry? name with
    | some (.folder inside) => inside.node? names
    | some (.file content) => if names.isEmpty then some (.file content) else none
    | none => none

/-- An entry and the entries behind it. -/
def cons (name : Bytes) (node : Node) (rest : Listing) : Listing :=
  match node with
  | .file content => file name content rest
  | .folder inside => folder name inside rest

/-- Changes the entry of the given name, or makes it. -/
def alter (name : Bytes) (change : Option Node → Node) : Listing → Listing
  | nil => cons name (change none) nil
  | file n content rest =>
    match compare name n with
    | .lt => cons name (change none) (file n content rest)
    | .eq => cons name (change (some (.file content))) rest
    | .gt => file n content (rest.alter name change)
  | folder n inside rest =>
    match compare name n with
    | .lt => cons name (change none) (folder n inside rest)
    | .eq => cons name (change (some (.folder inside))) rest
    | .gt => folder n inside (rest.alter name change)

/-- Puts a file or a directory at a place, with all directories on the way to it. -/
def put (node : Node) : List Bytes → Listing → Listing
  | [], top => top
  | [name], top => top.alter name fun _ => node
  | name :: next :: names, top =>
    top.alter name fun
      | some (.folder inside) => .folder (put node (next :: names) inside)
      | _ => .folder (put node (next :: names) nil)

/-- The files below a directory with their bytes, each by the names that lead to it. -/
def contents (above : List Bytes) : Listing → List (List Bytes × Bytes)
  | nil => []
  | file name content rest => (above ++ [name], content) :: rest.contents above
  | folder name inside rest => inside.contents (above ++ [name]) ++ rest.contents above

end Listing

/-! ### Following parts of a path -/

/-- The place to which a part leads from a place. -/
def Part.leadsTo (place : List Bytes) : Part → List Bytes
  | .root => []
  | .here => place
  | .parent => place.dropLast
  | .name next => place ++ [next]

/-- Follows parts of a path from the place at which some names lead. Every part asks for a
directory to start at. -/
def Listing.follow? (top : Listing) (place : List Bytes) : List Part → Except IoCause (List Bytes)
  | [] => .ok place
  | part :: parts =>
    match top.node? place with
    | none => .error .missing
    | some (.file _) => .error .notDirectory
    | some (.folder _) =>
      if Part.nameLimit < part.bytes.length then .error .nameTooLong
      else top.follow? (part.leadsTo place) parts

end DocBlocks
