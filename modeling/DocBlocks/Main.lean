import DocBlocks.CommandLine.Program

/-!
# Running the Program

The outermost layer. It takes a picture of the directory that the program is started in and of
those that its arguments name, has the program work on the picture, and writes back the files
whose bytes are others in it. Symbolic links to directories are not followed, and of files that
no command reads only the names are taken.
-/

namespace DocBlocks.CommandLine

/-- What is printed when help is asked for. -/
def helpText : String :=
  "Normalize parameter docs and inject external doc blocks in place\n\n" ++
  "Usage: docblocks [-v|--verbose|-q|--quiet] <params|inject> [OPTIONS]\n\n" ++
  "params  Turn `name - description` lines in Parameters: sections into @param tags\n" ++
  "  --root <DIR>         Directory to scan recursively [default: .]\n" ++
  "  --ext <EXT>          File extension to process [default: js]\n" ++
  "  --legacy-name-range  Accept the historical name range from A to z\n" ++
  "  --dry-run            Report what would change without writing\n\n" ++
  "inject  Replace class and member doc blocks with content from a definition file\n" ++
  "  --root <DIR>         Directory whose subdirectories hold the files [default: .]\n" ++
  "  --defs <FILE>        Definition file [default: <root>/definitions.json]\n" ++
  "  --depth <N>          Path segments below the root a file sits at [default: 2]\n" ++
  "  --ext <EXT>          File extensions to process, repeatable [default: js ts]\n" ++
  "  --keep-going         Report failing files at the end\n" ++
  "  --dry-run            Report what would change without writing"

mutual

/-- Takes a picture of an entry of a directory. -/
partial def readEntry (reads : Bytes → Bool) (entry : IO.FS.DirEntry) : IO (Option Node) := do
  let name := Text.utf8 entry.fileName.toList
  match (← entry.path.symlinkMetadata).type with
  | .dir => return some (.folder (← readEntries reads (← entry.path.readDir)))
  | _ =>
    if ← entry.path.isDir then return none
    if !(← entry.path.pathExists) then return none
    let content ← if reads name then IO.FS.readBinFile entry.path else pure ByteArray.empty
    return some (.file content.toList)

/-- Takes a picture of the entries of a directory. -/
partial def readEntries (reads : Bytes → Bool) (entries : Array IO.FS.DirEntry) :
    IO Listing := do
  let mut top := Listing.nil
  for entry in entries do
    if let some node ← readEntry reads entry then
      top := top.put node [Text.utf8 entry.fileName.toList]
  return top

end

/-- The names on the way down to what a string spells. -/
def namesOn (spelling : String) : List Bytes :=
  ((Path.ofText spelling.toList).parts.filter Part.isName).map Part.bytes

/-- Takes a picture of what a command can come to: the directory that the program is started in,
the root, and the directory of the definition table. They are taken from the top down, so that
one that lies in another is not taken twice. -/
def readSite (command : Command) : IO Site := do
  let start ← IO.FS.realPath (← IO.currentDir)
  let named :=
    match command with
    | .params command => [start / command.root.toString]
    | .inject command =>
      (start / command.root.toString) :: (start / command.table.toString).parent.toList
  let mut folders := #[start]
  for folder in named do
    if ← folder.isDir then folders := folders.push (← IO.FS.realPath folder)
  let mut all := Listing.nil
  let placed := folders.map fun folder => (namesOn folder.toString, folder)
  for (names, folder) in placed.qsort fun a b => a.1.length < b.1.length do
    if names.isEmpty then all ← readEntries command.mayRead (← folder.readDir)
    else if (all.node? names).isNone then
      all := all.put (.folder (← readEntries command.mayRead (← folder.readDir))) names
  return ⟨all, namesOn start.toString⟩

/-- Writes the files that have other bytes after the run than before it. -/
def writeChanged (before after : Site) : IO Unit := do
  for (names, content) in after.all.contents [] do
    if before.all.node? names ≠ some (.file content) then
      let path := String.ofList (Text.decodeLossy (47 :: [47].intercalate names))
      IO.FS.writeBinFile path content.toByteArray

/-- Runs the program in the directory that it is started in, and returns its exit status. -/
def runHere (arguments : List String) : IO UInt32 := do
  let arguments := arguments.map String.toList
  let top ←
    match read arguments with
    | .ok invocation => readSite invocation.command
    | .error _ => pure ⟨.nil, []⟩
  let finish := run arguments top
  writeChanged top finish.top
  for event in shownLog arguments finish do
    IO.eprintln (event.level.name ++ " " ++ event.message)
  match finish.ending with
  | .success => pure ()
  | .failure failure =>
    for line in failure.report do
      IO.eprintln line
  | .refused .help => IO.println helpText
  | .refused .usage =>
    IO.eprintln "error: these arguments are not understood; for more information, try --help"
  return finish.ending.status

end DocBlocks.CommandLine

/-- Runs the program. -/
def main (arguments : List String) : IO UInt32 := DocBlocks.CommandLine.runHere arguments
