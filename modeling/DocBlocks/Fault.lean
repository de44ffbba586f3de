import DocBlocks.Definition.Reader
import DocBlocks.Path

/-!
# Faults of a Run

A run over a tree of source files can be stopped by a file (`FileFault`) or by what comes
before the first file: definitions that cannot be read, or a root that cannot be walked.
A run that goes on after a file has failed reports all such files together at its end.

A doc block that is not found is no fault. It is counted in the report of the run.
-/

namespace DocBlocks

/-- Why a file cannot be read or written. -/
inductive IoCause where
  /-- There is no such file, or no such directory on the way to it. -/
  | missing
  /-- There is a directory of that name. -/
  | isDirectory
  /-- There is a file where the path needs a directory. -/
  | notDirectory
  /-- A name on the way, or the path as a whole, has too many bytes. -/
  | nameTooLong
  /-- The path has a zero byte, which no file name can have. -/
  | zeroByte
  /-- The bytes of the file are no text. -/
  | notText
  /-- A tree that is held in memory has no such file. -/
  | unknown
  /-- Access is not allowed. -/
  | denied
  deriving DecidableEq, Repr

/-- The wording of a cause. -/
def IoCause.message : IoCause → String
  | missing => "No such file or directory (os error 2)"
  | isDirectory => "Is a directory (os error 21)"
  | notDirectory => "Not a directory (os error 20)"
  | nameTooLong => "File name too long (os error 36)"
  | zeroByte => "file name contained an unexpected NUL byte"
  | notText => "stream did not contain valid UTF-8"
  | unknown => "entity not found"
  | denied => "permission denied"

/-- What is wrong with one file. -/
inductive FileFault where
  /-- It cannot be read or written. -/
  | io (path : Path) (cause : IoCause)
  /-- It has line endings that putting documentation into it would mix with others. -/
  | crlf (path : Path)
  deriving DecidableEq, Repr

/-- The wording of a fault in a file. -/
def FileFault.message : FileFault → String
  | io path cause => "I/O error on " ++ path.toString ++ ": " ++ cause.message
  | crlf path =>
    path.toString ++ " contains CRLF line endings; convert it to LF before injecting"

/-- What stops a run. -/
inductive Fault where
  /-- The definition file cannot be read. -/
  | definitionsUnread (path : Path) (cause : IoCause)
  /-- The definition file does not hold a definition table. -/
  | definitionsMalformed (path : Path) (defect : Table.Defect)
  /-- The root cannot be walked. -/
  | walk (pattern : Text) (reason : String)
  /-- A file is at fault. -/
  | file (fault : FileFault)
  /-- Several files are at fault, which were passed over. -/
  | files (failures : List (Path × FileFault))
  deriving DecidableEq, Repr

/-- The wording of a fault. -/
def Fault.message : Fault → String
  | definitionsUnread path cause =>
    "failed to read definitions from " ++ path.toString ++ ": " ++ cause.message
  | definitionsMalformed path defect =>
    "malformed definitions in " ++ path.toString ++ ": " ++ defect.message
  | walk pattern reason => "invalid file pattern " ++ String.ofList pattern ++ ": " ++ reason
  | file fault => fault.message
  | files failures =>
    toString failures.length ++ " file(s) failed:\n" ++
      "\n".intercalate (failures.map fun (path, fault) =>
        "  " ++ path.toString ++ ": " ++ fault.message)

/-- The cause that lies behind a fault, if there is one. -/
def Fault.cause? : Fault → Option IoCause
  | definitionsUnread _ cause => some cause
  | file (.io _ cause) => some cause
  | _ => none

/-- The definition table in the text of a file. -/
def Table.ofFile (path : Path) (s : Text) : Except Fault Table :=
  (Table.read s).mapError (.definitionsMalformed path)

end DocBlocks
