import DocBlocks.Fault
import DocBlocks.Injection
import DocBlocks.Text.Quoted

/-!
# Reports and Logs

A run counts what it does (`Report`) and tells what it does (`Event`). The counts of a run
are the sums of the counts for its files. Each event has a level, by which it is shown or
not.
-/

namespace DocBlocks

/-- What a run has done, in numbers. -/
structure Report where
  /-- Files visited. -/
  scanned : Nat := 0
  /-- Files for which there were definitions. -/
  targeted : Nat := 0
  /-- Files written, or that would have been. -/
  written : Nat := 0
  /-- Doc blocks replaced. -/
  replaced : Nat := 0
  /-- Doc blocks that were asked for and not found. -/
  missed : Nat := 0
  deriving DecidableEq, Repr

namespace Report

instance : Add Report where
  add r s :=
    ⟨r.scanned + s.scanned, r.targeted + s.targeted, r.written + s.written,
      r.replaced + s.replaced, r.missed + s.missed⟩

end Report

/-- The two things that can be done to a tree. -/
inductive Pass where
  /-- Putting parameter lines into tagged form. -/
  | params
  /-- Putting documentation into files. -/
  | inject
  deriving DecidableEq, Repr

/-- The name of a pass. -/
def Pass.name : Pass → Text
  | params => ['p', 'a', 'r', 'a', 'm', 's']
  | inject => ['i', 'n', 'j', 'e', 'c', 't']

/-- How much an event matters. -/
inductive Level where
  | debug
  | info
  | warn
  deriving DecidableEq, Repr

/-- The name of a level. -/
def Level.name : Level → String
  | debug => "DEBUG"
  | info => "INFO"
  | warn => "WARN"

/-- Something that happens during a run. -/
inductive Event where
  /-- The definition table has been read. -/
  | loaded (path : Path) (symbols : Nat)
  /-- There are no definitions for a file. -/
  | noEntry (path : Path)
  /-- Something was noted down while documentation was put into a file. -/
  | noted (note : Note)
  /-- A file has been written. -/
  | wrote (path : Path)
  /-- A file would have been written. -/
  | wouldWrite (path : Path)
  /-- A file at fault is passed over. -/
  | skipped (path : Path) (fault : FileFault)
  /-- The run is over. -/
  | done (pass : Pass) (report : Report)
  deriving DecidableEq, Repr

/-- How much an event matters. -/
def Event.level : Event → Level
  | loaded _ _ => .info
  | noEntry _ => .debug
  | noted _ => .debug
  | wrote _ => .info
  | wouldWrite _ => .info
  | skipped _ _ => .warn
  | done _ _ => .info

/-- A named text that goes with an event, between quotes. -/
def quotedField (name : String) (s : Text) : String :=
  " " ++ name ++ "=" ++ String.ofList (Text.quoted s)

/-- A named text that goes with an event, as it is. -/
def plainField (name value : String) : String := " " ++ name ++ "=" ++ value

/-- The wording of a note. -/
def Note.message : Note → String
  | noClassBlock symbol =>
    "no doc block directly above class declaration" ++ quotedField "symbol" symbol
  | noMemberBlock symbol signature =>
    "no doc block directly above member" ++ quotedField "symbol" symbol ++
      plainField "signature" (String.ofList signature)
  | blankSignature symbol signature =>
    "skipping blank member signature" ++ quotedField "symbol" symbol ++
      plainField "signature" (String.ofList signature)

/-- The wording of an event. -/
def Event.message : Event → String
  | loaded path symbols =>
    "loaded definitions" ++ plainField "path" path.toString ++
      plainField "symbols" (toString symbols)
  | noEntry path => "no definition entry" ++ plainField "path" path.toString
  | noted note => note.message
  | wrote path => "rewrote" ++ plainField "path" path.toString
  | wouldWrite path => "would rewrite" ++ plainField "path" path.toString
  | skipped path fault =>
    "skipping file" ++ plainField "path" path.toString ++ plainField "error" fault.message
  | done pass report =>
    "done" ++ quotedField "pass" pass.name ++
      plainField "scanned" (toString report.scanned) ++
      plainField "targeted" (toString report.targeted) ++
      plainField "rewritten" (toString report.written) ++
      plainField "replaced" (toString report.replaced) ++
      plainField "missed" (toString report.missed)

end DocBlocks
