import DocBlocks.Run.Visit

/-!
# Putting Definitions into a Tree

This run puts the entries of a definition table into the files that they are for. A file
for which there is no entry is not looked at. One for which there is, and which has a line
that ends in `\r\n`, is at fault, because the lines put into it end in `\n`.
-/

namespace DocBlocks

open Text

/-- Puts the entry for the file at a path, if the table has one, into the text of it. -/
def Table.injectFile (table : Table) (find : Matcher) (path : Path) (content : Text) :
    Except FileFault (Option Injected) :=
  match path.symbol? with
  | none => .ok none
  | some symbol =>
    match table.get? symbol with
    | none => .ok none
    | some entry =>
      if hasCrlf content then .error (.crlf path)
      else .ok (some (entry.inject find symbol content))

/-- What a run over the files of a definition table is to do. -/
structure InjectConfig where
  /-- The files to visit. -/
  selection : Selection := .atDepth 2 [['j', 's'], ['t', 's']]
  /-- Whether to pass over files at fault. -/
  keepGoing : Bool := false
  /-- Whether to leave all files as they are. -/
  dryRun : Bool := false
  deriving DecidableEq, Repr

/-- What a file counts for into which an entry has been put. -/
def Injected.report (done : Injected) : Report :=
  { scanned := 1, targeted := 1, replaced := done.replaced, missed := done.missed.length }

/-- Visits one file. -/
def InjectConfig.visit {σ : Type} [SourceTree σ] (config : InjectConfig) (table : Table)
    (tree : σ) (path : Path) : Outcome σ FileFault Report :=
  match SourceTree.read tree path with
  | .error cause => ⟨tree, [], .error (.io path cause)⟩
  | .ok old =>
    match table.injectFile locate path old with
    | .error fault => ⟨tree, [], .error fault⟩
    | .ok none => ⟨tree, [.noEntry path], .ok { scanned := 1 }⟩
    | .ok (some done) =>
      commitVisit .preserve config.dryRun tree path old done.content
        (done.notes.map .noted) done.report

/-- Puts the entries of a definition table into the files of a tree. -/
def runInject {σ : Type} [SourceTree σ] (config : InjectConfig) (table : Table) (tree : σ) :
    Outcome σ Fault Report :=
  visitTree config.selection config.keepGoing (config.visit table) tree

end DocBlocks
