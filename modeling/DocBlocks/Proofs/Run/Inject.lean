import DocBlocks.Proofs.Run.Pointwise
import DocBlocks.Run.Inject
import DocBlocks.Tree.Guarded

/-!
# What Becomes of a File That Definitions Are Put Into

A visit of the run that puts definitions into files looks at one file only, so that there is a
verdict on every file (`InjectConfig.judge`). Access to some files may be refused. A file that
cannot be read is at fault, and so is one that would have to be written and cannot be. Nothing
is written on a dry run, and nothing whose text stays the same.

## Main results

* `InjectConfig.judges_visitGuarded`: visits to a tree in which access is refused, file by
  file.
* `InjectConfig.judges`: visits to a tree in memory, file by file.
-/

namespace DocBlocks

open Text

/-! ### The verdict on a file -/

/-- What comes of a visit to a file that can be read, if there is no fault in it. -/
def InjectConfig.judgeInjected (config : InjectConfig) (unwritable : List Path) (path : Path)
    (s : Text) (done : Injected) : Except FileFault Verdict :=
  if done.content = s then .ok ⟨s, done.report⟩
  else if config.dryRun then .ok ⟨s, done.report + { written := 1 }⟩
  else if unwritable.any path.same then .error (.io path .denied)
  else .ok ⟨done.content, done.report + { written := 1 }⟩

/-- What comes of a visit to a file in a tree where some files cannot be read or written. -/
def InjectConfig.judge (config : InjectConfig) (table : Table)
    (unreadable unwritable : List Path) : Judgement := fun path s =>
  if unreadable.any path.same then .error (.io path .denied)
  else
    match table.injectFile locate path s with
    | .error fault => .error fault
    | .ok none => .ok ⟨s, { scanned := 1 }⟩
    | .ok (some done) => config.judgeInjected unwritable path s done

/-- A tree in memory in which it is refused to read some files and to write some files. -/
def MemoryTree.guard (unreadable unwritable : List Path) (tree : MemoryTree) :
    Guarded MemoryTree :=
  ⟨tree, unreadable, unwritable, none, none⟩

section Visit

variable {config : InjectConfig} {table : Table} {unreadable unwritable : List Path}
  {tree : MemoryTree} {path : Path} {s : Text}

/-- A file that a tree in memory has can be read. -/
theorem MemoryTree.read_of_get?_eq_some (hget : tree.get? path = some s) :
    SourceTree.read tree path = .ok s := by
  simp only [SourceTree.read, hget]

/-- A file that it has not cannot be read. -/
theorem MemoryTree.read_of_get?_eq_none (hget : tree.get? path = none) :
    SourceTree.read tree path = .error .unknown := by
  simp only [SourceTree.read, hget]

theorem MemoryTree.read_guard (path : Path) :
    SourceTree.read (tree.guard unreadable unwritable) path =
      if unreadable.any path.same then .error .denied else SourceTree.read tree path := rfl

theorem MemoryTree.write_guard (new : Text) :
    SourceTree.write (tree.guard unreadable unwritable) path new =
      if unwritable.any path.same then .error .denied
      else .ok (MemoryTree.guard unreadable unwritable
        ⟨tree.texts.insert path new, tree.writes ++ [path]⟩) := rfl

/-- Whether a visit to a file of a guarded tree ends as a verdict says. -/
structure EndsAs (unreadable unwritable : List Path) (tree : MemoryTree) (path : Path) (s : Text)
    (verdict : Except FileFault Verdict)
    (out : Outcome (Guarded MemoryTree) FileFault Report) : Prop where
  result_eq : out.result = verdict.map (·.report)
  tree_eq : out.tree =
    (tree.settle path s (Verdict.textOr s verdict)).guard unreadable unwritable

/-- A visit that leaves the tree alone. -/
theorem EndsAs.idle {verdict : Except FileFault Verdict} (h : Verdict.textOr s verdict = s)
    (log : List Event) :
    EndsAs unreadable unwritable tree path s verdict
      ⟨tree.guard unreadable unwritable, log, verdict.map (·.report)⟩ := by
  refine ⟨rfl, ?_⟩
  rw [h, MemoryTree.settle_self]

/-- **Committing a file** writes it if its text changes, if the run is not dry and if nothing
forbids it. -/
theorem InjectConfig.endsAs_commitVisit (config : InjectConfig) (done : Injected)
    (log : List Event) :
    EndsAs unreadable unwritable tree path s (config.judgeInjected unwritable path s done)
      (commitVisit .preserve config.dryRun (tree.guard unreadable unwritable) path s done.content
        log done.report) := by
  rw [commitVisit, commit, LineEndings.apply, InjectConfig.judgeInjected]
  by_cases hsame : done.content = s
  · rw [if_pos hsame, if_pos hsame]
    exact EndsAs.idle rfl _
  · rw [if_neg hsame, if_neg hsame]
    by_cases hdry : config.dryRun = true
    · rw [if_pos hdry, if_pos hdry]
      exact EndsAs.idle rfl _
    · rw [if_neg hdry, if_neg hdry, MemoryTree.write_guard]
      by_cases hrefused : unwritable.any path.same = true
      · rw [if_pos hrefused, if_pos hrefused]
        exact EndsAs.idle rfl _
      · rw [if_neg hrefused, if_neg hrefused]
        refine ⟨rfl, ?_⟩
        rw [Verdict.textOr, MemoryTree.settle_of_ne hsame]
        rfl

/-- **A visit to a file** ends as the verdict on it says. -/
theorem InjectConfig.endsAs_visit (config : InjectConfig) (table : Table)
    (hget : tree.get? path = some s) :
    EndsAs unreadable unwritable tree path s
      (config.judge table unreadable unwritable path s)
      (config.visit table (tree.guard unreadable unwritable) path) := by
  rw [InjectConfig.visit, MemoryTree.read_guard, MemoryTree.read_of_get?_eq_some hget,
    InjectConfig.judge]
  by_cases hrefused : unreadable.any path.same = true
  · rw [if_pos hrefused, if_pos hrefused]
    exact EndsAs.idle rfl _
  · rw [if_neg hrefused, if_neg hrefused]
    dsimp only
    cases hinject : table.injectFile locate path s with
    | error fault => exact EndsAs.idle rfl _
    | ok injected =>
        cases injected with
        | none => exact EndsAs.idle rfl _
        | some done => exact config.endsAs_commitVisit done _

/-- Visits to a guarded tree, as visits to the tree. -/
def InjectConfig.visitGuarded (config : InjectConfig) (table : Table)
    (unreadable unwritable : List Path) (tree : MemoryTree) (path : Path) :
    Outcome MemoryTree FileFault Report :=
  (config.visit table (tree.guard unreadable unwritable) path).mapTree Guarded.tree

theorem InjectConfig.judges_visitGuarded (config : InjectConfig) (table : Table)
    (unreadable unwritable : List Path) :
    Judges (config.visitGuarded table unreadable unwritable)
      (config.judge table unreadable unwritable) := by
  constructor
  · intro tree path s hget
    rw [InjectConfig.visitGuarded, Outcome.mapTree, (config.endsAs_visit table hget).result_eq]
  · intro tree path s hget
    rw [InjectConfig.visitGuarded, Outcome.mapTree, (config.endsAs_visit table hget).tree_eq]
    rfl

/-- Where nothing is refused, a guarded tree is as good as the tree. -/
theorem InjectConfig.visitGuarded_nil (config : InjectConfig) (table : Table) :
    config.visitGuarded table [] [] = config.visit table := by
  funext tree path
  have hread : SourceTree.read (tree.guard [] []) path = SourceTree.read tree path := rfl
  rw [InjectConfig.visitGuarded, InjectConfig.visit, InjectConfig.visit, hread]
  cases SourceTree.read tree path with
  | error cause => rfl
  | ok s =>
      dsimp only
      cases table.injectFile locate path s with
      | error fault => rfl
      | ok injected =>
          cases injected with
          | none => rfl
          | some done =>
              dsimp only
              rw [commitVisit, commitVisit, commit, commit, LineEndings.apply]
              by_cases hsame : done.content = s
              · rw [if_pos hsame, if_pos hsame]
                rfl
              · rw [if_neg hsame, if_neg hsame]
                by_cases hdry : config.dryRun = true
                · rw [if_pos hdry, if_pos hdry]
                  rfl
                · rw [if_neg hdry, if_neg hdry]
                  rfl

/-- Visits to a tree in memory do to each file what the verdict on it says. -/
theorem InjectConfig.judges (config : InjectConfig) (table : Table) :
    Judges (config.visit table) (config.judge table [] []) := by
  rw [← config.visitGuarded_nil table]
  exact config.judges_visitGuarded table [] []

end Visit

end DocBlocks
