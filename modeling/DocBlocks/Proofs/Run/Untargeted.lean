import DocBlocks.Proofs.Run.DryRun
import DocBlocks.Proofs.Run.Forgiven
import DocBlocks.Proofs.Tree.Symbol
import DocBlocks.Proofs.Tree.Twins

/-!
# Files without Definitions

A file for which a definition table has no entry is none of the business of the run that puts
definitions into files. The run does not write it, and what is in it makes no difference to the
other files and to what the run returns, with one exception: each file that is visited is read as
a text before its symbol is looked up, so that bytes that are no text are a fault.

This is shown by two runs side by side, over trees that differ in the bytes of that file only
(`Twins`). The trees stay such, because the run gives new bytes only to files that are there, and
never to that one. All paths that lead to it have the same symbol, so that none of them has an
entry.

## Main results

* `Site.NoEntry.of_path`: if one path to a file has no entry, then none has.
* `Twins.tree_visit`, `Twins.result_visit_eq`, `Twins.forgiving`: visits to both trees.
* `runInject_noninterference`: what becomes of the file, of the other files and of the result.
* `not_forall_result_runInject_eq`: bytes that are no text do make a difference.
-/

namespace DocBlocks

open Text

/-! ### Visits to other files -/

section Others

variable {top : Site} {place : List Bytes} {old new : Bytes} {s t : DirectoryTree}
  {path : Path}

theorem Twins.commitVisit (h : Twins top place old new s t) (hordered : top.all.Ordered)
    (hpath : top.place? path ≠ .ok place) {text : Text}
    (hread : SourceTree.read s path = .ok text) (endings : LineEndings) (dryRun : Bool)
    (text' : Text) (log : List Event) (report : Report) :
    Twins top place old new
        (commitVisit endings dryRun s path text text' log report).tree
        (DocBlocks.commitVisit endings dryRun t path text text' log report).tree ∧
      (DocBlocks.commitVisit endings dryRun s path text text' log report).result =
        (DocBlocks.commitVisit endings dryRun t path text text' log report).result := by
  rw [DocBlocks.commitVisit, DocBlocks.commitVisit, commit, commit]
  by_cases hsame : endings.apply text' = text
  · rw [if_pos hsame, if_pos hsame]
    exact ⟨h, rfl⟩
  · rw [if_neg hsame, if_neg hsame]
    by_cases hdry : dryRun = true
    · rw [if_pos hdry, if_pos hdry]
      exact ⟨h, rfl⟩
    · rw [if_neg hdry, if_neg hdry]
      obtain ⟨s', t', hleft, hright, hwritten⟩ :=
        h.write hordered hpath hread (endings.apply text')
      rw [hleft, hright]
      exact ⟨hwritten, rfl⟩

/-- **A visit to another file** does the same in both trees. -/
theorem Twins.visit_of_ne (h : Twins top place old new s t) (hordered : top.all.Ordered)
    (hpath : top.place? path ≠ .ok place) (config : InjectConfig) (table : Table) :
    Twins top place old new (config.visit table s path).tree (config.visit table t path).tree ∧
      (config.visit table s path).result = (config.visit table t path).result := by
  rw [InjectConfig.visit, InjectConfig.visit, ← h.read_eq hpath]
  cases hread : SourceTree.read s path with
  | error cause => exact ⟨h, rfl⟩
  | ok text =>
      dsimp only
      cases table.injectFile locate path text with
      | error fault => exact ⟨h, rfl⟩
      | ok injected =>
          cases injected with
          | none => exact ⟨h, rfl⟩
          | some done => exact h.commitVisit hordered hpath hread _ _ _ _ _

end Others

/-! ### Visits to a file without an entry -/

theorem Table.injectFile_of_noEntry {table : Table} {path : Path}
    (hentry : path.symbol?.bind table.get? = none) (find : Matcher) (s : Text) :
    table.injectFile find path s = .ok none := by
  rw [Table.injectFile]
  cases hsymbol : path.symbol? with
  | none => rfl
  | some symbol =>
      rw [hsymbol, Option.bind_some] at hentry
      dsimp only
      rw [hentry]

/-- What comes of a visit to a file without an entry, by the bytes of the file. -/
def visitedAs (path : Path) (content : Bytes) : Except FileFault Report :=
  if path.endsWithSlash then .error (.io path .notDirectory)
  else if (decode? content).isSome then .ok { scanned := 1 }
  else .error (.io path .notText)

/-- **A visit to a file without an entry** leaves the tree as it is. What comes of it depends on
whether the file can be read as a text. -/
theorem InjectConfig.visit_of_noEntry (config : InjectConfig) {table : Table}
    {tree : DirectoryTree} {path : Path} {place : List Bytes} {content : Bytes}
    (hentry : path.symbol?.bind table.get? = none) (hplace : tree.top.place? path = .ok place)
    (hfile : tree.top.all.file? place = some content) :
    (config.visit table tree path).tree = tree ∧
      (config.visit table tree path).result = visitedAs path content := by
  have hreadFile := Site.readFile_of_place? hplace hfile
  rw [visitedAs]
  by_cases hslash : path.endsWithSlash = true
  · have hread : SourceTree.read tree path = .error .notDirectory := by
      show tree.top.readText path = _
      rw [Site.readText, hreadFile, if_pos hslash]
      rfl
    rw [InjectConfig.visit, hread, if_pos hslash]
    exact ⟨rfl, rfl⟩
  · have hread : SourceTree.read tree path =
        (decode? content).elim (.error .notText) .ok := by
      show tree.top.readText path = _
      rw [Site.readText, hreadFile, if_neg hslash]
      dsimp only [bind, Except.bind]
      cases decode? content with
      | none => rfl
      | some s => rfl
    rw [InjectConfig.visit, hread, if_neg hslash]
    cases decode? content with
    | none => exact ⟨rfl, rfl⟩
    | some s =>
        dsimp only [Option.elim]
        rw [Table.injectFile_of_noEntry hentry]
        exact ⟨rfl, rfl⟩

/-! ### The file without an entry -/

/-- Whether two paths lead to the same place. -/
def Site.samePlace (top : Site) (path other : Path) : Bool :=
  match top.place? path, top.place? other with
  | .ok place, .ok place' => place == place'
  | _, _ => false

/-- Whether a file at fault is the one to which a path leads, and the fault is that its bytes are
no text. -/
def Site.unread (top : Site) (path : Path) (failure : Path × FileFault) : Bool :=
  top.samePlace path failure.1 && failure.2 == .io failure.1 .notText

/-- Whether all files but the one to which a path leads have the same bytes in two directories. -/
def Site.AgreeBut (path : Path) (top top' : Site) : Prop :=
  ∀ other, top.samePlace path other = false → top.readFile other = top'.readFile other

/-- Whether no path to a place has an entry in a definition table. -/
def Site.NoEntry (top : Site) (table : Table) (place : List Bytes) : Prop :=
  ∀ path, top.place? path = .ok place → path.symbol?.bind table.get? = none

/-- If one path to a file has no entry, then none has. -/
theorem Site.NoEntry.of_path {top : Site} {table : Table} {place : List Bytes}
    {path : Path} {content : Bytes} (hplace : top.place? path = .ok place)
    (hfile : top.all.file? place = some content) (hentry : path.symbol?.bind table.get? = none) :
    top.NoEntry table place := by
  intro other hother
  rw [symbol?_eq_of_place? hother hplace hfile]
  exact hentry

theorem Site.samePlace_iff {top : Site} {path : Path} {place : List Bytes}
    (hplace : top.place? path = .ok place) (other : Path) :
    top.samePlace path other = true ↔ top.place? other = .ok place := by
  rw [samePlace, hplace]
  cases top.place? other with
  | error cause => simp
  | ok place' =>
      dsimp only
      rw [beq_iff_eq, Except.ok.injEq]
      exact eq_comm

/-! ### Visits to both trees -/

section Visits

variable {top : Site} {place : List Bytes} {old new : Bytes} {s t : DirectoryTree}
  {path : Path} {table : Table}

/-- A visit that comes to the file in which the trees differ. -/
theorem Twins.visit_left (h : Twins top place old new s t) (hentry : top.NoEntry table place)
    (config : InjectConfig) (hpath : top.place? path = .ok place) :
    (config.visit table s path).tree = s ∧
      (config.visit table s path).result = visitedAs path old :=
  config.visit_of_noEntry (hentry path hpath) ((h.place?_left path).trans hpath) h.file?_left

/-- **A visit** leaves two trees that differ in a file without an entry such. -/
theorem Twins.tree_visit (h : Twins top place old new s t) (hordered : top.all.Ordered)
    (hentry : top.NoEntry table place) (config : InjectConfig) (path : Path) :
    Twins top place old new (config.visit table s path).tree
      (config.visit table t path).tree := by
  by_cases hpath : top.place? path = .ok place
  · rw [(h.visit_left hentry config hpath).1, (h.symm.visit_left hentry config hpath).1]
    exact h
  · exact (h.visit_of_ne hordered hpath config table).1

/-- **If the file is a text in both trees or in none**, a visit returns the same. -/
theorem Twins.result_visit_eq (h : Twins top place old new s t) (hordered : top.all.Ordered)
    (hentry : top.NoEntry table place)
    (htext : (decode? old).isSome = (decode? new).isSome) (config : InjectConfig)
    (path : Path) :
    (config.visit table s path).result = (config.visit table t path).result := by
  by_cases hpath : top.place? path = .ok place
  · rw [(h.visit_left hentry config hpath).2, (h.symm.visit_left hentry config hpath).2,
      visitedAs, visitedAs, htext]
  · exact (h.visit_of_ne hordered hpath config table).2

/-- **If the file is a text in the first tree only**, visits return the same but for the fault
that it is no text in the second one. -/
theorem Twins.forgiving (hordered : top.all.Ordered) (hplace : top.place? path = .ok place)
    (hentry : top.NoEntry table place)
    (hold : (decode? old).isSome = true) (hnew : decode? new = none) (config : InjectConfig) :
    Forgiving (Twins top place old new) (top.unread path) (config.visit table)
      (config.visit table) := by
  constructor
  · intro s t other h
    exact h.tree_visit hordered hentry config other
  · intro s t other h
    by_cases hother : top.place? other = .ok place
    · rw [(h.visit_left hentry config hother).2, (h.symm.visit_left hentry config hother).2,
        visitedAs, visitedAs, hold, hnew]
      -- A path that asks for a directory is at fault in both trees, whatever is in the file.
      by_cases hslash : other.endsWithSlash = true
      · rw [if_pos hslash, if_pos hslash, forgive, if_neg (by simp [Site.unread])]
      · rw [if_neg hslash, if_neg hslash, if_pos rfl, if_neg (by simp), forgive,
          if_pos (by simp [Site.unread, (Site.samePlace_iff hplace other).mpr hother])]
    · have hspared : ∀ fault, ¬top.unread path (other, fault) = true := by
        intro fault hunread
        rw [Site.unread, Bool.and_eq_true] at hunread
        exact hother ((Site.samePlace_iff hplace other).mp hunread.1)
      rw [(h.visit_of_ne hordered hother config table).2]
      cases (config.visit table t other).result with
      | ok report => rfl
      | error fault => rw [forgive, if_neg (hspared fault)]

theorem Twins.agreeBut (h : Twins top place old new s t) (hplace : top.place? path = .ok place) :
    s.top.AgreeBut path t.top := by
  intro other hother
  refine h.readFile_eq fun heq => ?_
  have hsame := (Site.samePlace_iff ((h.place?_left path).trans hplace) other).mpr
    ((h.place?_left other).trans heq)
  rw [hother] at hsame
  exact absurd hsame Bool.false_ne_true

end Visits

/-! ### Runs over both trees -/

/-- How the run over `lost` differs from the run over `tree` if the file to which a path leads is a
text in `tree` and no text in `lost`. -/
inductive LosesText (config : InjectConfig) (table : Table) (path : Path)
    (tree lost : DirectoryTree) : Prop where
  /-- It does not, as where it does not come to the file. -/
  | same
      (agree : (runInject config table tree).tree.top.AgreeBut path
        (runInject config table lost).tree.top)
      (result_eq : (runInject config table lost).result = (runInject config table tree).result)
  /-- It passes over the file and lists it among the failures. -/
  | passes (goesOn : config.keepGoing = true)
      (agree : (runInject config table tree).tree.top.AgreeBut path
        (runInject config table lost).tree.top)
      (tally : Tally) (result_lost : (runInject config table lost).result = tally.result)
      (result_tree : (runInject config table tree).result =
        (tally.forgive (tree.top.unread path)).result)
  /-- It stops at the file, and leaves the other files as the run over `tree` leaves them up to
  there. -/
  | stops (stopsAtFaults : config.keepGoing = false) (other : Path)
      (samePlace : tree.top.samePlace path other = true)
      (before after : List (Except FileFault Path))
      (files_eq : SourceTree.files tree config.selection = .ok (before ++ .ok other :: after))
      (agree : (visitAll false (config.visit table) tree (before ++ [.ok other])).tree.top.AgreeBut
        path (runInject config table lost).tree.top)
      (agree_of_dryRun : config.dryRun = true →
        (runInject config table tree).tree.top.AgreeBut path
          (runInject config table lost).tree.top)
      (result_lost : (runInject config table lost).result =
        .error (.file (.io other .notText)))

section Runs

variable {top : Site} {place : List Bytes} {old new : Bytes} {s t : DirectoryTree}
  {path : Path} {table : Table}

/-- **A run** leaves a file without an entry as it is. -/
theorem Twins.left_runInject (h : Twins top place old new s t) (hordered : top.all.Ordered)
    (hentry : top.NoEntry table place)
    (config : InjectConfig) :
    Twins top place old old (runInject config table s).tree (runInject config table s).tree := by
  have hvisit : ∀ tree other, Twins top place old old tree tree →
      Twins top place old old (config.visit table tree other).tree
        (config.visit table tree other).tree :=
    fun tree other htree => htree.tree_visit hordered hentry config other
  exact visitTree_keeps hvisit config.selection config.keepGoing h.left

/-- **If the file is a text in both trees or in none**, the runs return the same and leave two
trees that differ in that file only. -/
theorem Twins.runInject_eq (h : Twins top place old new s t) (hroot : s.root = t.root)
    (hordered : top.all.Ordered)
    (hentry : top.NoEntry table place)
    (htext : (decode? old).isSome = (decode? new).isSome) (config : InjectConfig) :
    Twins top place old new (runInject config table s).tree (runInject config table t).tree ∧
      (runInject config table s).result = (runInject config table t).result :=
  visitTree_related
    (fun _ _ other htwins => ⟨htwins.tree_visit hordered hentry config other,
      htwins.result_visit_eq hordered hentry htext config other⟩)
    (DirectoryTree.files_congr hroot (h.blank_left.trans h.blank_right.symm) config.selection)
    config.keepGoing h

/-- **If the file is a text in the first tree only**, the runs differ by that fault only. -/
theorem Twins.losesText (h : Twins s.top place old new s t) (hroot : s.root = t.root)
    (hordered : s.top.all.Ordered) (hplace : s.top.place? path = .ok place)
    (hentry : s.top.NoEntry table place) (hold : (decode? old).isSome = true)
    (hnew : decode? new = none) (config : InjectConfig) :
    LosesText config table path s t := by
  have hfiles := DirectoryTree.files_congr hroot h.blank_right.symm config.selection
  have hforgiving := Twins.forgiving hordered hplace hentry hold hnew config
  have hrun : ∀ tree : DirectoryTree, runInject config table tree =
      visitTree config.selection config.keepGoing (config.visit table) tree := fun _ => rfl
  cases hgo : config.keepGoing with
  | true =>
      have htree := tree_visitTree_true_related hforgiving.tree hfiles h
      have hresult := result_visitTree_true_forgive hforgiving hfiles h
      rw [hgo] at hrun
      rw [← hrun, ← hrun] at htree hresult
      rcases hresult with heq | ⟨tally, hlost, htally⟩
      · exact .same (htree.agreeBut hplace) heq
      · exact .passes hgo (htree.agreeBut hplace) tally hlost htally
  | false =>
      have hforgive := visitTree_false_forgive hforgiving hfiles h
      rw [hgo] at hrun
      rw [← hrun, ← hrun] at hforgive
      rcases hforgive with
        ⟨htree, heq⟩ | ⟨before, other, after, fault, hlisting, htree, hunread, hstop⟩
      · exact .same (htree.agreeBut hplace) heq
      · rw [Site.unread, Bool.and_eq_true, beq_iff_eq] at hunread
        obtain ⟨hsame, hfault⟩ := hunread
        obtain rfl : fault = .io other .notText := hfault
        have hidle : config.dryRun = true → ∀ tree : DirectoryTree,
            (runInject config table tree).tree = tree := fun hdry =>
          tree_visitTree_of_idle (InjectConfig.tree_visit_of_dryRun hdry table) _ _
        refine .stops hgo other hsame before after hlisting (htree.agreeBut hplace)
          (fun hdry => ?_) hstop
        rw [hidle hdry, hidle hdry]
        exact h.agreeBut hplace

end Runs

/-! ### Noninterference -/

/-- **What is in a file without an entry** makes no difference to a run but by being a text or
not. Whatever bytes the file is given in place of its own, a run leaves it as it is. The other
files end up with the same bytes and the result is the same if the file is a text before and
after, or neither before nor after. If it is a text only before or only after, the run that comes
to no text differs from the other one by the fault that it meets there, and by what it leaves
undone if it stops at it. -/
theorem runInject_noninterference (config : InjectConfig) (table : Table) {tree : DirectoryTree}
    {path : Path} {old : Bytes} (hordered : tree.top.all.Ordered)
    (hold : tree.top.readFile path = .ok old)
    (hentry : path.symbol?.bind table.get? = none) (new : Bytes) :
    ∃ top', tree.top.writeFile path new = .ok top' ∧
      let tree' : DirectoryTree := { tree with top := top' }
      let out := runInject config table tree
      let out' := runInject config table tree'
      (out.tree.top.readFile path = .ok old ∧ out'.tree.top.readFile path = .ok new) ∧
      ((decode? old).isSome = (decode? new).isSome →
        out.tree.top.AgreeBut path out'.tree.top ∧ out.result = out'.result) ∧
      ((decode? old).isSome = true → decode? new = none →
        LosesText config table path tree tree') ∧
      (decode? old = none → (decode? new).isSome = true →
        LosesText config table path tree' tree) := by
  obtain ⟨place, hplace, hslash, hfile⟩ := Site.readFile_eq_ok_iff.mp hold
  refine ⟨tree.top.put (.file new) place, Site.writeFile_of_file? hplace hslash hfile new, ?_⟩
  intro tree' out out'
  have htwins : Twins tree.top place old new tree tree' := .of_put hordered hfile new tree.root
  have hentries : tree.top.NoEntry table place := .of_path hplace hfile hentry
  have hplace' : tree'.top.place? path = .ok place := (htwins.symm.place?_left path).trans hplace
  have hentries' : tree'.top.NoEntry table place := .of_path hplace' htwins.file?_right hentry
  refine ⟨⟨?_, ?_⟩, fun htext => ?_, fun htext hnone => ?_, fun hnone htext => ?_⟩
  · have hout := htwins.left_runInject hordered hentries config
    exact Site.readFile_eq_ok_iff.mpr
      ⟨place, (hout.place?_left path).trans hplace, hslash, hout.file?_left⟩
  · have hout' := htwins.symm.left_runInject hordered hentries config
    exact Site.readFile_eq_ok_iff.mpr
      ⟨place, (hout'.place?_left path).trans hplace, hslash, hout'.file?_left⟩
  · obtain ⟨htrees, hresult⟩ := htwins.runInject_eq rfl hordered hentries htext config
    exact ⟨htrees.agreeBut hplace, hresult⟩
  · exact htwins.losesText rfl hordered hplace hentries htext hnone config
  · exact htwins.symm.of_left.losesText rfl (htwins.symm.ordered_left hordered) hplace' hentries'
      htext hnone config

/-- The file `a/B.js`, which has no entry, is given a byte that is no text. -/
theorem runInject_noninterference_notText :
    let tree : DirectoryTree :=
      ⟨.alone (.folder [97] (.file [66, 46, 106, 115] [120] .nil) .nil), ⟨[46]⟩⟩
    let path : Path := ⟨[97, 47, 66, 46, 106, 115]⟩
    (tree.top.all.Ordered ∧ tree.top.readFile path = .ok [120] ∧
      path.symbol?.bind (Keyed.empty : Table).get? = none) ∧
    ∃ top', tree.top.writeFile path [255] = .ok top' ∧
      (runInject {} .empty tree).tree.top.readFile path = .ok [120] ∧
      (runInject {} .empty { tree with top := top' }).tree.top.readFile path = .ok [255] ∧
      LosesText {} .empty path tree { tree with top := top' } := by
  intro tree path
  have hordered : tree.top.all.Ordered := by decide
  have hold : tree.top.readFile path = .ok [120] := by rfl
  have hentry : path.symbol?.bind (Keyed.empty : Table).get? = none := by decide
  obtain ⟨top', hwrite, hfile, -, hloses, -⟩ :=
    runInject_noninterference {} .empty hordered hold hentry [255]
  exact ⟨⟨hordered, hold, hentry⟩, top', hwrite, hfile.1, hfile.2,
    hloses (by decide) (by decide)⟩

/-- **Bytes that are no text make a difference**, even in a file without an entry: the run stops
at them. -/
theorem not_forall_result_runInject_eq :
    ¬ ∀ (config : InjectConfig) (table : Table) (tree : DirectoryTree)
        (files : List (Except FileFault Path)) (path : Path) (new : Bytes) (top' : Site),
      tree.top.all.Ordered → SourceTree.files tree config.selection = .ok files →
      .ok path ∈ files → path.symbol?.bind table.get? = none →
      tree.top.writeFile path new = .ok top' →
      (runInject config table { tree with top := top' }).result =
        (runInject config table tree).result := by
  intro h
  have heq := h {} .empty
    ⟨.alone (.folder [97] (.file [66, 46, 106, 115] [120] .nil) .nil), ⟨[46]⟩⟩
    [.ok ⟨[97, 47, 66, 46, 106, 115]⟩] ⟨[97, 47, 66, 46, 106, 115]⟩ [255]
    (.alone (.folder [97] (.file [66, 46, 106, 115] [255] .nil) .nil))
    (by decide) (by rfl) (List.mem_singleton_self _) (by decide) (by rfl)
  exact absurd (congrArg Except.isOk heq) (by decide)

end DocBlocks
