import DocBlocks.Proofs.Run.KeepGoing
import DocBlocks.Proofs.Run.Untargeted
import DocBlocks.Proofs.Tree.Apart

/-!
# Runs over Files That Lie Apart

Every file of a directory is visited once at most, because the files of a listing lie apart. So a
visit comes to the text that the file has had from the beginning, and what it returns can be said
without the visits before it. It does not depend on the configuration either: a file that can be
read can be written, and a dry run counts like the run itself.

So the result of a run is made of what its files come to one by one (`Table.visited`), as if the
run had nothing to change (`still`).

## Main results

* `result_visitAll_still`: visits that do not get in each other's way.
* `InjectConfig.result_visit`: what comes of a visit to a file in a directory.
* `DirectoryTree.runInject_eq_ok_iff`: which runs over a directory succeed.
-/

namespace DocBlocks

open Text

/-! ### Visits that do not get in each other's way -/

/-- Visits to nothing, of which is known what comes of them. -/
def still (result : Path → Except FileFault Report) : Unit → Path → Outcome Unit FileFault Report :=
  fun _ path => ⟨(), [], result path⟩

section Still

variable {σ : Type} {visit : σ → Path → Outcome σ FileFault Report} {keeps : σ → Prop}
  {result : Path → Except FileFault Report} {files : List (Except FileFault Path)}
  {keepGoing : Bool} {tree : σ}

/-- **Visits that do not get in each other's way** return what each of them would return if it
came first. -/
theorem result_visitAll_still (hkeeps : ∀ now path, keeps now → keeps (visit now path).tree)
    (hapart : (files.filterMap Except.toOption).Pairwise fun p q =>
      ∀ now, keeps now → (visit (visit now p).tree q).result = (visit now q).result)
    (htree : keeps tree)
    (hresult : ∀ path ∈ files.filterMap Except.toOption, (visit tree path).result = result path)
    (keepGoing : Bool) :
    (visitAll keepGoing visit tree files).result =
      (visitAll keepGoing (still result) () files).result := by
  induction files generalizing tree with
  | nil => rfl
  | cons file rest ih =>
      cases file with
      | error fault => rfl
      | ok path =>
          obtain ⟨hpath, hrest⟩ := List.pairwise_cons.mp hapart
          obtain ⟨hhere, hlater⟩ := List.forall_mem_cons.mp hresult
          have hnext := ih hrest (hkeeps tree path htree) fun other hother =>
            (hpath other hother tree htree).trans (hlater other hother)
          cases hvisit : (visit tree path).result with
          | ok report =>
              have hstill : (still result () path).result = .ok report := hhere.symm.trans hvisit
              rw [visitAll_cons_of_ok keepGoing hvisit, visitAll_cons_of_ok keepGoing hstill, hnext]
          | error fault =>
              have hstill : (still result () path).result = .error fault := hhere.symm.trans hvisit
              cases keepGoing with
              | true =>
                  rw [visitAll_true_cons_of_error hvisit, visitAll_true_cons_of_error hstill, hnext]
              | false =>
                  rw [visitAll_false_cons_of_error hvisit, visitAll_false_cons_of_error hstill]

/-- A listing that starts with a file has no fault if the rest of it has none. -/
theorem exists_map_ok_cons_iff {path : Path} {rest : List (Except FileFault Path)}
    {holds : Path → Prop} :
    (∃ paths : List Path, .ok path :: rest = paths.map .ok ∧ ∀ other ∈ paths, holds other) ↔
      holds path ∧ ∃ paths : List Path, rest = paths.map .ok ∧ ∀ other ∈ paths, holds other := by
  constructor
  · rintro ⟨paths, hpaths, hall⟩
    obtain ⟨first, more, rfl, hfirst, hmore⟩ := List.map_eq_cons_iff.mp hpaths.symm
    obtain rfl : first = path := Except.ok.inj hfirst
    obtain ⟨hhere, hlater⟩ := List.forall_mem_cons.mp hall
    exact ⟨hhere, more, hmore.symm, hlater⟩
  · rintro ⟨hhere, paths, rfl, hlater⟩
    exact ⟨path :: paths, rfl, List.forall_mem_cons.mpr ⟨hhere, hlater⟩⟩

/-- **Visits to nothing come to no fault** exactly if there is none in the listing and none comes
of a file. -/
theorem visitAll_still_eq_ok_iff :
    (∃ report, (visitAll keepGoing (still result) () files).result = .ok ⟨report, []⟩) ↔
      ∃ paths : List Path, files = paths.map .ok ∧
        ∀ path ∈ paths, ∃ report, result path = .ok report := by
  induction files with
  | nil => exact ⟨fun _ => ⟨[], rfl, List.forall_mem_nil _⟩, fun _ => ⟨{}, rfl⟩⟩
  | cons file rest ih =>
      cases file with
      | error fault =>
          constructor
          · rintro ⟨report, h⟩
            exact absurd h (by simp [visitAll])
          · rintro ⟨paths, hpaths, -⟩
            obtain ⟨path, more, -, hpath, -⟩ := List.map_eq_cons_iff.mp hpaths.symm
            exact absurd hpath (by simp)
      | ok path =>
          rw [exists_map_ok_cons_iff, ← ih]
          cases hresult : result path with
          | ok report =>
              have hstill : (still result () path).result = .ok report := hresult
              rw [visitAll_cons_of_ok keepGoing hstill]
              constructor
              · rintro ⟨total, h⟩
                obtain ⟨tally, hlater, htally⟩ := exists_of_map_eq_ok h
                obtain ⟨later, failures⟩ := tally
                obtain ⟨-, rfl⟩ := Tally.mk.inj htally
                exact ⟨⟨report, rfl⟩, later, hlater⟩
              · rintro ⟨-, later, hlater⟩
                refine ⟨report + later, ?_⟩
                rw [hlater]
                rfl
          | error fault =>
              have hstill : (still result () path).result = .error fault := hresult
              constructor
              · rintro ⟨total, h⟩
                cases keepGoing with
                | true =>
                    rw [visitAll_true_cons_of_error hstill] at h
                    obtain ⟨tally, -, htally⟩ := exists_of_map_eq_ok h
                    exact absurd htally (by simp)
                | false =>
                    rw [visitAll_false_cons_of_error hstill] at h
                    exact absurd h (by simp)
              · rintro ⟨⟨report, h⟩, -⟩
                exact absurd h (by simp)

/-- A run that has a listing succeeds if it comes to no fault. -/
theorem visitTree_eq_ok_iff [SourceTree σ] {selection : Selection}
    (hfiles : SourceTree.files tree selection = .ok files) :
    (∃ report, (visitTree selection keepGoing visit tree).result = .ok report) ↔
      ∃ report, (visitAll keepGoing visit tree files).result = .ok ⟨report, []⟩ := by
  rw [visitTree, hfiles]
  dsimp only
  cases (visitAll keepGoing visit tree files).result with
  | error fault => simp
  | ok tally =>
      obtain ⟨report, failures⟩ := tally
      cases failures with
      | nil => simp [Tally.result]
      | cons failure more => simp [Tally.result]

end Still

/-! ### What comes of a file in a directory -/

/-- What comes of a visit to a file, by what is read of it. -/
def Table.visited (table : Table) (path : Path) : Except IoCause Text → Except FileFault Report
  | .error cause => .error (.io path cause)
  | .ok s =>
    match table.injected? path s with
    | none => .ok { scanned := 1 }
    | some done =>
      if hasCrlf s then .error (.crlf path)
      else .ok (done.report + if done.content = s then {} else { written := 1 })

theorem Table.injected?_eq_none_iff {table : Table} {path : Path} {s : Text} :
    table.injected? path s = none ↔ path.symbol?.bind table.get? = none := by
  rw [Table.injected?]
  cases path.symbol? with
  | none => simp
  | some symbol => simp

/-- A file comes to no fault if it can be read as a text, and, if it has an entry, has no line that
ends in `\r\n`. -/
theorem Table.visited_eq_ok_iff {table : Table} {path : Path} {read : Except IoCause Text} :
    (∃ report, table.visited path read = .ok report) ↔
      ∃ s, read = .ok s ∧ (hasCrlf s = true → path.symbol?.bind table.get? = none) := by
  cases read with
  | error cause => simp [Table.visited]
  | ok s =>
      rw [Table.visited, ← Table.injected?_eq_none_iff (s := s)]
      cases hdone : table.injected? path s with
      | none => simp
      | some done => cases hcrlf : hasCrlf s <;> simp [hcrlf]

section Visits

variable {tree : DirectoryTree} {path other : Path} {s : Text} {table : Table}

/-- **A file that can be read** can be written. -/
theorem DirectoryTree.exists_write_of_read (hread : SourceTree.read tree path = .ok s)
    (s' : Text) :
    ∃ place content, tree.top.place? path = .ok place ∧ tree.top.all.file? place = some content ∧
      decode? content = some s ∧
      SourceTree.write tree path s' =
        .ok { tree with top := tree.top.put (.file (utf8 s')) place } := by
  obtain ⟨content, hcontent, hdecode⟩ := Site.exists_of_readText hread
  obtain ⟨place, hplace, hslash, hfile⟩ := Site.readFile_eq_ok_iff.mp hcontent
  refine ⟨place, content, hplace, hfile, hdecode, ?_⟩
  show (tree.top.writeFile path (utf8 s')).map _ = _
  rw [Site.writeFile_of_file? hplace hslash hfile]
  rfl

theorem DirectoryTree.result_commitVisit (hread : SourceTree.read tree path = .ok s)
    (dryRun : Bool) (s' : Text) (log : List Event) (report : Report) :
    (commitVisit .preserve dryRun tree path s s' log report).result =
      .ok (report + if s' = s then {} else { written := 1 }) := by
  rw [commitVisit, commit, LineEndings.apply]
  by_cases hsame : s' = s
  · rw [if_pos hsame, if_pos hsame]
    rfl
  · rw [if_neg hsame, if_neg hsame]
    by_cases hdry : dryRun = true
    · rw [if_pos hdry]
      rfl
    · obtain ⟨place, content, -, -, -, hwrite⟩ := DirectoryTree.exists_write_of_read hread s'
      rw [if_neg hdry, hwrite]
      rfl

/-- **What comes of a visit** to a file in a directory depends on what is read of it only. -/
theorem InjectConfig.result_visit (config : InjectConfig) (table : Table) (tree : DirectoryTree)
    (path : Path) :
    (config.visit table tree path).result = table.visited path (SourceTree.read tree path) := by
  rw [InjectConfig.visit]
  cases hread : SourceTree.read tree path with
  | error cause => rfl
  | ok s =>
      dsimp only
      rw [Table.injectFile_locate, Table.visited]
      cases table.injected? path s with
      | none => rfl
      | some done =>
          cases hasCrlf s with
          | true => rfl
          | false => exact DirectoryTree.result_commitVisit hread config.dryRun _ _ _

/-- **What a visit does to a directory**: nothing, or it gives one file other bytes, which are the
text that its entry makes of it. -/
theorem InjectConfig.tree_visit_cases (config : InjectConfig) (table : Table)
    (hordered : tree.top.all.Ordered) (path : Path) :
    (config.visit table tree path).tree = tree ∨
      ∃ place old s done, tree.top.place? path = .ok place ∧ decode? old = some s ∧
        table.injectFile locate path s = .ok (some done) ∧
        Twins tree.top place old (utf8 done.content) tree (config.visit table tree path).tree := by
  rw [InjectConfig.visit]
  cases hread : SourceTree.read tree path with
  | error cause => exact .inl rfl
  | ok s =>
      dsimp only
      cases hinject : table.injectFile locate path s with
      | error fault => exact .inl rfl
      | ok injected =>
          cases injected with
          | none => exact .inl rfl
          | some done =>
              dsimp only
              rw [commitVisit, commit, LineEndings.apply]
              by_cases hsame : done.content = s
              · rw [if_pos hsame]
                exact .inl rfl
              · rw [if_neg hsame]
                by_cases hdry : config.dryRun = true
                · rw [if_pos hdry]
                  exact .inl rfl
                · obtain ⟨place, old, hplace, hfile, hdecode, hwrite⟩ :=
                    DirectoryTree.exists_write_of_read hread done.content
                  rw [if_neg hdry, hwrite]
                  exact .inr ⟨place, old, s, done, hplace, hdecode, hinject,
                    Twins.of_put hordered hfile _ tree.root⟩

/-- A visit to a file leaves the files that lie apart from it as they are. -/
theorem InjectConfig.read_visit_of_apart (config : InjectConfig) (table : Table)
    (hordered : tree.top.all.Ordered)
    (hapart : ∀ place, tree.top.place? path = .ok place → tree.top.place? other ≠ .ok place) :
    SourceTree.read (config.visit table tree path).tree other = SourceTree.read tree other := by
  rcases config.tree_visit_cases table hordered path with
    hidle | ⟨place, old, s, done, hplace, -, -, htwins⟩
  · rw [hidle]
  · exact (htwins.read_eq (hapart place hplace)).symm

theorem InjectConfig.blank_visit (config : InjectConfig) (table : Table)
    (hordered : tree.top.all.Ordered) (path : Path) :
    (config.visit table tree path).tree.top.blank = tree.top.blank := by
  rcases config.tree_visit_cases table hordered path with
    hidle | ⟨place, old, s, done, -, -, -, htwins⟩
  · rw [hidle]
  · exact htwins.blank_right

/-- A visit leaves the files and directories of a tree as they were at first. -/
theorem InjectConfig.keeps_blank (config : InjectConfig) (table : Table)
    (hordered : tree.top.all.Ordered) {now : DirectoryTree}
    (hnow : now.top.blank = tree.top.blank) :
    (config.visit table now path).tree.top.blank = tree.top.blank :=
  (config.blank_visit table (hordered.of_blank_eq (congrArg Site.all hnow.symm)) path).trans hnow

end Visits

/-! ### Runs over directories -/

section Runs

variable {tree : DirectoryTree} {files : List (Except FileFault Path)}

/-- **All visits to a directory** return what is said of its files as they were. -/
theorem InjectConfig.result_visitAll (config : InjectConfig) (table : Table)
    (hordered : tree.top.all.Ordered)
    (hapart : (files.filterMap Except.toOption).Pairwise fun p q =>
      ∀ place, tree.top.place? p = .ok place → tree.top.place? q ≠ .ok place) (keepGoing : Bool) :
    (visitAll keepGoing (config.visit table) tree files).result =
      (visitAll keepGoing (still fun path => table.visited path (SourceTree.read tree path)) ()
        files).result := by
  have hkeeps : ∀ (now : DirectoryTree) path, now.top.blank = tree.top.blank →
      (config.visit table now path).tree.top.blank = tree.top.blank :=
    fun _ _ => config.keeps_blank table hordered
  refine result_visitAll_still hkeeps ?_ rfl
    (fun path _ => config.result_visit table tree path) keepGoing
  refine hapart.imp fun {p q} hpq now hnow => ?_
  rw [config.result_visit, config.result_visit,
    config.read_visit_of_apart table (hordered.of_blank_eq (congrArg Site.all hnow.symm))]
  intro place hp hq
  rw [Site.place?_congr hnow] at hp hq
  exact hpq place hp hq

/-- A run leaves all files and directories where they are. -/
theorem DirectoryTree.blank_runInject (hordered : tree.top.all.Ordered) (config : InjectConfig)
    (table : Table) : (runInject config table tree).tree.top.blank = tree.top.blank := by
  have hkeeps : ∀ (now : DirectoryTree) path, now.top.blank = tree.top.blank →
      (config.visit table now path).tree.top.blank = tree.top.blank :=
    fun _ _ => config.keeps_blank table hordered
  exact visitTree_keeps hkeeps config.selection config.keepGoing rfl

/-- **A run over a directory succeeds** exactly if the listing has no fault, every file in it can be
read as a text, and none that has an entry has a line that ends in `\r\n`. -/
theorem DirectoryTree.runInject_eq_ok_iff (hordered : tree.top.all.Ordered)
    (hproper : tree.top.all.Proper) (config : InjectConfig) (table : Table) :
    (∃ report, (runInject config table tree).result = .ok report) ↔
      ∃ paths : List Path, SourceTree.files tree config.selection = .ok (paths.map .ok) ∧
        ∀ path ∈ paths, ∃ s, SourceTree.read tree path = .ok s ∧
          (hasCrlf s = true → path.symbol?.bind table.get? = none) := by
  rw [runInject]
  cases hfiles : SourceTree.files tree config.selection with
  | error fault => simp [visitTree, hfiles]
  | ok files =>
      have hapart := tree.pairwise_places hordered hproper hfiles
      rw [visitTree_eq_ok_iff hfiles, config.result_visitAll table hordered hapart,
        visitAll_still_eq_ok_iff]
      simp only [Except.ok.injEq, ← Table.visited_eq_ok_iff]

end Runs

end DocBlocks
