import DocBlocks.CommandLine.Program
import DocBlocks.Proofs.Run.Apart
import DocBlocks.Proofs.Text.Utf8
import DocBlocks.Proofs.Tree.Agreement

/-!
# How the Program Ends

The program that puts definitions into files succeeds if all that it comes across is in order: the
depth, the definition table, the walk, and every file that is selected. Nothing that it does on the
way counts, so that it ends in the same way whether or not it goes on at faults and whether or not
it writes. What it does before the first file, and what a dry run does, leaves all files as they
are.

A walk is in order if every directory that it looks into can be listed. One that cannot, as its
path is too long for the system, is at fault like a file, although no selected file is.

## Main results

* `run_inject_spec`: when the program succeeds, and when it leaves all files as they are.
* `not_forall_status_eq_zero`: that all selected files are in order is not enough.
-/

namespace DocBlocks.CommandLine

open Text

/-! ### One pass -/

/-- A pass that returns a report succeeds, and any other one fails. -/
theorem status_finishPass (pass : Pass) (root : Path) (log : List Event)
    (outcome : Outcome DirectoryTree Fault Report) :
    (finishPass pass root log outcome).ending.status =
      if outcome.result.isOk then 0 else 1 := by
  rw [finishPass]
  cases outcome.result with
  | ok report => rfl
  | error fault => rfl

theorem isOk_eq_true_iff {ε α : Type} {result : Except ε α} :
    result.isOk = true ↔ ∃ a, result = .ok a := by
  cases result with
  | ok a => simp [Except.isOk, Except.toBool]
  | error e => simp [Except.isOk, Except.toBool]

theorem top_finishPass (pass : Pass) (root : Path) (log : List Event)
    (outcome : Outcome DirectoryTree Fault Report) :
    (finishPass pass root log outcome).top = outcome.tree.top := by
  rw [finishPass]
  cases outcome.result with
  | ok report => rfl
  | error fault => rfl

/-- The definition table is had if its file is a text and holds one. -/
theorem loadTable_eq_ok_iff {top : Site} {path : Path} {table : Table} :
    DirectoryTree.loadTable top path = .ok table ↔
      ∃ s, top.readText path = .ok s ∧ Table.read s = .ok table := by
  rw [DirectoryTree.loadTable]
  cases hread : top.readText path with
  | error cause => simp [Except.mapError, bind, Except.bind]
  | ok s =>
      rw [Except.mapError]
      dsimp only [bind, Except.bind]
      rw [Table.ofFile]
      cases htable : Table.read s with
      | error defect => simp [Except.mapError, htable]
      | ok table' => simp [Except.mapError, htable]

namespace InjectCommand

variable {command : InjectCommand} {top : Site}

/-! ### One command -/

theorem run_of_depth_eq_zero (h : command.depth = 0) :
    command.run top = ⟨top, [], .failure .noDepth⟩ := by
  rw [run, if_pos h]

theorem run_of_loadTable_eq_error (hdepth : command.depth ≠ 0) {fault : Fault}
    (h : DirectoryTree.loadTable top command.table = .error fault) :
    command.run top = ⟨top, [], .failure (.definitions fault)⟩ := by
  rw [run, if_neg hdepth, h]

theorem run_of_loadTable_eq_ok (hdepth : command.depth ≠ 0) {table : Table}
    (h : DirectoryTree.loadTable top command.table = .ok table) :
    command.run top = finishPass .inject command.root [.loaded command.table table.size]
      (runInject command.config table ⟨top, command.root⟩) := by
  rw [run, if_neg hdepth, h]

/-- A command succeeds or fails. -/
theorem status_run (command : InjectCommand) (top : Site) :
    (command.run top).ending.status = 0 ∨ (command.run top).ending.status = 1 := by
  by_cases hdepth : command.depth = 0
  · rw [run_of_depth_eq_zero hdepth]
    exact .inr rfl
  · cases hload : DirectoryTree.loadTable top command.table with
    | error fault =>
        rw [run_of_loadTable_eq_error hdepth hload]
        exact .inr rfl
    | ok table =>
        rw [run_of_loadTable_eq_ok hdepth hload, status_finishPass]
        split
        · exact .inl rfl
        · exact .inr rfl

/-- **A command succeeds** exactly if the depth, the definition table, the walk and all selected
files are in order. -/
theorem status_run_eq_zero_iff (hordered : top.all.Ordered) (hproper : top.all.Proper) :
    (command.run top).ending.status = 0 ↔
      1 ≤ command.depth ∧ ∃ table, DirectoryTree.loadTable top command.table = .ok table ∧
        ∃ paths : List Path, SourceTree.files (⟨top, command.root⟩ : DirectoryTree)
            (.atDepth command.depth command.extensions) = .ok (paths.map .ok) ∧
          ∀ path ∈ paths, ∃ s, top.readText path = .ok s ∧
            (hasCrlf s = true → path.symbol?.bind table.get? = none) := by
  by_cases hdepth : command.depth = 0
  · rw [run_of_depth_eq_zero hdepth]
    constructor
    · exact fun h => absurd h (by simp [Ending.status])
    · exact fun h => absurd hdepth (Nat.ne_of_gt h.1)
  · rw [and_iff_right (Nat.one_le_iff_ne_zero.mpr hdepth)]
    cases hload : DirectoryTree.loadTable top command.table with
    | error fault =>
        rw [run_of_loadTable_eq_error hdepth hload]
        constructor
        · exact fun h => absurd h (by simp [Ending.status])
        · rintro ⟨table, h, -⟩
          exact absurd h (by simp)
    | ok table =>
        have hsucceeds : ∀ ok : Bool, (if ok then (0 : UInt32) else 1) = 0 ↔ ok = true := by decide
        rw [run_of_loadTable_eq_ok hdepth hload, status_finishPass, hsucceeds, isOk_eq_true_iff,
          DirectoryTree.runInject_eq_ok_iff hordered hproper]
        simp only [Except.ok.injEq, exists_eq_left']
        rfl

/-- How a command ends depends neither on whether it goes on at faults nor on whether it writes. -/
theorem status_run_congr (hordered : top.all.Ordered) (hproper : top.all.Proper)
    (keepGoing dryRun : Bool) :
    (({ command with keepGoing, dryRun } : InjectCommand).run top).ending.status =
      (command.run top).ending.status := by
  have hiff : (({ command with keepGoing, dryRun } : InjectCommand).run top).ending.status = 0 ↔
      (command.run top).ending.status = 0 := by
    rw [status_run_eq_zero_iff hordered hproper, status_run_eq_zero_iff hordered hproper]
    rfl
  rcases command.status_run top with hzero | hone
  · rw [hzero, hiff, hzero]
  · rcases status_run { command with keepGoing, dryRun } top with hzero' | hone'
    · exact absurd (hone.symm.trans (hiff.mp hzero')) (by decide)
    · rw [hone, hone']

/-- **Without a run, and on a dry run**, all files stay as they are. -/
theorem top_run_eq (h : command.depth = 0 ∨
    (∀ table, DirectoryTree.loadTable top command.table ≠ .ok table) ∨ command.dryRun = true) :
    (command.run top).top = top := by
  by_cases hdepth : command.depth = 0
  · rw [run_of_depth_eq_zero hdepth]
  · cases hload : DirectoryTree.loadTable top command.table with
    | error fault => rw [run_of_loadTable_eq_error hdepth hload]
    | ok table =>
        rw [run_of_loadTable_eq_ok hdepth hload, top_finishPass]
        rcases h with h | h | hdry
        · exact absurd h hdepth
        · exact absurd hload (h table)
        · have hconfig : command.config.dryRun = true := hdry
          rw [runInject, tree_visitTree_of_idle (InjectConfig.tree_visit_of_dryRun hconfig table)]

end InjectCommand

theorem run_of_read_eq_inject {arguments : List Text} {verbosity : Verbosity}
    {command : InjectCommand} (h : read arguments = .ok ⟨verbosity, .inject command⟩)
    (top : Site) : run arguments top = command.run top := by
  rw [run, h]
  rfl

/-! ### The program -/

/-- **How the program ends** that puts definitions into files, in any site in which the names of
each directory ascend and are names. Writing to a file that is there succeeds in a site
(`Site.writeFile_of_file?`). The root and the file of the definitions may lie anywhere in it.

1. It succeeds exactly if the depth is at least one, the definition table is a text and holds
   definitions, no directory that the walk looks into is at fault, and every selected file is a
   text, without a line that ends in `\r\n` if there is an entry for it.
2. It ends in the same way whether or not it goes on at faults and whether or not it writes.
3. All files stay as they are if the depth is zero, if the definitions cannot be had, and on a dry
   run. -/
theorem run_inject_spec {arguments : List Text} {verbosity : Verbosity} {command : InjectCommand}
    (hread : read arguments = .ok ⟨verbosity, .inject command⟩) {top : Site}
    (hordered : top.all.Ordered) (hproper : top.all.Proper) :
    ((run arguments top).ending.status = 0 ↔
      1 ≤ command.depth ∧ ∃ definitions table, top.readText command.table = .ok definitions ∧
        Table.read definitions = .ok table ∧
        ∃ paths : List Path, SourceTree.files (⟨top, command.root⟩ : DirectoryTree)
            (.atDepth command.depth command.extensions) = .ok (paths.map .ok) ∧
          ∀ path ∈ paths, ∃ s, top.readText path = .ok s ∧
            (hasCrlf s = true → path.symbol?.bind table.get? = none)) ∧
    (∀ (others : List Text) (verbosity' : Verbosity) (keepGoing dryRun : Bool),
      read others = .ok ⟨verbosity', .inject { command with keepGoing, dryRun }⟩ →
        (run others top).ending.status = (run arguments top).ending.status) ∧
    (command.depth = 0 ∨
        (∀ definitions table, top.readText command.table = .ok definitions →
          Table.read definitions ≠ .ok table) ∨
        command.dryRun = true →
      (run arguments top).top = top) := by
  rw [run_of_read_eq_inject hread]
  refine ⟨?_, ?_, ?_⟩
  · rw [InjectCommand.status_run_eq_zero_iff hordered hproper]
    simp only [loadTable_eq_ok_iff]
    refine and_congr_right fun _ => ?_
    constructor
    · rintro ⟨table, ⟨definitions, hdefinitions, htable⟩, hpaths⟩
      exact ⟨definitions, table, hdefinitions, htable, hpaths⟩
    · rintro ⟨definitions, table, hdefinitions, htable, hpaths⟩
      exact ⟨table, ⟨definitions, hdefinitions, htable⟩, hpaths⟩
  · intro others verbosity' keepGoing dryRun hothers
    rw [run_of_read_eq_inject hothers]
    exact InjectCommand.status_run_congr hordered hproper keepGoing dryRun
  · intro h
    refine InjectCommand.top_run_eq (h.imp_right (Or.imp_left fun hnone table hload => ?_))
    obtain ⟨definitions, hdefinitions, htable⟩ := loadTable_eq_ok_iff.mp hload
    exact hnone definitions table hdefinitions htable

/-- A directory `w` with a file that has an entry, and with one that ends its lines in another way
and has none. The program is started there, and finds the definitions one directory above. -/
theorem run_inject_spec_two_files :
    let top : Site :=
      ⟨.file (utf8 "d.json".toList) (utf8 "\x7b\"C\":[[],null]\x7d".toList)
        (.folder (utf8 "w".toList)
          (.folder (utf8 "a".toList)
            (.file (utf8 "B.js".toList) (utf8 "b\r\n".toList)
              (.file (utf8 "C.js".toList) (utf8 "/** c */\nclass C".toList) .nil)) .nil) .nil),
        [utf8 "w".toList]⟩
    let arguments : List Text :=
      ["inject".toList, "--defs".toList, "../d.json".toList, "--root".toList, "/w".toList]
    (run (arguments ++ ["--dry-run".toList]) top).ending.status = 0 ∧
      (run (arguments ++ ["--dry-run".toList]) top).top = top ∧
      (run (arguments ++ ["--keep-going".toList]) top).ending.status = 0 := by
  intro top arguments
  have hread : read (arguments ++ ["--dry-run".toList]) = .ok ⟨.normal, .inject
      ⟨.ofText "/w".toList, some (.ofText "../d.json".toList), 2, ["js".toList, "ts".toList],
        false, true⟩⟩ := by
    decide +kernel
  have hothers : read (arguments ++ ["--keep-going".toList]) = .ok ⟨.normal, .inject
      ⟨.ofText "/w".toList, some (.ofText "../d.json".toList), 2, ["js".toList, "ts".toList],
        true, false⟩⟩ := by
    decide +kernel
  have hordered : top.all.Ordered := by decide +kernel
  obtain ⟨hstatus, hsame, htop⟩ := run_inject_spec hread hordered (by decide +kernel)
  have hzero : (run (arguments ++ ["--dry-run".toList]) top).ending.status = 0 := by
    refine hstatus.mpr ⟨by decide, "\x7b\"C\":[[],null]\x7d".toList,
      .ofPairs [("C".toList, ⟨[], .empty⟩)], by decide +kernel, by decide +kernel,
      [.ofText "/w/a/B.js".toList, .ofText "/w/a/C.js".toList], by decide +kernel, ?_⟩
    refine List.forall_mem_cons.mpr ⟨⟨"b\r\n".toList, by decide +kernel, fun _ => ?_⟩,
      List.forall_mem_singleton.mpr
        ⟨"/** c */\nclass C".toList, by decide +kernel, fun h => ?_⟩⟩
    · decide +kernel
    · exact absurd h (by decide)
  exact ⟨hzero, htop (.inr (.inr rfl)), (hsame _ _ true false hothers).trans hzero⟩

/-! ### A directory that cannot be listed -/

/-- A long way down, with more dots behind it than are needed to make the path of any directory
below it too long. -/
def longRoot : Text :=
  ['/'].intercalate (List.replicate 19 (List.replicate 200 's') ++ List.replicate 138 ['.'])

theorem spelling_longRoot :
    (Path.ofText longRoot).spelling =
      [47].intercalate (List.replicate 19 (List.replicate 200 115) ++ List.replicate 138 [46]) := by
  have hname : (List.replicate 200 's').flatMap String.utf8EncodeChar =
      List.replicate 200 115 := by decide +kernel
  rw [Path.ofText, utf8, longRoot, flatMap_intercalate, List.map_append, List.map_replicate,
    List.map_replicate, hname]
  rfl

theorem pieces_longRoot :
    (Path.ofText longRoot).pieces =
      List.replicate 19 (List.replicate 200 115) ++ List.replicate 138 [46] := by
  rw [Path.pieces, spelling_longRoot]
  refine pieces_intercalate_of_forall_not rfl (fun piece hpiece b hb => ?_) (by simp)
  rcases List.mem_append.mp hpiece with h | h
  · rw [List.eq_of_mem_replicate h] at hb
    rw [List.eq_of_mem_replicate hb]
    rfl
  · rw [List.eq_of_mem_replicate h, List.mem_singleton] at hb
    rw [hb]
    rfl

theorem length_longRoot : (Path.ofText longRoot).spelling.length = 4094 := by
  have hlength := length_pieces Path.isSlash (Path.ofText longRoot).spelling
  rw [← Path.pieces, pieces_longRoot] at hlength
  simp only [List.flatten_append, List.flatten_replicate_replicate, List.length_append,
    List.length_replicate, List.flatten_replicate_singleton] at hlength
  omega

theorem zero_not_mem_longRoot : 0 ∉ (Path.ofText longRoot).spelling := by
  intro hzero
  rw [spelling_longRoot] at hzero
  rcases mem_of_mem_intercalate hzero with h | ⟨piece, hpiece, h⟩
  · exact absurd h (by decide)
  · rcases List.mem_append.mp hpiece with hname | hdot
    · rw [List.eq_of_mem_replicate hname] at h
      exact absurd (List.eq_of_mem_replicate h) (by decide)
    · rw [List.eq_of_mem_replicate hdot] at h
      exact absurd h (by decide)

theorem startPath_longRoot : startPath (.ofText longRoot) = some (.ofText longRoot) := by
  refine startPath_of_forall_ne_nil (fun piece hpiece => ?_) ?_
  · rw [pieces_longRoot] at hpiece
    rcases List.mem_append.mp hpiece with h | h
    · rw [List.eq_of_mem_replicate h]
      simp
    · rw [List.eq_of_mem_replicate h]
      simp
  · rw [pieces_longRoot]
    simp

/-- A directory below the root has a path that is too long. -/
theorem not_fits_join_longRoot : ¬((Path.ofText longRoot).join (utf8 "dir".toList)).fits := by
  have hlength := Path.length_add_le_join (.ofText longRoot) (utf8 "dir".toList)
  have hdir : (utf8 "dir".toList).length = 3 := by decide
  rw [length_longRoot, hdir] at hlength
  rw [Path.fits, decide_eq_true_eq, Path.limit]
  omega

/-- **That all selected files are in order is not enough**: a directory that the walk looks into may
be at fault. -/
theorem not_forall_status_eq_zero :
    ¬ ∀ (arguments : List Text) (verbosity : Verbosity) (command : InjectCommand) (top : Site)
        (definitions : Text) (table : Table) (files : List (Except FileFault Path)),
      read arguments = .ok ⟨verbosity, .inject command⟩ → top.all.Ordered → top.all.Proper →
      1 ≤ command.depth → top.readText command.table = .ok definitions →
      Table.read definitions = .ok table →
      SourceTree.files (⟨top, command.root⟩ : DirectoryTree)
        (.atDepth command.depth command.extensions) = .ok files →
      (∀ path, .ok path ∈ files → ∃ s, top.readText path = .ok s ∧
        (hasCrlf s = true → path.symbol?.bind table.get? = none)) →
      (run arguments top).ending.status = 0 := by
  intro hall
  let inside : Listing := .folder (utf8 "dir".toList) (.file (utf8 "b.js".toList) [] .nil) .nil
  let top : Site := ⟨.file (utf8 "d.json".toList) (utf8 "\x7b\x7d".toList)
    (Listing.nest (List.replicate 200 115) inside 19), []⟩
  let arguments : List Text :=
    ["inject".toList, "--defs".toList, "d.json".toList, "--root".toList, longRoot]
  have hread : read arguments = .ok ⟨.normal, .inject ⟨.ofText longRoot,
      some (.ofText "d.json".toList), 2, ["js".toList, "ts".toList], false, false⟩⟩ := by rfl
  have hordered : top.all.Ordered := by decide +kernel
  have hproper : top.all.Proper := by decide +kernel
  let place : List Bytes := List.replicate 19 (List.replicate 200 115)
  have hnode : top.all.node? (top.start ++ place) = some (.folder inside) := by decide +kernel
  have hname : IsName (List.replicate 200 115) ∧
      (List.replicate 200 (115 : UInt8)).length ≤ Part.nameLimit := by decide +kernel
  have hplace : top.place? (.ofText longRoot) = .ok (top.start ++ place) :=
    Site.place?_of_dots pieces_longRoot (by simp [place])
      (fun name h => List.eq_of_mem_replicate h ▸ hname) zero_not_mem_longRoot
      (by rw [Path.fits, length_longRoot]; rfl) hnode
  have hfiles : SourceTree.files (⟨top, .ofText longRoot⟩ : DirectoryTree)
      (.atDepth 2 ["js".toList, "ts".toList]) =
        .ok [.error (.io ((Path.ofText longRoot).join (utf8 "dir".toList)) .nameTooLong)] :=
    DirectoryTree.files_of_not_fits hplace hnode (by rw [Path.ofText, decode?_utf8]; rfl)
      (by decide +kernel) startPath_longRoot not_fits_join_longRoot (Nat.le_refl 2)
  have hzero := hall arguments .normal _ top "\x7b\x7d".toList .empty _ hread hordered hproper
    (by decide) (by decide +kernel) (by decide +kernel) hfiles (by simp)
  rw [run_of_read_eq_inject hread, InjectCommand.status_run_eq_zero_iff hordered hproper] at hzero
  obtain ⟨-, table, -, paths, hpaths, -⟩ := hzero
  cases paths with
  | nil => exact absurd (Except.ok.inj (hfiles.symm.trans hpaths)) (by simp)
  | cons path paths => exact absurd (Except.ok.inj (hfiles.symm.trans hpaths)) (by simp)

end DocBlocks.CommandLine
