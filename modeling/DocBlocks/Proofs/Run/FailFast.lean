import DocBlocks.Proofs.Run.Inject

/-!
# Stopping at the First File at Fault

The run that stops at the first file at fault and the run that passes over such files agree up
to that file. If there is none then they are the same. If there is one, both have done the same
to the files before it, and the run that stops has left it and all files behind it alone. So
nothing is lost by stopping but what comes behind, and the fault that is returned is the first
one that the other run would have listed.

## Main results

* `Judges.visitTree_false`: the two runs over a tree in memory, for any manner of visiting
  files one by one.
* `runInject_failFast`: the two runs that put definitions into files, where access to some
  files may be refused.
-/

namespace DocBlocks

open Text

/-! ### Where a listing has a file -/

/-- A file of a listing is an entry, and the files before it are the listing of the entries
before that. -/
theorem exists_append_of_listing_eq {accepts : Path → Bool} {entries : List (Path × Text)}
    {path : Path} {before after : List (Except FileFault Path)}
    (h : listing accepts entries = before ++ .ok path :: after) :
    ∃ init s rest, entries = init ++ (path, s) :: rest ∧ listing accepts init = before := by
  induction entries generalizing before with
  | nil => exact absurd h.symm (List.append_ne_nil_of_right_ne_nil _ (List.cons_ne_nil _ _))
  | cons e entries ih =>
      by_cases haccepts : accepts e.1 = true
      · rw [listing_cons_of_pos haccepts] at h
        cases before with
        | nil =>
            obtain ⟨hpath, -⟩ := List.cons.inj h
            obtain rfl := Except.ok.inj hpath
            exact ⟨[], e.2, entries, rfl, rfl⟩
        | cons file before =>
            obtain ⟨rfl, hrest⟩ := List.cons.inj h
            obtain ⟨init, s, rest, rfl, hinit⟩ := ih hrest
            refine ⟨e :: init, s, rest, rfl, ?_⟩
            rw [listing_cons_of_pos haccepts, hinit]
      · rw [listing_cons_of_neg haccepts] at h
        obtain ⟨init, s, rest, rfl, hinit⟩ := ih h
        refine ⟨e :: init, s, rest, rfl, ?_⟩
        rw [listing_cons_of_neg haccepts, hinit]

/-! ### Trees in memory -/

/-- What is left to say of a run `fast` over a tree that has stopped at a file at fault, with a
run `slow` beside it that has passed over all such files. The two agree on the files before
that file, and `fast` has not touched it or any file behind it. -/
structure StopsAt (path : Path) (tree fast slow : MemoryTree) : Prop where
  get?_of_lt : ∀ q, compare q path = .lt → fast.get? q = slow.get? q
  get?_of_not_lt : ∀ q, compare q path ≠ .lt → fast.get? q = tree.get? q
  writes_eq : ∃ new, fast.writes = tree.writes ++ new ∧ ∀ q ∈ new, compare q path = .lt

section Memory

variable {visit : MemoryTree → Path → Outcome MemoryTree FileFault Report} {judge : Judgement}
  {accepts : Path → Bool}

/-- A run over the entries before a file and a run over all entries agree before that file. -/
theorem StopsAt.of_settled {tree fast slow : MemoryTree} {path : Path} {s : Text}
    {init rest : List (Path × Text)}
    (hentries : tree.texts.entries = init ++ (path, s) :: rest)
    (hfast : fast.texts.entries =
      init.map (fun e => (e.1, judge.finalText accepts e.1 e.2)) ++ (path, s) :: rest)
    (hwrites : fast.writes = tree.writes ++
      (init.filter fun e => judge.finalText accepts e.1 e.2 ≠ e.2).map (·.1))
    (hslow : slow.texts.entries =
      tree.texts.entries.map fun e => (e.1, judge.finalText accepts e.1 e.2)) :
    StopsAt path tree fast slow := by
  have hascending := tree.texts.ascending
  rw [hentries] at hascending
  have hbefore := Keyed.lt_of_mem_before hascending
  have hafter := Keyed.not_lt_of_mem_after hascending
  have hbefore' : ∀ a ∈ init.map (fun e => (e.1, judge.finalText accepts e.1 e.2)),
      compare a.1 path = .lt := by
    intro a ha
    obtain ⟨e, he, rfl⟩ := List.mem_map.mp ha
    exact hbefore e he
  have hafter' : ∀ a ∈ ((path, s) :: rest).map
      (fun e => (e.1, judge.finalText accepts e.1 e.2)), compare a.1 path ≠ .lt := by
    intro a ha
    obtain ⟨e, he, rfl⟩ := List.mem_map.mp ha
    exact hafter e he
  refine ⟨fun q hq => ?_, fun q hq => ?_, _, hwrites, fun q hq => ?_⟩
  · rw [MemoryTree.get?, MemoryTree.get?, Keyed.get?, Keyed.get?, hfast, hslow, hentries,
      List.map_append, Keyed.valueIn_append_of_lt hafter hq,
      Keyed.valueIn_append_of_lt hafter' hq]
  · rw [MemoryTree.get?, MemoryTree.get?, Keyed.get?, Keyed.get?, hfast, hentries,
      Keyed.valueIn_append_of_not_lt hbefore' hq, Keyed.valueIn_append_of_not_lt hbefore hq]
  · obtain ⟨e, he, rfl⟩ := List.mem_map.mp hq
    exact hbefore e (List.mem_filter.mp he).1

/-- A visit to a file at fault leaves the tree alone. -/
theorem Judges.tree_eq_of_result_eq_error (h : Judges visit judge) {tree : MemoryTree}
    {path : Path} {s : Text} {fault : FileFault} (hget : tree.get? path = some s)
    (hfault : (visit tree path).result = .error fault) : (visit tree path).tree = tree := by
  have hresult := h.result_eq tree path s hget
  rw [hfault] at hresult
  rw [h.tree_eq tree path s hget]
  cases hjudge : judge path s with
  | ok verdict =>
      rw [hjudge] at hresult
      exact absurd hresult (by simp [Except.map])
  | error fault' => rw [Verdict.textOr, MemoryTree.settle_self]

/-- A run that stops at the first of some files at fault has treated the entries before it. -/
theorem Judges.exists_stop (h : Judges visit judge) (accepts : Path → Bool)
    (tree : MemoryTree) {report : Report} {path : Path} {fault : FileFault}
    {more : List (Path × FileFault)}
    (htally : judge.tallyOf (tree.texts.entries.filter fun e => accepts e.1) =
      ⟨report, (path, fault) :: more⟩) :
    let out := visitAll false visit tree (listing accepts tree.texts.entries)
    ∃ init s rest, tree.texts.entries = init ++ (path, s) :: rest ∧
      out.result = .error fault ∧
      out.tree.texts.entries =
        init.map (fun e => (e.1, judge.finalText accepts e.1 e.2)) ++ (path, s) :: rest ∧
      out.tree.writes = tree.writes ++
        (init.filter fun e => judge.finalText accepts e.1 e.2 ≠ e.2).map (·.1) := by
  have hall := h.visitAll_entries accepts tree
  obtain ⟨before, after, earlier, hlisting, -, hfault, htree, hresult⟩ :=
    exists_append_of_failures_eq_cons (htally ▸ hall.result_eq)
  obtain ⟨init, s, rest, hsplit, rfl⟩ := exists_append_of_listing_eq hlisting
  have hinit : tree.texts.entries = [] ++ init ++ (path, s) :: rest := hsplit
  have hmid := h.visitAll_listing accepts hinit
  have hget := MemoryTree.get?_of_entries_eq hmid.entries_eq
  rw [h.tree_eq_of_result_eq_error hget hfault] at htree
  refine ⟨init, s, rest, hsplit, hresult, ?_, ?_⟩
  · rw [htree]
    exact hmid.entries_eq
  · rw [htree]
    exact hmid.writes_eq

/-- **The run that stops** at the first of some files at fault. -/
theorem Judges.visitAll_false (h : Judges visit judge) (accepts : Path → Bool)
    (tree : MemoryTree) {report : Report} {path : Path} {fault : FileFault}
    {more : List (Path × FileFault)}
    (htally : judge.tallyOf (tree.texts.entries.filter fun e => accepts e.1) =
      ⟨report, (path, fault) :: more⟩) :
    (visitAll false visit tree (listing accepts tree.texts.entries)).result = .error fault ∧
      StopsAt path tree (visitAll false visit tree (listing accepts tree.texts.entries)).tree
        (visitAll true visit tree (listing accepts tree.texts.entries)).tree := by
  have hslow := (h.visitAll_entries accepts tree).entries_eq
  rw [List.nil_append, List.append_nil] at hslow
  obtain ⟨init, s, rest, hsplit, hresult, hentries, hwrites⟩ := h.exists_stop accepts tree htally
  exact ⟨hresult, StopsAt.of_settled hsplit hentries hwrites hslow⟩

/-- **Agreement up to the first file at fault** of a run `fast` that has stopped there and a run
`slow` that has not; `memory` is what a tree holds, and `tree` is what it has held before. Both
runs have the same report and the same tree, or else there is a first fault, and `fast` has
returned it and stopped at its file. -/
structure AgreeUntilFault {σ : Type} (memory : σ → MemoryTree) (tree : MemoryTree)
    (fast slow : Outcome σ Fault Report) : Prop where
  result_iff : ∀ report, fast.result = .ok report ↔ slow.result = .ok report
  tree_or_stops : (∃ report, fast.result = .ok report ∧ fast.tree = slow.tree) ∨
    ∃ path fault more, slow.result = .error (.files ((path, fault) :: more)) ∧
      fast.result = .error (.file fault) ∧
      StopsAt path tree (memory fast.tree) (memory slow.tree)

/-- **Stopping and going on** over a tree in memory, whatever becomes of its files one by
one. -/
theorem Judges.visitTree_false (h : Judges visit judge) (selection : Selection)
    (tree : MemoryTree) :
    AgreeUntilFault id tree (visitTree selection false visit tree)
      (visitTree selection true visit tree) := by
  obtain ⟨-, -, hslow⟩ := h.visitTree_true selection tree
  cases htally : judge.tallyOf (tree.texts.entries.filter fun e => selection.accepts e.1) with
  | mk report failures =>
      rw [htally] at hslow
      cases failures with
      | nil =>
          have hall := (h.visitAll_entries selection.accepts tree).result_eq
          rw [htally] at hall
          have hfast : visitTree selection false visit tree =
              visitTree selection true visit tree := by
            rw [MemoryTree.visitTree_eq, MemoryTree.visitTree_eq,
              visitAll_false_of_failures_eq_nil hall]
          rw [hfast]
          exact ⟨fun _ => Iff.rfl, Or.inl ⟨report, hslow, rfl⟩⟩
      | cons failure more =>
          obtain ⟨path, fault⟩ := failure
          obtain ⟨hresult, hstops⟩ := h.visitAll_false selection.accepts tree htally
          have hslow : (visitTree selection true visit tree).result =
              .error (.files ((path, fault) :: more)) := hslow
          have hfast : (visitTree selection false visit tree).result = .error (.file fault) := by
            rw [MemoryTree.visitTree_eq]
            dsimp only
            rw [hresult]
          refine ⟨fun _ => ?_, Or.inr ⟨path, fault, more, hslow, hfast, hstops⟩⟩
          rw [hfast, hslow]
          simp only [reduceCtorEq]

/-- A run over a tree in memory treats the entries up to some point and leaves those behind it. -/
theorem Judges.entries_visitTree (h : Judges visit judge) (selection : Selection)
    (keepGoing : Bool) (tree : MemoryTree) :
    ∃ init rest, tree.texts.entries = init ++ rest ∧
      (visitTree selection keepGoing visit tree).tree.texts.entries =
        init.map (fun e => (e.1, judge.finalText selection.accepts e.1 e.2)) ++ rest := by
  have hall := h.visitAll_entries selection.accepts tree
  have hslow : ∃ init rest, tree.texts.entries = init ++ rest ∧
      (visitAll true visit tree (listing selection.accepts tree.texts.entries)).tree.texts.entries =
        init.map (fun e => (e.1, judge.finalText selection.accepts e.1 e.2)) ++ rest :=
    ⟨tree.texts.entries, [], (List.append_nil _).symm, hall.entries_eq⟩
  rw [MemoryTree.visitTree_eq]
  cases keepGoing with
  | true => exact hslow
  | false =>
      cases htally : judge.tallyOf (tree.texts.entries.filter fun e => selection.accepts e.1) with
      | mk report failures =>
          have hresult := hall.result_eq
          rw [htally] at hresult
          cases failures with
          | nil =>
              rw [visitAll_false_of_failures_eq_nil hresult]
              exact hslow
          | cons failure more =>
              obtain ⟨init, s, rest, hsplit, -, hentries, -⟩ :=
                h.exists_stop selection.accepts tree htally
              exact ⟨init, _, hsplit, hentries⟩

end Memory

/-! ### Trees in which access is refused -/

section Guarded

variable {unreadable unwritable : List Path} {tree : MemoryTree}

/-- Where no place of a listing is barred, it is as it is without the guard. -/
theorem Guarded.bar_none (files : List (Except FileFault Path)) : bar none files = files := by
  rw [bar]
  refine (List.map_congr_left ?_).trans (List.zipIdx_map_fst 0 files)
  rintro ⟨file, i⟩ -
  cases file <;> rfl

theorem MemoryTree.files_guard (selection : Selection) :
    SourceTree.files (tree.guard unreadable unwritable) selection =
      SourceTree.files tree selection := by
  show (SourceTree.files tree selection).map (Guarded.bar none) = _
  cases SourceTree.files tree selection with
  | error fault => rfl
  | ok files => rw [Except.map, Guarded.bar_none]

/-- A visit leaves in place what is refused. -/
theorem InjectConfig.visit_guard (config : InjectConfig) (table : Table) (tree : MemoryTree)
    (path : Path) :
    config.visit table (tree.guard unreadable unwritable) path =
      (config.visitGuarded table unreadable unwritable tree path).mapTree
        (MemoryTree.guard unreadable unwritable) := by
  have htree : (config.visit table (tree.guard unreadable unwritable) path).tree =
      ((config.visit table (tree.guard unreadable unwritable) path).tree.tree).guard
        unreadable unwritable := by
    cases hget : tree.get? path with
    | some s =>
        rw [(config.endsAs_visit table hget).tree_eq]
        rfl
    | none =>
        obtain ⟨cause, hread⟩ : ∃ cause,
            SourceTree.read (tree.guard unreadable unwritable) path = .error cause := by
          rw [MemoryTree.read_guard, MemoryTree.read_of_get?_eq_none hget]
          split
          · exact ⟨_, rfl⟩
          · exact ⟨_, rfl⟩
        rw [InjectConfig.visit, hread]
        rfl
  rw [InjectConfig.visitGuarded, Outcome.mapTree, Outcome.mapTree, ← htree]

/-- A run over a guarded tree is a run over the tree, with other visits. -/
theorem runInject_guard (config : InjectConfig) (table : Table) :
    runInject config table (tree.guard unreadable unwritable) =
      (visitTree config.selection config.keepGoing
        (config.visitGuarded table unreadable unwritable) tree).mapTree
          (MemoryTree.guard unreadable unwritable) :=
  visitTree_mapTree (fun _ => MemoryTree.files_guard config.selection)
    (config.visit_guard table) config.keepGoing tree

/-- Runs over a tree agree as the runs do that they stand for. -/
theorem AgreeUntilFault.guard {fast slow : Outcome MemoryTree Fault Report}
    (h : AgreeUntilFault id tree fast slow) :
    AgreeUntilFault Guarded.tree tree
      (fast.mapTree (MemoryTree.guard unreadable unwritable))
      (slow.mapTree (MemoryTree.guard unreadable unwritable)) := by
  refine ⟨h.result_iff, ?_⟩
  rcases h.tree_or_stops with ⟨report, hresult, htree⟩ | hstops
  · refine Or.inl ⟨report, hresult, ?_⟩
    rw [Outcome.mapTree, Outcome.mapTree, htree]
  · exact Or.inr hstops

/-- **Stopping and going on** when definitions are put into files. The run that stops at the
first file at fault agrees up to there with the run that passes over such files, in a tree in
memory and in one where it is refused to read or to write some files, whether the run is dry
or not. -/
theorem runInject_failFast (table : Table) (selection : Selection) (dryRun : Bool)
    (tree : MemoryTree) :
    AgreeUntilFault id tree (runInject { selection, keepGoing := false, dryRun } table tree)
        (runInject { selection, keepGoing := true, dryRun } table tree) ∧
      ∀ unreadable unwritable : List Path,
        AgreeUntilFault Guarded.tree tree
          (runInject { selection, keepGoing := false, dryRun } table
            (tree.guard unreadable unwritable))
          (runInject { selection, keepGoing := true, dryRun } table
            (tree.guard unreadable unwritable)) := by
  constructor
  · exact (InjectConfig.judges { selection, keepGoing := false, dryRun } table).visitTree_false
      selection tree
  · intro unreadable unwritable
    rw [runInject_guard, runInject_guard]
    exact ((InjectConfig.judges_visitGuarded { selection, keepGoing := false, dryRun } table
      unreadable unwritable).visitTree_false selection tree).guard

end Guarded

end DocBlocks
