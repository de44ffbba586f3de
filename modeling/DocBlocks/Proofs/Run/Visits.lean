import DocBlocks.Run.Visit

/-!
# Stopping and Going On

There are two ways to visit the files of a listing: to stop at the first file at fault, and to
pass over such files. Both do the same up to the first file at fault. This module says so of
every tree and of every manner of visiting a file, so that nothing has to be known of what a
visit does.

## Main results

* `visitAll_mapTree`, `visitTree_mapTree`: a run over a tree that stands for another one stands
  for its run.
* `visitAll_false_of_failures_eq_nil`: without files at fault the two runs are the same.
* `exists_append_of_failures_eq_cons`: the run that stops has visited the files before the
  first one at fault, that one, and no more.
-/

namespace DocBlocks

variable {σ τ ε α : Type} {visit : σ → Path → Outcome σ FileFault Report} {tree : σ}
  {path : Path} {rest : List (Except FileFault Path)}

/-! ### One file and the rest -/

theorem Report.add_eq (r s : Report) :
    r + s = ⟨r.scanned + s.scanned, r.targeted + s.targeted, r.written + s.written,
      r.replaced + s.replaced, r.missed + s.missed⟩ := rfl

theorem visitAll_cons_of_ok {report : Report} (keepGoing : Bool)
    (h : (visit tree path).result = .ok report) :
    visitAll keepGoing visit tree (.ok path :: rest) =
      ⟨(visitAll keepGoing visit (visit tree path).tree rest).tree,
        (visit tree path).log ++ (visitAll keepGoing visit (visit tree path).tree rest).log,
        (visitAll keepGoing visit (visit tree path).tree rest).result.map fun tally =>
          { tally with report := report + tally.report }⟩ := by
  rw [visitAll, h]

theorem visitAll_true_cons_of_error {fault : FileFault}
    (h : (visit tree path).result = .error fault) :
    visitAll true visit tree (.ok path :: rest) =
      ⟨(visitAll true visit (visit tree path).tree rest).tree,
        (visit tree path).log ++
          .skipped path fault :: (visitAll true visit (visit tree path).tree rest).log,
        (visitAll true visit (visit tree path).tree rest).result.map fun tally =>
          { tally with failures := (path, fault) :: tally.failures }⟩ := by
  rw [visitAll, h]
  rfl

theorem visitAll_false_cons_of_error {fault : FileFault}
    (h : (visit tree path).result = .error fault) :
    visitAll false visit tree (.ok path :: rest) =
      ⟨(visit tree path).tree, (visit tree path).log, .error fault⟩ := by
  rw [visitAll, h]
  rfl

/-- A run that passes over files at fault goes on with what a visit has left in any case. -/
theorem tree_visitAll_true_cons :
    (visitAll true visit tree (.ok path :: rest)).tree =
      (visitAll true visit (visit tree path).tree rest).tree := by
  cases hvisit : (visit tree path).result with
  | ok report => rw [visitAll_cons_of_ok true hvisit]
  | error fault => rw [visitAll_true_cons_of_error hvisit]

/-! ### Trees that stand for trees -/

/-- The same outcome for another tree. -/
def Outcome.mapTree (f : σ → τ) (out : Outcome σ ε α) : Outcome τ ε α :=
  ⟨f out.tree, out.log, out.result⟩

/-- **A tree that stands for another one**: if each visit does the same to it as to the other
one, then all visits do. -/
theorem visitAll_mapTree {f : σ → τ} {visit' : τ → Path → Outcome τ FileFault Report}
    (h : ∀ tree path, visit' (f tree) path = (visit tree path).mapTree f) (keepGoing : Bool)
    (tree : σ) (files : List (Except FileFault Path)) :
    visitAll keepGoing visit' (f tree) files =
      (visitAll keepGoing visit tree files).mapTree f := by
  induction files generalizing tree with
  | nil => rfl
  | cons file rest ih =>
      cases file with
      | error fault => rfl
      | ok path =>
          have htree : (visit' (f tree) path).tree = f (visit tree path).tree := by
            rw [h, Outcome.mapTree]
          have hresult : (visit' (f tree) path).result = (visit tree path).result := by
            rw [h, Outcome.mapTree]
          have hlog : (visit' (f tree) path).log = (visit tree path).log := by
            rw [h, Outcome.mapTree]
          cases hvisit : (visit tree path).result with
          | ok report =>
              rw [visitAll_cons_of_ok _ (hresult.trans hvisit), visitAll_cons_of_ok _ hvisit,
                htree, hlog, ih]
              rfl
          | error fault =>
              cases keepGoing with
              | true =>
                  rw [visitAll_true_cons_of_error (hresult.trans hvisit),
                    visitAll_true_cons_of_error hvisit, htree, hlog, ih]
                  rfl
              | false =>
                  rw [visitAll_false_cons_of_error (hresult.trans hvisit),
                    visitAll_false_cons_of_error hvisit, htree, hlog]
                  rfl

/-- The same for a run that lists the files itself, if both trees have the same listing. -/
theorem visitTree_mapTree [SourceTree σ] [SourceTree τ] {f : σ → τ}
    {visit' : τ → Path → Outcome τ FileFault Report} {selection : Selection}
    (hfiles : ∀ tree, SourceTree.files (f tree) selection = SourceTree.files tree selection)
    (h : ∀ tree path, visit' (f tree) path = (visit tree path).mapTree f) (keepGoing : Bool)
    (tree : σ) :
    visitTree selection keepGoing visit' (f tree) =
      (visitTree selection keepGoing visit tree).mapTree f := by
  rw [visitTree, visitTree, hfiles]
  cases SourceTree.files tree selection with
  | error fault => rfl
  | ok files =>
      dsimp only
      rw [visitAll_mapTree h]
      rfl

/-! ### The first file at fault -/

theorem exists_of_map_eq_ok {β : Type} {f : α → β} {x : Except ε α} {b : β}
    (h : x.map f = .ok b) : ∃ a, x = .ok a ∧ f a = b := by
  cases x with
  | error e => exact absurd h (by simp [Except.map])
  | ok a => exact ⟨a, rfl, Except.ok.inj h⟩

/-- **Without files at fault** it does not matter whether a run would pass over them. -/
theorem visitAll_false_of_failures_eq_nil {files : List (Except FileFault Path)}
    {report : Report} (h : (visitAll true visit tree files).result = .ok ⟨report, []⟩) :
    visitAll false visit tree files = visitAll true visit tree files := by
  induction files generalizing tree report with
  | nil => rfl
  | cons file rest ih =>
      cases file with
      | error fault => rfl
      | ok path =>
          cases hvisit : (visit tree path).result with
          | ok here =>
              rw [visitAll_cons_of_ok true hvisit] at h
              obtain ⟨tally, hlater, htally⟩ := exists_of_map_eq_ok h
              obtain ⟨later, failures⟩ := tally
              obtain ⟨-, rfl⟩ := Tally.mk.inj htally
              rw [visitAll_cons_of_ok true hvisit, visitAll_cons_of_ok false hvisit, ih hlater]
          | error fault =>
              rw [visitAll_true_cons_of_error hvisit] at h
              obtain ⟨tally, -, htally⟩ := exists_of_map_eq_ok h
              exact absurd (congrArg Tally.failures htally) (List.cons_ne_nil _ _)

/-- **Up to the first file at fault** the two runs do the same. The one that stops leaves the
tree as the visit of that file has left it, and returns the fault. -/
theorem exists_append_of_failures_eq_cons {files : List (Except FileFault Path)}
    {report : Report} {fault : FileFault} {more : List (Path × FileFault)}
    (h : (visitAll true visit tree files).result = .ok ⟨report, (path, fault) :: more⟩) :
    ∃ before after earlier, files = before ++ .ok path :: after ∧
      (visitAll true visit tree before).result = .ok ⟨earlier, []⟩ ∧
      (visit (visitAll true visit tree before).tree path).result = .error fault ∧
      (visitAll false visit tree files).tree =
        (visit (visitAll true visit tree before).tree path).tree ∧
      (visitAll false visit tree files).result = .error fault := by
  induction files generalizing tree report with
  | nil => exact absurd (congrArg Tally.failures (Except.ok.inj h)) (List.cons_ne_nil _ _).symm
  | cons file rest ih =>
      cases file with
      | error fault' => exact absurd h (by simp [visitAll])
      | ok first =>
          cases hvisit : (visit tree first).result with
          | ok here =>
              rw [visitAll_cons_of_ok true hvisit] at h
              obtain ⟨tally, hlater, htally⟩ := exists_of_map_eq_ok h
              obtain ⟨later, failures⟩ := tally
              obtain ⟨-, rfl⟩ := Tally.mk.inj htally
              obtain ⟨before, after, earlier, rfl, hbefore, hfault, htree, hresult⟩ := ih hlater
              refine ⟨.ok first :: before, after, here + earlier, rfl, ?_, ?_, ?_, ?_⟩
              · rw [visitAll_cons_of_ok true hvisit, hbefore]
                rfl
              · rw [visitAll_cons_of_ok true hvisit, hfault]
              · rw [visitAll_cons_of_ok true hvisit, visitAll_cons_of_ok false hvisit, htree]
              · rw [visitAll_cons_of_ok false hvisit, hresult]
                rfl
          | error fault' =>
              rw [visitAll_true_cons_of_error hvisit] at h
              obtain ⟨tally, -, htally⟩ := exists_of_map_eq_ok h
              obtain ⟨heq, -⟩ := List.cons.inj (congrArg Tally.failures htally)
              obtain ⟨rfl, rfl⟩ := Prod.mk.inj heq
              refine ⟨[], rest, {}, rfl, rfl, hvisit, ?_, ?_⟩
              · rw [visitAll_false_cons_of_error hvisit]
                rfl
              · rw [visitAll_false_cons_of_error hvisit]

end DocBlocks
