import DocBlocks.Proofs.Run.Lockstep

/-!
# Faults That Only One of Two Runs Meets

Two runs side by side come to the same files, and to most of them the visits return the same. Some
faults are met by the second run only, where the first one does no more than visit the file. Then
a run that goes on at faults returns what it would return if these faults did not count, and a run
that stops at a fault either does the same as the other one or stops at one of these.

## Main results

* `result_visitAll_true_forgive`, `result_visitTree_true_forgive`: runs that go on at faults.
* `visitAll_false_forgive`, `visitTree_false_forgive`: runs that stop at a fault.
-/

namespace DocBlocks

/-! ### What would come of a run -/

/-- What would come of a visit to a file if some faults did not count. The file counts as
visited then. -/
def forgive (spared : Path × FileFault → Bool) (path : Path) :
    Except FileFault Report → Except FileFault Report
  | .ok report => .ok report
  | .error fault => if spared (path, fault) then .ok { scanned := 1 } else .error fault

/-- What would come of all visits if some faults did not count. -/
def Tally.forgive (spared : Path × FileFault → Bool) (tally : Tally) : Tally :=
  ⟨tally.report + { scanned := tally.failures.countP spared },
    tally.failures.filter fun failure => !spared failure⟩

variable {spared : Path × FileFault → Bool} {path : Path} {fault : FileFault}

theorem Tally.forgive_add (spared : Path × FileFault → Bool) (report : Report) (tally : Tally) :
    (⟨report + tally.report, tally.failures⟩ : Tally).forgive spared =
      ⟨report + (tally.forgive spared).report, (tally.forgive spared).failures⟩ := by
  rw [Tally.forgive, Tally.forgive, Tally.mk.injEq]
  refine ⟨?_, rfl⟩
  simp only [Report.add_eq, Nat.add_assoc]

theorem Tally.forgive_cons_of_pos (h : spared (path, fault) = true) (tally : Tally) :
    (⟨tally.report, (path, fault) :: tally.failures⟩ : Tally).forgive spared =
      ⟨{ scanned := 1 } + (tally.forgive spared).report, (tally.forgive spared).failures⟩ := by
  rw [Tally.forgive, Tally.forgive, List.countP_cons_of_pos h,
    List.filter_cons_of_neg (by simpa using h), Tally.mk.injEq]
  refine ⟨?_, rfl⟩
  simp only [Report.add_eq, Report.mk.injEq]
  omega

theorem Tally.forgive_cons_of_neg (h : ¬spared (path, fault) = true) (tally : Tally) :
    (⟨tally.report, (path, fault) :: tally.failures⟩ : Tally).forgive spared =
      ⟨(tally.forgive spared).report, (path, fault) :: (tally.forgive spared).failures⟩ := by
  rw [Tally.forgive, Tally.forgive, List.countP_cons_of_neg h,
    List.filter_cons_of_pos (by simpa using h)]

/-! ### Two runs side by side -/

/-- Whether two visits to trees that are related leave them so, and return the same but for
faults of the second one that are spared the first one. -/
structure Forgiving {σ τ : Type} (related : σ → τ → Prop) (spared : Path × FileFault → Bool)
    (visit : σ → Path → Outcome σ FileFault Report)
    (visit' : τ → Path → Outcome τ FileFault Report) : Prop where
  tree : ∀ s t path, related s t → related (visit s path).tree (visit' t path).tree
  result : ∀ s t path, related s t →
    (visit s path).result = forgive spared path (visit' t path).result

section Visits

variable {σ τ : Type} {visit : σ → Path → Outcome σ FileFault Report}
  {visit' : τ → Path → Outcome τ FileFault Report} {related : σ → τ → Prop} {s : σ} {t : τ}

/-- **Two runs that go on at faults**, of which only the second one meets some. -/
theorem result_visitAll_true_forgive
    (h : Forgiving related spared visit visit')
    {files : List (Except FileFault Path)} (hrelated : related s t) :
    (visitAll true visit s files).result =
      (visitAll true visit' t files).result.map (Tally.forgive spared) := by
  induction files generalizing s t with
  | nil => rfl
  | cons file rest ih =>
      cases file with
      | error fault => rfl
      | ok path =>
          have htree := h.tree s t path hrelated
          have hresult := h.result s t path hrelated
          have hlater := ih htree
          cases hresult' : (visit' t path).result with
          | ok report =>
              rw [hresult', forgive] at hresult
              rw [visitAll_cons_of_ok true hresult, visitAll_cons_of_ok true hresult', hlater]
              cases (visitAll true visit' (visit' t path).tree rest).result with
              | error fault => rfl
              | ok tally => exact congrArg _ (Tally.forgive_add spared report tally).symm
          | error fault =>
              rw [hresult', forgive] at hresult
              by_cases hspared : spared (path, fault) = true
              · rw [if_pos hspared] at hresult
                rw [visitAll_cons_of_ok true hresult, visitAll_true_cons_of_error hresult', hlater]
                cases (visitAll true visit' (visit' t path).tree rest).result with
                | error fault => rfl
                | ok tally => exact congrArg _ (Tally.forgive_cons_of_pos hspared tally).symm
              · rw [if_neg hspared] at hresult
                rw [visitAll_true_cons_of_error hresult, visitAll_true_cons_of_error hresult',
                  hlater]
                cases (visitAll true visit' (visit' t path).tree rest).result with
                | error fault => rfl
                | ok tally => exact congrArg _ (Tally.forgive_cons_of_neg hspared tally).symm

/-- **Two runs that stop at a fault**, of which only the second one meets some: they keep what
every two visits keep and return the same, or the second one stops where the first one does not.
Then what is kept is kept by the second run and what the first one has done up to that file. -/
theorem visitAll_false_forgive (h : Forgiving related spared visit visit')
    (files : List (Except FileFault Path)) (hrelated : related s t) :
    (related (visitAll false visit s files).tree (visitAll false visit' t files).tree ∧
        (visitAll false visit' t files).result = (visitAll false visit s files).result) ∨
      ∃ before path after fault, files = before ++ .ok path :: after ∧
        related (visitAll false visit s (before ++ [.ok path])).tree
          (visitAll false visit' t files).tree ∧
        spared (path, fault) = true ∧ (visitAll false visit' t files).result = .error fault := by
  induction files generalizing s t with
  | nil => exact .inl ⟨hrelated, rfl⟩
  | cons file rest ih =>
      cases file with
      | error fault => exact .inl ⟨hrelated, rfl⟩
      | ok path =>
          have htree := h.tree s t path hrelated
          have hresult := h.result s t path hrelated
          cases hresult' : (visit' t path).result with
          | ok report =>
              rw [hresult', forgive] at hresult
              rw [visitAll_cons_of_ok false hresult, visitAll_cons_of_ok false hresult']
              rcases ih htree with
                ⟨hlater, heq⟩ | ⟨before, other, after, fault, rfl, hlater, hspared, hstop⟩
              · exact .inl ⟨hlater, by rw [heq]⟩
              · refine .inr ⟨.ok path :: before, other, after, fault, rfl, ?_, hspared, ?_⟩
                · rw [List.cons_append, visitAll_cons_of_ok false hresult]
                  exact hlater
                · rw [hstop]
                  rfl
          | error fault =>
              rw [hresult', forgive] at hresult
              rw [visitAll_false_cons_of_error hresult']
              by_cases hspared : spared (path, fault) = true
              · rw [if_pos hspared] at hresult
                refine .inr ⟨[], path, rest, fault, rfl, ?_, hspared, rfl⟩
                rw [List.nil_append, visitAll_cons_of_ok false hresult]
                exact htree
              · rw [if_neg hspared] at hresult
                rw [visitAll_false_cons_of_error hresult]
                exact .inl ⟨htree, rfl⟩

end Visits

/-! ### Runs that list the files themselves -/

section Trees

variable {σ τ : Type} [SourceTree σ] [SourceTree τ]
  {visit : σ → Path → Outcome σ FileFault Report}
  {visit' : τ → Path → Outcome τ FileFault Report} {related : σ → τ → Prop}
  {selection : Selection} {s : σ} {t : τ}

theorem result_visitTree_true_forgive
    (h : Forgiving related spared visit visit')
    (hfiles : SourceTree.files s selection = SourceTree.files t selection)
    (hrelated : related s t) :
    (visitTree selection true visit' t).result = (visitTree selection true visit s).result ∨
      ∃ tally : Tally, (visitTree selection true visit' t).result = tally.result ∧
        (visitTree selection true visit s).result = (tally.forgive spared).result := by
  rw [visitTree, visitTree, hfiles]
  cases SourceTree.files t selection with
  | error fault => exact .inl rfl
  | ok files =>
      dsimp only
      rw [result_visitAll_true_forgive h hrelated]
      cases (visitAll true visit' t files).result with
      | error fault => exact .inl rfl
      | ok tally => exact .inr ⟨tally, rfl, rfl⟩

theorem visitTree_false_forgive (h : Forgiving related spared visit visit')
    (hfiles : SourceTree.files s selection = SourceTree.files t selection)
    (hrelated : related s t) :
    (related (visitTree selection false visit s).tree (visitTree selection false visit' t).tree ∧
        (visitTree selection false visit' t).result =
          (visitTree selection false visit s).result) ∨
      ∃ before path after fault,
        SourceTree.files s selection = .ok (before ++ .ok path :: after) ∧
        related (visitAll false visit s (before ++ [.ok path])).tree
          (visitTree selection false visit' t).tree ∧
        spared (path, fault) = true ∧
        (visitTree selection false visit' t).result = .error (.file fault) := by
  rw [visitTree, visitTree, hfiles]
  cases SourceTree.files t selection with
  | error fault => exact .inl ⟨hrelated, rfl⟩
  | ok files =>
      dsimp only
      rcases visitAll_false_forgive h files hrelated with
        ⟨htree, heq⟩ | ⟨before, path, after, fault, rfl, htree, hspared, hstop⟩
      · exact .inl ⟨htree, by rw [heq]⟩
      · exact .inr ⟨before, path, after, fault, rfl, htree, hspared, by rw [hstop]⟩

end Trees

end DocBlocks
