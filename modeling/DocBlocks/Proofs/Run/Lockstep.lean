import DocBlocks.Proofs.Run.Visits

/-!
# What All Visits Keep

What every single visit keeps, a run keeps. This holds of what is said of one tree
(`visitAll_keeps`) and of what is said of two trees that are visited side by side: if every visit
keeps two trees related, then all visits do, and if the visits also return the same, then so do
the runs. Nothing has to be known of what a visit does.

Two runs side by side come to the same files, for a visit does not change what is still to be
visited. A run that stops at a fault stops in both trees or in none, and that is where it is
needed that the visits return the same. A run that goes on does not need it.

## Main results

* `visitAll_keeps`, `visitTree_keeps`: what one run keeps.
* `visitAll_related`, `visitTree_related`: what two runs keep that return the same.
* `tree_visitAll_true_related`, `tree_visitTree_true_related`: what two runs keep that go on at
  faults.
-/

namespace DocBlocks

variable {σ τ : Type} {visit : σ → Path → Outcome σ FileFault Report}
  {visit' : τ → Path → Outcome τ FileFault Report} {files : List (Except FileFault Path)}

/-! ### One run -/

/-- **What every visit keeps**, all visits keep. -/
theorem visitAll_keeps {keeps : σ → Prop}
    (h : ∀ tree path, keeps tree → keeps (visit tree path).tree) (keepGoing : Bool) {tree : σ}
    (htree : keeps tree) : keeps (visitAll keepGoing visit tree files).tree := by
  induction files generalizing tree with
  | nil => exact htree
  | cons file rest ih =>
      cases file with
      | error fault => exact htree
      | ok path =>
          have hvisit := h tree path htree
          cases hresult : (visit tree path).result with
          | ok report =>
              rw [visitAll_cons_of_ok keepGoing hresult]
              exact ih hvisit
          | error fault =>
              cases keepGoing with
              | true =>
                  rw [visitAll_true_cons_of_error hresult]
                  exact ih hvisit
              | false =>
                  rw [visitAll_false_cons_of_error hresult]
                  exact hvisit

/-- The tree that a run leaves is that which its visits leave. -/
theorem tree_visitTree_of_files [SourceTree σ] {selection : Selection} {tree : σ}
    (hfiles : SourceTree.files tree selection = .ok files) (keepGoing : Bool) :
    (visitTree selection keepGoing visit tree).tree =
      (visitAll keepGoing visit tree files).tree := by
  rw [visitTree, hfiles]

theorem visitTree_keeps [SourceTree σ] {keeps : σ → Prop}
    (h : ∀ tree path, keeps tree → keeps (visit tree path).tree) (selection : Selection)
    (keepGoing : Bool) {tree : σ} (htree : keeps tree) :
    keeps (visitTree selection keepGoing visit tree).tree := by
  cases hfiles : SourceTree.files tree selection with
  | error fault =>
      rw [visitTree, hfiles]
      exact htree
  | ok files =>
      rw [tree_visitTree_of_files hfiles]
      exact visitAll_keeps h keepGoing htree

/-! ### Two runs side by side -/

/-- **Two runs whose visits return the same** keep what every two visits keep, and return the
same. -/
theorem visitAll_related {related : σ → τ → Prop}
    (h : ∀ s t path, related s t → related (visit s path).tree (visit' t path).tree ∧
      (visit s path).result = (visit' t path).result)
    (keepGoing : Bool) {s : σ} {t : τ} (hrelated : related s t) :
    related (visitAll keepGoing visit s files).tree (visitAll keepGoing visit' t files).tree ∧
      (visitAll keepGoing visit s files).result =
        (visitAll keepGoing visit' t files).result := by
  induction files generalizing s t with
  | nil => exact ⟨hrelated, rfl⟩
  | cons file rest ih =>
      cases file with
      | error fault => exact ⟨hrelated, rfl⟩
      | ok path =>
          obtain ⟨hvisit, heq⟩ := h s t path hrelated
          obtain ⟨htree, hlater⟩ := ih hvisit
          cases hresult : (visit s path).result with
          | ok report =>
              rw [visitAll_cons_of_ok keepGoing hresult,
                visitAll_cons_of_ok keepGoing (heq ▸ hresult)]
              exact ⟨htree, by rw [hlater]⟩
          | error fault =>
              cases keepGoing with
              | true =>
                  rw [visitAll_true_cons_of_error hresult,
                    visitAll_true_cons_of_error (heq ▸ hresult)]
                  exact ⟨htree, by rw [hlater]⟩
              | false =>
                  rw [visitAll_false_cons_of_error hresult,
                    visitAll_false_cons_of_error (heq ▸ hresult)]
                  exact ⟨hvisit, rfl⟩

/-- **Two runs that go on at faults** keep what every two visits keep, whatever these return. -/
theorem tree_visitAll_true_related {related : σ → τ → Prop}
    (h : ∀ s t path, related s t → related (visit s path).tree (visit' t path).tree)
    {s : σ} {t : τ} (hrelated : related s t) :
    related (visitAll true visit s files).tree (visitAll true visit' t files).tree := by
  induction files generalizing s t with
  | nil => exact hrelated
  | cons file rest ih =>
      cases file with
      | error fault => exact hrelated
      | ok path =>
          rw [tree_visitAll_true_cons, tree_visitAll_true_cons]
          exact ih (h s t path hrelated)

section Trees

variable [SourceTree σ] [SourceTree τ] {related : σ → τ → Prop} {selection : Selection} {s : σ}
  {t : τ}

/-- Two runs over trees with the same listing. -/
theorem visitTree_related
    (h : ∀ s t path, related s t → related (visit s path).tree (visit' t path).tree ∧
      (visit s path).result = (visit' t path).result)
    (hfiles : SourceTree.files s selection = SourceTree.files t selection) (keepGoing : Bool)
    (hrelated : related s t) :
    related (visitTree selection keepGoing visit s).tree
        (visitTree selection keepGoing visit' t).tree ∧
      (visitTree selection keepGoing visit s).result =
        (visitTree selection keepGoing visit' t).result := by
  rw [visitTree, visitTree, hfiles]
  cases SourceTree.files t selection with
  | error fault => exact ⟨hrelated, rfl⟩
  | ok files =>
      obtain ⟨htree, hresult⟩ := visitAll_related h keepGoing hrelated
      refine ⟨htree, ?_⟩
      dsimp only
      rw [hresult]

theorem tree_visitTree_true_related
    (h : ∀ s t path, related s t → related (visit s path).tree (visit' t path).tree)
    (hfiles : SourceTree.files s selection = SourceTree.files t selection)
    (hrelated : related s t) :
    related (visitTree selection true visit s).tree (visitTree selection true visit' t).tree := by
  rw [visitTree, visitTree, hfiles]
  cases SourceTree.files t selection with
  | error fault => exact hrelated
  | ok files => exact tree_visitAll_true_related h hrelated

end Trees

end DocBlocks
