import DocBlocks.Proofs.Tree.Files

/-!
# Two Spellings of a Root

A directory can be spelled in many ways as a root: dots and slashes may be put in without changing
where it leads. What is found below two such spellings is the same if the selection misses
everything below both of them or below neither. If it misses everything below just one of them,
what is found is the same only if there is nothing to be found at all.

A selection by depth misses everything below `./src` and nothing below `src`, so the spelling does
matter.

## Main results

* `DirectoryTree.files_eq_iff`: when the same is found below two spellings of a root.
-/

namespace DocBlocks.DirectoryTree

open Listing

/-- What is found below a root, up to its spelling. -/
theorem exists_files (tree : DirectoryTree) {inside : Listing} {place : List Bytes}
    (hplace : tree.top.place? tree.root = .ok place)
    (hinside : tree.top.all.node? place = some (.folder inside))
    (htext : (Text.decode? tree.root.spelling).isSome) (hnamed : inside.Named)
    (hfits : ∀ start ∈ startPath tree.root, inside.FitsBelow start) (selection : Selection) :
    ∃ paths : List Path, SourceTree.files tree selection = .ok (paths.map .ok) ∧
      paths.map Path.parts = if selection.Misses tree.root then [] else
        ((inside.contents []).filter fun e => selection.acceptsParts (e.1.map .name)).map
          fun e => tree.root.plainParts ++ e.1.map .name := by
  by_cases hmisses : selection.Misses tree.root
  · exact ⟨[], files_of_misses hplace hinside htext hnamed hfits hmisses,
      (if_pos hmisses).symm⟩
  · cases hstart : startPath tree.root with
    | none => exact absurd (.inl hstart) hmisses
    | some start =>
        refine ⟨((inside.contents []).filter fun e => selection.acceptsParts (e.1.map .name)).map
          fun e => start.below e.1, ?_, ?_⟩
        · rw [List.map_map]
          exact files_of_not_misses hplace hinside htext hnamed hstart (hfits start hstart) hmisses
        · rw [if_neg hmisses, List.map_map]
          refine List.map_congr_left fun e he => ?_
          exact parts_below_startPath hplace hstart hnamed (List.mem_filter.mp he).1

/-- Two lists, each of which may be missing, have the same elements if both are missing or neither
is, or if there are none. -/
theorem forall_mem_ite_iff {α : Type} {p q : Prop} [Decidable p] [Decidable q] (found : List α) :
    (∀ a, a ∈ (if p then [] else found) ↔ a ∈ (if q then [] else found)) ↔
      ((p ↔ q) ∨ found = []) := by
  by_cases hp : p
  · by_cases hq : q
    · simp [hp, hq]
    · simp [hp, hq, List.eq_nil_iff_forall_not_mem]
  · by_cases hq : q
    · simp [hp, hq, List.eq_nil_iff_forall_not_mem]
    · simp [hp, hq]

/-- **Two spellings of a root.** The same is found below both, path by path, exactly if the
selection misses everything below both or below neither, or if no file below the directory is
accepted. -/
theorem files_eq_iff {top : Site} {inside : Listing} {root root' : Path} {place : List Bytes}
    (hparts : root.plainParts = root'.plainParts) (hplace : top.place? root = .ok place)
    (hplace' : top.place? root' = .ok place)
    (hinside : top.all.node? place = some (.folder inside))
    (htext : (Text.decode? root.spelling).isSome) (htext' : (Text.decode? root'.spelling).isSome)
    (hnamed : inside.Named) (hfits : ∀ start ∈ startPath root, inside.FitsBelow start)
    (hfits' : ∀ start ∈ startPath root', inside.FitsBelow start) (selection : Selection) :
    ∃ paths paths' : List Path,
      SourceTree.files (⟨top, root⟩ : DirectoryTree) selection = .ok (paths.map .ok) ∧
      SourceTree.files (⟨top, root'⟩ : DirectoryTree) selection = .ok (paths'.map .ok) ∧
      ((∀ parts, parts ∈ paths.map Path.parts ↔ parts ∈ paths'.map Path.parts) ↔
        ((selection.Misses root ↔ selection.Misses root') ∨
          ∀ e ∈ inside.contents [], ¬selection.acceptsParts (e.1.map .name))) := by
  obtain ⟨paths, hfiles, heq⟩ :=
    exists_files ⟨top, root⟩ hplace hinside htext hnamed hfits selection
  obtain ⟨paths', hfiles', heq'⟩ :=
    exists_files ⟨top, root'⟩ hplace' hinside htext' hnamed hfits' selection
  refine ⟨paths, paths', hfiles, hfiles', ?_⟩
  rw [heq, heq', ← hparts, forall_mem_ite_iff, List.map_eq_nil_iff, List.filter_eq_nil_iff]

/-- The root `src` is spelled `./src`, and there is a file `src/a/Foo.js` two names below it. -/
theorem files_eq_iff_dot :
    let top : Site := ⟨.folder [115, 114, 99]
      (.folder [97] (.file [70, 111, 111, 46, 106, 115] [120] .nil) .nil) .nil, []⟩
    let root : Path := ⟨[115, 114, 99]⟩
    let root' : Path := ⟨[46, 47, 115, 114, 99]⟩
    let selection := Selection.atDepth 2 [['j', 's']]
    (root.plainParts = root'.plainParts ∧ top.place? root = .ok [[115, 114, 99]] ∧
      top.place? root' = .ok [[115, 114, 99]]) ∧
    ∃ paths paths' : List Path,
      SourceTree.files (⟨top, root⟩ : DirectoryTree) selection = .ok (paths.map .ok) ∧
      SourceTree.files (⟨top, root'⟩ : DirectoryTree) selection = .ok (paths'.map .ok) ∧
      ¬∀ parts, parts ∈ paths.map Path.parts ↔ parts ∈ paths'.map Path.parts := by
  intro top root root' selection
  have hparts : root.plainParts = root'.plainParts := by decide
  have hplace : top.place? root = .ok [[115, 114, 99]] := by rfl
  have hplace' : top.place? root' = .ok [[115, 114, 99]] := by rfl
  have hfits : ∀ start ∈ startPath root,
      (Listing.folder [97] (.file [70, 111, 111, 46, 106, 115] [120] .nil) .nil).FitsBelow
        start := by
    decide
  have hfits' : ∀ start ∈ startPath root',
      (Listing.folder [97] (.file [70, 111, 111, 46, 106, 115] [120] .nil) .nil).FitsBelow
        start := by
    decide
  obtain ⟨paths, paths', hfiles, hfiles', hiff⟩ :=
    files_eq_iff hparts hplace hplace' (by rfl) (by decide) (by decide) (by decide) hfits hfits'
      selection
  refine ⟨⟨hparts, hplace, hplace'⟩, paths, paths', hfiles, hfiles', fun hsame => ?_⟩
  rcases hiff.mp hsame with hmisses | hnone
  · exact absurd hmisses (by decide)
  · exact absurd hnone (by decide)

/-- **The spelling of a root matters**: a selection by depth finds a file below `src` that it does
not find below `./src`. -/
theorem not_forall_files_eq :
    ¬ ∀ (top : Site) (inside : Listing) (root root' : Path) (place : List Bytes)
        (selection : Selection) (paths paths' : List Path),
      root.plainParts = root'.plainParts → top.place? root = .ok place →
      top.place? root' = .ok place → top.all.node? place = some (.folder inside) →
      top.all.Ordered → top.all.Named →
      SourceTree.files (⟨top, root⟩ : DirectoryTree) selection = .ok (paths.map .ok) →
      SourceTree.files (⟨top, root'⟩ : DirectoryTree) selection = .ok (paths'.map .ok) →
      ∀ parts, parts ∈ paths.map Path.parts ↔ parts ∈ paths'.map Path.parts := by
  intro h
  have hsame := h
    ⟨.folder [115, 114, 99]
      (.folder [97] (.file [70, 111, 111, 46, 106, 115] [120] .nil) .nil) .nil, []⟩
    (.folder [97] (.file [70, 111, 111, 46, 106, 115] [120] .nil) .nil)
    ⟨[115, 114, 99]⟩ ⟨[46, 47, 115, 114, 99]⟩ [[115, 114, 99]] (.atDepth 2 [['j', 's']])
    [⟨[115, 114, 99, 47, 97, 47, 70, 111, 111, 46, 106, 115]⟩] []
    (by decide) (by rfl) (by rfl) (by rfl) (by decide) (by decide) (by rfl) (by rfl)
  exact absurd ((hsame _).mp (List.mem_singleton_self _)) List.not_mem_nil

end DocBlocks.DirectoryTree
