import DocBlocks.Proofs.Path.Spelling
import DocBlocks.Proofs.Tree.Agreement

/-!
# One File under Many Spellings

What a tree in memory, a selection and the search for a symbol make of a path depends on its parts
alone, and spellings that mean the same path have the same parts (`Path.meansSame_iff`). So a file
can be written under one of them and read under another, is not there twice, and is wanted, or has a
symbol, under either of them or under neither.

## Main results

* `MemoryTree.writtenAs_write`: writing under one spelling, seen from another.
* `Path.meansSame_spec`: all that does not depend on the spelling.
-/

namespace DocBlocks

/-- Paths count as the same by their parts. -/
theorem Path.compare_eq_iff {p q : Path} : compare p q = .eq ↔ p.parts = q.parts :=
  Std.LawfulEqOrd.compare_eq_iff_eq (a := p.parts) (b := q.parts)

theorem Path.same_iff {p q : Path} : p.same q = true ↔ p.parts = q.parts := beq_iff_eq

namespace MemoryTree

variable {tree : MemoryTree} {p q other : Path} {s : Text}

/-- What a write of a text under one spelling has done to a tree, seen from another spelling. -/
structure WrittenAs (tree tree' : MemoryTree) (p q : Path) (s : Text) : Prop where
  /-- The text is read under the other spelling. -/
  read_eq : SourceTree.read tree' q = .ok s
  /-- The tree has the file once. -/
  one_entry : ∃ kept, tree'.texts.keys.filter q.same = [kept]
  /-- If the tree had the file before, no path has been added. -/
  keys_eq : (tree.get? q).isSome → tree'.texts.keys = tree.texts.keys
  /-- Paths with other parts are read as before. -/
  read_other : ∀ other : Path, other.parts ≠ p.parts →
    SourceTree.read tree' other = SourceTree.read tree other
  /-- The write is recorded under the spelling that was given. -/
  writes_eq : tree'.writes = tree.writes ++ [p]

/-- The tree after a write. -/
def written (tree : MemoryTree) (p : Path) (s : Text) : MemoryTree :=
  ⟨tree.texts.insert p s, tree.writes ++ [p]⟩

theorem get?_written (tree : MemoryTree) (p other : Path) (s : Text) :
    (tree.written p s).get? other =
      if other.parts = p.parts then some s else tree.get? other := by
  have h : (tree.written p s).get? other =
      if compare other p == .eq then some s else tree.get? other :=
    Keyed.get?_insert tree.texts p other s
  simpa only [beq_iff_eq, Path.compare_eq_iff] using h

theorem read_written_of_eq (h : other.parts = p.parts) :
    SourceTree.read (tree.written p s) other = .ok s := by
  simp only [SourceTree.read, get?_written, if_pos h]

theorem read_written_of_ne (h : other.parts ≠ p.parts) :
    SourceTree.read (tree.written p s) other = SourceTree.read tree other := by
  simp only [SourceTree.read, get?_written, if_neg h]

/-- A tree has a file under one spelling only. -/
theorem exists_filter_keys_same (h : (tree.get? q).isSome) :
    ∃ kept, tree.texts.keys.filter q.same = [kept] := by
  obtain ⟨kept, hkept⟩ := Keyed.exists_filter_keys_eq h
  refine ⟨kept, ?_⟩
  rw [← hkept]
  refine List.filter_congr fun k _ => ?_
  rw [Bool.eq_iff_iff, beq_iff_eq, Path.compare_eq_iff, Path.same_iff]

/-- **Writing under one spelling**, seen from another one of the same path. -/
theorem writtenAs_written (h : p.parts = q.parts) : tree.WrittenAs (tree.written p s) p q s where
  read_eq := read_written_of_eq h.symm
  one_entry := exists_filter_keys_same (by rw [get?_written, if_pos h.symm]; rfl)
  keys_eq := by
    intro hpresent
    have hcompare : compare p q = .eq := Path.compare_eq_iff.mpr h
    have hsome : (tree.texts.get? p).isSome := by
      rw [Keyed.get?_congr hcompare]
      exact hpresent
    exact Keyed.keys_insert_of_isSome hsome s
  read_other := fun _ => read_written_of_ne
  writes_eq := rfl

end MemoryTree

/-- **The spelling of a path does not matter.** Spellings mean the same path exactly if they have
the same parts. Of such spellings a selection accepts all or none, and they have the same symbol. A
text that is written to a tree in memory under one of them is read under the others, the tree has
one entry for all of them, and paths with other parts are read as before. A dot and a slash in front
do change the parts of a path, but whether a selection accepts it does not change. -/
theorem Path.meansSame_spec :
    (∀ p q : Path, p.MeansSame q ↔ p.parts = q.parts) ∧
    (∀ p q : Path, p.MeansSame q →
      (∀ selection : Selection, selection.accepts p = selection.accepts q) ∧
      p.symbol? = q.symbol? ∧
      ∀ (tree : MemoryTree) (s : Text), ∃ tree', SourceTree.write tree p s = .ok tree' ∧
        tree.WrittenAs tree' p q s) ∧
    ∀ (p : Path) (selection : Selection),
      selection.accepts ⟨46 :: 47 :: p.spelling⟩ = selection.accepts p := by
  refine ⟨fun p q => meansSame_iff, fun p q h => ⟨fun selection => ?_, ?_, fun tree s =>
    ⟨tree.written p s, rfl, MemoryTree.writtenAs_written h.parts_eq⟩⟩,
    fun p selection => selection.accepts_dotSlash p⟩
  · rw [Selection.accepts, Selection.accepts, h.parts_eq]
  · rw [symbol?, symbol?, h.parts_eq]

/-- Two spellings of which the first has all that makes no difference, and a tree that has the file
under the second. -/
theorem Path.meansSame_spec_dots :
    let p : Path := .ofText "lib/./a//.hidden/./Foo.js/.".toList
    let q : Path := .ofText "lib/a/.hidden/Foo.js".toList
    let tree := (MemoryTree.empty.withFile q "old".toList).withFile (.ofText "./lib/a".toList) []
    p.MeansSame q ∧ (Selection.atDepth 4 ["js".toList]).accepts p = true ∧
      (Selection.atDepth 4 ["js".toList]).accepts q = true ∧ q.symbol? = some "Foo".toList ∧
      (tree.get? q).isSome ∧
      ∃ tree', SourceTree.write tree p "new".toList = .ok tree' ∧
        tree.WrittenAs tree' p q "new".toList ∧ tree'.texts.keys = tree.texts.keys := by
  intro p q tree
  obtain ⟨hiff, hsame, -⟩ := Path.meansSame_spec
  have hmeans : p.MeansSame q := (hiff p q).mpr (by decide +kernel)
  obtain ⟨hselection, hsymbol, hwrite⟩ := hsame p q hmeans
  have haccepts : (Selection.atDepth 4 ["js".toList]).accepts p = true := by decide +kernel
  have hfound : p.symbol? = some "Foo".toList := by decide +kernel
  have hpresent : (tree.get? q).isSome := by decide +kernel
  obtain ⟨tree', heq, hwritten⟩ := hwrite tree "new".toList
  exact ⟨hmeans, haccepts, (hselection _).symm.trans haccepts, hsymbol.symm.trans hfound, hpresent,
    tree', heq, hwritten, hwritten.keys_eq hpresent⟩

end DocBlocks
