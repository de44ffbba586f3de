import DocBlocks.Proofs.Tree.Access

/-!
# Trees That Differ in One File

Two trees may have the same files and directories and differ in the bytes of one file only
(`Twins`). All other files are the same to read in both. Writing such a file in both trees leaves
them such, because a file that can be read is there already and only gets new bytes.

## Main results

* `Twins.read_eq`, `Twins.write`: reading and writing another file in both trees.
* `Twins.of_put`: a tree and what becomes of it when one file is given other bytes.
-/

namespace DocBlocks

/-- Whether two trees have the files and directories of `top`, and the bytes of these files are
the same in both, except those of the file at one place, which are `old` in the first tree and
`new` in the second one. -/
structure Twins (top : Site) (place : List Bytes) (old new : Bytes) (s t : DirectoryTree) :
    Prop where
  blank_left : s.top.blank = top.blank
  blank_right : t.top.blank = top.blank
  file?_left : s.top.all.file? place = some old
  file?_right : t.top.all.file? place = some new
  file?_eq : ∀ other, other ≠ place → s.top.all.file? other = t.top.all.file? other

namespace Twins

variable {top : Site} {place other : List Bytes} {old new content : Bytes}
  {s t : DirectoryTree} {path : Path}

/-! ### Twins -/

theorem symm (h : Twins top place old new s t) : Twins top place new old t s :=
  ⟨h.blank_right, h.blank_left, h.file?_right, h.file?_left,
    fun other hother => (h.file?_eq other hother).symm⟩

/-- A tree with itself. -/
theorem refl (hblank : s.top.blank = top.blank) (hfile : s.top.all.file? place = some old) :
    Twins top place old old s s :=
  ⟨hblank, hblank, hfile, hfile, fun _ _ => rfl⟩

theorem left (h : Twins top place old new s t) : Twins top place old old s s :=
  refl h.blank_left h.file?_left

/-- Twins have the files and directories of the first one. -/
theorem of_left (h : Twins top place old new s t) : Twins s.top place old new s t :=
  ⟨rfl, h.blank_right.trans h.blank_left.symm, h.file?_left, h.file?_right, h.file?_eq⟩

theorem place?_left (h : Twins top place old new s t) (path : Path) :
    s.top.place? path = top.place? path :=
  Site.place?_congr h.blank_left path

theorem ordered_left (h : Twins top place old new s t) (hordered : top.all.Ordered) :
    s.top.all.Ordered := by
  exact hordered.of_blank_eq (congrArg Site.all h.blank_left).symm

/-- **A tree in which one file has been given other bytes** differs from what it was in that file
only. -/
theorem of_put (hordered : top.all.Ordered) (hfile : top.all.file? place = some old) (new : Bytes)
    (root : Path) : Twins top place old new ⟨top, root⟩ ⟨top.put (.file new) place, root⟩ := by
  refine ⟨rfl, Site.blank_put hordered hfile new, hfile, ?_, fun other hother => ?_⟩
  · rw [Site.all_put, Listing.file?_put hordered hfile, if_pos rfl]
  · rw [Site.all_put, Listing.file?_put hordered hfile, if_neg hother.symm]

/-! ### The other files -/

theorem readFile_eq (h : Twins top place old new s t) (hpath : top.place? path ≠ .ok place) :
    s.top.readFile path = t.top.readFile path := by
  refine Site.readFile_congr (h.blank_left.trans h.blank_right.symm) fun other hother => ?_
  refine h.file?_eq other fun heq => hpath ?_
  rw [← h.place?_left, hother, heq]

/-- **Another file** is the same to read in both trees. -/
theorem read_eq (h : Twins top place old new s t) (hpath : top.place? path ≠ .ok place) :
    SourceTree.read s path = SourceTree.read t path := by
  show s.top.readText path = t.top.readText path
  rw [Site.readText, Site.readText, h.readFile_eq hpath]

theorem put (h : Twins top place old new s t) (hordered : top.all.Ordered) (hother : other ≠ place)
    (hfile : s.top.all.file? other = some content) (bytes : Bytes) :
    Twins top place old new { s with top := s.top.put (.file bytes) other }
      { t with top := t.top.put (.file bytes) other } := by
  have hleft := h.ordered_left hordered
  have hright := h.symm.ordered_left hordered
  have hfile' : t.top.all.file? other = some content := (h.file?_eq other hother) ▸ hfile
  constructor
  · exact (Site.blank_put hleft hfile bytes).trans h.blank_left
  · exact (Site.blank_put hright hfile' bytes).trans h.blank_right
  · rw [Site.all_put, Listing.file?_put hleft hfile, if_neg hother, h.file?_left]
  · rw [Site.all_put, Listing.file?_put hright hfile', if_neg hother, h.file?_right]
  · intro third hthird
    rw [Site.all_put, Site.all_put, Listing.file?_put hleft hfile,
      Listing.file?_put hright hfile', h.file?_eq third hthird]

/-- **Another file** that can be read can be written in both trees, and they stay twins. -/
theorem write (h : Twins top place old new s t) (hordered : top.all.Ordered)
    (hpath : top.place? path ≠ .ok place) {text : Text}
    (hread : SourceTree.read s path = .ok text) (text' : Text) :
    ∃ s' t', SourceTree.write s path text' = .ok s' ∧ SourceTree.write t path text' = .ok t' ∧
      Twins top place old new s' t' := by
  obtain ⟨content, hcontent, -⟩ := Site.exists_of_readText hread
  obtain ⟨other, hplace, hslash, hfile⟩ := Site.readFile_eq_ok_iff.mp hcontent
  have hother : other ≠ place := fun heq => hpath (by rw [← h.place?_left, hplace, heq])
  have hplace' : t.top.place? path = .ok other := by
    rw [h.symm.place?_left, ← h.place?_left, hplace]
  have hfile' : t.top.all.file? other = some content := (h.file?_eq other hother) ▸ hfile
  refine ⟨_, _, ?_, ?_, h.put hordered hother hfile (Text.utf8 text')⟩
  · show (s.top.writeFile path (Text.utf8 text')).map _ = _
    rw [Site.writeFile_of_file? hplace hslash hfile]
    rfl
  · show (t.top.writeFile path (Text.utf8 text')).map _ = _
    rw [Site.writeFile_of_file? hplace' hslash hfile']
    rfl

end Twins

end DocBlocks
