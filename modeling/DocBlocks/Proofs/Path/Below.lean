import DocBlocks.Proofs.Text.Pieces
import DocBlocks.Tree.Pattern

/-!
# Paths Below a Path

The parts of a path that is put together with something behind it are its own parts and those of
what stands behind, and it makes no difference whether it ends with a slash. So the parts of a
path below another one start with the parts of that one, and go on with the names on the way.

The same is so of the pieces between the slashes, if a slash at the end starts no new piece
(`rootPieces`), and what is said of the parts comes from that.

## Main results

* `pieces_join`: the pieces of a path with one more piece.
* `Path.parts_join`: the parts of a path with one more piece.
* `Path.parts_below`: the parts of a path below another one.
-/

namespace DocBlocks

theorem filterMap_cons_eq_append {α β : Type} (f : α → Option β) (a : α) (s : List α) :
    (a :: s).filterMap f = (f a).toList ++ s.filterMap f := by
  cases h : f a with
  | none => rw [List.filterMap_cons_none h, Option.toList_none, List.nil_append]
  | some b => rw [List.filterMap_cons_some h, Option.toList_some, List.singleton_append]

/-! ### Names -/

/-- Whether bytes are the name of an entry of a directory, rather than a way through one. -/
def IsName (name : Bytes) : Prop := 47 ∉ name ∧ name ≠ [] ∧ name ≠ [46] ∧ name ≠ [46, 46]

instance : DecidablePred IsName := fun _ => inferInstanceAs (Decidable (_ ∧ _ ∧ _ ∧ _))

theorem IsName.inner? {name : Bytes} (h : IsName name) : Part.inner? name = some (.name name) := by
  obtain ⟨-, hne, hdot, hdots⟩ := h
  rw [Part.inner?, if_neg (not_or.mpr ⟨hne, hdot⟩), if_neg hdots]

/-- Bytes that are no name right away have the same parts at the start of a path as behind a
slash. -/
theorem leading_eq_toList_inner? {piece : Bytes} (hne : piece ≠ []) (hdot : piece ≠ [46])
    (alone : Bool) : Part.leading piece alone = (Part.inner? piece).toList := by
  have hnone : ¬(piece = [] ∨ piece = [46]) := not_or.mpr ⟨hne, hdot⟩
  rw [Part.leading, if_neg hne, if_neg hdot, Part.inner?, if_neg hnone]
  split
  · rfl
  · rfl

namespace Path

variable {p : Path} {piece : Bytes}

theorem pieces_of_not_mem (h : 47 ∉ piece) : pieces ⟨piece⟩ = [piece] := by
  refine pieces_of_forall_not fun b hb => ?_
  rw [isSlash, beq_eq_false_iff_ne]
  rintro rfl
  exact h hb

/-- The parts of a path of one piece. -/
theorem parts_of_not_mem (h : 47 ∉ piece) (hne : piece ≠ []) (hdot : piece ≠ [46]) :
    parts ⟨piece⟩ = (Part.inner? piece).toList := by
  rw [parts, pieces_of_not_mem h]
  dsimp only
  rw [leading_eq_toList_inner? hne hdot, List.filterMap_nil, List.append_nil]

/-- The bytes of a path with the slash that comes before what is put behind it. There is none
behind an empty path, and no other one behind a slash. -/
def room (p : Path) : Nat :=
  if p.spelling.isEmpty || p.spelling.getLast? == some 47 then p.spelling.length
  else p.spelling.length + 1

theorem length_le_room (p : Path) : p.spelling.length ≤ p.room := by
  rw [room]
  split
  · exact Nat.le_refl _
  · exact Nat.le_succ _

theorem room_le_length (p : Path) : p.room ≤ p.spelling.length + 1 := by
  rw [room]
  split
  · exact Nat.le_succ _
  · exact Nat.le_refl _

theorem length_join (p : Path) (piece : Bytes) :
    (p.join piece).spelling.length = p.room + piece.length := by
  rw [join, room]
  split
  · exact List.length_append
  · rw [List.length_append, List.length_cons]
    omega

/-- A path gets longer by what is put behind it. -/
theorem length_add_le_join (p : Path) (piece : Bytes) :
    p.spelling.length + piece.length ≤ (p.join piece).spelling.length := by
  rw [length_join]
  exact Nat.add_le_add_right p.length_le_room _

theorem length_le_join (p : Path) (piece : Bytes) :
    p.spelling.length ≤ (p.join piece).spelling.length :=
  Nat.le_trans (Nat.le_add_right _ _) (p.length_add_le_join piece)

theorem parts_of_spelling_eq_nil (hp : p.spelling = []) : p.parts = [] := by
  rw [parts, pieces, hp]
  rfl

theorem join_of_spelling_eq_nil (hp : p.spelling = []) : p.join piece = ⟨piece⟩ := by
  rw [join, hp]
  rfl

/-- Only where a path starts does it matter whether a piece stands alone. -/
theorem leading_of_pieces {first : Bytes} {rest : List Bytes} (hp : p.spelling ≠ [])
    (h : p.pieces = first :: rest) :
    Part.leading first rest.isEmpty = Part.leading first false := by
  rw [Part.leading, Part.leading]
  by_cases hfirst : first = []
  · have hrest : rest ≠ [] := by
      rintro rfl
      rw [hfirst] at h
      exact hp (eq_nil_of_pieces_eq h)
    rw [if_pos hfirst, if_pos hfirst, List.isEmpty_eq_false_iff.mpr hrest]
  · rw [if_neg hfirst, if_neg hfirst]

end Path

/-! ### A slash at the end -/

section Pieces

variable {root : Path} {first piece : Bytes} {rest : List Bytes}

/-- A slash at the end is followed by an empty piece. -/
theorem pieces_eq_rootPieces (root : Path) :
    root.pieces = rootPieces root ∨ root.pieces = rootPieces root ++ [[]] := by
  rw [rootPieces]
  split
  · next hslash =>
      right
      obtain ⟨last, hlast, h47⟩ := (Option.any_eq_true _ _).mp hslash
      obtain ⟨before, hbefore⟩ := List.getLast?_eq_some_iff.mp hlast
      have hpieces : root.pieces = pieces Path.isSlash before ++ [[]] := by
        rw [Path.pieces, hbefore]
        exact pieces_append_cons h47 before []
      rw [hpieces, List.dropLast_concat]
  · exact .inl rfl

theorem rootPieces_ne_nil (h : root.spelling ≠ []) : rootPieces root ≠ [] := by
  intro hnil
  rcases pieces_eq_rootPieces root with heq | heq
  · exact pieces_ne_nil Path.isSlash root.spelling (heq.trans hnil)
  · rw [hnil] at heq
    exact h (eq_nil_of_pieces_eq heq)

theorem not_mem_of_mem_rootPieces {piece : Bytes} (h : piece ∈ rootPieces root) : 47 ∉ piece := by
  have hpiece : piece ∈ root.pieces := by
    rcases pieces_eq_rootPieces root with heq | heq
    · exact heq ▸ h
    · exact heq ▸ List.mem_append_left _ h
  intro hmem
  exact absurd (cuts_eq_false_of_mem_pieces hpiece hmem) (by decide)

/-- An empty piece at the end adds nothing to what is read off the pieces. -/
theorem exists_pieces_of_rootPieces (h : rootPieces root = first :: rest) :
    ∃ more, root.pieces = first :: more ∧
      ∀ f : Bytes → Option Part, f [] = none → more.filterMap f = rest.filterMap f := by
  rcases pieces_eq_rootPieces root with heq | heq
  · exact ⟨rest, heq.trans h, fun _ _ => rfl⟩
  · refine ⟨rest ++ [[]], by rw [heq, h, List.cons_append], fun f hf => ?_⟩
    rw [List.filterMap_append, List.filterMap_cons_none hf, List.filterMap_nil, List.append_nil]

/-- **The parts of a path** are those of its pieces. -/
theorem parts_eq (hroot : root.spelling ≠ []) (h : rootPieces root = first :: rest) :
    root.parts = Part.leading first false ++ rest.filterMap Part.inner? := by
  obtain ⟨more, hpieces, hmore⟩ := exists_pieces_of_rootPieces h
  rw [Path.parts, hpieces]
  dsimp only
  rw [hmore Part.inner? rfl, Path.leading_of_pieces hroot hpieces]

/-- **The pieces of a path with one more piece.** A slash at the end is the one before it. -/
theorem pieces_join (hp : root.spelling ≠ []) (hpiece : 47 ∉ piece) :
    (root.join piece).pieces = rootPieces root ++ [piece] := by
  obtain ⟨s⟩ := root
  rw [rootPieces]
  by_cases hslash : s.getLast? = some 47
  · obtain ⟨before, rfl⟩ := List.getLast?_eq_some_iff.mp hslash
    have hjoin : Path.join ⟨before ++ [47]⟩ piece = ⟨before ++ 47 :: piece⟩ := by
      simp [Path.join]
    have hends : Path.endsWithSlash ⟨before ++ [47]⟩ = true := by
      simp [Path.endsWithSlash, Path.isSlash]
    have hold : Path.pieces ⟨before ++ [47]⟩ = DocBlocks.pieces Path.isSlash before ++ [[]] :=
      pieces_append_cons rfl before []
    rw [hjoin, if_pos hends, hold, List.dropLast_concat, ← Path.pieces_of_not_mem hpiece]
    exact pieces_append_cons rfl before piece
  · have hjoin : Path.join ⟨s⟩ piece = ⟨s ++ 47 :: piece⟩ := by
      simp only [Path.join]
      rw [if_neg (by simpa using ⟨hp, hslash⟩)]
    have hends : ¬Path.endsWithSlash ⟨s⟩ = true := by
      intro h
      obtain ⟨last, hlast, h47⟩ := (Option.any_eq_true _ _).mp h
      obtain rfl : last = 47 := by simpa [Path.isSlash] using h47
      exact hslash hlast
    rw [hjoin, if_neg hends, ← Path.pieces_of_not_mem hpiece]
    exact pieces_append_cons rfl s piece

end Pieces

namespace Path

variable {p : Path} {piece : Bytes}

/-- **The parts of a path with one more piece.** -/
theorem parts_join (hp : p.spelling ≠ []) (hpiece : 47 ∉ piece) :
    (p.join piece).parts = p.parts ++ (Part.inner? piece).toList := by
  obtain ⟨first, rest, h⟩ := List.exists_cons_of_ne_nil (rootPieces_ne_nil hp)
  have hempty : (rest ++ [piece]).isEmpty = false :=
    List.isEmpty_eq_false_iff.mpr (List.append_ne_nil_of_right_ne_nil _ (List.cons_ne_nil _ _))
  rw [parts_eq hp h, parts, pieces_join hp hpiece, h, List.cons_append]
  dsimp only
  rw [hempty, List.filterMap_append, filterMap_cons_eq_append, List.filterMap_nil,
    List.append_nil, List.append_assoc]

/-! ### Ways down -/

/-- A path with names behind it. -/
def below (p : Path) (names : List Bytes) : Path := names.foldl join p

/-- **The parts of a path below another one.** -/
theorem parts_below {names : List Bytes} (h : ∀ name ∈ names, IsName name) :
    (p.below names).parts = p.parts ++ names.map .name := by
  induction names generalizing p with
  | nil => rw [below, List.foldl_nil, List.map_nil, List.append_nil]
  | cons name names ih =>
      obtain ⟨hname, hnames⟩ := List.forall_mem_cons.mp h
      have hparts : (p.join name).parts = p.parts ++ [.name name] := by
        by_cases hp : p.spelling = []
        · rw [join_of_spelling_eq_nil hp, parts_of_not_mem hname.1 hname.2.1 hname.2.2.1,
            hname.inner?, parts_of_spelling_eq_nil hp]
          rfl
        · rw [parts_join hp hname.1, hname.inner?]
          rfl
      rw [below, List.foldl_cons, ← below, ih hnames, hparts, List.append_assoc,
        List.map_cons, List.singleton_append]

end Path

end DocBlocks
