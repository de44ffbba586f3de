import DocBlocks.Proofs.Tree.Contents
import DocBlocks.Proofs.Tree.Symbol

/-!
# Roots of Walks

A walk starts at the directory that its root leads to, and its paths start with the root, but for
the dots that the root starts with. What is left of the root is the start of the walk
(`startPath`). It has the parts of the root without a dot at the start, which is the only place
where a dot is a part.

The way of a root and the start of its walk are both made of its pieces, one after the other
(`rootPieces`), behind nothing or behind the slash that the root starts with. A root with an empty
name behind the dots at its start has no start, and nothing is found below it.

## Main results

* `Site.startOf_eq`: where a walk starts.
* `parts_cases`, `parts_startPath`: the parts of a root and of the start of its walk.
* `fits_startPath`: the start of a walk is short enough to be followed if its root is.
-/

namespace DocBlocks

open Listing

/-! ### The start of a walk -/

/-- The path that the paths of a walk start with. There is none if an empty name comes right behind
dots at the start. -/
def startPath (root : Path) : Option Path :=
  match rootPieces root with
  | [] :: pieces => pieces.foldlM startBelow? ⟨[47]⟩
  | pieces => pieces.foldlM startBelow? ⟨[]⟩

/-- The parts of a path without a dot at the start. -/
def Path.plainParts (p : Path) : List Part := p.parts.filter (· != .here)

section Start

variable {above next start : Path} {piece : Bytes} {rest : List Bytes}

theorem length_le_of_startBelow? (h : startBelow? above piece = some next) :
    above.spelling.length ≤ next.spelling.length := by
  rw [startBelow?] at h
  split at h
  · obtain rfl := Option.some.inj h
    exact above.length_le_join piece
  · next hempty =>
      have hnil : above.spelling = [] := by simpa using hempty
      rw [hnil]
      exact Nat.zero_le _

/-- The start of a walk is longer than what has been come to before it. -/
theorem length_le_of_foldlM (h : rest.foldlM startBelow? above = some start) :
    above.spelling.length ≤ start.spelling.length := by
  induction rest generalizing above with
  | nil =>
      obtain rfl : above = start := Option.some.inj h
      exact Nat.le_refl _
  | cons piece rest ih =>
      obtain ⟨next, hnext, hrest⟩ := Option.bind_eq_some_iff.mp h
      exact Nat.le_trans (length_le_of_startBelow? hnext) (ih hrest)

theorem fits_of_length_le (h : above.spelling.length ≤ start.spelling.length)
    (hfits : start.fits) : above.fits := by
  rw [Path.fits, decide_eq_true_eq] at hfits ⊢
  exact Nat.le_trans h hfits

theorem parts_of_startBelow? (h : startBelow? above piece = some next) (hpiece : 47 ∉ piece) :
    next.parts = above.parts ++ (Part.inner? piece).toList := by
  rw [startBelow?] at h
  split at h
  · next hne =>
      obtain rfl := Option.some.inj h
      exact Path.parts_join (by simpa using hne) hpiece
  · next hempty =>
      have hnil : above.parts = [] := Path.parts_of_spelling_eq_nil (by simpa using hempty)
      split at h
      · exact absurd h (by simp)
      · next hne =>
          split at h
          · next hdot =>
              obtain rfl := Option.some.inj h
              subst hdot
              exact (List.append_nil _).symm
          · next hdot =>
              obtain rfl := Option.some.inj h
              rw [hnil, List.nil_append]
              exact Path.parts_of_not_mem hpiece (by simpa using hne) hdot

theorem parts_of_foldlM (h : rest.foldlM startBelow? above = some start)
    (hslash : ∀ piece ∈ rest, 47 ∉ piece) :
    start.parts = above.parts ++ rest.filterMap Part.inner? := by
  induction rest generalizing above with
  | nil =>
      obtain rfl : above = start := Option.some.inj h
      exact (List.append_nil _).symm
  | cons piece rest ih =>
      obtain ⟨hpiece, hrest⟩ := List.forall_mem_cons.mp hslash
      obtain ⟨next, hnext, h⟩ := Option.bind_eq_some_iff.mp h
      rw [ih h hrest, parts_of_startBelow? hnext hpiece, List.append_assoc,
        filterMap_cons_eq_append]

end Start

/-- Behind a name or a slash, every piece leads on. -/
theorem foldlM_of_ne_nil (rest : List Bytes) {above : Path} (h : above.spelling ≠ []) :
    rest.foldlM startBelow? above = some (above.below rest) := by
  induction rest generalizing above with
  | nil => rfl
  | cons piece rest ih =>
      have hnext : startBelow? above piece = some (above.join piece) :=
        if_pos (by simpa using h)
      have hjoin : (above.join piece).spelling ≠ [] := by
        rw [← List.length_pos_iff] at h ⊢
        exact Nat.lt_of_lt_of_le h (above.length_le_join piece)
      exact Option.bind_eq_some_iff.mpr ⟨_, hnext, ih hjoin⟩

/-! ### Where the pieces of a root lead -/

section Walks

variable {top inside : Listing} {above start : Path} {place reached : List Bytes}
  {pieces : List Bytes}

/-- Every place on a way to a directory is one. -/
theorem exists_folder_of_follow? {parts : List Part}
    (h : top.follow? place parts = .ok reached)
    (hreached : top.node? reached = some (.folder inside)) :
    ∃ inside', top.node? place = some (.folder inside') := by
  cases parts with
  | nil =>
      rw [follow?] at h
      obtain rfl := Except.ok.inj h
      exact ⟨inside, hreached⟩
  | cons part parts => exact (follow?_cons_eq_ok_iff.mp h).1

/-- A piece of a root leads to the place that its part leads to. -/
theorem follow?_placeBelow {piece : Bytes}
    (h : top.follow? place ((piece :: pieces).filterMap Part.step?) = .ok reached) :
    top.follow? (placeBelow place piece) (pieces.filterMap Part.step?) = .ok reached := by
  rw [placeBelow]
  cases hstep : Part.step? piece with
  | none =>
      rw [List.filterMap_cons_none hstep] at h
      exact h
  | some part =>
      rw [List.filterMap_cons_some hstep] at h
      exact (follow?_cons_eq_ok_iff.mp h).2.2

/-- The pieces of a way lead a walk to the directory that they lead to. -/
theorem startFrom_eq (hfollow : top.follow? place (pieces.filterMap Part.step?) = .ok reached)
    (hreached : top.node? reached = some (.folder inside))
    (hstart : pieces.foldlM startBelow? above = some start) (hfits : start.fits) :
    startFrom top above place pieces = some (start, inside) := by
  induction pieces generalizing above place with
  | nil =>
      rw [List.filterMap_nil, follow?] at hfollow
      obtain rfl := Except.ok.inj hfollow
      obtain rfl : above = start := Option.some.inj hstart
      rw [startFrom, hreached]
  | cons piece rest ih =>
      obtain ⟨inside', hnode⟩ := exists_folder_of_follow? hfollow hreached
      obtain ⟨next, hnext, hrest⟩ := Option.bind_eq_some_iff.mp hstart
      have hlength := length_le_of_foldlM hrest
      have hnextFits := fits_of_length_le hlength hfits
      have haboveFits := fits_of_length_le (length_le_of_startBelow? hnext) hnextFits
      rw [startFrom, hnode, hnext]
      dsimp only
      rw [if_pos haboveFits, if_pos hnextFits, ite_self]
      exact ih (follow?_placeBelow hfollow) hrest

/-- Without a start, there is no walk. -/
theorem startFrom_eq_none (h : pieces.foldlM startBelow? ⟨[]⟩ = none) :
    startFrom top ⟨[]⟩ place pieces = none := by
  induction pieces generalizing place with
  | nil => exact absurd h (by simp)
  | cons piece rest ih =>
      rw [startFrom]
      by_cases hempty : piece = []
      · subst hempty
        have hnone : startBelow? ⟨[]⟩ [] = none := rfl
        rw [hnone]
        cases top.node? place with
        | none => rfl
        | some node => cases node <;> rfl
      · by_cases hdot : piece = [46]
        · -- A dot at the start leads on without a name.
          subst hdot
          have hsome : startBelow? ⟨[]⟩ [46] = some ⟨[]⟩ := rfl
          rw [List.foldlM_cons, hsome] at h
          have hnone : ∀ nextPlace, startFrom top ⟨[]⟩ nextPlace rest = none := fun _ => ih h
          rw [hsome]
          cases top.node? place with
          | none => rfl
          | some node =>
              cases node with
              | file content => rfl
              | folder inside' => exact hnone place
        · have hsome : startBelow? ⟨[]⟩ piece = some ⟨piece⟩ := by
            rw [startBelow?, if_neg (by simp), if_neg (by simpa using hempty), if_neg hdot]
          rw [List.foldlM_cons, hsome] at h
          have hne : Path.spelling ⟨piece⟩ ≠ [] := hempty
          exact absurd (h.symm.trans (foldlM_of_ne_nil rest hne)) (by simp)

end Walks

/-! ### The way of a root -/

section Pieces

variable {root start : Path} {first : Bytes} {rest : List Bytes}

/-- **The way of a root** is that of its pieces. -/
theorem steps_eq (h : rootPieces root = first :: rest) :
    root.steps = (if first.isEmpty then [.root] else (Part.step? first).toList) ++
      rest.filterMap Part.step? := by
  obtain ⟨more, hpieces, hmore⟩ := exists_pieces_of_rootPieces h
  rw [Path.steps, hpieces]
  dsimp only
  rw [hmore Part.step? rfl]

/-! ### The parts of a root -/

theorem inner?_ne_here (piece : Bytes) : Part.inner? piece ≠ some .here := by
  rw [Part.inner?]
  split
  · simp
  · split
    · simp
    · simp

theorem filter_filterMap_inner? (pieces : List Bytes) :
    (pieces.filterMap Part.inner?).filter (· != .here) = pieces.filterMap Part.inner? := by
  refine List.filter_eq_self.mpr fun part hpart => ?_
  rw [bne_iff_ne]
  rintro rfl
  obtain ⟨piece, -, hpiece⟩ := List.mem_filterMap.mp hpart
  exact inner?_ne_here piece hpiece

/-- The parts of a root without a dot at the start. -/
theorem plainParts_eq (hroot : root.spelling ≠ []) (h : rootPieces root = first :: rest) :
    root.plainParts =
      (if first = [] then [.root] else (Part.inner? first).toList) ++
        rest.filterMap Part.inner? := by
  rw [Path.plainParts, parts_eq hroot h, List.filter_append, filter_filterMap_inner?]
  congr 1
  by_cases hempty : first = []
  · subst hempty
    rfl
  · rw [if_neg hempty]
    by_cases hdot : first = [46]
    · subst hdot
      rfl
    · have hplain := filter_filterMap_inner? [first]
      rw [filterMap_cons_eq_append, List.filterMap_nil, List.append_nil] at hplain
      rw [leading_eq_toList_inner? hempty hdot, hplain]

/-- A root has a dot in front of its other parts if it starts with one. -/
theorem parts_cases (hroot : root.spelling ≠ []) :
    root.parts = root.plainParts ∨ root.parts = .here :: root.plainParts := by
  obtain ⟨first, rest, h⟩ := List.exists_cons_of_ne_nil (rootPieces_ne_nil hroot)
  rw [plainParts_eq hroot h, parts_eq hroot h]
  by_cases hempty : first = []
  · subst hempty
    exact .inl rfl
  · rw [if_neg hempty]
    by_cases hdot : first = [46]
    · subst hdot
      exact .inr rfl
    · exact .inl (by rw [leading_eq_toList_inner? hempty hdot])

/-! ### The start of a root -/

/-- If no slash comes before the first piece of a root, all pieces lead on from nothing. -/
theorem startPath_of_ne_nil (h : rootPieces root = first :: rest) (hfirst : first ≠ []) :
    startPath root = (first :: rest).foldlM startBelow? ⟨[]⟩ := by
  rw [startPath, h]
  cases first with
  | nil => exact absurd rfl hfirst
  | cons b first => rfl

theorem startOf_of_ne_nil (site : Site) (h : rootPieces root = first :: rest)
    (hfirst : first ≠ []) :
    site.startOf (rootPieces root) = startFrom site.all ⟨[]⟩ site.start (first :: rest) := by
  rw [h]
  cases first with
  | nil => exact absurd rfl hfirst
  | cons b first => rfl

/-- If one does, the pieces behind it lead on from it. -/
theorem startPath_of_nil (h : rootPieces root = [] :: rest) :
    startPath root = rest.foldlM startBelow? ⟨[47]⟩ := by
  rw [startPath, h]

theorem startOf_of_nil (site : Site) (h : rootPieces root = [] :: rest) :
    site.startOf (rootPieces root) = startFrom site.all ⟨[47]⟩ [] rest := by
  rw [h, Site.startOf]

/-- **The start of a walk** has the parts of its root without a dot at the start. -/
theorem parts_startPath (hroot : root.spelling ≠ []) (hstart : startPath root = some start) :
    start.parts = root.plainParts := by
  obtain ⟨first, rest, h⟩ := List.exists_cons_of_ne_nil (rootPieces_ne_nil hroot)
  have hslash : ∀ piece ∈ first :: rest, 47 ∉ piece := fun piece hpiece =>
    not_mem_of_mem_rootPieces (h ▸ hpiece)
  rw [plainParts_eq hroot h]
  by_cases hfirst : first = []
  · subst hfirst
    rw [startPath_of_nil h] at hstart
    rw [if_pos rfl, parts_of_foldlM hstart (List.forall_mem_cons.mp hslash).2]
    rfl
  · rw [startPath_of_ne_nil h hfirst] at hstart
    rw [if_neg hfirst, parts_of_foldlM hstart hslash, filterMap_cons_eq_append]
    rfl

/-! ### The length of a start -/

theorem length_le_of_startBelow?_room {above next : Path} {piece : Bytes}
    (h : startBelow? above piece = some next) :
    next.spelling.length ≤ above.room + piece.length := by
  rw [startBelow?] at h
  split at h
  · obtain rfl := Option.some.inj h
    exact Nat.le_of_eq (above.length_join piece)
  · split at h
    · exact absurd h (by simp)
    · split at h
      · obtain rfl := Option.some.inj h
        exact Nat.le_trans above.length_le_room (Nat.le_add_right _ _)
      · obtain rfl := Option.some.inj h
        exact Nat.le_add_left _ _

/-- Pieces make a start longer by their bytes and the slashes between them. -/
theorem length_lt_of_foldlM {above : Path} {pieces : List Bytes} (hne : pieces ≠ [])
    (h : pieces.foldlM startBelow? above = some start) :
    start.spelling.length < above.room + (pieces.flatten.length + pieces.length) := by
  induction pieces generalizing above with
  | nil => exact absurd rfl hne
  | cons piece rest ih =>
      obtain ⟨next, hnext, hrest⟩ := Option.bind_eq_some_iff.mp h
      have hlength := length_le_of_startBelow?_room hnext
      rw [List.flatten_cons, List.length_append, List.length_cons]
      cases rest with
      | nil =>
          obtain rfl : next = start := Option.some.inj hrest
          rw [List.flatten_nil, List.length_nil]
          omega
      | cons other more =>
          have hlater := ih (List.cons_ne_nil other more) hrest
          have hroom := next.room_le_length
          omega

/-- **The start of a walk** is short enough to be followed if its root is. -/
theorem fits_startPath (hroot : root.spelling ≠ []) (hfits : root.fits)
    (hstart : startPath root = some start) : start.fits := by
  have hle : (rootPieces root).flatten.length + (rootPieces root).length ≤
      root.spelling.length + 1 := by
    have hpieces : root.pieces.flatten.length + root.pieces.length = root.spelling.length + 1 :=
      length_pieces Path.isSlash root.spelling
    rcases pieces_eq_rootPieces root with heq | heq
    · rw [← heq]
      omega
    · simp only [heq, List.flatten_append, List.length_append] at hpieces
      omega
  refine fits_of_length_le ?_ hfits
  obtain ⟨first, rest, h⟩ := List.exists_cons_of_ne_nil (rootPieces_ne_nil hroot)
  rw [h] at hle
  by_cases hfirst : first = []
  · subst hfirst
    rw [startPath_of_nil h] at hstart
    rw [List.flatten_cons, List.nil_append, List.length_cons] at hle
    cases rest with
    | nil =>
        obtain rfl : ⟨[47]⟩ = start := Option.some.inj hstart
        exact List.length_pos_iff.mpr hroot
    | cons piece more =>
        have hlength := length_lt_of_foldlM (List.cons_ne_nil piece more) hstart
        have hroom : Path.room ⟨[47]⟩ = 1 := rfl
        omega
  · rw [startPath_of_ne_nil h hfirst] at hstart
    have hlength := length_lt_of_foldlM (List.cons_ne_nil first rest) hstart
    have hroom : Path.room ⟨[]⟩ = 0 := rfl
    omega

end Pieces

/-! ### Where a walk starts -/

namespace Site

variable {site : Site} {inside : Listing} {root start : Path} {place : List Bytes}

/-- **Where a walk starts**: at the directory that the root leads to. -/
theorem startOf_eq (hplace : site.place? root = .ok place)
    (hinside : site.all.node? place = some (.folder inside))
    (hstart : startPath root = some start) :
    start.fits ∧ site.startOf (rootPieces root) = some (start, inside) := by
  obtain ⟨hfault, hfollow⟩ := place?_eq_ok_iff.mp hplace
  obtain ⟨-, hfits, hroot⟩ := Path.spellingFault?_eq_none_iff.mp hfault
  have hstartFits := fits_startPath hroot hfits hstart
  refine ⟨hstartFits, ?_⟩
  obtain ⟨first, rest, h⟩ := List.exists_cons_of_ne_nil (rootPieces_ne_nil hroot)
  rw [steps_eq h] at hfollow
  by_cases hfirst : first = []
  · subst hfirst
    rw [startPath_of_nil h] at hstart
    rw [List.isEmpty_nil, if_pos rfl, List.singleton_append] at hfollow
    rw [startOf_of_nil site h]
    exact startFrom_eq (follow?_cons_eq_ok_iff.mp hfollow).2.2 hinside hstart hstartFits
  · rw [startPath_of_ne_nil h hfirst] at hstart
    rw [if_neg (by simpa using hfirst), ← filterMap_cons_eq_append] at hfollow
    rw [startOf_of_ne_nil site h hfirst]
    exact startFrom_eq hfollow hinside hstart hstartFits

/-- Without a start, there is no walk. -/
theorem startOf_eq_none (hroot : root.spelling ≠ []) (hstart : startPath root = none) :
    site.startOf (rootPieces root) = none := by
  obtain ⟨first, rest, h⟩ := List.exists_cons_of_ne_nil (rootPieces_ne_nil hroot)
  by_cases hfirst : first = []
  · subst hfirst
    have hne : Path.spelling ⟨[47]⟩ ≠ [] := List.cons_ne_nil 47 []
    rw [startPath_of_nil h, foldlM_of_ne_nil rest hne] at hstart
    exact absurd hstart (by simp)
  · rw [startPath_of_ne_nil h hfirst] at hstart
    rw [startOf_of_ne_nil site h hfirst]
    exact startFrom_eq_none hstart

end Site

end DocBlocks
