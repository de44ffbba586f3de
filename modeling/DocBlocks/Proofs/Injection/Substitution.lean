import DocBlocks.Proofs.Injection.Item

/-!
# Substitution in the Original Lines

Items are put into a file one after the other, each into what the ones before it have left.
This module says what comes of that in terms of the original lines alone. Every item picks a
slot of the original file (`choose`): the first one for its declaration that no earlier item
has taken, where an item takes a slot by putting remarks below the doc block. Then all doc
blocks are replaced at once (`substitute`): a line that is in a slot that was picked becomes
what its last patch says, and every other line stays.

The relation `Tracks` keeps the two in step. It holds between the original lines and the ones
that a splice has left, and says of the latter that they are the substitution, and that their
slots are the slots of the original file that are not taken, each at its new position.

## Main results

* `substitute_append_patch`: one patch more replaces one doc block more.
* `Tracks.locate_eq`: among the lines so far, the search finds the first slot that is free.
* `Tracks.splice`: putting in one item keeps original and present lines in step.
-/

namespace DocBlocks

open Text

/-! ### Picking slots -/

/-- The first slot for a declaration that is not taken. Slots are known by the line numbers of
their declarations. -/
def firstFree (lines : List Text) (d : Declaration) (taken : List Nat) : Option BlockSpan :=
  (slots lines d).find? fun span => span.decl ∉ taken

/-- What an item takes by picking a slot: nothing, unless its remarks cut the declaration off
from its doc block. -/
def Item.takes (item : Item) (pick : Option BlockSpan) : List Nat :=
  if item.remarks = [] then [] else pick.toList.map (·.decl)

/-- What each item picks among the original lines, one after the other. -/
def choose (lines : List Text) : List Nat → List Item → List (Item × Option BlockSpan)
  | _, [] => []
  | taken, item :: rest =>
    let pick := firstFree lines item.decl taken
    (item, pick) :: choose lines (taken ++ item.takes pick) rest

/-! ### Replacing doc blocks at once -/

/-- Lines to put in the place of the doc block of a slot. -/
structure Patch where
  span : BlockSpan
  block : List Text
  deriving DecidableEq, Repr

/-- Whether the line of a number is in the doc block that a patch replaces. -/
def Patch.covers (p : Patch) (i : Nat) : Bool := p.span.top ≤ i && i < p.span.decl

/-- What becomes of the line of a number. The last patch that covers it counts: its lines
stand for the first line of the doc block, and nothing stands for the others. -/
def fate (patches : List Patch) (i : Nat) (line : Text) : List Text :=
  match (patches.filter (·.covers i)).getLast? with
  | none => [line]
  | some p => if i = p.span.top then p.block else []

/-- What becomes of lines, the first of which has the number `k`. -/
def substituteFrom (patches : List Patch) (k : Nat) (lines : List Text) : List Text :=
  (lines.zipIdx k).flatMap fun (line, i) => fate patches i line

/-- **Simultaneous substitution**: what becomes of all lines of a file. -/
def substitute (patches : List Patch) (lines : List Text) : List Text :=
  substituteFrom patches 0 lines

/-- The patches that items make of the slots that they pick. -/
def patchesOf (picks : List (Item × Option BlockSpan)) : List Patch :=
  picks.filterMap fun (item, pick) => pick.map fun span => ⟨span, item.block⟩

theorem fate_append_singleton (patches : List Patch) (p : Patch) (i : Nat) (line : Text) :
    fate (patches ++ [p]) i line =
      if p.covers i then if i = p.span.top then p.block else [] else fate patches i line := by
  rw [fate, List.filter_append]
  by_cases h : p.covers i = true
  · have hself : [p].filter (·.covers i) = [p] := by simp [h]
    rw [hself, List.getLast?_concat, if_pos h]
  · have hnone : [p].filter (·.covers i) = [] := by simp [h]
    rw [hnone, List.append_nil, if_neg h, fate]

/-- A patch does not matter to the lines that it does not cover. -/
theorem fate_append_of_outside {p : Patch} {i : Nat} (h : i < p.span.top ∨ p.span.decl ≤ i)
    (patches : List Patch) (line : Text) :
    fate (patches ++ [p]) i line = fate patches i line := by
  rw [fate_append_singleton, if_neg]
  simp only [Patch.covers, Bool.and_eq_true, decide_eq_true_eq]
  omega

section Substitute

variable {patches others : List Patch} {lines : List Text} {k : Nat}

theorem substituteFrom_cons (line : Text) :
    substituteFrom patches k (line :: lines) =
      fate patches k line ++ substituteFrom patches (k + 1) lines := rfl

theorem substituteFrom_append (before after : List Text) :
    substituteFrom patches k (before ++ after) =
      substituteFrom patches k before ++ substituteFrom patches (k + before.length) after := by
  rw [substituteFrom, List.zipIdx_append, List.flatMap_append, substituteFrom, substituteFrom]

theorem substitute_append (before after : List Text) :
    substitute patches (before ++ after) =
      substitute patches before ++ substituteFrom patches before.length after := by
  rw [substitute, substituteFrom_append, Nat.zero_add, substitute]

theorem substituteFrom_congr
    (h : ∀ i, k ≤ i → i < k + lines.length → ∀ line, fate patches i line = fate others i line) :
    substituteFrom patches k lines = substituteFrom others k lines := by
  induction lines generalizing k with
  | nil => rfl
  | cons line lines ih =>
      rw [List.length_cons] at h
      rw [substituteFrom_cons, substituteFrom_cons, h k (Nat.le_refl k) (by omega),
        ih fun i hk hi => h i (by omega) (by omega)]

theorem substituteFrom_eq_nil
    (h : ∀ i, k ≤ i → i < k + lines.length → ∀ line, fate patches i line = []) :
    substituteFrom patches k lines = [] := by
  induction lines generalizing k with
  | nil => rfl
  | cons line lines ih =>
      rw [List.length_cons] at h
      rw [substituteFrom_cons, h k (Nat.le_refl k) (by omega), List.nil_append,
        ih fun i hk hi => h i (by omega) (by omega)]

theorem substituteFrom_eq_self
    (h : ∀ i, k ≤ i → i < k + lines.length → ∀ line, fate patches i line = [line]) :
    substituteFrom patches k lines = lines := by
  induction lines generalizing k with
  | nil => rfl
  | cons line lines ih =>
      rw [List.length_cons] at h
      rw [substituteFrom_cons, h k (Nat.le_refl k) (by omega),
        ih fun i hk hi => h i (by omega) (by omega), List.singleton_append]

/-- Without patches all lines stay. -/
theorem substituteFrom_nil : substituteFrom [] k lines = lines :=
  substituteFrom_eq_self fun _ _ _ _ => rfl

/-- **One patch more** replaces its doc block, whatever was to become of that, and leaves what
becomes of the other lines. -/
theorem substitute_append_patch {p : Patch} {before old : List Text}
    (htop : p.span.top = before.length) (hdecl : p.span.decl = before.length + old.length)
    (hold : old ≠ []) (rest : List Text) :
    substitute (patches ++ [p]) (before ++ old ++ rest) =
      substitute patches before ++ p.block ++ substituteFrom patches p.span.decl rest := by
  have hbefore : substituteFrom (patches ++ [p]) 0 before = substitute patches before :=
    substituteFrom_congr fun i _ hi => fate_append_of_outside (by omega) patches
  have hrest : substituteFrom (patches ++ [p]) p.span.decl rest =
      substituteFrom patches p.span.decl rest :=
    substituteFrom_congr fun i hi _ => fate_append_of_outside (by omega) patches
  have hmid : substituteFrom (patches ++ [p]) p.span.top old = p.block := by
    obtain ⟨first, inner, rfl⟩ := List.exists_cons_of_ne_nil hold
    rw [List.length_cons] at hdecl
    have hin : ∀ i, p.span.top ≤ i → i < p.span.decl → p.covers i = true := by
      intro i hi hi'
      simp only [Patch.covers, Bool.and_eq_true, decide_eq_true_eq]
      exact ⟨hi, hi'⟩
    rw [substituteFrom_cons, fate_append_singleton, if_pos (hin _ (Nat.le_refl _) (by omega)),
      if_pos rfl, substituteFrom_eq_nil, List.append_nil]
    intro i hi hi' line
    rw [fate_append_singleton, if_pos (hin i (by omega) (by omega)), if_neg (by omega)]
  rw [substitute_append, List.length_append, ← hdecl, substitute_append, ← htop, hmid, hrest,
    substitute, hbefore]

end Substitute

/-! ### New positions -/

/-- The number that a line of the original file has after a substitution: how many lines come
of the ones before it. -/
def position (patches : List Patch) (lines : List Text) (i : Nat) : Nat :=
  (substitute patches (lines.take i)).length

/-- Where a slot of the original file is after a substitution. -/
def moved (patches : List Patch) (lines : List Text) (span : BlockSpan) : BlockSpan :=
  ⟨position patches lines span.top, position patches lines span.decl⟩

theorem position_mono (patches : List Patch) (lines : List Text) {i j : Nat} (h : i ≤ j) :
    position patches lines i ≤ position patches lines j := by
  have htake : lines.take j = lines.take i ++ (lines.take j).drop i := by
    rw [← Nat.min_eq_left h, ← List.take_take, Nat.min_eq_left h, List.take_append_drop]
  rw [position, position, htake, substitute_append, List.length_append]
  exact Nat.le_add_right _ _

theorem position_nil {lines : List Text} {i : Nat} (h : i ≤ lines.length) :
    position [] lines i = i := by
  rw [position, substitute, substituteFrom_nil, List.length_take, Nat.min_eq_left h]

/-- With one patch more, lines before its doc block keep their positions, and lines from its
declaration on move as they do by a splice. -/
theorem position_append_patch {patches : List Patch} {lines : List Text} {p : Patch}
    {d : Declaration} (h : IsSlot lines d p.span)
    (hlt : position patches lines p.span.top < position patches lines p.span.decl) {i : Nat}
    (hi : i ≤ p.span.top ∨ p.span.decl ≤ i) :
    position (patches ++ [p]) lines i =
      (moved patches lines p.span).moveLine p.block.length (position patches lines i) := by
  rcases hi with hi | hi
  · have hpos := Nat.lt_of_le_of_lt (position_mono patches lines hi) hlt
    rw [BlockSpan.moveLine_of_lt hpos, position, position, substitute, substitute,
      substituteFrom_congr fun j _ hj => fate_append_of_outside (Or.inl ?_) patches]
    rw [List.length_take] at hj
    omega
  · have hpos := position_mono patches lines hi
    obtain ⟨before, old, line, after, rfl, htop, hdecl, hold, -⟩ :=
      isSlot_iff_exists_append.mp h
    have htake : (before ++ old ++ line :: after).take i =
        before ++ old ++ (line :: after).take (i - p.span.decl) := by
      rw [List.take_append, List.take_of_length_le (by rw [List.length_append]; omega),
        hdecl, List.length_append]
    have hnow : position patches (before ++ old ++ line :: after) i =
        position patches (before ++ old ++ line :: after) p.span.decl +
          (substituteFrom patches p.span.decl
            ((line :: after).take (i - p.span.decl))).length := by
      rw [position, position, htake, BlockSpan.take_decl hdecl, substitute_append,
        List.length_append, List.length_append, hdecl]
    have hthen : position (patches ++ [p]) (before ++ old ++ line :: after) i =
        position patches (before ++ old ++ line :: after) p.span.top + p.block.length +
          (substituteFrom patches p.span.decl
            ((line :: after).take (i - p.span.decl))).length := by
      rw [position, position, htake, BlockSpan.take_top htop,
        substitute_append_patch htop hdecl hold.ne_nil, List.length_append, List.length_append]
    rw [BlockSpan.moveLine_of_le hpos, hthen, hnow]
    simp only [moved, Nat.add_sub_cancel_left]

/-- Slots of one file are apart, except that declarations that one line makes share theirs. -/
theorem IsSlot.apart {lines : List Text} {d d' : Declaration} {s t : BlockSpan}
    (hd : d.IsCode) (hd' : d'.IsCode) (hs : IsSlot lines d s) (ht : IsSlot lines d' t) :
    t.decl < s.top ∨ t = s ∨ s.decl < t.top := by
  obtain ⟨before, block, line, after, rfl, htop, hdecl, hblock, hmatch⟩ :=
    isSlot_iff_exists_append.mp hs
  have ht := mem_slots_iff.mpr ht
  rw [slots_around_isBlock hd hmatch hblock hd' before after, List.append_assoc, List.mem_append,
    List.mem_append] at ht
  rcases ht with ht | ht | ht
  · left
    have := (mem_slots_iff.mp ht).decl_lt
    omega
  · right; left
    split at ht
    · rw [List.mem_singleton.mp ht, ← hdecl, ← htop]
    · exact absurd ht List.not_mem_nil
  · right; right
    obtain ⟨t, -, rfl⟩ := List.mem_map.mp ht
    show s.decl < t.top + (before.length + block.length + 1)
    omega

/-- A line has at most one doc block, whichever declarations it makes. -/
theorem IsSlot.eq_of_decl_eq {lines : List Text} {d d' : Declaration} {s t : BlockSpan}
    (hd : d.IsCode) (hd' : d'.IsCode) (hs : IsSlot lines d s) (ht : IsSlot lines d' t)
    (h : t.decl = s.decl) : t = s := by
  have := hs.top_lt
  have := ht.top_lt
  rcases IsSlot.apart hd hd' hs ht with hbefore | heq | hbehind
  · omega
  · exact heq
  · omega

/-- A slot moves along with its lines as one patch more is put in. -/
theorem moved_append_patch {patches : List Patch} {lines : List Text} {p : Patch}
    {d d' : Declaration} (hd : d.IsCode) (h : IsSlot lines d p.span)
    (hlt : position patches lines p.span.top < position patches lines p.span.decl)
    (hd' : d'.IsCode) {s : BlockSpan} (hs : IsSlot lines d' s) :
    moved (patches ++ [p]) lines s =
      (moved patches lines p.span).move p.block.length (moved patches lines s) := by
  have hout : (s.top ≤ p.span.top ∨ p.span.decl ≤ s.top) ∧
      (s.decl ≤ p.span.top ∨ p.span.decl ≤ s.decl) := by
    have := hs.top_lt
    have := h.top_lt
    rcases IsSlot.apart hd hd' h hs with hbefore | rfl | hbehind
    · omega
    · omega
    · omega
  rw [moved, position_append_patch h hlt hout.1, position_append_patch h hlt hout.2,
    BlockSpan.move]
  rfl

/-! ### Original and present lines in step -/

/-- The lines `now` are what patches have made of `lines`, and their slots are those of the
original file that are not taken, in the same order. -/
structure Tracks (lines : List Text) (patches : List Patch) (taken : List Nat)
    (now : List Text) : Prop where
  now_eq : now = substitute patches lines
  slots_eq : ∀ d : Declaration, d.IsCode →
    slots now d = ((slots lines d).filter fun s => s.decl ∉ taken).map (moved patches lines)

namespace Tracks

variable {lines now : List Text} {patches : List Patch} {taken : List Nat}

/-- Before anything is put in, the lines are the original ones. -/
theorem refl (lines : List Text) : Tracks lines [] [] lines := by
  refine ⟨substituteFrom_nil.symm, fun d _ => ?_⟩
  have hmoved : ∀ s ∈ slots lines d, moved [] lines s = s := by
    intro s hs
    have hs := mem_slots_iff.mp hs
    have := hs.top_lt
    have := hs.decl_lt
    rw [moved, position_nil (by omega), position_nil (by omega)]
  rw [List.filter_eq_self.mpr (by simp), List.map_congr_left hmoved, List.map_id']

/-- **The search among the present lines** finds the first slot of the original file that is
not taken, where it is now. -/
theorem locate_eq (h : Tracks lines patches taken now) {d : Declaration} (hd : d.IsCode) :
    locate now d = (firstFree lines d taken).map (moved patches lines) := by
  rw [locate_eq_head?_slots, h.slots_eq d hd, List.head?_map, List.head?_filter, firstFree]

/-- What is free is a slot, now and in the original file. -/
theorem isSlot_moved (h : Tracks lines patches taken now) {d : Declaration} (hd : d.IsCode)
    {span : BlockSpan} (hspan : IsSlot lines d span) (hfree : span.decl ∉ taken) :
    IsSlot now d (moved patches lines span) := by
  rw [← mem_slots_iff, h.slots_eq d hd]
  exact List.mem_map_of_mem (List.mem_filter.mpr ⟨mem_slots_iff.mpr hspan, by simpa using hfree⟩)

/-- What is free stays apart, so that a declaration is known by where it is now. -/
theorem moved_decl_eq_iff (h : Tracks lines patches taken now) {d d' : Declaration}
    (hd : d.IsCode) {span : BlockSpan} (hspan : IsSlot lines d span) (hfree : span.decl ∉ taken)
    (hd' : d'.IsCode) {s : BlockSpan} (hs : IsSlot lines d' s) (hs' : s.decl ∉ taken) :
    (moved patches lines s).decl = (moved patches lines span).decl ↔ s.decl = span.decl := by
  have hlt := (h.isSlot_moved hd hspan hfree).top_lt
  have hlt' := (h.isSlot_moved hd' hs hs').top_lt
  simp only [moved] at hlt hlt' ⊢
  constructor
  · intro heq
    rcases IsSlot.apart hd hd' hspan hs with hbefore | rfl | hbehind
    · have := position_mono patches lines (Nat.le_of_lt hbefore)
      omega
    · rfl
    · have := position_mono patches lines (Nat.le_of_lt hbehind)
      omega
  · intro heq
    rw [heq]

/-- **Putting in one item** is one patch more. The item takes its slot if it puts remarks
below the doc block. -/
theorem splice (h : Tracks lines patches taken now) {item : Item} (hitem : item.IsSound)
    {span : BlockSpan} (hpick : firstFree lines item.decl taken = some span) :
    Tracks lines (patches ++ [⟨span, item.block⟩]) (taken ++ item.takes (some span))
      ((moved patches lines span).splice item.block now) := by
  have hspan : IsSlot lines item.decl span := mem_slots_iff.mp (List.mem_of_find?_eq_some hpick)
  have hfree : span.decl ∉ taken := by simpa using List.find?_some hpick
  have hmoved := h.isSlot_moved hitem.isCode hspan hfree
  have hlt : position patches lines span.top < position patches lines span.decl := hmoved.top_lt
  refine ⟨?_, fun d hd => ?_⟩
  · obtain ⟨before, old, line, after, rfl, htop, hdecl, hold, -⟩ :=
      isSlot_iff_exists_append.mp hspan
    have hnow : now = substitute patches before ++
        substituteFrom patches span.top old ++
          substituteFrom patches span.decl (line :: after) := by
      rw [h.now_eq, substitute_append, substitute_append, List.length_append, ← hdecl, ← htop]
    rw [substitute_append_patch htop hdecl hold.ne_nil, hnow]
    refine splice_append ?_ ?_ item.block
    · show position _ _ _ = _
      rw [position, BlockSpan.take_top htop]
    · show position _ _ _ = _
      rw [position, BlockSpan.take_decl hdecl, substitute_append, List.length_append, ← htop]
  · -- A splice knows slots by where they are now, and `taken` by where they were.
    have hslots := slots_splice hitem.isCode hmoved hitem.isBlock hitem.isRemark hd
    rw [← Item.block] at hslots
    rw [hslots, h.slots_eq d hd, List.filter_map, List.map_map, List.filter_filter]
    have hkeep : ∀ s ∈ slots lines d,
        (decide (item.remarks = [] ∨ (moved patches lines s).decl ≠
            (moved patches lines span).decl) && decide (s.decl ∉ taken)) =
          decide (s.decl ∉ taken ++ item.takes (some span)) := by
      intro s hs
      by_cases hs' : s.decl ∈ taken
      · simp [hs']
      · have hsame := h.moved_decl_eq_iff hitem.isCode hspan hfree hd (mem_slots_iff.mp hs) hs'
        by_cases hnil : item.remarks = [] <;> simp [Item.takes, hnil, hs', hsame]
    have hmove : ∀ s ∈ slots lines d, moved (patches ++ [⟨span, item.block⟩]) lines s =
        (moved patches lines span).move item.block.length (moved patches lines s) :=
      fun s hs => moved_append_patch hitem.isCode hspan hlt hd (mem_slots_iff.mp hs)
    rw [List.map_congr_left fun s hs => hmove s (List.mem_filter.mp hs).1]
    exact congrArg _ (List.filter_congr hkeep)

end Tracks

end DocBlocks
