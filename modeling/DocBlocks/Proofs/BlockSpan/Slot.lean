import DocBlocks.BlockSpan
import DocBlocks.Proofs.Declaration.Line
import Mathlib.Data.List.Sort

/-!
# Slots: Every Place Where a Declaration Has Its Doc Block

`locate` answers the first place where a declaration has a doc block directly above it. This
module describes all such places, the **slots** of the declaration, by what their lines are
and not by a search: a line that makes the declaration, and above it lines that form one doc
block (`IsBlock`). `slots` lists them from top to bottom.

The search for one slot and the list of all are tied together by `Declaration.slotsFrom`,
which goes through a file as `locate` does and does not stop at the first place.

## Main results

* `Declaration.blockTop_eq_some_iff`: going up from a declaration finds a doc block exactly
  when the lines above it end with one, and finds its first line.
* `isSlot_iff_exists_append`: slots as a decomposition of the lines of a file.
* `slots_eq_slotsFrom`: the list of all slots is what a run through the file meets.
* `locate_eq_head?_slots`: `locate` answers the first slot.
-/

namespace DocBlocks

open Text

/-! ### Doc blocks -/

/-- Whether lines form **one doc block**, `opens` being the lines that can be the first of
one: the first line opens it and no other line opens one, and the last line closes it and no
other line holds a closing marker. -/
structure IsBlock (opens : Text → Bool) (block : List Text) : Prop where
  head_opens : block.head?.any opens = true
  tail_opens : ∀ line ∈ block.tail, opens line = false
  last_closes : block.getLast?.any Declaration.closesBlock = true
  init_contains : ∀ line ∈ block.dropLast, contains Comment.closing line = false

namespace IsBlock

variable {opens : Text → Bool} {block : List Text}

instance : Decidable (IsBlock opens block) :=
  decidable_of_iff
    (block.head?.any opens = true ∧ (∀ line ∈ block.tail, opens line = false) ∧
      block.getLast?.any Declaration.closesBlock = true ∧
      ∀ line ∈ block.dropLast, contains Comment.closing line = false)
    ⟨fun ⟨h₁, h₂, h₃, h₄⟩ => ⟨h₁, h₂, h₃, h₄⟩, fun ⟨h₁, h₂, h₃, h₄⟩ => ⟨h₁, h₂, h₃, h₄⟩⟩

theorem ne_nil (h : IsBlock opens block) : block ≠ [] := by
  rintro rfl
  exact Bool.false_ne_true h.head_opens

theorem length_pos (h : IsBlock opens block) : 0 < block.length :=
  List.length_pos_iff.mpr h.ne_nil

/-- A doc block of one line: the line opens and closes it. -/
theorem singleton_iff {line : Text} :
    IsBlock opens [line] ↔ opens line = true ∧ Declaration.closesBlock line = true := by
  constructor
  · intro h
    exact ⟨h.head_opens, h.last_closes⟩
  · rintro ⟨hopen, hclose⟩
    exact ⟨hopen, by simp, hclose, by simp⟩

/-- A doc block of several lines, taken apart into its first line, its last line and those
between them. -/
theorem cons_concat_iff {first last : Text} {inner : List Text} :
    IsBlock opens (first :: (inner ++ [last])) ↔
      opens first = true ∧ (∀ line ∈ inner ++ [last], opens line = false) ∧
        Declaration.closesBlock last = true ∧
        ∀ line ∈ first :: inner, contains Comment.closing line = false := by
  have hlast : (first :: (inner ++ [last])).getLast? = some last := by
    rw [← List.cons_append, List.getLast?_concat]
  have hinit : (first :: (inner ++ [last])).dropLast = first :: inner := by
    rw [← List.cons_append, List.dropLast_concat]
  constructor
  · intro h
    refine ⟨h.head_opens, h.tail_opens, ?_, ?_⟩
    · have hclose := h.last_closes
      rwa [hlast] at hclose
    · have hinner := h.init_contains
      rwa [hinit] at hinner
  · rintro ⟨hopen, htail, hclose, hinner⟩
    refine ⟨hopen, htail, ?_, ?_⟩
    · rw [hlast]
      exact hclose
    · rw [hinit]
      exact hinner

/-- A doc block has one line, or a first and a last one. -/
theorem eq_singleton_or_cons_concat (h : IsBlock opens block) :
    (∃ line, block = [line]) ∨
      ∃ first inner last, block = first :: (inner ++ [last]) := by
  obtain ⟨first, rest, rfl⟩ := List.exists_cons_of_ne_nil h.ne_nil
  rcases List.eq_nil_or_concat rest with rfl | ⟨inner, last, rfl⟩
  · exact Or.inl ⟨first, rfl⟩
  · exact Or.inr ⟨first, inner, last, by rw [List.concat_eq_append]⟩

end IsBlock

/-! ### Slots -/

/-- Whether a span is a **slot** for a declaration: its `decl` is a line that makes the
declaration, and the lines from its `top` up to there form one doc block at the indentation
of the declaration. -/
structure IsSlot (lines : List Text) (d : Declaration) (span : BlockSpan) : Prop where
  declared : (lines[span.decl]?).any d.matchesLine = true
  block : IsBlock d.opensBlock ((lines.take span.decl).drop span.top)

instance (lines : List Text) (d : Declaration) (span : BlockSpan) :
    Decidable (IsSlot lines d span) :=
  decidable_of_iff
    ((lines[span.decl]?).any d.matchesLine = true ∧
      IsBlock d.opensBlock ((lines.take span.decl).drop span.top))
    ⟨fun ⟨h₁, h₂⟩ => ⟨h₁, h₂⟩, fun ⟨h₁, h₂⟩ => ⟨h₁, h₂⟩⟩

/-- All slots for a declaration, from top to bottom. -/
def slots (lines : List Text) (d : Declaration) : List BlockSpan :=
  (List.range lines.length).flatMap fun decl =>
    ((List.range decl).map fun top => ⟨top, decl⟩).filter fun span => IsSlot lines d span

/-- **Slots as decompositions**: a slot cuts a file into the lines before the doc block, the
doc block, the line of the declaration and the lines behind it. -/
theorem isSlot_iff_exists_append {lines : List Text} {d : Declaration} {span : BlockSpan} :
    IsSlot lines d span ↔
      ∃ before block line after, lines = before ++ block ++ line :: after ∧
        span.top = before.length ∧ span.decl = before.length + block.length ∧
        IsBlock d.opensBlock block ∧ d.matchesLine line = true := by
  constructor
  · intro h
    obtain ⟨line, hget, hmatch⟩ := (Option.any_eq_true _ _).mp h.declared
    obtain ⟨hlt, rfl⟩ := List.getElem?_eq_some_iff.mp hget
    have hlen := h.block.length_pos
    rw [List.length_drop, List.length_take] at hlen
    refine ⟨lines.take span.top, (lines.take span.decl).drop span.top, lines[span.decl],
      lines.drop (span.decl + 1), ?_, ?_, ?_, h.block, hmatch⟩
    · have htake : lines.take span.top = (lines.take span.decl).take span.top := by
        rw [List.take_take, Nat.min_eq_left (by omega)]
      rw [htake, List.take_append_drop, ← List.drop_eq_getElem_cons hlt,
        List.take_append_drop]
    · rw [List.length_take]
      omega
    · rw [List.length_take, List.length_drop, List.length_take]
      omega
  · rintro ⟨before, block, line, after, rfl, htop, hdecl, hblock, hmatch⟩
    have hlen : span.decl = (before ++ block).length := by rw [hdecl, List.length_append]
    refine ⟨?_, ?_⟩
    · rw [hlen, List.getElem?_append_right (Nat.le_refl _), Nat.sub_self]
      exact hmatch
    · rw [hlen, List.take_left, htop, List.drop_left]
      exact hblock

theorem IsSlot.top_lt {lines : List Text} {d : Declaration} {span : BlockSpan}
    (h : IsSlot lines d span) : span.top < span.decl := by
  obtain ⟨before, block, line, after, -, htop, hdecl, hblock, -⟩ :=
    isSlot_iff_exists_append.mp h
  have := hblock.length_pos
  omega

theorem IsSlot.decl_lt {lines : List Text} {d : Declaration} {span : BlockSpan}
    (h : IsSlot lines d span) : span.decl < lines.length := by
  obtain ⟨before, block, line, after, rfl, -, hdecl, -, -⟩ := isSlot_iff_exists_append.mp h
  simp only [List.length_append, List.length_cons]
  omega

/-- The list of all slots has all slots. -/
theorem mem_slots_iff {lines : List Text} {d : Declaration} {span : BlockSpan} :
    span ∈ slots lines d ↔ IsSlot lines d span := by
  simp only [slots, List.mem_flatMap, List.mem_range, List.mem_filter, List.mem_map,
    decide_eq_true_eq]
  constructor
  · rintro ⟨-, -, -, h⟩
    exact h
  · intro h
    exact ⟨span.decl, h.decl_lt, ⟨span.top, h.top_lt, rfl⟩, h⟩

/-! ### Going up to the top of a doc block -/

namespace Declaration

variable {d : Declaration}

/-- Going up passes over lines that neither open nor close and stops at a line that opens. -/
theorem openingAbove_append_cons {passed above : List Text} {first : Text}
    (hopen : d.opensBlock first = true) (hpassed : ∀ line ∈ passed, d.opensBlock line = false)
    (hclose : ∀ line ∈ first :: passed, contains Comment.closing line = false) :
    d.openingAbove (passed ++ first :: above) = some above.length := by
  induction passed with
  | nil =>
      have hfirst := hclose first List.mem_cons_self
      simp [openingAbove, hopen, hfirst]
  | cons line passed ih =>
      have hline := hclose line (List.mem_cons_of_mem _ List.mem_cons_self)
      have hsilent := hpassed line List.mem_cons_self
      have hrest := ih (fun l hl => hpassed l (List.mem_cons_of_mem _ hl)) fun l hl => by
        rcases List.mem_cons.mp hl with rfl | hl
        · exact hclose _ List.mem_cons_self
        · exact hclose l (List.mem_cons_of_mem _ (List.mem_cons_of_mem _ hl))
      simpa [openingAbove, hline, hsilent] using hrest

/-- Where going up stops, it has passed over lines that neither open nor close. -/
theorem exists_of_openingAbove_eq_some {above : List Text} {top : Nat}
    (h : d.openingAbove above = some top) :
    ∃ passed first rest, above = passed ++ first :: rest ∧ rest.length = top ∧
      d.opensBlock first = true ∧ (∀ line ∈ passed, d.opensBlock line = false) ∧
        ∀ line ∈ first :: passed, contains Comment.closing line = false := by
  induction above with
  | nil => simp [openingAbove] at h
  | cons line above ih =>
      rw [openingAbove] at h
      split at h
      · simp at h
      · next hclose =>
        split at h
        · next hopen =>
          refine ⟨[], line, above, rfl, Option.some.inj h, hopen, by simp, ?_⟩
          simpa using hclose
        · next hopen =>
          obtain ⟨passed, first, rest, rfl, htop, hfirst, hpassed, hclosed⟩ := ih h
          refine ⟨line :: passed, first, rest, rfl, htop, hfirst, ?_, ?_⟩
          · simpa [hopen] using hpassed
          · simpa [hclose, and_left_comm] using hclosed

/-- Going up from the line below a doc block finds its first line. -/
theorem blockTop_reverse_append {block : List Text} (h : IsBlock d.opensBlock block)
    (above : List Text) : d.blockTop (block.reverse ++ above) = some above.length := by
  rcases h.eq_singleton_or_cons_concat with ⟨line, rfl⟩ | ⟨first, inner, last, rfl⟩
  · obtain ⟨hopen, hclose⟩ := IsBlock.singleton_iff.mp h
    simp [blockTop, hopen, hclose]
  · obtain ⟨hopen, htail, hclose, hinner⟩ := IsBlock.cons_concat_iff.mp h
    have hlast : d.opensBlock last = false := htail last (by simp)
    have hup : d.openingAbove (inner.reverse ++ first :: above) = some above.length :=
      openingAbove_append_cons hopen (fun line hline => htail line (by simp_all))
        (fun line hline => hinner line (by simp_all))
    simpa [blockTop, hclose, hlast] using hup

/-- **What going up finds**: the first line of lines that form a doc block and end right
above. -/
theorem blockTop_eq_some_iff {above : List Text} {top : Nat} :
    d.blockTop above = some top ↔
      ∃ block rest, above = block.reverse ++ rest ∧ rest.length = top ∧
        IsBlock d.opensBlock block := by
  constructor
  · intro h
    cases above with
    | nil => simp [blockTop] at h
    | cons last above =>
        rw [blockTop] at h
        split at h
        · simp at h
        · next hclose =>
          have hclose : closesBlock last = true := by simpa using hclose
          split at h
          · next hopen =>
            exact ⟨[last], above, rfl, Option.some.inj h,
              IsBlock.singleton_iff.mpr ⟨hopen, hclose⟩⟩
          · next hopen =>
            obtain ⟨passed, first, rest, rfl, htop, hfirst, hpassed, hclosed⟩ :=
              exists_of_openingAbove_eq_some h
            refine ⟨first :: (passed.reverse ++ [last]), rest, by simp, htop,
              IsBlock.cons_concat_iff.mpr ⟨hfirst, fun line hline => ?_, hclose, ?_⟩⟩
            · rcases List.mem_append.mp hline with hline | hline
              · exact hpassed line (List.mem_reverse.mp hline)
              · rw [List.mem_singleton.mp hline]
                exact Bool.eq_false_iff.mpr hopen
            · simpa using hclosed
  · rintro ⟨block, rest, rfl, rfl, hblock⟩
    exact blockTop_reverse_append hblock rest

/-! ### Meeting all slots on a way through a file -/

/-- The first line of the doc block of a line that makes the declaration, `above` being the
lines before it, nearest first. -/
def slotAt (d : Declaration) (above : List Text) (line : Text) : Option Nat :=
  if d.matchesLine line then d.blockTop above else none

/-- The slots that are met on the way through `lines`, `above` being the lines before them,
nearest first. -/
def slotsFrom (d : Declaration) (above : List Text) : List Text → List BlockSpan
  | [] => []
  | line :: rest =>
    ((d.slotAt above line).map fun top => ⟨top, above.length⟩).toList ++
      d.slotsFrom (line :: above) rest

/-- The search stops at the first slot that it meets. -/
theorem locateFrom_eq_head?_slotsFrom (above lines : List Text) :
    d.locateFrom above lines = (d.slotsFrom above lines).head? := by
  induction lines generalizing above with
  | nil => rfl
  | cons line rest ih =>
      rw [locateFrom, slotsFrom, slotAt]
      cases (if d.matchesLine line then d.blockTop above else none) with
      | none => exact ih _
      | some top => rfl

theorem slotsFrom_append (above before after : List Text) :
    d.slotsFrom above (before ++ after) =
      d.slotsFrom above before ++ d.slotsFrom (before.reverse ++ above) after := by
  induction before generalizing above with
  | nil => rfl
  | cons line before ih =>
      rw [List.cons_append, slotsFrom, slotsFrom, ih, List.append_assoc, List.reverse_cons,
        List.append_assoc, List.singleton_append]

/-- What is met on the way through a file, in terms of the line at which it is met. -/
theorem mem_slotsFrom_iff {above lines : List Text} {span : BlockSpan} :
    span ∈ d.slotsFrom above lines ↔
      ∃ before line after, lines = before ++ line :: after ∧
        d.slotAt (before.reverse ++ above) line = some span.top ∧
        span.decl = above.length + before.length := by
  induction lines generalizing above with
  | nil => simp [slotsFrom]
  | cons line rest ih =>
      rw [slotsFrom, List.mem_append, ih]
      constructor
      · rintro (h | ⟨before, next, after, rfl, hslot, hdecl⟩)
        · obtain ⟨top, htop, rfl⟩ := by simpa using h
          exact ⟨[], line, rest, rfl, htop, rfl⟩
        · refine ⟨line :: before, next, after, rfl, by simpa using hslot, ?_⟩
          rw [hdecl, List.length_cons, List.length_cons]
          omega
      · rintro ⟨before, next, after, hlines, hslot, hdecl⟩
        cases before with
        | nil =>
            obtain ⟨rfl, rfl⟩ := List.cons.inj hlines
            refine Or.inl ?_
            rw [List.reverse_nil, List.nil_append] at hslot
            rw [hslot, Option.map_some, Option.toList_some, List.mem_singleton]
            cases span
            simp_all
        | cons first before =>
            obtain ⟨rfl, rfl⟩ := List.cons.inj hlines
            refine Or.inr ⟨before, next, after, rfl, by simpa using hslot, ?_⟩
            rw [hdecl, List.length_cons, List.length_cons]
            omega

/-- A slot is what is met at its line. -/
theorem mem_slotsFrom_nil_iff {lines : List Text} {span : BlockSpan} :
    span ∈ d.slotsFrom [] lines ↔ IsSlot lines d span := by
  rw [mem_slotsFrom_iff, isSlot_iff_exists_append]
  constructor
  · rintro ⟨before, line, after, rfl, hslot, hdecl⟩
    rw [slotAt, Option.ite_none_right_eq_some, blockTop_eq_some_iff] at hslot
    obtain ⟨hmatch, block, rest, habove, htop, hblock⟩ := hslot
    have hbefore : before = rest.reverse ++ block := by
      rw [List.append_nil] at habove
      rw [← List.reverse_reverse before, habove, List.reverse_append, List.reverse_reverse]
    subst hbefore
    refine ⟨rest.reverse, block, line, after, rfl, ?_, ?_, hblock, hmatch⟩
    · rw [List.length_reverse, htop]
    · rw [hdecl, List.length_append, List.length_nil, Nat.zero_add]
  · rintro ⟨before, block, line, after, rfl, htop, hdecl, hblock, hmatch⟩
    refine ⟨before ++ block, line, after, rfl, ?_, ?_⟩
    · rw [slotAt, if_pos hmatch, List.reverse_append, List.append_assoc,
        blockTop_reverse_append hblock, List.append_nil, List.length_reverse, htop]
    · rw [hdecl, List.length_append, List.length_nil, Nat.zero_add]

end Declaration

/-! ### The two lists of slots agree -/

/-- The order of spans in a file: that of their declarations. -/
def BlockSpan.Before (s t : BlockSpan) : Prop := s.decl < t.decl

instance : Std.Irrefl BlockSpan.Before := ⟨fun s => Nat.lt_irrefl s.decl⟩

instance : Std.Antisymm BlockSpan.Before :=
  ⟨fun _ _ h h' => absurd h (Nat.lt_asymm h')⟩

/-- A line has at most one doc block. -/
theorem IsSlot.top_eq {lines : List Text} {d : Declaration} {s t : BlockSpan}
    (hs : IsSlot lines d s) (ht : IsSlot lines d t) (h : s.decl = t.decl) : s = t := by
  rw [← Declaration.mem_slotsFrom_nil_iff, Declaration.mem_slotsFrom_iff] at hs ht
  obtain ⟨before, line, after, rfl, hs, hsdecl⟩ := hs
  obtain ⟨before', line', after', heq, ht, htdecl⟩ := ht
  have hlen : before.length = before'.length := by omega
  obtain ⟨rfl, hcons⟩ := List.append_inj heq hlen
  obtain ⟨rfl, -⟩ := List.cons.inj hcons
  have htop : s.top = t.top := Option.some.inj (hs.symm.trans ht)
  cases s
  cases t
  simp_all

/-- Slots are met in the order of their declarations. -/
theorem Declaration.pairwise_slotsFrom (d : Declaration) (above lines : List Text) :
    (d.slotsFrom above lines).Pairwise BlockSpan.Before := by
  induction lines generalizing above with
  | nil => exact List.Pairwise.nil
  | cons line rest ih =>
      rw [Declaration.slotsFrom, List.pairwise_append]
      refine ⟨?_, ih _, ?_⟩
      · cases d.slotAt above line <;> simp
      · intro s hs t ht
        obtain ⟨top, -, rfl⟩ := by simpa using hs
        obtain ⟨before, next, after, -, -, hdecl⟩ := Declaration.mem_slotsFrom_iff.mp ht
        rw [List.length_cons] at hdecl
        show above.length < t.decl
        omega

/-- The list of all slots goes from top to bottom. -/
theorem pairwise_slots (lines : List Text) (d : Declaration) :
    (slots lines d).Pairwise BlockSpan.Before := by
  rw [slots, List.pairwise_flatMap]
  constructor
  · intro decl _
    have hnodup : ((List.range decl).map fun top => (⟨top, decl⟩ : BlockSpan)).Nodup :=
      List.nodup_range.map fun top top' h => congrArg BlockSpan.top h
    refine (hnodup.filter _).imp_of_mem fun hs ht hne => ?_
    simp only [List.mem_filter, List.mem_map, decide_eq_true_eq] at hs ht
    obtain ⟨⟨top, -, rfl⟩, hs⟩ := hs
    obtain ⟨⟨top', -, rfl⟩, ht⟩ := ht
    exact absurd (hs.top_eq ht rfl) hne
  · refine List.pairwise_lt_range.imp fun hlt s hs t ht => ?_
    simp only [List.mem_filter, List.mem_map] at hs ht
    obtain ⟨⟨top, -, rfl⟩, -⟩ := hs
    obtain ⟨⟨top', -, rfl⟩, -⟩ := ht
    exact hlt

/-- **All slots are met on the way through a file**, and nothing else is. -/
theorem slots_eq_slotsFrom (lines : List Text) (d : Declaration) :
    slots lines d = d.slotsFrom [] lines :=
  (pairwise_slots lines d).eq_of_mem_iff (d.pairwise_slotsFrom [] lines) fun span => by
    rw [mem_slots_iff, Declaration.mem_slotsFrom_nil_iff]

/-- **The search answers the first slot.** -/
theorem locate_eq_head?_slots (lines : List Text) (d : Declaration) :
    locate lines d = (slots lines d).head? := by
  rw [locate, Declaration.locateFrom_eq_head?_slotsFrom, slots_eq_slotsFrom]

end DocBlocks
