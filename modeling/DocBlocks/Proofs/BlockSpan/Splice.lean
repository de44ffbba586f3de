import DocBlocks.Injection
import DocBlocks.Proofs.BlockSpan.Slot

/-!
# What Replacing One Doc Block Does to All Slots

When a doc block is replaced, the lines below it move, and lines appear in which nobody has
looked for declarations yet. Neither creates, hides or mixes up a slot. The lines put in
declare nothing: each of them opens a comment, or stands below a line that ends none. And no
search from below gets past the declaration: its line opens no doc block, and the line above
it ends one or is a remark (`IsWall`). So the slots of a file are those before the doc block,
possibly its own, and those behind its declaration, and the three parts know nothing of each
other (`slots_around`).

The one slot that can be lost is that of the doc block itself. It is lost exactly if remarks
are put between the new doc block and the declaration.

## Main results

* `slots_around`: the slots of a file in three parts, around one doc block.
* `slots_splice`: the slots of a file after a doc block was replaced are the slots before,
  each moved along with its lines, without those that remarks have cut off.
-/

namespace DocBlocks

open Text

/-- Whether a line is a remark: a line comment at the indentation of members. -/
def IsRemark (line : Text) : Prop :=
  ∃ rest, line = Declaration.memberIndent ++ '/' :: '/' :: rest

theorem IsRemark.opensBlock {line : Text} (h : IsRemark line) (d : Declaration) :
    d.opensBlock line = false := by
  obtain ⟨rest, rfl⟩ := h
  cases d <;> rfl

theorem IsRemark.matchesLine {line : Text} {d : Declaration} (h : IsRemark line)
    (hd : d.IsCode) : d.matchesLine line = false := by
  obtain ⟨rest, rfl⟩ := h
  exact hd.matchesLine_slash (.ofMember []) _

namespace Declaration

variable {d d' : Declaration}

/-! ### Walls -/

/-- Whether the lines `above`, nearest first, are a **wall** for the search: no doc block of
the declaration that ends further down reaches into them. -/
structure IsWall (d : Declaration) (above : List Text) : Prop where
  blockTop : d.blockTop above = none
  openingAbove : d.openingAbove above = none

theorem openingAbove_append {above : List Text} (h : d.openingAbove above = none)
    (lines : List Text) :
    d.openingAbove (lines ++ above) = (d.openingAbove lines).map (· + above.length) := by
  induction lines with
  | nil => exact h
  | cons line lines ih =>
      rw [List.cons_append, openingAbove, openingAbove, List.length_append]
      split
      · rfl
      · split
        · rfl
        · exact ih

/-- On the near side of a wall the search goes as if nothing were behind it. -/
theorem IsWall.blockTop_append {above : List Text} (h : d.IsWall above) (lines : List Text) :
    d.blockTop (lines ++ above) = (d.blockTop lines).map (· + above.length) := by
  cases lines with
  | nil => exact h.blockTop
  | cons last lines =>
      rw [List.cons_append, Declaration.blockTop, Declaration.blockTop, List.length_append]
      split
      · rfl
      · split
        · rfl
        · exact openingAbove_append h.openingAbove lines

end Declaration

/-- A span some lines further down. -/
def BlockSpan.shift (n : Nat) (span : BlockSpan) : BlockSpan := ⟨span.top + n, span.decl + n⟩

namespace Declaration

variable {d d' : Declaration}

/-- The slots behind a wall are those of the lines behind it alone, further down. -/
theorem IsWall.slotsFrom_append {above : List Text} (h : d.IsWall above)
    (near lines : List Text) :
    d.slotsFrom (near ++ above) lines =
      (d.slotsFrom near lines).map (BlockSpan.shift above.length) := by
  induction lines generalizing near with
  | nil => rfl
  | cons line rest ih =>
      have hrest := ih (line :: near)
      rw [List.cons_append] at hrest
      have hslot : d.slotAt (near ++ above) line =
          (d.slotAt near line).map (· + above.length) := by
        rw [slotAt, slotAt, h.blockTop_append]
        split <;> rfl
      rw [slotsFrom, slotsFrom, List.map_append, hrest, hslot, List.length_append]
      cases d.slotAt near line <;> rfl

/-- A doc block lets no search for an opening line through, for its last line closes it. -/
theorem openingAbove_of_isBlock {opens : Text → Bool} {block : List Text}
    (h : IsBlock opens block) (d : Declaration) (above : List Text) :
    d.openingAbove (block.reverse ++ above) = none := by
  obtain ⟨init, last, rfl⟩ : ∃ init last, block = init ++ [last] := by
    rcases h.eq_singleton_or_cons_concat with ⟨line, rfl⟩ | ⟨first, inner, last, rfl⟩
    · exact ⟨[], line, rfl⟩
    · exact ⟨first :: inner, last, rfl⟩
  have hclose : closesBlock last = true := by simpa using h.last_closes
  rw [List.reverse_concat, List.cons_append, openingAbove,
    if_pos (contains_closing_of_closesBlock hclose)]

/-- No remark opens a doc block. -/
theorem openingAbove_of_isRemark {remarks : List Text} (h : ∀ line ∈ remarks, IsRemark line)
    (d : Declaration) : d.openingAbove remarks = none := by
  induction remarks with
  | nil => rfl
  | cons line remarks ih =>
      have hline := (h line List.mem_cons_self).opensBlock d
      rw [openingAbove, ih fun l hl => h l (List.mem_cons_of_mem _ hl), hline]
      simp

/-- Neither does a doc block let a search through that has come through remarks below it. -/
theorem openingAbove_of_isBlock_append {opens : Text → Bool} {block remarks : List Text}
    (h : IsBlock opens block) (hr : ∀ line ∈ remarks, IsRemark line) (d : Declaration)
    (above : List Text) :
    d.openingAbove ((block ++ remarks).reverse ++ above) = none := by
  have hr : ∀ line ∈ remarks.reverse, IsRemark line :=
    fun line hline => hr line (List.mem_reverse.mp hline)
  rw [List.reverse_append, List.append_assoc,
    openingAbove_append (openingAbove_of_isBlock h d above), openingAbove_of_isRemark hr,
    Option.map_none]

/-- **A declaration below a doc block is a wall**, also with remarks between the two. -/
theorem IsCode.isWall {opens : Text → Bool} {block remarks : List Text} {line : Text}
    (hd : d.IsCode) (hmatch : d.matchesLine line = true) (h : IsBlock opens block)
    (hr : ∀ l ∈ remarks, IsRemark l) (d' : Declaration) (above : List Text) :
    d'.IsWall (line :: ((block ++ remarks).reverse ++ above)) := by
  have hline : d'.opensBlock line = false := hd.opensBlock_of_matchesLine hmatch
  have hup := openingAbove_of_isBlock_append h hr d' above
  constructor
  · rw [Declaration.blockTop, hup, hline]
    simp
  · rw [Declaration.openingAbove, hup, hline]
    simp

/-! ### The lines put in -/

/-- Below a line that ends no doc block there is no slot. -/
theorem slotsFrom_of_closesBlock {last : Text} {lines : List Text} (above : List Text)
    (hlast : closesBlock last = false) (h : ∀ line ∈ lines.dropLast, closesBlock line = false) :
    d.slotsFrom (last :: above) lines = [] := by
  induction lines generalizing last above with
  | nil => rfl
  | cons line rest ih =>
      have hslot : d.slotAt (last :: above) line = none := by
        rw [slotAt, blockTop, hlast]
        simp
      rw [slotsFrom, hslot, Option.map_none, Option.toList_none, List.nil_append]
      cases rest with
      | nil => rfl
      | cons next rest =>
          rw [List.dropLast_cons_cons] at h
          exact ih _ (h line List.mem_cons_self) fun l hl => h l (List.mem_cons_of_mem _ hl)

/-- Among the lines of a doc block there is no slot. -/
theorem IsCode.slotsFrom_of_isBlock {block : List Text} (hd : d.IsCode)
    (h : IsBlock d'.opensBlock block) (above : List Text) : d.slotsFrom above block = [] := by
  obtain ⟨first, rest, rfl⟩ := List.exists_cons_of_ne_nil h.ne_nil
  have hfirst : d.matchesLine first = false := hd.matchesLine_of_opensBlock h.head_opens
  rw [slotsFrom, slotAt, hfirst]
  cases rest with
  | nil => rfl
  | cons next rest =>
      have hinit := h.init_contains
      rw [List.dropLast_cons_cons] at hinit
      exact slotsFrom_of_closesBlock above
        (closesBlock_of_contains_closing (hinit first List.mem_cons_self)) fun line hline =>
          closesBlock_of_contains_closing (hinit line (List.mem_cons_of_mem _ hline))

/-- Among remarks there is no slot. -/
theorem IsCode.slotsFrom_of_isRemark {remarks : List Text} (hd : d.IsCode)
    (h : ∀ line ∈ remarks, IsRemark line) (above : List Text) :
    d.slotsFrom above remarks = [] := by
  induction remarks generalizing above with
  | nil => rfl
  | cons line rest ih =>
      have hline := (h line List.mem_cons_self).matchesLine hd
      rw [slotsFrom, slotAt, hline, ih fun l hl => h l (List.mem_cons_of_mem _ hl)]
      rfl

/-- The declaration below a doc block has its slot there, unless remarks stand between. -/
theorem slotAt_below_isBlock {block remarks : List Text} {line : Text}
    (hmatch : d.matchesLine line = true) (h : IsBlock d.opensBlock block)
    (hr : ∀ l ∈ remarks, IsRemark l) (hmatch' : d'.matchesLine line = true)
    (above : List Text) :
    d'.slotAt ((block ++ remarks).reverse ++ above) line =
      if remarks = [] then some above.length else none := by
  rw [slotAt, if_pos hmatch']
  rcases List.eq_nil_or_concat remarks with rfl | ⟨init, last, rfl⟩
  · rw [opensBlock_congr_of_matchesLine hmatch hmatch'] at h
    rw [if_pos rfl, List.append_nil, blockTop_reverse_append h]
  · rw [List.concat_eq_append] at hr ⊢
    have hinit := openingAbove_of_isBlock_append h
      (fun l hl => hr l (List.mem_append_left _ hl)) d' above
    have hlast := (hr last (List.mem_append_right _ (List.mem_singleton.mpr rfl))).opensBlock d'
    rw [← List.append_assoc, List.reverse_concat, List.cons_append, blockTop, hinit, hlast]
    simp

end Declaration

/-! ### All slots of a file around one doc block -/

section Around

variable {d d' : Declaration} {block remarks : List Text} {line : Text}

/-- **The slots around a doc block** are those before it, its own, and those behind its
declaration, further down. Its own is there if remarks do not cut it off. -/
theorem slots_around (hd : d.IsCode) (hmatch : d.matchesLine line = true)
    (hblock : IsBlock d.opensBlock block) (hr : ∀ l ∈ remarks, IsRemark l) (hd' : d'.IsCode)
    (before after : List Text) :
    slots (before ++ (block ++ remarks) ++ line :: after) d' =
      slots before d' ++
        (if d'.matchesLine line = true ∧ remarks = [] then
          [⟨before.length, before.length + block.length⟩] else []) ++
        (slots after d').map
          (BlockSpan.shift (before.length + (block ++ remarks).length + 1)) := by
  have hafter := (hd.isWall hmatch hblock hr d' before.reverse).slotsFrom_append [] after
  have hlen : (line :: ((block ++ remarks).reverse ++ before.reverse)).length =
      before.length + (block ++ remarks).length + 1 := by
    simp only [List.length_cons, List.length_append, List.length_reverse]
    omega
  have hhere : ((d'.slotAt ((block ++ remarks).reverse ++ before.reverse) line).map
      fun top => (⟨top, ((block ++ remarks).reverse ++ before.reverse).length⟩ : BlockSpan)).toList
      = if d'.matchesLine line = true ∧ remarks = [] then
          [⟨before.length, before.length + block.length⟩] else [] := by
    by_cases hmatch' : d'.matchesLine line = true
    · rw [Declaration.slotAt_below_isBlock hmatch hblock hr hmatch']
      by_cases hnil : remarks = []
      · subst hnil
        simp [hmatch', Nat.add_comm]
      · simp [hnil]
    · simp [Declaration.slotAt, hmatch']
  simp only [slots_eq_slotsFrom]
  rw [List.nil_append, hlen] at hafter
  rw [List.append_assoc, Declaration.slotsFrom_append, Declaration.slotsFrom_append,
    Declaration.slotsFrom_append, hd'.slotsFrom_of_isBlock hblock,
    hd'.slotsFrom_of_isRemark hr, List.nil_append, List.nil_append, List.append_nil,
    Declaration.slotsFrom, hhere, hafter, List.append_assoc]

/-- The slots around a doc block with nothing between it and its declaration. -/
theorem slots_around_isBlock (hd : d.IsCode) (hmatch : d.matchesLine line = true)
    (hblock : IsBlock d.opensBlock block) (hd' : d'.IsCode) (before after : List Text) :
    slots (before ++ block ++ line :: after) d' =
      slots before d' ++
        (if d'.matchesLine line = true then
          [⟨before.length, before.length + block.length⟩] else []) ++
        (slots after d').map (BlockSpan.shift (before.length + block.length + 1)) := by
  have hall := slots_around hd hmatch hblock (List.forall_mem_nil _) hd' before after
  rw [List.append_nil] at hall
  simpa only [and_true] using hall

end Around

/-! ### All slots of a file after a splice -/

namespace BlockSpan

/-- Where the line of a number goes if `n` lines replace the doc block of `span`. What matters
are the lines up to the first one of the doc block, and from the declaration on. -/
def moveLine (span : BlockSpan) (n i : Nat) : Nat :=
  if i < span.decl then i else span.top + n + (i - span.decl)

/-- Where a span goes if `n` lines replace the doc block of `span`. -/
def move (span : BlockSpan) (n : Nat) (s : BlockSpan) : BlockSpan :=
  ⟨span.moveLine n s.top, span.moveLine n s.decl⟩

variable {span s : BlockSpan}

theorem moveLine_of_lt {i : Nat} (h : i < span.decl) (n : Nat) : span.moveLine n i = i := by
  rw [moveLine, if_pos h]

theorem moveLine_of_le {i : Nat} (h : span.decl ≤ i) (n : Nat) :
    span.moveLine n i = span.top + n + (i - span.decl) := by
  rw [moveLine, if_neg (Nat.not_lt.mpr h)]

theorem move_of_lt (htop : s.top < span.decl) (hdecl : s.decl < span.decl) (n : Nat) :
    span.move n s = s := by
  rw [move, moveLine_of_lt htop, moveLine_of_lt hdecl]

theorem move_self (h : span.top < span.decl) (n : Nat) :
    span.move n span = ⟨span.top, span.top + n⟩ := by
  rw [move, moveLine_of_lt h, moveLine_of_le (Nat.le_refl _), Nat.sub_self, Nat.add_zero]

/-- Spans behind the declaration stay as far behind it as they were. -/
theorem move_shift (span s : BlockSpan) (n : Nat) :
    span.move n (s.shift (span.decl + 1)) = s.shift (span.top + n + 1) := by
  have hline : ∀ i, span.moveLine n (i + (span.decl + 1)) = i + (span.top + n + 1) := by
    intro i
    rw [moveLine_of_le (by omega)]
    omega
  rw [move, shift, shift, hline, hline]

end BlockSpan

section Splice

variable {d d' : Declaration} {lines block remarks : List Text} {span : BlockSpan}

theorem BlockSpan.take_top {before : List Text} (h : span.top = before.length)
    (old after : List Text) : (before ++ old ++ after).take span.top = before := by
  rw [h, List.append_assoc, List.take_left]

theorem BlockSpan.take_decl {before old : List Text}
    (h : span.decl = before.length + old.length) (after : List Text) :
    (before ++ old ++ after).take span.decl = before ++ old := by
  rw [h, ← List.length_append, List.take_left]

/-- A splice takes a doc block out of a file and leaves all other lines. -/
theorem splice_append {before old after : List Text}
    (htop : span.top = before.length) (hdecl : span.decl = before.length + old.length)
    (block : List Text) :
    span.splice block (before ++ old ++ after) = before ++ block ++ after := by
  rw [BlockSpan.splice, BlockSpan.take_top htop, hdecl, ← List.length_append, List.drop_left]

/-- **The slots after a splice** are the slots before it, moved along with their lines; only
those of the declaration below the new doc block are gone if remarks stand between. -/
theorem slots_splice (hd : d.IsCode) (hspan : IsSlot lines d span)
    (hblock : IsBlock d.opensBlock block) (hr : ∀ l ∈ remarks, IsRemark l) (hd' : d'.IsCode) :
    slots (span.splice (block ++ remarks) lines) d' =
      ((slots lines d').filter fun s => remarks = [] ∨ s.decl ≠ span.decl).map
        (span.move (block ++ remarks).length) := by
  obtain ⟨before, old, line, after, rfl, htop, hdecl, hold, hmatch⟩ :=
    isSlot_iff_exists_append.mp hspan
  have hnew := slots_around hd hmatch hblock hr hd' before after
  have hwas := slots_around_isBlock hd hmatch hold hd' before after
  have hlt : ∀ s ∈ slots before d', s.top < span.decl ∧ s.decl < span.decl := by
    intro s hs
    have hs := mem_slots_iff.mp hs
    have := hs.top_lt
    have := hs.decl_lt
    omega
  have hbefore : (slots before d').map (span.move (block ++ remarks).length) =
      slots before d' := by
    refine (List.map_congr_left fun s hs => ?_).trans (List.map_id _)
    exact BlockSpan.move_of_lt (hlt s hs).1 (hlt s hs).2 _
  have hself : (⟨before.length, before.length + old.length⟩ : BlockSpan) = span := by
    rw [← hdecl, ← htop]
  have hafter : ((slots after d').map (BlockSpan.shift (before.length + old.length + 1))).map
        (span.move (block ++ remarks).length) =
      (slots after d').map
        (BlockSpan.shift (before.length + (block ++ remarks).length + 1)) := by
    rw [List.map_map, ← hdecl, ← htop]
    exact List.map_congr_left fun s _ => BlockSpan.move_shift span s _
  rw [splice_append htop hdecl, hnew, hwas, List.filter_append, List.filter_append,
    List.map_append, List.map_append, hself]
  congr 1
  · congr 1
    · rw [List.filter_eq_self.mpr fun s hs => ?_, hbefore]
      have := (hlt s hs).2
      simp only [decide_eq_true_eq]
      omega
    · by_cases hmatch' : d'.matchesLine line = true
      · by_cases hnil : remarks = []
        · subst hnil
          simp [hmatch', BlockSpan.move_self hspan.top_lt, htop]
        · simp [hnil]
      · simp [hmatch']
  · rw [List.filter_eq_self.mpr fun s hs => ?_, hafter]
    obtain ⟨s, -, rfl⟩ := List.mem_map.mp hs
    refine decide_eq_true (Or.inr ?_)
    show s.decl + (before.length + old.length + 1) ≠ span.decl
    omega

end Splice

end DocBlocks
