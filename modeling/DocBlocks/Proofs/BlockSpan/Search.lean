import DocBlocks.Proofs.BlockSpan.Slot
import Mathlib.Order.Bounds.Basic

/-!
# The Search by Line Numbers

What the search for a doc block answers can be said in terms of the numbers of lines alone. A
line is documented (`DocumentedAt`) if it makes the declaration, the line above it ends a comment,
and some line at or above that one opens a doc block, with no closing marker from there down to
the last line of the comment. The search answers the first documented line, and the nearest line
above it that opens a doc block.

That nearest line need not be the one by which the line is documented, but no closing marker
stands between the two. So a documented line has a slot, and the slot starts at the nearest line.

## Main results

* `isSlot_iff_lineAt`: slots by the numbers of their lines.
* `documentedAt_iff_exists_isSlot`: the documented lines are those of slots.
* `locate_isLeast`: what the search answers, and where its answer lies.
-/

namespace DocBlocks

open Text

/-- Whether there is a line of the given number that passes a test. -/
def LineAt (lines : List Text) (test : Text → Bool) (i : Nat) : Prop :=
  (lines[i]?).any test = true

instance (lines : List Text) (test : Text → Bool) : DecidablePred (LineAt lines test) :=
  fun _ => inferInstanceAs (Decidable (_ = true))

/-- Whether a line makes the declaration and stands right below a comment that a line opens as a
doc block. The last line of the comment may hold any number of closing markers, those above it
none. -/
structure DocumentedAt (lines : List Text) (d : Declaration) (i : Nat) : Prop where
  pos : 1 ≤ i
  declared : LineAt lines d.matchesLine i
  closed : LineAt lines Declaration.closesBlock (i - 1)
  opened : ∃ j ≤ i - 1, LineAt lines d.opensBlock j ∧
    ∀ k, j ≤ k → k < i - 1 → ¬LineAt lines (contains Comment.closing) k

section Numbers

variable {lines : List Text} {d : Declaration} {span : BlockSpan}

/-! ### Slots by line numbers -/

theorem LineAt.lt_length {test : Text → Bool} {i : Nat} (h : LineAt lines test i) :
    i < lines.length := by
  obtain ⟨line, hline, -⟩ := (Option.any_eq_true _ _).mp h
  exact (List.getElem?_eq_some_iff.mp hline).1

/-- The lines of a block behind the first one, by their numbers. -/
theorem forall_mem_tail_iff_lineAt {test : Text → Bool} {block : List Text} :
    (∀ line ∈ block.tail, test line = false) ↔ ∀ k, 0 < k → ¬LineAt block test k := by
  constructor
  · intro h k hk hline
    obtain ⟨line, hget, htest⟩ := (Option.any_eq_true _ _).mp hline
    obtain ⟨k, rfl⟩ := Nat.exists_eq_add_one_of_ne_zero (Nat.ne_of_gt hk)
    rw [← List.getElem?_tail] at hget
    rw [h line (List.mem_of_getElem? hget)] at htest
    exact Bool.false_ne_true htest
  · intro h line hline
    obtain ⟨k, hget⟩ := List.mem_iff_getElem?.mp hline
    rw [List.getElem?_tail] at hget
    rw [Bool.eq_false_iff]
    intro htest
    exact h (k + 1) (Nat.succ_pos k) ((Option.any_eq_true _ _).mpr ⟨line, hget, htest⟩)

/-- The lines of a block before the last one, by their numbers. -/
theorem forall_mem_dropLast_iff_lineAt {test : Text → Bool} {block : List Text} :
    (∀ line ∈ block.dropLast, test line = false) ↔
      ∀ k < block.length - 1, ¬LineAt block test k := by
  constructor
  · intro h k hk hline
    obtain ⟨line, hget, htest⟩ := (Option.any_eq_true _ _).mp hline
    have hmem : block.dropLast[k]? = some line := by
      rw [List.getElem?_dropLast, if_pos hk, hget]
    rw [h line (List.mem_of_getElem? hmem)] at htest
    exact Bool.false_ne_true htest
  · intro h line hline
    obtain ⟨k, hget⟩ := List.mem_iff_getElem?.mp hline
    rw [List.getElem?_dropLast, Option.ite_none_right_eq_some] at hget
    rw [Bool.eq_false_iff]
    intro htest
    exact h k hget.1 ((Option.any_eq_true _ _).mpr ⟨line, hget.2, htest⟩)

/-- One doc block by the numbers of its lines. -/
theorem isBlock_iff_lineAt {opens : Text → Bool} {block : List Text} :
    IsBlock opens block ↔
      LineAt block opens 0 ∧ (∀ k, 0 < k → ¬LineAt block opens k) ∧
        LineAt block Declaration.closesBlock (block.length - 1) ∧
        ∀ k < block.length - 1, ¬LineAt block (contains Comment.closing) k := by
  rw [← forall_mem_tail_iff_lineAt, ← forall_mem_dropLast_iff_lineAt, LineAt, LineAt,
    ← List.head?_eq_getElem?, ← List.getLast?_eq_getElem?]
  constructor
  · intro h
    exact ⟨h.head_opens, h.tail_opens, h.last_closes, h.init_contains⟩
  · rintro ⟨hhead, htail, hlast, hinit⟩
    exact ⟨hhead, htail, hlast, hinit⟩

/-- The lines from one number up to another, by their numbers. -/
theorem lineAt_drop_take {test : Text → Bool} {top decl k : Nat} :
    LineAt ((lines.take decl).drop top) test k ↔ top + k < decl ∧ LineAt lines test (top + k) := by
  rw [LineAt, LineAt, List.getElem?_drop, List.getElem?_take]
  split
  · next hlt => simp only [hlt, true_and]
  · next hlt => simp [hlt]

/-- **Slots by line numbers.** -/
theorem isSlot_iff_lineAt :
    IsSlot lines d span ↔
      span.top < span.decl ∧ LineAt lines d.matchesLine span.decl ∧
        LineAt lines Declaration.closesBlock (span.decl - 1) ∧
        LineAt lines d.opensBlock span.top ∧
        (∀ k, span.top < k → k < span.decl → ¬LineAt lines d.opensBlock k) ∧
        ∀ k, span.top ≤ k → k < span.decl - 1 →
          ¬LineAt lines (contains Comment.closing) k := by
  constructor
  · intro h
    have hlt := h.top_lt
    have hlen : ((lines.take span.decl).drop span.top).length = span.decl - span.top := by
      rw [List.length_drop, List.length_take, Nat.min_eq_left (Nat.le_of_lt h.decl_lt)]
    obtain ⟨hopen, htail, hclose, hinit⟩ := isBlock_iff_lineAt.mp h.block
    rw [hlen] at hclose hinit
    have hlast : span.top + (span.decl - span.top - 1) = span.decl - 1 := by omega
    refine ⟨hlt, h.declared, ?_, (lineAt_drop_take.mp hopen).2, fun k hk hdecl hline => ?_,
      fun k hk hdecl hline => ?_⟩
    · rw [← hlast]
      exact (lineAt_drop_take.mp hclose).2
    · obtain ⟨k, rfl⟩ := Nat.exists_eq_add_of_le (Nat.le_of_lt hk)
      exact htail k (by omega) (lineAt_drop_take.mpr ⟨hdecl, hline⟩)
    · obtain ⟨k, rfl⟩ := Nat.exists_eq_add_of_le hk
      exact hinit k (by omega) (lineAt_drop_take.mpr ⟨by omega, hline⟩)
  · rintro ⟨hlt, hdeclared, hclose, hopen, htail, hinit⟩
    have hlen : ((lines.take span.decl).drop span.top).length = span.decl - span.top := by
      rw [List.length_drop, List.length_take, Nat.min_eq_left (Nat.le_of_lt hdeclared.lt_length)]
    have hlast : span.top + (span.decl - span.top - 1) = span.decl - 1 := by omega
    refine ⟨hdeclared, isBlock_iff_lineAt.mpr
      ⟨lineAt_drop_take.mpr ⟨hlt, hopen⟩, fun k hk hline => ?_, ?_, fun k hk hline => ?_⟩⟩
    · obtain ⟨hdecl, hline⟩ := lineAt_drop_take.mp hline
      exact htail _ (by omega) hdecl hline
    · rw [hlen]
      refine lineAt_drop_take.mpr ⟨by omega, ?_⟩
      rw [hlast]
      exact hclose
    · rw [hlen] at hk
      exact hinit _ (by omega) (by omega) (lineAt_drop_take.mp hline).2

/-! ### Documented lines -/

/-- The nearest line that opens a doc block, where there is any. -/
theorem exists_isGreatest_opensBlock {i j : Nat} (hj : j ≤ i)
    (hopen : LineAt lines d.opensBlock j) :
    ∃ top, IsGreatest {k | k ≤ i ∧ LineAt lines d.opensBlock k} top := by
  refine ⟨Nat.findGreatest (LineAt lines d.opensBlock) i,
    ⟨Nat.findGreatest_le i, Nat.findGreatest_spec hj hopen⟩, ?_⟩
  rintro k ⟨hk, hline⟩
  exact Nat.le_findGreatest hk hline

/-- **A slot is a documented line** and the nearest line above it that opens a doc block. -/
theorem isSlot_iff_documentedAt :
    IsSlot lines d span ↔
      DocumentedAt lines d span.decl ∧
        IsGreatest {j | j ≤ span.decl - 1 ∧ LineAt lines d.opensBlock j} span.top := by
  constructor
  · intro h
    obtain ⟨hlt, hdeclared, hclose, hopen, htail, hinit⟩ := isSlot_iff_lineAt.mp h
    refine ⟨⟨by omega, hdeclared, hclose, span.top, by omega, hopen, hinit⟩,
      ⟨by omega, hopen⟩, ?_⟩
    rintro k ⟨hk, hline⟩
    by_contra hgt
    exact htail k (by omega) (by omega) hline
  · rintro ⟨hdocumented, ⟨htop, hopen⟩, hgreatest⟩
    obtain ⟨j, hj, hopen', hclean⟩ := hdocumented.opened
    have hjtop : j ≤ span.top := hgreatest ⟨hj, hopen'⟩
    have hpos := hdocumented.pos
    refine isSlot_iff_lineAt.mpr ⟨by omega, hdocumented.declared, hdocumented.closed, hopen,
      fun k hk hdecl hline => ?_, fun k hk hdecl => hclean k (by omega) hdecl⟩
    have hle : k ≤ span.top := hgreatest ⟨by omega, hline⟩
    omega

/-- **Documented lines are those of slots.** -/
theorem documentedAt_iff_exists_isSlot {i : Nat} :
    DocumentedAt lines d i ↔ ∃ top, IsSlot lines d ⟨top, i⟩ := by
  constructor
  · intro h
    obtain ⟨j, hj, hopen, -⟩ := h.opened
    obtain ⟨top, hgreatest⟩ := exists_isGreatest_opensBlock hj hopen
    exact ⟨top, isSlot_iff_documentedAt.mpr ⟨h, hgreatest⟩⟩
  · rintro ⟨top, h⟩
    exact (isSlot_iff_documentedAt.mp h).1

/-! ### The first one -/

/-- The search answers the slot whose declaration comes first. -/
theorem locate_eq_some_iff :
    locate lines d = some span ↔
      IsSlot lines d span ∧ ∀ other, IsSlot lines d other → span.decl ≤ other.decl := by
  have hpairwise := pairwise_slots lines d
  simp only [locate_eq_head?_slots, ← mem_slots_iff]
  cases hslots : slots lines d with
  | nil => simp
  | cons first rest =>
      rw [hslots, List.pairwise_cons] at hpairwise
      rw [List.head?_cons, Option.some.injEq]
      constructor
      · rintro rfl
        refine ⟨List.mem_cons_self, fun other hother => ?_⟩
        rcases List.mem_cons.mp hother with rfl | hother
        · exact Nat.le_refl _
        · exact Nat.le_of_lt (hpairwise.1 other hother)
      · rintro ⟨hspan, hleast⟩
        rcases List.mem_cons.mp hspan with rfl | hspan
        · rfl
        · have hle : span.decl ≤ first.decl := hleast first List.mem_cons_self
          exact absurd (hpairwise.1 span hspan) (Nat.not_lt.mpr hle)

end Numbers

/-- **The search is sound, complete and answers the first match.** It answers a span exactly if
the span is the least documented line with the nearest line above it that opens a doc block, and
it answers nothing exactly if no line is documented. The declaration of a span is a line of the
file, and its first line comes before it, so that its length is no subtraction cut short. -/
theorem locate_isLeast (lines : List Text) (d : Declaration) :
    (∀ span, locate lines d = some span ↔
      IsLeast {i | DocumentedAt lines d i} span.decl ∧
        IsGreatest {j | j ≤ span.decl - 1 ∧ LineAt lines d.opensBlock j} span.top) ∧
    (locate lines d = none ↔ ∀ i, ¬DocumentedAt lines d i) ∧
    ∀ span ∈ locate lines d, span.top < span.decl ∧ span.decl < lines.length ∧
      span.top + span.length = span.decl := by
  refine ⟨fun span => ?_, ?_, fun span hspan => ?_⟩
  · rw [locate_eq_some_iff, isSlot_iff_documentedAt]
    constructor
    · rintro ⟨⟨hdocumented, hgreatest⟩, hleast⟩
      refine ⟨⟨hdocumented, fun i hi => ?_⟩, hgreatest⟩
      obtain ⟨top, hslot⟩ := documentedAt_iff_exists_isSlot.mp hi
      exact hleast _ hslot
    · rintro ⟨⟨hdocumented, hleast⟩, hgreatest⟩
      exact ⟨⟨hdocumented, hgreatest⟩, fun other hother =>
        hleast (isSlot_iff_documentedAt.mp hother).1⟩
  · rw [locate_eq_head?_slots, List.head?_eq_none_iff, List.eq_nil_iff_forall_not_mem]
    constructor
    · intro h i hi
      obtain ⟨top, hslot⟩ := documentedAt_iff_exists_isSlot.mp hi
      exact h _ (mem_slots_iff.mpr hslot)
    · intro h span hspan
      exact h span.decl (isSlot_iff_documentedAt.mp (mem_slots_iff.mp hspan)).1
  · have hslot := (locate_eq_some_iff.mp hspan).1
    have hlt := hslot.top_lt
    refine ⟨hlt, hslot.decl_lt, ?_⟩
    rw [BlockSpan.length]
    omega

/-- The first `get() {` stands below a comment that no line opens as a doc block, and the second
one below a doc block of two lines. -/
theorem locate_isLeast_second :
    let lines : List Text := ["  /* a */".toList, "  get() \x7b".toList, "  /** b".toList,
      "  c */ */".toList, "  get() \x7b".toList]
    let d : Declaration := .ofMember "get()".toList
    locate lines d = some ⟨2, 4⟩ ∧ IsLeast {i | DocumentedAt lines d i} 4 ∧
      ∀ span ∈ locate lines d, span.decl < lines.length := by
  intro lines d
  obtain ⟨hsome, -, hbounds⟩ := locate_isLeast lines d
  have hlocate : locate lines d = some ⟨2, 4⟩ := by decide
  exact ⟨hlocate, ((hsome _).mp hlocate).1, fun span hspan => (hbounds span hspan).2.1⟩

end DocBlocks
