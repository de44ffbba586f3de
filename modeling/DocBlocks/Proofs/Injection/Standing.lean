import DocBlocks.Proofs.Injection.Substitution
import DocBlocks.Proofs.Text.Lines

/-!
# What Stands in a Slot After a Substitution

A substitution puts into a slot the block of the last patch that it has for it, and leaves
what is there if it has none (`standing`). As slots are apart, the lines at the new position
of a slot are those that stand in it, whatever is done to the others. A substitution that
leaves in each of its slots the lines that are there changes nothing at all.

## Main results

* `linesIn_substitute`: the lines of a slot at its new position are those that stand in it.
* `substitute_eq_self`: a substitution by which every slot stands as it is changes nothing.
* `substitute_ne_nil`, `mem_substitute`: lines are left, and they come from the file or from
  a patch.
-/

namespace DocBlocks

open Text

/-- The lines of a doc block. -/
def BlockSpan.linesIn (span : BlockSpan) (lines : List Text) : List Text :=
  (lines.take span.decl).drop span.top

/-- The lines that stand in a slot after a substitution. -/
def standing (patches : List Patch) (lines : List Text) (span : BlockSpan) : List Text :=
  match (patches.filter fun p => p.span = span).getLast? with
  | none => span.linesIn lines
  | some p => p.block

/-- Whether patches leave a slot whole: each is for that slot, or apart from it. -/
def Spares (patches : List Patch) (span : BlockSpan) : Prop :=
  ∀ p ∈ patches, p.span.decl < span.top ∨ p.span = span ∨ span.decl < p.span.top

/-- Whether patches are for slots of declarations of code. -/
def AreSlots (patches : List Patch) (lines : List Text) : Prop :=
  ∀ p ∈ patches, ∃ d : Declaration, d.IsCode ∧ IsSlot lines d p.span

section Standing

variable {patches : List Patch} {lines : List Text} {span : BlockSpan} {d : Declaration}

theorem BlockSpan.linesIn_append {before old : List Text} (htop : span.top = before.length)
    (hdecl : span.decl = before.length + old.length) (after : List Text) :
    span.linesIn (before ++ old ++ after) = old := by
  rw [BlockSpan.linesIn, BlockSpan.take_decl hdecl, htop, List.drop_left]

theorem AreSlots.spares (h : AreSlots patches lines) (hd : d.IsCode)
    (hspan : IsSlot lines d span) : Spares patches span := by
  intro p hp
  obtain ⟨d', hd', hslot⟩ := h p hp
  exact IsSlot.apart hd hd' hspan hslot

/-! ### In one slot -/

/-- In a slot that is left whole, the patches that cover a line are those for the slot. -/
theorem Spares.filter_covers (h : Spares patches span) {i : Nat} (htop : span.top ≤ i)
    (hdecl : i < span.decl) :
    patches.filter (·.covers i) = patches.filter fun p => p.span = span := by
  refine List.filter_congr fun p hp => ?_
  rw [Bool.eq_iff_iff]
  simp only [Patch.covers, Bool.and_eq_true, decide_eq_true_eq]
  rcases h p hp with hbefore | heq | hbehind
  · constructor
    · omega
    · rintro rfl
      omega
  · rw [heq]
    exact ⟨fun _ => rfl, fun _ => ⟨htop, hdecl⟩⟩
  · constructor
    · omega
    · rintro rfl
      omega

/-- What a substitution makes of the lines of a slot. -/
theorem Spares.substituteFrom_eq (h : Spares patches span) {old : List Text}
    (hold : old ≠ []) (hdecl : span.decl = span.top + old.length) :
    substituteFrom patches span.top old =
      match (patches.filter fun p => p.span = span).getLast? with
      | none => old
      | some p => p.block := by
  cases hlast : (patches.filter fun p => p.span = span).getLast? with
  | none =>
      refine substituteFrom_eq_self fun i htop hi line => ?_
      rw [fate, h.filter_covers htop (by omega), hlast]
  | some p =>
      have hp : p.span = span := by
        simpa using (List.mem_filter.mp (List.mem_of_getLast? hlast)).2
      have hfate : ∀ i, span.top ≤ i → i < span.decl → ∀ line,
          fate patches i line = if i = span.top then p.block else [] := by
        intro i htop hi line
        rw [fate, h.filter_covers htop hi, hlast, ← hp]
      obtain ⟨first, inner, rfl⟩ := List.exists_cons_of_ne_nil hold
      rw [List.length_cons] at hdecl
      rw [substituteFrom_cons, hfate _ (Nat.le_refl _) (by omega), if_pos rfl,
        substituteFrom_eq_nil, List.append_nil]
      intro i htop hi line
      rw [hfate i (by omega) (by omega), if_neg (by omega)]

/-- **The lines of a slot at its new position** are those that stand in it. -/
theorem linesIn_substitute (h : Spares patches span) (hspan : IsSlot lines d span) :
    (moved patches lines span).linesIn (substitute patches lines) =
      standing patches lines span := by
  obtain ⟨before, old, line, after, rfl, htop, hdecl, hold, -⟩ :=
    isSlot_iff_exists_append.mp hspan
  have hthere : substituteFrom patches before.length old =
      standing patches (before ++ old ++ line :: after) span := by
    rw [← htop, h.substituteFrom_eq hold.ne_nil (by omega), standing,
      BlockSpan.linesIn_append htop hdecl]
  rw [BlockSpan.linesIn, moved, position, position, BlockSpan.take_decl hdecl,
    BlockSpan.take_top htop, substitute_append (before ++ old), List.take_left,
    substitute_append, List.drop_left, hthere]

/-! ### In all slots -/

/-- A line at which no slot of a patch starts is in none, if no slot is cut in two there. -/
theorem filter_covers_eq_nil {k : Nat} (htop : ∀ p ∈ patches, p.span.top ≠ k)
    (hcut : ∀ p ∈ patches, k ≤ p.span.top ∨ p.span.decl ≤ k) :
    patches.filter (·.covers k) = [] := by
  refine List.filter_eq_nil_iff.mpr fun p hp => ?_
  have hne := htop p hp
  have hcut := hcut p hp
  simp only [Patch.covers, Bool.and_eq_true, decide_eq_true_eq]
  omega

/-- Behind a slot none is cut in two. -/
theorem Spares.cut (h : Spares patches span) (hlt : span.top < span.decl) :
    ∀ p ∈ patches, span.decl ≤ p.span.top ∨ p.span.decl ≤ span.decl := by
  intro p hp
  rcases h p hp with hbefore | heq | hbehind
  · omega
  · rw [heq]
    exact Or.inr (Nat.le_refl _)
  · omega

/-- Where a slot of a patch starts, its lines stay if they stand as they are, and behind them no
slot is cut in two. -/
theorem AreSlots.exists_append_of_top_eq (hslots : AreSlots patches lines)
    (hstand : ∀ p ∈ patches, standing patches lines p.span = p.span.linesIn lines)
    {front rest : List Text} (hlines : lines = front ++ rest) {p : Patch} (hp : p ∈ patches)
    (htop : p.span.top = front.length) :
    ∃ old after, rest = old ++ after ∧ old ≠ [] ∧
      substituteFrom patches front.length old = old ∧
      ∀ q ∈ patches, (front ++ old).length ≤ q.span.top ∨ q.span.decl ≤ (front ++ old).length := by
  obtain ⟨d, hd, hslot⟩ := hslots p hp
  have hspares := hslots.spares hd hslot
  have hstand := hstand p hp
  obtain ⟨before, old, line, after, heq, htop', hdecl, hold, -⟩ :=
    isSlot_iff_exists_append.mp hslot
  have happend : front ++ rest = before ++ (old ++ line :: after) := by
    rw [← hlines, heq, List.append_assoc]
  obtain ⟨rfl, rfl⟩ := List.append_inj happend (by omega)
  have hdecl' : (front ++ old).length = p.span.decl := by rw [List.length_append, hdecl]
  refine ⟨old, line :: after, rfl, hold.ne_nil, ?_, hdecl' ▸ hspares.cut hslot.top_lt⟩
  rw [standing, heq, BlockSpan.linesIn_append htop' hdecl] at hstand
  rw [← htop', hspares.substituteFrom_eq hold.ne_nil (by omega), hstand]

/-- What comes of the lines `rest` if all patches leave their slots as they are and none of
these is cut in two where `rest` starts. -/
theorem substituteFrom_of_standing (hslots : AreSlots patches lines)
    (hstand : ∀ p ∈ patches, standing patches lines p.span = p.span.linesIn lines)
    (n : Nat) (front rest : List Text) (hlines : lines = front ++ rest) (hn : rest.length = n)
    (hcut : ∀ p ∈ patches, front.length ≤ p.span.top ∨ p.span.decl ≤ front.length) :
    substituteFrom patches front.length rest = rest := by
  -- On the number of lines and not on their list, for a slot is passed in one step.
  induction n using Nat.strong_induction_on generalizing front rest with
  | _ n ih =>
      by_cases hhere : ∃ p ∈ patches, p.span.top = front.length
      · obtain ⟨p, hp, htop⟩ := hhere
        obtain ⟨old, after, rfl, hold, hsame, hcut'⟩ :=
          hslots.exists_append_of_top_eq hstand hlines hp htop
        have hshorter : after.length < n := by
          have := List.length_pos_iff.mpr hold
          rw [← hn, List.length_append]
          omega
        have hrest := ih _ hshorter (front ++ old) after
          (by rw [hlines, List.append_assoc]) rfl hcut'
        rw [List.length_append] at hrest
        rw [substituteFrom_append, hsame, hrest]
      · cases rest with
        | nil => rfl
        | cons line rest =>
            have htop : ∀ p ∈ patches, p.span.top ≠ front.length :=
              fun p hp heq => hhere ⟨p, hp, heq⟩
            have hcut' : ∀ p ∈ patches, (front ++ [line]).length ≤ p.span.top ∨
                p.span.decl ≤ (front ++ [line]).length := by
              intro p hp
              have hne := htop p hp
              have hcut := hcut p hp
              rw [List.length_append, List.length_singleton]
              omega
            have hshorter : rest.length < n := by
              rw [← hn, List.length_cons]
              omega
            have hrest := ih _ hshorter (front ++ [line]) rest
              (by rw [hlines, List.append_assoc, List.singleton_append]) rfl hcut'
            rw [List.length_append, List.length_singleton] at hrest
            rw [substituteFrom_cons, hrest, fate, filter_covers_eq_nil htop hcut]
            rfl

/-- **A substitution changes nothing** if every slot that it has a patch for stands as it is. -/
theorem substitute_eq_self (hslots : AreSlots patches lines)
    (hstand : ∀ p ∈ patches, standing patches lines p.span = p.span.linesIn lines) :
    substitute patches lines = lines :=
  substituteFrom_of_standing hslots hstand lines.length [] lines rfl rfl
    fun _ _ => Or.inl (Nat.zero_le _)

/-! ### Where lines come from -/

theorem mem_fate {i : Nat} {line line' : Text} (h : line' ∈ fate patches i line) :
    line' = line ∨ ∃ p ∈ patches, line' ∈ p.block := by
  rw [fate] at h
  split at h
  · exact Or.inl (List.mem_singleton.mp h)
  · next p hp =>
    have hmem := (List.mem_filter.mp (List.mem_of_getLast? hp)).1
    split at h
    · exact Or.inr ⟨p, hmem, h⟩
    · exact absurd h List.not_mem_nil

/-- A line that is there after a substitution was there before or is that of a patch. -/
theorem mem_substitute {line : Text} (h : line ∈ substitute patches lines) :
    line ∈ lines ∨ ∃ p ∈ patches, line ∈ p.block := by
  rw [substitute, substituteFrom, List.mem_flatMap] at h
  obtain ⟨⟨source, i⟩, hsource, hline⟩ := h
  rcases mem_fate hline with rfl | hpatch
  · exact Or.inl (List.fst_mem_of_mem_zipIdx hsource)
  · exact Or.inr hpatch

/-- The last line of a file is in no doc block, so that lines are left. -/
theorem substitute_ne_nil (hslots : AreSlots patches lines) (hne : lines ≠ []) :
    substitute patches lines ≠ [] := by
  obtain ⟨init, last, rfl⟩ : ∃ init last, lines = init ++ [last] :=
    ⟨_, _, (List.dropLast_append_getLast hne).symm⟩
  have hnone : patches.filter (·.covers init.length) = [] := by
    refine List.filter_eq_nil_iff.mpr fun p hp => ?_
    obtain ⟨d, -, hslot⟩ := hslots p hp
    have := hslot.decl_lt
    rw [List.length_append, List.length_singleton] at this
    simp only [Patch.covers, Bool.and_eq_true, decide_eq_true_eq]
    omega
  have hlast : substituteFrom patches init.length [last] = [last] := by
    rw [substituteFrom_cons, fate, hnone]
    rfl
  rw [substitute_append, hlast]
  exact List.append_ne_nil_of_right_ne_nil _ (List.cons_ne_nil _ _)

end Standing

end DocBlocks
