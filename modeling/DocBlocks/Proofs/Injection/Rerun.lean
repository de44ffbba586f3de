import DocBlocks.Proofs.Injection.Simultaneous
import DocBlocks.Proofs.Injection.Standing
import Mathlib.Logic.Function.Iterate

/-!
# Putting an Entry into a File Twice

A short description cuts a declaration off from its doc block, so that a second run looks for
the declaration further down and may find another one there. Putting an entry into a file is
therefore not idempotent. This module says exactly when it is.

What a second run does depends on the slots that the first one has left: every item picks the
first of those (`pickEach`). The file stays as it is if none of these items has remarks to put
in, and each of these slots has got the lines from the first run that the last of the items
would put there again (`IsSettled`). That is so whenever the declarations that items with
remarks are for have one slot each.

## Main results

* `Tracks.now_eq_iff`: when a run of items leaves the lines of a file alone.
* `Tracks.isIdle_iff`: when a run after a run does.
* `isSettled_of_slots_eq_singleton`: one slot for a declaration is enough.
* `Entry.IsDocumented.lines_inject`: the lines that were left are the lines of the text.
* `Entry.IsDocumented.inject_again_iff`: further runs change nothing exactly if the file is
  settled.
-/

namespace DocBlocks

open Text

/-! ### Picking alone -/

/-- What every item picks if none of them takes anything. -/
def pickEach (lines : List Text) (taken : List Nat) (items : List Item) :
    List (Item × Option BlockSpan) :=
  items.map fun item => (item, firstFree lines item.decl taken)

/-- Whether a further run of items finds a file as it would leave it. With what the items have
taken in a first run, let every one of them pick again. No item that picks a slot now may put
remarks there, and the lines that it puts there must be those that the first run has left. -/
def IsSettled (lines : List Text) (items : List Item) : Prop :=
  ∀ item ∈ items, ∀ span ∈ firstFree lines item.decl (takenBy (choose lines [] items)),
    item.remarks = [] ∧
      standing (patchesOf (pickEach lines (takenBy (choose lines [] items)) items)) lines span =
        standing (patchesOf (choose lines [] items)) lines span

instance (lines : List Text) (items : List Item) : Decidable (IsSettled lines items) :=
  inferInstanceAs (Decidable (∀ item ∈ items, ∀ span ∈ _, _))

section Choose

variable {lines : List Text} {taken : List Nat} {items : List Item}

theorem mem_takenBy_iff {picks : List (Item × Option BlockSpan)} {i : Nat} :
    i ∈ takenBy picks ↔
      ∃ item span, (item, some span) ∈ picks ∧ item.remarks ≠ [] ∧ span.decl = i := by
  rw [takenBy, List.mem_flatMap]
  constructor
  · rintro ⟨⟨item, pick⟩, hmem, hi⟩
    change i ∈ item.takes pick at hi
    rw [Item.takes] at hi
    split at hi
    · exact absurd hi List.not_mem_nil
    · next hne =>
      obtain ⟨span, hspan, rfl⟩ := List.mem_map.mp hi
      rw [Option.mem_toList] at hspan
      obtain rfl : pick = some span := hspan
      exact ⟨item, span, hmem, hne, rfl⟩
  · rintro ⟨item, span, hmem, hne, rfl⟩
    refine ⟨(item, some span), hmem, ?_⟩
    show span.decl ∈ item.takes (some span)
    simp [Item.takes, hne]

/-- If nothing is taken on the way, every item picks as if it were alone. -/
theorem choose_eq_pickEach
    (h : ∀ item ∈ items, ∀ span ∈ firstFree lines item.decl taken, item.remarks = []) :
    choose lines taken items = pickEach lines taken items := by
  induction items with
  | nil => rfl
  | cons item rest ih =>
      have htakes : item.takes (firstFree lines item.decl taken) = [] := by
        cases hpick : firstFree lines item.decl taken with
        | none => simp [Item.takes]
        | some span => rw [Item.takes, if_pos (h item List.mem_cons_self span hpick)]
      rw [choose, htakes, List.append_nil, pickEach, List.map_cons,
        ih fun other hother => h other (List.mem_cons_of_mem _ hother), pickEach]

/-- If nothing has been taken in the end, no item that has remarks picks a slot alone. -/
theorem remarks_eq_nil_of_takenBy_choose (h : takenBy (choose lines taken items) = []) :
    ∀ item ∈ items, ∀ span ∈ firstFree lines item.decl taken, item.remarks = [] := by
  induction items with
  | nil => exact fun _ hitem => absurd hitem List.not_mem_nil
  | cons first rest ih =>
      rw [choose, takenBy, List.flatMap_cons, List.append_eq_nil_iff] at h
      obtain ⟨htakes, hrest⟩ := h
      change first.takes (firstFree lines first.decl taken) = [] at htakes
      rw [htakes, List.append_nil] at hrest
      intro item hitem span hspan
      rcases List.mem_cons.mp hitem with rfl | hitem
      · obtain hspan : firstFree lines item.decl taken = some span := hspan
        rw [hspan] at htakes
        by_contra hne
        simp [Item.takes, hne] at htakes
      · exact ih hrest item hitem span hspan

theorem areSlots_patchesOf_choose (hsound : ∀ item ∈ items, item.IsSound) :
    AreSlots (patchesOf (choose lines taken items)) lines := by
  intro p hp
  obtain ⟨item, hmem, -⟩ := mem_patchesOf_iff.mp hp
  obtain ⟨hitem, hslot⟩ := isSlot_of_mem_choose hmem
  exact ⟨item.decl, (hsound item hitem).isCode, hslot⟩

theorem isSlot_of_firstFree {d : Declaration} {span : BlockSpan}
    (h : firstFree lines d taken = some span) :
    IsSlot lines d span ∧ span.decl ∉ taken :=
  ⟨mem_slots_iff.mp (List.mem_of_find?_eq_some h), by simpa using List.find?_some h⟩

theorem firstFree_nil (lines : List Text) (d : Declaration) :
    firstFree lines d [] = locate lines d := by
  rw [firstFree, locate_eq_head?_slots, ← List.head?_filter, List.filter_eq_self.mpr (by simp)]

/-- The patches of items that pick alone. -/
theorem mem_patchesOf_pickEach_iff {p : Patch} :
    p ∈ patchesOf (pickEach lines taken items) ↔
      ∃ item ∈ items, firstFree lines item.decl taken = some p.span ∧ p.block = item.block := by
  rw [mem_patchesOf_iff]
  constructor
  · rintro ⟨item, hmem, hblock⟩
    obtain ⟨item', hitem, heq⟩ := List.mem_map.mp hmem
    obtain ⟨rfl, hpick⟩ := Prod.mk.inj heq
    exact ⟨item', hitem, hpick, hblock⟩
  · rintro ⟨item, hitem, hpick, hblock⟩
    exact ⟨item, List.mem_map.mpr ⟨item, hitem, by rw [hpick]⟩, hblock⟩

end Choose

/-! ### Runs that change nothing -/

/-- Whether a run of items leaves lines alone. No item that finds a slot may have remarks,
and the last item that finds it must put there what is there. -/
def IsIdle (lines : List Text) (items : List Item) : Prop :=
  ∀ item ∈ items, ∀ span ∈ firstFree lines item.decl [],
    item.remarks = [] ∧
      standing (patchesOf (pickEach lines [] items)) lines span = span.linesIn lines

section Idle

variable {lines now : List Text} {items : List Item} {patches : List Patch} {taken : List Nat}

/-- Lines that have come back to what they were have lost no slot. -/
theorem Tracks.not_mem_taken (h : Tracks lines patches taken lines) {d : Declaration}
    (hd : d.IsCode) {span : BlockSpan} (hspan : IsSlot lines d span) : span.decl ∉ taken := by
  have hlen := congrArg List.length (h.slots_eq d hd)
  rw [List.length_map] at hlen
  have hall := List.length_filter_eq_length_iff.mp hlen.symm span (mem_slots_iff.mpr hspan)
  simpa using hall

/-- Neither has any of their slots moved. -/
theorem Tracks.moved_eq_self (h : Tracks lines patches taken lines) {d : Declaration}
    (hd : d.IsCode) {span : BlockSpan} (hspan : IsSlot lines d span) :
    moved patches lines span = span := by
  have hslots := h.slots_eq d hd
  have hall : (slots lines d).filter (fun s => s.decl ∉ taken) = slots lines d :=
    List.filter_eq_self.mpr fun s hs => by simpa using h.not_mem_taken hd (mem_slots_iff.mp hs)
  rw [hall] at hslots
  have hid : (slots lines d).map id = (slots lines d).map (moved patches lines) := by
    rw [List.map_id, ← hslots]
  exact (List.map_inj_left.mp hid span (mem_slots_iff.mpr hspan)).symm

/-- **What a run changes**: nothing exactly if it is idle. If it changes nothing then it has
taken no slot, for a taken slot is lost, so that all items have picked alone. -/
theorem Tracks.now_eq_iff (hsound : ∀ item ∈ items, item.IsSound)
    (h : Tracks lines (patchesOf (choose lines [] items)) (takenBy (choose lines [] items)) now) :
    now = lines ↔ IsIdle lines items := by
  have hslots : AreSlots (patchesOf (choose lines [] items)) lines :=
    areSlots_patchesOf_choose hsound
  constructor
  · rintro rfl
    -- As many slots as before means that none is lost, and so none is taken.
    have htaken : takenBy (choose now [] items) = [] := by
      refine List.eq_nil_iff_forall_not_mem.mpr fun i hi => ?_
      obtain ⟨item, span, hmem, -, rfl⟩ := mem_takenBy_iff.mp hi
      obtain ⟨hitem, hspan⟩ := isSlot_of_mem_choose hmem
      exact h.not_mem_taken (hsound item hitem).isCode hspan hi
    have hremarks := remarks_eq_nil_of_takenBy_choose htaken
    intro item hitem span hspan
    have hslot := (isSlot_of_firstFree hspan).1
    have hcode := (hsound item hitem).isCode
    have hlines := linesIn_substitute (hslots.spares hcode hslot) hslot
    rw [h.moved_eq_self hcode hslot, ← h.now_eq, choose_eq_pickEach hremarks] at hlines
    exact ⟨hremarks item hitem span hspan, hlines.symm⟩
  · intro hidle
    have hpicks : choose lines [] items = pickEach lines [] items :=
      choose_eq_pickEach fun item hitem span hspan => (hidle item hitem span hspan).1
    rw [h.now_eq]
    refine substitute_eq_self hslots fun p hp => ?_
    rw [hpicks] at hp ⊢
    obtain ⟨item, hitem, hpick, -⟩ := mem_patchesOf_pickEach_iff.mp hp
    exact (hidle item hitem p.span hpick).2

/-! ### A run after a run -/

/-- Slots that are free are told apart by where they are now. -/
theorem Tracks.moved_eq_iff (h : Tracks lines patches taken now) {d d' : Declaration}
    {s t : BlockSpan} (hd : d.IsCode) (hs : IsSlot lines d s) (hs' : s.decl ∉ taken)
    (hd' : d'.IsCode) (ht : IsSlot lines d' t) (ht' : t.decl ∉ taken) :
    moved patches lines s = moved patches lines t ↔ s = t := by
  constructor
  · intro heq
    have hdecl := (h.moved_decl_eq_iff hd' ht ht' hd hs hs').mp (congrArg BlockSpan.decl heq)
    exact IsSlot.eq_of_decl_eq hd' hd ht hs hdecl
  · rintro rfl
    rfl

/-- Items that pick alone among the present lines pick what is free in the original file. -/
theorem Tracks.patchesOf_pickEach (h : Tracks lines patches taken now)
    (hsound : ∀ item ∈ items, item.IsSound) :
    patchesOf (pickEach now [] items) =
      (patchesOf (pickEach lines taken items)).map fun p =>
        ⟨moved patches lines p.span, p.block⟩ := by
  rw [patchesOf, patchesOf, pickEach, pickEach, List.filterMap_map, List.filterMap_map,
    List.map_filterMap]
  refine List.filterMap_congr fun item hitem => ?_
  have hfind : firstFree now item.decl [] =
      (firstFree lines item.decl taken).map (moved patches lines) := by
    rw [firstFree_nil, h.locate_eq (hsound item hitem).isCode]
  simp only [Function.comp_apply, hfind, Option.map_map]
  rfl

/-- What items that pick alone would put into a slot does not depend on where it is. -/
theorem Tracks.standing_pickEach (h : Tracks lines patches taken now)
    (hsound : ∀ item ∈ items, item.IsSound) {item : Item} (hitem : item ∈ items)
    {span : BlockSpan} (hpick : firstFree lines item.decl taken = some span) :
    standing (patchesOf (pickEach now [] items)) now (moved patches lines span) =
      standing (patchesOf (pickEach lines taken items)) lines span := by
  obtain ⟨hspan, hfree⟩ := isSlot_of_firstFree hpick
  have hcode := (hsound item hitem).isCode
  have hfilter : (patchesOf (pickEach now [] items)).filter
        (fun p => p.span = moved patches lines span) =
      ((patchesOf (pickEach lines taken items)).filter fun p => p.span = span).map fun p =>
        ⟨moved patches lines p.span, p.block⟩ := by
    rw [h.patchesOf_pickEach hsound, List.filter_map]
    refine congrArg _ (List.filter_congr fun p hp => ?_)
    obtain ⟨other, hother, hpick', -⟩ := mem_patchesOf_pickEach_iff.mp hp
    obtain ⟨hspan', hfree'⟩ := isSlot_of_firstFree hpick'
    have hsame := h.moved_eq_iff (hsound other hother).isCode hspan' hfree' hcode hspan hfree
    simp only [Function.comp_apply, hsame]
  have hmem : (⟨span, item.block⟩ : Patch) ∈
      (patchesOf (pickEach lines taken items)).filter fun p => p.span = span :=
    List.mem_filter.mpr
      ⟨mem_patchesOf_pickEach_iff.mpr ⟨item, hitem, hpick, rfl⟩, by simp⟩
  rw [standing, standing, hfilter, List.getLast?_map,
    List.getLast?_eq_some_getLast (List.ne_nil_of_mem hmem), Option.map_some]

/-- **A run after a run** is idle exactly if the file is settled. -/
theorem Tracks.isIdle_iff (hsound : ∀ item ∈ items, item.IsSound)
    (h : Tracks lines (patchesOf (choose lines [] items)) (takenBy (choose lines [] items)) now) :
    IsIdle now items ↔ IsSettled lines items := by
  have hslots : AreSlots (patchesOf (choose lines [] items)) lines :=
    areSlots_patchesOf_choose hsound
  have hfind : ∀ item ∈ items, firstFree now item.decl [] =
      (firstFree lines item.decl (takenBy (choose lines [] items))).map
        (moved (patchesOf (choose lines [] items)) lines) := by
    intro item hitem
    rw [firstFree_nil, h.locate_eq (hsound item hitem).isCode]
  have hthere : ∀ item ∈ items, ∀ span,
      firstFree lines item.decl (takenBy (choose lines [] items)) = some span →
      (moved (patchesOf (choose lines [] items)) lines span).linesIn now =
        standing (patchesOf (choose lines [] items)) lines span := by
    intro item hitem span hpick
    have hslot := (isSlot_of_firstFree hpick).1
    rw [← linesIn_substitute (hslots.spares (hsound item hitem).isCode hslot) hslot, h.now_eq]
  constructor
  · intro hidle item hitem span hpick
    obtain ⟨hremarks, hstand⟩ := hidle item hitem
      (moved (patchesOf (choose lines [] items)) lines span) (by
        rw [hfind item hitem]
        exact Option.mem_map_of_mem _ hpick)
    rw [h.standing_pickEach hsound hitem hpick, hthere item hitem span hpick] at hstand
    exact ⟨hremarks, hstand⟩
  · intro hsettled item hitem span' hpick'
    rw [hfind item hitem] at hpick'
    obtain ⟨span, hpick, rfl⟩ := Option.mem_map.mp hpick'
    obtain ⟨hremarks, hstand⟩ := hsettled item hitem span hpick
    rw [h.standing_pickEach hsound hitem hpick, hthere item hitem span hpick]
    exact ⟨hremarks, hstand⟩

end Idle

/-! ### A sufficient condition -/

section Sufficient

variable {lines : List Text} {taken earlier : List Nat} {items : List Item} {d : Declaration}

theorem map_fst_choose (lines : List Text) (taken : List Nat) (items : List Item) :
    (choose lines taken items).map Prod.fst = items := by
  induction items generalizing taken with
  | nil => rfl
  | cons item rest ih => rw [choose, List.map_cons, ih]

theorem exists_mem_choose (lines : List Text) (taken : List Nat) {item : Item}
    (h : item ∈ items) : ∃ pick, (item, pick) ∈ choose lines taken items := by
  rw [← map_fst_choose lines taken items] at h
  obtain ⟨⟨_, pick⟩, hmem, rfl⟩ := List.mem_map.mp h
  exact ⟨pick, hmem⟩

/-- Items that pick alone are the items that pick one after the other, with other picks. -/
theorem pickEach_eq_map_choose (lines : List Text) (taken taken' : List Nat)
    (items : List Item) : pickEach lines taken' items =
      (choose lines taken items).map fun p => (p.1, firstFree lines p.1.decl taken') := by
  rw [pickEach]
  nth_rewrite 1 [← map_fst_choose lines taken items]
  rw [List.map_map]
  rfl

/-- A pick makes a patch for a slot if it is that slot. -/
theorem filter_map_patch {pick : Option BlockSpan} {span : BlockSpan} {block : List Text} :
    (pick.map fun s => (⟨s, block⟩ : Patch)).filter (fun p => p.span = span) =
      if pick = some span then some ⟨span, block⟩ else none := by
  cases pick with
  | none => rfl
  | some s =>
      by_cases hs : s = span
      · simp [hs]
      · simp [Option.filter, hs]

/-- An item picks the first slot that is not among some of those that are taken in the end. -/
theorem exists_earlier_of_mem_choose {item : Item} {pick : Option BlockSpan}
    (h : (item, pick) ∈ choose lines taken items) :
    ∃ earlier, (∀ i ∈ earlier, i ∈ taken ++ takenBy (choose lines taken items)) ∧
      pick = firstFree lines item.decl earlier := by
  induction items generalizing taken with
  | nil => exact absurd h List.not_mem_nil
  | cons first rest ih =>
      rw [choose] at h ⊢
      rw [takenBy, List.flatMap_cons, ← List.append_assoc]
      rcases List.mem_cons.mp h with heq | h
      · obtain ⟨rfl, rfl⟩ := Prod.mk.inj heq
        exact ⟨taken, fun i hi => List.mem_append_left _ (List.mem_append_left _ hi), rfl⟩
      · exact ih h

/-- What is picked stays the first free slot as long as it is not taken itself. -/
theorem firstFree_of_subset (hsub : ∀ i ∈ earlier, i ∈ taken) {span : BlockSpan}
    (h : firstFree lines d earlier = some span) (hspan : span.decl ∉ taken) :
    firstFree lines d taken = some span := by
  rw [firstFree, List.find?_eq_some_iff_append] at h ⊢
  obtain ⟨-, before, after, hslots, hbefore⟩ := h
  refine ⟨by simpa using hspan, before, after, hslots, fun s hs => ?_⟩
  have hs' := hbefore s hs
  simp only [Bool.not_eq_true', decide_eq_false_iff_not, Decidable.not_not] at hs' ⊢
  exact hsub _ hs'

/-- If a slot is free now then one was free before. -/
theorem exists_firstFree_of_subset (hsub : ∀ i ∈ earlier, i ∈ taken) {span : BlockSpan}
    (h : firstFree lines d taken = some span) : ∃ s, firstFree lines d earlier = some s := by
  obtain ⟨hspan, hfree⟩ := isSlot_of_firstFree h
  refine Option.isSome_iff_exists.mp (List.find?_isSome.mpr ⟨span, mem_slots_iff.mpr hspan, ?_⟩)
  simpa using fun hmem => hfree (hsub _ hmem)

/-- Where no slot that an item with remarks picks is one of several, an item picks the same
slot again, unless it is taken. -/
theorem firstFree_takenBy_eq_some_iff (hsound : ∀ item ∈ items, item.IsSound)
    (hsingle : ∀ p ∈ choose lines [] items, p.1.remarks ≠ [] → ∀ span ∈ p.2,
      ∀ other ∈ items, IsSlot lines other.decl span → slots lines other.decl = [span])
    {item : Item} {pick : Option BlockSpan} (hmem : (item, pick) ∈ choose lines [] items)
    {span : BlockSpan} :
    firstFree lines item.decl (takenBy (choose lines [] items)) = some span ↔
      pick = some span ∧ span.decl ∉ takenBy (choose lines [] items) := by
  obtain ⟨earlier, hsub, hpick⟩ := exists_earlier_of_mem_choose hmem
  rw [List.nil_append] at hsub
  constructor
  · intro hfree
    obtain ⟨hspan, hfree'⟩ := isSlot_of_firstFree hfree
    obtain ⟨s, hs⟩ := exists_firstFree_of_subset hsub hfree
    rw [← hpick] at hs
    subst hs
    obtain ⟨hitem, hslot⟩ := isSlot_of_mem_choose hmem
    by_cases htaken : s.decl ∈ takenBy (choose lines [] items)
    · obtain ⟨other, t, hother, hremarks, hdecl⟩ := mem_takenBy_iff.mp htaken
      obtain ⟨hother', hslot'⟩ := isSlot_of_mem_choose hother
      obtain rfl : s = t := IsSlot.eq_of_decl_eq (hsound other hother').isCode
        (hsound item hitem).isCode hslot' hslot hdecl.symm
      have hslots := hsingle _ hother hremarks s rfl item hitem hslot
      have hspan' : span ∈ [s] := hslots ▸ mem_slots_iff.mpr hspan
      rw [List.mem_singleton.mp hspan'] at hfree'
      exact absurd htaken hfree'
    · rw [firstFree_of_subset hsub hpick.symm htaken] at hfree
      exact ⟨hfree, hfree'⟩
  · rintro ⟨rfl, hspan⟩
    exact firstFree_of_subset hsub hpick.symm hspan

/-- **A file is settled** if no slot that an item with remarks picks is one of several slots
for a declaration. -/
theorem isSettled_of_slots_eq_singleton (hsound : ∀ item ∈ items, item.IsSound)
    (hsingle : ∀ p ∈ choose lines [] items, p.1.remarks ≠ [] → ∀ span ∈ p.2,
      ∀ other ∈ items, IsSlot lines other.decl span → slots lines other.decl = [span]) :
    IsSettled lines items := by
  have hagain := @firstFree_takenBy_eq_some_iff lines items hsound hsingle
  intro item hitem span hspan
  have hfree := (isSlot_of_firstFree hspan).2
  obtain ⟨pick, hmem⟩ := exists_mem_choose lines [] hitem
  obtain ⟨rfl, -⟩ := (hagain hmem).mp hspan
  refine ⟨?_, ?_⟩
  · by_contra hne
    exact hfree (mem_takenBy_iff.mpr ⟨item, span, hmem, hne, rfl⟩)
  · have hfilter : (patchesOf (pickEach lines (takenBy (choose lines [] items)) items)).filter
          (fun p => p.span = span) =
        (patchesOf (choose lines [] items)).filter fun p => p.span = span := by
      rw [pickEach_eq_map_choose lines [], patchesOf, patchesOf, List.filterMap_map,
        List.filter_filterMap, List.filter_filterMap]
      refine List.filterMap_congr fun p hp => ?_
      obtain ⟨other, pick⟩ := p
      simp only [Function.comp_apply, filter_map_patch, hagain hp, hfree, not_false_eq_true,
        and_true]
    rw [standing, standing, hfilter]

end Sufficient

/-! ### Entries -/

/-- **The lines that an entry leaves** are the lines of the text that it leaves. -/
theorem Entry.IsDocumented.lines_inject {e : Entry} (h : e.IsDocumented)
    (symbol content : Text) :
    splitLines (e.inject locate symbol content).content =
      (e.inject locate symbol content).lines := by
  have hsound := h.isSound symbol
  have hnow := (h.follows symbol content).tracks.now_eq
  refine splitLines_joinLines (fun line hline => ?_) ?_
  · rw [hnow] at hline
    rcases mem_substitute hline with hline | ⟨p, hp, hline⟩
    · exact not_mem_of_mem_splitLines hline
    · obtain ⟨item, hmem, hblock⟩ := mem_patchesOf_iff.mp hp
      rw [hblock] at hline
      exact h.not_mem_block symbol item (isSlot_of_mem_choose hmem).1 line hline
  · rw [hnow]
    exact substitute_ne_nil (areSlots_patchesOf_choose hsound) (splitLines_ne_nil content)

/-- A second run leaves the text alone exactly if the file is settled. -/
theorem Entry.IsDocumented.content_inject_eq_iff {e : Entry} (h : e.IsDocumented)
    (symbol content : Text) :
    (e.inject locate symbol (e.inject locate symbol content).content).content =
        (e.inject locate symbol content).content ↔
      IsSettled (splitLines content) (e.items symbol) := by
  have hsound := h.isSound symbol
  have hfirst := (h.follows symbol content).tracks
  have hsecond := (h.follows symbol (e.inject locate symbol content).content).tracks
  rw [h.lines_inject symbol content] at hsecond
  rw [← hfirst.isIdle_iff hsound, ← hsecond.now_eq_iff hsound]
  constructor
  · intro heq
    rw [← h.lines_inject, heq, h.lines_inject]
  · intro heq
    rw [Injected.content, heq, Injected.content]

/-- **When further runs change nothing.** However often a documented entry is put into a file,
all runs after the first one leave the text alone exactly if the file is settled. It is if no
slot that an item with a short description picks is one of several slots for a declaration; in
particular if there are no short descriptions, or no declaration has more than one slot. -/
theorem Entry.IsDocumented.inject_again_iff {e : Entry} (h : e.IsDocumented)
    (symbol content : Text) :
    let run := fun text => (e.inject locate symbol text).content
    let lines := splitLines content
    let items := e.items symbol
    ((∀ n, run^[n + 1] content = run content) ↔ IsSettled lines items) ∧
      ((∀ p ∈ choose lines [] items, p.1.remarks ≠ [] → ∀ span ∈ p.2,
        ∀ other ∈ items, IsSlot lines other.decl span → slots lines other.decl = [span]) →
        ∀ n, run^[n + 1] content = run content) := by
  intro run lines items
  have hagain : (∀ n, run^[n + 1] content = run content) ↔ IsSettled lines items := by
    rw [← h.content_inject_eq_iff symbol content]
    constructor
    · intro hall
      exact hall 1
    · intro hfixed n
      rw [Function.iterate_succ_apply]
      exact Function.iterate_fixed hfixed n
  exact ⟨hagain, fun hsingle =>
    hagain.mpr (isSettled_of_slots_eq_singleton (h.isSound symbol) hsingle)⟩

/-- A second run does not always leave the text alone: the short description of the first
signature cuts its declaration off, and the second run finds the one further down. -/
theorem not_forall_inject_again_eq :
    ¬ ∀ (e : Entry) (symbol content : Text), e.IsDocumented →
      (e.inject locate symbol (e.inject locate symbol content).content).content =
        (e.inject locate symbol content).content := by
  intro hall
  have heq := hall overloadsEntry "Foo".toList overloads (by decide)
  exact absurd heq (by decide)

theorem inject_again_single :
    overloadsEntry.IsDocumented ∧ ∀ n, (fun text =>
        (overloadsEntry.inject locate "Foo".toList text).content)^[n + 1]
          "/** a */\nclass Foo \x7b\n  /** b */\n  get() \x7b\n".toList =
      "/** Foo. */\nclass Foo \x7b\n  /** One. */\n  // Gets.\n  get() \x7b\n".toList := by
  have hdocumented : overloadsEntry.IsDocumented := by decide
  obtain ⟨hsettled, -⟩ := hdocumented.inject_again_iff "Foo".toList
    "/** a */\nclass Foo \x7b\n  /** b */\n  get() \x7b\n".toList
  exact ⟨hdocumented, fun n => (hsettled.mpr (by decide) n).trans (by decide)⟩

end DocBlocks
