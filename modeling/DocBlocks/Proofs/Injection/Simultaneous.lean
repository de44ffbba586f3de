import DocBlocks.Proofs.Injection.Substitution

/-!
# Putting an Entry into a File Is One Substitution

The requests of an entry are carried out one after the other, each on the lines that the ones
before it have left. For a documented entry this comes to a single step: let every item pick
its slot among the original lines, and put the blocks of all items in at once. What is
reported can be read off the picks as well, and no two picks get into each other's way: the
slots that are picked are the same or apart.

The proof goes along with the requests. `Follows` says that what has been done so far is the
substitution of the picks so far, that its report is theirs, and that its lines are in step
with the original ones. One item preserves it (`Follows.place`), and so does a list of
requests (`Follows.foldl_place`).

## Main results

* `apart_of_mem_patchesOf_choose`: the slots that are picked are the same or apart.
* `Entry.IsDocumented.follows`: what the requests of an entry leave follows what its items pick.
* `Entry.IsDocumented.inject_simultaneous`: carrying out an entry is one substitution in the
  original lines.
-/

namespace DocBlocks

open Text

/-! ### What picks amount to -/

/-- Whether a declaration is that of a class. -/
def Declaration.isClass : Declaration → Bool
  | ofClass _ => true
  | ofMember _ => false

/-- The slots that items have taken by their picks. -/
def takenBy (picks : List (Item × Option BlockSpan)) : List Nat :=
  picks.flatMap fun (item, pick) => item.takes pick

/-- Whether an item of a class has picked a slot. -/
def classPicked (picks : List (Item × Option BlockSpan)) : Bool :=
  picks.any fun (item, pick) => item.decl.isClass && pick.isSome

/-- How many items of members have picked a slot. -/
def membersPicked (picks : List (Item × Option BlockSpan)) : Nat :=
  picks.countP fun (item, pick) => !item.decl.isClass && pick.isSome

/-- What is reported as missed of the items that have picked no slot. -/
def missedBy (picks : List (Item × Option BlockSpan)) : List Text :=
  picks.filterMap fun (item, pick) => if pick.isSome then none else item.note.missed?

section Picks

variable {lines : List Text} {picks : List (Item × Option BlockSpan)} {item : Item}

theorem takenBy_append_singleton (pick : Option BlockSpan) :
    takenBy (picks ++ [(item, pick)]) = takenBy picks ++ item.takes pick := by
  simp [takenBy]

theorem patchesOf_append_singleton_some (span : BlockSpan) :
    patchesOf (picks ++ [(item, some span)]) = patchesOf picks ++ [⟨span, item.block⟩] := by
  simp [patchesOf]

theorem patchesOf_append_singleton_none :
    patchesOf (picks ++ [(item, none)]) = patchesOf picks := by
  simp [patchesOf]

/-- The next item picks its slot in view of the picks so far. -/
theorem append_choose_cons (rest : List Item) :
    picks ++ choose lines (takenBy picks) (item :: rest) =
      (picks ++ [(item, firstFree lines item.decl (takenBy picks))]) ++
        choose lines
          (takenBy (picks ++ [(item, firstFree lines item.decl (takenBy picks))])) rest := by
  rw [choose, takenBy_append_singleton, List.append_assoc, List.singleton_append]

/-- What an item picks is a slot for its declaration. -/
theorem isSlot_of_mem_choose {taken : List Nat} {items : List Item} {span : BlockSpan}
    (h : (item, some span) ∈ choose lines taken items) :
    item ∈ items ∧ IsSlot lines item.decl span := by
  induction items generalizing taken with
  | nil => exact absurd h List.not_mem_nil
  | cons first rest ih =>
      rw [choose] at h
      rcases List.mem_cons.mp h with heq | h
      · obtain ⟨rfl, hpick⟩ := Prod.mk.inj heq
        have hmem := List.mem_of_find?_eq_some hpick.symm
        exact ⟨List.mem_cons_self, mem_slots_iff.mp hmem⟩
      · obtain ⟨hmem, hslot⟩ := ih h
        exact ⟨List.mem_cons_of_mem _ hmem, hslot⟩

theorem mem_patchesOf_iff {p : Patch} :
    p ∈ patchesOf picks ↔ ∃ item, (item, some p.span) ∈ picks ∧ p.block = item.block := by
  rw [patchesOf, List.mem_filterMap]
  constructor
  · rintro ⟨⟨item, pick⟩, hmem, hp⟩
    obtain ⟨span, rfl, rfl⟩ := Option.map_eq_some_iff.mp hp
    exact ⟨item, hmem, rfl⟩
  · rintro ⟨item, hmem, hblock⟩
    obtain ⟨span, block⟩ := p
    obtain rfl : block = item.block := hblock
    exact ⟨(item, some span), hmem, rfl⟩

/-- **Picks do not overlap**: slots that sound items pick are the same or apart. -/
theorem apart_of_mem_patchesOf_choose {taken : List Nat} {items : List Item}
    (hsound : ∀ item ∈ items, item.IsSound) {p q : Patch}
    (hp : p ∈ patchesOf (choose lines taken items))
    (hq : q ∈ patchesOf (choose lines taken items)) :
    q.span.decl < p.span.top ∨ q.span = p.span ∨ p.span.decl < q.span.top := by
  obtain ⟨item, hmem, -⟩ := mem_patchesOf_iff.mp hp
  obtain ⟨other, hother, -⟩ := mem_patchesOf_iff.mp hq
  obtain ⟨hitem, hslot⟩ := isSlot_of_mem_choose hmem
  obtain ⟨hitem', hslot'⟩ := isSlot_of_mem_choose hother
  exact IsSlot.apart (hsound item hitem).isCode (hsound other hitem').isCode hslot hslot'

end Picks

/-! ### Following the requests -/

/-- What has been done to a file is the substitution of some picks, its report is theirs, and
its lines are in step with the original ones. -/
structure Follows (lines : List Text) (picks : List (Item × Option BlockSpan))
    (done : Injected) : Prop where
  tracks : Tracks lines (patchesOf picks) (takenBy picks) done.lines
  classReplaced : done.classReplaced = classPicked picks
  membersReplaced : done.membersReplaced = membersPicked picks
  missed : done.missed = missedBy picks

namespace Follows

variable {lines : List Text} {picks : List (Item × Option BlockSpan)} {done : Injected}

/-- Nothing has been done before anything is picked. -/
theorem ofLines (lines : List Text) : Follows lines [] (.ofLines lines) :=
  ⟨Tracks.refl lines, rfl, rfl, rfl⟩

/-- A note that reports nothing changes nothing. -/
theorem skip (h : Follows lines picks done) {note : Note} (hnote : note.missed? = none) :
    Follows lines picks (done.place locate (.skip note)) := by
  refine ⟨h.tracks, h.classReplaced, h.membersReplaced, ?_⟩
  have hmissed := h.missed
  rw [Injected.missed] at hmissed ⊢
  rw [← hmissed, Injected.place, List.filterMap_append]
  simp [hnote]

/-- An item that picks no slot leaves the lines alone and is noted down. -/
theorem place_of_none (h : Follows lines picks done) {item : Item} (hitem : item.IsSound)
    (hpick : firstFree lines item.decl (takenBy picks) = none) :
    Follows lines (picks ++ [(item, none)]) (done.place locate item.request) := by
  have hfind := h.tracks.locate_eq hitem.isCode
  rw [hpick, Option.map_none] at hfind
  have hplace : done.place locate item.request =
      { done with notes := done.notes ++ [item.note] } := by
    rw [Item.request, Injected.place, hfind]
  have htaken : takenBy (picks ++ [(item, none)]) = takenBy picks := by
    rw [takenBy_append_singleton]
    simp [Item.takes]
  have hnote : [item.note].filterMap Note.missed? = missedBy [(item, none)] := by
    simp [missedBy, List.filterMap_cons]
  have hmissed := h.missed
  rw [Injected.missed] at hmissed
  rw [hplace]
  refine ⟨?_, ?_, ?_, ?_⟩
  · rw [patchesOf_append_singleton_none, htaken]
    exact h.tracks
  · simp [classPicked, h.classReplaced]
  · simp [membersPicked, h.membersReplaced]
  · rw [Injected.missed, List.filterMap_append, hmissed, hnote, missedBy, missedBy, missedBy,
      List.filterMap_append]

/-- An item that picks a slot is one patch more, and counts for its class or its member. -/
theorem place_of_some (h : Follows lines picks done) {item : Item} (hitem : item.IsSound)
    {span : BlockSpan} (hpick : firstFree lines item.decl (takenBy picks) = some span) :
    Follows lines (picks ++ [(item, some span)]) (done.place locate item.request) := by
  have hfind := h.tracks.locate_eq hitem.isCode
  rw [hpick, Option.map_some] at hfind
  have hplace : done.place locate item.request =
      { done.count item.decl with
        lines := (moved (patchesOf picks) lines span).splice item.block done.lines } := by
    rw [Item.request, Injected.place, hfind]
  have hclass := h.classReplaced
  have hmembers := h.membersReplaced
  have hmissed := h.missed
  rw [Injected.missed] at hmissed
  rw [hplace]
  refine ⟨?_, ?_, ?_, ?_⟩
  · rw [patchesOf_append_singleton_some, takenBy_append_singleton]
    exact h.tracks.splice hitem hpick
  · cases hdecl : item.decl <;>
      simp [Injected.count, classPicked, Declaration.isClass, hdecl, hclass]
  · cases hdecl : item.decl <;>
      simp [Injected.count, membersPicked, Declaration.isClass, hdecl, hmembers]
  · cases hdecl : item.decl <;>
      simp [Injected.count, Injected.missed, missedBy, hmissed]

/-- **One item more** is one pick more. -/
theorem place (h : Follows lines picks done) {item : Item} (hitem : item.IsSound) :
    Follows lines (picks ++ [(item, firstFree lines item.decl (takenBy picks))])
      (done.place locate item.request) := by
  cases hpick : firstFree lines item.decl (takenBy picks) with
  | none => exact h.place_of_none hitem hpick
  | some span => exact h.place_of_some hitem hpick

/-- **A list of requests** is a pick for each of its items. -/
theorem foldl_place {requests : List Request} {items : List Item} (hasks : Asks requests items)
    (hsound : ∀ item ∈ items, item.IsSound) (h : Follows lines picks done) :
    Follows lines (picks ++ choose lines (takenBy picks) items)
      (requests.foldl (Injected.place locate) done) := by
  induction hasks generalizing picks done with
  | nil =>
      rw [choose, List.append_nil]
      exact h
  | skip hnote _ ih => exact ih hsound (h.skip hnote)
  | replace item _ ih =>
      rw [append_choose_cons]
      exact ih (fun other hother => hsound other (List.mem_cons_of_mem _ hother))
        (h.place (hsound item List.mem_cons_self))

end Follows

/-! ### Entries -/

/-- What the requests of a documented entry leave follows what its items pick. -/
theorem Entry.IsDocumented.follows {e : Entry} (h : e.IsDocumented) (symbol content : Text) :
    Follows (splitLines content) (choose (splitLines content) [] (e.items symbol))
      (e.inject locate symbol content) := by
  have hrun := (Follows.ofLines (splitLines content)).foldl_place (asks_requests symbol e)
    (h.isSound symbol)
  rwa [List.nil_append] at hrun

/-- **Carrying out an entry is one substitution** in the original lines. Each item picks the
first slot for its declaration that no item with a short description has picked before it.
Slots that are picked are the same or apart, and the lines of each are replaced by what the
last item that has picked it puts there. What is reported are the picks. -/
theorem Entry.IsDocumented.inject_simultaneous {e : Entry} (h : e.IsDocumented)
    (symbol content : Text) :
    let lines := splitLines content
    let picks := choose lines [] (e.items symbol)
    let done := e.inject locate symbol content
    done.content = joinLines (substitute (patchesOf picks) lines) ∧
      (∀ p ∈ patchesOf picks, ∀ q ∈ patchesOf picks,
        q.span.decl < p.span.top ∨ q.span = p.span ∨ p.span.decl < q.span.top) ∧
      done.classReplaced = classPicked picks ∧
      done.membersReplaced = membersPicked picks ∧
      done.missed = missedBy picks := by
  intro lines picks done
  have hdone : Follows lines picks done := h.follows symbol content
  refine ⟨?_, fun p hp q hq => apart_of_mem_patchesOf_choose (h.isSound symbol) hp hq,
    hdone.classReplaced, hdone.membersReplaced, hdone.missed⟩
  rw [Injected.content, hdone.tracks.now_eq]

/-- A file with two declarations that look the same. -/
def overloads : Text :=
  "/** a */\nclass Foo \x7b\n  /** b */\n  get() \x7b\n  /** c */\n  get() \x7b\n".toList

/-- An entry with two signatures for the same declarations, the first one with a short
description. -/
def overloadsEntry : Entry :=
  ⟨["/** Foo. */".toList], Keyed.ofPairs
    [("get".toList, ⟨"Gets.".toList, ["/** One. */".toList]⟩),
      ("get()".toList, ⟨[], ["/** Two. */".toList]⟩)]⟩

theorem inject_simultaneous_overloads :
    overloadsEntry.IsDocumented ∧
      (overloadsEntry.inject locate "Foo".toList overloads).content =
        ("/** Foo. */\nclass Foo \x7b\n  /** One. */\n  // Gets.\n  get() \x7b\n" ++
          "  /** Two. */\n  get() \x7b\n").toList ∧
      (overloadsEntry.inject locate "Foo".toList overloads).membersReplaced = 2 ∧
      (overloadsEntry.inject locate "Foo".toList overloads).missed = [] := by
  have hdocumented : overloadsEntry.IsDocumented := by decide
  obtain ⟨hcontent, -, -, hmembers, hmissed⟩ :=
    hdocumented.inject_simultaneous "Foo".toList overloads
  exact ⟨hdocumented, hcontent.trans (by decide), hmembers.trans (by decide),
    hmissed.trans (by decide)⟩

end DocBlocks
