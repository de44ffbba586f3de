import DocBlocks.Proofs.Text.Lines
import DocBlocks.Text.EscapeMarker
import Mathlib.Logic.Function.Iterate
import Mathlib.Logic.Relation

/-!
# In Whatever Order Markers Are Deleted

Escape markers can be deleted one at a time, in any order. Which ones there are to delete depends on
the order, since a deletion may make a marker out of what stood on both sides of it, and may as well
take away the letter that another marker needs. What is left when there is none to delete any more
does not depend on it. A single deletion, wherever it is made, does not change what `stripEscapes`
makes of a text, because a marker put in front of a stripped text vanishes; and a text without
markers is what `stripEscapes` makes of it. So all orders end in the same text.

One of these orders is to go through a text from left to right and to delete the markers on the way,
but not those that come of it, and to do so again until nothing changes.

## Main results

* `hasMarker_stripEscapes`, `stripEscapes_of_not_hasMarker`: stripped texts hold no marker, and a
  text without markers is stripped already.
* `DropsMarker.stripEscapes_eq`: what one deletion leaves as it is.
* `iterate_deletePass`, `stripInPasses_eq`: deleting in passes.
* `stripEscapes_normalForm`: the one end of all orders.
* `splitLines_stripEscapes`: a text is stripped line by line.
-/

namespace DocBlocks.Text

open Relation

variable {s t marker : Text} {c d : Char}

/-! ### Markers in a text -/

/-- The escape markers. -/
def escapeMarkers : List Text := [['\\', 'u'], ['\\', 'x']]

/-- Whether a text holds an escape marker. -/
def hasMarker (s : Text) : Bool := escapeMarkers.any (contains · s)

theorem mem_escapeMarkers_iff :
    marker ∈ escapeMarkers ↔ ∃ d, endsMarker d = true ∧ marker = ['\\', d] := by
  simp [escapeMarkers, endsMarker]

theorem ne_backslash_of_endsMarker (h : endsMarker d = true) : d ≠ '\\' := by
  rintro rfl
  exact absurd h (by decide)

theorem hasMarker_eq_true_iff :
    hasMarker s = true ↔ ∃ marker ∈ escapeMarkers, marker <:+: s := by
  simp only [hasMarker, List.any_eq_true, contains_eq_true_iff]

theorem hasMarker_eq_false_of_isInfix (h : s <:+: t) (ht : hasMarker t = false) :
    hasMarker s = false := by
  rw [Bool.eq_false_iff, Ne, hasMarker_eq_true_iff] at ht ⊢
  rintro ⟨marker, hmarker, hinfix⟩
  exact ht ⟨marker, hmarker, hinfix.trans h⟩

/-- A character in front of a text makes a marker if it is a backslash and the text starts with a
letter that ends one. -/
theorem hasMarker_cons_iff :
    hasMarker (c :: s) = true ↔
      (c = '\\' ∧ s.head?.any endsMarker = true) ∨ hasMarker s = true := by
  rw [hasMarker_eq_true_iff, hasMarker_eq_true_iff]
  constructor
  · rintro ⟨marker, hmarker, hinfix⟩
    rcases List.infix_cons_iff.mp hinfix with ⟨rest, hrest⟩ | hinfix
    · obtain ⟨d, hd, rfl⟩ := mem_escapeMarkers_iff.mp hmarker
      obtain ⟨rfl, rfl⟩ := List.cons.inj hrest
      exact .inl ⟨rfl, hd⟩
    · exact .inr ⟨marker, hmarker, hinfix⟩
  · rintro (⟨rfl, hhead⟩ | ⟨marker, hmarker, hinfix⟩)
    · obtain ⟨d, hd, hends⟩ := (Option.any_eq_true _ _).mp hhead
      obtain ⟨rest, rfl⟩ := List.head?_eq_some_iff.mp hd
      exact ⟨['\\', d], mem_escapeMarkers_iff.mpr ⟨d, hends, rfl⟩, [], rest, rfl⟩
    · exact ⟨marker, hmarker, hinfix.trans (List.suffix_cons c s).isInfix⟩

theorem hasMarker_cons_of_ne (hc : c ≠ '\\') (s : Text) : hasMarker (c :: s) = hasMarker s := by
  rw [Bool.eq_iff_iff, hasMarker_cons_iff]
  exact or_iff_right fun hmakes => hc hmakes.1

/-- Whether the last character of a text and the first one of the next make a marker. -/
def MakeMarker (s t : Text) : Prop := s.getLast? = some '\\' ∧ t.head?.any endsMarker = true

theorem hasMarker_nil : hasMarker [] = false := rfl

/-- The markers of two texts that are put together are in one of them, or come about where they
meet. -/
theorem hasMarker_append_iff :
    hasMarker (s ++ t) = true ↔ hasMarker s = true ∨ MakeMarker s t ∨ hasMarker t = true := by
  induction s with
  | nil => simp [MakeMarker, hasMarker_nil]
  | cons c s ih =>
      cases s with
      | nil =>
          rw [List.singleton_append, hasMarker_cons_iff, hasMarker_cons_iff]
          simp [MakeMarker, hasMarker_nil]
      | cons d s =>
          have hmake : MakeMarker (c :: d :: s) t ↔ MakeMarker (d :: s) t := by
            rw [MakeMarker, List.getLast?_cons_cons, MakeMarker]
          rw [List.cons_append, hasMarker_cons_iff, ih, hmake, hasMarker_cons_iff (s := d :: s),
            or_assoc]
          rfl

/-- No marker reaches over a character that belongs to none. -/
theorem hasMarker_append_cons (hc : c ≠ '\\') (hends : endsMarker c = false) (s t : Text) :
    hasMarker (s ++ c :: t) = (hasMarker s || hasMarker t) := by
  have hmake : ¬MakeMarker s (c :: t) := fun hmake => absurd hmake.2 (by simp [hends])
  rw [Bool.eq_iff_iff, hasMarker_append_iff, or_iff_right hmake, hasMarker_cons_of_ne hc,
    Bool.or_eq_true]

/-- What holds no backslash makes no marker with what is behind it. -/
theorem hasMarker_append_of_not_mem (h : '\\' ∉ s) (t : Text) :
    hasMarker (s ++ t) = hasMarker t := by
  induction s with
  | nil => rfl
  | cons c s ih =>
      obtain ⟨hc, hs⟩ := List.ne_and_not_mem_of_not_mem_cons h
      rw [List.cons_append, hasMarker_cons_of_ne hc.symm, ih hs]

/-- The markers of parts that are put together are those inside of them. -/
theorem hasMarker_intercalate (hc : c ≠ '\\') (hends : endsMarker c = false) (parts : List Text) :
    hasMarker ([c].intercalate parts) = parts.any hasMarker := by
  induction parts with
  | nil => rfl
  | cons part parts ih =>
      by_cases hrest : parts = []
      · subst hrest
        simp
      · rw [intercalate_cons hrest, List.singleton_append, hasMarker_append_cons hc hends, ih,
          List.any_cons]

/-! ### Stripped texts -/

/-- **What becomes of a character** that is put in front of a text: it stays and makes no marker, or
it makes one and is deleted with the letter behind it. -/
theorem attach_cases (c : Char) (s : Text) :
    (attach c s = c :: s ∧ ¬(c = '\\' ∧ s.head?.any endsMarker = true)) ∨
      ∃ d, endsMarker d = true ∧ c = '\\' ∧ s = d :: attach c s := by
  cases s with
  | nil => exact .inl ⟨rfl, by simp⟩
  | cons d rest =>
      by_cases h : c = '\\' ∧ endsMarker d = true
      · refine .inr ⟨d, h.2, h.1, ?_⟩
        rw [attach, if_pos (by simpa using h)]
      · refine .inl ⟨?_, h⟩
        rw [attach, if_neg (by simpa using h)]

theorem hasMarker_attach (hs : hasMarker s = false) : hasMarker (attach c s) = false := by
  rcases attach_cases c s with ⟨heq, hmakes⟩ | ⟨d, -, -, heq⟩
  · rw [heq, Bool.eq_false_iff, Ne, hasMarker_cons_iff]
    rintro (h | h)
    · exact hmakes h
    · exact absurd h (by simp [hs])
  · rw [heq] at hs
    exact hasMarker_eq_false_of_isInfix (List.suffix_cons d _).isInfix hs

/-- **No marker is left** by stripping. -/
theorem hasMarker_stripEscapes (s : Text) : hasMarker (stripEscapes s) = false := by
  induction s with
  | nil => rfl
  | cons c s ih => exact hasMarker_attach ih

/-- A text without markers is stripped already. -/
theorem stripEscapes_of_not_hasMarker (h : hasMarker s = false) : stripEscapes s = s := by
  induction s with
  | nil => rfl
  | cons c s ih =>
      have hno : ¬((c = '\\' ∧ s.head?.any endsMarker = true) ∨ hasMarker s = true) := by
        rw [← hasMarker_cons_iff, h]
        exact Bool.false_ne_true
      obtain ⟨hmakes, hs⟩ := not_or.mp hno
      rw [stripEscapes_cons, ih (Bool.eq_false_iff.mpr hs)]
      rcases attach_cases c s with ⟨heq, -⟩ | ⟨d, hd, rfl, heq⟩
      · exact heq
      · exact absurd ⟨rfl, by rw [heq]; exact hd⟩ hmakes

/-- Stripping only deletes. -/
theorem stripEscapes_sublist (s : Text) : (stripEscapes s).Sublist s := by
  induction s with
  | nil => exact List.Sublist.slnil
  | cons c s ih =>
      rw [stripEscapes_cons]
      rcases attach_cases c (stripEscapes s) with ⟨heq, -⟩ | ⟨d, -, -, heq⟩
      · rw [heq]
        exact ih.cons_cons c
      · rw [heq] at ih
        exact ((List.sublist_cons_self d _).trans ih).cons c

theorem stripEscapes_append (s t : Text) :
    stripEscapes (s ++ t) = s.foldr attach (stripEscapes t) := List.foldr_append

/-- A marker in front of a text vanishes. -/
theorem stripEscapes_marker_append (h : marker ∈ escapeMarkers) (s : Text) :
    stripEscapes (marker ++ s) = stripEscapes s := by
  obtain ⟨d, hd, rfl⟩ := mem_escapeMarkers_iff.mp h
  have hletter : attach d (stripEscapes s) = d :: stripEscapes s := by
    rcases attach_cases d (stripEscapes s) with ⟨heq, -⟩ | ⟨-, -, heq, -⟩
    · exact heq
    · exact absurd heq (ne_backslash_of_endsMarker hd)
  calc stripEscapes (['\\', d] ++ s) = attach '\\' (attach d (stripEscapes s)) := rfl
    _ = attach '\\' (d :: stripEscapes s) := by rw [hletter]
    _ = stripEscapes s := by rw [attach, if_pos (by simpa using hd)]

/-! ### Deleting one marker -/

/-- A single deletion takes one escape marker out of a text, wherever it stands. -/
inductive DropsMarker : Text → Text → Prop
  | mk (before marker after : Text) :
      marker ∈ escapeMarkers → DropsMarker (before ++ marker ++ after) (before ++ after)

namespace DropsMarker

/-- **A single deletion** does not change what is left by stripping. -/
theorem stripEscapes_eq (h : DropsMarker s t) : stripEscapes s = stripEscapes t := by
  obtain ⟨before, marker, after, hmarker⟩ := h
  rw [List.append_assoc, stripEscapes_append, stripEscapes_marker_append hmarker,
    stripEscapes_append]

theorem cons (c : Char) (h : DropsMarker s t) : DropsMarker (c :: s) (c :: t) := by
  obtain ⟨before, marker, after, hmarker⟩ := h
  exact .mk (c :: before) marker after hmarker

theorem length_lt (h : DropsMarker s t) : t.length < s.length := by
  obtain ⟨before, marker, after, hmarker⟩ := h
  obtain ⟨d, -, rfl⟩ := mem_escapeMarkers_iff.mp hmarker
  simp only [List.length_append, List.length_cons, List.length_nil]
  omega

theorem exists_iff : (∃ t, DropsMarker s t) ↔ hasMarker s = true := by
  rw [hasMarker_eq_true_iff]
  constructor
  · rintro ⟨_, before, marker, after, hmarker⟩
    exact ⟨marker, hmarker, before, after, rfl⟩
  · rintro ⟨marker, hmarker, before, after, rfl⟩
    exact ⟨_, .mk before marker after hmarker⟩

/-- Any number of deletions do not change what is left by stripping. -/
theorem stripEscapes_eq_of_reflTransGen (h : ReflTransGen DropsMarker s t) :
    stripEscapes s = stripEscapes t := by
  induction h with
  | refl => rfl
  | tail _ hdrop ih => rw [ih, hdrop.stripEscapes_eq]

theorem cons_of_reflTransGen (c : Char) (h : ReflTransGen DropsMarker s t) :
    ReflTransGen DropsMarker (c :: s) (c :: t) :=
  h.lift (c :: ·) fun _ _ hdrop => hdrop.cons c

theorem length_le_of_reflTransGen (h : ReflTransGen DropsMarker s t) : t.length ≤ s.length := by
  induction h with
  | refl => exact Nat.le_refl _
  | tail _ hdrop ih => exact Nat.le_trans (Nat.le_of_lt hdrop.length_lt) ih

/-- A text is stripped by single deletions, the last marker first. -/
theorem reflTransGen_stripEscapes (s : Text) : ReflTransGen DropsMarker s (stripEscapes s) := by
  induction s with
  | nil => exact .refl
  | cons c s ih =>
      refine (cons_of_reflTransGen c ih).trans ?_
      rw [stripEscapes_cons]
      rcases attach_cases c (stripEscapes s) with ⟨heq, -⟩ | ⟨d, hd, rfl, heq⟩
      · rw [heq]
      · have hdrop : DropsMarker ('\\' :: d :: attach '\\' (stripEscapes s))
            (attach '\\' (stripEscapes s)) :=
          .mk [] ['\\', d] _ (mem_escapeMarkers_iff.mpr ⟨d, hd, rfl⟩)
        rw [← heq] at hdrop
        exact .single hdrop

/-- Every sequence of single deletions ends. -/
theorem not_forall_nat (f : Nat → Text) : ¬∀ n, DropsMarker (f n) (f (n + 1)) := by
  intro h
  have hlength : ∀ n, (f n).length + n ≤ (f 0).length := by
    intro n
    induction n with
    | zero => exact Nat.le_refl _
    | succ n ih =>
        have := (h n).length_lt
        omega
  have := hlength ((f 0).length + 1)
  omega

end DropsMarker

/-! ### Deleting in passes -/

/-- Goes once through a text, from left to right, and deletes the markers on the way. -/
def deletePass : Text → Text
  | c :: d :: s => if c = '\\' && endsMarker d then deletePass s else c :: deletePass (d :: s)
  | s => s

theorem reflTransGen_deletePass (s : Text) : ReflTransGen DropsMarker s (deletePass s) := by
  fun_induction deletePass s with
  | case1 c d s hmarker ih =>
      obtain ⟨rfl, hd⟩ : c = '\\' ∧ endsMarker d = true := by simpa using hmarker
      have hdrop : DropsMarker ('\\' :: d :: s) s :=
        .mk [] ['\\', d] s (mem_escapeMarkers_iff.mpr ⟨d, hd, rfl⟩)
      exact ih.head hdrop
  | case2 c d s _ ih => exact DropsMarker.cons_of_reflTransGen c ih
  | case3 s _ => exact .refl

/-- A pass over a text with a marker deletes at least one. -/
theorem length_deletePass_lt (h : hasMarker s = true) : (deletePass s).length < s.length := by
  fun_induction deletePass s with
  | case1 c d s _ _ =>
      have := DropsMarker.length_le_of_reflTransGen (reflTransGen_deletePass s)
      simp only [List.length_cons]
      omega
  | case2 c d s hmarker ih =>
      rcases hasMarker_cons_iff.mp h with hhead | h
      · exact absurd hhead (by simpa using hmarker)
      · have := ih h
        simp only [List.length_cons] at this ⊢
        omega
  | case3 s hshort =>
      cases s with
      | nil => exact absurd h (by decide)
      | cons c s =>
          cases s with
          | nil =>
              exact absurd (hasMarker_cons_iff.mp h) (by simp [hasMarker, escapeMarkers, contains])
          | cons d s => exact absurd rfl (hshort c d s)

/-- A pass over a text without markers changes nothing. -/
theorem deletePass_of_not_hasMarker (h : hasMarker s = false) : deletePass s = s := by
  rcases (reflTransGen_deletePass s).cases_head with heq | ⟨t, hdrop, -⟩
  · exact heq.symm
  · have := DropsMarker.exists_iff.mp ⟨t, hdrop⟩
    simp [h] at this

/-- **Passes come to an end**, after as many of them as there are characters at the latest, and what
is left then is the stripped text. -/
theorem iterate_deletePass {n : Nat} (h : s.length ≤ n) : deletePass^[n] s = stripEscapes s := by
  induction n generalizing s with
  | zero =>
      rw [List.eq_nil_of_length_eq_zero (Nat.le_zero.mp h)]
      rfl
  | succ n ih =>
      cases hmarker : hasMarker s with
      | false =>
          rw [Function.iterate_fixed (deletePass_of_not_hasMarker hmarker),
            stripEscapes_of_not_hasMarker hmarker]
      | true =>
          have := length_deletePass_lt hmarker
          rw [Function.iterate_succ_apply, ih (by omega),
            DropsMarker.stripEscapes_eq_of_reflTransGen (reflTransGen_deletePass s)]

/-- Goes through a text again and again, until a pass changes nothing. -/
def stripInPasses (s : Text) : Text :=
  if deletePass s = s then s else stripInPasses (deletePass s)
termination_by s.length
decreasing_by
  rename_i h
  cases hmarker : hasMarker s with
  | true => exact length_deletePass_lt hmarker
  | false => exact absurd (deletePass_of_not_hasMarker hmarker) h

theorem stripInPasses_eq (s : Text) : stripInPasses s = stripEscapes s := by
  fun_induction stripInPasses s with
  | case1 s hfixed =>
      have hmarker : hasMarker s = false := by
        rw [Bool.eq_false_iff]
        intro h
        have := length_deletePass_lt h
        rw [hfixed] at this
        exact absurd this (Nat.lt_irrefl _)
      exact (stripEscapes_of_not_hasMarker hmarker).symm
  | case2 s _ ih =>
      rw [ih, DropsMarker.stripEscapes_eq_of_reflTransGen (reflTransGen_deletePass s)]

/-! ### The one end -/

/-- **The end of all orders.** No sequence of single deletions goes on for ever, and whichever goes
on until there is nothing to delete ends in the stripped text. One of them goes in passes from left
to right, the last of which changes nothing. There is no marker in the stripped text, so that
stripping it once more leaves it as it is. -/
theorem stripEscapes_normalForm (s : Text) :
    (¬∃ f : Nat → Text, f 0 = s ∧ ∀ n, DropsMarker (f n) (f (n + 1))) ∧
    (∀ t, (ReflTransGen DropsMarker s t ∧ ∀ u, ¬DropsMarker t u) ↔ t = stripEscapes s) ∧
    (deletePass^[s.length] s = stripEscapes s ∧ deletePass (stripEscapes s) = stripEscapes s ∧
      stripInPasses (deletePass s) = stripEscapes s) ∧
    hasMarker (stripEscapes s) = false ∧ stripEscapes (stripEscapes s) = stripEscapes s := by
  have hclean : hasMarker (stripEscapes s) = false := hasMarker_stripEscapes s
  have hpasses : stripInPasses (deletePass s) = stripEscapes s := by
    rw [stripInPasses_eq, DropsMarker.stripEscapes_eq_of_reflTransGen (reflTransGen_deletePass s)]
  refine ⟨fun ⟨f, _, hdrops⟩ => DropsMarker.not_forall_nat f hdrops, fun t => ⟨?_, ?_⟩,
    ⟨iterate_deletePass (Nat.le_refl _), deletePass_of_not_hasMarker hclean, hpasses⟩, hclean,
    stripEscapes_of_not_hasMarker hclean⟩
  · rintro ⟨hreach, hend⟩
    have hmarker : hasMarker t = false := by
      rw [Bool.eq_false_iff, Ne, ← DropsMarker.exists_iff, not_exists]
      exact hend
    rw [DropsMarker.stripEscapes_eq_of_reflTransGen hreach, stripEscapes_of_not_hasMarker hmarker]
  · rintro rfl
    refine ⟨DropsMarker.reflTransGen_stripEscapes s, not_exists.mp ?_⟩
    rw [DropsMarker.exists_iff, hclean]
    exact Bool.false_ne_true

/-! ### Lines of a stripped text -/

theorem isLineFeed_eq_false_of_endsMarker (h : endsMarker d = true) : isLineFeed d = false := by
  rw [Bool.eq_false_iff, Ne, isLineFeed_eq_true_iff]
  rintro rfl
  exact absurd h (by decide)

/-- A character that is put in front of a text is put in front of its first line. -/
theorem splitLines_attach (hc : isLineFeed c = false) {first : Text} {rest : List Text}
    (hs : splitLines s = first :: rest) : splitLines (attach c s) = attach c first :: rest := by
  rcases attach_cases c s with ⟨heq, hmakes⟩ | ⟨d, hd, rfl, heq⟩
  · have hfirst : attach c first = c :: first := by
      rcases attach_cases c first with ⟨hcons, -⟩ | ⟨d, hd, hback, hcons⟩
      · exact hcons
      · -- The first line starts with the letter of a marker, and so does the text.
        obtain ⟨more, hmore⟩ := isPrefix_of_pieces_eq hs
        rw [← hmore, hcons] at hmakes
        exact absurd ⟨hback, hd⟩ hmakes
    rw [heq, splitLines_cons_of_not hc, hs, startWith, hfirst]
  · obtain ⟨first', rest', ht⟩ :=
      List.exists_cons_of_ne_nil (splitLines_ne_nil (attach '\\' s))
    rw [heq, splitLines_cons_of_not (isLineFeed_eq_false_of_endsMarker hd), ht, startWith] at hs
    obtain ⟨rfl, rfl⟩ := List.cons.inj hs
    rw [ht, attach, if_pos (by simpa using hd)]

/-- **A text is stripped line by line**: no marker reaches over a line feed. -/
theorem splitLines_stripEscapes (s : Text) :
    splitLines (stripEscapes s) = (splitLines s).map stripEscapes := by
  induction s with
  | nil => rfl
  | cons c s ih =>
      obtain ⟨first, rest, hs⟩ := List.exists_cons_of_ne_nil (splitLines_ne_nil s)
      rw [hs, List.map_cons] at ih
      cases hc : isLineFeed c with
      | false =>
          rw [stripEscapes_cons, splitLines_attach hc ih, splitLines_cons_of_not hc, hs, startWith,
            List.map_cons, stripEscapes_cons]
      | true =>
          obtain rfl := isLineFeed_eq_true_iff.mp hc
          have hfeed : attach '\n' (stripEscapes s) = [] ++ '\n' :: stripEscapes s := by
            rcases attach_cases '\n' (stripEscapes s) with ⟨heq, -⟩ | ⟨-, -, heq, -⟩
            · exact heq
            · exact absurd heq (by decide)
          have hcut : splitLines ('\n' :: s) = [] :: splitLines s := pieces_append_cons hc [] s
          rw [stripEscapes_cons, hfeed, splitLines, pieces_append_cons hc, ← splitLines,
            ← splitLines, ih, hcut, hs]
          rfl

end DocBlocks.Text
