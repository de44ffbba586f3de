import DocBlocks.Proofs.BlockSpan.Slot
import Mathlib.Data.List.TakeWhile

/-!
# How Many Comments a Slot Covers

The lines of a slot are meant to be one comment. No line of it but the last one holds a closing
marker, so a comment that is opened on the first line is still open when the last line begins. Of
the last line the search asks no more than that it ends with a closing marker. If it holds another
one before that, the comment ends there, and what stands between the two is no part of it, but is
covered by the slot and goes when the slot is filled.

So a slot covers one comment exactly if its last line holds one closing marker. Where the slot has
one line only, that line opens the comment too, and markers are counted from behind the opening
`/*`, with which the closing marker must not share its star.

## Main results

* `behind?_joinLines`: up to its last line no comment in a slot ends.
* `isOneComment_iff`: when the lines that the search finds are one comment.
* `not_forall_isOneComment`: they are not always.
-/

namespace DocBlocks

open Text

namespace Text

variable {marker s rest : Text}

/-! ### The first marker in a text -/

/-- What stands behind the first `marker` in a text, if there is one. -/
def behind? (marker : Text) : Text → Option Text
  | [] => after? marker []
  | c :: s => (after? marker (c :: s)).or (behind? marker s)

theorem isSome_behind? : (behind? marker s).isSome = contains marker s := by
  induction s with
  | nil => cases marker <;> rfl
  | cons c s ih => rw [behind?, Option.isSome_or, ih, contains, startsWith]

theorem exists_append_of_behind? (h : behind? marker s = some rest) :
    ∃ before, before ++ (marker ++ rest) = s := by
  induction s with
  | nil => exact ⟨[], (after?_eq_some_iff.mp h).symm⟩
  | cons c s ih =>
      rw [behind?] at h
      rcases Option.or_eq_some_iff.mp h with hhere | ⟨-, hlater⟩
      · exact ⟨[], (after?_eq_some_iff.mp hhere).symm⟩
      · obtain ⟨before, rfl⟩ := ih hlater
        exact ⟨c :: before, rfl⟩

/-- A marker that comes first in a text does not reach over a character that it does not have. -/
theorem behind?_append_cons {c : Char} {before : Text} (hc : c ∉ marker)
    (h : contains marker before = false) (s : Text) :
    behind? marker (before ++ c :: s) = behind? marker s := by
  -- A marker in front of `c` would lie before it altogether.
  have hafter : ∀ before : Text, contains marker before = false →
      after? marker (before ++ c :: s) = none := by
    intro before hbefore
    rw [Option.eq_none_iff_forall_ne_some]
    intro rest hrest
    rcases List.append_eq_append_iff.mp (after?_eq_some_iff.mp hrest) with
      ⟨more, hmarker, hcons⟩ | ⟨more, rfl, -⟩
    · cases more with
      | nil =>
          rw [List.append_nil] at hmarker
          rw [hmarker, contains_eq_true_iff.mpr List.infix_rfl] at hbefore
          exact Bool.false_ne_true hbefore.symm
      | cons c' more =>
          obtain ⟨rfl, -⟩ := List.cons.inj hcons
          exact hc (hmarker ▸ List.mem_append_right _ List.mem_cons_self)
    · rw [contains_eq_true_iff.mpr (List.prefix_append marker more).isInfix] at hbefore
      exact Bool.false_ne_true hbefore.symm
  induction before with
  | nil =>
      rw [List.nil_append, behind?, ← List.nil_append (c :: s), hafter [] h, Option.none_or]
  | cons b before ih =>
      have hbefore : contains marker before = false := by
        rw [contains, Bool.or_eq_false_iff] at h
        exact h.2
      rw [List.cons_append, behind?, ← List.cons_append, hafter _ h, Option.none_or, ih hbefore]

end Text

/-! ### The last line -/

section LastLine

variable {s rest blanks : Text}

/-- A line that ends a comment ends with a closing marker and blanks. -/
theorem Declaration.exists_suffix_of_closesBlock (h : closesBlock s = true) :
    ∃ blanks, (∀ c ∈ blanks, isBlank c = true) ∧ Comment.closing ++ blanks <:+ s := by
  rw [closesBlock, endsWith, List.isSuffixOf_iff_suffix] at h
  have hsplit : trimEnd s ++ (s.reverse.takeWhile isBlank).reverse = s := by
    rw [trimEnd, dropEndWhile, ← List.reverse_append, List.takeWhile_append_dropWhile,
      List.reverse_reverse]
  refine ⟨(s.reverse.takeWhile isBlank).reverse, fun c hc => ?_, ?_⟩
  · exact List.mem_takeWhile_imp (List.mem_reverse.mp hc)
  · obtain ⟨before, hbefore⟩ := h
    exact ⟨before, by rw [← List.append_assoc, hbefore, hsplit]⟩

/-- **Behind the first closing marker** of a text that ends with one there are blanks only, exactly
if there is no second one. -/
theorem forall_isBlank_iff (hblanks : ∀ c ∈ blanks, isBlank c = true)
    (hsuffix : Comment.closing ++ blanks <:+ s) (h : behind? Comment.closing s = some rest) :
    (∀ c ∈ rest, isBlank c = true) ↔ contains Comment.closing rest = false := by
  obtain ⟨before, rfl⟩ := exists_append_of_behind? h
  have hrest : rest <:+ before ++ (Comment.closing ++ rest) :=
    (List.suffix_append _ _).trans (List.suffix_append _ _)
  constructor
  · intro hall
    rw [Bool.eq_false_iff]
    intro hcontains
    have hstar : '*' ∈ rest :=
      (contains_eq_true_iff.mp hcontains).subset List.mem_cons_self
    exact absurd (hall '*' hstar) (by decide)
  · intro hcontains
    have hsecond : ¬Comment.closing ++ blanks <:+ rest := by
      intro hlater
      rw [contains_eq_true_iff.mpr ((List.prefix_append _ _).isInfix.trans hlater.isInfix)]
        at hcontains
      exact Bool.false_ne_true hcontains.symm
    rcases List.suffix_or_suffix_of_suffix hrest hsuffix with hshort | hlong
    · rcases List.suffix_cons_iff.mp hshort with rfl | hshort
      · exact absurd List.suffix_rfl hsecond
      · rcases List.suffix_cons_iff.mp hshort with rfl | hshort
        · -- Both markers would be the same one, with the slash at two places.
          obtain ⟨other, hother⟩ := hsuffix
          have heq : (other ++ ['*']) ++ ('/' :: blanks) =
              (before ++ ['*', '/']) ++ ('/' :: blanks) := by
            simpa [Comment.closing] using hother
          have hlast := congrArg List.getLast? (List.append_cancel_right heq)
          rw [List.getLast?_concat, List.append_cons, List.getLast?_concat] at hlast
          exact absurd hlast (by decide)
        · exact fun c hc => hblanks c (hshort.subset hc)
    · exact absurd hlong hsecond

end LastLine

/-! ### One comment -/

namespace Declaration

variable {d : Declaration} {lines block : List Text} {line body : Text}

/-- Whether a text is **one comment** at the indentation of a declaration. Behind the two characters
that open it, the first closing marker has nothing but blanks behind it. -/
def IsOneComment (d : Declaration) (text : Text) : Prop :=
  ∃ body rest, text = d.indent ++ '/' :: '*' :: body ∧
    behind? Comment.closing body = some rest ∧ ∀ c ∈ rest, isBlank c = true

/-- Where in a doc block its comment can end: on the last line. If that is the line that opens the
comment, only what is behind the two opening characters counts. -/
def ending (d : Declaration) : List Text → Text
  | [] => []
  | [line] => line.drop (d.indent.length + 2)
  | _ :: rest => rest.getLast?.getD []

theorem exists_body_of_opensBlock (h : d.opensBlock line = true) :
    ∃ body, line = d.indent ++ '/' :: '*' :: '*' :: body := by
  obtain ⟨rest, rfl, hopen⟩ := opensBlock_eq_true_iff.mp h
  obtain ⟨body, rfl⟩ := startsWith_eq_true_iff.mp hopen
  exact ⟨body, rfl⟩

theorem ending_concat (d : Declaration) (first last : Text) (inner : List Text) :
    d.ending (first :: (inner ++ [last])) = last := by
  cases inner with
  | nil => rfl
  | cons next inner =>
      change (next :: inner ++ [last]).getLast?.getD [] = last
      rw [List.getLast?_concat, Option.getD_some]

/-- The closing marker at the end of a line does not reach into the opening `/*` of that line. -/
theorem suffix_of_suffix_opening {blanks : Text}
    (h : Comment.closing ++ blanks <:+ d.indent ++ '/' :: '*' :: '*' :: body) :
    Comment.closing ++ blanks <:+ '*' :: body := by
  have hslash : Comment.closing ++ blanks <:+ '/' :: '*' :: '*' :: body := by
    cases d with
    | ofClass name => exact h
    | ofMember signature =>
        simpa [indent, memberIndent, Comment.closing, List.suffix_cons_iff] using h
  simpa [Comment.closing, List.suffix_cons_iff] using hslash

/-- **Up to the last line of a doc block** the comment that its first line opens does not end. -/
theorem behind?_joinLines (h : IsBlock d.opensBlock block) :
    ∃ body, joinLines block = d.indent ++ '/' :: '*' :: body ∧
      behind? Comment.closing body = behind? Comment.closing (d.ending block) := by
  rcases h.eq_singleton_or_cons_concat with ⟨line, rfl⟩ | ⟨first, inner, last, rfl⟩
  · obtain ⟨body, rfl⟩ := exists_body_of_opensBlock (IsBlock.singleton_iff.mp h).1
    refine ⟨'*' :: body, joinLines_singleton _, ?_⟩
    rw [ending, List.drop_append, List.drop_eq_nil_of_le (by omega), List.nil_append,
      Nat.add_sub_cancel_left]
    rfl
  · obtain ⟨hopen, -, -, hclean⟩ := IsBlock.cons_concat_iff.mp h
    obtain ⟨body, rfl⟩ := exists_body_of_opensBlock hopen
    obtain ⟨hfirst, hinner⟩ := List.forall_mem_cons.mp hclean
    have hbody : contains Comment.closing ('*' :: body) = false := by
      rw [Bool.eq_false_iff] at hfirst ⊢
      intro hcontains
      refine hfirst (contains_eq_true_iff.mpr ((contains_eq_true_iff.mp hcontains).trans ?_))
      exact (List.suffix_append (d.indent ++ ['/', '*']) ('*' :: body)).isInfix.trans
        (by rw [List.append_assoc]; exact List.infix_rfl)
    have hline : ∀ (line : Text), contains Comment.closing line = false → ∀ text : Text,
        behind? Comment.closing (line ++ '\n' :: text) = behind? Comment.closing text :=
      fun line hline => behind?_append_cons (by decide) hline
    have hrest : ∀ rest : List Text, (∀ line ∈ rest, contains Comment.closing line = false) →
        behind? Comment.closing (joinLines (rest ++ [last])) = behind? Comment.closing last := by
      intro rest hrest
      induction rest with
      | nil => rw [List.nil_append, joinLines_singleton]
      | cons line rest ih =>
          obtain ⟨hfirst, hrest⟩ := List.forall_mem_cons.mp hrest
          rw [List.cons_append, joinLines_cons _ (by simp), hline _ hfirst, ih hrest]
    refine ⟨'*' :: body ++ '\n' :: joinLines (inner ++ [last]), ?_, ?_⟩
    · rw [joinLines_cons _ (by simp)]
      simp
    · rw [hline _ hbody, hrest inner hinner, ending_concat]

/-- The last line of a doc block ends with a closing marker, behind the opening one. -/
theorem exists_suffix_ending (h : IsBlock d.opensBlock block) :
    ∃ blanks, (∀ c ∈ blanks, isBlank c = true) ∧
      Comment.closing ++ blanks <:+ d.ending block := by
  rcases h.eq_singleton_or_cons_concat with ⟨line, rfl⟩ | ⟨first, inner, last, rfl⟩
  · obtain ⟨hopen, hclose⟩ := IsBlock.singleton_iff.mp h
    obtain ⟨body, rfl⟩ := exists_body_of_opensBlock hopen
    obtain ⟨blanks, hblanks, hsuffix⟩ := exists_suffix_of_closesBlock hclose
    refine ⟨blanks, hblanks, ?_⟩
    rw [ending, List.drop_append, List.drop_eq_nil_of_le (by omega), List.nil_append,
      Nat.add_sub_cancel_left]
    exact suffix_of_suffix_opening hsuffix
  · obtain ⟨-, -, hclose, -⟩ := IsBlock.cons_concat_iff.mp h
    obtain ⟨blanks, hblanks, hsuffix⟩ := exists_suffix_of_closesBlock hclose
    exact ⟨blanks, hblanks, (ending_concat d first last inner).symm ▸ hsuffix⟩

/-- A doc block is one comment exactly if its last line holds one closing marker. -/
theorem isOneComment_joinLines_iff (h : IsBlock d.opensBlock block) :
    d.IsOneComment (joinLines block) ↔
      ∀ rest ∈ behind? Comment.closing (d.ending block), contains Comment.closing rest = false := by
  obtain ⟨body, htext, hbody⟩ := behind?_joinLines h
  obtain ⟨blanks, hblanks, hsuffix⟩ := exists_suffix_ending h
  rw [htext]
  constructor
  · rintro ⟨body', rest, heq, hrest, hall⟩ rest' hrest'
    obtain rfl : body = body' := by simpa using heq
    obtain rfl : rest = rest' := Option.some.inj (hrest.symm.trans (hbody.trans hrest'))
    exact (forall_isBlank_iff hblanks hsuffix hrest').mp hall
  · intro hone
    have hsome : (behind? Comment.closing (d.ending block)).isSome := by
      rw [isSome_behind?, contains_eq_true_iff]
      exact (List.prefix_append _ _).isInfix.trans hsuffix.isInfix
    obtain ⟨rest, hrest⟩ := Option.isSome_iff_exists.mp hsome
    exact ⟨body, rest, rfl, hbody.trans hrest,
      (forall_isBlank_iff hblanks hsuffix hrest).mpr (hone rest hrest)⟩

end Declaration

/-! ### What the search finds -/

/-- **What the search finds is one comment**, with its indentation and with blanks behind it,
exactly if its last line holds one closing marker. If the last line opens the comment as well, it
is to hold one behind the two opening characters. -/
theorem isOneComment_iff {lines : List Text} {d : Declaration} {span : BlockSpan}
    (h : locate lines d = some span) :
    d.IsOneComment (joinLines ((lines.take span.decl).drop span.top)) ↔
      ∀ rest ∈ behind? Comment.closing (d.ending ((lines.take span.decl).drop span.top)),
        contains Comment.closing rest = false := by
  rw [locate_eq_head?_slots] at h
  exact d.isOneComment_joinLines_iff (mem_slots_iff.mp (List.mem_of_head? h)).block

/-- A comment of two lines, with a star in front of its closing marker. -/
theorem isOneComment_iff_two_lines :
    let lines : List Text := ["x".toList, "/** a".toList, " b **/ ".toList, "class A".toList]
    locate lines (.ofClass "A".toList) = some ⟨1, 3⟩ ∧
      (Declaration.ofClass "A".toList).IsOneComment "/** a\n b **/ ".toList := by
  intro lines
  have hlocate : locate lines (.ofClass "A".toList) = some ⟨1, 3⟩ := by decide
  exact ⟨hlocate, (isOneComment_iff hlocate).mpr (by decide)⟩

/-- **What the search finds is not always one comment**: between two comments on one line stands
code, which the slot covers. -/
theorem not_forall_isOneComment :
    ¬ ∀ (lines : List Text) (d : Declaration) (span : BlockSpan),
      (∀ line ∈ lines, '\n' ∉ line) → locate lines d = some span →
      d.IsOneComment (joinLines ((lines.take span.decl).drop span.top)) := by
  intro hall
  have hlocate : locate ["/** a */ f(); /** b */".toList, "class Foo \x7b".toList]
      (.ofClass "Foo".toList) = some ⟨0, 1⟩ := by decide
  obtain ⟨body, rest, hbody, hrest, hblank⟩ := hall _ _ _ (by decide) hlocate
  obtain rfl : "* a */ f(); /** b */".toList = body :=
    List.cons.inj (List.cons.inj hbody).2 |>.2
  obtain rfl : rest = " f(); /** b */".toList := (Option.some.inj hrest).symm
  exact absurd (hblank 'f' (by decide)) (by decide)

end DocBlocks
