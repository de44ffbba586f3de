import DocBlocks.Declaration

/-!
# What a Line of a File Can Be

A line may declare something, open a doc block or close one, and the search for doc blocks
asks all three questions of it. This module says which answers go together. A line that opens
a doc block declares nothing, no class and no member, as long as the signature of the member
does not itself start with the slash of a comment (`Declaration.IsCode`); and the declaration
that a line makes settles at which indentation its doc block stands.

## Main results

* `matchesLine_eq_true_iff`, `opensBlock_eq_true_iff`: the two tests in terms of what stands
  behind the indentation.
* `matchesLine_of_opensBlock`: a line that opens a doc block declares nothing.
* `opensBlock_congr_of_matchesLine`: two declarations made by one line look for the same
  doc blocks.
* `contains_closing_of_closesBlock`: a line that ends a doc block holds a closing marker.
-/

namespace DocBlocks

open Text

namespace Declaration

/-- Whether a declaration starts as code does and not as a comment: the signature of a member
has a first character, and it is not a slash. -/
def IsCode : Declaration → Prop
  | ofClass _ => True
  | ofMember signature => ∃ c, signature.head? = some c ∧ c ≠ '/'

variable {d d' : Declaration} {line rest rest' : Text}

/-! ### The tests behind the indentation -/

theorem unindent?_eq_some_iff {indent : Text} :
    unindent? indent line = some rest ↔ line = indent ++ rest ∧ startsBlank rest = false := by
  rw [unindent?, Option.filter_eq_some_iff, after?_eq_some_iff, Bool.not_eq_true']

theorem matchesLine_eq_true_iff :
    d.matchesLine line = true ↔
      ∃ rest, line = d.indent ++ rest ∧ startsBlank rest = false ∧
        d.declaredBy rest = true := by
  simp only [matchesLine, Option.any_eq_true, unindent?_eq_some_iff, and_assoc]

theorem startsBlank_of_startsWith_opening (h : startsWith Comment.opening rest = true) :
    startsBlank rest = false := by
  obtain ⟨more, rfl⟩ := startsWith_eq_true_iff.mp h
  rfl

theorem opensBlock_eq_true_iff :
    d.opensBlock line = true ↔
      ∃ rest, line = d.indent ++ rest ∧ startsWith Comment.opening rest = true := by
  simp only [opensBlock, Option.any_eq_true, unindent?_eq_some_iff, and_assoc]
  constructor
  · rintro ⟨rest, hline, -, hopen⟩
    exact ⟨rest, hline, hopen⟩
  · rintro ⟨rest, hline, hopen⟩
    exact ⟨rest, hline, startsBlank_of_startsWith_opening hopen, hopen⟩

/-- What is behind the indentation starts with no blank, so a line has one indentation. -/
theorem indent_eq_of_append_eq (h : d.indent ++ rest = d'.indent ++ rest')
    (hr : startsBlank rest = false) (hr' : startsBlank rest' = false) :
    d.indent = d'.indent := by
  cases d <;> cases d'
  · rfl
  · obtain rfl : rest = memberIndent ++ rest' := h
    exact absurd hr (by simp [startsBlank, memberIndent, isBlank])
  · obtain rfl : memberIndent ++ rest = rest' := h
    exact absurd hr' (by simp [startsBlank, memberIndent, isBlank])
  · rfl

/-- Whether a line opens a doc block depends on the indentation alone. -/
theorem opensBlock_congr (h : d.indent = d'.indent) : d.opensBlock = d'.opensBlock := by
  funext line
  rw [opensBlock, opensBlock, h]

/-- Two declarations that one line makes have their doc blocks at one indentation. -/
theorem opensBlock_congr_of_matchesLine (h : d.matchesLine line = true)
    (h' : d'.matchesLine line = true) : d.opensBlock = d'.opensBlock := by
  obtain ⟨rest, rfl, hr, -⟩ := matchesLine_eq_true_iff.mp h
  obtain ⟨rest', heq, hr', -⟩ := matchesLine_eq_true_iff.mp h'
  exact opensBlock_congr (indent_eq_of_append_eq heq hr hr')

/-! ### Comments declare nothing -/

/-- Code does not start with a slash. -/
theorem IsCode.declaredBy_slash (hd : d.IsCode) (rest : Text) :
    d.declaredBy ('/' :: rest) = false := by
  cases d with
  | ofClass name => rfl
  | ofMember signature =>
      obtain ⟨c, hc, hne⟩ := hd
      obtain ⟨more, rfl⟩ := List.head?_eq_some_iff.mp hc
      rw [declaredBy, after?, if_neg hne]

/-- A line with a slash behind an indentation declares nothing. -/
theorem IsCode.matchesLine_slash (hd : d.IsCode) (d' : Declaration) (rest : Text) :
    d.matchesLine (d'.indent ++ '/' :: rest) = false := by
  rw [Bool.eq_false_iff]
  intro h
  obtain ⟨rest', heq, hr', hdecl⟩ := matchesLine_eq_true_iff.mp h
  have hindent : d'.indent = d.indent := indent_eq_of_append_eq heq rfl hr'
  rw [hindent] at heq
  obtain rfl : '/' :: rest = rest' := List.append_cancel_left heq
  rw [hd.declaredBy_slash] at hdecl
  exact Bool.false_ne_true hdecl

/-- **An opening line declares nothing**, whatever the indentation of its doc block. -/
theorem IsCode.matchesLine_of_opensBlock (hd : d.IsCode) (h : d'.opensBlock line = true) :
    d.matchesLine line = false := by
  obtain ⟨rest, rfl, hopen⟩ := opensBlock_eq_true_iff.mp h
  obtain ⟨more, rfl⟩ := startsWith_eq_true_iff.mp hopen
  exact hd.matchesLine_slash d' _

/-- What a declaration is made by opens no doc block. -/
theorem IsCode.opensBlock_of_matchesLine (hd : d.IsCode) (h : d.matchesLine line = true) :
    d'.opensBlock line = false := by
  rw [Bool.eq_false_iff]
  intro hopen
  rw [hd.matchesLine_of_opensBlock hopen] at h
  exact Bool.false_ne_true h

/-! ### Closing lines -/

theorem dropEndWhile_isPrefix {α : Type} (p : α → Bool) (s : List α) :
    dropEndWhile p s <+: s := by
  rw [dropEndWhile, ← List.reverse_suffix, List.reverse_reverse]
  exact List.dropWhile_suffix p

/-- A line that ends a doc block holds a closing marker. -/
theorem contains_closing_of_closesBlock (h : closesBlock line = true) :
    contains Comment.closing line = true := by
  rw [closesBlock, endsWith, List.isSuffixOf_iff_suffix] at h
  rw [contains_eq_true_iff]
  exact h.isInfix.trans (dropEndWhile_isPrefix isBlank line).isInfix

/-- A line without a closing marker ends no doc block. -/
theorem closesBlock_of_contains_closing (h : contains Comment.closing line = false) :
    closesBlock line = false := by
  rw [Bool.eq_false_iff]
  intro hclose
  rw [contains_closing_of_closesBlock hclose] at h
  exact Bool.false_ne_true h.symm

end Declaration

end DocBlocks
