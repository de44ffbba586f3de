import DocBlocks.Text.Blank
import Mathlib.Data.List.DropRight

/-!
# What Trimming Leaves

Trimming takes away blanks and nothing else. What stands before a character that is no blank is
still there when the end has been trimmed, and what stands behind it when the start has.

The end of a text can be trimmed of other characters than blanks as well. What is taken away is one
run, behind the last character that is kept.

## Main results

* `dropEndWhile_append`, `exists_of_dropEndWhile_ne_nil`: trimming the end of a list.
* `trimStart_append_cons`, `takeWhile_isBlank_append_cons`: a text of which the first character
  behind its indentation is known.
* `isPrefix_trimEnd`: a text up to a character that is no blank.
-/

namespace DocBlocks.Text

/-! ### Trimming the end of a list -/

section DropEndWhile

variable {α : Type} {p q : α → Bool} {s : List α} {a : α}

theorem dropEndWhile_eq_rdropWhile (p : α → Bool) (s : List α) :
    dropEndWhile p s = s.rdropWhile p := rfl

/-- What ends with nothing to trim is kept when the end of something longer is trimmed. -/
theorem dropEndWhile_append (h : dropEndWhile p s = s) (t : List α) :
    dropEndWhile p (s ++ t) = s ++ dropEndWhile p t := by
  rw [dropEndWhile_eq_rdropWhile] at h ⊢
  induction t using List.reverseRecOn with
  | nil => rw [List.append_nil, h, dropEndWhile_eq_rdropWhile, List.rdropWhile_nil, List.append_nil]
  | append_singleton t a ih =>
      rw [← List.append_assoc, dropEndWhile_eq_rdropWhile, List.rdropWhile_concat,
        List.rdropWhile_concat, ih]
      split
      · rfl
      · exact List.append_assoc _ _ _

/-- Nothing up to an element that is not trimmed is lost by trimming the end. -/
theorem dropEndWhile_append_cons (ha : p a = false) (s t : List α) :
    dropEndWhile p (s ++ a :: t) = s ++ a :: dropEndWhile p t := by
  have hkept : dropEndWhile p (s ++ [a]) = s ++ [a] :=
    List.rdropWhile_concat_neg p s a (by simp [ha])
  simpa using dropEndWhile_append hkept t

/-- Where not all is trimmed, the last element that is kept is followed by what is trimmed. -/
theorem exists_of_dropEndWhile_ne_nil (h : dropEndWhile p s ≠ []) :
    ∃ before a after, s = before ++ a :: after ∧ dropEndWhile p s = before ++ [a] ∧
      p a = false ∧ ∀ b ∈ after, p b = true := by
  have hsplit : dropEndWhile p s ++ s.rtakeWhile p = s := List.rdropWhile_append_rtakeWhile
  have hlast : (dropEndWhile p s).dropLast ++ [(dropEndWhile p s).getLast h] = dropEndWhile p s :=
    List.dropLast_append_getLast h
  refine ⟨_, _, s.rtakeWhile p, ?_, hlast.symm, ?_, fun b => List.mem_rtakeWhile_imp⟩
  · rw [← List.singleton_append, ← List.append_assoc, hlast, hsplit]
  · exact Bool.eq_false_iff.mpr (List.rdropWhile_last_not p s h)

/-- What ends with nothing to trim ends with nothing of which even less is trimmed. -/
theorem dropEndWhile_eq_self_of_imp (himp : ∀ a, q a = true → p a = true)
    (h : dropEndWhile p s = s) : dropEndWhile q s = s := by
  rw [dropEndWhile_eq_rdropWhile, List.rdropWhile_eq_self_iff] at h ⊢
  exact fun hne hq => h hne (himp _ hq)

end DropEndWhile

/-! ### Trimming a text -/

variable {indent s rest : Text} {c : Char}

theorem trimStart_append_cons (hindent : ∀ b ∈ indent, isBlank b = true)
    (hc : isBlank c = false) : trimStart (indent ++ c :: rest) = c :: rest := by
  rw [trimStart, List.dropWhile_append_of_pos hindent,
    List.dropWhile_cons_of_neg (by rw [hc]; exact Bool.false_ne_true)]

theorem takeWhile_isBlank_append_cons (hindent : ∀ b ∈ indent, isBlank b = true)
    (hc : isBlank c = false) : (indent ++ c :: rest).takeWhile isBlank = indent := by
  rw [List.takeWhile_append_of_pos hindent,
    List.takeWhile_cons_of_neg (by rw [hc]; exact Bool.false_ne_true), List.append_nil]

/-- A text is the blanks that it starts with and what is left when they are trimmed. -/
theorem takeWhile_append_trimStart (s : Text) : s.takeWhile isBlank ++ trimStart s = s :=
  List.takeWhile_append_dropWhile

/-- Nothing up to a character that is no blank is lost by trimming the end. -/
theorem isPrefix_trimEnd (hc : isBlank c = false) (s rest : Text) :
    s ++ [c] <+: trimEnd (s ++ c :: rest) := by
  rw [trimEnd, dropEndWhile_append_cons hc]
  exact ⟨_, (List.append_cons s c _).symm⟩

end DocBlocks.Text
