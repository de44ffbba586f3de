import DocBlocks.Text.Basic
import Mathlib.Data.List.Basic

/-!
# Pieces of a List

A list is cut at every element of some kind, so cutting at one of them cuts what stands before it
and what stands behind it, each on its own (`pieces_append_cons`). Hence the pieces of lists that
are put together with a cut between each two are the pieces of each of them, one after the other
(`pieces_intercalate`); if nothing is cut inside of them, they are recovered.

## Main results

* `pieces_append_cons`, `pieces_intercalate`: cutting at known places.
* `cuts_eq_false_of_mem_pieces`, `isInfix_of_mem_pieces`: what a piece is.
* `length_pieces`, `eq_append_flatMap_of_pieces`: nothing is lost but the cuts.
-/

namespace DocBlocks

variable {α β : Type} {cuts : α → Bool} {a b cut : α} {s piece first : List α}
  {rest parts : List (List α)}

/-! ### Cutting at a known place -/

theorem startWith_append (a : α) {done : List (List α)} (h : done ≠ []) (more : List (List α)) :
    startWith a (done ++ more) = startWith a done ++ more := by
  cases done with
  | nil => exact absurd rfl h
  | cons first rest => rfl

/-- Cutting at one place more. -/
theorem pieces_append_cons (ha : cuts a = true) (s t : List α) :
    pieces cuts (s ++ a :: t) = pieces cuts s ++ pieces cuts t := by
  induction s with
  | nil => rw [List.nil_append, pieces_cons, if_pos ha, pieces_nil, List.singleton_append]
  | cons b s ih =>
      rw [List.cons_append, pieces_cons, pieces_cons, ih]
      split
      · rfl
      · exact startWith_append b (pieces_ne_nil cuts s) _

/-- There is one piece where nothing is cut. -/
theorem pieces_of_forall_not (h : ∀ a ∈ s, cuts a = false) : pieces cuts s = [s] := by
  induction s with
  | nil => rfl
  | cons a s ih =>
      have ha : ¬cuts a = true := by simp [h a List.mem_cons_self]
      rw [pieces_cons, if_neg ha, ih fun b hb => h b (List.mem_cons_of_mem _ hb), startWith]

theorem eq_nil_of_pieces_eq (h : pieces cuts s = [[]]) : s = [] := by
  cases s with
  | nil => rfl
  | cons a s =>
      rw [pieces_cons] at h
      split at h
      · exact absurd (List.cons.inj h).2 (pieces_ne_nil cuts s)
      · cases hs : pieces cuts s with
        | nil => exact absurd hs (pieces_ne_nil cuts s)
        | cons first rest =>
            rw [hs, startWith] at h
            exact absurd (List.cons.inj h).1 (List.cons_ne_nil a first)

/-! ### What a piece is -/

/-- What is in the first piece after an element was put in front of it, is that element or
was there before. -/
theorem mem_of_mem_startWith (h : piece ∈ startWith a rest) (hb : b ∈ piece) :
    b = a ∨ ∃ p ∈ rest, b ∈ p := by
  cases rest with
  | nil =>
      rw [startWith, List.mem_singleton] at h
      subst h
      exact Or.inl (List.mem_singleton.mp hb)
  | cons first rest =>
      rcases List.mem_cons.mp h with rfl | h
      · rcases List.mem_cons.mp hb with rfl | hb
        · exact Or.inl rfl
        · exact Or.inr ⟨first, List.mem_cons_self, hb⟩
      · exact Or.inr ⟨piece, List.mem_cons_of_mem _ h, hb⟩

/-- No piece holds an element at which the list was cut. -/
theorem cuts_eq_false_of_mem_pieces (h : piece ∈ pieces cuts s) (ha : a ∈ piece) :
    cuts a = false := by
  induction s generalizing piece with
  | nil =>
      rw [pieces_nil, List.mem_singleton] at h
      subst h
      exact absurd ha List.not_mem_nil
  | cons b s ih =>
      rw [pieces_cons] at h
      split at h
      · rcases List.mem_cons.mp h with rfl | h
        · exact absurd ha List.not_mem_nil
        · exact ih h ha
      · next hb =>
        rcases mem_of_mem_startWith h ha with rfl | ⟨p, hp, hap⟩
        · exact Bool.eq_false_iff.mpr hb
        · exact ih hp hap

/-- The first piece is what the list starts with. -/
theorem isPrefix_of_pieces_eq (h : pieces cuts s = first :: rest) : first <+: s := by
  induction s generalizing first rest with
  | nil =>
      obtain ⟨rfl, -⟩ := List.cons.inj h
      exact List.nil_prefix
  | cons a s ih =>
      rw [pieces_cons] at h
      split at h
      · obtain ⟨rfl, -⟩ := List.cons.inj h
        exact List.nil_prefix
      · obtain ⟨first', rest', hs⟩ := List.exists_cons_of_ne_nil (pieces_ne_nil cuts s)
        rw [hs, startWith] at h
        obtain ⟨rfl, -⟩ := List.cons.inj h
        exact (List.prefix_cons_inj a).mpr (ih hs)

/-- A piece stands somewhere in the list. -/
theorem isInfix_of_mem_pieces (h : piece ∈ pieces cuts s) : piece <:+: s := by
  induction s generalizing piece with
  | nil =>
      obtain rfl := List.mem_singleton.mp h
      exact List.infix_rfl
  | cons a s ih =>
      rw [pieces_cons] at h
      split at h
      · rcases List.mem_cons.mp h with rfl | h
        · exact List.nil_infix
        · exact (ih h).trans (List.suffix_cons a s).isInfix
      · obtain ⟨first, rest, hs⟩ := List.exists_cons_of_ne_nil (pieces_ne_nil cuts s)
        rw [hs, startWith] at h
        rcases List.mem_cons.mp h with rfl | h
        · exact ((List.prefix_cons_inj a).mpr (isPrefix_of_pieces_eq hs)).isInfix
        · exact (ih (hs ▸ List.mem_cons_of_mem _ h)).trans (List.suffix_cons a s).isInfix

/-! ### Pieces and the cuts between them -/

/-- The pieces of a list with the cuts between them are the list. -/
theorem eq_append_flatMap_of_pieces (hcuts : ∀ a, cuts a = true → a = cut)
    (h : pieces cuts s = first :: rest) : s = first ++ rest.flatMap (cut :: ·) := by
  induction s generalizing first rest with
  | nil =>
      obtain ⟨rfl, rfl⟩ := List.cons.inj h
      rfl
  | cons a s ih =>
      rw [pieces_cons] at h
      obtain ⟨first', rest', hs⟩ := List.exists_cons_of_ne_nil (pieces_ne_nil cuts s)
      split at h
      · next ha =>
          obtain rfl := hcuts a ha
          obtain ⟨rfl, rfl⟩ := List.cons.inj h
          rw [hs, List.flatMap_cons, List.nil_append, List.cons_append, ← ih hs]
      · rw [hs, startWith] at h
        obtain ⟨rfl, rfl⟩ := List.cons.inj h
        rw [List.cons_append, ← ih hs]

/-- All pieces and a cut behind each but the last one make up what was cut. -/
theorem length_pieces (cuts : α → Bool) (s : List α) :
    (pieces cuts s).flatten.length + (pieces cuts s).length = s.length + 1 := by
  induction s with
  | nil => rfl
  | cons a s ih =>
      rw [pieces_cons]
      split
      · rw [List.flatten_cons, List.nil_append, List.length_cons, List.length_cons]
        omega
      · obtain ⟨first, rest, hs⟩ := List.exists_cons_of_ne_nil (pieces_ne_nil cuts s)
        rw [hs] at ih ⊢
        simp only [startWith, List.flatten_cons, List.length_append, List.length_cons] at ih ⊢
        omega

/-! ### Putting pieces together -/

theorem intercalate_singleton (sep part : List α) : sep.intercalate [part] = part := by
  simp [List.intercalate]

theorem intercalate_cons {sep part : List α} (h : parts ≠ []) :
    sep.intercalate (part :: parts) = part ++ (sep ++ sep.intercalate parts) := by
  cases parts with
  | nil => exact absurd rfl h
  | cons next parts => simp [List.intercalate]

/-- **What is put together with a cut between each two parts** is cut there and inside the parts. -/
theorem pieces_intercalate (hcut : cuts cut = true) (hne : parts ≠ []) :
    pieces cuts ([cut].intercalate parts) = parts.flatMap (pieces cuts) := by
  induction parts with
  | nil => exact absurd rfl hne
  | cons part parts ih =>
      by_cases hrest : parts = []
      · subst hrest
        rw [intercalate_singleton, List.flatMap_singleton]
      · rw [intercalate_cons hrest, List.singleton_append, pieces_append_cons hcut, ih hrest,
          List.flatMap_cons]

/-- Parts that are not cut themselves are recovered from what is put together of them. -/
theorem pieces_intercalate_of_forall_not (hcut : cuts cut = true)
    (hparts : ∀ part ∈ parts, ∀ a ∈ part, cuts a = false) (hne : parts ≠ []) :
    pieces cuts ([cut].intercalate parts) = parts := by
  have hsingle : ∀ part ∈ parts, pieces cuts part = [part] := fun part hpart =>
    pieces_of_forall_not (hparts part hpart)
  rw [pieces_intercalate hcut hne, List.flatMap_congr hsingle, List.flatMap_singleton']

theorem flatMap_intercalate (f : α → List β) (sep : List α) (parts : List (List α)) :
    (sep.intercalate parts).flatMap f =
      (sep.flatMap f).intercalate (parts.map (List.flatMap f)) := by
  induction parts with
  | nil => rfl
  | cons part parts ih =>
      by_cases hrest : parts = []
      · subst hrest
        simp [List.intercalate]
      · rw [intercalate_cons hrest, List.map_cons, intercalate_cons (by simpa using hrest),
          List.flatMap_append, List.flatMap_append, ih]

/-- What is in a text that is put together is in one of its parts or between them. -/
theorem mem_of_mem_intercalate {sep : List α} (h : a ∈ sep.intercalate parts) :
    a ∈ sep ∨ ∃ part ∈ parts, a ∈ part := by
  induction parts with
  | nil => exact absurd h List.not_mem_nil
  | cons first rest ih =>
      by_cases hrest : rest = []
      · subst hrest
        rw [intercalate_singleton] at h
        exact Or.inr ⟨first, List.mem_cons_self, h⟩
      · rw [intercalate_cons hrest, List.mem_append, List.mem_append] at h
        rcases h with h | h | h
        · exact Or.inr ⟨first, List.mem_cons_self, h⟩
        · exact Or.inl h
        · rcases ih h with h | ⟨part, hpart, h⟩
          · exact Or.inl h
          · exact Or.inr ⟨part, List.mem_cons_of_mem _ hpart, h⟩

end DocBlocks
