import DocBlocks.Proofs.Json.Items

/-!
# Strings and Lists of Strings Among Values

Of all values, two kinds are kept as they are: strings, and lists of nothing but strings. These
are the values that the readers of strings and lists read. Every other value is read to its end
and then dropped, so that it can neither be taken for one of them nor hide inside a list of them.

## Main results

* `value_eq_text_iff`, `value_eq_texts_iff`: the values that are strings and lists of strings.
-/

namespace DocBlocks.Json

variable {bound depth : Nat} {s rest t : Text} {ls : List Text}

/-! ### What is kept of a list -/

theorem text?_eq_some_iff {shape : Shape} : shape.text? = some t ↔ shape = .text t := by
  cases shape with
  | text s => simp [Shape.text?]
  | texts ls => simp [Shape.text?]
  | other => simp [Shape.text?]

theorem mapM_text?_eq_some_iff {shapes : List Shape} :
    shapes.mapM Shape.text? = some ls ↔ shapes = ls.map .text := by
  induction shapes generalizing ls with
  | nil => simp [eq_comm]
  | cons shape shapes ih =>
      simp only [List.mapM_cons, bind, Option.bind_eq_some_iff, text?_eq_some_iff, ih, pure,
        Option.some.injEq]
      constructor
      · rintro ⟨t, rfl, ts, rfl, rfl⟩
        rfl
      · intro h
        obtain ⟨t, ts, rfl, hshape, hshapes⟩ := List.map_eq_cons_iff.mp h.symm
        exact ⟨t, hshape.symm, ts, hshapes.symm, rfl⟩

/-- A list is kept if all its elements are strings. -/
theorem ofElements_eq_texts_iff {shapes : List Shape} :
    Shape.ofElements shapes = .texts ls ↔ shapes = ls.map .text := by
  rw [← mapM_text?_eq_some_iff, Shape.ofElements]
  cases shapes.mapM Shape.text? with
  | none => simp
  | some ts => simp

theorem ofElements_ne_text {shapes : List Shape} : Shape.ofElements shapes ≠ .text t := by
  rw [Shape.ofElements]
  cases shapes.mapM Shape.text? with
  | none => simp
  | some ts => simp

/-! ### Values that are kept -/

/-- A value that is kept is a string or a list. -/
theorem exists_of_value {shape : Shape} (h : value bound depth s = .ok (shape, rest)) :
    shape = .other ∨
    (∃ s' t, skipSpace s = '"' :: s' ∧ shape = .text t ∧ string s' = .ok (t, rest)) ∨
    ∃ s' depth' shapes, skipSpace s = '[' :: s' ∧ depth = depth' + 1 ∧
      shape = .ofElements shapes ∧ elements (value bound depth') bound s' = .ok (shapes, rest) := by
  have other_of_map : ∀ {α : Type} {x : Except Fault α} {f : α → Text},
      x.map (fun a => (Shape.other, f a)) = .ok (shape, rest) → shape = .other := by
    intro α x f hx
    obtain ⟨a, -, ha⟩ := Except.map_eq_ok_iff.mp hx
    exact (Prod.mk.inj ha).1.symm
  rw [value.eq_def] at h
  split at h
  · exact absurd h (by simp)
  · next s' hquote =>
      obtain ⟨⟨t, rest'⟩, ht, h⟩ := Except.bind_eq_ok_iff.mp h
      obtain ⟨rfl, rfl⟩ := Prod.mk.inj (Except.ok.inj h)
      exact .inr (.inl ⟨s', t, hquote, rfl, ht⟩)
  · next s' hbracket =>
      cases depth with
      | zero => exact absurd h (by simp)
      | succ depth =>
          obtain ⟨⟨shapes, rest'⟩, hshapes, h⟩ := Except.bind_eq_ok_iff.mp h
          obtain ⟨rfl, rfl⟩ := Prod.mk.inj (Except.ok.inj h)
          exact .inr (.inr ⟨s', depth, shapes, hbracket, rfl, rfl, hshapes⟩)
  · cases depth with
    | zero => exact absurd h (by simp)
    | succ depth =>
        obtain ⟨⟨ms, rest'⟩, -, h⟩ := Except.bind_eq_ok_iff.mp h
        exact .inl (Prod.mk.inj (Except.ok.inj h)).1.symm
  · exact .inl (other_of_map h)
  · exact .inl (other_of_map h)
  · exact .inl (other_of_map h)
  · exact .inl (other_of_map h)
  · split at h
    · exact .inl (other_of_map h)
    · exact absurd h (by simp)

/-- **Strings.** -/
theorem value_eq_text_iff :
    value bound depth s = .ok (.text t, rest) ↔
      ∃ s', skipSpace s = '"' :: s' ∧ string s' = .ok (t, rest) := by
  constructor
  · intro h
    rcases exists_of_value h with hother | ⟨s', t', hquote, ht, hstring⟩ |
      ⟨s', depth', shapes, -, -, hshape, -⟩
    · exact absurd hother (by simp)
    · obtain rfl := Shape.text.inj ht
      exact ⟨s', hquote, hstring⟩
    · exact absurd hshape.symm ofElements_ne_text
  · rintro ⟨s', hquote, hstring⟩
    rw [value.eq_def, hquote]
    exact Except.bind_eq_ok_iff.mpr ⟨(t, rest), hstring, rfl⟩

/-- **Lists of strings.** -/
theorem value_eq_texts_iff :
    value bound depth s = .ok (.texts ls, rest) ↔
      ∃ s' depth', skipSpace s = '[' :: s' ∧ depth = depth' + 1 ∧
        elements (value bound depth') bound s' = .ok (ls.map .text, rest) := by
  constructor
  · intro h
    rcases exists_of_value h with hother | ⟨s', t', -, ht, -⟩ |
      ⟨s', depth', shapes, hbracket, hdepth, hshape, helements⟩
    · exact absurd hother (by simp)
    · exact absurd ht (by simp)
    · obtain rfl := ofElements_eq_texts_iff.mp hshape.symm
      exact ⟨s', depth', hbracket, hdepth, helements⟩
  · rintro ⟨s', depth', hbracket, rfl, helements⟩
    rw [value.eq_def, hbracket]
    refine Except.bind_eq_ok_iff.mpr ⟨(ls.map .text, rest), helements, ?_⟩
    show Except.ok (Shape.ofElements (ls.map .text), rest) = _
    rw [ofElements_eq_texts_iff.mpr rfl]

end DocBlocks.Json
