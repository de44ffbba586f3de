import DocBlocks.Keyed

/-!
# Entries Around a Key

A key cuts the entries of a keyed list in two: those that come before it and those that come
after it. Looking the key up, or giving it another value, touches neither part. This is what
is needed to go through a keyed list from its first key to its last and to change values on
the way.

## Main results

* `valueIn_append`: a lookup goes through entries in their order.
* `valueIn_of_ascending`, `insertInto_of_ascending`: looking up a key and giving it another
  value, in terms of the entries before and after it.
* `valueIn_append_of_lt`, `valueIn_append_of_not_lt`: keys on either side of a key are looked
  up on that side alone.
-/

namespace DocBlocks.Keyed

variable {κ α : Type} [Ord κ] {key other : κ} {value old : α}
  {entries before after : List (κ × α)}

theorem valueIn_append (key : κ) (before after : List (κ × α)) :
    valueIn key (before ++ after) = (valueIn key before).or (valueIn key after) := by
  induction before with
  | nil => rfl
  | cons b before ih =>
      obtain ⟨k, v⟩ := b
      rw [List.cons_append, valueIn, valueIn, ih]
      split <;> rfl

theorem valueIn_eq_none (h : ∀ a ∈ entries, compare key a.1 ≠ .eq) :
    valueIn key entries = none := by
  induction entries with
  | nil => rfl
  | cons b entries ih =>
      obtain ⟨k, v⟩ := b
      have hk : compare key k ≠ .eq := h (k, v) List.mem_cons_self
      rw [valueIn, if_neg (by simpa using hk)]
      exact ih fun a ha => h a (List.mem_cons_of_mem _ ha)

/-- The keys before a key are less than it. -/
theorem lt_of_mem_before
    (h : (before ++ (key, value) :: after).Pairwise fun a b => compare a.1 b.1 = .lt) :
    ∀ a ∈ before, compare a.1 key = .lt :=
  fun a ha => (List.pairwise_append.mp h).2.2 a ha (key, value) List.mem_cons_self

variable [Std.TransOrd κ]

/-- The keys from a key on are not less than it. -/
theorem not_lt_of_mem_after
    (h : (before ++ (key, value) :: after).Pairwise fun a b => compare a.1 b.1 = .lt) :
    ∀ a ∈ (key, value) :: after, compare a.1 key ≠ .lt := by
  intro a ha hlt
  have hcons := List.pairwise_cons.mp (List.pairwise_append.mp h).2.1
  rcases List.mem_cons.mp ha with rfl | ha
  · exact absurd (hlt.symm.trans Std.ReflCmp.compare_self) (by decide)
  · have hgt : compare key a.1 = .lt := hcons.1 a ha
    exact absurd (hgt.symm.trans (Std.OrientedCmp.gt_of_lt hlt)) (by decide)

/-- A key is found behind the entries before it. -/
theorem valueIn_of_ascending
    (h : (before ++ (key, value) :: after).Pairwise fun a b => compare a.1 b.1 = .lt) :
    valueIn key (before ++ (key, value) :: after) = some value := by
  have hbefore : valueIn key before = none := by
    refine valueIn_eq_none fun a ha heq => ?_
    have hlt := lt_of_mem_before h a ha
    rw [Std.OrientedCmp.eq_comm] at heq
    exact absurd (hlt.symm.trans heq) (by decide)
  have hself : compare key key = .eq := Std.ReflCmp.compare_self
  rw [valueIn_append, hbefore, Option.none_or, valueIn, hself]
  rfl

/-- **Giving a key another value** replaces the value of the key that counts as the same. -/
theorem insertInto_of_compare_eq {same : κ} (heq : compare key same = .eq)
    (h : (before ++ (same, old) :: after).Pairwise fun a b => compare a.1 b.1 = .lt) :
    insertInto key value (before ++ (same, old) :: after) = before ++ (same, value) :: after := by
  induction before with
  | nil => rw [List.nil_append, insertInto, heq, List.nil_append]
  | cons b before ih =>
      obtain ⟨k, v⟩ := b
      have hgt : compare key k = .gt := by
        rw [Std.TransCmp.congr_left heq]
        exact Std.OrientedCmp.gt_of_lt (lt_of_mem_before h (k, v) List.mem_cons_self)
      rw [List.cons_append, insertInto, hgt, ih (List.pairwise_cons.mp h).2, List.cons_append]

/-- Giving a key that is there another value replaces its entry. -/
theorem insertInto_of_ascending
    (h : (before ++ (key, old) :: after).Pairwise fun a b => compare a.1 b.1 = .lt) :
    insertInto key value (before ++ (key, old) :: after) = before ++ (key, value) :: after :=
  insertInto_of_compare_eq Std.ReflCmp.compare_self h

/-- Lesser keys are looked up among the entries before a key. -/
theorem valueIn_append_of_lt (hafter : ∀ a ∈ after, compare a.1 key ≠ .lt)
    (hother : compare other key = .lt) :
    valueIn other (before ++ after) = valueIn other before := by
  have hnone : valueIn other after = none := by
    refine valueIn_eq_none fun a ha heq => hafter a ha ?_
    rw [← Std.TransCmp.congr_left heq, hother]
  rw [valueIn_append, hnone, Option.or_none]

/-- All other keys are looked up among the entries from a key on. -/
theorem valueIn_append_of_not_lt (hbefore : ∀ a ∈ before, compare a.1 key = .lt)
    (hother : compare other key ≠ .lt) :
    valueIn other (before ++ after) = valueIn other after := by
  have hnone : valueIn other before = none := by
    refine valueIn_eq_none fun a ha heq => hother ?_
    rw [Std.TransCmp.congr_left heq, hbefore a ha]
  rw [valueIn_append, hnone, Option.none_or]

end DocBlocks.Keyed
