/-!
# Keyed Lists

A keyed list pairs keys with values, in ascending order of the keys and with no key twice.
That the order is kept is part of the type. Giving a key a second value replaces the first
one. What counts as the same key is decided by the order alone; where it takes two keys for
the same that can be told apart, the one that came first is kept.

## Main results

* `get?_insert` — what a keyed list answers after a key was given a value.
* `ext_entries` — a keyed list is its entries.
-/

namespace DocBlocks

/-- Keys with their values, in ascending order of the keys. -/
structure Keyed (κ α : Type) [Ord κ] where
  /-- The pairs of a key and its value. -/
  entries : List (κ × α)
  /-- Every key comes before the keys behind it. -/
  ascending : entries.Pairwise fun a b => compare a.1 b.1 = .lt
  deriving DecidableEq, Repr

namespace Keyed

variable {κ α : Type} [Ord κ]

theorem ext_entries {m n : Keyed κ α} (h : m.entries = n.entries) : m = n := by
  cases m; cases n; simp_all

/-- No keys. -/
def empty : Keyed κ α := ⟨[], .nil⟩

/-! ### Looking up -/

/-- The value of a key among entries. -/
def valueIn (key : κ) : List (κ × α) → Option α
  | [] => none
  | (k, v) :: rest => if compare key k == .eq then some v else valueIn key rest

/-- The value of a key. -/
def get? (m : Keyed κ α) (key : κ) : Option α := valueIn key m.entries

/-- The keys, in ascending order. -/
def keys (m : Keyed κ α) : List κ := m.entries.map (·.1)

/-- The number of keys. -/
def size (m : Keyed κ α) : Nat := m.entries.length

/-! ### Giving values -/

/-- Gives a key a value among entries. -/
def insertInto (key : κ) (value : α) : List (κ × α) → List (κ × α)
  | [] => [(key, value)]
  | (k, v) :: rest =>
    match compare key k with
    | .lt => (key, value) :: (k, v) :: rest
    | .eq => (k, value) :: rest
    | .gt => (k, v) :: insertInto key value rest

/-- The keys of entries after a key was given a value are that key and the ones before. -/
theorem fst_of_mem_insertInto {key : κ} {value : α} {entries : List (κ × α)} {a : κ × α}
    (h : a ∈ insertInto key value entries) :
    a.1 = key ∨ ∃ b ∈ entries, b.1 = a.1 := by
  induction entries with
  | nil => simp_all [insertInto]
  | cons b rest ih =>
    obtain ⟨k, v⟩ := b
    rw [insertInto] at h
    split at h
    · rcases List.mem_cons.1 h with rfl | h
      · exact .inl rfl
      · exact .inr ⟨a, h, rfl⟩
    · rcases List.mem_cons.1 h with rfl | h
      · exact .inr ⟨(k, v), by simp, rfl⟩
      · exact .inr ⟨a, by simp [h], rfl⟩
    · rcases List.mem_cons.1 h with rfl | h
      · exact .inr ⟨(k, v), by simp, rfl⟩
      · rcases ih h with h | ⟨b, hb, hba⟩
        · exact .inl h
        · exact .inr ⟨b, by simp [hb], hba⟩

variable [Std.TransOrd κ]

theorem ascending_insertInto (key : κ) (value : α) {entries : List (κ × α)}
    (h : entries.Pairwise fun a b => compare a.1 b.1 = .lt) :
    (insertInto key value entries).Pairwise fun a b => compare a.1 b.1 = .lt := by
  induction entries with
  | nil => simp [insertInto]
  | cons b rest ih =>
    obtain ⟨k, v⟩ := b
    obtain ⟨first, others⟩ := List.pairwise_cons.1 h
    rw [insertInto]
    split
    · next hlt =>
      refine List.pairwise_cons.2 ⟨fun a ha => ?_, h⟩
      rcases List.mem_cons.1 ha with rfl | ha
      · exact hlt
      · exact Std.TransCmp.lt_trans hlt (first a ha)
    · exact List.pairwise_cons.2 ⟨first, others⟩
    · next hgt =>
      refine List.pairwise_cons.2 ⟨fun a ha => ?_, ih others⟩
      rcases fst_of_mem_insertInto ha with hkey | ⟨b, hb, hba⟩
      · rw [hkey]; exact Std.OrientedCmp.gt_iff_lt.1 hgt
      · rw [← hba]; exact first b hb

/-- Gives a key a value. -/
def insert (m : Keyed κ α) (key : κ) (value : α) : Keyed κ α :=
  ⟨insertInto key value m.entries, ascending_insertInto key value m.ascending⟩

/-- The keyed list of some pairs. Of two pairs with the same key, the later counts. -/
def ofPairs (pairs : List (κ × α)) : Keyed κ α :=
  pairs.foldl (fun done (key, value) => done.insert key value) empty

theorem valueIn_insertInto (key other : κ) (value : α) (entries : List (κ × α)) :
    valueIn other (insertInto key value entries) =
      if compare other key == .eq then some value else valueIn other entries := by
  induction entries with
  | nil => simp [insertInto, valueIn]
  | cons b rest ih =>
    obtain ⟨k, v⟩ := b
    rw [insertInto]
    split
    · rfl
    · next heq =>
      have same : compare other k = compare other key :=
        (Std.TransCmp.congr_right heq).symm
      simp only [valueIn, same]
      split <;> rfl
    · next hgt =>
      simp only [valueIn, ih]
      by_cases hk : compare other k = .eq
      · have : compare other key ≠ .eq := by
          rw [Std.TransCmp.congr_left hk, Std.OrientedCmp.gt_iff_lt.1 hgt]
          decide
        simp [hk, this]
      · simp [hk]

/-- After a key was given a value, it has that value, and all others have theirs. -/
theorem get?_insert (m : Keyed κ α) (key other : κ) (value : α) :
    (m.insert key value).get? other =
      if compare other key == .eq then some value else m.get? other :=
  valueIn_insertInto key other value m.entries

end Keyed

end DocBlocks
