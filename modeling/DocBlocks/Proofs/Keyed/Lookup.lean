import DocBlocks.Proofs.Keyed.Entries
import Mathlib.Data.List.Sort

/-!
# Keyed Lists by Their Lookups

Where no two different keys count as the same, a keyed list is determined by what it answers. Its
entries are the keys with these answers, and there is only one order in which they can stand. So
a keyed list that is made of pairs can be described without saying how it is made: it answers
with the last pair of a key.

## Main results

* `eq_of_ascending`: elements stand in only one ascending order.
* `keys_insert_of_isSome`, `exists_filter_keys_eq`: keys that count as the same.
* `mem_entries_iff`, `ext_get?`: a keyed list is what it answers.
* `eq_ofPairs_iff`: the keyed list of some pairs, by what it answers.
-/

namespace DocBlocks.Keyed

variable {κ α : Type} {key : κ} {value : α}
  {entries pairs : List (κ × α)}

/-- **The order of ascending elements** is determined by which elements there are. -/
theorem eq_of_ascending {β : Type} [Ord κ] [Std.TransOrd κ] (key : β → κ) {s t : List β}
    (hs : s.Pairwise fun a b => compare (key a) (key b) = .lt)
    (ht : t.Pairwise fun a b => compare (key a) (key b) = .lt) (h : ∀ a, a ∈ s ↔ a ∈ t) :
    s = t := by
  have : Std.Irrefl fun a b => compare (key a) (key b) = .lt :=
    ⟨fun a h => absurd (h.symm.trans Std.ReflCmp.compare_self) (by decide)⟩
  have : Std.Antisymm fun a b => compare (key a) (key b) = .lt :=
    ⟨fun a b hab hba => absurd (hba.symm.trans (Std.OrientedCmp.gt_of_lt hab)) (by decide)⟩
  exact hs.eq_of_mem_iff ht h

variable [Ord κ]

/-- A key has a value if it counts as one of those that are there. -/
theorem isSome_valueIn_iff :
    (valueIn key entries).isSome ↔ ∃ a ∈ entries, compare key a.1 = .eq := by
  induction entries with
  | nil => simp [valueIn]
  | cons b entries ih =>
      obtain ⟨k, v⟩ := b
      rw [valueIn]
      split
      · next heq => simp_all
      · next hne => simp_all

section Keys

variable [Std.TransOrd κ] {m : Keyed κ α}

/-- Keys that count as the same have the same value. -/
theorem get?_congr {other : κ} (h : compare key other = .eq) : m.get? key = m.get? other := by
  rw [get?, get?]
  induction m.entries with
  | nil => rfl
  | cons b entries ih => rw [valueIn, valueIn, ih, Std.TransCmp.congr_left h]

/-- No key is added for one that counts as the same. -/
theorem keys_insert_of_isSome (h : (m.get? key).isSome) (value : α) :
    (m.insert key value).keys = m.keys := by
  obtain ⟨⟨same, old⟩, hmem, heq⟩ := isSome_valueIn_iff.mp h
  obtain ⟨before, after, hsplit⟩ := List.append_of_mem hmem
  have hascending := m.ascending
  rw [hsplit] at hascending
  have hentries : (m.insert key value).entries = before ++ (same, value) :: after := by
    rw [← insertInto_of_compare_eq heq hascending, ← hsplit]
    rfl
  rw [keys, keys, hentries, hsplit, List.map_append, List.map_append, List.map_cons, List.map_cons]

/-- **One key counts as the same** as a key that has a value. -/
theorem exists_filter_keys_eq (h : (m.get? key).isSome) :
    ∃ same, m.keys.filter (compare key · == .eq) = [same] := by
  obtain ⟨⟨same, old⟩, hmem, heq⟩ := isSome_valueIn_iff.mp h
  obtain ⟨before, after, hsplit⟩ := List.append_of_mem hmem
  have hascending := m.ascending
  rw [hsplit] at hascending
  have hbefore : ∀ a ∈ before, compare key a.1 ≠ .eq := by
    intro a ha
    rw [Std.TransCmp.congr_left heq, Std.OrientedCmp.gt_of_lt (lt_of_mem_before hascending a ha)]
    decide
  have hafter : ∀ a ∈ after, compare key a.1 ≠ .eq := by
    intro a ha
    have hlt : compare same a.1 = .lt :=
      (List.pairwise_cons.mp (List.pairwise_append.mp hascending).2.1).1 a ha
    rw [Std.TransCmp.congr_left heq, hlt]
    decide
  refine ⟨same, ?_⟩
  rw [keys, hsplit, List.map_append, List.filter_append, List.map_cons,
    List.filter_cons_of_pos (by simpa using heq), List.filter_eq_nil_iff.mpr,
    List.filter_eq_nil_iff.mpr, List.nil_append]
  · simpa using hafter
  · simpa using hbefore

end Keys

variable [Std.LawfulEqOrd κ]

theorem mem_of_valueIn (h : valueIn key entries = some value) : (key, value) ∈ entries := by
  induction entries with
  | nil => exact absurd h (by simp [valueIn])
  | cons b entries ih =>
      obtain ⟨k, v⟩ := b
      rw [valueIn] at h
      split at h
      · next heq =>
          obtain rfl : key = k := Std.LawfulEqOrd.eq_of_compare (by simpa using heq)
          rw [Option.some.inj h]
          exact List.mem_cons_self
      · exact List.mem_cons_of_mem _ (ih h)

theorem compare_beq_eq [BEq κ] [LawfulBEq κ] (key other : κ) :
    (compare key other == .eq) = (key == other) := by
  rw [Bool.eq_iff_iff, beq_iff_eq, beq_iff_eq, Std.LawfulEqOrd.compare_eq_iff_eq]

variable [Std.TransOrd κ] {m n : Keyed κ α}

/-- The entries of a keyed list are its keys with its answers. -/
theorem mem_entries_iff : (key, value) ∈ m.entries ↔ m.get? key = some value := by
  refine ⟨fun h => ?_, mem_of_valueIn⟩
  have hascending := m.ascending
  obtain ⟨before, after, hsplit⟩ := List.append_of_mem h
  rw [hsplit] at hascending
  rw [get?, hsplit]
  exact valueIn_of_ascending hascending

/-- **Equal answers**: they make keyed lists equal. -/
theorem ext_get? (h : ∀ key, m.get? key = n.get? key) : m = n := by
  refine ext_entries (eq_of_ascending Prod.fst m.ascending n.ascending ?_)
  rintro ⟨key, value⟩
  rw [mem_entries_iff, mem_entries_iff, h]

variable [BEq κ] [LawfulBEq κ]

/-- Pairs that are given one after the other count from the last one on. -/
theorem get?_foldl_insert (pairs : List (κ × α)) (m : Keyed κ α) (key : κ) :
    (pairs.foldl (fun done (key, value) => done.insert key value) m).get? key =
      (pairs.reverse.lookup key).or (m.get? key) := by
  induction pairs generalizing m with
  | nil => simp
  | cons pair pairs ih =>
      obtain ⟨k, v⟩ := pair
      rw [List.foldl_cons, ih, get?_insert, compare_beq_eq, List.reverse_cons, List.lookup_append,
        List.lookup_cons, Option.or_assoc]
      cases key == k with
      | true => simp
      | false => simp

/-- **The keyed list of some pairs** answers with the last pair of a key. -/
theorem eq_ofPairs_iff :
    m = ofPairs pairs ↔ ∀ key, m.get? key = pairs.reverse.lookup key := by
  have hget : ∀ key, (ofPairs pairs).get? key = pairs.reverse.lookup key := by
    intro key
    rw [ofPairs, get?_foldl_insert]
    exact Option.or_none
  constructor
  · rintro rfl
    exact hget
  · intro h
    exact ext_get? fun key => (h key).trans (hget key).symm

end DocBlocks.Keyed
