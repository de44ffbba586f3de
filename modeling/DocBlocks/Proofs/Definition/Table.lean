import DocBlocks.Fault
import DocBlocks.Proofs.Definition.Reader
import DocBlocks.Proofs.Keyed.Lookup

/-!
# The Texts That Are Definition Tables

A definition table is written as an object of entries. This module says which texts are written
in this way, and for which table each of them stands, without a word about how they are read. A
table answers with the last entry of a symbol, and an entry with the last definition of a
signature. What is `null` stands for no lines, no members or an empty description.

Reading a text gives exactly this table. It fails on a symbol of blanks alone if the text is
written as a table otherwise, and on every other text for a reason that has a place in the text.

## Main results

* `Table.readEntries_eq_ok_iff`: the entries that are read are those that are written.
* `Table.ofFile_spec`: what becomes of any text.
-/

namespace DocBlocks

open Text Json

/-! ### How tables are written -/

/-- The definition of a member: a short description and lines. -/
def MemberDoc.Written : Form MemberDoc := fun doc t =>
  ∃ parts : Option Text × Option (List Text),
    PairForm (OrNull StringForm) (OrNull LinesForm) parts t ∧ doc = ⟨parts.1.getD [], parts.2.getD []⟩

/-- The entry of a symbol: lines for the class, and members by signature. Of several members with
the same signature, the last one counts. -/
def Entry.Written : Form Entry := fun entry t =>
  ∃ parts : Option (List Text) × Option (List (Text × MemberDoc)),
    PairForm (OrNull LinesForm) (OrNull (ObjectForm MemberDoc.Written)) parts t ∧
      entry.classLines = parts.1.getD [] ∧
      ∀ signature, entry.members.get? signature = (parts.2.getD []).reverse.lookup signature

namespace Table

/-- The entries of a table, in the order in which they are written, with blanks around them. -/
def EntriesWritten : Form (List (Text × Entry)) := fun entries s =>
  ∃ w t w', IsSpaces w ∧ ObjectForm Entry.Written entries t ∧ IsSpaces w' ∧ s = w ++ t ++ w'

/-! ### Reading entries -/

variable {bound : Nat} {s : Text}

theorem readMember_eq_ok_iff {doc : MemberDoc} {rest : Text} :
    readMember bound s = .ok (doc, rest) ↔
      ∃ parts, pair .memberDoc (nullable fun s => (text s).mapError .placed)
        (nullable (lines bound memberDepth)) s = .ok (parts, rest) ∧
        doc = ⟨parts.1.getD [], parts.2.getD []⟩ := by
  constructor
  · intro h
    obtain ⟨⟨parts, rest'⟩, hparts, h⟩ := Except.bind_eq_ok_iff.mp h
    obtain ⟨rfl, rfl⟩ := Prod.mk.inj (Except.ok.inj h)
    exact ⟨parts, hparts, rfl⟩
  · rintro ⟨parts, hparts, rfl⟩
    exact Except.bind_eq_ok_iff.mpr ⟨(parts, rest), hparts, rfl⟩

theorem reads_readMember : Reads bound (readMember bound) MemberDoc.Written := by
  have hshort : Reads bound (nullable fun s => (text s).mapError .placed) (OrNull StringForm) :=
    (reads_text.mapError Stop.placed).nullable startsIn_stringForm (by decide)
  have hlines : Reads bound (nullable (lines bound memberDepth)) (OrNull LinesForm) :=
    reads_lines.nullable startsIn_linesForm (by decide)
  have hpair := hshort.pair .memberDoc hlines startsIn_stringForm.orNull startsIn_linesForm.orNull
    (by decide) (by decide)
  exact hpair.map fun _ _ _ => readMember_eq_ok_iff

theorem readEntry_eq_ok_iff {entry : Entry} {rest : Text} :
    readEntry bound s = .ok (entry, rest) ↔
      ∃ parts, pair .entry (nullable (lines bound classDepth))
        (nullable fun s => (object (readMember bound) bound s).mapError .placed) s =
          .ok (parts, rest) ∧
        entry.classLines = parts.1.getD [] ∧
        ∀ signature, entry.members.get? signature = (parts.2.getD []).reverse.lookup signature := by
  constructor
  · intro h
    obtain ⟨⟨parts, rest'⟩, hparts, h⟩ := Except.bind_eq_ok_iff.mp h
    obtain ⟨rfl, rfl⟩ := Prod.mk.inj (Except.ok.inj h)
    exact ⟨parts, hparts, rfl, Keyed.eq_ofPairs_iff.mp rfl⟩
  · obtain ⟨classLines, members⟩ := entry
    rintro ⟨parts, hparts, rfl, hmembers⟩
    obtain rfl := Keyed.eq_ofPairs_iff.mpr hmembers
    exact Except.bind_eq_ok_iff.mpr ⟨(parts, rest), hparts, rfl⟩

theorem reads_readEntry : Reads bound (readEntry bound) Entry.Written := by
  have hlines : Reads bound (nullable (lines bound classDepth)) (OrNull LinesForm) :=
    reads_lines.nullable startsIn_linesForm (by decide)
  have hmembers : Reads bound
      (nullable fun s => (object (readMember bound) bound s).mapError .placed)
      (OrNull (ObjectForm MemberDoc.Written)) :=
    (reads_readMember.object.mapError Stop.placed).nullable startsIn_enclosed (by decide)
  have hpair := hlines.pair .entry hmembers startsIn_linesForm.orNull startsIn_enclosed.orNull
    (by decide) (by decide)
  exact hpair.map fun _ _ _ => readEntry_eq_ok_iff

/-- **The entries that are read** are those that are written. -/
theorem readEntries_eq_ok_iff {entries : List (Text × Entry)} :
    readEntries s = .ok entries ↔ EntriesWritten entries s := by
  have hobject : Reads (s.length + 1) (object (readEntry (s.length + 1)) (s.length + 1))
      (ObjectForm Entry.Written) := reads_readEntry.object
  constructor
  · intro h
    obtain ⟨⟨entries', rest⟩, hread, h⟩ := Except.bind_eq_ok_iff.mp h
    dsimp only at h
    split at h
    · next hrest =>
        obtain rfl := Except.ok.inj h
        obtain ⟨w, t, hw, ht, hs⟩ := hobject.exists_of_eq hread
        exact ⟨w, t, rest, hw, ht, skipSpace_eq_nil_iff.mp hrest, hs⟩
    · exact absurd h (by simp)
  · rintro ⟨w, t, w', hw, ht, hw', rfl⟩
    have hlength : t.length < (w ++ t ++ w').length + 1 := by
      simp only [List.length_append]
      omega
    refine Except.bind_eq_ok_iff.mpr ⟨(entries, w'), hobject.read_eq w' ht hlength hw, ?_⟩
    simp only [skipSpace_eq_nil_iff.mpr hw']
    rfl

/-! ### Reading tables -/

/-- Whether some symbol consists of blanks alone. -/
def HasBlank (entries : List (Text × Entry)) : Prop := ∃ entry ∈ entries, trim entry.1 = []

/-- The table that a text stands for. It answers with the last entry of each symbol. -/
def Written : Form Table := fun table s =>
  ∃ entries, EntriesWritten entries s ∧ ¬HasBlank entries ∧
    ∀ symbol, table.get? symbol = entries.reverse.lookup symbol

section Read

variable {entries : List (Text × Entry)}

theorem any_isEmpty_eq_true_iff :
    (entries.any fun (symbol, _) => (trim symbol).isEmpty) = true ↔ HasBlank entries := by
  simp only [List.any_eq_true, List.isEmpty_iff, HasBlank]

theorem read_of_blank (h : EntriesWritten entries s) (hblank : HasBlank entries) :
    read s = .error .blankSymbol := by
  rw [read, readEntries_eq_ok_iff.mpr h]
  exact if_pos (any_isEmpty_eq_true_iff.mpr hblank)

theorem read_of_not_blank (h : EntriesWritten entries s) (hblank : ¬HasBlank entries) :
    read s = .ok (.ofPairs entries) := by
  rw [read, readEntries_eq_ok_iff.mpr h]
  exact if_neg fun hany => hblank (any_isEmpty_eq_true_iff.mp hany)

theorem read_of_not_written (h : ∀ entries, ¬EntriesWritten entries s) :
    ∃ reason line column, read s = .error (.unreadable reason line column) := by
  cases hread : readEntries s with
  | error fault =>
      refine ⟨fault.reason, (fault.position s).1, (fault.position s).2, ?_⟩
      rw [read, hread]
  | ok entries => exact absurd (readEntries_eq_ok_iff.mp hread) (h entries)

/-- What becomes of a text. -/
theorem read_cases (s : Text) :
    (∃ entries, EntriesWritten entries s ∧ HasBlank entries ∧ read s = .error .blankSymbol) ∨
    (∃ entries, EntriesWritten entries s ∧ ¬HasBlank entries ∧
      read s = .ok (.ofPairs entries)) ∨
    ((∀ entries, ¬EntriesWritten entries s) ∧
      ∃ reason line column, read s = .error (.unreadable reason line column)) := by
  by_cases hwritten : ∃ entries, EntriesWritten entries s
  · obtain ⟨entries, h⟩ := hwritten
    by_cases hblank : HasBlank entries
    · exact .inl ⟨entries, h, hblank, read_of_blank h hblank⟩
    · exact .inr (.inl ⟨entries, h, hblank, read_of_not_blank h hblank⟩)
  · have h := not_exists.mp hwritten
    exact .inr (.inr ⟨h, read_of_not_written h⟩)

theorem read_eq_ok_iff {table : Table} : read s = .ok table ↔ Written table s := by
  constructor
  · intro hread
    rcases read_cases s with ⟨entries, -, -, heq⟩ | ⟨entries, h, hblank, heq⟩ |
      ⟨-, reason, line, column, heq⟩
    · exact absurd (hread.symm.trans heq) (by simp)
    · obtain rfl := Except.ok.inj (hread.symm.trans heq)
      exact ⟨entries, h, hblank, Keyed.eq_ofPairs_iff.mp rfl⟩
    · exact absurd (hread.symm.trans heq) (by simp)
  · rintro ⟨entries, h, hblank, hget⟩
    obtain rfl := Keyed.eq_ofPairs_iff.mpr hget
    exact read_of_not_blank h hblank

theorem read_eq_blankSymbol_iff :
    read s = .error .blankSymbol ↔ ∃ entries, EntriesWritten entries s ∧ HasBlank entries := by
  constructor
  · intro hread
    rcases read_cases s with ⟨entries, h, hblank, -⟩ | ⟨entries, -, -, heq⟩ |
      ⟨-, reason, line, column, heq⟩
    · exact ⟨entries, h, hblank⟩
    · exact absurd (hread.symm.trans heq) (by simp)
    · exact absurd (hread.symm.trans heq) (by simp)
  · rintro ⟨entries, h, hblank⟩
    exact read_of_blank h hblank

theorem read_eq_unreadable_iff :
    (∃ reason line column, read s = .error (.unreadable reason line column)) ↔
      ¬∃ entries, EntriesWritten entries s := by
  constructor
  · rintro ⟨reason, line, column, hread⟩ ⟨entries, h⟩
    by_cases hblank : HasBlank entries
    · exact absurd (hread.symm.trans (read_of_blank h hblank)) (by simp)
    · exact absurd (hread.symm.trans (read_of_not_blank h hblank)) (by simp)
  · intro h
    exact read_of_not_written (not_exists.mp h)

end Read

/-! ### Files -/

theorem ofFile_eq_error_iff {path : Path} {defect : Defect} :
    Table.ofFile path s = .error (.definitionsMalformed path defect) ↔
      read s = .error defect := by
  rw [Table.ofFile]
  cases read s with
  | error defect' => simp [Except.mapError]
  | ok table => simp [Except.mapError]

/-- **Definition tables.** A text that is written as a table without blank symbols gives that
table, and some table if it is written as one. A text that would be a table but for a blank symbol
gives the defect of that name, and every other text another one. -/
theorem ofFile_spec (path : Path) (s : Text) :
    (∀ table, Table.ofFile path s = .ok table ↔ Written table s) ∧
    ((∃ table, Table.ofFile path s = .ok table) ↔
      ∃ entries, EntriesWritten entries s ∧ ¬HasBlank entries) ∧
    (Table.ofFile path s = .error (.definitionsMalformed path .blankSymbol) ↔
      ∃ entries, EntriesWritten entries s ∧ HasBlank entries) ∧
    ((∃ reason line column, Table.ofFile path s =
        .error (.definitionsMalformed path (.unreadable reason line column))) ↔
      ¬∃ entries, EntriesWritten entries s) ∧
    Defect.blankSymbol.message = "empty symbol name" := by
  have hok : ∀ table, Table.ofFile path s = .ok table ↔ Written table s := fun table =>
    Except.mapError_eq_ok_iff.trans read_eq_ok_iff
  refine ⟨hok, ?_, ofFile_eq_error_iff.trans read_eq_blankSymbol_iff, ?_, rfl⟩
  · constructor
    · rintro ⟨table, h⟩
      obtain ⟨entries, hwritten, hblank, -⟩ := (hok table).mp h
      exact ⟨entries, hwritten, hblank⟩
    · rintro ⟨entries, hwritten, hblank⟩
      exact ⟨.ofPairs entries, (hok _).mpr
        ⟨entries, hwritten, hblank, Keyed.eq_ofPairs_iff.mp rfl⟩⟩
  · simp only [ofFile_eq_error_iff]
    exact read_eq_unreadable_iff

end Table

end DocBlocks
