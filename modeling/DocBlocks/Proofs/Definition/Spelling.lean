import DocBlocks.Proofs.Definition.Table
import DocBlocks.Proofs.Text.Lines
import DocBlocks.Run.Inject

/-!
# Lines in Two Spellings

The lines of a replacement are a list of strings, or one string in which each of them is followed
by a line end. Both line ends will do, also side by side, and behind a last line that is not empty
none is needed. Lines that hold a line feed, or that end in a carriage return, have no such
spelling, as their ends would not be where they seem to be.

A definition table in which some lines are spelled the other way stands for the same entries. So
it is the same table, or at fault in the same way, and what comes of putting it into a file is the
same as well.

## Main results

* `WrittenOut.wholeLines_eq`: a text is cut into the lines of which it was made.
* `Table.EntriesSpelledWith.imp`: entries stay what they are if their lines are given in another
  form.
* `Table.spellings_agree`: two spellings of the same entries cannot be told apart.
-/

namespace DocBlocks

open Text Json

/-! ### Lines as one text -/

/-- Whether a line keeps its end, whichever line end follows it. -/
def IsPlainLine (line : Text) : Prop := '\n' ∉ line ∧ line.getLast? ≠ some '\r'

instance (line : Text) : Decidable (IsPlainLine line) := inferInstanceAs (Decidable (_ ∧ _))

/-- The texts that are made of lines. Each line is followed by a line end of either kind; the last
one may lack it, if it is not empty. -/
inductive WrittenOut : List Text → Text → Prop
  | nil : WrittenOut [] []
  | last {line : Text} (hline : IsPlainLine line) (hne : line ≠ []) : WrittenOut [line] line
  | cons {line ending s : Text} {ls : List Text} (hline : IsPlainLine line)
      (hending : ending = ['\n'] ∨ ending = ['\r', '\n']) (hrest : WrittenOut ls s) :
      WrittenOut (line :: ls) (line ++ ending ++ s)

theorem wholeLines_of_not_mem {line : Text} (h : '\n' ∉ line) (hne : line ≠ []) :
    wholeLines line = [line] := by
  obtain ⟨c, rest, rfl⟩ := List.exists_cons_of_ne_nil hne
  rw [wholeLines, splitLines_of_not_mem h]
  rfl

/-- The first line of a text ends with its first line feed, or with the carriage return before
it. -/
theorem wholeLines_append_cons {line : Text} (h : '\n' ∉ line) (s : Text) :
    wholeLines (line ++ '\n' :: s) =
      (if line.getLast? = some '\r' then line.dropLast else line) :: wholeLines s := by
  obtain ⟨first, rest, hs⟩ := List.exists_cons_of_ne_nil (splitLines_ne_nil s)
  rw [wholeLines, wholeLines, splitLines_append_cons h, hs, List.dropLast_cons_cons,
    List.getLast?_cons_cons, List.map_cons]
  split <;> rfl

/-- A plain line is found in front of either line end, and the lines behind it as if they stood
alone. -/
theorem wholeLines_ending {line ending : Text} (hline : IsPlainLine line)
    (hending : ending = ['\n'] ∨ ending = ['\r', '\n']) (s : Text) :
    wholeLines (line ++ ending ++ s) = line :: wholeLines s := by
  rcases hending with rfl | rfl
  · rw [List.append_assoc, List.singleton_append, wholeLines_append_cons hline.1,
      if_neg hline.2]
  · have hreturn : '\n' ∉ line ++ ['\r'] := by
      rw [List.mem_append, not_or]
      exact ⟨hline.1, by decide⟩
    have hsplit : line ++ ['\r', '\n'] ++ s = line ++ ['\r'] ++ '\n' :: s := by simp
    rw [hsplit, wholeLines_append_cons hreturn, List.getLast?_concat, if_pos rfl,
      List.dropLast_concat]

/-- **A text is cut into the lines of which it was made.** -/
theorem WrittenOut.wholeLines_eq {ls : List Text} {s : Text} (h : WrittenOut ls s) :
    wholeLines s = ls := by
  induction h with
  | nil => rfl
  | last hline hne => exact wholeLines_of_not_mem hline.1 hne
  | cons hline hending _ ih => rw [wholeLines_ending hline hending, ih]

/-- Lines as a list, or as one text. -/
def LinesSpelling : Form (List Text) := fun ls t =>
  ListForm StringForm ls t ∨ ∃ s, WrittenOut ls s ∧ StringForm s t

/-- **Lines in either spelling** are lines as they are read. -/
theorem LinesSpelling.linesForm (ls : List Text) (t : Text) (h : LinesSpelling ls t) :
    LinesForm ls t := by
  rcases h with hlist | ⟨s, hout, hstring⟩
  · exact .inr hlist
  · exact .inl ⟨s, hstring, hout.wholeLines_eq.symm⟩

/-! ### The lines of a table -/

section Tables

variable {form form' : Form (List Text)} {entries : List (Text × Entry)} {s s' : Text}

/-- The definition of a member, with its lines in a given form. -/
def MemberDoc.SpelledWith (form : Form (List Text)) : Form MemberDoc := fun doc t =>
  ∃ parts : Option Text × Option (List Text),
    PairForm (OrNull StringForm) (OrNull form) parts t ∧ doc = ⟨parts.1.getD [], parts.2.getD []⟩

/-- The entry of a symbol, with all lines in a given form. -/
def Entry.SpelledWith (form : Form (List Text)) : Form Entry := fun entry t =>
  ∃ parts : Option (List Text) × Option (List (Text × MemberDoc)),
    PairForm (OrNull form) (OrNull (ObjectForm (MemberDoc.SpelledWith form))) parts t ∧
      entry.classLines = parts.1.getD [] ∧
      ∀ signature, entry.members.get? signature = (parts.2.getD []).reverse.lookup signature

/-- The entries of a table, with all lines in a given form. -/
def Table.EntriesSpelledWith (form : Form (List Text)) : Form (List (Text × Entry)) :=
  fun entries s => ∃ w t w', IsSpaces w ∧ ObjectForm (Entry.SpelledWith form) entries t ∧
    IsSpaces w' ∧ s = w ++ t ++ w'

theorem MemberDoc.SpelledWith.imp (h : ∀ ls t, form ls t → form' ls t) (doc : MemberDoc) (t : Text)
    (hdoc : MemberDoc.SpelledWith form doc t) : MemberDoc.SpelledWith form' doc t := by
  obtain ⟨parts, hparts, heq⟩ := hdoc
  exact ⟨parts, hparts.imp (fun _ _ ht => ht) fun _ _ => OrNull.imp h, heq⟩

theorem Entry.SpelledWith.imp (h : ∀ ls t, form ls t → form' ls t) (entry : Entry) (t : Text)
    (hentry : Entry.SpelledWith form entry t) : Entry.SpelledWith form' entry t := by
  obtain ⟨parts, hparts, hclass, hmembers⟩ := hentry
  have hmember : ∀ ms t, ObjectForm (MemberDoc.SpelledWith form) ms t →
      ObjectForm (MemberDoc.SpelledWith form') ms t := fun _ _ =>
    Enclosed.imp fun _ _ => MemberForm.imp (MemberDoc.SpelledWith.imp h)
  exact ⟨parts, hparts.imp (fun _ _ => OrNull.imp h) fun _ _ => OrNull.imp hmember, hclass,
    hmembers⟩

/-- **The lines of a table can be given in another form** without a change to its entries. -/
theorem Table.EntriesSpelledWith.imp (h : ∀ ls t, form ls t → form' ls t)
    (hs : EntriesSpelledWith form entries s) : EntriesSpelledWith form' entries s := by
  obtain ⟨w, t, w', hw, ht, hw', hs⟩ := hs
  exact ⟨w, t, w', hw, ht.imp fun _ _ => MemberForm.imp (Entry.SpelledWith.imp h), hw', hs⟩

/-- Entries as they are read have their lines in the form in which these are read. -/
theorem Table.entriesWritten_iff :
    EntriesWritten entries s ↔ EntriesSpelledWith LinesForm entries s := Iff.rfl

/-- **The two spellings of lines agree.** Both are read as the same lines, and two texts that spell
the same entries, each in its own way, are the same table or have the same defect. What comes of
putting such a table into a file is the same as well. -/
theorem Table.spellings_agree {ls : List Text} {u : Text} (hlines : WrittenOut ls u)
    (hs : EntriesSpelledWith LinesSpelling entries s)
    (hs' : EntriesSpelledWith LinesSpelling entries s') :
    wholeLines u = ls ∧
    (∀ bound depth t t' rest, StringForm u t → ListForm StringForm ls t' →
      t.length < bound → t'.length < bound →
      Json.lines bound (depth + 1) (t ++ rest) = .ok (ls, rest) ∧
      Json.lines bound (depth + 1) (t' ++ rest) = .ok (ls, rest)) ∧
    (∀ path, Table.ofFile path s = Table.ofFile path s') ∧
    (¬HasBlank entries → ∀ path, Table.ofFile path s = .ok (.ofPairs entries)) ∧
    ∀ path find file content,
      (Table.ofFile path s).map (·.injectFile find file content) =
        (Table.ofFile path s').map (·.injectFile find file content) := by
  have hwritten : EntriesWritten entries s :=
    entriesWritten_iff.mpr (hs.imp LinesSpelling.linesForm)
  have hwritten' : EntriesWritten entries s' :=
    entriesWritten_iff.mpr (hs'.imp LinesSpelling.linesForm)
  have hread : Table.read s = Table.read s' := by
    by_cases hblank : HasBlank entries
    · rw [read_of_blank hwritten hblank, read_of_blank hwritten' hblank]
    · rw [read_of_not_blank hwritten hblank, read_of_not_blank hwritten' hblank]
  have hfile : ∀ path, Table.ofFile path s = Table.ofFile path s' := fun path => by
    rw [Table.ofFile, Table.ofFile, hread]
  refine ⟨hlines.wholeLines_eq, ?_, hfile, fun hblank path => ?_, fun path find file content => ?_⟩
  · intro bound depth t t' rest ht ht' hlt hlt'
    have hreads : Reads bound (Json.lines bound (depth + 1)) LinesForm := reads_lines
    exact ⟨hreads.read_eq rest (.inl ⟨u, ht, hlines.wholeLines_eq.symm⟩) hlt IsSpaces.nil,
      hreads.read_eq rest (.inr ht') hlt' IsSpaces.nil⟩
  · rw [Table.ofFile, read_of_not_blank hwritten hblank]
    rfl
  · rw [hfile path]

/-! ### An example -/

theorem stringForm_of_string {t u : Text} (h : string t = .ok (u, [])) :
    StringForm u ('"' :: t) := by
  obtain ⟨ts, hts, rfl⟩ := string_eq_ok_iff.mp h
  exact ⟨ts, hts, by simp⟩

/-- A table with one class, whose lines are spelled by a given text. -/
def classTable (t : Text) : Text :=
  '{' :: ("\"Foo\":[".toList ++ t ++ ",null]".toList) ++ ['}']

theorem spelledWith_classTable {ls : List Text} {t : Text} (h : form ls t) :
    Table.EntriesSpelledWith form [("Foo".toList, ⟨ls, .empty⟩)] (classTable t) := by
  have hentry : Entry.SpelledWith form ⟨ls, .empty⟩ ('[' :: t ++ ",null]".toList) :=
    ⟨(some ls, none), ⟨[], t, [], [], "null".toList, [], .nil, h, .nil, .nil, rfl, .nil, by simp⟩,
      rfl, fun _ => rfl⟩
  have hkey : StringForm "Foo".toList "\"Foo\"".toList := stringForm_of_string (by decide)
  have hmember : MemberForm (Entry.SpelledWith form) ("Foo".toList, ⟨ls, .empty⟩)
      ("\"Foo\":[".toList ++ t ++ ",null]".toList) :=
    ⟨_, [], [], _, hkey, .nil, .nil, hentry, by simp⟩
  have htable : ObjectForm (Entry.SpelledWith form) [("Foo".toList, ⟨ls, .empty⟩)]
      ('{' :: [] ++ ("\"Foo\":[".toList ++ t ++ ",null]".toList) ++ [] ++ ['}']) :=
    .cons .nil hmember (.nil .nil)
  rw [List.append_nil] at htable
  exact ⟨[], classTable t, [], .nil, htable, .nil, by rw [List.nil_append, List.append_nil]⟩

/-- The lines of a doc block, the middle one of which is empty. -/
def docLines : List Text := ["/**".toList, [], " */".toList]

/-- The same lines as one text, with both kinds of line ends. -/
def docText : Text := "/**\r\n\n */".toList

theorem writtenOut_docText : WrittenOut docLines docText := by
  have hlast : WrittenOut [" */".toList] " */".toList := .last (by decide) (by decide)
  have hblank : WrittenOut [[], " */".toList] ([] ++ ['\n'] ++ " */".toList) :=
    .cons (by decide) (.inl rfl) hlast
  exact .cons (by decide) (.inr rfl) hblank

/-- The same lines as JSON lists them. -/
def listedLines : Text := "[\"/**\",\"\",\" */\"]".toList

/-- The same text as a JSON string. -/
def quotedText : Text := "\"/**\\r\\n\\n */\"".toList

theorem listForm_listedLines : ListForm StringForm docLines listedLines := by
  have hfirst : StringForm "/**".toList "\"/**\"".toList := stringForm_of_string (by decide)
  have hblank : StringForm [] "\"\"".toList := stringForm_of_string (by decide)
  have hlast : StringForm " */".toList "\" */\"".toList := stringForm_of_string (by decide)
  exact .cons .nil hfirst (.cons .nil .nil hblank (.cons .nil .nil hlast (.nil .nil)))

theorem Table.spellings_agree_docText :
    wholeLines docText = docLines ∧
    Json.lines 20 1 (listedLines ++ ",null]".toList) = .ok (docLines, ",null]".toList) ∧
    Json.lines 20 1 (quotedText ++ ",null]".toList) = .ok (docLines, ",null]".toList) ∧
    Table.ofFile ⟨[]⟩ (classTable listedLines) =
      .ok (.ofPairs [("Foo".toList, ⟨docLines, .empty⟩)]) ∧
    Table.ofFile ⟨[]⟩ (classTable quotedText) =
      .ok (.ofPairs [("Foo".toList, ⟨docLines, .empty⟩)]) := by
  have hquoted : StringForm docText quotedText := stringForm_of_string (by decide)
  have hlist : LinesSpelling docLines listedLines := .inl listForm_listedLines
  have htext : LinesSpelling docLines quotedText := .inr ⟨docText, writtenOut_docText, hquoted⟩
  obtain ⟨hwhole, hread, hsame, hok, -⟩ := Table.spellings_agree writtenOut_docText
    (spelledWith_classTable hlist) (spelledWith_classTable htext)
  obtain ⟨hreadText, hreadList⟩ := hread 20 0 quotedText listedLines ",null]".toList hquoted
    listForm_listedLines (by decide) (by decide)
  have hblank : ¬Table.HasBlank [("Foo".toList, ⟨docLines, .empty⟩)] := by
    rintro ⟨entry, hentry, htrim⟩
    rw [List.mem_singleton.mp hentry] at htrim
    exact absurd htrim (by decide)
  exact ⟨hwhole, hreadList, hreadText, hok hblank ⟨[]⟩, (hsame ⟨[]⟩).symm.trans (hok hblank ⟨[]⟩)⟩

end Tables

end DocBlocks
