import DocBlocks.Proofs.Injection.CarriageReturn
import DocBlocks.Proofs.Run.Apart
import DocBlocks.Proofs.Text.Utf8
import DocBlocks.Proofs.Tree.TooLong

/-!
# Runs after Runs

What one run writes, a later one may refuse to read. A run gives a file either no new text or the
one that its entry makes of the old text, because it visits no file twice: the files of a directory
lie apart, and a tree in memory has every path once. A later run finds fault with the line endings
of a file only for the text that the file has when that run starts. So if it does so after the file
was rewritten, a line of a doc block that returns was put into the file.

## Main results

* `DirectoryTree.exists_hasCrlf_of_blames`, `MemoryTree.exists_hasCrlf_of_blames`: the files whose
  line endings a run finds fault with.
* `DirectoryTree.read_runInject`, `MemoryTree.read_runInject`: the text that a run gives to a file.
* `Table.refused_iff_returns`: when an injection makes a text that is refused, and which of the
  files that a run has rewritten the runs after it refuse.
* `not_forall_hasCrlf_eq_false`: a table may be such that it does so.
-/

namespace DocBlocks

open Text

/-! ### The faults that a run returns -/

/-- Whether a run finds fault with the line endings of a file. -/
def Blames (result : Except Fault Report) (path : Path) : Prop :=
  result = .error (.file (.crlf path)) ∨
    ∃ failures, result = .error (.files failures) ∧ ∃ other, (other, .crlf path) ∈ failures

section Blames

variable {path : Path} {fault : FileFault} {failures : List (Path × FileFault)} {report : Report}

@[simp] theorem not_blames_ok : ¬Blames (.ok report) path := by
  simp [Blames]

@[simp] theorem blames_file_iff : Blames (.error (.file fault)) path ↔ fault = .crlf path := by
  simp [Blames]

@[simp] theorem blames_files_iff :
    Blames (.error (.files failures)) path ↔ ∃ other, (other, .crlf path) ∈ failures := by
  simp [Blames]

end Blames

section Still

variable {result : Path → Except FileFault Report} {files : List (Except FileFault Path)}
  {keepGoing : Bool}

/-- Visits to nothing stop at a fault in the listing or at one that comes of a file. -/
theorem exists_of_visitAll_still {fault : FileFault}
    (h : (visitAll keepGoing (still result) () files).result = .error fault) :
    .error fault ∈ files ∨ ∃ path, result path = .error fault := by
  induction files with
  | nil => exact absurd h (by simp [visitAll])
  | cons file rest ih =>
      have hlater : ∀ {f : Tally → Tally},
          (visitAll keepGoing (still result) () rest).result.map f = .error fault →
            .error fault ∈ file :: rest ∨ ∃ path, result path = .error fault := by
        intro f hmap
        cases hrest : (visitAll keepGoing (still result) () rest).result with
        | ok tally =>
            rw [hrest] at hmap
            exact absurd hmap (by simp [Except.map])
        | error other =>
            rw [hrest] at hmap
            obtain rfl : other = fault := Except.error.inj hmap
            exact (ih hrest).imp_left (List.mem_cons_of_mem file)
      cases file with
      | error other =>
          obtain rfl : other = fault := Except.error.inj h
          exact .inl List.mem_cons_self
      | ok path =>
          cases hvisit : result path with
          | ok report =>
              have hstill : (still result () path).result = .ok report := hvisit
              rw [visitAll_cons_of_ok keepGoing hstill] at h
              exact hlater h
          | error other =>
              have hstill : (still result () path).result = .error other := hvisit
              cases keepGoing with
              | true =>
                  rw [visitAll_true_cons_of_error hstill] at h
                  exact hlater h
              | false =>
                  rw [visitAll_false_cons_of_error hstill] at h
                  obtain rfl : other = fault := Except.error.inj h
                  exact .inr ⟨path, hvisit⟩

/-- What visits to nothing pass over are faults that come of files. -/
theorem eq_error_of_mem_failures {tally : Tally}
    (h : (visitAll keepGoing (still result) () files).result = .ok tally) {path : Path}
    {fault : FileFault} (hfailure : (path, fault) ∈ tally.failures) :
    result path = .error fault := by
  induction files generalizing tally with
  | nil =>
      obtain rfl := Except.ok.inj h
      exact absurd hfailure List.not_mem_nil
  | cons file rest ih =>
      cases file with
      | error other => exact absurd h (by simp [visitAll])
      | ok other =>
          cases hvisit : result other with
          | ok report =>
              have hstill : (still result () other).result = .ok report := hvisit
              rw [visitAll_cons_of_ok keepGoing hstill] at h
              obtain ⟨later, hlater, rfl⟩ := exists_of_map_eq_ok h
              exact ih hlater hfailure
          | error fault' =>
              have hstill : (still result () other).result = .error fault' := hvisit
              cases keepGoing with
              | true =>
                  rw [visitAll_true_cons_of_error hstill] at h
                  obtain ⟨later, hlater, rfl⟩ := exists_of_map_eq_ok h
                  rcases List.mem_cons.mp hfailure with heq | hfailure
                  · obtain ⟨rfl, rfl⟩ := Prod.mk.inj heq
                    exact hvisit
                  · exact ih hlater hfailure
              | false =>
                  rw [visitAll_false_cons_of_error hstill] at h
                  exact absurd h (by simp)

end Still

section Runs

variable {tree : DirectoryTree} {config : InjectConfig} {table : Table} {path : Path}

theorem Table.exists_of_visited_eq_crlf {other : Path} {read : Except IoCause Text}
    (h : table.visited other read = .error (.crlf path)) :
    other = path ∧ ∃ s, read = .ok s ∧ hasCrlf s = true := by
  cases read with
  | error cause => exact absurd h (by simp [Table.visited])
  | ok s =>
      rw [Table.visited] at h
      split at h
      · exact absurd h (by simp)
      · split at h
        · next hcrlf =>
            obtain rfl := FileFault.crlf.inj (Except.error.inj h)
            exact ⟨rfl, s, rfl, hcrlf⟩
        · exact absurd h (by simp)

/-- **The files of a directory whose line endings a run finds fault with** have a line that ends in
`\r\n` before the run. -/
theorem DirectoryTree.exists_hasCrlf_of_blames (hordered : tree.top.all.Ordered)
    (hproper : tree.top.all.Proper) (h : Blames (runInject config table tree).result path) :
    ∃ s, SourceTree.read tree path = .ok s ∧ hasCrlf s = true := by
  -- It is enough that the fault comes of the file of some path.
  suffices hvisited : ∃ other,
      table.visited other (SourceTree.read tree other) = .error (.crlf path) by
    obtain ⟨other, hother⟩ := hvisited
    obtain ⟨rfl, hread⟩ := Table.exists_of_visited_eq_crlf hother
    exact hread
  rw [runInject, visitTree] at h
  cases hfiles : SourceTree.files tree config.selection with
  | error fault =>
      obtain ⟨pattern, reason, rfl⟩ := DirectoryTree.eq_walk_of_files_eq_error hfiles
      rw [hfiles] at h
      exact absurd h (by simp [Blames])
  | ok files =>
      have hapart := tree.pairwise_places hordered hproper hfiles
      rw [hfiles] at h
      dsimp only at h
      rw [config.result_visitAll table hordered hapart] at h
      cases hall : (visitAll config.keepGoing (still fun other =>
          table.visited other (SourceTree.read tree other)) () files).result with
      | error fault =>
          rw [hall] at h
          obtain rfl := blames_file_iff.mp h
          rcases exists_of_visitAll_still hall with hmem | hvisited
          · obtain ⟨other, hio⟩ := DirectoryTree.eq_io_of_mem_files hfiles hmem
            exact absurd hio (by simp)
          · exact hvisited
      | ok tally =>
          rw [hall] at h
          dsimp only at h
          rw [Tally.result] at h
          split at h
          · exact absurd h not_blames_ok
          · obtain ⟨other, hfailure⟩ := blames_files_iff.mp h
            exact ⟨other, eq_error_of_mem_failures hall hfailure⟩

/-! ### The texts that a run writes -/

/-- A run leaves what the visit to the first file leaves, or what is left by the visits that go on
from there. -/
theorem tree_visitAll_cons_cases {σ : Type} {visit : σ → Path → Outcome σ FileFault Report}
    {now : σ} {rest : List (Except FileFault Path)} (keepGoing : Bool) (path : Path) :
    (visitAll keepGoing visit now (.ok path :: rest)).tree = (visit now path).tree ∨
      (visitAll keepGoing visit now (.ok path :: rest)).tree =
        (visitAll keepGoing visit (visit now path).tree rest).tree := by
  cases hresult : (visit now path).result with
  | ok report =>
      rw [visitAll_cons_of_ok keepGoing hresult]
      exact .inr rfl
  | error fault =>
      cases keepGoing with
      | true => exact .inr tree_visitAll_true_cons
      | false =>
          rw [visitAll_false_cons_of_error hresult]
          exact .inl rfl

/-- Whether a path leads to a file with the bytes `old`, and `new` is the text that its entry makes
of them. -/
structure Rewrites (table : Table) (top : Site) (path : Path) (place : List Bytes)
    (old new : Bytes) : Prop where
  place?_eq : top.place? path = .ok place
  exists_injected : ∃ s done, decode? old = some s ∧
    table.injectFile locate path s = .ok (some done) ∧ new = utf8 done.content

/-- **What one visit gives to a file**: nothing, or the text that its entry makes of the one
before. -/
theorem InjectConfig.file?_visit (config : InjectConfig) (table : Table)
    (hordered : tree.top.all.Ordered) (path : Path) {place : List Bytes} {old : Bytes}
    (hfile : tree.top.all.file? place = some old) :
    ∃ new, (config.visit table tree path).tree.top.all.file? place = some new ∧
      (new = old ∨ Rewrites table tree.top path place old new) := by
  rcases config.tree_visit_cases table hordered path with
    hidle | ⟨place', old', s, done, hleads, hdecode, hinject, htwins⟩
  · exact ⟨old, by rw [hidle, hfile], .inl rfl⟩
  · by_cases hsame : place = place'
    · subst hsame
      obtain rfl : old = old' := Option.some.inj (hfile.symm.trans htwins.file?_left)
      exact ⟨_, htwins.file?_right, .inr ⟨hleads, s, done, hdecode, hinject, rfl⟩⟩
    · exact ⟨old, (htwins.file?_eq place hsame).symm.trans hfile, .inl rfl⟩

/-- **What visits give to a file**: nothing, or the text that its entry makes of the one before. -/
theorem InjectConfig.file?_visitAll (config : InjectConfig) (table : Table)
    {files : List (Except FileFault Path)} (hordered : tree.top.all.Ordered)
    (hapart : (files.filterMap Except.toOption).Pairwise fun p q =>
      ∀ place, tree.top.place? p = .ok place → tree.top.place? q ≠ .ok place) (keepGoing : Bool)
    {place : List Bytes} {old : Bytes} (hfile : tree.top.all.file? place = some old) :
    ∃ new,
      (visitAll keepGoing (config.visit table) tree files).tree.top.all.file? place = some new ∧
      (new = old ∨ ∃ path ∈ files.filterMap Except.toOption,
        Rewrites table tree.top path place old new) := by
  induction files generalizing tree old with
  | nil => exact ⟨old, hfile, .inl rfl⟩
  | cons file rest ih =>
      cases file with
      | error fault => exact ⟨old, hfile, .inl rfl⟩
      | ok path =>
          obtain ⟨hpath, hrest⟩ := List.pairwise_cons.mp hapart
          obtain ⟨now, hnow, hhere⟩ := config.file?_visit table hordered path hfile
          have hblank := config.blank_visit table hordered path
          have hplace : ∀ other, (config.visit table tree path).tree.top.place? other =
              tree.top.place? other := Site.place?_congr hblank
          rcases tree_visitAll_cons_cases keepGoing path with heq | heq
          · exact ⟨now, heq ▸ hnow, hhere.imp_right fun h => ⟨path, List.mem_cons_self, h⟩⟩
          · obtain ⟨new, hnew, hlater⟩ :=
              ih (hordered.of_blank_eq (congrArg Site.all hblank.symm))
                (by simpa only [hplace] using hrest) hnow
            refine ⟨new, heq ▸ hnew, ?_⟩
            rcases hlater with rfl | ⟨other, hother, hagain, hinjected⟩
            · exact hhere.imp_right fun h => ⟨path, List.mem_cons_self, h⟩
            · rw [hplace] at hagain
              rcases hhere with rfl | hhere
              · exact .inr ⟨other, List.mem_cons_of_mem path hother, hagain, hinjected⟩
              · exact absurd hagain (hpath other hother place hhere.place?_eq)

theorem Table.injectFile_eq_ok_some_iff {s : Text} {done : Injected} :
    table.injectFile locate path s = .ok (some done) ↔
      table.injected? path s = some done ∧ hasCrlf s = false := by
  rw [Table.injectFile_locate]
  cases table.injected? path s with
  | none => simp
  | some other => cases hasCrlf s <;> simp

/-- **The text that a run gives to a file** is the one that its entry makes of the text before. -/
theorem DirectoryTree.read_runInject (hordered : tree.top.all.Ordered)
    (hproper : tree.top.all.Proper) {s s' : Text} (hread : SourceTree.read tree path = .ok s)
    (hread' : SourceTree.read (runInject config table tree).tree path = .ok s') (hne : s' ≠ s) :
    ∃ done, table.injectFile locate path s = .ok (some done) ∧ done.content = s' := by
  obtain ⟨old, hold, hdecode⟩ := Site.exists_of_readText hread
  obtain ⟨place, hplace, -, hfile⟩ := Site.readFile_eq_ok_iff.mp hold
  obtain ⟨new, hnew, hdecode'⟩ := Site.exists_of_readText hread'
  obtain ⟨place', hplace', -, hfile'⟩ := Site.readFile_eq_ok_iff.mp hnew
  obtain rfl : place = place' := by
    rw [Site.place?_congr (tree.blank_runInject hordered config table), hplace] at hplace'
    exact Except.ok.inj hplace'
  cases hfiles : SourceTree.files tree config.selection with
  | error fault =>
      rw [runInject, visitTree, hfiles, hread] at hread'
      exact absurd (Except.ok.inj hread').symm hne
  | ok files =>
      rw [runInject, tree_visitTree_of_files hfiles] at hfile'
      obtain ⟨new', hnew', rfl | ⟨other, -, hleads, s₀, done, hdecode₀, hinject, rfl⟩⟩ :=
        config.file?_visitAll table hordered (tree.pairwise_places hordered hproper hfiles)
          config.keepGoing hfile
      · obtain rfl : new = new' := Option.some.inj (hfile'.symm.trans hnew')
        exact absurd (Option.some.inj (hdecode'.symm.trans hdecode)) hne
      · obtain rfl : new = utf8 done.content := Option.some.inj (hfile'.symm.trans hnew')
        obtain rfl : s = s₀ := Option.some.inj (hdecode.symm.trans hdecode₀)
        rw [decode?_utf8] at hdecode'
        obtain ⟨hinjected, hcrlf⟩ := Table.injectFile_eq_ok_some_iff.mp hinject
        refine ⟨done, Table.injectFile_eq_ok_some_iff.mpr ⟨?_, hcrlf⟩, Option.some.inj hdecode'⟩
        rw [Table.injected?, Site.symbol?_eq_of_place? hplace hleads hfile]
        exact hinjected

end Runs

/-! ### Trees in memory -/

section Memory

variable {tree : MemoryTree} {config : InjectConfig} {table : Table} {path : Path} {s : Text}

theorem MemoryTree.read_eq_ok_iff :
    SourceTree.read tree path = .ok s ↔ tree.get? path = some s := by
  cases hget : tree.get? path with
  | none => simp [MemoryTree.read_of_get?_eq_none hget]
  | some old => simp [MemoryTree.read_of_get?_eq_some hget]

theorem MemoryTree.get?_of_mem (h : (path, s) ∈ tree.texts.entries) : tree.get? path = some s := by
  obtain ⟨before, after, hsplit⟩ := List.append_of_mem h
  exact MemoryTree.get?_of_entries_eq hsplit

theorem Table.eq_of_injectFile_eq_crlf {other : Path}
    (h : table.injectFile locate other s = .error (.crlf path)) :
    other = path ∧ hasCrlf s = true := by
  rw [Table.injectFile_locate] at h
  split at h
  · exact absurd h (by simp)
  · split at h
    · next hcrlf => exact ⟨FileFault.crlf.inj (Except.error.inj h), hcrlf⟩
    · exact absurd h (by simp)

/-- A run that writes where it likes finds fault with line endings only. -/
theorem InjectConfig.eq_of_judge_eq_crlf {other : Path}
    (h : config.judge table [] [] other s = .error (.crlf path)) :
    other = path ∧ hasCrlf s = true := by
  rw [InjectConfig.judge, List.any_nil, if_neg Bool.false_ne_true] at h
  split at h
  · next fault hinject =>
      obtain rfl := Except.error.inj h
      exact Table.eq_of_injectFile_eq_crlf hinject
  · exact absurd h (by simp)
  · rw [InjectConfig.judgeInjected] at h
    split at h
    · exact absurd h (by simp)
    · split at h <;> exact absurd h (by simp)

/-- **The files of a tree in memory whose line endings a run finds fault with** have a line that
ends in `\r\n` before the run. -/
theorem MemoryTree.exists_hasCrlf_of_blames
    (h : Blames (runInject config table tree).result path) :
    ∃ s, (path, s) ∈ tree.texts.entries ∧ hasCrlf s = true := by
  rw [runInject, (config.judges table).result_visitTree, Tally.resultOf] at h
  -- It is enough that the fault is among those of the files.
  suffices hfailure : ∃ other, (other, .crlf path) ∈ ((config.judge table [] []).failuresOf
      (tree.texts.entries.filter fun e => config.selection.accepts e.1)) by
    obtain ⟨other, hother⟩ := hfailure
    obtain ⟨⟨first, s⟩, he, hjudge⟩ := List.mem_filterMap.mp hother
    cases hverdict : config.judge table [] [] first s with
    | ok verdict => simp [hverdict] at hjudge
    | error fault =>
        simp only [hverdict, Option.some.injEq, Prod.mk.injEq] at hjudge
        obtain ⟨-, rfl⟩ := hjudge
        obtain ⟨rfl, hcrlf⟩ := InjectConfig.eq_of_judge_eq_crlf hverdict
        exact ⟨s, (List.mem_filter.mp he).1, hcrlf⟩
  dsimp only [Judgement.tallyOf] at h
  split at h
  · exact absurd h not_blames_ok
  · next first fault more hfailures =>
      rw [hfailures]
      split at h
      · exact blames_files_iff.mp h
      · obtain rfl := blames_file_iff.mp h
        exact ⟨first, List.mem_cons_self⟩

/-- A run gives a file either no new text or the one that its entry makes of the text before. -/
theorem InjectConfig.exists_of_finalText_ne {accepts : Path → Bool}
    (h : (config.judge table [] []).finalText accepts path s ≠ s) :
    ∃ done, table.injectFile locate path s = .ok (some done) ∧
      done.content = (config.judge table [] []).finalText accepts path s := by
  rw [Judgement.finalText] at h ⊢
  split at h
  · next haccepts =>
      rw [if_pos haccepts]
      rw [InjectConfig.judge, List.any_nil, if_neg Bool.false_ne_true] at h ⊢
      cases hinject : table.injectFile locate path s with
      | error fault => simp [hinject, Verdict.textOr] at h
      | ok injected =>
          cases injected with
          | none => simp [hinject, Verdict.textOr] at h
          | some done =>
              simp only [hinject, InjectConfig.judgeInjected, List.any_nil] at h ⊢
              refine ⟨done, rfl, ?_⟩
              by_cases hsame : done.content = s
              · simp [hsame, Verdict.textOr] at h
              · cases hdry : config.dryRun with
                | true => simp [hsame, hdry, Verdict.textOr] at h
                | false => simp [hsame, Verdict.textOr]
  · exact absurd rfl h

/-- **The text that a run gives to a file of a tree in memory** is the one that its entry makes of
the text before. -/
theorem MemoryTree.read_runInject {s' : Text} (hread : tree.get? path = some s)
    (hmem : (path, s') ∈ (runInject config table tree).tree.texts.entries) (hne : s' ≠ s) :
    ∃ done, table.injectFile locate path s = .ok (some done) ∧ done.content = s' := by
  obtain ⟨init, rest, hsplit, hentries⟩ :=
    (config.judges table).entries_visitTree config.selection config.keepGoing tree
  rw [runInject, hentries] at hmem
  -- What the tree has held at the path is what it holds there among its entries.
  have hold : ∀ t, (path, t) ∈ tree.texts.entries → t = s := fun t ht =>
    Option.some.inj ((MemoryTree.get?_of_mem ht).symm.trans hread)
  rcases List.mem_append.mp hmem with hmem | hmem
  · obtain ⟨⟨first, t⟩, he, heq⟩ := List.mem_map.mp hmem
    obtain ⟨rfl, rfl⟩ := Prod.mk.inj heq
    obtain rfl := hold t (hsplit ▸ List.mem_append_left rest he)
    exact InjectConfig.exists_of_finalText_ne hne
  · exact absurd (hold s' (hsplit ▸ List.mem_append_right init hmem)) hne

end Memory

/-! ### What an injection makes and later runs refuse -/

/-- Whether a line of a doc block that returns stands above another line of a text into which the
entry for a path has been put. -/
def Table.PutsReturn (table : Table) (path : Path) (done : Injected) : Prop :=
  ∃ symbol entry, path.symbol? = some symbol ∧ table.get? symbol = some entry ∧
    ∃ line ∈ entry.docLines symbol, line ∈ done.lines.dropLast ∧ Returns line

/-- Whether later runs find fault with the line endings of a file that a run has rewritten only if
the run has put a line that returns into it. -/
def Table.BlamedForReturns {σ : Type} [SourceTree σ] (table : Table) (tree : σ) : Prop :=
  ∀ (config later : InjectConfig) (laterTable : Table) (path : Path) (s s' : Text),
    SourceTree.read tree path = .ok s →
    SourceTree.read (runInject config table tree).tree path = .ok s' → s' ≠ s →
    Blames (runInject later laterTable (runInject config table tree).tree).result path →
    ∃ done, table.injectFile locate path s = .ok (some done) ∧ done.content = s' ∧
      table.PutsReturn path done

section Refused

variable {table : Table} {path : Path} {s : Text}

/-- A text with an entry put in is refused if a line that returns has been put in. -/
theorem Table.hasCrlf_content_iff {done : Injected}
    (h : table.injectFile locate path s = .ok (some done)) :
    hasCrlf done.content = true ↔ table.PutsReturn path done := by
  obtain ⟨hinjected, hcrlf⟩ := Table.injectFile_eq_ok_some_iff.mp h
  obtain ⟨symbol, hsymbol, hmap⟩ := Option.bind_eq_some_iff.mp hinjected
  obtain ⟨entry, hentry, rfl⟩ := Option.map_eq_some_iff.mp hmap
  rw [entry.hasCrlf_inject_iff symbol hcrlf]
  constructor
  · intro hline
    exact ⟨symbol, entry, hsymbol, hentry, hline⟩
  · rintro ⟨symbol', entry', hsymbol', hentry', hline⟩
    obtain rfl := Option.some.inj (hsymbol.symm.trans hsymbol')
    obtain rfl := Option.some.inj (hentry.symm.trans hentry')
    exact hline

theorem DirectoryTree.blamedForReturns {tree : DirectoryTree} (hordered : tree.top.all.Ordered)
    (hproper : tree.top.all.Proper) : table.BlamedForReturns tree := by
  intro config later laterTable path s s' hread hread' hne hblames
  have hblank := tree.blank_runInject hordered config table
  obtain ⟨done, hinject, rfl⟩ :=
    DirectoryTree.read_runInject hordered hproper hread hread' hne
  obtain ⟨t, ht, hcrlf⟩ := DirectoryTree.exists_hasCrlf_of_blames
    (hordered.of_blank_eq (congrArg Site.all hblank.symm))
    (hproper.of_blank_eq (congrArg Site.all hblank.symm)) hblames
  obtain rfl := Except.ok.inj (ht.symm.trans hread')
  exact ⟨done, hinject, rfl, (Table.hasCrlf_content_iff hinject).mp hcrlf⟩

theorem MemoryTree.blamedForReturns (tree : MemoryTree) : table.BlamedForReturns tree := by
  intro config later laterTable path s s' hread hread' hne hblames
  obtain ⟨t, ht, hcrlf⟩ := MemoryTree.exists_hasCrlf_of_blames hblames
  rw [MemoryTree.read_eq_ok_iff] at hread hread'
  obtain rfl : t = s' := Option.some.inj ((MemoryTree.get?_of_mem ht).symm.trans hread')
  obtain ⟨done, hinject, rfl⟩ := MemoryTree.read_runInject hread ht hne
  exact ⟨done, hinject, rfl, (Table.hasCrlf_content_iff hinject).mp hcrlf⟩

/-- **When an injection makes what is refused.** The text that comes of it ends a line in `\r\n`
exactly if a line of a doc block that returns has been put above another line. A run over a
directory (in which the names ascend and are names) or over a tree in memory that finds fault with
the line endings of a file that another run before it has rewritten does so because of such a
line. -/
theorem Table.refused_iff_returns (table : Table) :
    (∀ path s done, table.injectFile locate path s = .ok (some done) →
      (hasCrlf done.content = true ↔ table.PutsReturn path done)) ∧
    (∀ tree : DirectoryTree, tree.top.all.Ordered → tree.top.all.Proper →
      table.BlamedForReturns tree) ∧
    ∀ tree : MemoryTree, table.BlamedForReturns tree :=
  ⟨fun _ _ _ => Table.hasCrlf_content_iff, fun _ => DirectoryTree.blamedForReturns,
    MemoryTree.blamedForReturns⟩

/-- The block of `Foo` is given with a carriage return at its end. The next run over the file stops
there, in a directory and in memory. -/
theorem Table.refused_iff_returns_next_run :
    let table : Table := .ofPairs [("Foo".toList, ⟨["/** new */\r".toList], .empty⟩)]
    let path : Path := .ofText "a/Foo.js".toList
    let old : Text := "/** old */\nclass Foo \x7b".toList
    let new : Text := "/** new */\r\nclass Foo \x7b".toList
    let tree : DirectoryTree := ⟨.alone (.folder (utf8 "a".toList)
      (.file (utf8 "Foo.js".toList) (utf8 old) .nil) .nil), ⟨[46]⟩⟩
    let memory : MemoryTree := MemoryTree.empty.withFile path old
    let puts : Prop := ∃ done, table.injectFile locate path old = .ok (some done) ∧
      done.content = new ∧ table.PutsReturn path done
    puts ∧
      (Blames (runInject {} table (runInject {} table tree).tree).result path ∧ puts) ∧
      (Blames (runInject {} table (runInject {} table memory).tree).result path ∧ puts) := by
  intro table path old new tree memory puts
  obtain ⟨hinjected, htree, hmemory⟩ := table.refused_iff_returns
  let done := (⟨["/** new */\r".toList], .empty⟩ : Entry).inject locate "Foo".toList old
  have hinject : table.injectFile locate path old = .ok (some done) := by decide +kernel
  have hput := (hinjected path old done hinject).mp (by decide +kernel)
  have hblames : Blames (runInject {} table (runInject {} table tree).tree).result path :=
    .inl (by decide +kernel)
  have hblames' : Blames (runInject {} table (runInject {} table memory).tree).result path :=
    .inl (by decide +kernel)
  refine ⟨⟨done, hinject, by decide +kernel, hput⟩, ⟨hblames, ?_⟩, ⟨hblames', ?_⟩⟩
  · exact htree tree (by decide +kernel) (by decide +kernel) {} {} table path old new
      (by decide +kernel) (by decide +kernel) (by decide) hblames
  · exact hmemory memory {} {} table path old new
      (by decide +kernel) (by decide +kernel) (by decide) hblames'

/-- **A table may be such that its entries make what is refused**: the lines of a doc block that are
given one by one are put in as they are. -/
theorem not_forall_hasCrlf_eq_false :
    ¬ ∀ (definitions : Text) (table : Table) (path : Path) (content : Text) (done : Injected),
      Table.read definitions = .ok table →
      table.injectFile locate path content = .ok (some done) → hasCrlf done.content = false := by
  intro h
  have hcrlf := h "\x7b\"Foo\":[[\"/** new */\\r\"],null]\x7d".toList
    (.ofPairs [("Foo".toList, ⟨["/** new */\r".toList], .empty⟩)]) (.ofText "Foo.js".toList)
    "/** old */\nclass Foo \x7b".toList
    ((⟨["/** new */\r".toList], .empty⟩ : Entry).inject locate "Foo".toList
      "/** old */\nclass Foo \x7b".toList)
    (by decide +kernel) (by decide +kernel)
  exact absurd hcrlf (by decide +kernel)

end Refused

end DocBlocks
