import DocBlocks.Definition.Reader
import DocBlocks.Proofs.Json.Value

/-!
# Reading the Parts of a Definition Table

The readers of which the reader of definition tables is made take the texts of their forms and no
others: strings, objects, what may be `null`, lists of two, and lines. A reader is known by its
form alone; what it says of a text at fault, and when it finds the fault, is not seen from here.

Lines are read as any other value and looked at afterwards, so a string or a list of strings is
found among all values first. Lists inside this list are read as well before they are turned
down. This is why the depth matters, though no lines lie deeper than one list.

## Main results

* `Reads.object`, `reads_text`: objects and strings.
* `Reads.nullable`, `Reads.pair`: what may be `null`, and lists of two.
* `reads_lines`: lines.
-/

namespace DocBlocks.Json

open Text

variable {α β ε : Type} {bound : Nat} {s rest : Text}

/-! ### Strings and objects -/

theorem startsIn_stringForm : StartsIn ['"'] StringForm := by
  rintro u _ ⟨ts, -, rfl⟩
  exact ⟨'"', ts ++ ['"'], rfl, List.mem_singleton_self _⟩

theorem startsIn_enclosed {left right : Char} {item : Form α} :
    StartsIn [left] (Enclosed left right item) := by
  intro as t h
  cases h with
  | @nil w => exact ⟨left, w ++ [right], rfl, List.mem_singleton_self _⟩
  | @cons w t ts =>
      exact ⟨left, w ++ t ++ ts ++ [right], by simp, List.mem_singleton_self _⟩

theorem text_eq_ok_iff {u : Text} :
    text s = .ok (u, rest) ↔ ∃ s', skipSpace s = '"' :: s' ∧ string s' = .ok (u, rest) := by
  constructor
  · intro h
    rw [text] at h
    split at h
    · next s' hquote => exact ⟨s', hquote, h⟩
    · exact absurd h (by simp)
  · rintro ⟨s', hquote, h⟩
    simp only [text, hquote, h]

/-- **A reader of strings.** -/
theorem reads_text : Reads bound text StringForm where
  read_eq := by
    rintro u _ w rest ⟨ts, hts, rfl⟩ - hw
    rw [text_eq_ok_iff]
    refine ⟨ts ++ '"' :: rest, ?_, string_eq_ok_iff.mpr ⟨ts, hts, rfl⟩⟩
    exact skipSpace_eq_cons_iff.mpr ⟨by decide, w, hw, by simp⟩
  exists_of_eq := by
    intro s u rest h
    obtain ⟨s', hquote, hstring⟩ := text_eq_ok_iff.mp h
    obtain ⟨-, w, hw, rfl⟩ := skipSpace_eq_cons_iff.mp hquote
    obtain ⟨ts, hts, rfl⟩ := string_eq_ok_iff.mp hstring
    exact ⟨w, _, hw, ⟨ts, hts, rfl⟩, by simp⟩

theorem object_eq_ok_iff {value : Text → Except Fault (α × Text)} {ms : List (Text × α)} :
    object value bound s = .ok (ms, rest) ↔
      ∃ s', skipSpace s = '{' :: s' ∧ members value bound s' = .ok (ms, rest) := by
  constructor
  · intro h
    rw [object] at h
    split at h
    · next s' hbrace => exact ⟨s', hbrace, h⟩
    · exact absurd h (by simp)
  · rintro ⟨s', hbrace, h⟩
    simp only [object, hbrace, h]

/-- **A reader of objects**, if the values are read. -/
theorem Reads.object {value : Text → Except Fault (α × Text)} {form : Form α}
    (h : Reads bound value form) : Reads bound (object value bound) (ObjectForm form) where
  read_eq := by
    intro ms t w rest hms ht hw
    obtain ⟨inner, rfl, hlength, htakes⟩ :=
      h.memberAt.takes startsIn_memberForm (by decide) (by decide) hms ht
    rw [object_eq_ok_iff]
    refine ⟨inner ++ rest, ?_, members_eq_ok_iff.mpr ⟨htakes rest, hlength⟩⟩
    exact skipSpace_eq_cons_iff.mpr ⟨by decide, w, hw, by simp⟩
  exists_of_eq := by
    intro s ms rest hread
    obtain ⟨s', hbrace, hms⟩ := object_eq_ok_iff.mp hread
    obtain ⟨-, w, hw, rfl⟩ := skipSpace_eq_cons_iff.mp hbrace
    obtain ⟨inner, hinner, rfl⟩ := h.memberAt.enclosed '{' (members_eq_ok_iff.mp hms).1
    exact ⟨w, _, hw, hinner, by simp⟩

/-! ### What may be `null` -/

theorem word_eq_ok_iff {letters : Text} : word letters s = .ok rest ↔ s = letters ++ rest := by
  induction letters generalizing s with
  | nil => simp [word]
  | cons letter letters ih =>
      cases s with
      | nil => simp [word]
      | cons c s =>
          rw [word]
          split
          · next heq => rw [ih, heq, List.cons_append, List.cons.injEq, eq_self, true_and]
          · next hne => simp [Ne.symm hne]

theorem StartsIn.orNull {cs : List Char} {form : Form α} (h : StartsIn cs form) :
    StartsIn ('n' :: cs) (OrNull form) := by
  rintro (_ | a) t ht
  · exact ⟨'n', ['u', 'l', 'l'], ht, List.mem_cons_self⟩
  · obtain ⟨c, t', rfl, hc⟩ := h a t ht
    exact ⟨c, t', rfl, List.mem_cons_of_mem _ hc⟩

/-- **A reader of what may be `null`**, if what it is otherwise is read and does not start like
`null`. -/
theorem Reads.nullable {read : Text → Except Stop (α × Text)} {form : Form α} {cs : List Char}
    (h : Reads bound read form) (hstarts : StartsIn cs form)
    (hcs : apart 'n' cs) : Reads bound (nullable read) (OrNull form) where
  read_eq := by
    rintro (_ | a) t w rest ha ht hw
    · obtain rfl : t = ['n', 'u', 'l', 'l'] := ha
      have hskip : skipSpace (w ++ ['n', 'u', 'l', 'l'] ++ rest) =
          'n' :: (['u', 'l', 'l'] ++ rest) :=
        skipSpace_eq_cons_iff.mpr ⟨by decide, w, hw, by simp⟩
      simp only [Json.nullable, hskip, word_eq_ok_iff.mpr rfl]
      rfl
    · obtain ⟨c, t', rfl, hc⟩ := hstarts a t ha
      obtain ⟨hspace, hn⟩ := of_apart hcs hc
      have hskip : skipSpace (w ++ c :: t' ++ rest) = c :: (t' ++ rest) :=
        skipSpace_eq_cons_iff.mpr ⟨hspace, w, hw, by simp⟩
      have hread : read (c :: (t' ++ rest)) = .ok (a, rest) := h.read_eq rest ha ht IsSpaces.nil
      simp only [Json.nullable, hskip]
      split
      · next heq => exact absurd (List.cons.inj heq).1 hn
      · rw [hread]
        rfl
  exists_of_eq := by
    intro s a rest hread
    rw [Json.nullable] at hread
    split at hread
    · next s' hn =>
        obtain ⟨rest', hword, hpair⟩ := Except.map_eq_ok_iff.mp hread
        obtain ⟨rfl, rfl⟩ := Prod.mk.inj hpair
        rw [Except.mapError_eq_ok_iff, word_eq_ok_iff] at hword
        obtain ⟨-, w, hw, rfl⟩ := skipSpace_eq_cons_iff.mp hn
        exact ⟨w, ['n', 'u', 'l', 'l'], hw, rfl, by simp [hword]⟩
    · obtain ⟨⟨a', rest'⟩, ha, hpair⟩ := Except.map_eq_ok_iff.mp hread
      obtain ⟨rfl, rfl⟩ := Prod.mk.inj hpair
      obtain ⟨w, hw, hs⟩ := exists_append_skipSpace s
      obtain ⟨w', t, hw', ht, heq⟩ := h.exists_of_eq ha
      exact ⟨w ++ w', t, hw.append hw', ht, by rw [hs, heq]; simp⟩

/-! ### Lists of two -/

section Pairs

variable {first : Text → Except Stop (α × Text)} {second : Text → Except Stop (β × Text)}
  {wanted : Wanted} {a : α} {b : β}

theorem pairEnd_eq_ok_iff : pairEnd s = .ok rest ↔ skipSpace s = ']' :: rest := by
  constructor
  · intro h
    rw [pairEnd] at h
    split at h
    · exact absurd h (by simp)
    · next hclose => rw [hclose, Except.ok.inj h]
    · split at h
      · exact absurd h (by simp)
      · exact absurd h (by simp)
    · exact absurd h (by simp)
  · intro h
    simp only [pairEnd, h]

/-- The inside of a list of two is two values with a comma between them. -/
theorem pairElements_eq_ok_iff :
    pairElements wanted first second s = .ok ((a, b), rest) ↔
      ∃ c s' mid mid' d s'', skipSpace s = c :: s' ∧ c ≠ ']' ∧ first (c :: s') = .ok (a, mid) ∧
        skipSpace mid = ',' :: mid' ∧ skipSpace mid' = d :: s'' ∧ d ≠ ']' ∧
        second (d :: s'') = .ok (b, rest) := by
  constructor
  · intro h
    rw [pairElements] at h
    split at h
    · exact absurd h (by simp)
    · exact absurd h (by simp)
    · next hne hbracket =>
        obtain ⟨c, s', hfirst⟩ := List.exists_cons_of_ne_nil hne
        obtain ⟨⟨a', mid⟩, ha, h⟩ := Except.bind_eq_ok_iff.mp h
        dsimp only at h
        split at h
        · exact absurd h (by simp)
        · exact absurd h (by simp)
        · next mid' hcomma =>
            split at h
            · exact absurd h (by simp)
            · exact absurd h (by simp)
            · next hne' hbracket' =>
                obtain ⟨d, s'', hsecond⟩ := List.exists_cons_of_ne_nil hne'
                obtain ⟨⟨b', rest'⟩, hb, h⟩ := Except.bind_eq_ok_iff.mp h
                obtain ⟨hab, rfl⟩ := Prod.mk.inj (Except.ok.inj h)
                obtain ⟨rfl, rfl⟩ := Prod.mk.inj hab
                refine ⟨c, s', mid, mid', d, s'', hfirst, ?_, hfirst ▸ ha, hcomma, hsecond, ?_,
                  hsecond ▸ hb⟩
                · rintro rfl
                  exact hbracket _ hfirst
                · rintro rfl
                  exact hbracket' _ hsecond
        · exact absurd h (by simp)
  · rintro ⟨c, s', mid, mid', d, s'', hfirst, hc, ha, hcomma, hsecond, hd, hb⟩
    simp only [pairElements, hfirst]
    split
    · next h => exact absurd h (List.cons_ne_nil _ _)
    · next h => exact absurd (List.cons.inj h).1 hc
    · refine Except.bind_eq_ok_iff.mpr ⟨(a, mid), ha, ?_⟩
      simp only [hcomma, hsecond]
      split
      · next h => exact absurd h (List.cons_ne_nil _ _)
      · next h => exact absurd (List.cons.inj h).1 hd
      · exact Except.bind_eq_ok_iff.mpr ⟨(b, rest), hb, rfl⟩

theorem pair_eq_ok_iff {ab : α × β} :
    pair wanted first second s = .ok (ab, rest) ↔
      ∃ s' mid, skipSpace s = '[' :: s' ∧ pairElements wanted first second s' = .ok (ab, mid) ∧
        skipSpace mid = ']' :: rest := by
  constructor
  · intro h
    rw [pair] at h
    split at h
    · next s' hbracket =>
        obtain ⟨⟨ab', mid⟩, helements, h⟩ := Except.bind_eq_ok_iff.mp h
        obtain ⟨rest', hend, h⟩ := Except.bind_eq_ok_iff.mp h
        obtain ⟨rfl, rfl⟩ := Prod.mk.inj (Except.ok.inj h)
        exact ⟨s', mid, hbracket, Except.mapError_eq_ok_iff.mp helements,
          pairEnd_eq_ok_iff.mp hend⟩
    · exact absurd h (by simp)
  · rintro ⟨s', mid, hbracket, helements, hend⟩
    simp only [pair, hbracket]
    exact Except.bind_eq_ok_iff.mpr ⟨(ab, mid), Except.mapError_eq_ok_iff.mpr helements,
      Except.bind_eq_ok_iff.mpr ⟨rest, pairEnd_eq_ok_iff.mpr hend, rfl⟩⟩

/-- **A reader of lists of two**, if the two elements are read. -/
theorem Reads.pair {form : Form α} {form' : Form β} {cs cs' : List Char} (wanted : Wanted)
    (h : Reads bound first form) (h' : Reads bound second form') (hstarts : StartsIn cs form)
    (hstarts' : StartsIn cs' form') (hcs : apart ']' cs) (hcs' : apart ']' cs') :
    Reads bound (pair wanted first second) (PairForm form form') where
  read_eq := by
    rintro ⟨a, b⟩ _ w rest ⟨w₁, ta, w₂, w₃, tb, w₄, hw₁, ha, hw₂, hw₃, hb, hw₄, rfl⟩ ht hw
    obtain ⟨c, ta, rfl, hc⟩ := hstarts a _ ha
    obtain ⟨hspace, hbracket⟩ := of_apart hcs hc
    obtain ⟨d, tb, rfl, hd⟩ := hstarts' b _ hb
    obtain ⟨hspace', hbracket'⟩ := of_apart hcs' hd
    simp only [List.length_append, List.length_cons] at ht
    have hopen : skipSpace (w ++ ('[' :: w₁ ++ c :: ta ++ w₂ ++ ',' :: w₃ ++ d :: tb ++ w₄ ++
        [']']) ++ rest) =
        '[' :: (w₁ ++ c :: (ta ++ (w₂ ++ ',' :: (w₃ ++ d :: (tb ++ (w₄ ++ ']' :: rest)))))) :=
      skipSpace_eq_cons_iff.mpr ⟨by decide, w, hw, by simp⟩
    have hread : first (c :: (ta ++ (w₂ ++ ',' :: (w₃ ++ d :: (tb ++ (w₄ ++ ']' :: rest)))))) =
        .ok (a, w₂ ++ ',' :: (w₃ ++ d :: (tb ++ (w₄ ++ ']' :: rest)))) :=
      h.read_eq _ ha (by rw [List.length_cons]; omega) IsSpaces.nil
    have hread' : second (d :: (tb ++ (w₄ ++ ']' :: rest))) = .ok (b, w₄ ++ ']' :: rest) :=
      h'.read_eq _ hb (by rw [List.length_cons]; omega) IsSpaces.nil
    have hcomma : skipSpace (w₂ ++ ',' :: (w₃ ++ d :: (tb ++ (w₄ ++ ']' :: rest)))) =
        ',' :: (w₃ ++ d :: (tb ++ (w₄ ++ ']' :: rest))) :=
      skipSpace_eq_cons_iff.mpr ⟨by decide, w₂, hw₂, rfl⟩
    have helements : pairElements wanted first second (w₁ ++ c :: (ta ++ (w₂ ++ ',' :: (w₃ ++
        d :: (tb ++ (w₄ ++ ']' :: rest)))))) = .ok ((a, b), w₄ ++ ']' :: rest) :=
      pairElements_eq_ok_iff.mpr
        ⟨c, _, _, _, d, _, skipSpace_eq_cons_iff.mpr ⟨hspace, w₁, hw₁, rfl⟩, hbracket, hread,
          hcomma, skipSpace_eq_cons_iff.mpr ⟨hspace', w₃, hw₃, rfl⟩, hbracket', hread'⟩
    exact pair_eq_ok_iff.mpr ⟨_, _, hopen, helements,
      skipSpace_eq_cons_iff.mpr ⟨by decide, w₄, hw₄, rfl⟩⟩
  exists_of_eq := by
    rintro s ⟨a, b⟩ rest hread
    obtain ⟨s', mid, hopen, helements, hclose⟩ := pair_eq_ok_iff.mp hread
    obtain ⟨c, s₁, mid₁, mid₂, d, s₂, hfirst, -, ha, hcomma, hsecond, -, hb⟩ :=
      pairElements_eq_ok_iff.mp helements
    obtain ⟨-, w, hw, rfl⟩ := skipSpace_eq_cons_iff.mp hopen
    obtain ⟨-, w₁, hw₁, rfl⟩ := skipSpace_eq_cons_iff.mp hfirst
    obtain ⟨w₁', ta, hw₁', hta, heq⟩ := h.exists_of_eq ha
    obtain ⟨-, w₂, hw₂, rfl⟩ := skipSpace_eq_cons_iff.mp hcomma
    obtain ⟨-, w₃, hw₃, rfl⟩ := skipSpace_eq_cons_iff.mp hsecond
    obtain ⟨w₃', tb, hw₃', htb, heq'⟩ := h'.exists_of_eq hb
    obtain ⟨-, w₄, hw₄, rfl⟩ := skipSpace_eq_cons_iff.mp hclose
    refine ⟨w, _, hw, ⟨w₁ ++ w₁', ta, w₂, w₃ ++ w₃', tb, w₄, hw₁.append hw₁', hta, hw₂,
      hw₃.append hw₃', htb, hw₄, rfl⟩, ?_⟩
    rw [heq, heq']
    simp

end Pairs

/-! ### Lines -/

/-- Lines: a list of strings, or a string that is cut into lines. -/
def LinesForm : Form (List Text) := fun ls t =>
  (∃ u, StringForm u t ∧ ls = wholeLines u) ∨ ListForm StringForm ls t

theorem startsIn_linesForm : StartsIn ['"', '['] LinesForm := by
  rintro ls t (⟨u, hu, -⟩ | hls)
  · obtain ⟨c, t', rfl, hc⟩ := startsIn_stringForm u t hu
    exact ⟨c, t', rfl, List.mem_append_left ['['] hc⟩
  · obtain ⟨c, t', rfl, hc⟩ := startsIn_enclosed ls t hls
    exact ⟨c, t', rfl, List.mem_append_right ['"'] hc⟩

theorem value_eq_text_iff_text {depth : Nat} {s u rest : Text} :
    value bound depth s = .ok (.text u, rest) ↔ text s = .ok (u, rest) :=
  value_eq_text_iff.trans text_eq_ok_iff.symm

/-- Lines are found as a string, or as strings up to a bracket. -/
theorem lines_eq_ok_iff {depth : Nat} {ls : List Text} :
    lines bound (depth + 1) s = .ok (ls, rest) ↔
      (∃ u, text s = .ok (u, rest) ∧ ls = wholeLines u) ∨
      ∃ s', skipSpace s = '[' :: s' ∧ Takes ']' text s' ls rest ∧ ls.length ≤ bound := by
  have texts_iff : value bound (depth + 1) s = .ok (.texts ls, rest) ↔
      ∃ s', skipSpace s = '[' :: s' ∧ Takes ']' text s' ls rest ∧ ls.length ≤ bound := by
    rw [value_eq_texts_iff]
    constructor
    · rintro ⟨s', depth', hbracket, hdepth, helements⟩
      obtain ⟨htakes, hlength⟩ := elements_eq_ok_iff.mp helements
      rw [List.length_map] at hlength
      exact ⟨s', hbracket, (Takes.map_iff fun _ _ _ => value_eq_text_iff_text).mp htakes, hlength⟩
    · rintro ⟨s', hbracket, htakes, hlength⟩
      refine ⟨s', depth, hbracket, rfl, elements_eq_ok_iff.mpr ⟨?_, ?_⟩⟩
      · exact (Takes.map_iff fun _ _ _ => value_eq_text_iff_text).mpr htakes
      · rw [List.length_map]
        exact hlength
  rw [← texts_iff, lines]
  constructor
  · intro h
    split at h
    · exact absurd h (by simp)
    · next u rest' hvalue =>
        obtain ⟨rfl, rfl⟩ := Prod.mk.inj (Except.ok.inj h)
        exact .inl ⟨u, value_eq_text_iff_text.mp hvalue, rfl⟩
    · next ls' rest' hvalue =>
        obtain ⟨rfl, rfl⟩ := Prod.mk.inj (Except.ok.inj h)
        exact .inr hvalue
    · exact absurd h (by simp)
  · rintro (⟨u, htext, rfl⟩ | hvalue)
    · rw [value_eq_text_iff_text.mpr htext]
    · rw [hvalue]

/-- **A reader of lines.** -/
theorem reads_lines {depth : Nat} : Reads bound (lines bound (depth + 1)) LinesForm where
  read_eq := by
    rintro ls t w rest (⟨u, hu, rfl⟩ | hls) ht hw
    · exact lines_eq_ok_iff.mpr (.inl ⟨u, reads_text.read_eq rest hu ht hw, rfl⟩)
    · obtain ⟨inner, rfl, hlength, htakes⟩ :=
        reads_text.takes startsIn_stringForm (by decide) (by decide) hls ht
      refine lines_eq_ok_iff.mpr (.inr ⟨inner ++ rest, ?_, htakes rest, hlength⟩)
      exact skipSpace_eq_cons_iff.mpr ⟨by decide, w, hw, by simp⟩
  exists_of_eq := by
    intro s ls rest hread
    have htexts : Reads bound text StringForm := reads_text
    rcases lines_eq_ok_iff.mp hread with ⟨u, htext, rfl⟩ | ⟨s', hbracket, htakes, -⟩
    · obtain ⟨w, t, hw, hu, hs⟩ := htexts.exists_of_eq htext
      exact ⟨w, t, hw, .inl ⟨u, hu, rfl⟩, hs⟩
    · obtain ⟨-, w, hw, rfl⟩ := skipSpace_eq_cons_iff.mp hbracket
      obtain ⟨inner, hinner, rfl⟩ := htexts.enclosed '[' htakes
      exact ⟨w, _, hw, .inr hinner, by simp⟩

end DocBlocks.Json
