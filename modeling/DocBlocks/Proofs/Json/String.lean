import DocBlocks.Json.Scalar
import DocBlocks.Proofs.Json.Form

/-!
# Reading Strings

The reader of strings takes exactly the texts that stand for strings, and returns the characters
that they stand for. Going through a string, it takes one character after the other, however it
is written (`stringFrom_append`), and it stops without a fault only behind a quote that is none of
them (`exists_of_stringFrom`).

An escape by code unit is accepted if the unit is no half of a surrogate pair, and two of them are
if they are the two halves. These are the cases in which the units are those of a character.

## Main results

* `hexDigit?_eq_some_iff`, `codeUnit?_eq_some_iff`: digits and code units.
* `charForm_of_codeUnit?`, `charForm_of_surrogates`: the code units that are accepted.
* `string_eq_ok_iff`: the strings that are read.
-/

namespace DocBlocks.Json

/-! ### Digits and code units -/

instance (n : Nat) (c : Char) : Decidable (DigitForm n c) :=
  inferInstanceAs (Decidable (_ ∧ (_ ∨ _)))

theorem hexDigit?_of_lt : ∀ n < 16,
    hexDigit? (Nat.digitChar n) = some n ∧ hexDigit? (Nat.digitChar n).toUpper = some n := by
  decide

theorem toNat_lt_of_hexDigit? {n : Nat} {c : Char} (h : hexDigit? c = some n) : c.toNat < 128 := by
  rw [hexDigit?] at h
  split at h
  · next hdigit =>
    simp only [Char.isDigit, Bool.and_eq_true, decide_eq_true_eq, UInt32.le_iff_toNat_le] at hdigit
    exact Nat.lt_of_le_of_lt hdigit.2 (by decide)
  · split at h
    · next hlower =>
      simp only [Bool.and_eq_true, decide_eq_true_eq, Char.le_def, UInt32.le_iff_toNat_le] at hlower
      exact Nat.lt_of_le_of_lt hlower.2 (by decide)
    · split at h
      · next hupper =>
        simp only [Bool.and_eq_true, decide_eq_true_eq, Char.le_def,
          UInt32.le_iff_toNat_le] at hupper
        exact Nat.lt_of_le_of_lt hupper.2 (by decide)
      · exact absurd h (by simp)

/-- **The hexadecimal digits** are those of either case. -/
theorem hexDigit?_eq_some_iff {n : Nat} {c : Char} : hexDigit? c = some n ↔ DigitForm n c := by
  constructor
  · intro h
    have hall : ∀ k < 128, ∀ m ∈ hexDigit? (Char.ofNat k), DigitForm m (Char.ofNat k) := by
      decide
    have hc := hall c.toNat (toNat_lt_of_hexDigit? h)
    rw [Char.ofNat_toNat] at hc
    exact hc n h
  · rintro ⟨hn, rfl | rfl⟩
    · exact (hexDigit?_of_lt n hn).1
    · exact (hexDigit?_of_lt n hn).2

/-- **Four digits** stand for a code unit. -/
theorem codeUnit?_eq_some_iff {u : Nat} {a b c d : Char} :
    codeUnit? a b c d = some u ↔ UnitForm u [a, b, c, d] := by
  simp only [codeUnit?, bind, Option.bind_eq_some_iff, pure, Option.some.injEq,
    hexDigit?_eq_some_iff]
  constructor
  · rintro ⟨n₁, h₁, n₂, h₂, n₃, h₃, n₄, h₄, rfl⟩
    exact ⟨n₁, n₂, n₃, n₄, a, b, c, d, h₁, h₂, h₃, h₄, by omega, rfl⟩
  · rintro ⟨n₁, n₂, n₃, n₄, c₁, c₂, c₃, c₄, h₁, h₂, h₃, h₄, rfl, heq⟩
    simp only [List.cons.injEq, and_true] at heq
    obtain ⟨rfl, rfl, rfl, rfl⟩ := heq
    exact ⟨n₁, h₁, n₂, h₂, n₃, h₃, n₄, h₄, by omega⟩

theorem UnitForm.exists_eq {u : Nat} {t : Text} (h : UnitForm u t) :
    ∃ a b c d, t = [a, b, c, d] ∧ codeUnit? a b c d = some u := by
  obtain ⟨n₁, n₂, n₃, n₄, a, b, c, d, h₁, h₂, h₃, h₄, hu, rfl⟩ := h
  exact ⟨a, b, c, d, rfl,
    codeUnit?_eq_some_iff.mpr ⟨n₁, n₂, n₃, n₄, a, b, c, d, h₁, h₂, h₃, h₄, hu, rfl⟩⟩

theorem UnitForm.lt {u : Nat} {t : Text} (h : UnitForm u t) : u < 0x10000 := by
  obtain ⟨n₁, n₂, n₃, n₄, a, b, c, d, ⟨h₁, -⟩, ⟨h₂, -⟩, ⟨h₃, -⟩, ⟨h₄, -⟩, rfl, -⟩ := h
  omega

/-! ### Surrogates -/

theorem isLeading_eq_true_iff {u : Nat} : isLeading u = true ↔ 0xD800 ≤ u ∧ u < 0xDC00 := by
  rw [isLeading, Bool.and_eq_true, decide_eq_true_eq, decide_eq_true_eq]

theorem isTrailing_eq_true_iff {u : Nat} : isTrailing u = true ↔ 0xDC00 ≤ u ∧ u < 0xE000 := by
  rw [isTrailing, Bool.and_eq_true, decide_eq_true_eq, decide_eq_true_eq]

theorem toNat_ofNat_of_valid {n : Nat} (h : n.isValidChar) : (Char.ofNat n).toNat = n := by
  rw [Char.ofNat, dif_pos h]
  rfl

/-- A code unit that is no half of a surrogate pair is that of a character. -/
theorem utf16_ofNat {u : Nat} (hu : u < 0x10000) (htrailing : ¬isTrailing u = true)
    (hleading : ¬isLeading u = true) : utf16 (Char.ofNat u) = [u] := by
  rw [isTrailing_eq_true_iff] at htrailing
  rw [isLeading_eq_true_iff] at hleading
  have hvalid : u.isValidChar := by
    rw [Nat.isValidChar]
    omega
  rw [utf16, toNat_ofNat_of_valid hvalid, if_pos hu]

/-- The halves of a surrogate pair are the code units of a character. -/
theorem utf16_pairChar {u v : Nat} (hu : isLeading u = true) (hv : isTrailing v = true) :
    utf16 (pairChar u v) = [u, v] := by
  rw [isLeading_eq_true_iff] at hu
  rw [isTrailing_eq_true_iff] at hv
  have hvalid : ((u - 0xD800) * 0x400 + (v - 0xDC00) + 0x10000).isValidChar := by
    rw [Nat.isValidChar]
    omega
  rw [utf16, pairChar, toNat_ofNat_of_valid hvalid, if_neg (by omega)]
  simp only [List.cons.injEq, and_true]
  omega

theorem charForm_of_codeUnit? {u : Nat} {a b c d : Char} (h : codeUnit? a b c d = some u)
    (htrailing : ¬isTrailing u = true) (hleading : ¬isLeading u = true) :
    CharForm (Char.ofNat u) ['\\', 'u', a, b, c, d] := by
  have hunit := codeUnit?_eq_some_iff.mp h
  have hunits : List.Forall₂ UnitForm (utf16 (Char.ofNat u)) [[a, b, c, d]] := by
    rw [utf16_ofNat hunit.lt htrailing hleading]
    exact .cons hunit .nil
  exact .units hunits

theorem charForm_of_surrogates {u v : Nat} {a b c d a' b' c' d' : Char}
    (h : codeUnit? a b c d = some u) (h' : codeUnit? a' b' c' d' = some v)
    (hleading : isLeading u = true) (htrailing : isTrailing v = true) :
    CharForm (pairChar u v) ['\\', 'u', a, b, c, d, '\\', 'u', a', b', c', d'] := by
  have hunits : List.Forall₂ UnitForm (utf16 (pairChar u v)) [[a, b, c, d], [a', b', c', d']] := by
    rw [utf16_pairChar hleading htrailing]
    exact .cons (codeUnit?_eq_some_iff.mp h) (.cons (codeUnit?_eq_some_iff.mp h') .nil)
  exact .units hunits

/-! ### Letters -/

theorem mem_letters_iff {letter c : Char} :
    (letter, c) ∈ letters ↔ escapedChar? letter = some c := by
  simp only [letters, List.mem_cons, List.not_mem_nil, Prod.mk.injEq, or_false]
  constructor
  · rintro (⟨rfl, rfl⟩ | ⟨rfl, rfl⟩ | ⟨rfl, rfl⟩ | ⟨rfl, rfl⟩ | ⟨rfl, rfl⟩ | ⟨rfl, rfl⟩ |
      ⟨rfl, rfl⟩ | ⟨rfl, rfl⟩)
    all_goals rfl
  · intro h
    rw [escapedChar?.eq_def] at h
    split at h
    all_goals simp_all [eq_comm]

/-! ### Characters -/

section Characters

variable {c : Char} {s t ts rest done u v : Text}

/-- A code unit that is no surrogate is taken as the character of which it is the code point. -/
theorem stringFrom_unit {n : Nat} {t : Text} (h : UnitForm n t) (htrailing : ¬isTrailing n = true)
    (hleading : ¬isLeading n = true) (done s : Text) :
    stringFrom done ('\\' :: 'u' :: t ++ s) = stringFrom (Char.ofNat n :: done) s := by
  obtain ⟨a, b, d, e, rfl, hunit⟩ := h.exists_eq
  show stringFrom done ('\\' :: 'u' :: a :: b :: d :: e :: s) = _
  rw [stringFrom.eq_3, hunit]
  dsimp only
  rw [if_neg htrailing, if_neg hleading]

/-- Two code units that are the halves of a surrogate pair are taken as its character. -/
theorem stringFrom_surrogates {n m : Nat} {t t' : Text} (h : UnitForm n t) (h' : UnitForm m t')
    (hleading : isLeading n = true) (htrailing : isTrailing m = true) (done s : Text) :
    stringFrom done ('\\' :: 'u' :: t ++ ('\\' :: 'u' :: t' ++ s)) =
      stringFrom (pairChar n m :: done) s := by
  have hfirst : ¬isTrailing n = true := by
    rw [isLeading_eq_true_iff] at hleading
    rw [isTrailing_eq_true_iff]
    omega
  obtain ⟨a, b, d, e, rfl, hunit⟩ := h.exists_eq
  obtain ⟨a', b', d', e', rfl, hunit'⟩ := h'.exists_eq
  show stringFrom done ('\\' :: 'u' :: a :: b :: d :: e :: '\\' :: 'u' :: a' :: b' :: d' :: e' ::
    s) = _
  rw [stringFrom.eq_3, hunit]
  dsimp only
  rw [if_neg hfirst, if_pos hleading]
  simp only [hunit', htrailing, if_true]

/-- The code units of a character are taken as that character. -/
theorem stringFrom_utf16 {us : List Text} (h : List.Forall₂ UnitForm (utf16 c) us)
    (done s : Text) :
    stringFrom done (us.flatMap (fun t => '\\' :: 'u' :: t) ++ s) =
      stringFrom (c :: done) s := by
  have hvalid : c.toNat.isValidChar := c.valid
  rw [Nat.isValidChar] at hvalid
  by_cases hplane : c.toNat < 0x10000
  · -- One unit, which is the code point and so no surrogate.
    rw [utf16, if_pos hplane, List.forall₂_cons_left_iff] at h
    obtain ⟨t, rest, ht, hrest, rfl⟩ := h
    obtain rfl := List.forall₂_nil_left_iff.mp hrest
    have htrailing : ¬isTrailing c.toNat = true := by
      rw [isTrailing_eq_true_iff]
      omega
    have hleading : ¬isLeading c.toNat = true := by
      rw [isLeading_eq_true_iff]
      omega
    rw [List.flatMap_cons, List.flatMap_nil, List.append_nil,
      stringFrom_unit ht htrailing hleading, Char.ofNat_toNat]
  · -- Two units, which are the halves of the pair for the code point.
    rw [utf16, if_neg hplane, List.forall₂_cons_left_iff] at h
    obtain ⟨t, rest, ht, hrest, rfl⟩ := h
    rw [List.forall₂_cons_left_iff] at hrest
    obtain ⟨t', rest', ht', hrest', rfl⟩ := hrest
    obtain rfl := List.forall₂_nil_left_iff.mp hrest'
    have hleading : isLeading (0xD800 + (c.toNat - 0x10000) / 0x400) = true := by
      rw [isLeading_eq_true_iff]
      omega
    have htrailing : isTrailing (0xDC00 + (c.toNat - 0x10000) % 0x400) = true := by
      rw [isTrailing_eq_true_iff]
      omega
    have hcode : (0xD800 + (c.toNat - 0x10000) / 0x400 - 0xD800) * 0x400 +
        (0xDC00 + (c.toNat - 0x10000) % 0x400 - 0xDC00) + 0x10000 = c.toNat := by
      omega
    rw [List.flatMap_cons, List.flatMap_cons, List.flatMap_nil, List.append_nil, List.append_assoc,
      stringFrom_surrogates ht ht' hleading htrailing, pairChar, hcode, Char.ofNat_toNat]

/-- **One character** is taken, however it is written. -/
theorem stringFrom_append (h : CharForm c t) (done s : Text) :
    stringFrom done (t ++ s) = stringFrom (c :: done) s := by
  cases h with
  | plain hcontrol hquote hbackslash =>
      rw [List.singleton_append, stringFrom.eq_7 _ _ _ hquote (fun _ h _ => hbackslash h)
        (fun h _ => hbackslash h) (fun _ _ h _ => hbackslash h), if_neg (by omega)]
  | @letter letter _ hletter =>
      rw [mem_letters_iff] at hletter
      have hu : letter = 'u' → False := by
        rintro rfl
        exact absurd hletter (by simp [escapedChar?])
      rw [List.cons_append, List.singleton_append, stringFrom.eq_6 _ _ _ hu, hletter]
  | units hunits => exact stringFrom_utf16 hunits done s

/-- All characters up to a quote are taken. -/
theorem stringFrom_of_charsForm (h : CharsForm u ts) (done rest : Text) :
    stringFrom done (ts ++ '"' :: rest) = .ok (done.reverse ++ u, rest) := by
  induction h generalizing done with
  | nil => rw [List.nil_append, stringFrom.eq_2, List.append_nil]
  | cons hc _ ih =>
      rw [List.append_assoc, stringFrom_append hc, ih, List.reverse_cons, List.append_assoc,
        List.singleton_append]

/-- **Nothing else** is taken. -/
theorem exists_of_stringFrom (h : stringFrom done s = .ok (v, rest)) :
    ∃ u ts, CharsForm u ts ∧ s = ts ++ '"' :: rest ∧ v = done.reverse ++ u := by
  -- One more character in front of those that the rest of the run has taken.
  have step : ∀ {c : Char} {t s done : Text}, CharForm c t →
      (∃ u ts, CharsForm u ts ∧ s = ts ++ '"' :: rest ∧ v = (c :: done).reverse ++ u) →
      ∃ u ts, CharsForm u ts ∧ t ++ s = ts ++ '"' :: rest ∧ v = done.reverse ++ u := by
    rintro c t s done hc ⟨u, ts, hu, rfl, rfl⟩
    refine ⟨c :: u, t ++ ts, .cons hc hu, (List.append_assoc ..).symm, ?_⟩
    rw [List.reverse_cons, List.append_assoc, List.singleton_append]
  fun_induction stringFrom done s with
  | case2 done rest' =>
      obtain ⟨rfl, rfl⟩ := Prod.mk.inj (Except.ok.inj h)
      exact ⟨[], [], .nil, rfl, (List.append_nil _).symm⟩
  | case6 done a b c d u hunit _ hleading a' b' c' d' s u' hunit' htrailing ih =>
      exact step (charForm_of_surrogates hunit hunit' hleading htrailing) (ih h)
  | case11 done a b c d s u hunit htrailing hleading ih =>
      exact step (charForm_of_codeUnit? hunit htrailing hleading) (ih h)
  | case14 done letter s _ c hletter ih =>
      exact step (.letter (mem_letters_iff.mpr hletter)) (ih h)
  | case17 done c s hquote hunit hend hletter hcontrol ih =>
      refine step (.plain (by omega) hquote ?_) (ih h)
      rintro rfl
      cases s with
      | nil => exact hend rfl rfl
      | cons letter s => exact hletter letter s rfl rfl
  | case1 | case3 | case4 | case5 | case7 | case8 | case9 | case10 | case12 | case13 | case15
  | case16 => exact absurd h (by simp)

/-- **The strings that are read** are those of the right form, up to the first quote that does not
belong to them. -/
theorem string_eq_ok_iff :
    string s = .ok (v, rest) ↔ ∃ ts, CharsForm v ts ∧ s = ts ++ '"' :: rest := by
  constructor
  · intro h
    obtain ⟨u, ts, hu, hs, rfl⟩ := exists_of_stringFrom h
    exact ⟨ts, hu, hs⟩
  · rintro ⟨ts, hv, rfl⟩
    exact stringFrom_of_charsForm hv [] rest

end Characters

end DocBlocks.Json
