import DocBlocks.Text.Utf8

/-!
# Texts Read Back from Bytes

The bytes that a text is written as are read as that text. A character is written as one to four
bytes; the first says how many follow, and all together hold its code point, six bits in each byte
but the first. What reading rules out are bytes that no character is written as: the limits on
the second byte are those of the code points that need as many bytes, and that are none of
surrogates.

## Main results

* `decode?_utf8`: a text that is written is read back.
-/

namespace DocBlocks.Text

namespace Decoded

variable {units : List (Option Char)} {n : Nat}

/-! ### Bytes as numbers -/

theorem ofNat_lt_iff (hn : n < 256) (b : UInt8) : UInt8.ofNat n < b ↔ n < b.toNat := by
  rw [UInt8.lt_iff_toNat_lt, UInt8.toNat_ofNat_of_lt' hn]

theorem ofNat_beq_iff (hn : n < 256) (b : UInt8) : (UInt8.ofNat n == b) = true ↔ n = b.toNat := by
  rw [beq_iff_eq, ← UInt8.toNat_inj, UInt8.toNat_ofNat_of_lt' hn]

/-! ### The first byte -/

theorem lead_one (h : n < 128) :
    lead units (UInt8.ofNat n) = ⟨some (Char.ofNat n) :: units, none⟩ := by
  have hn : n < 256 := by omega
  have hlow : UInt8.ofNat n < 0x80 := (ofNat_lt_iff hn _).mpr h
  rw [lead, if_pos hlow, UInt8.toNat_ofNat_of_lt' hn]

theorem lead_two (hlow : 194 ≤ n) (hhigh : n < 224) :
    lead units (UInt8.ofNat n) = ⟨units, some ⟨n % 32, 0, 0x80, 0xBF⟩⟩ := by
  have hn : n < 256 := by omega
  simp only [lead, ofNat_lt_iff hn, UInt8.toNat_ofNat_of_lt' hn, UInt8.reduceToNat]
  rw [if_neg (by omega), if_neg (by omega), if_pos hhigh]

theorem lead_three (hlow : 224 ≤ n) (hhigh : n < 240) :
    lead units (UInt8.ofNat n) = ⟨units, some ⟨n % 16, 1, if n = 224 then 0xA0 else 0x80,
      if n = 237 then 0x9F else 0xBF⟩⟩ := by
  have hn : n < 256 := by omega
  simp only [lead, ofNat_lt_iff hn, ofNat_beq_iff hn, UInt8.toNat_ofNat_of_lt' hn,
    UInt8.reduceToNat]
  rw [if_neg (by omega), if_neg (by omega), if_neg (by omega)]
  by_cases hfirst : n = 224
  · rw [if_pos hfirst, if_pos hfirst, if_neg (by omega)]
  · rw [if_neg hfirst, if_neg hfirst]
    by_cases hsurrogates : n = 237
    · rw [if_pos hsurrogates, if_pos hsurrogates]
    · rw [if_neg hsurrogates, if_neg hsurrogates, if_pos hhigh]

theorem lead_four (hlow : 240 ≤ n) (hhigh : n ≤ 244) :
    lead units (UInt8.ofNat n) = ⟨units, some ⟨n % 8, 2, if n = 240 then 0x90 else 0x80,
      if n = 244 then 0x8F else 0xBF⟩⟩ := by
  have hn : n < 256 := by omega
  simp only [lead, ofNat_lt_iff hn, ofNat_beq_iff hn, UInt8.toNat_ofNat_of_lt' hn,
    UInt8.reduceToNat]
  rw [if_neg (by omega), if_neg (by omega), if_neg (by omega), if_neg (by omega),
    if_neg (by omega), if_neg (by omega)]
  by_cases hfirst : n = 240
  · rw [if_pos hfirst, if_pos hfirst, if_neg (by omega)]
  · rw [if_neg hfirst, if_neg hfirst]
    by_cases hlast : n = 244
    · rw [if_neg (by omega), if_pos hlast, if_pos hlast]
    · rw [if_pos (by omega), if_neg hlast]

/-! ### The bytes behind it -/

theorem feed_last {code : Nat} {low high : UInt8} (hn : n < 256) (hlow : low.toNat ≤ n)
    (hhigh : n ≤ high.toNat) :
    feed ⟨units, some ⟨code, 0, low, high⟩⟩ (UInt8.ofNat n) =
      ⟨some (Char.ofNat (code * 64 + n % 64)) :: units, none⟩ := by
  have hwithin : (low ≤ UInt8.ofNat n && UInt8.ofNat n ≤ high) = true := by
    simp [UInt8.le_iff_toNat_le, UInt8.toNat_ofNat_of_lt' hn, hlow, hhigh]
  simp only [feed]
  rw [if_pos hwithin, UInt8.toNat_ofNat_of_lt' hn]

theorem feed_inner {code more : Nat} {low high : UInt8} (hn : n < 256) (hlow : low.toNat ≤ n)
    (hhigh : n ≤ high.toNat) :
    feed ⟨units, some ⟨code, more + 1, low, high⟩⟩ (UInt8.ofNat n) =
      ⟨units, some ⟨code * 64 + n % 64, more, 0x80, 0xBF⟩⟩ := by
  have hwithin : (low ≤ UInt8.ofNat n && UInt8.ofNat n ≤ high) = true := by
    simp [UInt8.le_iff_toNat_le, UInt8.toNat_ofNat_of_lt' hn, hlow, hhigh]
  simp only [feed]
  rw [if_pos hwithin, UInt8.toNat_ofNat_of_lt' hn]

/-! ### Characters -/

/-- **A character** is read back from the bytes that it is written as. -/
theorem foldl_feed_utf8EncodeChar (units : List (Option Char)) (c : Char) :
    (String.utf8EncodeChar c).foldl feed ⟨units, none⟩ = ⟨some c :: units, none⟩ := by
  have hchar : Char.ofNat c.val.toNat = c := Char.ofNat_toNat c
  have hvalid : c.val.toNat < 55296 ∨ 57343 < c.val.toNat ∧ c.val.toNat < 1114112 := c.valid
  rw [String.utf8EncodeChar]
  generalize c.val.toNat = v at hchar hvalid
  have hlead : ∀ b, feed ⟨units, none⟩ b = lead units b := fun b => rfl
  by_cases hone : v ≤ 127
  · rw [if_pos hone, List.foldl_cons, List.foldl_nil, hlead, lead_one (by omega), hchar]
  rw [if_neg hone]
  by_cases htwo : v ≤ 2047
  · rw [if_pos htwo, List.foldl_cons, List.foldl_cons, List.foldl_nil, hlead,
      lead_two (by omega) (by omega), feed_last (by omega) (by simp) (by simp; omega)]
    have hcode : (v / 64 % 32 + 192) % 32 * 64 + (v % 64 + 128) % 64 = v := by omega
    rw [hcode, hchar]
  rw [if_neg htwo]
  by_cases hthree : v ≤ 65535
  · rw [if_pos hthree, List.foldl_cons, List.foldl_cons, List.foldl_cons, List.foldl_nil, hlead,
      lead_three (by omega) (by omega), feed_inner (by omega) ?_ ?_,
      feed_last (by omega) (by simp) (by simp; omega)]
    · have hcode : ((v / 4096 % 16 + 224) % 16 * 64 + (v / 64 % 64 + 128) % 64) * 64 +
          (v % 64 + 128) % 64 = v := by omega
      rw [hcode, hchar]
    · split
      · simp; omega
      · simp
    · split
      · simp; omega
      · simp; omega
  · rw [if_neg hthree, List.foldl_cons, List.foldl_cons, List.foldl_cons, List.foldl_cons,
      List.foldl_nil, hlead, lead_four (by omega) (by omega), feed_inner (by omega) ?_ ?_,
      feed_inner (by omega) (by simp) (by simp; omega),
      feed_last (by omega) (by simp) (by simp; omega)]
    · have hcode : (((v / 262144 % 8 + 240) % 8 * 64 + (v / 4096 % 64 + 128) % 64) * 64 +
          (v / 64 % 64 + 128) % 64) * 64 + (v % 64 + 128) % 64 = v := by omega
      rw [hcode, hchar]
    · split
      · simp; omega
      · simp
    · split
      · simp; omega
      · simp; omega

theorem foldl_feed_utf8 (units : List (Option Char)) (s : Text) :
    (utf8 s).foldl feed ⟨units, none⟩ = ⟨(s.map some).reverse ++ units, none⟩ := by
  induction s generalizing units with
  | nil => rfl
  | cons c s ih =>
      rw [utf8, List.flatMap_cons, List.foldl_append, foldl_feed_utf8EncodeChar, ← utf8, ih]
      simp

end Decoded

/-- **A text that is written is read back.** -/
theorem decode?_utf8 (s : Text) : decode? (utf8 s) = some s := by
  have hunits : units (utf8 s) = s.map some := by
    rw [units, Decoded.foldl_feed_utf8, Decoded.finish, List.append_nil]
    exact List.reverse_reverse _
  rw [decode?, hunits]
  simp

end DocBlocks.Text
