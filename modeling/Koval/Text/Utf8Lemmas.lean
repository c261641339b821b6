import Koval.Text.Utf8

/-!
This module contains that the decoder gets back what was encoded, and how many characters it makes of
other bytes.
-/

namespace Utf8

theorem encode_eq_flatMap (s : String) : encode s = s.toList.flatMap String.utf8EncodeChar := by
  unfold encode
  rw [← String.utf8Encode_toList]
  simp [List.utf8Encode]

theorem isContinuation_iff {b : UInt8} : isContinuation b ↔ 128 ≤ b.toNat ∧ b.toNat ≤ 191 := by
  simp [isContinuation, UInt8.le_iff_toNat_le]

theorem secondOfThree_iff {b c : UInt8}
    : secondOfThree b c
        ↔
      128 ≤ c.toNat ∧ c.toNat ≤ 191 ∧ (b.toNat = 224 → 160 ≤ c.toNat)
        ∧ (b.toNat = 237 → c.toNat ≤ 159) := by
  simp only [secondOfThree, ← UInt8.toNat_inj, UInt8.reduceToNat]
  split
  . simp [UInt8.le_iff_toNat_le]
    omega
  . split
    . simp [UInt8.le_iff_toNat_le]
      omega
    . rw [isContinuation_iff]
      omega

theorem secondOfFour_iff {b c : UInt8}
    : secondOfFour b c
        ↔
      128 ≤ c.toNat ∧ c.toNat ≤ 191 ∧ (b.toNat = 240 → 144 ≤ c.toNat)
        ∧ (b.toNat = 244 → c.toNat ≤ 143) := by
  simp only [secondOfFour, ← UInt8.toNat_inj, UInt8.reduceToNat]
  split
  . simp [UInt8.le_iff_toNat_le]
    omega
  . split
    . simp [UInt8.le_iff_toNat_le]
      omega
    . rw [isContinuation_iff]
      omega

namespace decodeLossy

theorem first_one {b : UInt8} (hb : b.toNat < 128) (rest : Bytes)
    : first b rest = (Char.ofNat b.toNat, 0) := by
  unfold first
  rw [if_pos (UInt8.lt_iff_toNat_lt.mpr hb)]

theorem not_lt_128 {b : UInt8} (hb : 128 ≤ b.toNat) : ¬ b < 0x80 := by
  rw [UInt8.lt_iff_toNat_lt]
  simpa using hb

theorem between_iff {b lo hi : UInt8} : (lo ≤ b && b ≤ hi) ↔ lo.toNat ≤ b.toNat ∧ b.toNat ≤ hi.toNat := by
  simp [UInt8.le_iff_toNat_le]

theorem first_two {b b₁ : UInt8} (hb : 194 ≤ b.toNat ∧ b.toNat ≤ 223) (h₁ : isContinuation b₁)
    (rest : Bytes)
    : first b (b₁ :: rest) = (Char.ofNat (b.toNat % 32 * 64 + b₁.toNat % 64), 1) := by
  have h : (0xC2 ≤ b && b ≤ 0xDF) := between_iff.mpr hb
  unfold first
  simp [not_lt_128 (b := b) (by omega), h, h₁]

theorem first_three {b b₁ b₂ : UInt8} (hb : 224 ≤ b.toNat ∧ b.toNat ≤ 239)
    (h₁ : secondOfThree b b₁) (h₂ : isContinuation b₂) (rest : Bytes)
    : first b (b₁ :: b₂ :: rest)
        =
      (Char.ofNat ((b.toNat % 16 * 64 + b₁.toNat % 64) * 64 + b₂.toNat % 64), 2) := by
  have hnot : ¬ (0xC2 ≤ b && b ≤ 0xDF) := by
    rw [between_iff]
    simp
    omega
  have h : (0xE0 ≤ b && b ≤ 0xEF) := between_iff.mpr hb
  unfold first
  simp [not_lt_128 (b := b) (by omega), hnot, h, h₁, h₂]

theorem first_four {b b₁ b₂ b₃ : UInt8} (hb : 240 ≤ b.toNat ∧ b.toNat ≤ 244)
    (h₁ : secondOfFour b b₁) (h₂ : isContinuation b₂) (h₃ : isContinuation b₃) (rest : Bytes)
    : first b (b₁ :: b₂ :: b₃ :: rest)
        =
      (Char.ofNat (((b.toNat % 8 * 64 + b₁.toNat % 64) * 64 + b₂.toNat % 64) * 64
        + b₃.toNat % 64), 3) := by
  have hnot : ¬ (0xC2 ≤ b && b ≤ 0xDF) := by
    rw [between_iff]
    simp
    omega
  have hnot' : ¬ (0xE0 ≤ b && b ≤ 0xEF) := by
    rw [between_iff]
    simp
    omega
  have h : (0xF0 ≤ b && b ≤ 0xF4) := between_iff.mpr hb
  unfold first
  simp [not_lt_128 (b := b) (by omega), hnot, hnot', h, h₁, h₂, h₃]

theorem encodeChar_eq (c : Char)
    : String.utf8EncodeChar c
        =
      if c.toNat ≤ 127 then
        [UInt8.ofNat c.toNat]
      else if c.toNat ≤ 2047 then
        [UInt8.ofNat (c.toNat / 64 % 32 + 192), UInt8.ofNat (c.toNat % 64 + 128)]
      else if c.toNat ≤ 65535 then
        [UInt8.ofNat (c.toNat / 4096 % 16 + 224), UInt8.ofNat (c.toNat / 64 % 64 + 128),
          UInt8.ofNat (c.toNat % 64 + 128)]
      else
        [UInt8.ofNat (c.toNat / 262144 % 8 + 240), UInt8.ofNat (c.toNat / 4096 % 64 + 128),
          UInt8.ofNat (c.toNat / 64 % 64 + 128), UInt8.ofNat (c.toNat % 64 + 128)] := rfl

-- One case for each length of an encoded character.
theorem go_encodeChar_append (c : Char) (rest : Bytes)
    : go (String.utf8EncodeChar c ++ rest) 0 = c :: go rest 0 := by
  have hv : c.toNat < 0xD800 ∨ 0xDFFF < c.toNat ∧ c.toNat < 0x110000 := c.valid
  have hc : c = Char.ofNat c.toNat := (Char.ofNat_toNat c).symm
  rw [encodeChar_eq]
  generalize c.toNat = v at hv hc
  have hbyte : ∀ n, n < 256 → (UInt8.ofNat n).toNat = n := by
    intro n hn
    simpa using hn
  rw [hc]
  split
  . have hb := hbyte v (by omega)
    simp only [List.cons_append, List.nil_append, go]
    rw [first_one (by omega), hb]
  . have hlast := hbyte (v % 64 + 128) (by omega)
    split
    . have hb := hbyte (v / 64 % 32 + 192) (by omega)
      simp only [List.cons_append, List.nil_append, go]
      rw [first_two (by omega) (isContinuation_iff.mpr (by omega)), hb, hlast]
      simp only [go]
      congr 2
      omega
    . have hmid := hbyte (v / 64 % 64 + 128) (by omega)
      split
      . have hb := hbyte (v / 4096 % 16 + 224) (by omega)
        simp only [List.cons_append, List.nil_append, go]
        rw [first_three (by omega) (secondOfThree_iff.mpr (by omega))
          (isContinuation_iff.mpr (by omega)), hb, hmid, hlast]
        simp only [go]
        congr 2
        omega
      . have hb := hbyte (v / 262144 % 8 + 240) (by omega)
        have hsecond := hbyte (v / 4096 % 64 + 128) (by omega)
        simp only [List.cons_append, List.nil_append, go]
        rw [first_four (by omega) (secondOfFour_iff.mpr (by omega))
          (isContinuation_iff.mpr (by omega)) (isContinuation_iff.mpr (by omega)), hb, hsecond, hmid,
          hlast]
        simp only [go]
        congr 2
        omega

theorem first_continuation {b : UInt8} (hb : isContinuation b) (rest : Bytes)
    : first b rest = (replacement, 0) := by
  rw [isContinuation_iff] at hb
  have hnot : ∀ lo hi : UInt8, 191 < lo.toNat → ¬ (lo ≤ b && b ≤ hi) := by
    intro lo hi hlo h
    rw [between_iff] at h
    omega
  unfold first
  rw [if_neg (not_lt_128 hb.left), if_neg (hnot _ _ (by decide)), if_neg (hnot _ _ (by decide)),
    if_neg (hnot _ _ (by decide))]

theorem any_isContinuation {rest : Bytes} {i : Nat} {p : UInt8 → Bool}
    (hp : ∀ c, p c → isContinuation c) (h : ¬ (!rest[i]?.any p) = true)
    : rest[i]?.any isContinuation := by
  rw [Bool.not_eq_true, Bool.not_eq_false', Option.any_eq_true] at h
  rcases h with ⟨c, hc, hpc⟩
  rw [Option.any_eq_true]
  exact ⟨c, hc, hp c hpc⟩

theorem isContinuation_of_secondOfThree (b c : UInt8) (h : secondOfThree b c)
    : isContinuation c := by
  rw [secondOfThree_iff] at h
  exact isContinuation_iff.mpr ⟨h.left, h.right.left⟩

theorem isContinuation_of_secondOfFour (b c : UInt8) (h : secondOfFour b c) : isContinuation c := by
  rw [secondOfFour_iff] at h
  exact isContinuation_iff.mpr ⟨h.left, h.right.left⟩

theorem isContinuation_of_lt_first {b : UInt8} {rest : Bytes} {i : Nat} (hi : i < (first b rest).snd)
    : rest[i]?.any isContinuation := by
  have hself : ∀ c, isContinuation c → isContinuation c := fun _ h => h
  unfold first at hi
  dsimp only at hi
  split at hi
  . exact absurd hi (Nat.not_lt_zero i)
  . split at hi
    . split at hi
      . exact absurd hi (Nat.not_lt_zero i)
      . next h₀ =>
        have hi : i = 0 := by simpa using hi
        rw [hi]
        exact any_isContinuation hself h₀
    . split at hi
      . split at hi
        . exact absurd hi (Nat.not_lt_zero i)
        . next h₀ =>
          have h₀ := any_isContinuation (isContinuation_of_secondOfThree b) h₀
          split at hi
          . have hi : i = 0 := by simpa using hi
            rw [hi]
            exact h₀
          . next h₁ =>
            have hi : i = 0 ∨ i = 1 := by
              dsimp only at hi
              omega
            rcases hi with rfl | rfl
            . exact h₀
            . exact any_isContinuation hself h₁
      . split at hi
        . split at hi
          . exact absurd hi (Nat.not_lt_zero i)
          . next h₀ =>
            have h₀ := any_isContinuation (isContinuation_of_secondOfFour b) h₀
            split at hi
            . have hi : i = 0 := by simpa using hi
              rw [hi]
              exact h₀
            . next h₁ =>
              have h₁ := any_isContinuation hself h₁
              split at hi
              . have hi : i = 0 ∨ i = 1 := by
                  dsimp only at hi
                  omega
                rcases hi with rfl | rfl
                . exact h₀
                . exact h₁
              . next h₂ =>
                have hi : i = 0 ∨ i = 1 ∨ i = 2 := by
                  dsimp only at hi
                  omega
                rcases hi with rfl | rfl | rfl
                . exact h₀
                . exact h₁
                . exact any_isContinuation hself h₂
        . exact absurd hi (Nat.not_lt_zero i)

theorem length_go_le {rest : Bytes} {skip : Nat}
    (h : ∀ i, i < skip → rest[i]?.any isContinuation)
    : (go rest skip).length ≤ (go rest 0).length := by
  induction skip generalizing rest with
  | zero => exact Nat.le_refl _
  | succ skip ih =>
    cases rest with
    | nil => exact Nat.le_refl _
    | cons c rest =>
      have hc : isContinuation c := h 0 (by omega)
      have ih := @ih rest fun i hi => h (i + 1) (by omega)
      have hgo : go (c :: rest) 0 = replacement :: go rest 0 := by
        simp only [go, first_continuation hc]
      rw [hgo, go, List.length_cons]
      omega

end decodeLossy

theorem encodeChar_of_lt {c : Char} (h : c.toNat < 128)
    : String.utf8EncodeChar c = [UInt8.ofNat c.toNat] := by
  rw [decodeLossy.encodeChar_eq, if_pos (by omega)]

theorem le_of_mem_encodeChar {c : Char} (h : 128 ≤ c.toNat) {b : UInt8}
    (hb : b ∈ String.utf8EncodeChar c)
    : 128 ≤ b.toNat := by
  rw [decodeLossy.encodeChar_eq, if_neg (by omega)] at hb
  split at hb
  . simp only [List.mem_cons, List.not_mem_nil, or_false] at hb
    rcases hb with rfl | rfl <;> simp <;> omega
  . split at hb
    . simp only [List.mem_cons, List.not_mem_nil, or_false] at hb
      rcases hb with rfl | rfl | rfl <;> simp <;> omega
    . simp only [List.mem_cons, List.not_mem_nil, or_false] at hb
      rcases hb with rfl | rfl | rfl | rfl <;> simp <;> omega

theorem decodeLossy_encodeChar_append (c : Char) (rest : Bytes)
    : decodeLossy (String.utf8EncodeChar c ++ rest) = c :: decodeLossy rest :=
  decodeLossy.go_encodeChar_append c rest

theorem decodeLossy_flatMap (cs : List Char)
    : decodeLossy (cs.flatMap String.utf8EncodeChar) = cs := by
  induction cs with
  | nil => rfl
  | cons c cs ih => rw [List.flatMap_cons, decodeLossy_encodeChar_append, ih]

theorem suffix_of_flatMap {cs suf : List Char} (hsuf : ∀ c ∈ suf, c.toNat < 128)
    (h : suf.flatMap String.utf8EncodeChar <:+ cs.flatMap String.utf8EncodeChar)
    : suf <:+ cs := by
  have hinj : ∀ {cs cs' : List Char},
      cs.flatMap String.utf8EncodeChar = cs'.flatMap String.utf8EncodeChar → cs = cs' := by
    intro cs cs' heq
    rw [← decodeLossy_flatMap cs, heq, decodeLossy_flatMap]
  induction cs with
  | nil =>
    have hnil : suf = [] := hinj (List.suffix_nil.mp h)
    subst hnil
    exact List.nil_suffix
  | cons d cs ih =>
    rw [List.flatMap_cons] at h
    rcases List.suffix_or_suffix_of_suffix h (List.suffix_append _ _) with hshort | ⟨e, hlong⟩
    . exact (ih hshort).trans (List.suffix_cons d cs)
    . rcases h with ⟨pre, h⟩
      rw [← hlong, ← List.append_assoc] at h
      have hd : pre ++ e = String.utf8EncodeChar d := List.append_cancel_right h
      cases e with
      | nil =>
        rw [← hinj hlong]
        exact List.suffix_cons d cs
      | cons b e =>
        -- The bytes from `d` are among those of characters of one byte.
        have hb : b.toNat < 128 := by
          have hmem : b ∈ suf.flatMap String.utf8EncodeChar := by
            rw [← hlong]
            exact List.mem_cons_self
          rcases List.mem_flatMap.mp hmem with ⟨c, hc, hbc⟩
          rw [encodeChar_of_lt (hsuf c hc), List.mem_singleton] at hbc
          have := hsuf c hc
          rw [hbc]
          simp
          omega
        have hdlt : d.toNat < 128 := by
          by_contra hge
          have hmem : b ∈ String.utf8EncodeChar d := by
            rw [← hd]
            simp
          have := le_of_mem_encodeChar (by omega) hmem
          omega
        rw [encodeChar_of_lt hdlt] at hd
        have hpre : pre = [] := by
          have := congrArg List.length hd
          simp only [List.length_append, List.length_cons, List.length_nil] at this
          exact List.eq_nil_of_length_eq_zero (by omega)
        rw [hpre, List.nil_append, ← encodeChar_of_lt hdlt] at hd
        have hsame : suf = d :: cs := by
          apply hinj
          rw [List.flatMap_cons, ← hd, hlong]
        exact hsame ▸ List.suffix_rfl

theorem decodeLossy_encode (s : String) : decodeLossy (encode s) = s.toList := by
  rw [encode_eq_flatMap, decodeLossy_flatMap]

theorem length_decodeLossy_cons_le (b : UInt8) (rest : Bytes)
    : (decodeLossy (b :: rest)).length ≤ (decodeLossy rest).length + 1 := by
  have h := decodeLossy.length_go_le fun i => @decodeLossy.isContinuation_of_lt_first b rest i
  unfold decodeLossy
  rw [decodeLossy.go, List.length_cons]
  omega

end Utf8
