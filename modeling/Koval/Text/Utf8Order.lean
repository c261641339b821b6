import Koval.Text.Utf8Lemmas

/-!
This module contains that UTF-8 keeps the order of texts.
-/

namespace Utf8

theorem ofNat_lt_ofNat_iff {m n : Nat} (hm : m < 256) (hn : n < 256)
    : UInt8.ofNat m < UInt8.ofNat n ↔ m < n := by
  rw [UInt8.lt_iff_toNat_lt, UInt8.toNat_ofNat_of_lt' hm, UInt8.toNat_ofNat_of_lt' hn]

theorem ofNat_eq_ofNat_iff {m n : Nat} (hm : m < 256) (hn : n < 256)
    : UInt8.ofNat m = UInt8.ofNat n ↔ m = n := by
  rw [← UInt8.toNat_inj, UInt8.toNat_ofNat_of_lt' hm, UInt8.toNat_ofNat_of_lt' hn]

theorem encodeChar_append_lt {c d : Char} (h : c < d) (rest rest' : Bytes)
    : String.utf8EncodeChar c ++ rest < String.utf8EncodeChar d ++ rest' := by
  have hcd : c.toNat < d.toNat := h
  have hd : d.toNat < 0xD800 ∨ 0xDFFF < d.toNat ∧ d.toNat < 0x110000 := d.valid
  have hdiv : ∀ k, k / 4096 = k / 64 / 64 ∧ k / 262144 = k / 64 / 64 / 64 := by
    intro k
    omega
  rw [decodeLossy.encodeChar_eq, decodeLossy.encodeChar_eq]
  generalize c.toNat = m at hcd
  generalize d.toNat = n at hcd hd
  simp only [hdiv]
  -- Texts of different lengths differ in their first bytes.
  repeat' split
  all_goals
    simp (disch := omega) only [List.cons_append, List.nil_append, List.cons_lt_cons_iff,
      ofNat_lt_ofNat_iff, ofNat_eq_ofNat_iff]
    omega

theorem flatMap_encodeChar_lt {cs ds : List Char} (h : cs < ds)
    : cs.flatMap String.utf8EncodeChar < ds.flatMap String.utf8EncodeChar := by
  induction cs generalizing ds with
  | nil =>
    cases ds with
    | nil => simp at h
    | cons d ds =>
      cases hd : String.utf8EncodeChar d with
      | nil => exact absurd hd String.utf8EncodeChar_ne_nil
      | cons b rest =>
        rw [List.flatMap_cons, hd]
        exact List.nil_lt_cons _ _
  | cons c cs ih =>
    cases ds with
    | nil => simp at h
    | cons d ds =>
      rw [List.cons_lt_cons_iff] at h
      rw [List.flatMap_cons, List.flatMap_cons]
      rcases h with hlt | ⟨rfl, hlt⟩
      . exact encodeChar_append_lt hlt _ _
      . exact List.append_left_lt (ih hlt)

theorem encode_lt_iff {s t : String} : encode s < encode t ↔ s < t := by
  have hmono : ∀ {s t : String}, s < t → encode s < encode t := by
    intro s t h
    rw [encode_eq_flatMap, encode_eq_flatMap]
    exact flatMap_encodeChar_lt (String.lt_iff_toList_lt.mp h)
  constructor
  . intro h
    rw [← not_le]
    intro hle
    rcases hle.lt_or_eq with hlt | heq
    . exact List.lt_asymm h (hmono hlt)
    . rw [heq] at h
      exact List.lt_irrefl _ h
  . exact hmono

theorem encode_le_iff {s t : String} : encode s ≤ encode t ↔ s ≤ t := by
  rw [← List.not_lt, encode_lt_iff, not_lt]

end Utf8
