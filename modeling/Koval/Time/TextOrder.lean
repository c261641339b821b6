import Koval.Text.Utf8Order
import Koval.Time.DateTime

/-!
This module contains that the texts of instants are in the order of the instants, byte by byte.
-/

namespace DateTime

open Utf8

theorem toRfc3339_inj {a b : DateTime} (ha : a.InRange) (hb : b.InRange)
    : a.toRfc3339 = b.toRfc3339 ↔ a = b := by
  constructor
  . intro h
    rcases lt_trichotomy a.nanos b.nanos with hlt | heq | hgt
    . exact absurd h (toRfc3339_lt ha hb hlt).ne
    . exact congrArg DateTime.mk heq
    . exact absurd h (toRfc3339_lt hb ha hgt).ne'
  . intro h
    rw [h]

/--
The database compares texts byte by byte: those with as many digits as they need as the instants, and
those with three digits with them as the milliseconds.
-/
theorem texts_sorted {a b : DateTime} (ha : a.InRange) (hb : b.InRange)
    : (encode a.toRfc3339 < encode b.toRfc3339 ↔ a.nanos < b.nanos)
        ∧
      (encode a.toRfc3339 = encode b.toRfc3339 ↔ a = b)
        ∧
      (encode b.toRfc3339 ≤ encode a.toRfc3339Millis ↔ b.floorMillis ≤ a.floorMillis) := by
  refine ⟨?_, ?_, ?_⟩
  . rw [encode_lt_iff]
    exact toRfc3339_lt_iff ha hb
  . rw [encode_inj]
    exact toRfc3339_inj ha hb
  . rw [encode_le_iff, ← not_lt, toRfc3339Millis_lt_toRfc3339_iff ha hb.right, not_lt]

-- A whole second and a nanosecond before the next millisecond.
theorem texts_sorted_fractions
    : encode (⟨63946371181000000000⟩ : DateTime).toRfc3339
        < encode (⟨63946371181000999999⟩ : DateTime).toRfc3339
        ∧
      encode (⟨63946371181000999999⟩ : DateTime).toRfc3339
        ≤ encode (⟨63946371181000000000⟩ : DateTime).toRfc3339Millis := by
  have hrange : (⟨63946371181000000000⟩ : DateTime).InRange := by decide
  have hrange' : (⟨63946371181000999999⟩ : DateTime).InRange := by decide
  exact ⟨(texts_sorted hrange hrange').left.mpr (by decide),
    (texts_sorted hrange hrange').right.right.mpr (by decide)⟩

end DateTime
