import Koval.Text.Utf8Lemmas

/-!
This module contains the decoding of queries as `application/x-www-form-urlencoded`, and which texts
it leaves as they are.
-/

namespace FormUrlEncoded

abbrev Bytes := Utf8.Bytes

def hexValue? (c : Char) : Option Nat :=
  if c.isDigit then some (c.toNat - 48)
  else if 'a' ≤ c && c ≤ 'f' then some (c.toNat - 87)
  else if 'A' ≤ c && c ≤ 'F' then some (c.toNat - 55)
  else none

def unescape? (b high low : UInt8) : Option UInt8 :=
  if b = 0x25 then
    match hexValue? (Char.ofNat high.toNat), hexValue? (Char.ofNat low.toNat) with
    | some high, some low => some (UInt8.ofNat (high * 16 + low))
    | _, _ => none
  else
    none

def percentDecode (bytes : Bytes) : Bytes :=
  match bytes with
  | b :: high :: low :: rest =>
    match unescape? b high low with
    | some c => c :: percentDecode rest
    -- what escapes nothing stays
    | none => b :: percentDecode (high :: low :: rest)
  | bytes => bytes

def replacePlus (bytes : Bytes) : Bytes := bytes.map fun b => if b = 0x2B then 0x20 else b

def decode (bytes : Bytes) : String := Utf8.toStringLossy (percentDecode (replacePlus bytes))

def parsePair (pair : Bytes) : String × String :=
  (decode (pair.takeWhile (· ≠ 0x3D)), decode ((pair.dropWhile (· ≠ 0x3D)).drop 1))

def parse (query : Bytes) : List (String × String) :=
  ((query.splitOn 0x26).filter (· ≠ [])).map parsePair

example : parse (Utf8.encode "a=b+c&&d=%E2%82%AC%&e")
    = [("a", "b c"), ("d", "€%"), ("e", "")] := by
  decide

-- The bytes of a text

def bytes (cs : List Char) : Bytes := cs.flatMap String.utf8EncodeChar

theorem bytes_cons (c : Char) (cs : List Char)
    : bytes (c :: cs) = String.utf8EncodeChar c ++ bytes cs := List.flatMap_cons

theorem bytes_append (cs cs' : List Char) : bytes (cs ++ cs') = bytes cs ++ bytes cs' :=
  List.flatMap_append

theorem bytes_cons_of_lt {c : Char} (h : c.toNat < 128) (cs : List Char)
    : bytes (c :: cs) = UInt8.ofNat c.toNat :: bytes cs := by
  rw [bytes_cons, Utf8.encodeChar_of_lt h]
  rfl

theorem toNat_ofNat_toNat {c : Char} (h : c.toNat < 128) : (UInt8.ofNat c.toNat).toNat = c.toNat := by
  simp
  omega

theorem mem_of_mem_bytes {a : Char} (ha : a.toNat < 128) {cs : List Char}
    (h : UInt8.ofNat a.toNat ∈ bytes cs)
    : a ∈ cs := by
  rw [bytes, List.mem_flatMap] at h
  rcases h with ⟨c, hc, hmem⟩
  have hlt : c.toNat < 128 := by
    by_contra hge
    have := Utf8.le_of_mem_encodeChar (Nat.le_of_not_lt hge) hmem
    rw [toNat_ofNat_toNat ha] at this
    omega
  rw [Utf8.encodeChar_of_lt hlt, List.mem_singleton] at hmem
  have hnat := congrArg UInt8.toNat hmem
  rw [toNat_ofNat_toNat ha, toNat_ofNat_toNat hlt] at hnat
  rw [← Char.ofNat_toNat a, hnat, Char.ofNat_toNat]
  exact hc

section Until

variable {α : Type} [DecidableEq α] {sep : α} {xs : List α} (h : sep ∉ xs)
include h

theorem ne_of_notMem : ∀ x ∈ xs, decide (x ≠ sep) := by
  intro x hx
  rw [decide_eq_true_eq]
  rintro rfl
  exact h hx

theorem takeWhile_ne_append (ys : List α)
    : (xs ++ sep :: ys).takeWhile (· ≠ sep) = xs ∧ (xs ++ sep :: ys).dropWhile (· ≠ sep) = sep :: ys := by
  rw [List.takeWhile_append_of_pos (ne_of_notMem h), List.dropWhile_append_of_pos (ne_of_notMem h)]
  simp

theorem takeWhile_ne_of_notMem : xs.takeWhile (· ≠ sep) = xs := by
  have htake := @List.takeWhile_append_of_pos _ _ _ [] (ne_of_notMem h)
  simpa using htake

end Until

theorem parsePair_bytes {name : List Char} (hname : '=' ∉ name) (value : List Char)
    : parsePair (bytes (name ++ '=' :: value)) = (decode (bytes name), decode (bytes value)) := by
  have hnot : (0x3D : UInt8) ∉ bytes name := fun h => hname (mem_of_mem_bytes (by decide) h)
  have ⟨htake, hdrop⟩ := takeWhile_ne_append hnot (bytes value)
  have hpair : bytes (name ++ '=' :: value) = bytes name ++ 0x3D :: bytes value := by
    rw [bytes_append, bytes_cons_of_lt (by decide)]
    rfl
  unfold parsePair
  rw [hpair, htake, hdrop]
  rfl

theorem parse_bytes {name value : List Char} (hname : '=' ∉ name) (hname' : '&' ∉ name)
    (hvalue : '&' ∉ value)
    : parse (bytes (name ++ '=' :: value)) = [(decode (bytes name), decode (bytes value))] := by
  have hnot : (0x26 : UInt8) ∉ bytes (name ++ '=' :: value) := by
    intro h
    have hmem := mem_of_mem_bytes (a := '&') (by decide) h
    simp only [List.mem_append, List.mem_cons] at hmem
    rcases hmem with hmem | hmem | hmem
    . exact hname' hmem
    . contradiction
    . exact hvalue hmem
  have hne : bytes (name ++ '=' :: value) ≠ [] := by
    rw [bytes_append, bytes_cons_of_lt (by decide)]
    simp
  unfold parse
  rw [List.splitOn_eq_singleton hnot, List.filter_cons_of_pos (by simpa using hne), List.filter_nil,
    List.map_singleton, parsePair_bytes hname]

theorem parse_bytes_append {name value : List Char} (hname : '=' ∉ name) (hname' : '&' ∉ name)
    (hvalue : '&' ∉ value) (cs : List Char)
    : parse (bytes (name ++ '=' :: value ++ '&' :: cs))
        =
      (decode (bytes name), decode (bytes value)) :: parse (bytes cs) := by
  have hsplit : bytes (name ++ '=' :: value ++ '&' :: cs)
      = bytes (name ++ '=' :: value) ++ 0x26 :: bytes cs := by
    rw [bytes_append, bytes_cons_of_lt (by decide)]
    rfl
  have hfirst := parse_bytes hname hname' hvalue
  unfold parse at *
  rw [hsplit, List.splitOn_append_cons_self, List.filter_append, List.map_append, hfirst]
  rfl

-- What decoding leaves

def escapes (cs : List Char) : Bool :=
  match cs with
  | c :: high :: low :: rest =>
    c = '%' && (hexValue? high).isSome && (hexValue? low).isSome || escapes (high :: low :: rest)
  | _ => false

def IsPlain (cs : List Char) : Prop := '+' ∉ cs ∧ escapes cs = false

theorem toNat_lt_of_hexValue? {c : Char} (h : (hexValue? c).isSome) : c.toNat < 128 := by
  unfold hexValue? at h
  split at h
  . next hdigit =>
    simp [Char.isDigit, UInt32.le_iff_toNat_le] at hdigit
    exact Nat.lt_of_le_of_lt hdigit.right (by decide)
  . split at h
    . next hlower =>
      simp [Char.le_def, UInt32.le_iff_toNat_le] at hlower
      exact Nat.lt_of_le_of_lt hlower.right (by decide)
    . split at h
      . next hupper =>
        simp [Char.le_def, UInt32.le_iff_toNat_le] at hupper
        exact Nat.lt_of_le_of_lt hupper.right (by decide)
      . contradiction

theorem exists_of_hexValue? {cs : List Char} {b : UInt8} {rest : Bytes} (h : bytes cs = b :: rest)
    (hb : (hexValue? (Char.ofNat b.toNat)).isSome)
    : ∃ c cs', cs = c :: cs' ∧ (hexValue? c).isSome ∧ rest = bytes cs' := by
  have hlt : b.toNat < 128 := by
    have hlt := toNat_lt_of_hexValue? hb
    have hvalid : b.toNat.isValidChar := by
      have := b.toNat_lt
      left
      omega
    unfold Char.ofNat at hlt
    rw [dif_pos hvalid] at hlt
    exact hlt
  cases cs with
  | nil => contradiction
  | cons c cs =>
    have hc : c.toNat < 128 := by
      by_contra hge
      rw [bytes_cons] at h
      have hmem : b ∈ String.utf8EncodeChar c := by
        cases henc : String.utf8EncodeChar c with
        | nil => simp [String.utf8EncodeChar_ne_nil] at henc
        | cons b' _ =>
          rw [henc] at h
          injection h with h
          rw [h]
          exact List.mem_cons_self
      have := Utf8.le_of_mem_encodeChar (Nat.le_of_not_lt hge) hmem
      omega
    rw [bytes_cons_of_lt hc] at h
    injection h with h hrest
    rw [← h, toNat_ofNat_toNat hc, Char.ofNat_toNat] at hb
    exact ⟨c, cs, rfl, hb, hrest.symm⟩

theorem percentDecode_cons_of_ne {b : UInt8} (hb : b ≠ 0x25) (rest : Bytes)
    : percentDecode (b :: rest) = b :: percentDecode rest := by
  cases rest with
  | nil => rfl
  | cons high rest =>
    cases rest with
    | nil => rfl
    | cons low rest =>
      have hnone : unescape? b high low = none := if_neg hb
      rw [percentDecode, hnone]

theorem percentDecode_append {xs : Bytes} (hxs : 0x25 ∉ xs) (rest : Bytes)
    : percentDecode (xs ++ rest) = xs ++ percentDecode rest := by
  induction xs with
  | nil => rfl
  | cons b xs ih =>
    rw [List.mem_cons, not_or] at hxs
    rw [List.cons_append, percentDecode_cons_of_ne (Ne.symm hxs.left), ih hxs.right]
    rfl

theorem unescape?_percent (high low : UInt8)
    : (unescape? 0x25 high low).isSome
        =
      ((hexValue? (Char.ofNat high.toNat)).isSome && (hexValue? (Char.ofNat low.toNat)).isSome) := by
  unfold unescape?
  rw [if_pos rfl]
  cases hexValue? (Char.ofNat high.toNat) <;> cases hexValue? (Char.ofNat low.toNat) <;> rfl

theorem percentDecode_percent_cons {cs : List Char}
    (hnone : ∀ high low rest, cs = high :: low :: rest →
      ¬ ((hexValue? high).isSome ∧ (hexValue? low).isSome))
    : percentDecode (0x25 :: bytes cs) = 0x25 :: percentDecode (bytes cs) := by
  match hbytes : bytes cs with
  | [] | [_] => rfl
  | high :: low :: rest =>
    have hunescape : unescape? 0x25 high low = none := by
      rw [← Option.not_isSome_iff_eq_none, unescape?_percent, Bool.and_eq_true]
      rintro ⟨hhigh, hlow⟩
      rcases exists_of_hexValue? hbytes hhigh with ⟨c, cs', hcs, hc, hrest⟩
      rcases exists_of_hexValue? hrest.symm hlow with ⟨c', rest', rfl, hc', _⟩
      exact hnone c c' rest' hcs ⟨hc, hc'⟩
    rw [percentDecode, hunescape]

theorem escapes_percent_cons {cs : List Char}
    (hnone : ∀ high low rest, cs = high :: low :: rest →
      ¬ ((hexValue? high).isSome ∧ (hexValue? low).isSome))
    : escapes ('%' :: cs) = escapes cs := by
  match cs with
  | [] | [_] => rfl
  | high :: low :: rest =>
    have := hnone high low rest rfl
    rw [escapes]
    simp_all

theorem percentDecode_bytes_cons (c : Char) (cs : List Char)
    : (∃ high low rest b,
          cs = high :: low :: rest ∧ percentDecode (bytes (c :: cs)) = b :: percentDecode (bytes rest)
            ∧ escapes (c :: cs))
        ∨
      percentDecode (bytes (c :: cs)) = String.utf8EncodeChar c ++ percentDecode (bytes cs)
        ∧ escapes (c :: cs) = escapes cs := by
  by_cases hc : c = '%'
  . rw [hc, bytes_cons_of_lt (by decide)]
    by_cases hhead : ∃ high low rest,
        cs = high :: low :: rest ∧ (hexValue? high).isSome ∧ (hexValue? low).isSome
    . left
      rcases hhead with ⟨high, low, rest, rfl, hhigh, hlow⟩
      have hhigh' := toNat_lt_of_hexValue? hhigh
      have hlow' := toNat_lt_of_hexValue? hlow
      have hsome : (unescape? 0x25 (UInt8.ofNat high.toNat) (UInt8.ofNat low.toNat)).isSome := by
        rw [unescape?_percent, toNat_ofNat_toNat hhigh', toNat_ofNat_toNat hlow', Char.ofNat_toNat,
          Char.ofNat_toNat, hhigh, hlow]
        rfl
      rw [Option.isSome_iff_exists] at hsome
      rcases hsome with ⟨b, hb⟩
      refine ⟨high, low, rest, b, rfl, ?_, ?_⟩
      . rw [bytes_cons_of_lt hhigh', bytes_cons_of_lt hlow', percentDecode]
        change (match unescape? 0x25 _ _ with | some c => _ | none => _) = _
        rw [hb]
      . rw [escapes, hhigh, hlow]
        rfl
    . right
      have hnone : ∀ high low rest, cs = high :: low :: rest →
          ¬ ((hexValue? high).isSome ∧ (hexValue? low).isSome) :=
        fun high low rest hcs hhex => hhead ⟨high, low, rest, hcs, hhex⟩
      exact ⟨percentDecode_percent_cons hnone, escapes_percent_cons hnone⟩
  . right
    constructor
    . rw [bytes_cons, percentDecode_append]
      intro hmem
      have hmem : UInt8.ofNat '%'.toNat ∈ bytes [c] := by simpa [bytes] using hmem
      have := mem_of_mem_bytes (by decide) hmem
      rw [List.mem_singleton] at this
      exact hc this.symm
    . match cs with
      | [] | [_] => rfl
      | high :: low :: rest => simp [escapes, hc]

theorem length_decodeLossy_percentDecode (cs : List Char)
    : (Utf8.decodeLossy (percentDecode (bytes cs))).length + (if escapes cs then 1 else 0)
        ≤ cs.length := by
  match cs with
  | [] => exact Nat.le_refl _
  | c :: cs =>
    rcases percentDecode_bytes_cons c cs with ⟨high, low, rest, b, rfl, hdecode, _⟩ | ⟨hdecode, hsame⟩
    . have ih := length_decodeLossy_percentDecode rest
      have hle := Utf8.length_decodeLossy_cons_le b (percentDecode (bytes rest))
      rw [hdecode, List.length_cons, List.length_cons, List.length_cons]
      split at ih <;> split <;> omega
    . have ih := length_decodeLossy_percentDecode cs
      rw [hdecode, hsame, Utf8.decodeLossy_encodeChar_append, List.length_cons, List.length_cons]
      omega
termination_by cs.length

theorem percentDecode_of_not_escapes {cs : List Char} (h : escapes cs = false)
    : percentDecode (bytes cs) = bytes cs := by
  induction cs with
  | nil => rfl
  | cons c cs ih =>
    rcases percentDecode_bytes_cons c cs with ⟨_, _, _, _, _, _, hescapes⟩ | ⟨hdecode, hsame⟩
    . rw [h] at hescapes
      contradiction
    . rw [hsame] at h
      rw [hdecode, ih h, bytes_cons]

def plusToSpace (c : Char) : Char := if c = '+' then ' ' else c

theorem replacePlus_bytes (cs : List Char) : replacePlus (bytes cs) = bytes (cs.map plusToSpace) := by
  induction cs with
  | nil => rfl
  | cons c cs ih =>
    rw [bytes_cons, List.map_cons, bytes_cons, ← ih]
    unfold replacePlus
    rw [List.map_append]
    congr 1
    by_cases hc : c = '+'
    . rw [hc]
      rfl
    . have hnot : ∀ b ∈ String.utf8EncodeChar c, b ≠ 0x2B := by
        rintro b hb rfl
        have hmem : UInt8.ofNat '+'.toNat ∈ bytes [c] := by simpa [bytes] using hb
        have := mem_of_mem_bytes (by decide) hmem
        rw [List.mem_singleton] at this
        exact hc this.symm
      rw [plusToSpace, if_neg hc]
      conv => rhs; rw [← List.map_id (String.utf8EncodeChar c)]
      apply List.map_congr_left
      intro b hb
      exact if_neg (hnot b hb)

theorem hexValue?_plusToSpace (c : Char) : (hexValue? (plusToSpace c)).isSome = (hexValue? c).isSome := by
  unfold plusToSpace
  split
  . next hc =>
    rw [hc]
    rfl
  . rfl

theorem plusToSpace_eq_percent_iff (c : Char) : plusToSpace c = '%' ↔ c = '%' := by
  unfold plusToSpace
  split
  . next hc =>
    rw [hc]
    decide
  . rfl

theorem escapes_map_plusToSpace (cs : List Char) : escapes (cs.map plusToSpace) = escapes cs := by
  induction cs with
  | nil => rfl
  | cons c cs ih =>
    match cs with
    | [] | [_] => rfl
    | high :: low :: rest =>
      simp only [List.map_cons] at *
      rw [escapes, escapes, ih]
      simp only [hexValue?_plusToSpace, plusToSpace_eq_percent_iff]

theorem length_decode_bytes_le (cs : List Char) : (decode (bytes cs)).toList.length ≤ cs.length := by
  have h := length_decodeLossy_percentDecode (cs.map plusToSpace)
  unfold decode Utf8.toStringLossy
  rw [String.toList_ofList, replacePlus_bytes]
  rw [List.length_map] at h
  omega

theorem toList_decode_bytes_eq_iff {cs : List Char}
    : (decode (bytes cs)).toList = cs ↔ IsPlain cs := by
  unfold IsPlain decode Utf8.toStringLossy
  rw [String.toList_ofList, replacePlus_bytes]
  constructor
  . intro h
    have hescapes : escapes cs = false := by
      have hlength := length_decodeLossy_percentDecode (cs.map plusToSpace)
      rw [h, List.length_map, escapes_map_plusToSpace] at hlength
      cases hescapes : escapes cs with
      | false => rfl
      | true =>
        rw [hescapes, if_pos rfl] at hlength
        omega
    refine ⟨?_, hescapes⟩
    rw [← escapes_map_plusToSpace] at hescapes
    rw [percentDecode_of_not_escapes hescapes] at h
    have hmap : cs.map plusToSpace = cs := (Utf8.decodeLossy_flatMap _).symm.trans h
    intro hplus
    rw [← hmap, List.mem_map] at hplus
    rcases hplus with ⟨c, _, hc⟩
    unfold plusToSpace at hc
    split at hc
    . contradiction
    . contradiction
  . rintro ⟨hplus, hescapes⟩
    have hmap : cs.map plusToSpace = cs := by
      conv => rhs; rw [← List.map_id cs]
      apply List.map_congr_left
      rintro c hc
      unfold plusToSpace
      rw [if_neg]
      . rfl
      . rintro rfl
        exact hplus hc
    rw [hmap, percentDecode_of_not_escapes hescapes]
    exact Utf8.decodeLossy_flatMap cs

theorem decode_bytes_eq_iff {s : String} : decode (bytes s.toList) = s ↔ IsPlain s.toList := by
  rw [← toList_decode_bytes_eq_iff, String.toList_inj]

end FormUrlEncoded
