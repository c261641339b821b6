import Koval.Text.Path

/-!
This module contains how names, directories and extensions of file paths go together.
-/

theorem Utf8.encode_append (s t : String) : encode (s ++ t) = encode s ++ encode t := by
  unfold encode
  rw [String.toByteArray_append, ByteArray.data_append, Array.toList_append]

namespace Koval
namespace Path

/-- What can name an entry of a directory. -/
structure IsName (name : Path) : Prop where
  ne_nil : name ≠ []
  ne_dot : name ≠ [dot]
  ne_dots : name ≠ [dot, dot]
  slash_notMem : slash ∉ name

theorem components_of_isName {name : Path} (h : IsName name) : name.components = [name] := by
  unfold components splitSlash
  rw [List.splitOn_eq_singleton h.slash_notMem]
  simp [h.ne_nil, h.ne_dot]

theorem components_append (base path : Path)
    : Path.components (base ++ slash :: path) = base.components ++ path.components := by
  unfold components splitSlash
  rw [List.splitOn_append_cons_self, List.filter_append]

theorem fileName_of_isName {name : Path} (h : IsName name) : name.fileName = some name := by
  unfold fileName
  rw [components_of_isName h, List.getLast?_singleton]
  exact if_neg h.ne_dots

theorem fileName_append {name : Path} (h : IsName name) (base : Path)
    : Path.fileName (base ++ slash :: name) = some name := by
  unfold fileName
  rw [components_append, components_of_isName h, List.getLast?_concat]
  exact if_neg h.ne_dots

theorem exists_lastPart (path : Path)
    : slash ∉ path ∨ ∃ base part, path = base ++ slash :: part ∧ slash ∉ part := by
  induction path with
  | nil => exact .inl List.not_mem_nil
  | cons b path ih =>
    rcases ih with hnone | ⟨base, part, hpath, hpart⟩
    . by_cases hb : b = slash
      . rw [hb]
        exact .inr ⟨[], path, rfl, hnone⟩
      . left
        rw [List.mem_cons]
        rintro (h | h)
        . exact hb h.symm
        . exact hnone h
    . rw [hpath]
      exact .inr ⟨b :: base, part, rfl, hpart⟩

theorem join_nil (dir : Path)
    : dir.join [] = if dir.getLast?.all (· = slash) then dir else dir ++ [slash] := by
  unfold join
  simp [isAbsolute]

-- A directory is the prefix that its entries have.
theorem join_eq_append {name : Path} (h : IsName name) (dir : Path)
    : dir.join name = dir.join [] ++ name := by
  have habsolute : isAbsolute name = false := by
    cases hname : name with
    | nil => rfl
    | cons b name' =>
      have := h.slash_notMem
      rw [hname, List.mem_cons] at this
      unfold isAbsolute
      simp only [List.head?_cons, beq_eq_false_iff_ne, ne_eq, Option.some.injEq]
      intro hb
      exact this (.inl hb.symm)
  rw [join_nil, join, habsolute]
  split
  . contradiction
  . split <;> simp

theorem childName?_join {name : Path} (h : IsName name) (dir : Path)
    : dir.childName? (dir.join name) = some name := by
  unfold childName?
  rw [join_eq_append h]
  simp [h.ne_nil, h.slash_notMem]

theorem join_inj {name name' : Path} (h : IsName name) (h' : IsName name') {dir : Path}
    : dir.join name = dir.join name' ↔ name = name' := by
  rw [join_eq_append h, join_eq_append h', List.append_cancel_left_eq]

theorem fileName_join {name : Path} (h : IsName name) (dir : Path)
    : (dir.join name).fileName = some name := by
  rw [join_eq_append h, join_nil]
  split
  . next hlast =>
    rcases List.eq_nil_or_concat dir with rfl | ⟨dir, b, rfl⟩
    . exact fileName_of_isName h
    . rw [List.concat_eq_append] at hlast ⊢
      simp only [List.getLast?_concat, Option.all_some, decide_eq_true_eq] at hlast
      rw [hlast, List.append_assoc]
      exact fileName_append h dir
  . rw [List.append_assoc]
    exact fileName_append h dir

theorem exists_fileName_of_suffix {path suf : Path} (h : suf <:+ path) (hslash : slash ∉ suf)
    (hlength : 2 < suf.length)
    : ∃ name, path.fileName = some name ∧ IsName name ∧ suf <:+ name := by
  have hname {name : Path} (hsuf : suf <:+ name) (hnone : slash ∉ name) : IsName name := by
    have hle := hsuf.length_le
    constructor
    . rintro rfl
      simp only [List.length_nil] at hle
      omega
    . rintro rfl
      simp only [List.length_singleton] at hle
      omega
    . rintro rfl
      simp only [List.length_cons, List.length_nil] at hle
      omega
    . exact hnone
  rcases exists_lastPart path with hnone | ⟨base, part, hpath, hpart⟩
  . exact ⟨path, fileName_of_isName (hname h hnone), hname h hnone, h⟩
  . have hlast : slash :: part <:+ path := by
      rw [hpath]
      exact List.suffix_append _ _
    have hsuf : suf <:+ part := by
      rcases List.suffix_or_suffix_of_suffix h hlast with hsuf | hsuf
      . rcases List.suffix_cons_iff.mp hsuf with heq | hsuf
        . rw [heq] at hslash
          exact absurd List.mem_cons_self hslash
        . exact hsuf
      . exact absurd (hsuf.subset List.mem_cons_self) hslash
    rw [hpath]
    exact ⟨part, fileName_append (hname hsuf hpart) base, hname hsuf hpart, hsuf⟩

theorem extension_eq {path name ext : Path} (hname : path.fileName = some name)
    (h : dot :: ext <:+ name) (hdot : dot ∉ ext)
    : path.extension = if name = dot :: ext then none else some ext := by
  rcases h with ⟨stem, rfl⟩
  have hafter : (stem ++ dot :: ext).reverse.takeWhile (· ≠ dot) = ext.reverse := by
    rw [List.reverse_append, List.reverse_cons, List.append_assoc, List.takeWhile_append_of_pos]
    . simp
    . intro b hb
      rw [List.mem_reverse] at hb
      simp only [ne_eq, decide_eq_true_eq]
      rintro rfl
      exact hdot hb
  unfold extension
  rw [hname]
  dsimp only
  rw [hafter, List.reverse_reverse, List.length_reverse, List.length_append, List.length_cons]
  cases stem with
  | nil => simp
  | cons b stem =>
    have hne : b :: stem ++ dot :: ext ≠ dot :: ext := by
      intro heq
      have := congrArg List.length heq
      simp only [List.length_append, List.length_cons] at this
      omega
    rw [if_neg hne, if_pos]
    simp only [List.length_cons]
    omega

theorem of_extension_eq_some {path name ext : Path} (hname : path.fileName = some name)
    (h : path.extension = some ext)
    : dot :: ext <:+ name ∧ name ≠ dot :: ext := by
  unfold extension at h
  rw [hname] at h
  dsimp only at h
  split at h
  swap
  . contradiction
  next hlength =>
  injection h with h
  have hsplit := @List.takeWhile_append_dropWhile _ (· ≠ dot) name.reverse
  have hrest : ∃ rest, name.reverse.dropWhile (· ≠ dot) = dot :: rest := by
    cases hdrop : name.reverse.dropWhile (· ≠ dot) with
    | nil =>
      rw [hdrop, List.append_nil] at hsplit
      rw [hsplit, List.length_reverse] at hlength
      omega
    | cons b rest =>
      have hne : name.reverse.dropWhile (· ≠ dot) ≠ [] := by
        rw [hdrop]
        exact List.cons_ne_nil _ _
      have hb := List.head_dropWhile_not _ hne
      simp only [hdrop, List.head_cons, decide_eq_false_iff_not, not_not] at hb
      exact ⟨rest, by rw [hb]⟩
  rcases hrest with ⟨rest, hrest⟩
  rw [hrest] at hsplit
  have heq := congrArg List.reverse hsplit
  rw [List.reverse_append, List.reverse_cons, List.append_assoc, List.reverse_reverse, h] at heq
  refine ⟨⟨rest.reverse, heq⟩, ?_⟩
  intro hsame
  rw [← h] at hsame
  have := congrArg List.length hsame
  rw [List.length_cons, List.length_reverse] at this
  omega

end Path

end Koval
