import Mathlib.Data.String.Basic

/-!
This module contains the words of a text, which are what the spaces of the text separate.
-/

namespace Text

def words (s : String) : List String :=
  ((s.toList.splitOn ' ').filter (· ≠ [])).map String.ofList

theorem words_append_space (s t : String) : words (s ++ " " ++ t) = words s ++ words t := by
  unfold words
  have hlist : (s ++ " " ++ t).toList = s.toList ++ ' ' :: t.toList := by simp
  rw [hlist, List.splitOn_append_cons_self, List.filter_append, List.map_append]

theorem words_intercalate (pieces : List String)
    : words (" ".intercalate pieces) = pieces.flatMap words := by
  induction pieces with
  | nil => rfl
  | cons piece pieces ih =>
    cases pieces with
    | nil => simp
    | cons next pieces =>
      rw [String.intercalate_cons_cons, words_append_space, ih]
      rfl

theorem notMem_of_mem_splitOn {sep : Char} {text piece : List Char} (h : piece ∈ text.splitOn sep)
    : sep ∉ piece := by
  induction text generalizing piece with
  | nil =>
    rw [List.splitOn_nil, List.mem_singleton] at h
    rw [h]
    exact List.not_mem_nil
  | cons c text ih =>
    rw [List.splitOn_cons_eq_if_modifyHead] at h
    split at h
    . rw [List.mem_cons] at h
      rcases h with rfl | h
      . exact List.not_mem_nil
      . exact ih h
    . next hc =>
      rw [beq_iff_eq] at hc
      cases hsplit : text.splitOn sep with
      | nil => exact absurd hsplit (List.splitOn_ne_nil sep text)
      | cons first rest =>
        rw [hsplit] at ih h
        rw [List.modifyHead_cons, List.mem_cons] at h
        rcases h with rfl | h
        . rw [List.mem_cons, not_or]
          exact ⟨Ne.symm hc, ih List.mem_cons_self⟩
        . exact ih (List.mem_cons_of_mem first h)

theorem words_eq_singleton {s : String} (hne : s ≠ "") (hspace : ' ' ∉ s.toList)
    : words s = [s] := by
  have hlist : s.toList ≠ [] := by simpa using hne
  unfold words
  rw [List.splitOn_eq_singleton hspace]
  simp [hlist]

theorem space_notMem_of_mem_words {s word : String} (h : word ∈ words s)
    : word ≠ "" ∧ ' ' ∉ word.toList := by
  unfold words at h
  rw [List.mem_map] at h
  rcases h with ⟨piece, hpiece, rfl⟩
  rw [List.mem_filter, decide_eq_true_eq] at hpiece
  rw [String.toList_ofList]
  exact ⟨by simpa using hpiece.right, notMem_of_mem_splitOn hpiece.left⟩

theorem flatMap_words_eq_self_iff {pieces : List String}
    : pieces.flatMap words = pieces ↔ ∀ piece ∈ pieces, piece ≠ "" ∧ ' ' ∉ piece.toList := by
  constructor
  . intro h piece hpiece
    rw [← h, List.mem_flatMap] at hpiece
    rcases hpiece with ⟨_, _, hword⟩
    exact space_notMem_of_mem_words hword
  . intro h
    induction pieces with
    | nil => rfl
    | cons piece pieces ih =>
      have ⟨hne, hspace⟩ := h piece List.mem_cons_self
      rw [List.flatMap_cons, words_eq_singleton hne hspace,
        ih fun piece hpiece => h piece (List.mem_cons_of_mem _ hpiece)]
      rfl

end Text
