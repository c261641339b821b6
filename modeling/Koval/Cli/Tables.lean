import Koval.Cli.Output
import Mathlib.Data.List.Forall2

/-!
This module contains when the rows of a table are aligned.
-/

namespace Koval

open Text (byteSize sliceTo sliceTo_eq_some_iff sliceTo_zero prefix_of_byteSize_le)

structure IsLongestFit (col : List Char) (width : Nat) (kept : List Char) : Prop where
  starts : kept <+: col
  fits : byteSize kept ≤ width
  longest : ∀ other, other <+: col → byteSize other ≤ width → other <+: kept
  whole : byteSize col ≤ width → kept = col

theorem isLongestFit_of_longest {col kept : List Char} {width : Nat} (hstarts : kept <+: col)
    (hfits : byteSize kept ≤ width)
    (hlongest : ∀ other, other <+: col → byteSize other ≤ width → other <+: kept)
    : IsLongestFit col width kept where
  starts := hstarts
  fits := hfits
  longest := hlongest
  whole := fun hcol =>
    hstarts.eq_of_length_le (hlongest col List.prefix_rfl hcol).length_le

structure IsCell (col : String) (width : Nat) (cell : List Char) : Prop where
  content : ∃ kept, IsLongestFit col.toList width kept
    ∧ cell = kept ++ List.replicate (width - kept.length) ' '
  length : cell.length = width

namespace printRow

theorem exists_sliceTo_lastBoundary (col : List Char) (width : Nat)
    : ∃ kept, sliceTo col (lastBoundary col width) = some kept ∧ IsLongestFit col width kept := by
  induction width with
  | zero =>
    refine ⟨[], sliceTo_zero col, ?_⟩
    apply isLongestFit_of_longest List.nil_prefix (Nat.le_refl 0)
    intro other hother hsize
    exact prefix_of_byteSize_le hother List.nil_prefix hsize
  | succ width ih =>
    unfold lastBoundary
    split
    . next hboundary =>
      rcases Option.isSome_iff_exists.mp hboundary with ⟨kept, hslice⟩
      have ⟨hstarts, hsize⟩ := sliceTo_eq_some_iff.mp hslice
      refine ⟨kept, hslice, ?_⟩
      apply isLongestFit_of_longest hstarts (Nat.le_of_eq hsize)
      intro other hother hle
      exact prefix_of_byteSize_le hother hstarts (hsize ▸ hle)
    . next hboundary =>
      rcases ih with ⟨kept, hslice, hfit⟩
      refine ⟨kept, hslice, ?_⟩
      apply isLongestFit_of_longest hfit.starts (Nat.le_succ_of_le hfit.fits)
      intro other hother hle
      -- No start of the column ends where there is no boundary.
      have hne : byteSize other ≠ width + 1 := by
        intro hsize
        apply hboundary
        unfold isCharBoundary
        rw [sliceTo_eq_some_iff.mpr ⟨hother, hsize⟩]
        rfl
      exact hfit.longest other hother (by omega)

theorem exists_cut (col : List Char) (width : Nat)
    : ∃ kept, cut col width = some kept ∧ IsLongestFit col width kept := by
  unfold cut
  split
  . exact exists_sliceTo_lastBoundary col width
  . next hfits =>
    refine ⟨col, rfl, ?_⟩
    apply isLongestFit_of_longest List.prefix_rfl (Nat.le_of_not_lt hfits)
    exact fun _ hother _ => hother

theorem isCell_of_isLongestFit {col : String} {width : Nat} {kept : List Char}
    (h : IsLongestFit col.toList width kept)
    : IsCell col width (kept ++ List.replicate (width - kept.length) ' ') where
  content := ⟨kept, h, rfl⟩
  length := by
    have hlength := (Text.length_le_byteSize kept).trans h.fits
    rw [List.length_append, List.length_replicate]
    omega

def printCell (cell : List Char) : List Char := ['|', ' '] ++ cell ++ [' ']

theorem go_cons {widths rest : List Nat} {i width : Nat} (h : widths.drop i = width :: rest)
    (col : String) (cols : List String) (row : List Char)
    : go widths i (col :: cols) row
        =
      match cut col.toList width with
      | none => none
      | some val =>
        match pad val width with
        | none => none
        | some padded => go widths (i + 1) cols (row ++ printCell padded) := by
  have hwidth : widths[i]? = some width := by
    rw [← List.head?_drop, h]
    rfl
  unfold printCell
  rw [go, hwidth]
  simp only [Option.bind_eq_bind, Option.bind_some, List.append_assoc]
  cases cut col.toList width with
  | none => rfl
  | some val =>
    rw [Option.bind_some]
    dsimp only
    cases pad val width <;> rfl

theorem drop_succ_of_drop_eq_cons {widths rest : List Nat} {i width : Nat}
    (h : widths.drop i = width :: rest)
    : widths.drop (i + 1) = rest := by
  rw [← List.drop_drop, h]
  rfl

theorem exists_go {widths : List Nat} {i : Nat} {cols : List String} {rest : List Nat}
    (hrest : widths.drop i = rest) (hlength : cols.length = rest.length)
    (hlt : ∀ width ∈ rest, width < 2 ^ 16) (row : List Char)
    : ∃ cells, go widths i cols row = some (row ++ cells.flatMap printCell)
        ∧ List.Forall₂ (fun col => IsCell col.fst col.snd) (cols.zip rest) cells := by
  induction cols generalizing i rest row with
  | nil => exact ⟨[], by rw [List.flatMap_nil, List.append_nil]; rfl, .nil⟩
  | cons col cols ih =>
    cases rest with
    | nil => contradiction
    | cons width rest =>
      rw [List.forall_mem_cons] at hlt
      rcases exists_cut col.toList width with ⟨kept, hcut, hfit⟩
      have hpad : pad kept width = some (kept ++ List.replicate (width - kept.length) ' ') :=
        if_pos hlt.left
      rcases ih (drop_succ_of_drop_eq_cons hrest) (Nat.succ.inj hlength) hlt.right
        (row ++ printCell (kept ++ List.replicate (width - kept.length) ' ')) with
        ⟨cells, hgo, hcells⟩
      refine ⟨(kept ++ List.replicate (width - kept.length) ' ') :: cells, ?_,
        .cons (isCell_of_isLongestFit hfit) hcells⟩
      rw [go_cons hrest, hcut]
      dsimp only
      rw [hpad]
      dsimp only
      rw [hgo, List.flatMap_cons, List.append_assoc]

theorem go_eq_none {widths : List Nat} {i : Nat} {cols : List String} {rest : List Nat}
    (hrest : widths.drop i = rest) (hlength : cols.length = rest.length)
    (hlarge : ∃ width ∈ rest, 2 ^ 16 ≤ width) (row : List Char)
    : go widths i cols row = none := by
  induction cols generalizing i rest row with
  | nil =>
    rw [List.length_nil, eq_comm, List.length_eq_zero_iff] at hlength
    simp [hlength] at hlarge
  | cons col cols ih =>
    cases rest with
    | nil => contradiction
    | cons width rest =>
      rcases exists_cut col.toList width with ⟨kept, hcut, _⟩
      rw [go_cons hrest, hcut]
      dsimp only
      by_cases hlt : width < 2 ^ 16
      . have hpad : pad kept width = some (kept ++ List.replicate (width - kept.length) ' ') :=
          if_pos hlt
        have hlarge' : ∃ width ∈ rest, 2 ^ 16 ≤ width := by
          rcases hlarge with ⟨large, hmem, hle⟩
          rw [List.mem_cons] at hmem
          rcases hmem with rfl | hmem
          . exact absurd hlt (Nat.not_lt.mpr hle)
          . exact ⟨large, hmem, hle⟩
        rw [hpad]
        exact ih (drop_succ_of_drop_eq_cons hrest) (Nat.succ.inj hlength) hlarge' _
      . have hpad : pad kept width = none := if_neg hlt
        rw [hpad]

end printRow

namespace printDivider

def printDashes (width : Nat) : List Char := '+' :: List.replicate (width + 2) '-'

theorem go_eq {widths : List Nat} (hlt : ∀ width ∈ widths, width < 2 ^ 16) (divider : List Char)
    : go widths divider = some (divider ++ widths.flatMap printDashes) := by
  induction widths generalizing divider with
  | nil =>
    rw [List.flatMap_nil, List.append_nil]
    rfl
  | cons width widths ih =>
    rw [List.forall_mem_cons] at hlt
    have hdashes : repeatDash ((width + 2) % 2 ^ 64) = some (List.replicate (width + 2) '-') := by
      unfold repeatDash
      rw [Nat.mod_eq_of_lt (by omega), if_pos (by omega)]
    rw [go, hdashes, Option.bind_eq_bind, Option.bind_some, ih hlt.right, List.flatMap_cons,
      List.append_assoc]
    rfl

end printDivider

theorem length_cells {cols : List String} {widths : List Nat} {cells : List (List Char)}
    (hlength : cols.length = widths.length)
    (hcells : List.Forall₂ (fun col => IsCell col.fst col.snd) (cols.zip widths) cells)
    : (cells.flatMap printRow.printCell).length
        =
      (widths.flatMap printDivider.printDashes).length := by
  induction widths generalizing cols cells with
  | nil =>
    rw [List.zip_nil_right, List.forall₂_nil_left_iff] at hcells
    rw [hcells]
    rfl
  | cons width widths ih =>
    cases cols with
    | nil => contradiction
    | cons col cols =>
      rw [List.zip_cons_cons, List.forall₂_cons_left_iff] at hcells
      rcases hcells with ⟨cell, rest, hcell, hrest, rfl⟩
      have hlength' := ih (Nat.succ.inj hlength) hrest
      have hwidth := hcell.length
      dsimp only at hwidth
      rw [List.flatMap_cons, List.flatMap_cons, List.length_append, List.length_append, hlength']
      simp [printRow.printCell, printDivider.printDashes, hwidth]

def PrintsAligned (cols : List String) (widths : List Nat) : Prop :=
  ∃ row divider cells,
    printRow cols widths = some row
      ∧ printDivider widths = some divider
      ∧ List.Forall₂ (fun col => IsCell col.fst col.snd) (cols.zip widths) cells
      ∧ row.toList = cells.flatMap printRow.printCell ++ ['|']
      ∧ row.length = divider.length

/--
Rows are aligned, for any texts and widths, if and only if the formatting takes the widths.
-/
theorem printRow_aligned_iff {cols : List String} {widths : List Nat}
    (hlength : cols.length = widths.length)
    : PrintsAligned cols widths ↔ ∀ width ∈ widths, width < 2 ^ 16 := by
  constructor
  . rintro ⟨row, _, _, hrow, _⟩ width hwidth
    apply Nat.lt_of_not_le
    intro hlarge
    unfold printRow at hrow
    rw [printRow.go_eq_none List.drop_zero hlength ⟨width, hwidth, hlarge⟩] at hrow
    contradiction
  . intro hlt
    rcases printRow.exists_go List.drop_zero hlength hlt [] with ⟨cells, hgo, hcells⟩
    refine ⟨String.ofList (cells.flatMap printRow.printCell ++ ['|']),
      String.ofList (widths.flatMap printDivider.printDashes ++ ['+']), cells, ?_, ?_, hcells,
      String.toList_ofList, ?_⟩
    . unfold printRow
      rw [hgo]
      rfl
    . unfold printDivider
      rw [printDivider.go_eq hlt]
      rfl
    . rw [String.length_ofList, String.length_ofList, List.length_append, List.length_append,
        length_cells hlength hcells]
      rfl

theorem printRow_aligned_iff_multibyte : PrintsAligned ["héllo"] [2] :=
  (printRow_aligned_iff rfl).mpr (by decide)

-- The headers of the tokens, one of which has a name of 65536 bytes: its width is not bounded.
theorem printRow_panics
    : ¬∀ cols widths, cols.length = widths.length → PrintsAligned cols widths := by
  intro hall
  rcases hall ["ID", "NAME", "CREATED AT"] [2, 65536, 25] rfl with ⟨row, _, _, hrow, _⟩
  have hnone : printRow ["ID", "NAME", "CREATED AT"] [2, 65536, 25] = none := rfl
  rw [hnone] at hrow
  contradiction

end Koval
