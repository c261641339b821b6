import Koval.Server.Worker.BuildMode
import Koval.Text.LinesLemmas

/-!
This module contains what the truncation of the errors of cargo keeps.
-/

namespace Koval
namespace truncateStderr

def limited (stderr : String) : String :=
  if (Text.lines stderr).length > 100 then
    "\n".intercalate ((Text.lines stderr).take 100)
  else
    stderr

def marker : String := "[... stderr truncated due to size limits ...]\n"

-- With a newline at its end, which may be there already.
def endLine (text : List Char) : List Char :=
  if text.getLast? = some '\n' then text else text ++ ['\n']

/-- The line of the text is there with all its characters, and its end, within the limits. -/
structure IsInside (stderr : String) (i : Nat) : Prop where
  exists? : i < (Text.lines stderr).length
  lines : i < 100
  chars : ((Text.splitInclusive (limited stderr).toList).take (i + 1)).flatten.length ≤ 4096

/-- The line is kept, up to a carriage return at its end. -/
def KeepsLine (stderr result : String) (i : Nat) : Prop :=
  ∃ line, (Text.lines result)[i]? = some line
    ∧ ((Text.lines stderr)[i]? = some line ∨ (Text.lines stderr)[i]? = some (line ++ "\r"))

/-- There are more lines after it, so that the newline before it seems to be the one that ends it. -/
def IsLastAndBlank (stderr : String) (i : Nat) : Prop :=
  i = 99 ∧ 100 < (Text.lines stderr).length ∧ (Text.lines stderr)[i]? = some ""

def Fits (stderr : String) : Prop := (Text.lines stderr).length ≤ 100 ∧ stderr.length ≤ 4096

instance (stderr : String) : Decidable (Fits stderr) := inferInstanceAs (Decidable (_ ∧ _))

theorem limited_of_le {stderr : String} (h : (Text.lines stderr).length ≤ 100)
    : limited stderr = stderr := by
  unfold limited
  rw [if_neg (Nat.not_lt.mpr h)]

def kept (stderr : String) : String :=
  if (limited stderr).length > 4096 then
    String.ofList ((limited stderr).toList.take 4096)
  else
    limited stderr

theorem eq_kept (stderr : String)
    : truncateStderr stderr
        =
      if (Text.lines stderr).length > 100 ∨ (limited stderr).length > 4096 then
        (if (kept stderr).toList.getLast? = some '\n' then kept stderr else kept stderr ++ "\n") ++ marker
      else
        kept stderr := rfl

theorem toList_kept (stderr : String)
    : (kept stderr).toList = (limited stderr).toList.take 4096 := by
  unfold kept
  split
  . rw [String.toList_ofList]
  . next h =>
    rw [List.take_of_length_le]
    rw [String.length_toList]
    omega

theorem of_fits {stderr : String} (h : Fits stderr) : truncateStderr stderr = stderr := by
  have hlimited := limited_of_le h.left
  have hkept : ¬(limited stderr).length > 4096 := by
    rw [hlimited]
    exact Nat.not_lt.mpr h.right
  rw [eq_kept, if_neg (not_or_intro (Nat.not_lt.mpr h.left) hkept)]
  unfold kept
  rw [if_neg hkept, hlimited]

theorem toList_of_not_fits {stderr : String} (h : ¬Fits stderr)
    : (truncateStderr stderr).toList
        =
      endLine ((limited stderr).toList.take 4096) ++ marker.toList := by
  have htruncated : (Text.lines stderr).length > 100 ∨ (limited stderr).length > 4096 := by
    by_cases hlines : (Text.lines stderr).length > 100
    . exact .inl hlines
    . right
      rw [limited_of_le (by omega)]
      unfold Fits at h
      omega
  rw [eq_kept, if_pos htruncated, String.toList_append, ← toList_kept]
  unfold endLine
  split
  . rfl
  . rw [String.toList_append]
    rfl

theorem prefix_endLine (text : List Char) : text <+: endLine text := by
  unfold endLine
  split
  . exact List.prefix_rfl
  . exact List.prefix_append _ _

theorem length_endLine_le (text : List Char) : (endLine text).length ≤ text.length + 1 := by
  unfold endLine
  split
  . omega
  . rw [List.length_append]
    rfl

theorem getLast?_of_rest_eq_nil {text : List Char} {lines : List (List Char)} (hlines : lines ≠ [])
    (h : Text.Splits text lines [])
    : text.getLast? = some '\n' := by
  have hsplit := List.dropLast_append_getLast hlines
  rw [h.eq, ← hsplit, Text.unlines_append, Text.unlines_cons, List.append_nil, List.getLast?_append]
  simp [Text.unlines]

theorem getLast?_of_rest_ne_nil {text rest : List Char} {lines : List (List Char)} (hrest : rest ≠ [])
    (h : Text.Splits text lines rest)
    : text.getLast? ≠ some '\n' := by
  intro hlast
  rw [h.eq, List.getLast?_append, List.getLast?_eq_some_getLast hrest] at hlast
  injection hlast with hlast
  apply h.rest
  rw [← hlast]
  exact List.getLast_mem hrest

theorem splits_endLine {text rest : List Char} {lines : List (List Char)}
    (h : Text.Splits text lines rest) (hrest : rest ≠ [] ∨ lines = [])
    : Text.Splits (endLine text) (lines ++ [rest]) [] := by
  have hlast : text.getLast? ≠ some '\n' := by
    rcases hrest with hrest | hlines
    . exact getLast?_of_rest_ne_nil hrest h
    . by_cases hrest : rest = []
      . rw [h.eq, hlines, hrest]
        simp [Text.unlines]
      . exact getLast?_of_rest_ne_nil hrest h
  have hend : Text.Splits ['\n'] [[]] [] := ⟨rfl, by simp, List.not_mem_nil⟩
  unfold endLine
  rw [if_neg hlast]
  have happend := h.append hend
  rw [List.append_nil] at happend
  exact happend

theorem endLine_of_rest_eq_nil {text : List Char} {lines : List (List Char)} (hlines : lines ≠ [])
    (h : Text.Splits text lines [])
    : endLine text = text := by
  unfold endLine
  rw [if_pos (getLast?_of_rest_eq_nil hlines h)]

theorem splits_limited {stderr : String} (h : 99 < (Text.lines stderr).length)
    (hmore : 100 < (Text.lines stderr).length)
    : Text.Splits (limited stderr).toList (((Text.lines stderr).take 99).map String.toList)
        ((Text.lines stderr)[99]).toList where
  eq := by
    unfold limited
    rw [if_pos hmore, List.take_succ_eq_append_getElem h, Text.toList_intercalate_newline]
  lines := by
    intro line hline
    rw [List.mem_map] at hline
    rcases hline with ⟨line, hline, rfl⟩
    exact Text.notMem_of_mem_lines (List.mem_of_mem_take hline)
  rest := Text.notMem_of_mem_lines (List.getElem_mem h)

theorem length_lines_limited_le (stderr : String) : (Text.lines (limited stderr)).length ≤ 100 := by
  by_cases hmore : 100 < (Text.lines stderr).length
  . have hsplits := splits_limited (by omega) hmore
    rw [hsplits.length_lines, List.length_map, List.length_take]
    split <;> omega
  . rw [limited_of_le (by omega)]
    omega

theorem splits_marker
    : Text.Splits marker.toList ["[... stderr truncated due to size limits ...]".toList] [] :=
  ⟨by decide, by decide, List.not_mem_nil⟩

-- With the newline at its end, a text has as many lines as without it.
theorem exists_splits_endLine {s : String} (h : (Text.lines s).length ≤ 100)
    : ∃ lines, Text.Splits (endLine s.toList) lines [] ∧ lines.length ≤ 100 := by
  have ⟨lines, rest, hsplits⟩ := Text.exists_splits s.toList
  rw [hsplits.length_lines] at h
  by_cases hrest : rest = []
  . rw [if_pos hrest] at h
    rw [hrest] at hsplits
    cases lines with
    | nil => exact ⟨_, splits_endLine hsplits (.inr rfl), by simp⟩
    | cons line lines =>
      refine ⟨_, ?_, h⟩
      rw [endLine_of_rest_eq_nil (by simp) hsplits]
      exact hsplits
  . rw [if_neg hrest] at h
    exact ⟨_, splits_endLine hsplits (.inl hrest), by simpa using h⟩

theorem length_lines_le {stderr : String} (h : ¬Fits stderr)
    : (Text.lines (truncateStderr stderr)).length ≤ 101 := by
  have hstarts : (kept stderr).toList <+: (limited stderr).toList := by
    rw [toList_kept]
    exact List.take_prefix _ _
  have hkept : (Text.lines (kept stderr)).length ≤ 100 :=
    (Text.length_lines_le_of_prefix hstarts).trans (length_lines_limited_le stderr)
  rcases exists_splits_endLine hkept with ⟨lines, hsplits, hlength⟩
  have hresult := hsplits.append splits_marker
  rw [toList_kept, ← toList_of_not_fits h] at hresult
  rw [hresult.length_lines, List.length_append, if_pos rfl, List.length_singleton]
  omega

theorem length_le {stderr : String} (h : ¬Fits stderr)
    : (truncateStderr stderr).length ≤ 4097 + marker.length := by
  have hend := length_endLine_le ((limited stderr).toList.take 4096)
  have htake := List.length_take_le 4096 (limited stderr).toList
  rw [← String.length_toList, toList_of_not_fits h, List.length_append, String.length_toList]
  omega

theorem prefix_of_not_fits {stderr : String} (h : ¬Fits stderr)
    : endLine ((limited stderr).toList.take 4096) <+: (truncateStderr stderr).toList := by
  rw [toList_of_not_fits h]
  exact List.prefix_append _ _

-- A line of the limited text that has ended.
theorem lines_getElem?_of_ended {stderr : String} (h : ¬Fits stderr) {lines : List (List Char)}
    {rest : List Char} (hsplits : Text.Splits (limited stderr).toList lines rest) {i : Nat}
    {line : List Char} (hline : lines[i]? = some line) (hinside : IsInside stderr i)
    : (Text.lines (truncateStderr stderr))[i]? = some (String.ofList (Text.stripCr line)) := by
  have hi : i < lines.length := (List.getElem?_eq_some_iff.mp hline).fst
  have hchars := hinside.chars
  rw [hsplits.flatten_take hi] at hchars
  have hkept : Text.unlines (lines.take (i + 1)) <+: (limited stderr).toList.take 4096 :=
    List.prefix_take_iff.mpr ⟨hsplits.unlines_take (i + 1), hchars⟩
  apply Text.lines_getElem?_of_prefix
    (fun line hline => hsplits.lines line (List.mem_of_mem_take hline))
    (hkept.trans ((prefix_endLine _).trans (prefix_of_not_fits h)))
  rw [List.getElem?_take_of_lt (by omega)]
  exact hline

theorem length_limited_le {stderr : String} {i : Nat} (hinside : IsInside stderr i)
    (hall : (Text.splitInclusive (limited stderr).toList).length ≤ i + 1)
    : (limited stderr).toList.length ≤ 4096 := by
  have hchars := hinside.chars
  rw [List.take_of_length_le hall, Text.flatten_splitInclusive] at hchars
  exact hchars

theorem keepsLine_of_stripCr {stderr result line : String} {i : Nat}
    (hline : (Text.lines stderr)[i]? = some line)
    (hresult : (Text.lines result)[i]? = some (String.ofList (Text.stripCr line.toList)))
    : KeepsLine stderr result i := by
  refine ⟨_, hresult, ?_⟩
  rcases Text.stripCr_eq_or line.toList with heq | heq
  . left
    rw [heq, String.ofList_toList]
    exact hline
  . right
    rw [hline]
    congr 1
    apply String.toList_inj.mp
    rw [String.toList_append, String.toList_ofList]
    exact heq.symm

theorem keepsLine_of_le {stderr : String} {i : Nat} (hfits : ¬Fits stderr)
    (hlines : (Text.lines stderr).length ≤ 100) (hinside : IsInside stderr i)
    : KeepsLine stderr (truncateStderr stderr) i := by
  have hlimited := limited_of_le hlines
  have ⟨lines, rest, hsplits⟩ := Text.exists_splits stderr.toList
  by_cases hi : i < lines.length
  . have hline : lines[i]? = some lines[i] := List.getElem?_eq_getElem hi
    have hresult := lines_getElem?_of_ended hfits (hlimited.symm ▸ hsplits) hline hinside
    refine ⟨_, hresult, .inl ?_⟩
    rw [hsplits.lines_eq, List.getElem?_append_left (by simpa)]
    simp only [List.getElem?_map, hline, Option.map_some]
  . -- The rest can only be inside together with the whole text, which fits then.
    have hall : (Text.splitInclusive (limited stderr).toList).length ≤ i + 1 := by
      rw [hlimited, hsplits.splitInclusive_eq, List.length_append, List.length_map]
      split
      . rw [List.length_nil]
        omega
      . rw [List.length_singleton]
        omega
    have hlength := length_limited_le hinside hall
    rw [hlimited, String.length_toList] at hlength
    exact absurd ⟨hlines, hlength⟩ hfits

theorem getElem?_hundredth {stderr : String} (hlt : 99 < (Text.lines stderr).length)
    (line : List Char)
    : (((Text.lines stderr).take 99).map String.toList ++ [line])[99]? = some line := by
  have hlength : (((Text.lines stderr).take 99).map String.toList).length = 99 := by
    rw [List.length_map, List.length_take]
    omega
  rw [List.getElem?_append_right (Nat.le_of_eq hlength), hlength]
  rfl

theorem keepsLine_of_lt {stderr : String} {i : Nat} (hfits : ¬Fits stderr)
    (hmore : 100 < (Text.lines stderr).length) (hinside : IsInside stderr i)
    (hlast : ¬IsLastAndBlank stderr i)
    : KeepsLine stderr (truncateStderr stderr) i := by
  have hlt : 99 < (Text.lines stderr).length := by omega
  have hsplits := splits_limited hlt hmore
  have hi := hinside.exists?
  have hline : (Text.lines stderr)[i]? = some (Text.lines stderr)[i] := List.getElem?_eq_getElem hi
  apply keepsLine_of_stripCr hline
  by_cases hi : i < 99
  . apply lines_getElem?_of_ended hfits hsplits _ hinside
    rw [List.getElem?_map, List.getElem?_take_of_lt hi, hline]
    rfl
  . obtain rfl : i = 99 := by
      have := hinside.lines
      omega
    have hrest : ((Text.lines stderr)[99]).toList ≠ [] := by
      intro hnil
      apply hlast
      refine ⟨rfl, hmore, ?_⟩
      rw [hline, String.toList_eq_nil_iff.mp hnil]
    have hall : (Text.splitInclusive (limited stderr).toList).length ≤ 99 + 1 := by
      rw [hsplits.splitInclusive_eq, if_neg hrest]
      simp
    have hended := splits_endLine hsplits (.inl hrest)
    have hstarts := prefix_of_not_fits hfits
    rw [List.take_of_length_le (length_limited_le hinside hall), hended.eq, List.append_nil] at hstarts
    apply Text.lines_getElem?_of_prefix hended.lines hstarts
    rw [getElem?_hundredth hlt]

theorem keepsLine_of_isInside {stderr : String} {i : Nat} (hinside : IsInside stderr i)
    (hlast : ¬IsLastAndBlank stderr i)
    : KeepsLine stderr (truncateStderr stderr) i := by
  by_cases hfits : Fits stderr
  . rw [of_fits hfits]
    exact ⟨_, List.getElem?_eq_getElem hinside.exists?,
      .inl (List.getElem?_eq_getElem hinside.exists?)⟩
  . by_cases hmore : 100 < (Text.lines stderr).length
    . exact keepsLine_of_lt hfits hmore hinside hlast
    . exact keepsLine_of_le hfits (by omega) hinside

-- The marker comes right after the first 99 lines.
theorem splits_of_isLastAndBlank {stderr : String} (hinside : IsInside stderr 99)
    (hlast : IsLastAndBlank stderr 99)
    : Text.Splits (truncateStderr stderr).toList
        (((Text.lines stderr).take 99).map String.toList
          ++ ["[... stderr truncated due to size limits ...]".toList]) [] := by
  rcases hlast with ⟨_, hmore, hblank⟩
  have hfits : ¬Fits stderr := by
    unfold Fits
    omega
  have hlt : 99 < (Text.lines stderr).length := by omega
  have hsplits := splits_limited hlt hmore
  have hrest : ((Text.lines stderr)[99]).toList = [] := by
    rw [List.getElem?_eq_getElem hlt] at hblank
    injection hblank with hblank
    rw [hblank]
    rfl
  have hall : (Text.splitInclusive (limited stderr).toList).length ≤ 99 + 1 := by
    rw [hsplits.splitInclusive_eq, if_pos hrest]
    simp
  rw [hrest] at hsplits
  have hlines : ((Text.lines stderr).take 99).map String.toList ≠ [] := by
    apply List.ne_nil_of_length_pos
    rw [List.length_map, List.length_take]
    omega
  have hresult := toList_of_not_fits hfits
  rw [List.take_of_length_le (length_limited_le hinside hall),
    endLine_of_rest_eq_nil hlines hsplits] at hresult
  rw [hresult]
  exact hsplits.append splits_marker

theorem not_keepsLine_of_isLastAndBlank {stderr : String} {i : Nat} (hinside : IsInside stderr i)
    (hlast : IsLastAndBlank stderr i)
    : ¬KeepsLine stderr (truncateStderr stderr) i := by
  obtain rfl := hlast.left
  have hsplits := splits_of_isLastAndBlank hinside hlast
  have hline : (Text.lines (truncateStderr stderr))[99]?
      = some "[... stderr truncated due to size limits ...]" := by
    rw [hsplits.lines_eq, if_pos rfl, List.append_nil, List.getElem?_map,
      getElem?_hundredth (Nat.lt_of_succ_lt hlast.right.left)]
    rfl
  rintro ⟨line, hkept, hsame⟩
  rw [hline] at hkept
  injection hkept with hkept
  rw [← hkept, hlast.right.right] at hsame
  exact absurd hsame (by decide)

structure Truncated (stderr result : String) : Prop where
  fits : Fits stderr → result = stderr
  marked : ¬Fits stderr →
    result.toList
      =
    endLine ((limited stderr).toList.take (min 4096 (limited stderr).length)) ++ marker.toList
  lines : (Text.lines result).length ≤ 101
  length : result.length ≤ 4097 + marker.length
  keeps : ∀ i, IsInside stderr i → (KeepsLine stderr result i ↔ ¬IsLastAndBlank stderr i)

theorem truncated (stderr : String) : Truncated stderr (truncateStderr stderr) where
  fits := of_fits
  marked := by
    intro hfits
    rw [toList_of_not_fits hfits, ← String.length_toList, List.take_eq_take_min]
  lines := by
    by_cases hfits : Fits stderr
    . rw [of_fits hfits]
      exact hfits.left.trans (by omega)
    . exact length_lines_le hfits
  length := by
    by_cases hfits : Fits stderr
    . rw [of_fits hfits]
      exact hfits.right.trans (by omega)
    . exact length_le hfits
  keeps := by
    intro i hinside
    constructor
    . intro hkeeps hlast
      exact not_keepsLine_of_isLastAndBlank hinside hlast hkeeps
    . exact keepsLine_of_isInside hinside

theorem isInside_of_blank {stderr : String} (hblank : Text.lines stderr = List.replicate 101 "")
    : IsInside stderr 99 ∧ IsLastAndBlank stderr 99 := by
  have hmore : 100 < (Text.lines stderr).length := by
    rw [hblank]
    decide
  refine ⟨⟨Nat.lt_of_succ_lt hmore, by decide, ?_⟩, rfl, hmore, ?_⟩
  . rw [(splits_limited (Nat.lt_of_succ_lt hmore) hmore).splitInclusive_eq]
    simp [hblank]
  . rw [hblank]
    rfl

-- The last of the 100 lines is blank, and the newline before it is taken for its own.
theorem loses_blank_line
    : ¬∀ stderr i, IsInside stderr i → KeepsLine stderr (truncateStderr stderr) i := by
  intro hkeeps
  have ⟨hinside, hlast⟩ := isInside_of_blank (Text.lines_replicate_newline 101)
  exact not_keepsLine_of_isLastAndBlank hinside hlast (hkeeps _ 99 hinside)

end truncateStderr

end Koval
