import Koval.Probe.Numa
import Koval.Text.Separator
import Koval.Text.Words
import Mathlib.Data.Finset.Sort

/-!
This module contains when the probe reads what the format of the kernel says.
-/

namespace Koval

namespace parseRangeList

open Text

inductive Contributes : List Char → List Nat → Prop
  | number {part : List Char} {n : Nat} (h : IsDecimal part n) : Contributes part [n]
  | range {startStr endStr : List Char} {first last : Nat} (hstart : IsDecimal startStr first)
      (hend : IsDecimal endStr last) (hle : first ≤ last)
      : Contributes (startStr ++ '-' :: endStr) (List.range' first (last + 1 - first))
  | other {part : List Char} (hnumber : ∀ n, ¬IsDecimal part n)
      (hrange : ∀ startStr endStr first last, part = startStr ++ '-' :: endStr →
        IsDecimal startStr first → IsDecimal endStr last → last < first)
      : Contributes part []

def Reads (content : String) (ids : List Nat) : Prop :=
  ∃ contributions,
    List.Forall₂ (fun part => Contributes (trim part)) (content.toList.splitOn ',') contributions
      ∧ ids = contributions.flatten

/--
A number with a plus sign, or bounds with plus signs or with more dashes behind them, where the code
reads numbers.
-/
def IsLenient (part : List Char) : Prop :=
  match part.splitOn '-' with
  | [] => False
  | [number] => number.head? = some '+' ∧ (parseU32 number).isSome
  | startStr :: endStr :: rest =>
    (startStr.head? = some '+' ∨ endStr.head? = some '+' ∨ rest ≠ [])
      ∧ ∃ first ∈ parseU32 startStr, ∃ last ∈ parseU32 endStr, first ≤ last

instance : DecidablePred IsLenient := by
  intro part
  unfold IsLenient
  split <;> infer_instance

theorem head?_ne_of_isDecimal {digits : List Char} {n : Nat} (h : IsDecimal digits n)
    : digits.head? ≠ some '+' := by
  intro hhead
  exact h.notMem rfl (List.mem_of_head? hhead)

theorem isDecimal_of_parseU32 {s : List Char} {n : Nat} (h : parseU32 s = some n)
    (hplus : s.head? ≠ some '+')
    : IsDecimal s n := by
  rcases parseU32_eq_some_iff.mp h with h | ⟨digits, rfl, _⟩
  . exact h
  . exact absurd rfl hplus

theorem splitOn_range {startStr endStr : List Char} {first last : Nat}
    (hstart : IsDecimal startStr first) (hend : IsDecimal endStr last)
    : (startStr ++ '-' :: endStr).splitOn '-' = [startStr, endStr] := by
  rw [List.splitOn_append_cons_self, List.splitOn_eq_singleton (hstart.notMem rfl),
    List.splitOn_eq_singleton (hend.notMem rfl)]
  rfl

theorem contributes_exists (part : List Char) : ∃ ids, Contributes part ids := by
  by_cases hnumber : ∃ n, IsDecimal part n
  . rcases hnumber with ⟨n, hnumber⟩
    exact ⟨_, .number hnumber⟩
  . by_cases hrange : ∃ startStr endStr first last, part = startStr ++ '-' :: endStr
        ∧ IsDecimal startStr first ∧ IsDecimal endStr last ∧ first ≤ last
    . rcases hrange with ⟨startStr, endStr, first, last, rfl, hstart, hend, hle⟩
      exact ⟨_, .range hstart hend hle⟩
    . refine ⟨_, .other (fun n h => hnumber ⟨n, h⟩) ?_⟩
      intro startStr endStr first last hpart hstart hend
      apply Nat.lt_of_not_le
      exact fun hle => hrange ⟨startStr, endStr, first, last, hpart, hstart, hend, hle⟩

theorem range'_eq_nil_iff (first last : Nat)
    : List.range' first (last + 1 - first) = [] ↔ last < first := by
  rw [List.range'_eq_nil_iff]
  omega

theorem splitOn_cases (part : List Char)
    : ('-' ∉ part ∧ part.splitOn '-' = [part])
        ∨ '-' ∈ part ∧ ∃ startStr endStr rest, part.splitOn '-' = startStr :: endStr :: rest := by
  by_cases hdash : '-' ∈ part
  . right
    rcases List.append_of_mem hdash with ⟨startStr, endStr, hpart⟩
    refine ⟨hdash, ?_⟩
    rw [hpart, List.splitOn_append_cons_self]
    cases hstart : startStr.splitOn '-' with
    | nil => exact absurd hstart (List.splitOn_ne_nil '-' startStr)
    | cons piece pieces =>
      cases hrest : pieces ++ endStr.splitOn '-' with
      | nil => exact absurd (List.append_eq_nil_iff.mp hrest).right (List.splitOn_ne_nil '-' endStr)
      | cons piece' pieces' => exact ⟨piece, piece', pieces', congrArg (piece :: ·) hrest⟩
  . exact .inl ⟨hdash, List.splitOn_eq_singleton hdash⟩

theorem parsePart_of_notMem {part : List Char} (h : '-' ∉ trim part)
    : parsePart part = (parseU32 (trim part)).toList := by
  unfold parsePart
  dsimp only
  by_cases hempty : trim part = []
  . rw [if_pos hempty, hempty]
    rfl
  . rw [if_neg hempty, if_neg h]
    cases parseU32 (trim part) <;> rfl

theorem parsePart_of_mem {part startStr endStr : List Char} {rest : List (List Char)}
    (hdash : '-' ∈ trim part) (h : (trim part).splitOn '-' = startStr :: endStr :: rest)
    : parsePart part
        =
      match parseU32 startStr, parseU32 endStr with
      | some first, some last => List.range' first (last + 1 - first)
      | _, _ => [] := by
  unfold parsePart
  dsimp only
  rw [if_neg (List.ne_nil_of_mem hdash), if_pos hdash]
  split
  . next heq =>
    rw [h] at heq
    injection heq with hstart heq
    injection heq with hend _
    subst hstart hend
    rfl
  . next hnone => exact absurd h (hnone _ _ _)

theorem isLenient_of_notMem {part : List Char} (h : '-' ∉ part)
    : IsLenient part ↔ part.head? = some '+' ∧ (parseU32 part).isSome := by
  unfold IsLenient
  rw [List.splitOn_eq_singleton h]

theorem isLenient_of_splitOn {part startStr endStr : List Char} {rest : List (List Char)}
    (h : part.splitOn '-' = startStr :: endStr :: rest)
    : IsLenient part
        ↔
      (startStr.head? = some '+' ∨ endStr.head? = some '+' ∨ rest ≠ [])
        ∧ ∃ first last, parseU32 startStr = some first ∧ parseU32 endStr = some last
            ∧ first ≤ last := by
  unfold IsLenient
  rw [h]
  simp only [Option.mem_def, exists_and_left]

theorem eq_of_splitOn {part startStr endStr : List Char}
    (h : part.splitOn '-' = [startStr, endStr])
    : part = startStr ++ '-' :: endStr := by
  have hpart : ['-'].intercalate (part.splitOn '-') = part := List.intercalate_splitOn '-'
  rw [h] at hpart
  rw [← hpart]
  simp [List.intercalate]

theorem parsePart_eq_nil_iff {part : List Char} (hnumber : ∀ n, ¬IsDecimal (trim part) n)
    (hrange : ∀ startStr endStr first last, trim part = startStr ++ '-' :: endStr →
      IsDecimal startStr first → IsDecimal endStr last → last < first)
    : parsePart part = [] ↔ ¬IsLenient (trim part) := by
  rcases splitOn_cases (trim part) with ⟨hdash, _⟩ | ⟨hdash, startStr, endStr, rest, hsplit⟩
  . rw [parsePart_of_notMem hdash, isLenient_of_notMem hdash]
    cases hparse : parseU32 (trim part) with
    | none => simp
    | some n =>
      have hplus : (trim part).head? = some '+' := by
        rw [← not_not (a := (trim part).head? = some '+')]
        exact fun hplus => hnumber n (isDecimal_of_parseU32 hparse hplus)
      simp [hplus]
  . rw [parsePart_of_mem hdash hsplit, isLenient_of_splitOn hsplit]
    split
    . next first last hfirst hlast =>
      rw [range'_eq_nil_iff]
      constructor
      . rintro hlt ⟨_, a, b, ha, hb, hle⟩
        rw [hfirst] at ha
        rw [hlast] at hb
        injection ha with ha
        injection hb with hb
        omega
      . intro hstrict
        apply Nat.lt_of_not_le
        intro hle
        apply hstrict
        refine ⟨?_, first, last, hfirst, hlast, hle⟩
        by_contra hplain
        rw [not_or, not_or, not_not] at hplain
        rcases hplain with ⟨hstart, hend, rfl⟩
        exact Nat.not_lt.mpr hle (hrange _ _ _ _ (eq_of_splitOn hsplit)
          (isDecimal_of_parseU32 hfirst hstart) (isDecimal_of_parseU32 hlast hend))
    . next hnone =>
      refine iff_of_true rfl ?_
      rintro ⟨_, first, last, hfirst, hlast, _⟩
      exact hnone first last hfirst hlast

theorem parsePart_of_isDecimal {part : List Char} {n : Nat} (h : IsDecimal (trim part) n)
    : parsePart part = [n] ∧ ¬IsLenient (trim part) := by
  have hdash : '-' ∉ trim part := h.notMem rfl
  constructor
  . rw [parsePart_of_notMem hdash, h.parseU32]
    rfl
  . rw [isLenient_of_notMem hdash]
    exact fun hlenient => head?_ne_of_isDecimal h hlenient.left

theorem parsePart_of_range {part startStr endStr : List Char} {first last : Nat}
    (htrim : trim part = startStr ++ '-' :: endStr) (hstart : IsDecimal startStr first)
    (hend : IsDecimal endStr last)
    : parsePart part = List.range' first (last + 1 - first) ∧ ¬IsLenient (trim part) := by
  have hsplit : (trim part).splitOn '-' = [startStr, endStr] := by
    rw [htrim]
    exact splitOn_range hstart hend
  have hdash : '-' ∈ trim part := by
    rw [htrim]
    simp
  constructor
  . rw [parsePart_of_mem hdash hsplit, hstart.parseU32, hend.parseU32]
  . rw [isLenient_of_splitOn hsplit]
    rintro ⟨hplus | hplus | hrest, _⟩
    . exact head?_ne_of_isDecimal hstart hplus
    . exact head?_ne_of_isDecimal hend hplus
    . exact hrest rfl

/-- The code reads a part in its own way at most where the format gives it nothing. -/
theorem parsePart_of_contributes {part : List Char} {ids : List Nat}
    (h : Contributes (trim part) ids)
    : ids.Sublist (parsePart part) ∧ (parsePart part = ids ↔ ¬IsLenient (trim part)) := by
  generalize htrim : trim part = trimmed at h
  cases h with
  | number h =>
    subst htrim
    have ⟨hparse, hstrict⟩ := parsePart_of_isDecimal h
    exact ⟨hparse ▸ .refl _, iff_of_true hparse hstrict⟩
  | range hstart hend hle =>
    have ⟨hparse, hstrict⟩ := parsePart_of_range htrim hstart hend
    rw [htrim] at hstrict
    exact ⟨hparse ▸ .refl _, iff_of_true hparse hstrict⟩
  | other hnumber hrange =>
    subst htrim
    exact ⟨List.nil_sublist _, parsePart_eq_nil_iff hnumber hrange⟩

theorem not_isDecimal_range {startStr endStr : List Char} {n : Nat}
    : ¬IsDecimal (startStr ++ '-' :: endStr) n :=
  fun h => h.notMem (c := '-') rfl (by simp)

theorem contributes_unique {part : List Char} {ids ids' : List Nat} (h : Contributes part ids)
    (h' : Contributes part ids')
    : ids = ids' := by
  cases h with
  | number h =>
    generalize hpart : part = other at h'
    cases h' with
    | number h' =>
      subst hpart
      rw [h.unique h']
    | range _ _ _ =>
      subst hpart
      exact absurd h not_isDecimal_range
    | other hnumber _ =>
      subst hpart
      exact absurd h (hnumber _)
  | @range startStr endStr first last hstart hend hle =>
    generalize hpart : startStr ++ '-' :: endStr = other at h'
    cases h' with
    | number h' =>
      subst hpart
      exact absurd h' not_isDecimal_range
    | range hstart' hend' _ =>
      rw [Separator.append_cons_inj_left (hstart.notMem rfl) (hstart'.notMem rfl)] at hpart
      rcases hpart with ⟨rfl, rfl⟩
      rw [hstart.unique hstart', hend.unique hend']
    | other _ hrange =>
      exact absurd hle (Nat.not_le.mpr (hrange _ _ _ _ hpart.symm hstart hend))
  | other hnumber hrange =>
    cases h' with
    | number h' => exact absurd h' (hnumber _)
    | range hstart hend hle => exact absurd hle (Nat.not_le.mpr (hrange _ _ _ _ rfl hstart hend))
    | other _ _ => rfl

theorem existsUnique_reads (content : String) : ∃! ids, Reads content ids := by
  have hexists (parts : List (List Char))
      : ∃ contributions, List.Forall₂ (fun part => Contributes (trim part)) parts contributions := by
    induction parts with
    | nil => exact ⟨[], .nil⟩
    | cons part parts ih =>
      rcases ih with ⟨contributions, hrest⟩
      have ⟨ids, hids⟩ := contributes_exists (trim part)
      exact ⟨ids :: contributions, .cons hids hrest⟩
  have ⟨contributions, h⟩ := hexists (content.toList.splitOn ',')
  refine ⟨contributions.flatten, ⟨contributions, h, rfl⟩, ?_⟩
  rintro _ ⟨contributions', h', rfl⟩
  have hunique : Relator.RightUnique fun part => Contributes (trim part) :=
    fun _ _ _ hids hids' => contributes_unique hids hids'
  rw [List.right_unique_forall₂' hunique h' h]

-- What is read from each part contains what the format says, so that the whole is the same only if each part is.
theorem forall_of_flatten_eq {parts : List (List Char)} {contributions : List (List Nat)}
    (h : List.Forall₂ (fun part => Contributes (trim part)) parts contributions)
    : contributions.flatten.Sublist (parts.flatMap parsePart)
        ∧
      (parts.flatMap parsePart = contributions.flatten ↔ ∀ part ∈ parts, ¬IsLenient (trim part)) := by
  induction h with
  | nil => exact ⟨.refl _, iff_of_true rfl (by simp)⟩
  | @cons part ids parts contributions hids _ ih =>
    have ⟨hsub, hpart⟩ := parsePart_of_contributes hids
    refine ⟨hsub.append ih.left, ?_⟩
    rw [List.flatMap_cons, List.flatten_cons, List.forall_mem_cons, ← hpart, ← ih.right]
    constructor
    . intro heq
      have hlength := congrArg List.length heq
      rw [List.length_append, List.length_append] at hlength
      have hle := hsub.length_le
      have hle' := ih.left.length_le
      exact ⟨(hsub.eq_of_length (by omega)).symm, (ih.left.eq_of_length (by omega)).symm⟩
    . rintro ⟨heq, heq'⟩
      rw [heq, heq']

theorem reads_iff (content : String)
    : Reads content (parseRangeList content)
        ↔
      ∀ part ∈ content.toList.splitOn ',', ¬IsLenient (trim part) := by
  rcases (existsUnique_reads content).exists with ⟨ids, contributions, h, rfl⟩
  rw [← (forall_of_flatten_eq h).right]
  constructor
  . intro hreads
    exact (existsUnique_reads content).unique hreads ⟨contributions, h, rfl⟩
  . exact fun heq => ⟨contributions, h, heq⟩

def runs (ids : List Nat) : List (Nat × Nat) :=
  match ids with
  | [] => []
  | id :: ids =>
    match runs ids with
    | [] => [(id, id)]
    | (first, last) :: rest =>
      if first = id + 1 then
        (id, last) :: rest
      else
        (id, id) :: (first, last) :: rest

def printRun (run : Nat × Nat) : List Char :=
  if run.fst = run.snd then
    Nat.toDigits 10 run.fst
  else
    Nat.toDigits 10 run.fst ++ '-' :: Nat.toDigits 10 run.snd

/-- The list of ids that the kernel writes for a set. -/
def printRangeList (ids : Finset Nat) : String :=
  String.ofList ([','].intercalate ((runs ids.sort).map printRun))

example : runs [0, 1, 3, 5, 6] = [(0, 1), (3, 3), (5, 6)] := by
  decide

-- Each run covers its ids, and what it ends with is one of them.
theorem flatMap_runs (ids : List Nat)
    : ((runs ids).flatMap fun run => List.range' run.fst (run.snd + 1 - run.fst)) = ids
        ∧
      ∀ run ∈ runs ids, run.fst ≤ run.snd ∧ run.snd ∈ ids := by
  induction ids with
  | nil => exact ⟨rfl, by simp [runs]⟩
  | cons id ids ih =>
    have hone : List.range' id (id + 1 - id) = [id] := by
      rw [Nat.add_sub_cancel_left]
      rfl
    unfold runs
    split
    . next hnil =>
      rw [hnil] at ih
      rw [← ih.left]
      simp
    . next first last rest hruns =>
      rw [hruns] at ih
      have ⟨hle, hmem⟩ := ih.right _ List.mem_cons_self
      split
      . next hnext =>
        have hsplit : List.range' id (last + 1 - id)
            = id :: List.range' first (last + 1 - first) := by
          have hlength : last + 1 - id = last + 1 - first + 1 := by omega
          rw [hlength, List.range'_succ, hnext]
        refine ⟨?_, ?_⟩
        . rw [List.flatMap_cons, hsplit, List.cons_append]
          congr 1
          exact ih.left
        . rw [List.forall_mem_cons]
          refine ⟨⟨by omega, List.mem_cons_of_mem _ hmem⟩, ?_⟩
          intro run hrun
          have ⟨hle', hmem'⟩ := ih.right run (List.mem_cons_of_mem _ hrun)
          exact ⟨hle', List.mem_cons_of_mem _ hmem'⟩
      . refine ⟨?_, ?_⟩
        . rw [List.flatMap_cons, hone, ih.left]
          rfl
        . rw [List.forall_mem_cons]
          refine ⟨⟨Nat.le_refl _, List.mem_cons_self⟩, ?_⟩
          intro run hrun
          have ⟨hle', hmem'⟩ := ih.right run hrun
          exact ⟨hle', List.mem_cons_of_mem _ hmem'⟩

theorem forall_mem_printRun {p : Char → Prop} (hdigit : ∀ c, c.isDigit → p c) (hdash : p '-')
    (run : Nat × Nat)
    : ∀ c ∈ printRun run, p c := by
  have hdigits (n : Nat) : ∀ c ∈ Nat.toDigits 10 n, p c := fun c hc =>
    hdigit c (Nat.isDigit_of_mem_toDigits (by decide) (by decide) hc)
  unfold printRun
  split
  . exact hdigits _
  . rw [List.forall_mem_append, List.forall_mem_cons]
    exact ⟨hdigits _, hdash, hdigits _⟩

theorem comma_notMem_printRun (run : Nat × Nat) : ',' ∉ printRun run := by
  intro hmem
  have hne : ∀ c ∈ printRun run, c ≠ ',' := by
    apply forall_mem_printRun
    . rintro c hc rfl
      contradiction
    . decide
  exact hne _ hmem rfl

section

variable {ending : List Char} (hending : ∀ c ∈ ending, isWhiteSpace c)
include hending

theorem parsePart_printRun {run : Nat × Nat} (hle : run.fst ≤ run.snd) (hlt : run.snd < 2 ^ 32)
    : parsePart (printRun run ++ ending) = List.range' run.fst (run.snd + 1 - run.fst) := by
  have htrim : trim (printRun run ++ ending) = printRun run :=
    trim_append_of_isWhiteSpace
      (forall_mem_printRun (fun _ hc => isWhiteSpace_of_isDigit hc) rfl run) hending
  have hfirst : IsDecimal (Nat.toDigits 10 run.fst) run.fst := isDecimal_toDigits (by omega)
  by_cases hone : run.fst = run.snd
  . have hprint : printRun run = Nat.toDigits 10 run.fst := if_pos hone
    rw [← hprint, ← htrim] at hfirst
    rw [(parsePart_of_isDecimal hfirst).left, ← hone, Nat.add_sub_cancel_left]
    rfl
  . have hprint : printRun run = Nat.toDigits 10 run.fst ++ '-' :: Nat.toDigits 10 run.snd :=
      if_neg hone
    rw [hprint] at htrim
    rw [hprint, (parsePart_of_range htrim hfirst (isDecimal_toDigits hlt)).left]

theorem comma_notMem_of_isWhiteSpace : ',' ∉ ending := by
  intro hmem
  have hcomma := hending _ hmem
  contradiction

theorem splitOn_intercalate_append (pieces : List (List Char)) (last : List Char)
    (hpieces : ∀ piece ∈ pieces ++ [last], ',' ∉ piece)
    : ([','].intercalate (pieces ++ [last]) ++ ending).splitOn ',' = pieces ++ [last ++ ending] := by
  have hjoin : [','].intercalate (pieces ++ [last]) ++ ending
      = [','].intercalate (pieces ++ [last ++ ending]) := by
    induction pieces with
    | nil => simp [List.intercalate]
    | cons piece pieces ih =>
      cases pieces with
      | nil => simp [List.intercalate]
      | cons next pieces =>
        have hrest := ih fun other hother => hpieces other (List.mem_cons_of_mem _ hother)
        simp only [List.cons_append, List.intercalate_cons_cons] at hrest ⊢
        rw [List.append_assoc, List.append_assoc, hrest]
        simp
  rw [hjoin, List.splitOn_intercalate]
  . intro piece hpiece
    rw [List.mem_append, List.mem_singleton] at hpiece
    rcases hpiece with hpiece | rfl
    . exact hpieces piece (List.mem_append_left _ hpiece)
    . rw [List.mem_append, not_or]
      exact ⟨hpieces last (by simp), comma_notMem_of_isWhiteSpace hending⟩
  . simp

end

theorem parseRangeList_printRangeList {ids : Finset Nat} (hlt : ∀ id ∈ ids, id < 2 ^ 32)
    {ending : String} (hending : ∀ c ∈ ending.toList, isWhiteSpace c)
    : parseRangeList (printRangeList ids ++ ending) = ids.sort := by
  rcases flatMap_runs ids.sort with ⟨hruns, hbounds⟩
  have hparse : ∀ run ∈ runs ids.sort, ∀ ending, (∀ c ∈ ending, isWhiteSpace c) →
      parsePart (printRun run ++ ending) = List.range' run.fst (run.snd + 1 - run.fst) := by
    intro run hrun ending hending
    have ⟨hle, hmem⟩ := hbounds run hrun
    exact parsePart_printRun hending hle (hlt _ ((Finset.mem_sort _).mp hmem))
  unfold parseRangeList printRangeList
  rw [String.toList_append, String.toList_ofList]
  rcases List.eq_nil_or_concat (runs ids.sort) with hnil | ⟨rest, last, hsplit⟩
  . have hnone : ∀ c ∈ ([] : List Char), isWhiteSpace c = false := by simp
    have htrim : trim ending.toList = [] := trim_append_of_isWhiteSpace hnone hending
    rw [hnil] at hruns
    rw [hnil, ← hruns, List.map_nil, List.intercalate_nil, List.nil_append,
      List.splitOn_eq_singleton (comma_notMem_of_isWhiteSpace hending), List.flatMap_singleton]
    unfold parsePart
    rw [if_pos htrim]
    rfl
  . rw [List.concat_eq_append] at hsplit
    rw [hsplit] at hruns hparse
    rw [hsplit, List.map_append, List.map_singleton, splitOn_intercalate_append hending,
      List.flatMap_append, List.flatMap_singleton, hparse last (by simp) _ hending, ← hruns,
      List.flatMap_append, List.flatMap_singleton, List.flatMap_map]
    . congr 1
      apply List.flatMap_congr
      intro run hrun
      have hrun' := hparse run (List.mem_append_left _ hrun) []
        fun _ hc => absurd hc List.not_mem_nil
      rwa [List.append_nil] at hrun'
    . intro piece hpiece
      rw [← List.map_singleton (f := printRun), ← List.map_append, List.mem_map] at hpiece
      rcases hpiece with ⟨run, _, rfl⟩
      exact comma_notMem_printRun run

end parseRangeList

/--
What is read from a list of ids is what its parts contribute, if and only if no part is one that the
code reads although it is not in the format; and what the kernel writes for a set is read as the set.
-/
theorem parseRangeList_exact_iff (content : String)
    : (∃! ids, parseRangeList.Reads content ids)
        ∧
      (parseRangeList.Reads content (parseRangeList content)
          ↔
        ∀ part ∈ content.toList.splitOn ',', ¬parseRangeList.IsLenient (Text.trim part))
        ∧
      ∀ (ids : Finset Nat) (ending : String), (∀ id ∈ ids, id < 2 ^ 32) →
        (∀ c ∈ ending.toList, Text.isWhiteSpace c) →
          parseRangeList (parseRangeList.printRangeList ids ++ ending) = ids.sort :=
  ⟨parseRangeList.existsUnique_reads content, parseRangeList.reads_iff content,
    fun _ _ hlt hending => parseRangeList.parseRangeList_printRangeList hlt hending⟩

theorem parseRangeList_exact_iff_online
    : parseRangeList.Reads "0-1,3\n" (parseRangeList "0-1,3\n")
        ∧
      parseRangeList (parseRangeList.printRangeList {3, 0, 1} ++ "\n")
        = ({3, 0, 1} : Finset Nat).sort := by
  have ⟨_, hreads, hprint⟩ := parseRangeList_exact_iff "0-1,3\n"
  have hnewline : "\n".toList.all Text.isWhiteSpace := by decide
  exact ⟨hreads.mpr (by decide),
    hprint {3, 0, 1} "\n" (by decide +kernel) (List.all_eq_true.mp hnewline)⟩

/-- Nothing looks at what is behind the second number. -/
theorem parseRangeList_reads_on
    : ¬∀ content, parseRangeList.Reads content (parseRangeList content) := by
  intro hall
  have hreads := hall "1-2-3"
  rw [parseRangeList.reads_iff] at hreads
  revert hreads
  decide

end Koval
