import Koval.Text.Lines

/-!
This module contains texts as the lines that newlines end and a rest without a newline.
-/

namespace Text

-- Each of the lines with the newline that ends it.
def unlines (lines : List (List Char)) : List Char := lines.flatMap (· ++ ['\n'])

structure Splits (text : List Char) (lines : List (List Char)) (rest : List Char) : Prop where
  eq : text = unlines lines ++ rest
  lines : ∀ line ∈ lines, '\n' ∉ line
  rest : '\n' ∉ rest

theorem unlines_cons (line : List Char) (lines : List (List Char))
    : unlines (line :: lines) = line ++ '\n' :: unlines lines := by
  unfold unlines
  rw [List.flatMap_cons, List.append_assoc, List.singleton_append]

theorem unlines_append (lines lines' : List (List Char))
    : unlines (lines ++ lines') = unlines lines ++ unlines lines' := by
  unfold unlines
  rw [List.flatMap_append]

theorem exists_splits (text : List Char) : ∃ lines rest, Splits text lines rest := by
  induction text with
  | nil => exact ⟨[], [], rfl, by simp, List.not_mem_nil⟩
  | cons c text ih =>
    rcases ih with ⟨lines, rest, htext, hlines, hrest⟩
    by_cases hc : c = '\n'
    . refine ⟨[] :: lines, rest, ?_, ?_, hrest⟩
      . rw [unlines_cons, hc, htext]
        rfl
      . intro line hline
        rw [List.mem_cons] at hline
        rcases hline with rfl | hline
        . exact List.not_mem_nil
        . exact hlines line hline
    . have hcons {line : List Char} (h : '\n' ∉ line) : '\n' ∉ c :: line := by
        rw [List.mem_cons, not_or]
        exact ⟨Ne.symm hc, h⟩
      cases lines with
      | nil =>
        refine ⟨[], c :: rest, ?_, by simp, hcons hrest⟩
        rw [htext]
        rfl
      | cons line lines =>
        refine ⟨(c :: line) :: lines, rest, ?_, ?_, hrest⟩
        . rw [htext, unlines_cons, unlines_cons]
          rfl
        . intro other hother
          rw [List.mem_cons] at hother
          rcases hother with rfl | hother
          . exact hcons (hlines line List.mem_cons_self)
          . exact hlines other (List.mem_cons_of_mem line hother)

namespace splitInclusive

theorem go_append {start : List Char} (hstart : '\n' ∉ start) (text line : List Char)
    : go (start ++ text) line = go text (start.reverse ++ line) := by
  induction start generalizing line with
  | nil => rfl
  | cons c start ih =>
    rw [List.mem_cons, not_or] at hstart
    rw [List.cons_append, go, if_neg (Ne.symm hstart.left), ih hstart.right, List.reverse_cons,
      List.append_assoc]
    rfl

theorem go_newline (text line : List Char)
    : go ('\n' :: text) line = ('\n' :: line).reverse :: go text [] := rfl

end splitInclusive

theorem splitInclusive_unlines {lines : List (List Char)} (hlines : ∀ line ∈ lines, '\n' ∉ line)
    (text : List Char)
    : splitInclusive (unlines lines ++ text)
        =
      lines.map (· ++ ['\n']) ++ splitInclusive text := by
  unfold splitInclusive
  induction lines with
  | nil => rfl
  | cons line lines ih =>
    rw [unlines_cons, List.append_assoc, splitInclusive.go_append (hlines line List.mem_cons_self),
      List.cons_append, splitInclusive.go_newline,
      ih fun line hline => hlines line (List.mem_cons_of_mem _ hline)]
    simp

theorem splitInclusive_of_notMem {rest : List Char} (hrest : '\n' ∉ rest)
    : splitInclusive rest = if rest = [] then [] else [rest] := by
  have hgo := splitInclusive.go_append hrest [] []
  unfold splitInclusive
  rw [List.append_nil, List.append_nil] at hgo
  rw [hgo, splitInclusive.go]
  simp only [List.reverse_eq_nil_iff, List.reverse_reverse]

theorem Splits.splitInclusive_eq {text : List Char} {lines : List (List Char)} {rest : List Char}
    (h : Splits text lines rest)
    : splitInclusive text = lines.map (· ++ ['\n']) ++ if rest = [] then [] else [rest] := by
  rw [h.eq, splitInclusive_unlines h.lines, splitInclusive_of_notMem h.rest]

theorem flatten_splitInclusive (text : List Char) : (splitInclusive text).flatten = text := by
  have ⟨lines, rest, h⟩ := exists_splits text
  rw [h.splitInclusive_eq, List.flatten_append, ← List.flatMap_def]
  conv => rhs; rw [h.eq]
  unfold unlines
  split
  . next hrest => rw [hrest, List.flatten_nil]
  . rw [List.flatten_singleton]

theorem Splits.flatten_take {text : List Char} {lines : List (List Char)} {rest : List Char}
    (h : Splits text lines rest) {n : Nat} (hn : n ≤ lines.length)
    : ((splitInclusive text).take n).flatten = unlines (lines.take n) := by
  rw [h.splitInclusive_eq, List.take_append_of_le_length (by simpa), ← List.map_take,
    ← List.flatMap_def]
  rfl

theorem Splits.unlines_take {text : List Char} {lines : List (List Char)} {rest : List Char}
    (h : Splits text lines rest) (n : Nat)
    : unlines (lines.take n) <+: text := by
  rw [h.eq]
  conv => rhs; rw [← List.take_append_drop n lines, unlines_append, List.append_assoc]
  exact List.prefix_append _ _

-- Without a carriage return at the end.
def stripCr (line : List Char) : List Char :=
  match line.reverse with
  | '\r' :: rest => rest.reverse
  | _ => line

theorem stripLineEnd_append_newline (line : List Char)
    : stripLineEnd (line ++ ['\n']) = stripCr line := by
  unfold stripLineEnd stripCr
  rw [List.reverse_append, List.reverse_singleton, List.singleton_append]
  split
  . next heq =>
    injection heq with _ heq
    rw [heq]
    rfl
  . next rest hrest heq =>
    injection heq with _ heq
    split
    . next hrev =>
      rw [heq] at hrev
      exact absurd hrev (hrest _)
    . rw [← heq, List.reverse_reverse]
  . next _ hnone => exact absurd rfl (hnone line.reverse)

theorem stripLineEnd_of_notMem {line : List Char} (h : '\n' ∉ line) : stripLineEnd line = line := by
  unfold stripLineEnd
  split
  . next heq =>
    rw [← List.mem_reverse, heq] at h
    exact absurd List.mem_cons_self h
  . next heq =>
    rw [← List.mem_reverse, heq] at h
    exact absurd List.mem_cons_self h
  . rfl

theorem stripCr_eq_or (line : List Char) : stripCr line = line ∨ stripCr line ++ ['\r'] = line := by
  unfold stripCr
  split
  . next rest heq =>
    right
    rw [← List.reverse_cons, ← heq, List.reverse_reverse]
  . exact .inl rfl

theorem notMem_stripCr {line : List Char} (h : '\n' ∉ line) : '\n' ∉ stripCr line := by
  intro hmem
  rcases stripCr_eq_or line with heq | heq
  . exact h (heq ▸ hmem)
  . rw [← heq, List.mem_append, not_or] at h
    exact h.left hmem

theorem Splits.lines_eq {s : String} {lines : List (List Char)} {rest : List Char}
    (h : Splits s.toList lines rest)
    : Text.lines s
        =
      (lines.map fun line => String.ofList (stripCr line))
        ++ if rest = [] then [] else [String.ofList rest] := by
  unfold Text.lines
  rw [h.splitInclusive_eq, List.map_append, List.map_map]
  congr 1
  . apply List.map_congr_left
    intro line _
    exact congrArg String.ofList (stripLineEnd_append_newline line)
  . split
    . rfl
    . rw [List.map_singleton, stripLineEnd_of_notMem h.rest]

theorem Splits.length_lines {s : String} {lines : List (List Char)} {rest : List Char}
    (h : Splits s.toList lines rest)
    : (Text.lines s).length = lines.length + if rest = [] then 0 else 1 := by
  rw [h.lines_eq, List.length_append, List.length_map]
  split <;> rfl

theorem lines_replicate_newline (n : Nat)
    : lines (String.ofList (List.replicate n '\n')) = List.replicate n "" := by
  have hsplits : Splits (String.ofList (List.replicate n '\n')).toList (List.replicate n []) [] := by
    refine ⟨?_, by simp, List.not_mem_nil⟩
    unfold unlines
    rw [String.toList_ofList, List.flatMap_replicate, List.append_nil]
    simp
  rw [hsplits.lines_eq, if_pos rfl, List.append_nil, List.map_replicate]
  rfl

theorem notMem_of_mem_lines {s line : String} (h : line ∈ lines s) : '\n' ∉ line.toList := by
  have ⟨lines, rest, hsplits⟩ := exists_splits s.toList
  rw [hsplits.lines_eq, List.mem_append, List.mem_map] at h
  rcases h with ⟨line, hline, rfl⟩ | h
  . rw [String.toList_ofList]
    exact notMem_stripCr (hsplits.lines line hline)
  . split at h
    . exact absurd h List.not_mem_nil
    . rw [List.mem_singleton.mp h, String.toList_ofList]
      exact hsplits.rest

theorem Splits.append {text text' : List Char} {lines lines' : List (List Char)}
    {rest line rest' : List Char} (h : Splits text lines rest)
    (h' : Splits text' (line :: lines') rest')
    : Splits (text ++ text') (lines ++ (rest ++ line) :: lines') rest' where
  eq := by
    rw [h.eq, h'.eq, unlines_append, unlines_cons, unlines_cons]
    simp only [List.append_assoc, List.cons_append]
  lines := by
    intro other hother
    rw [List.mem_append, List.mem_cons] at hother
    rcases hother with hother | rfl | hother
    . exact h.lines other hother
    . rw [List.mem_append, not_or]
      exact ⟨h.rest, h'.lines line List.mem_cons_self⟩
    . exact h'.lines other (List.mem_cons_of_mem line hother)
  rest := h'.rest

theorem Splits.append_of_notMem {text text' : List Char} {lines : List (List Char)}
    {rest : List Char} (h : Splits text lines rest) (h' : '\n' ∉ text')
    : Splits (text ++ text') lines (rest ++ text') where
  eq := by rw [h.eq, List.append_assoc]
  lines := h.lines
  rest := by
    rw [List.mem_append, not_or]
    exact ⟨h.rest, h'⟩

theorem length_lines_le_of_prefix {s t : String} (h : s.toList <+: t.toList)
    : (lines s).length ≤ (lines t).length := by
  rcases h with ⟨text, htext⟩
  have ⟨lines, rest, hs⟩ := exists_splits s.toList
  have ⟨lines', rest', hsplits⟩ := exists_splits text
  rw [hs.length_lines]
  cases lines' with
  | nil =>
    have hnone : '\n' ∉ text := by
      rw [hsplits.eq]
      exact hsplits.rest
    have ht := hs.append_of_notMem hnone
    rw [htext] at ht
    rw [ht.length_lines]
    split
    . omega
    . next hrest =>
      rw [if_neg (by simp [hrest])]
  | cons line lines' =>
    have ht := hs.append hsplits
    rw [htext] at ht
    rw [ht.length_lines, List.length_append, List.length_cons]
    split <;> omega

theorem lines_getElem?_of_prefix {s : String} {lines : List (List Char)}
    (hlines : ∀ line ∈ lines, '\n' ∉ line) (h : unlines lines <+: s.toList) {i : Nat}
    {line : List Char} (hline : lines[i]? = some line)
    : (Text.lines s)[i]? = some (String.ofList (stripCr line)) := by
  rcases h with ⟨text, htext⟩
  have hi : i < lines.length := (List.getElem?_eq_some_iff.mp hline).fst
  unfold Text.lines
  rw [← htext, splitInclusive_unlines hlines, List.map_append, List.getElem?_append_left (by simpa)]
  simp only [List.getElem?_map, hline, Option.map_some, stripLineEnd_append_newline]

theorem toList_intercalate_newline (lines : List String) (last : String)
    : ("\n".intercalate (lines ++ [last])).toList
        =
      unlines (lines.map String.toList) ++ last.toList := by
  induction lines with
  | nil =>
    rw [List.nil_append, String.intercalate_singleton]
    rfl
  | cons line lines ih =>
    have hcons : "\n".intercalate (line :: (lines ++ [last]))
        = line ++ "\n" ++ "\n".intercalate (lines ++ [last]) := by
      cases lines with
      | nil => exact String.intercalate_cons_cons
      | cons next lines => exact String.intercalate_cons_cons
    rw [List.cons_append, hcons, String.toList_append, ih, List.map_cons, unlines_cons]
    simp

end Text
