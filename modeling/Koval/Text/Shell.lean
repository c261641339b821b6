import Mathlib.Data.List.Infix

/-!
This module contains how a POSIX shell reads assignments of words in double quotes, and which values
such words give as they are written.
-/

namespace Shell

-- What a backslash takes its meaning from in double quotes; before a newline, both are left out.
def isEscapable (c : Char) : Bool := c = '$' || c = '`' || c = '"' || c = '\\'

def emit (c : Char) (res : Option (List Char × List Char)) : Option (List Char × List Char) :=
  res.map fun (value, rest) => (c :: value, rest)

/--
Reads a word up to the quote that ends it. There is no value where an expansion or a substitution
starts, where the shell leaves open what a dollar sign means, and where there can be no text.
-/
def readQuoted (input : List Char) : Option (List Char × List Char) :=
  match input with
  | [] => none
  | c :: rest =>
    if c = '"' then
      some ([], rest)
    else if c = '$' || c = '`' || c = '\x00' then
      none
    else if c = '\\' then
      match rest with
      | [] => none
      | e :: rest =>
        if e = '\n' then readQuoted rest
        else if isEscapable e then emit e (readQuoted rest)
        else emit '\\' (readQuoted (e :: rest))
    else
      emit c (readQuoted rest)

def isNameChar (c : Char) : Bool := c.isAlphanum || c = '_'

-- A line that is an assignment of one word in double quotes.
def readAssignment (input : List Char) : Option ((List Char × List Char) × List Char) :=
  let name := input.takeWhile isNameChar
  if name.head?.any fun c => !c.isDigit then
    match input.dropWhile isNameChar with
    | '=' :: '"' :: rest =>
      match readQuoted rest with
      | some (value, '\n' :: rest) => some ((name, value), rest)
      | _ => none
    | _ => none
  else
    none

def readAssignments (n : Nat) (input : List Char) :
    Option (List (List Char × List Char) × List Char) :=
  match n with
  | 0 => some ([], input)
  | n + 1 =>
    match readAssignment input with
    | none => none
    | some (assignment, rest) =>
      (readAssignments n rest).map fun (assignments, rest) => (assignment :: assignments, rest)

example : readQuoted "x\\\"\"\n".toList = some ("x\"".toList, ['\n']) := by
  decide

def isVerbatim (cs : List Char) : Bool :=
  match cs with
  | [] => true
  | c :: rest =>
    (if c = '\\' then rest.head?.any fun e => !(e = '\n' || isEscapable e)
      else !(c = '"' || c = '$' || c = '`' || c = '\x00'))
      && isVerbatim rest

theorem emit_eq_some {c : Char} {res : Option (List Char × List Char)} {value rest : List Char}
    (h : emit c res = some (value, rest))
    : ∃ value', value = c :: value' ∧ res = some (value', rest) := by
  unfold emit at h
  rw [Option.map_eq_some_iff] at h
  rcases h with ⟨⟨value', rest'⟩, hres, h⟩
  injection h with hvalue hrest
  rw [hres, hrest]
  exact ⟨value', hvalue.symm, rfl⟩

inductive Reads : List Char → List Char → List Char → Prop where
  | quote {rest : List Char} : Reads ('"' :: rest) [] rest
  | joined {input value rest : List Char} (h : Reads input value rest) :
    Reads ('\\' :: '\n' :: input) value rest
  | escaped {e : Char} {input value rest : List Char} (he : isEscapable e)
    (h : Reads input value rest) : Reads ('\\' :: e :: input) (e :: value) rest
  | backslash {e : Char} {input value rest : List Char} (he : ¬ (e = '\n' || isEscapable e))
    (h : Reads (e :: input) value rest) : Reads ('\\' :: e :: input) ('\\' :: value) rest
  | plain {c : Char} {input value rest : List Char} (hc : c ≠ '\\')
    (hc' : ¬ (c = '"' || c = '$' || c = '`' || c = '\x00')) (h : Reads input value rest) :
    Reads (c :: input) (c :: value) rest

theorem reads_of_readQuoted {input value rest : List Char}
    (h : readQuoted input = some (value, rest))
    : Reads input value rest := by
  fun_induction readQuoted input generalizing value with
  | case1 => contradiction
  | case2 input =>
    injection h with h
    injection h with hvalue hrest
    rw [← hvalue, hrest]
    exact .quote
  | case3 => contradiction
  | case4 => contradiction
  | case5 input _ _ ih => exact .joined (ih h)
  | case6 e input _ he _ _ ih =>
    rcases emit_eq_some h with ⟨value', rfl, hrest⟩
    exact .escaped he (ih hrest)
  | case7 e input hnewline he _ _ ih =>
    rcases emit_eq_some h with ⟨value', rfl, hrest⟩
    exact .backslash (by simp [hnewline, he]) (ih hrest)
  | case8 c input hquote hspecial hc ih =>
    rcases emit_eq_some h with ⟨value', rfl, hrest⟩
    exact .plain hc (by simp_all) (ih hrest)

/--
While backslashes and newlines wait to be seen in the value, no quote can end the word: whatever is
read to give one of them leaves another one waiting.
-/
theorem not_reads_of_waiting {input waiting value after rest : List Char} (hwaiting : waiting ≠ [])
    (hall : ∀ c ∈ waiting, c = '\\' ∨ c = '\n') (heq : waiting ++ input = value ++ '"' :: after)
    : ¬ Reads input value rest := by
  intro h
  induction h generalizing waiting with
  | quote =>
    cases waiting with
    | nil => contradiction
    | cons w waiting =>
      injection heq with hw
      have := hall w List.mem_cons_self
      rw [hw] at this
      exact absurd this (by decide)
  | joined _ ih =>
    apply @ih (waiting ++ ['\\', '\n']) (by simp)
    . intro c hc
      rw [List.mem_append] at hc
      rcases hc with hc | hc
      . exact hall c hc
      . simpa using hc
    . rw [← heq]
      simp
  | @escaped e input value rest he _ ih =>
    cases waiting with
    | nil => contradiction
    | cons w waiting =>
      rw [List.forall_mem_cons] at hall
      rw [List.cons_append, List.cons_append, List.cons.injEq] at heq
      rcases heq with ⟨hw, heq⟩
      have he : e = '\\' := by
        rw [← hw] at he ⊢
        rcases hall.left with rfl | rfl
        . rfl
        . contradiction
      apply @ih (waiting ++ ['\\', e]) (by simp)
      . intro c hc
        rw [List.mem_append] at hc
        rcases hc with hc | hc
        . exact hall.right c hc
        . left
          simpa [he] using hc
      . rw [← heq]
        simp
  | @backslash e input value rest _ _ ih =>
    cases waiting with
    | nil => contradiction
    | cons w waiting =>
      rw [List.forall_mem_cons] at hall
      rw [List.cons_append, List.cons_append, List.cons.injEq] at heq
      rcases heq with ⟨hw, heq⟩
      apply @ih (waiting ++ ['\\']) (by simp)
      . intro c hc
        rw [List.mem_append] at hc
        rcases hc with hc | hc
        . exact hall.right c hc
        . left
          simpa using hc
      . rw [← heq]
        simp
  | @plain c input value rest _ _ _ ih =>
    cases waiting with
    | nil => contradiction
    | cons w waiting =>
      rw [List.forall_mem_cons] at hall
      rw [List.cons_append, List.cons_append, List.cons.injEq] at heq
      rcases heq with ⟨hw, heq⟩
      apply @ih (waiting ++ [c]) (by simp)
      . intro c' hc'
        rw [List.mem_append, List.mem_singleton] at hc'
        rcases hc' with hc' | rfl
        . exact hall.right c' hc'
        . rw [← hw]
          exact hall.left
      . rw [← heq]
        simp

theorem quote_notMem_of_isVerbatim {cs : List Char} (h : isVerbatim cs) : '"' ∉ cs := by
  induction cs with
  | nil => simp
  | cons c cs ih =>
    rw [isVerbatim, Bool.and_eq_true] at h
    rw [List.mem_cons, not_or]
    refine ⟨?_, ih h.right⟩
    intro hc
    rw [← hc, if_neg (by decide)] at h
    exact absurd h.left (by decide)

theorem readQuoted_quote (rest : List Char) : readQuoted ('"' :: rest) = some ([], rest) := by
  unfold readQuoted
  simp

theorem readQuoted_backslash {e : Char} (he : (!(e = '\n' || isEscapable e)) = true)
    (rest : List Char)
    : readQuoted ('\\' :: e :: rest) = emit '\\' (readQuoted (e :: rest)) := by
  rw [Bool.not_eq_true', Bool.or_eq_false_iff, decide_eq_false_iff_not] at he
  rw [readQuoted.eq_def]
  simp [he.left, he.right]

theorem readQuoted_plain {c : Char} (hc : c ≠ '\\')
    (hc' : (!(c = '"' || c = '$' || c = '`' || c = '\x00')) = true) (rest : List Char)
    : readQuoted (c :: rest) = emit c (readQuoted rest) := by
  simp only [Bool.not_eq_true', Bool.or_eq_false_iff, decide_eq_false_iff_not] at hc'
  rw [readQuoted.eq_def]
  simp [hc, hc']

theorem readQuoted_verbatim {cs : List Char} (h : isVerbatim cs) (after : List Char)
    : readQuoted (cs ++ '"' :: after) = some (cs, after) := by
  induction cs with
  | nil => exact readQuoted_quote after
  | cons c cs ih =>
    rw [isVerbatim, Bool.and_eq_true] at h
    have ih := ih h.right
    have hc := h.left
    split at hc
    . next hbackslash =>
      cases cs with
      | nil => contradiction
      | cons e cs =>
        rw [hbackslash, List.cons_append, List.cons_append, readQuoted_backslash hc,
          ← List.cons_append, ih]
        rfl
    . next hbackslash =>
      rw [List.cons_append, readQuoted_plain hbackslash hc, ih]
      rfl

theorem isVerbatim_of_reads {cs after rest : List Char} (h : Reads (cs ++ '"' :: after) cs rest)
    : isVerbatim cs ∧ rest = after := by
  induction cs with
  | nil =>
    generalize hinput : [] ++ '"' :: after = input at h
    generalize hvalue : ([] : List Char) = value at h
    cases h with
    | quote =>
      injection hinput with _ hrest
      exact ⟨rfl, hrest.symm⟩
    | joined => simp at hinput
    | _ => contradiction
  | cons c cs ih =>
    generalize hinput : c :: cs ++ '"' :: after = input at h
    generalize hvalue : c :: cs = value at h
    cases h with
    | quote => contradiction
    | joined h =>
      rw [hvalue] at hinput
      apply absurd h
      apply @not_reads_of_waiting _ ['\\', '\n'] _ after _ (by simp) (by simp)
      exact hinput.symm
    | escaped he h =>
      injection hvalue with hc hcs
      rw [List.cons_append, List.cons.injEq] at hinput
      rw [← hc, hinput.left] at hinput
      apply absurd h
      apply @not_reads_of_waiting _ ['\\'] _ after _ (by simp) (by simp)
      rw [← hcs]
      exact hinput.right.symm
    | @backslash e input value _ he h =>
      injection hvalue with _ hcs
      rw [List.cons_append, List.cons.injEq] at hinput
      rw [← hinput.right, ← hcs] at h
      have ih := ih h
      refine ⟨?_, ih.right⟩
      rw [isVerbatim, if_pos rfl, ← hcs, ih.left]
      have hhead := hinput.right
      cases cs with
      | nil =>
        injection hhead with he'
        rw [← he'] at he
        exact absurd rfl he
      | cons e' cs =>
        injection hhead with he'
        rw [he']
        simpa using he
    | plain hc hc' h =>
      injection hvalue with _ hcs
      rw [List.cons_append, List.cons.injEq] at hinput
      rw [← hinput.right, ← hcs] at h
      have ih := ih h
      refine ⟨?_, ih.right⟩
      rw [isVerbatim, if_neg hc, ← hcs, ih.left]
      simpa using hc'

theorem readQuoted_eq_some_iff {cs after rest : List Char}
    : readQuoted (cs ++ '"' :: after) = some (cs, rest) ↔ isVerbatim cs ∧ rest = after := by
  constructor
  . intro h
    exact isVerbatim_of_reads (reads_of_readQuoted h)
  . rintro ⟨hcs, rfl⟩
    exact readQuoted_verbatim hcs rest

theorem readAssignment_eq_some_iff {name : List Char} (hname : name.all isNameChar)
    (hhead : name.head?.any fun c => !c.isDigit) {cs after rest : List Char}
    : readAssignment (name ++ '=' :: '"' :: (cs ++ '"' :: '\n' :: after)) = some ((name, cs), rest)
        ↔
      isVerbatim cs ∧ rest = after := by
  rw [List.all_eq_true] at hname
  have htake : (name ++ '=' :: '"' :: (cs ++ '"' :: '\n' :: after)).takeWhile isNameChar = name := by
    rw [List.takeWhile_append_of_pos hname, List.takeWhile_cons_of_neg (by decide), List.append_nil]
  have hdrop : (name ++ '=' :: '"' :: (cs ++ '"' :: '\n' :: after)).dropWhile isNameChar
      = '=' :: '"' :: (cs ++ '"' :: '\n' :: after) := by
    rw [List.dropWhile_append_of_pos hname, List.dropWhile_cons_of_neg (by decide)]
  unfold readAssignment
  dsimp only
  rw [htake, hdrop, if_pos hhead]
  constructor
  . intro h
    split at h
    . next input hinput =>
      injection hinput with _ hinput
      injection hinput with _ hinput
      rw [← hinput] at h
      split at h
      . next value rest' hread =>
        simp only [Option.some.injEq, Prod.mk.injEq, true_and] at h
        rw [h.left, h.right, readQuoted_eq_some_iff, List.cons.injEq] at hread
        exact ⟨hread.left, hread.right.right⟩
      . contradiction
    . contradiction
  . rintro ⟨hcs, rfl⟩
    split
    . next input hinput =>
      injection hinput with _ hinput
      injection hinput with _ hinput
      rw [← hinput, readQuoted_verbatim hcs]
      simp
    . next hnone => exact absurd rfl (hnone _)

theorem readAssignments_succ_iff {n : Nat} {name : List Char} (hname : name.all isNameChar)
    (hhead : name.head?.any fun c => !c.isDigit) {cs after rest : List Char}
    {assignments : List (List Char × List Char)}
    : readAssignments (n + 1) (name ++ '=' :: '"' :: (cs ++ '"' :: '\n' :: after))
          = some ((name, cs) :: assignments, rest)
        ↔
      isVerbatim cs ∧ readAssignments n after = some (assignments, rest) := by
  rw [readAssignments]
  constructor
  . intro h
    split at h
    . contradiction
    . next assignment after' hread =>
      rw [Option.map_eq_some_iff] at h
      rcases h with ⟨⟨assignments', rest'⟩, hrest, h⟩
      simp only [Prod.mk.injEq, List.cons.injEq] at h
      rw [h.left.left, readAssignment_eq_some_iff hname hhead] at hread
      rw [h.left.right, h.right, hread.right] at hrest
      exact ⟨hread.left, hrest⟩
  . rintro ⟨hcs, hrest⟩
    rw [(readAssignment_eq_some_iff hname hhead).mpr ⟨hcs, rfl⟩]
    dsimp only
    rw [hrest]
    rfl

end Shell
