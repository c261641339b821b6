import Mathlib.Data.List.TakeWhile
import Mathlib.Data.Rat.Defs

/-!
This module contains combinators for compact JSON. A codec carries the proof that reading gives
back what was printed, so that whatever is built from the combinators round trips and says where it
ends.
-/

namespace JsonText

-- What follows a value inside an array or an object.
inductive Stops : List Char → Prop where
  | comma (s : List Char) : Stops (',' :: s)
  | bracket (s : List Char) : Stops (']' :: s)
  | brace (s : List Char) : Stops ('}' :: s)

structure Codec (α : Type) (follow : List Char → Prop) where
  print : α → List Char
  read : List Char → Option (α × List Char)
  read_print : ∀ (a : α) (s : List Char), follow s → read (print a ++ s) = some (a, s)

-- A value that ends where a `,`, `]` or `}` stands, and one that shows its end by itself.
abbrev Value (α : Type) := Codec α Stops
abbrev Block (α : Type) := Codec α fun _ => True

namespace Codec

def value (c : Block α) : Value α where
  print := c.print
  read := c.read
  read_print := fun a s _ => c.read_print a s trivial

def map (c : Codec α follow) (f : α → β) (inv : β → α) (h : ∀ b, f (inv b) = b) :
    Codec β follow where
  print b := c.print (inv b)
  read s := (c.read s).map fun (a, s) => (f a, s)
  read_print := by
    intro b s hs
    rw [c.read_print (inv b) s hs]
    simp [h]

theorem print_append_inj (c : Codec α follow) {a b : α} {s t : List Char} (hs : follow s)
    (ht : follow t) (h : c.print a ++ s = c.print b ++ t)
    : a = b ∧ s = t := by
  have ha := c.read_print a s hs
  have hb := c.read_print b t ht
  rw [h, hb] at ha
  simpa [eq_comm] using ha

-- The text of a value can be told from `null` and from the end of an array.
def Solid (c : Codec α follow) : Prop :=
  ∀ a, ∃ ch cs, c.print a = ch :: cs ∧ ch ≠ 'n' ∧ ch ≠ ']'

end Codec

def readToken (token s : List Char) : Option (List Char) :=
  if token.isPrefixOf s then some (s.drop token.length) else none

@[simp]
theorem readToken_append (token s : List Char) : readToken token (token ++ s) = some s := by
  simp [readToken]

@[simp]
theorem readToken_cons (c : Char) (s : List Char) : readToken [c] (c :: s) = some s := by
  simp [readToken]

theorem readToken_cons_of_ne {c d : Char} (token s : List Char) (h : c ≠ d)
    : readToken (c :: token) (d :: s) = none := by
  simp [readToken, h]

def bool : Block Bool where
  print b := if b then "true".toList else "false".toList
  read s :=
    match readToken "true".toList s with
    | some s => some (true, s)
    | none => (readToken "false".toList s).map fun s => (false, s)
  read_print := by
    intro b s _
    cases b <;> simp [readToken]

def readDigits (s : List Char) : Option (Nat × List Char) :=
  if (s.takeWhile Char.isDigit).isEmpty then
    none
  else
    some (Nat.ofDigitChars 10 (s.takeWhile Char.isDigit) 0, s.dropWhile Char.isDigit)

theorem isDigit_of_mem_toDigits {n : Nat} {c : Char} (h : c ∈ Nat.toDigits 10 n) : c.isDigit := by
  exact Nat.isDigit_of_mem_toDigits (by decide) (by decide) h

theorem readDigits_toDigits_append (n : Nat) {s : List Char}
    (hs : s.head?.all fun c => !c.isDigit)
    : readDigits (Nat.toDigits 10 n ++ s) = some (n, s) := by
  have htake : (Nat.toDigits 10 n ++ s).takeWhile Char.isDigit = Nat.toDigits 10 n := by
    rw [List.takeWhile_append_of_pos fun c hc => isDigit_of_mem_toDigits hc]
    cases s <;> simp_all
  have hdrop : (Nat.toDigits 10 n ++ s).dropWhile Char.isDigit = s := by
    rw [List.dropWhile_append_of_pos fun c hc => isDigit_of_mem_toDigits hc]
    cases s <;> simp_all
  have hne : Nat.toDigits 10 n ≠ [] := Nat.toDigits_ne_nil
  simp [readDigits, htake, hdrop, hne, Nat.ofDigitChars_ten_toDigits]

theorem Stops.not_isDigit {s : List Char} (h : Stops s) : s.head?.all fun c => !c.isDigit := by
  cases h <;> rfl

def nat : Value Nat where
  print n := Nat.toDigits 10 n
  read := readDigits
  read_print := by
    intro n s hs
    exact readDigits_toDigits_append n hs.not_isDigit

namespace string

def escape (c : Char) : List Char :=
  if c = '"' then ['\\', '"']
  else if c = '\\' then ['\\', '\\']
  else if c = '\x08' then ['\\', 'b']
  else if c = '\t' then ['\\', 't']
  else if c = '\n' then ['\\', 'n']
  else if c = '\x0c' then ['\\', 'f']
  else if c = '\r' then ['\\', 'r']
  else if c.toNat < 32 then
    ['\\', 'u', '0', '0', Nat.digitChar (c.toNat / 16), Nat.digitChar (c.toNat % 16)]
  else [c]

def hexVal (c : Char) : Nat :=
  if c.isDigit then c.toNat - '0'.toNat else c.toNat - 'a'.toNat + 10

def unescape (c : Char) : Char :=
  match c with
  | 'b' => '\x08'
  | 't' => '\t'
  | 'n' => '\n'
  | 'f' => '\x0c'
  | 'r' => '\r'
  | c => c

def readBody : List Char → Option (List Char × List Char)
  | [] => none
  | '"' :: s => some ([], s)
  | '\\' :: 'u' :: '0' :: '0' :: hi :: lo :: s =>
    (readBody s).map fun (cs, s) => (Char.ofNat (16 * hexVal hi + hexVal lo) :: cs, s)
  | '\\' :: c :: s => (readBody s).map fun (cs, s) => (unescape c :: cs, s)
  | c :: s => (readBody s).map fun (cs, s) => (c :: cs, s)

theorem hexVal_digitChar : ∀ d < 16, hexVal (Nat.digitChar d) = d := by
  decide

theorem readBody_escape_append (c : Char) (s : List Char)
    : readBody (escape c ++ s) = (readBody s).map fun (cs, s) => (c :: cs, s) := by
  unfold escape
  split
  . next h => subst h; simp [readBody, unescape]
  split
  . next h => subst h; simp [readBody, unescape]
  split
  . next h => subst h; simp [readBody, unescape]
  split
  . next h => subst h; simp [readBody, unescape]
  split
  . next h => subst h; simp [readBody, unescape]
  split
  . next h => subst h; simp [readBody, unescape]
  split
  . next h => subst h; simp [readBody, unescape]
  split
  . next hlt =>
    have hhi := hexVal_digitChar (c.toNat / 16) (by omega)
    have hlo := hexVal_digitChar (c.toNat % 16) (by omega)
    have hsum : 16 * (c.toNat / 16) + c.toNat % 16 = c.toNat := by omega
    simp [readBody, hhi, hlo, hsum]
  . next hquote hbackslash _ _ _ _ _ _ =>
    simp only [List.cons_append, List.nil_append]
    rw [readBody.eq_def]
    split <;> simp_all

theorem readBody_flatMap_escape_append (cs s : List Char)
    : readBody (cs.flatMap escape ++ '"' :: s) = some (cs, s) := by
  induction cs with
  | nil => simp [readBody]
  | cons c cs ih =>
    rw [List.flatMap_cons, List.append_assoc, readBody_escape_append, ih]
    simp

end string

def string : Block String where
  print t := '"' :: (t.toList.flatMap string.escape ++ ['"'])
  read s :=
    match readToken ['"'] s with
    | some s => (string.readBody s).map fun (cs, s) => (String.ofList cs, s)
    | none => none
  read_print := by
    intro t s _
    simp [string.readBody_flatMap_escape_append]

theorem string_solid : string.Solid := by
  intro t
  exact ⟨'"', _, rfl, by decide, by decide⟩

theorem nat_solid : nat.Solid := by
  intro n
  cases h : Nat.toDigits 10 n with
  | nil => exact absurd h Nat.toDigits_ne_nil
  | cons c cs =>
    have hc : c.isDigit := by
      apply isDigit_of_mem_toDigits (n := n)
      simp [h]
    refine ⟨c, cs, h, ?_, ?_⟩ <;> (rintro rfl; contradiction)

def option (c : Value α) (hc : c.Solid) : Value (Option α) where
  print
    | some a => c.print a
    | none => "null".toList
  read s :=
    match readToken "null".toList s with
    | some s => some (none, s)
    | none => (c.read s).map fun (a, s) => (some a, s)
  read_print := by
    intro a s hs
    cases a with
    | none => simp [readToken]
    | some a =>
      have ⟨ch, cs, hprint, hch, _⟩ := hc a
      have hnull : readToken "null".toList (c.print a ++ s) = none := by
        rw [hprint]
        exact readToken_cons_of_ne _ _ hch.symm
      simp only [hnull, c.read_print a s hs, Option.map_some]

namespace list

variable (c : Value α)

def printRest (as : List α) : List Char :=
  match as with
  | [] => [']']
  | a :: as => ',' :: (c.print a ++ printRest as)

def readRest (fuel : Nat) (s : List Char) : Option (List α × List Char) :=
  match fuel, s with
  | _, ']' :: s => some ([], s)
  | fuel + 1, ',' :: s =>
    match c.read s with
    | some (a, s) => (readRest fuel s).map fun (as, s) => (a :: as, s)
    | none => none
  | _, _ => none

theorem stops_printRest_append (as : List α) (s : List Char) : Stops (printRest c as ++ s) := by
  cases as with
  | nil => exact .bracket s
  | cons a as => exact .comma _

theorem readRest_printRest_append (as : List α) (fuel : Nat) (s : List Char)
    (h : as.length ≤ fuel)
    : readRest c fuel (printRest c as ++ s) = some (as, s) := by
  induction as generalizing fuel with
  | nil => simp [printRest, readRest]
  | cons a as ih =>
    cases fuel with
    | zero => simp at h
    | succ fuel =>
      have hread := c.read_print a (printRest c as ++ s) (stops_printRest_append c as s)
      simp only [printRest, List.cons_append, List.append_assoc, readRest, hread]
      rw [ih fuel (by simpa using h)]
      rfl

theorem length_le_length_printRest (as : List α) : as.length ≤ (printRest c as).length := by
  induction as with
  | nil => simp
  | cons a as ih =>
    simp only [printRest, List.length_cons, List.length_append]
    omega

end list

def list (c : Value α) (hc : c.Solid) : Block (List α) where
  print
    | [] => ['[', ']']
    | a :: as => '[' :: (c.print a ++ list.printRest c as)
  read
    | '[' :: ']' :: s => some ([], s)
    | '[' :: s =>
      match c.read s with
      | some (a, s) => (list.readRest c s.length s).map fun (as, s) => (a :: as, s)
      | none => none
    | _ => none
  read_print := by
    intro as s _
    cases as with
    | nil => rfl
    | cons a as =>
      have ⟨ch, cs, hprint, _, hch⟩ := hc a
      have hread := c.read_print a (list.printRest c as ++ s) (list.stops_printRest_append c as s)
      rw [hprint, List.cons_append] at hread
      have hlength := list.length_le_length_printRest c as
      have hrest := list.readRest_printRest_append c as (list.printRest c as ++ s).length s
        (by rw [List.length_append]; omega)
      simp only [hprint, List.cons_append, List.append_assoc]
      split
      . next heq =>
        injection heq with _ heq
        injection heq with heq _
        contradiction
      . next heq =>
        injection heq with _ heq
        subst heq
        simp only [hread, hrest, Option.map_some]
      . next h => simp at h

namespace rat

def printUnsigned (n d : Nat) : List Char :=
  Nat.toDigits 10 n ++ (if d = 1 then ['.', '0'] else '/' :: Nat.toDigits 10 d)

def print (q : Rat) : List Char :=
  if q.num < 0 then '-' :: printUnsigned q.num.natAbs q.den else printUnsigned q.num.natAbs q.den

def readUnsigned (s : List Char) : Option (Nat × Nat × List Char) :=
  match readDigits s with
  | some (n, '.' :: '0' :: s) => some (n, 1, s)
  | some (n, '/' :: s) => (readDigits s).map fun (d, s) => (n, d, s)
  | _ => none

def read (s : List Char) : Option (Rat × List Char) :=
  match s with
  | '-' :: s => (readUnsigned s).map fun (n, d, s) => (mkRat (-n) d, s)
  | s => (readUnsigned s).map fun (n, d, s) => (mkRat n d, s)

theorem readUnsigned_append (n d : Nat) {s : List Char} (hs : Stops s)
    : readUnsigned (printUnsigned n d ++ s) = some (n, d, s) := by
  unfold readUnsigned printUnsigned
  by_cases hd : d = 1
  . have hread := readDigits_toDigits_append n (s := '.' :: '0' :: s) rfl
    simp [hd, hread]
  . have hread := readDigits_toDigits_append n (s := '/' :: (Nat.toDigits 10 d ++ s)) rfl
    simp [hd, hread, readDigits_toDigits_append d hs.not_isDigit]

theorem printUnsigned_eq_cons (n d : Nat)
    : ∃ c cs, printUnsigned n d = c :: cs ∧ c.isDigit := by
  unfold printUnsigned
  cases h : Nat.toDigits 10 n with
  | nil => exact absurd h Nat.toDigits_ne_nil
  | cons c cs =>
    refine ⟨c, _, rfl, ?_⟩
    apply isDigit_of_mem_toDigits (n := n)
    simp [h]

theorem read_print_append (q : Rat) {s : List Char} (hs : Stops s)
    : read (print q ++ s) = some (q, s) := by
  have hunsigned := readUnsigned_append q.num.natAbs q.den hs
  unfold print
  split
  . have habs : -(q.num.natAbs : Int) = q.num := by omega
    simp only [List.cons_append, read, hunsigned, Option.map_some, habs, Rat.mkRat_self]
  . have habs : (q.num.natAbs : Int) = q.num := by omega
    have ⟨c, cs, hprint, hc⟩ := printUnsigned_eq_cons q.num.natAbs q.den
    unfold read
    split
    . next heq =>
      rw [hprint] at heq
      injection heq with heq
      subst heq
      contradiction
    . simp only [hunsigned, Option.map_some, habs, Rat.mkRat_self]

end rat

-- A measurement; the text is that of an f64 where the number is whole.
def rat : Value Rat where
  print := rat.print
  read := rat.read
  read_print := fun q _ hs => rat.read_print_append q hs

theorem rat_solid : rat.Solid := by
  intro q
  have ⟨c, cs, hprint, hc⟩ := rat.printUnsigned_eq_cons q.num.natAbs q.den
  change ∃ ch cs, rat.print q = ch :: cs ∧ ch ≠ 'n' ∧ ch ≠ ']'
  unfold rat.print
  split
  . exact ⟨'-', _, rfl, by decide, by decide⟩
  . refine ⟨c, cs, hprint, ?_, ?_⟩ <;> (rintro rfl; contradiction)

structure Fields (α : Type) extends Block α where
  stops : ∀ (a : α) (s : List Char), Stops (print a ++ s)

def close : Fields Unit where
  print _ := ['}']
  read s := (readToken ['}'] s).map fun s => ((), s)
  read_print := by
    intro _ s _
    simp
  stops := fun _ s => .brace s

def key (name : String) : List Char := '"' :: (name.toList ++ ['"', ':'])

def field (name : String) (c : Value α) (rest : Fields β) : Fields (α × β) where
  print | (a, b) => ',' :: (key name ++ (c.print a ++ rest.print b))
  read s :=
    match readToken (',' :: key name) s with
    | some s =>
      match c.read s with
      | some (a, s) => (rest.read s).map fun (b, s) => ((a, b), s)
      | none => none
    | none => none
  read_print := by
    rintro ⟨a, b⟩ s _
    have htoken := readToken_append (',' :: key name) (c.print a ++ (rest.print b ++ s))
    have hread := c.read_print a (rest.print b ++ s) (rest.stops b s)
    have hrest := rest.read_print b s trivial
    simp only [List.cons_append, List.append_assoc] at htoken ⊢
    simp only [htoken, hread, hrest, Option.map_some]
  stops := fun _ _ => .comma _

def object (name : String) (c : Value α) (rest : Fields β) : Block (α × β) where
  print | (a, b) => '{' :: (key name ++ (c.print a ++ rest.print b))
  read s :=
    match readToken ('{' :: key name) s with
    | some s =>
      match c.read s with
      | some (a, s) => (rest.read s).map fun (b, s) => ((a, b), s)
      | none => none
    | none => none
  read_print := by
    rintro ⟨a, b⟩ s _
    have htoken := readToken_append ('{' :: key name) (c.print a ++ (rest.print b ++ s))
    have hread := c.read_print a (rest.print b ++ s) (rest.stops b s)
    have hrest := rest.read_print b s trivial
    simp only [List.cons_append, List.append_assoc] at htoken ⊢
    simp only [htoken, hread, hrest, Option.map_some]

theorem object_solid (name : String) (c : Value α) (rest : Fields β)
    : (object name c rest).Solid := by
  rintro ⟨a, b⟩
  exact ⟨'{', _, rfl, by decide, by decide⟩

theorem map_solid {c : Codec α follow} {f : α → β} {inv : β → α} {h : ∀ b, f (inv b) = b}
    (hc : c.Solid)
    : (c.map f inv h).Solid := by
  intro b
  exact hc (inv b)

end JsonText
