import Mathlib.Order.Lattice

/-!
This module contains sliding window logs: a request is admitted if not too many admitted requests
of the same key fall into the window that it ends. A log may forget what lies before the window of
some request, of any key.
-/

/-- How requests are put on the time line. -/
structure SlidingWindow (ρ : Type u) (κ : Type v) (τ : Type w) where
  key : ρ → κ
  time : ρ → τ
  -- the start of the window that ends at the time of the request
  since : ρ → τ

namespace SlidingWindow

structure Decided (ρ : Type u) where
  req : ρ
  admitted : Bool
  deriving DecidableEq, Repr

variable {ρ : Type u} {κ : Type v} {τ : Type w} [LinearOrder τ]
variable (window : SlidingWindow ρ κ τ)

def Hits (req old : ρ) : Prop :=
  window.key old = window.key req ∧ window.since req ≤ window.time old

def survivors (log : List (Decided ρ)) : List ρ :=
  match log with
  | [] => []
  | old :: later =>
    if old.admitted && later.all fun d => decide (window.since d.req ≤ window.time old.req) then
      old.req :: survivors later
    else
      survivors later

def Remembers (log : List (Decided ρ)) (req : ρ) : Prop :=
  ∀ pre old later, log = pre ++ old :: later → old.admitted → window.Hits req old.req →
    ∀ d ∈ later, window.since d.req ≤ window.time old.req

theorem survivors_append_singleton (log : List (Decided ρ)) (d : Decided ρ)
    : window.survivors (log ++ [d])
        =
      (window.survivors log).filter (fun old => window.since d.req ≤ window.time old)
        ++ if d.admitted then [d.req] else [] := by
  induction log with
  | nil => simp [survivors]
  | cons old later ih =>
    rw [List.cons_append]
    unfold survivors
    rw [ih, List.all_append]
    cases hadmitted : old.admitted with
    | false => simp
    | true =>
      by_cases hlater : later.all fun d => decide (window.since d.req ≤ window.time old.req)
      . by_cases hd : window.since d.req ≤ window.time old.req <;> simp [hlater, hd]
      . simp [hlater]

theorem Remembers.tail {window : SlidingWindow ρ κ τ} {old : Decided ρ} {later : List (Decided ρ)}
    {req : ρ} (h : window.Remembers (old :: later) req)
    : window.Remembers later req := by
  intro pre old' later' heq
  exact h (old :: pre) old' later' (by rw [heq, List.cons_append])

def Forgets (old : ρ) (later : List (Decided ρ)) (req : ρ) : Prop :=
  window.time old < window.since req ∨ ∃ d ∈ later, window.time old < window.since d.req

theorem not_forgets_iff (old : ρ) (later : List (Decided ρ)) (req : ρ)
    : ¬ window.Forgets old later req
        ↔
      window.since req ≤ window.time old ∧ ∀ d ∈ later, window.since d.req ≤ window.time old := by
  unfold Forgets
  simp only [not_or, not_exists, not_and, not_lt]

structure Steady (log : List (Decided ρ)) (key : κ) : Prop where
  admitted : ∀ d ∈ log, window.key d.req = key → d.admitted
  sorted : log.Pairwise fun d d' => window.key d.req = key → window.key d'.req = key →
    window.time d.req ≤ window.time d'.req

theorem Steady.tail {window : SlidingWindow ρ κ τ} {old : Decided ρ} {later : List (Decided ρ)}
    {key : κ} (h : window.Steady (old :: later) key)
    : window.Steady later key where
  admitted d hd := h.admitted d (List.mem_cons_of_mem _ hd)
  sorted := (List.pairwise_cons.mp h.sorted).right

variable [DecidableEq κ]

instance (req old : ρ) : Decidable (window.Hits req old) := inferInstanceAs (Decidable (_ ∧ _))

def count (log : List (Decided ρ)) (req : ρ) : Nat :=
  log.countP fun old => old.admitted && decide (window.Hits req old.req)

def survivingCount (log : List (Decided ρ)) (req : ρ) : Nat :=
  (window.survivors log).countP fun old => decide (window.Hits req old)

theorem survivingCount_eq_count {log : List (Decided ρ)} {req : ρ} (h : window.Remembers log req)
    : window.survivingCount log req = window.count log req := by
  induction log with
  | nil => rfl
  | cons old later ih =>
    have ih := ih h.tail
    unfold survivingCount count at *
    unfold survivors
    rw [List.countP_cons, ← ih]
    by_cases hcounts : old.admitted ∧ window.Hits req old.req
    . have hlater : later.all fun d => decide (window.since d.req ≤ window.time old.req) := by
        simp only [List.all_eq_true, decide_eq_true_eq]
        exact h [] old later rfl hcounts.left hcounts.right
      simp [hlater, hcounts.left, hcounts.right]
    . split
      . next hsurvives =>
        rw [Bool.and_eq_true] at hsurvives
        have : ¬ window.Hits req old.req := by
          intro hhits
          exact hcounts ⟨hsurvives.left, hhits⟩
        simp [this]
      . have : ¬ (old.admitted && decide (window.Hits req old.req)) = true := by
          simpa using hcounts
        simp [this]

theorem survivingCount_cons (old : Decided ρ) (later : List (Decided ρ)) (req : ρ)
    : window.survivingCount (old :: later) req
        =
      window.survivingCount later req
        + if old.admitted ∧ (∀ d ∈ later, window.since d.req ≤ window.time old.req)
            ∧ window.Hits req old.req then 1 else 0 := by
  unfold survivingCount
  conv => lhs; unfold survivors
  split
  . next hsurvives =>
    simp only [Bool.and_eq_true, List.all_eq_true, decide_eq_true_eq] at hsurvives
    rw [List.countP_cons]
    simp only [decide_eq_true_eq, hsurvives.left, true_and]
    by_cases hhits : window.Hits req old.req
    . rw [if_pos hhits, if_pos ⟨hsurvives.right, hhits⟩]
    . rw [if_neg hhits, if_neg (fun hand => hhits hand.right)]
  . next hforgotten =>
    simp only [Bool.and_eq_true, List.all_eq_true, decide_eq_true_eq] at hforgotten
    rw [if_neg (fun hand => hforgotten ⟨hand.left, hand.right.left⟩)]
    rfl

def countKey (log : List (Decided ρ)) (key : κ) : Nat :=
  log.countP fun d => decide (window.key d.req = key)

omit [LinearOrder τ] in
theorem countKey_cons (d : Decided ρ) (log : List (Decided ρ)) (key : κ)
    : window.countKey (d :: log) key
        =
      window.countKey log key + if window.key d.req = key then 1 else 0 := by
  unfold countKey
  rw [List.countP_cons]
  simp only [decide_eq_true_eq]

theorem survivingCount_eq_countKey {old : Decided ρ} {later : List (Decided ρ)} {req : ρ}
    (h : window.Steady (old :: later) (window.key req)) (hkey : window.key old.req = window.key req)
    (hkept : ¬ window.Forgets old.req later req)
    : window.survivingCount later req = window.countKey later (window.key req) := by
  rw [not_forgets_iff] at hkept
  have hsorted := List.pairwise_cons.mp h.sorted
  have hadmitted := h.tail.admitted
  clear h
  induction later with
  | nil => rfl
  | cons d later ih =>
    rw [List.forall_mem_cons] at hkept
    have hlater : ∀ d' ∈ later, window.key old.req = window.key req →
        window.key d'.req = window.key req → window.time old.req ≤ window.time d'.req := by
      intro d' hd'
      exact hsorted.left d' (List.mem_cons_of_mem _ hd')
    have ih := ih ⟨hkept.left, hkept.right.right⟩
      ⟨hlater, (List.pairwise_cons.mp hsorted.right).right⟩
      (fun d' hd' => hadmitted d' (List.mem_cons_of_mem _ hd'))
    rw [survivingCount_cons, countKey_cons, ih]
    by_cases hd : window.key d.req = window.key req
    . have hle := hsorted.left d List.mem_cons_self hkey hd
      rw [if_pos, if_pos hd]
      . refine ⟨hadmitted d List.mem_cons_self hd, ?_, hd, le_trans hkept.left hle⟩
        intro d' hd'
        exact le_trans (hkept.right.right d' hd') hle
    . rw [if_neg hd, if_neg (fun hand => hd hand.right.right.left)]

theorem survivingCount_le_iff {log : List (Decided ρ)} {req : ρ} (n : Nat)
    (h : window.Steady log (window.key req))
    : window.survivingCount log req ≤ n
        ↔
      ∀ pre old later, log = pre ++ old :: later → window.key old.req = window.key req →
        window.countKey later (window.key req) = n → window.Forgets old.req later req := by
  induction log with
  | nil => simp [survivingCount, survivors]
  | cons old later ih =>
    have ih := ih h.tail
    rw [survivingCount_cons]
    constructor
    . intro hle pre old' later' heq hkey hcount
      cases pre with
      | nil =>
        rw [List.nil_append, List.cons.injEq] at heq
        rcases heq with ⟨rfl, rfl⟩
        by_contra hkept
        rw [survivingCount_eq_countKey window h hkey hkept, hcount] at hle
        rw [not_forgets_iff] at hkept
        rw [if_pos] at hle
        . omega
        . exact ⟨h.admitted old List.mem_cons_self hkey, hkept.right, hkey, hkept.left⟩
      | cons d pre =>
        rw [List.cons_append, List.cons.injEq] at heq
        exact ih.mp (by omega) pre old' later' heq.right hkey hcount
    . intro hforgets
      have hlater := ih.mpr fun pre old' later' heq =>
        hforgets (old :: pre) old' later' (by rw [heq, List.cons_append])
      split
      . next hsurvives =>
        -- then it has fewer than `n` others of the key after it
        have hkept := (not_forgets_iff window old.req later req).mpr
          ⟨hsurvives.right.right.right, hsurvives.right.left⟩
        have hcount := survivingCount_eq_countKey window h hsurvives.right.right.left hkept
        have hne : window.countKey later (window.key req) ≠ n := by
          intro hn
          exact hkept (hforgets [] old later rfl hsurvives.right.right.left hn)
        omega
      . exact hlater

def between (log : List (Decided ρ)) (key : κ) (lo hi : τ) : Nat :=
  log.countP fun d =>
    d.admitted
      && decide (window.key d.req = key ∧ lo ≤ window.time d.req ∧ window.time d.req ≤ hi)

theorem between_le_count (log : List (Decided ρ)) {req : ρ} {lo : τ} (hi : τ)
    (h : window.since req ≤ lo)
    : window.between log (window.key req) lo hi ≤ window.count log req := by
  unfold between count
  apply List.countP_mono_left
  intro d _ hd
  simp only [Bool.and_eq_true, decide_eq_true_eq] at *
  exact ⟨hd.left, hd.right.left, le_trans h hd.right.right.left⟩

theorem between_append_singleton_le {log : List (Decided ρ)} {d : Decided ρ} {limit : Nat}
    {key : κ} {lo hi : τ} (hwindow : window.time d.req ≤ hi → window.since d.req ≤ lo)
    (hdecision : d.admitted → window.count log d.req < limit)
    (hlog : window.between log key lo hi ≤ limit)
    : window.between (log ++ [d]) key lo hi ≤ limit := by
  have happend : window.between (log ++ [d]) key lo hi
      = window.between log key lo hi + window.between [d] key lo hi := by
    unfold between
    rw [List.countP_append]
  rw [happend]
  by_cases hd : d.admitted ∧ window.key d.req = key ∧ lo ≤ window.time d.req
      ∧ window.time d.req ≤ hi
  . have hlt := hdecision hd.left
    have hle := window.between_le_count log hi (hwindow hd.right.right.right)
    rw [hd.right.left] at hle
    have : window.between [d] key lo hi ≤ 1 := by
      unfold between
      exact List.countP_le_length
    omega
  . have : window.between [d] key lo hi = 0 := by
      unfold between
      rw [List.countP_eq_zero]
      simpa using hd
    omega

end SlidingWindow
