import Koval.Conc.Pool
import Mathlib.Logic.Hydra

/-!
This module contains why a pool of threads comes to rest: each step leaves less of a thread, and what
threads put aside for others to start is of a lower level than they are.
-/

namespace Machine

variable {τ : Type u}

def ComesToRest (step : τ → τ → Prop) (t : τ) : Prop := Acc (fun t' t => step t t') t

variable {step : τ → τ → Prop}

theorem ComesToRest.exists_rest {t : τ} (h : ComesToRest step t)
    : ∃ t', Relation.ReflTransGen step t t' ∧ ∀ t'', ¬step t' t'' := by
  unfold ComesToRest at h
  induction h with
  | intro t _ ih =>
    by_cases hstep : ∃ t', step t t'
    . rcases hstep with ⟨t', hstep⟩
      rcases ih t' hstep with ⟨rest, hrun, hrest⟩
      exact ⟨rest, .head hstep hrun, hrest⟩
    . rw [not_exists] at hstep
      exact ⟨t, .refl, hstep⟩

theorem cutExpand_exchange {β : Type v} {lighter : β → β → Prop} {b b' : β}
    {kept waits added : Multiset β} (hb : lighter b' b) (hadded : ∀ c ∈ added, lighter c b)
    : Relation.CutExpand lighter ({b'} + kept + (waits + added)) ({b} + kept + waits) := by
  have hafter : {b'} + kept + (waits + added) = {b'} + added + (kept + waits) := by ac_rfl
  have hbefore : {b} + kept + waits = {b} + (kept + waits) := by ac_rfl
  rw [hafter, hbefore, Relation.cutExpand_add_right]
  apply Relation.cutExpand_singleton
  intro c hc
  rw [Multiset.mem_add, Multiset.mem_singleton] at hc
  rcases hc with rfl | hc
  . exact hb
  . exact hadded c hc

/-- Where each step takes one burden off and puts lighter ones on, there is an end to it. -/
theorem comesToRest_of_load {β : Type v} {lighter : β → β → Prop} (hwf : WellFounded lighter)
    {I : τ → Prop} (load : τ → Multiset β)
    (hstep : ∀ t t', I t → step t t' → I t' ∧ Relation.CutExpand lighter (load t') (load t)) {t : τ}
    (ht : I t)
    : ComesToRest step t := by
  have hacc := hwf.cutExpand.apply (load t)
  generalize hload : load t = burdens at hacc
  induction hacc generalizing t with
  | intro burdens _ ih =>
    constructor
    intro t' hnext
    have ⟨ht', hcut⟩ := hstep t t' ht hnext
    rw [hload] at hcut
    exact ih (load t') hcut ht' rfl

end Machine

namespace Pool

variable {ℓ : Type u} {σ : Type v} {α : Type w}

/-- What is left of a thread of some level, or, without a program, something that waits. -/
abbrev Burden (σ : Type v) (α : Type w) := Nat × Option (Prog σ α)

inductive Lighter : Burden σ α → Burden σ α → Prop where
  | level {low high : Nat} (hlt : low < high) (rest rest' : Option (Prog σ α)) :
    Lighter (low, rest) (high, rest')
  | step (level : Nat) (effect : σ → σ) (next : σ → Prog σ α) (s : σ) :
    Lighter (level, some (next s)) (level, some (.act effect next))

theorem wellFounded_lighter : WellFounded (Lighter (σ := σ) (α := α)) := by
  have hacc (level : Nat) : ∀ rest : Option (Prog σ α), Acc Lighter (level, rest) := by
    induction level using Nat.strong_induction_on with
    | h level ih =>
      have hnone : Acc (Lighter (σ := σ) (α := α)) (level, none) := by
        constructor
        intro burden hburden
        cases hburden with
        | level hlt rest => exact ih _ hlt rest
      intro rest
      cases rest with
      | none => exact hnone
      | some prog =>
        induction prog with
        | ret a =>
          constructor
          intro burden hburden
          cases hburden with
          | level hlt rest => exact ih _ hlt rest
        | act effect next ihnext =>
          constructor
          intro burden hburden
          cases hburden with
          | level hlt rest => exact ih _ hlt rest
          | step _ _ _ s => exact ihnext s
  exact ⟨fun burden => hacc burden.fst burden.snd⟩

section

variable (level : ℓ → Nat) (waiting : σ → List Nat)

def burden (thread : Thread ℓ σ α) : Burden σ α := (level thread.label, some thread.prog)

def load (pool : Pool ℓ σ α) : Multiset (Burden σ α) :=
  ((pool.threads.map (burden level) : List (Burden σ α)) : Multiset (Burden σ α))
    + ((waiting pool.state).map fun low => (low, none) : List (Burden σ α))

variable {level waiting} {pool pool' : Pool ℓ σ α}

theorem cutExpand_runThread {i : Nat} (hrun : pool.runThread i = some pool')
    (hwaiting : ∀ thread, pool.threads[i]? = some thread →
      ∃ added, waiting pool'.state = waiting pool.state ++ added
        ∧ ∀ low ∈ added, low < level thread.label)
    : Relation.CutExpand Lighter (pool'.load level waiting) (pool.load level waiting) := by
  unfold runThread at hrun
  split at hrun
  . next label effect next hthread =>
    injection hrun with hrun
    subst hrun
    rcases hwaiting _ hthread with ⟨added, hadded, hlow⟩
    rcases List.getElem?_eq_some_iff.mp hthread with ⟨hlt, hget⟩
    have hbefore := (List.getElem_cons_eraseIdx_perm hlt).symm.map (burden level)
    have hafter := (List.set_perm_cons_eraseIdx hlt ⟨label, next pool.state⟩).map (burden level)
    rw [hget] at hbefore
    unfold load
    dsimp only at hadded ⊢
    rw [Multiset.coe_eq_coe.mpr hbefore, Multiset.coe_eq_coe.mpr hafter, hadded, List.map_append,
      List.map_cons, List.map_cons, ← Multiset.coe_add, ← Multiset.cons_coe, ← Multiset.cons_coe,
      ← Multiset.singleton_add, ← Multiset.singleton_add]
    apply Machine.cutExpand_exchange (.step _ effect next pool.state)
    intro burden hburden
    rw [Multiset.mem_coe, List.mem_map] at hburden
    rcases hburden with ⟨low, hmem, rfl⟩
    exact .level (hlow low hmem) _ _
  . contradiction

theorem cutExpand_take {thread : Thread ℓ σ α} {high : Nat}
    (hthreads : pool'.threads = pool.threads ++ [thread])
    (hwaiting : waiting pool.state = high :: waiting pool'.state)
    (hlow : level thread.label < high)
    : Relation.CutExpand Lighter (pool'.load level waiting) (pool.load level waiting) := by
  unfold load
  rw [hthreads, hwaiting, List.map_append, List.map_singleton, List.map_cons, ← Multiset.coe_add,
    Multiset.coe_singleton, ← Multiset.cons_coe, ← Multiset.singleton_add, ← add_assoc,
    Relation.cutExpand_add_right]
  exact Relation.cutExpand_add_single _ (.level hlow _ _)

end

end Pool
