import Mathlib.Data.List.Basic

/-!
This module contains runs of a machine: a state, and actions that each may or may not be enabled.
-/

namespace Machine

variable {α : Type u} {σ : Type v}

def run (step : α → σ → Option σ) (state : σ) (actions : List α) : Option σ :=
  match actions with
  | [] => some state
  | action :: actions =>
    match step action state with
    | some state => run step state actions
    | none => none

def transitions (step : α → σ → Option σ) (state : σ) (actions : List α) : List (σ × α × σ) :=
  match actions with
  | [] => []
  | action :: actions =>
    match step action state with
    | some next => (state, action, next) :: transitions step next actions
    | none => []

variable {step : α → σ → Option σ}

theorem run_cons {state state' : σ} {action : α} (h : step action state = some state')
    (actions : List α)
    : run step state (action :: actions) = run step state' actions := by
  rw [run, h]

theorem run_append (state : σ) (actions actions' : List α)
    : run step state (actions ++ actions')
        =
      (run step state actions).bind fun state => run step state actions' := by
  induction actions generalizing state with
  | nil => rfl
  | cons action actions ih =>
    rw [List.cons_append, run, run]
    cases step action state with
    | none => rfl
    | some state => exact ih state

theorem run_trans {s t u : σ} {actions actions' : List α} (h : run step s actions = some t)
    (h' : run step t actions' = some u)
    : run step s (actions ++ actions') = some u := by
  rw [run_append, h]
  exact h'

theorem run_append_eq_some_iff {s u : σ} {actions actions' : List α}
    : run step s (actions ++ actions') = some u
        ↔
      ∃ t, run step s actions = some t ∧ run step t actions' = some u := by
  rw [run_append, Option.bind_eq_some_iff]

theorem mem_transitions_iff {s t t' : σ} {action : α} {actions : List α}
    : (t, action, t') ∈ transitions step s actions
        ↔
      ∃ before after,
        actions = before ++ action :: after
          ∧
        run step s before = some t
          ∧
        step action t = some t' := by
  induction actions generalizing s with
  | nil => simp [transitions]
  | cons first actions ih =>
    unfold transitions
    constructor
    . intro h
      split at h
      . next next hnext =>
        rw [List.mem_cons] at h
        rcases h with heq | h
        . injection heq with ht heq
          injection heq with haction ht'
          rw [ht, haction, ht']
          exact ⟨[], actions, rfl, rfl, hnext⟩
        . rcases ih.mp h with ⟨before, after, hactions, hbefore, hstep⟩
          refine ⟨first :: before, after, ?_, ?_, hstep⟩
          . rw [hactions]
            rfl
          . rw [run, hnext]
            exact hbefore
      . contradiction
    . rintro ⟨before, after, hactions, hbefore, hstep⟩
      cases before with
      | nil =>
        injection hactions with hfirst
        injection hbefore with hs
        rw [hfirst, hs, hstep]
        exact List.mem_cons_self
      | cons first' before =>
        injection hactions with hfirst hactions
        rw [run, ← hfirst] at hbefore
        split at hbefore
        . apply List.mem_cons_of_mem
          exact ih.mpr ⟨before, after, hactions, hbefore, hstep⟩
        . contradiction

theorem invariant_of_run {I : σ → Prop} {actions : List α}
    (hstep : ∀ action ∈ actions, ∀ state state', I state → step action state = some state' → I state')
    {state state' : σ} (hinit : I state) (hrun : run step state actions = some state')
    : I state' := by
  induction actions generalizing state with
  | nil =>
    injection hrun with heq
    rw [← heq]
    exact hinit
  | cons action actions ih =>
    rw [run] at hrun
    split at hrun
    . next next hnext =>
      apply ih
      . intro action' haction'
        exact hstep action' (List.mem_cons_of_mem action haction')
      . exact hstep action List.mem_cons_self state next hinit hnext
      . exact hrun
    . contradiction

theorem invariant_of_transitions {I : σ → Prop} {actions : List α} {state state' : σ}
    (hstep : ∀ s action s', (s, action, s') ∈ transitions step state actions → I s → I s')
    (hinit : I state) (hrun : run step state actions = some state')
    : I state' := by
  induction actions generalizing state with
  | nil =>
    injection hrun with heq
    rw [← heq]
    exact hinit
  | cons action actions ih =>
    unfold run at hrun
    unfold transitions at hstep
    split at hrun
    . next next hnext =>
      rw [hnext] at hstep
      apply ih
      . intro s action' s' hmem
        exact hstep s action' s' (List.mem_cons_of_mem _ hmem)
      . exact hstep state action next List.mem_cons_self hinit
      . exact hrun
    . contradiction

theorem step_of_mem_transitions {s t t' : σ} {action : α} {actions : List α}
    (h : (t, action, t') ∈ transitions step s actions)
    : step action t = some t' := by
  rcases mem_transitions_iff.mp h with ⟨_, _, _, _, hstep⟩
  exact hstep

theorem exists_transition {P : σ → Prop} {actions : List α} {state state' : σ}
    (hrun : run step state actions = some state') (hinit : ¬ P state) (hend : P state')
    : ∃ s action s', (s, action, s') ∈ transitions step state actions ∧ ¬ P s ∧ P s' := by
  induction actions generalizing state with
  | nil =>
    injection hrun with heq
    rw [heq] at hinit
    exact absurd hend hinit
  | cons action actions ih =>
    unfold run at hrun
    split at hrun
    . next next hnext =>
      unfold transitions
      rw [hnext]
      by_cases hP : P next
      . exact ⟨state, action, next, List.mem_cons_self, hinit, hP⟩
      . rcases ih hrun hP with ⟨s, action', s', hmem, h⟩
        exact ⟨s, action', s', List.mem_cons_of_mem _ hmem, h⟩
    . contradiction

end Machine
