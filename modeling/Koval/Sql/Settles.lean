import Koval.Sql.Statement

/-!
This module contains programs that are run again after they have stopped early, and then go on where
they have been stopped.
-/

namespace Sql

variable {stmt db : Type} {R : db → db → Prop} {isDone isDone' : db → Prop}
  {program next : Sql stmt db Unit}

/--
The program changes the database as `R` allows, which does not undo it. Once it is through, it leaves
the database alone, and runs that stop early make no difference to what it comes to.
-/
structure Settles (R : db → db → Prop) (isDone : db → Prop) (program : Sql stmt db Unit) : Prop where
  moves : Moves R program
  lasting : ∀ {state state'}, R state state' → isDone state → isDone state'
  done : ∀ {faults state state'}, program.run faults state = (.ok (), state') → isDone state'
  quiet : ∀ {faults state res state'},
    isDone state → program.run faults state = (res, state') → state' = state
  through : ∀ {state}, isDone state → program.run .none state = (.ok (), state)
  resumes : ∀ {faults state res state'},
    program.run faults state = (res, state') → program.run .none state' = program.run .none state

theorem Settles.congr (h : Settles R isDone program) (hiff : ∀ state, isDone state ↔ isDone' state)
    : Settles R isDone' program := by
  have hsame : isDone = isDone' := funext fun state => propext (hiff state)
  rw [← hsame]
  exact h

theorem settles_query (hrefl : ∀ state, R state state) (tag : stmt)
    : Settles R (fun _ => True) (query tag fun _ : db => ()) := by
  have hsame : ∀ {faults state res state'},
      (query tag fun _ : db => ()).run faults state = (res, state') → state' = state := by
    intro faults state res state' hrun
    have hkeeps := keeps_query id tag (fun _ : db => ()) faults state
    rw [hrun] at hkeeps
    exact hkeeps
  refine ⟨moves_query hrefl tag _, fun _ => id, fun _ => trivial, fun _ => hsame, fun _ => rfl, ?_⟩
  intro faults state res state' hrun
  rw [hsame hrun]

theorem settles_execute (hrefl : ∀ state, R state state)
    (hlasting : ∀ {state state'}, R state state' → isDone state → isDone state') (tag : stmt)
    {change : db → Except SqlError db}
    (hmoves : ∀ state state', change state = .ok state' → R state state')
    (hdone : ∀ state state', change state = .ok state' → isDone state')
    (hthrough : ∀ state, isDone state → change state = .ok state)
    : Settles R isDone (execute tag change) := by
  refine ⟨moves_execute hrefl tag hmoves, hlasting, ?_, ?_, ?_, ?_⟩
  . intro faults state state' hrun
    rcases run_execute_cases hrun with ⟨_, hchange⟩ | ⟨err, herr, _⟩
    . exact hdone state state' hchange
    . contradiction
  . intro faults state res state' h hrun
    rcases run_execute_cases hrun with ⟨_, hchange⟩ | ⟨_, _, hsame⟩
    . rw [hthrough state h] at hchange
      injection hchange with hchange
      exact hchange.symm
    . exact hsame
  . intro state h
    rw [run_execute_none, hthrough state h]
  . intro faults state res state' hrun
    rcases run_execute_cases hrun with ⟨_, hchange⟩ | ⟨_, _, hsame⟩
    . rw [run_execute_none, run_execute_none, hthrough _ (hdone _ _ hchange), hchange]
    . rw [hsame]

section Guarded

variable (tag tag' : stmt) {select : db → Bool} {change : db → Except SqlError db}

theorem run_guarded_cases {faults : Faults stmt} {state state' : db} {res : Except SqlError Unit}
    (h : Sql.run (do
        let found ← query tag select
        if !found then
          execute tag' change) faults state = (res, state'))
    : (state' = state ∧ (res = .ok () → select state = true))
        ∨
      (select state = false ∧ res = .ok () ∧ change state = .ok state') := by
  rcases run_bind_cases h with ⟨found, mid, hselect, hrest⟩ | ⟨err, hselect, hres⟩
  . have ⟨hfound, hmid⟩ := run_query_eq_ok hselect
    rw [hmid] at hrest
    cases found with
    | true =>
      injection hrest with _ hstate
      exact .inl ⟨hstate.symm, fun _ => hfound.symm⟩
    | false =>
      rcases run_execute_cases hrest with ⟨hres, hchange⟩ | ⟨err, hres, hstate⟩
      . exact .inr ⟨hfound.symm, hres, hchange⟩
      . refine .inl ⟨hstate, ?_⟩
        intro hok
        rw [hres] at hok
        contradiction
  . have hstate := keeps_query id tag select faults state
    rw [hselect] at hstate
    refine .inl ⟨hstate, ?_⟩
    intro hok
    rw [hres] at hok
    contradiction

theorem settles_guarded (hrefl : ∀ state, R state state)
    (hlasting : ∀ {state state'}, R state state' → select state = true → select state' = true)
    (hmoves : ∀ state state', change state = .ok state' → R state state')
    (hdone : ∀ state state', change state = .ok state' → select state' = true)
    : Settles R (fun state => select state = true)
        (do
          let found ← query tag select
          if !found then
            execute tag' change) := by
  have hthrough : ∀ {state : db}, select state = true →
      Sql.run (do
          let found ← query tag select
          if !found then
            execute tag' change) .none state = (.ok (), state) := by
    intro state hselect
    rw [run_bind, run_query_none, hselect]
    rfl
  refine ⟨?_, hlasting, ?_, ?_, hthrough, ?_⟩
  . intro faults state
    rcases run_guarded_cases tag tag' (Prod.eta _).symm with ⟨hstate, _⟩ | ⟨_, _, hchange⟩
    . rw [hstate]
      exact hrefl state
    . exact hmoves _ _ hchange
  . intro faults state state' hrun
    rcases run_guarded_cases tag tag' hrun with ⟨hstate, hselect⟩ | ⟨_, _, hchange⟩
    . rw [hstate]
      exact hselect rfl
    . exact hdone state state' hchange
  . intro faults state res state' hselect hrun
    rcases run_guarded_cases tag tag' hrun with ⟨hstate, _⟩ | ⟨hnot, _, _⟩
    . exact hstate
    . rw [hselect] at hnot
      contradiction
  . intro faults state res state' hrun
    rcases run_guarded_cases tag tag' hrun with ⟨hstate, _⟩ | ⟨hselect, _, hchange⟩
    . rw [hstate]
    . rw [hthrough (hdone _ _ hchange), run_bind, run_query_none, hselect]
      change _ = (execute tag' change).run .none state
      rw [run_execute_none, hchange]

end Guarded

theorem Settles.bind (htrans : ∀ s s' s'', R s s' → R s' s'' → R s s'')
    (h : Settles R isDone program) (hnext : Settles R isDone' next)
    : Settles R (fun state => isDone state ∧ isDone' state)
        (do
          program
          next) := by
  have hkeeps : ∀ faults state, isDone state → isDone (next.run faults state).snd :=
    fun faults state => h.lasting (hnext.moves faults state)
  refine ⟨h.moves.bind htrans fun _ => hnext.moves, ?_, ?_, ?_, ?_, ?_⟩
  . rintro state state' hR ⟨hdone, hdone'⟩
    exact ⟨h.lasting hR hdone, hnext.lasting hR hdone'⟩
  . intro faults state state' hrun
    rcases run_bind_eq_ok hrun with ⟨_, mid, hprogram, hrest⟩
    have hdone := hkeeps faults mid (h.done hprogram)
    rw [hrest] at hdone
    exact ⟨hdone, hnext.done hrest⟩
  . rintro faults state res state' ⟨hdone, hdone'⟩ hrun
    rcases run_bind_cases hrun with ⟨_, mid, hprogram, hrest⟩ | ⟨err, hprogram, _⟩
    . have hmid := h.quiet hdone hprogram
      rw [hmid] at hrest
      exact hnext.quiet hdone' hrest
    . exact h.quiet hdone hprogram
  . rintro state ⟨hdone, hdone'⟩
    rw [run_bind, h.through hdone]
    exact hnext.through hdone'
  . intro faults state res state' hrun
    rw [run_bind, run_bind]
    rcases run_bind_cases hrun with ⟨_, mid, hprogram, hrest⟩ | ⟨err, hprogram, _⟩
    . have hdone := h.done hprogram
      have hdone' := hkeeps faults mid hdone
      rw [hrest] at hdone'
      rw [h.through hdone', ← h.resumes hprogram, h.through hdone]
      exact hnext.resumes hrest
    . rw [h.resumes hprogram]

def attempts (program : Sql stmt db Unit) (runs : List (Faults stmt)) (state : db) : db :=
  runs.foldl (fun state faults => (program.run faults state).snd) state

theorem Settles.run_attempts (h : Settles R isDone program) (runs : List (Faults stmt)) (state : db)
    : program.run .none (program.attempts runs state) = program.run .none state := by
  induction runs generalizing state with
  | nil => rfl
  | cons faults runs ih =>
    change program.run .none (program.attempts runs (program.run faults state).snd) = _
    rw [ih, h.resumes (Prod.eta _).symm]

theorem Moves.attempts (hrefl : ∀ state, R state state)
    (htrans : ∀ s s' s'', R s s' → R s' s'' → R s s'') (h : Moves R program)
    (runs : List (Faults stmt)) (state : db)
    : R state (program.attempts runs state) := by
  induction runs generalizing state with
  | nil => exact hrefl state
  | cons faults runs ih => exact htrans _ _ _ (h faults state) (ih _)

end Sql
