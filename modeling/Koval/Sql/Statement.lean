import Mathlib.Logic.Basic

/-!
This module contains programs of SQL statements. A statement fails on a violated constraint, and
for reasons outside the database; one that fails changes nothing, and ends the program.
-/

inductive SqlError where
  | constraint (msg : String)
  | queryReturnedNoRows
  | failure (msg : String)
  deriving DecidableEq, Repr

namespace SqlError

def toString (err : SqlError) : String :=
  match err with
  | constraint msg => msg
  | queryReturnedNoRows => "Query returned no rows"
  | failure msg => msg

end SqlError

/-- What the disk, the memory and other processes do to a statement. -/
def Faults (stmt : Type) := stmt → Option String

def Faults.none {stmt : Type} : Faults stmt := fun _ => .none

instance {stmt : Type} : Inhabited (Faults stmt) := ⟨Faults.none⟩

def Sql (stmt db α : Type) := Faults stmt → db → Except SqlError α × db

namespace Sql

variable {stmt db α β γ : Type}

def run (program : Sql stmt db α) (faults : Faults stmt) (state : db) : Except SqlError α × db :=
  program faults state

instance : Monad (Sql stmt db) where
  pure a := fun _ state => (.ok a, state)
  bind program next := fun faults state =>
    match program faults state with
    | (.ok a, state) => next a faults state
    | (.error err, state) => (.error err, state)

def query (tag : stmt) (select : db → α) : Sql stmt db α := fun faults state =>
  match faults tag with
  | some msg => (.error (.failure msg), state)
  | none => (.ok (select state), state)

def execute (tag : stmt) (change : db → Except SqlError db) : Sql stmt db Unit :=
  fun faults state =>
    match faults tag with
    | some msg => (.error (.failure msg), state)
    | none =>
      match change state with
      | .ok state => (.ok (), state)
      | .error err => (.error err, state)

@[simp]
theorem run_pure (a : α) (faults : Faults stmt) (state : db)
    : (pure a : Sql stmt db α).run faults state = (.ok a, state) := rfl

theorem run_bind (program : Sql stmt db α) (next : α → Sql stmt db β) (faults : Faults stmt)
    (state : db)
    : (program >>= next).run faults state
        =
      match program.run faults state with
      | (.ok a, state) => (next a).run faults state
      | (.error err, state) => (.error err, state) := rfl

@[simp]
theorem run_query_none (tag : stmt) (select : db → α) (state : db)
    : (query tag select).run .none state = (.ok (select state), state) := rfl

theorem run_query_of_none {tag : stmt} {faults : Faults stmt} (h : faults tag = none)
    (select : db → α) (state : db)
    : (query tag select).run faults state = (.ok (select state), state) := by
  unfold run query
  rw [h]

theorem run_execute_of_none {tag : stmt} {faults : Faults stmt} (h : faults tag = none)
    (change : db → Except SqlError db) (state : db)
    : (execute tag change).run faults state
        =
      match change state with
      | .ok state => (.ok (), state)
      | .error err => (.error err, state) := by
  unfold run execute
  rw [h]

theorem run_execute_none (tag : stmt) (change : db → Except SqlError db) (state : db)
    : (execute tag change).run .none state
        =
      match change state with
      | .ok state => (.ok (), state)
      | .error err => (.error err, state) := rfl

theorem run_bind_eq_ok {program : Sql stmt db α} {next : α → Sql stmt db β} {faults : Faults stmt}
    {state state' : db} {b : β} (h : (program >>= next).run faults state = (.ok b, state'))
    : ∃ a mid,
        program.run faults state = (.ok a, mid) ∧ (next a).run faults mid = (.ok b, state') := by
  rw [run_bind] at h
  split at h
  . next a mid hrun => exact ⟨a, mid, hrun, h⟩
  . simp at h

theorem run_bind_cases {program : Sql stmt db α} {next : α → Sql stmt db β} {faults : Faults stmt}
    {state state' : db} {res : Except SqlError β}
    (h : (program >>= next).run faults state = (res, state'))
    : (∃ a mid, program.run faults state = (.ok a, mid) ∧ (next a).run faults mid = (res, state'))
        ∨
      (∃ err, program.run faults state = (.error err, state') ∧ res = .error err) := by
  rw [run_bind] at h
  split at h
  . next a mid hrun => exact .inl ⟨a, mid, hrun, h⟩
  . next err mid hrun =>
    injection h with hres hstate
    rw [hrun, hstate]
    exact .inr ⟨err, rfl, hres.symm⟩

theorem run_query_eq_ok {tag : stmt} {select : db → α} {faults : Faults stmt} {state state' : db}
    {a : α} (h : (query tag select).run faults state = (.ok a, state'))
    : a = select state ∧ state' = state := by
  unfold run query at h
  split at h
  . simp at h
  . simp only [Prod.mk.injEq, Except.ok.injEq] at h
    exact ⟨h.left.symm, h.right.symm⟩

theorem run_pure_eq_ok {a b : α} {faults : Faults stmt} {state state' : db}
    (h : (pure a : Sql stmt db α).run faults state = (.ok b, state'))
    : b = a ∧ state' = state := by
  rw [run_pure, Prod.mk.injEq, Except.ok.injEq] at h
  exact ⟨h.left.symm, h.right.symm⟩

theorem run_execute_cases {tag : stmt} {change : db → Except SqlError db} {faults : Faults stmt}
    {state state' : db} {res : Except SqlError Unit}
    (h : (execute tag change).run faults state = (res, state'))
    : (res = .ok () ∧ change state = .ok state') ∨ (∃ err, res = .error err ∧ state' = state) := by
  unfold run execute at h
  split at h
  . injection h with hres hstate
    exact .inr ⟨_, hres.symm, hstate.symm⟩
  . split at h
    . next changed hchange =>
      injection h with hres hstate
      rw [← hstate]
      exact .inl ⟨hres.symm, hchange⟩
    . injection h with hres hstate
      exact .inr ⟨_, hres.symm, hstate.symm⟩

def Keeps (view : db → γ) (program : Sql stmt db α) : Prop :=
  ∀ faults state, view (program.run faults state).snd = view state

theorem keeps_pure (view : db → γ) (a : α) : Keeps view (pure a : Sql stmt db α) := by
  intro faults state
  rfl

theorem Keeps.bind {view : db → γ} {program : Sql stmt db α} {next : α → Sql stmt db β}
    (h : Keeps view program) (hnext : ∀ a, Keeps view (next a))
    : Keeps view (program >>= next) := by
  intro faults state
  have h := h faults state
  rw [run_bind]
  cases hrun : program.run faults state with
  | mk res state' =>
    rw [hrun] at h
    cases res with
    | ok a =>
      dsimp
      rw [hnext a faults state']
      exact h
    | error err => exact h

theorem keeps_query (view : db → γ) (tag : stmt) (select : db → α)
    : Keeps view (query tag select) := by
  intro faults state
  unfold run query
  split <;> rfl

theorem keeps_execute {view : db → γ} (tag : stmt) {change : db → Except SqlError db}
    (h : ∀ state state', change state = .ok state' → view state' = view state)
    : Keeps view (execute tag change) := by
  intro faults state
  unfold run execute
  split
  . rfl
  . split
    . next state' hchange => exact h state state' hchange
    . rfl

def Moves (R : db → db → Prop) (program : Sql stmt db α) : Prop :=
  ∀ faults state, R state (program.run faults state).snd

section Moves

variable {R : db → db → Prop} (hrefl : ∀ state, R state state)
include hrefl

theorem moves_pure (a : α) : Moves R (pure a : Sql stmt db α) := by
  intro faults state
  exact hrefl state

theorem moves_query (tag : stmt) (select : db → α) : Moves R (query tag select) := by
  intro faults state
  unfold run query
  split <;> exact hrefl state

theorem moves_execute (tag : stmt) {change : db → Except SqlError db}
    (h : ∀ state state', change state = .ok state' → R state state')
    : Moves R (execute tag change) := by
  intro faults state
  unfold run execute
  split
  . exact hrefl state
  . split
    . next state' hchange => exact h state state' hchange
    . exact hrefl state

end Moves

theorem Moves.bind {R : db → db → Prop}
    (htrans : ∀ s s' s'', R s s' → R s' s'' → R s s'') {program : Sql stmt db α}
    {next : α → Sql stmt db β} (h : Moves R program) (hnext : ∀ a, Moves R (next a))
    : Moves R (program >>= next) := by
  intro faults state
  have h := h faults state
  rw [run_bind]
  cases hrun : program.run faults state with
  | mk res state' =>
    rw [hrun] at h
    cases res with
    | ok a => exact htrans _ _ _ h (hnext a faults state')
    | error err => exact h

def Coincides (R : db → db → Prop) (program : Sql stmt db α) : Prop :=
  ∀ faults state state', R state state' →
    (program.run faults state).fst = (program.run faults state').fst
      ∧
    R (program.run faults state).snd (program.run faults state').snd

section Coincides

variable {R : db → db → Prop}

theorem coincides_pure (a : α) : Coincides R (pure a : Sql stmt db α) := by
  intro faults state state' h
  exact ⟨rfl, h⟩

theorem coincides_query (tag : stmt) {select : db → α}
    (h : ∀ state state', R state state' → select state = select state')
    : Coincides R (query tag select) := by
  intro faults state state' hR
  unfold run query
  split
  . exact ⟨rfl, hR⟩
  . rw [h state state' hR]
    exact ⟨rfl, hR⟩

def Agree (R : db → db → Prop) (res res' : Except SqlError db) : Prop :=
  (∃ err, res = .error err ∧ res' = .error err)
    ∨
  (∃ state state', res = .ok state ∧ res' = .ok state' ∧ R state state')

theorem coincides_execute (tag : stmt) {change : db → Except SqlError db}
    (h : ∀ state state', R state state' → Agree R (change state) (change state'))
    : Coincides R (execute tag change) := by
  intro faults state state' hR
  unfold run execute
  split
  . exact ⟨rfl, hR⟩
  . rcases h state state' hR with ⟨err, hres, hres'⟩ | ⟨changed, changed', hres, hres', hchanged⟩
    . rw [hres, hres']
      exact ⟨rfl, hR⟩
    . rw [hres, hres']
      exact ⟨rfl, hchanged⟩

theorem Coincides.bind {program : Sql stmt db α} {next : α → Sql stmt db β}
    (h : Coincides R program) (hnext : ∀ a, Coincides R (next a))
    : Coincides R (program >>= next) := by
  intro faults state state' hR
  have ⟨hres, hmid⟩ := h faults state state' hR
  rw [run_bind, run_bind]
  cases hrun : program.run faults state with
  | mk res mid =>
    cases hrun' : program.run faults state' with
    | mk res' mid' =>
      rw [hrun, hrun'] at hres hmid
      dsimp only at hres hmid
      rw [← hres]
      cases res with
      | ok a => exact hnext a faults mid mid' hmid
      | error err => exact ⟨rfl, hmid⟩

end Coincides

end Sql
