import Koval.Conc.Prog
import Mathlib.Data.List.Forall2

/-!
This module contains pools of threads that share a state and run interleaved, step by step.
-/

structure Thread (ℓ : Type u) (σ : Type v) (α : Type w) where
  label : ℓ
  prog : Prog σ α

structure Pool (ℓ : Type u) (σ : Type v) (α : Type w) where
  state : σ
  threads : List (Thread ℓ σ α) := []

namespace Pool

variable {ℓ : Type u} {σ : Type v} {α : Type w} {φ : Type x}

def spawn (pool : Pool ℓ σ α) (label : ℓ) (prog : Prog σ α) : Pool ℓ σ α :=
  { pool with threads := pool.threads ++ [⟨label, prog⟩] }

def runThread (i : Nat) (pool : Pool ℓ σ α) : Option (Pool ℓ σ α) :=
  match pool.threads[i]? with
  | some ⟨label, .act effect next⟩ =>
    some {
      state := effect pool.state
      threads := pool.threads.set i ⟨label, next pool.state⟩
    }
  | _ => none

theorem runThread_eq {pool : Pool ℓ σ α} {i : Nat} {label : ℓ} {effect : σ → σ}
    {next : σ → Prog σ α} (h : pool.threads[i]? = some ⟨label, .act effect next⟩)
    : pool.runThread i
        =
      some {
        state := effect pool.state
        threads := pool.threads.set i ⟨label, next pool.state⟩
      } := by
  unfold runThread
  rw [h]

theorem exists_of_runThread {pool pool' : Pool ℓ σ α} {i j : Nat} {thread' : Thread ℓ σ α}
    (hrun : pool.runThread i = some pool') (hthread' : pool'.threads[j]? = some thread')
    : ∃ thread, pool.threads[j]? = some thread
        ∧ thread'.label = thread.label ∧ (thread.prog.isDone → thread' = thread) := by
  unfold runThread at hrun
  split at hrun
  . next label effect next hthread =>
    injection hrun with hrun
    rw [← hrun, List.getElem?_set] at hthread'
    split at hthread'
    . next hij =>
      split at hthread'
      . injection hthread' with hthread'
        rw [hij] at hthread
        refine ⟨_, hthread, ?_, fun hdone => Bool.noConfusion hdone⟩
        rw [← hthread']
      . contradiction
    . exact ⟨thread', hthread', rfl, fun _ => rfl⟩
  . contradiction

theorem not_isDone_of_runThread {pool pool' : Pool ℓ σ α} {i : Nat} {thread : Thread ℓ σ α}
    (hrun : pool.runThread i = some pool') (hthread : pool.threads[i]? = some thread)
    : thread.prog.isDone = false := by
  unfold runThread at hrun
  rw [hthread] at hrun
  split at hrun
  . next heq =>
    injection heq with heq
    rw [heq]
    rfl
  . contradiction

theorem map_label_of_runThread {pool pool' : Pool ℓ σ α} {i : Nat}
    (hrun : pool.runThread i = some pool')
    : pool'.threads.map (·.label) = pool.threads.map (·.label) := by
  unfold runThread at hrun
  split at hrun
  . next label effect next hthread =>
    injection hrun with hrun
    rcases List.getElem?_eq_some_iff.mp hthread with ⟨hlt, hget⟩
    rw [← hrun, List.map_set]
    have hself := @List.set_getElem_self _ (pool.threads.map (·.label)) i (by rwa [List.length_map])
    rw [List.getElem_map, hget] at hself
    exact hself
  . contradiction

theorem getElem?_spawn (pool : Pool ℓ σ α) (label : ℓ) (prog : Prog σ α)
    : (pool.spawn label prog).threads[pool.threads.length]? = some ⟨label, prog⟩ :=
  List.getElem?_concat_length

theorem getElem?_spawn_cases {pool : Pool ℓ σ α} {label : ℓ} {prog : Prog σ α} {i : Nat}
    {thread : Thread ℓ σ α} (h : (pool.spawn label prog).threads[i]? = some thread)
    : pool.threads[i]? = some thread ∨ (i = pool.threads.length ∧ thread = ⟨label, prog⟩) := by
  unfold spawn at h
  rw [List.getElem?_append] at h
  split at h
  . exact .inl h
  . next hge =>
    rw [List.getElem?_singleton] at h
    split at h
    . next hzero =>
      injection h with h
      exact .inr ⟨by omega, h.symm⟩
    . contradiction

section Conforms

variable (trans : φ → σ → φ → σ → Prop) (agrees : ℓ → φ → Prop) (final : ℓ → φ → α → Prop)

def Conforms (threads : List (Thread ℓ σ α)) (phases : List φ) : Prop :=
  List.Forall₂
    (fun thread phase =>
      agrees thread.label phase ∧ Prog.Follows trans (final thread.label) thread.prog phase)
    threads phases

variable {trans agrees final}

theorem conforms_nil : Conforms trans agrees final ([] : List (Thread ℓ σ α)) [] := .nil

theorem Conforms.spawn {pool : Pool ℓ σ α} {phases : List φ}
    (h : Conforms trans agrees final pool.threads phases) {label : ℓ} {prog : Prog σ α} {phase : φ}
    (hagrees : agrees label phase) (hfollows : Prog.Follows trans (final label) prog phase)
    : Conforms trans agrees final (pool.spawn label prog).threads (phases ++ [phase]) := by
  apply List.rel_append
  . exact h
  . exact .cons ⟨hagrees, hfollows⟩ .nil

theorem Conforms.get? {threads : List (Thread ℓ σ α)} {phases : List φ}
    (h : Conforms trans agrees final threads phases) {i : Nat} {thread : Thread ℓ σ α}
    (hthread : threads[i]? = some thread)
    : ∃ phase,
        phases[i]? = some phase
          ∧
        agrees thread.label phase
          ∧
        Prog.Follows trans (final thread.label) thread.prog phase := by
  induction h generalizing i with
  | nil => contradiction
  | cons hhead htail ih =>
    cases i with
    | zero =>
      injection hthread with hthread
      rw [← hthread]
      exact ⟨_, rfl, hhead⟩
    | succ i => exact ih hthread

theorem Conforms.getElem? {threads : List (Thread ℓ σ α)} {phases : List φ}
    (h : Conforms trans agrees final threads phases) {i : Nat} {phase : φ}
    (hphase : phases[i]? = some phase)
    : ∃ thread,
        threads[i]? = some thread
          ∧
        agrees thread.label phase
          ∧
        Prog.Follows trans (final thread.label) thread.prog phase := by
  induction h generalizing i with
  | nil => contradiction
  | cons hhead htail ih =>
    cases i with
    | zero =>
      injection hphase with hphase
      rw [← hphase]
      exact ⟨_, rfl, hhead⟩
    | succ i => exact ih hphase

theorem Conforms.exists_phase {threads : List (Thread ℓ σ α)} {phases : List φ}
    (h : Conforms trans agrees final threads phases) {thread : Thread ℓ σ α}
    (hthread : thread ∈ threads)
    : ∃ phase ∈ phases,
        agrees thread.label phase
          ∧
        Prog.Follows trans (final thread.label) thread.prog phase := by
  rcases List.getElem?_of_mem hthread with ⟨i, hi⟩
  rcases h.get? hi with ⟨phase, hphase, hfollows⟩
  exact ⟨phase, List.mem_of_getElem? hphase, hfollows⟩

theorem Conforms.getThread? {threads : List (Thread ℓ σ α)} {phases : List φ}
    (h : Conforms trans agrees final threads phases) {phase : φ} (hphase : phase ∈ phases)
    : ∃ thread ∈ threads,
        agrees thread.label phase ∧ Prog.Follows trans (final thread.label) thread.prog phase := by
  induction h with
  | nil => contradiction
  | cons hhead htail ih =>
    rw [List.mem_cons] at hphase
    rcases hphase with rfl | hphase
    . exact ⟨_, List.mem_cons_self, hhead⟩
    . rcases ih hphase with ⟨thread, hthread, hfollows⟩
      exact ⟨thread, List.mem_cons_of_mem _ hthread, hfollows⟩

theorem Conforms.set {threads : List (Thread ℓ σ α)} {phases : List φ}
    (h : Conforms trans agrees final threads phases) (i : Nat) {thread : Thread ℓ σ α} {phase : φ}
    (hagrees : agrees thread.label phase)
    (hfollows : Prog.Follows trans (final thread.label) thread.prog phase)
    : Conforms trans agrees final (threads.set i thread) (phases.set i phase) := by
  induction h generalizing i with
  | nil => exact .nil
  | cons hhead htail ih =>
    cases i with
    | zero => exact .cons ⟨hagrees, hfollows⟩ htail
    | succ i => exact .cons hhead (ih i)

theorem Conforms.runThread
    (hkeeps : ∀ label phase s phase' s', agrees label phase → trans phase s phase' s' →
      agrees label phase')
    {pool pool' : Pool ℓ σ α} {phases : List φ}
    (h : Conforms trans agrees final pool.threads phases) {i : Nat}
    (hrun : pool.runThread i = some pool')
    : ∃ phase phase',
        phases[i]? = some phase
          ∧
        trans phase pool.state phase' pool'.state
          ∧
        Conforms trans agrees final pool'.threads (phases.set i phase') := by
  unfold Pool.runThread at hrun
  split at hrun
  . next label effect next hthread =>
    injection hrun with hrun
    rcases h.get? hthread with ⟨phase, hphase, hagrees, hfollows⟩
    rcases hfollows pool.state with ⟨phase', htrans, hnext⟩
    rw [← hrun]
    refine ⟨phase, phase', hphase, htrans, ?_⟩
    exact h.set i (hkeeps _ _ _ _ _ hagrees htrans) hnext
  . contradiction

end Conforms

end Pool
