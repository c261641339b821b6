import Koval.Server.DbLemmas
import Koval.Server.Lifecycle

/-!
This module contains the steps of programs as steps in the life of jobs.
-/

namespace Koval

open Prog

variable {ext : Crates} {α β ε : Type}

theorem run_insertJob_cases {job : Job} {queuedAt : String} {faults : Faults Stmt}
    {db db' : Db} {res : Except SqlError Unit}
    (h : (Db.insertJob ext job.id job.tokenId job.project job.gitRef job.hardware queuedAt job.jobType
      job.pgoSourceJobId).run faults db = (res, db'))
    : (res = .ok () ∧ ∃ jobs,
          db.jobs.insert? (JobRow.ofJob ext job queuedAt) = some jobs ∧ db' = { db with jobs })
        ∨
      (∃ err, res = .error err ∧ db' = db) := by
  cases Sql.run_execute_cases h with
  | inl h =>
    rcases Db.inserted_eq_ok h.right with ⟨jobs, hinsert, hdb⟩
    exact .inl ⟨h.left, jobs, hinsert, hdb⟩
  | inr h => exact .inr h

theorem run_of_runDb {program : DbM α} {s s' : State} {faults : Faults Stmt} {res : Except SqlError α}
    (h : s.runDb faults program = (res, s'))
    : program.run faults s.db = (res, s'.db) ∧ s' = { s with db := s'.db } := by
  unfold State.runDb at h
  cases hrun : program.run faults s.db with
  | mk res db =>
    rw [hrun] at h
    injection h with hres hs
    rw [← hres, ← hs]
    exact ⟨rfl, rfl⟩

theorem runDb_query (faults : Faults Stmt) (s : State) (tag : Stmt) (select : Db → α)
    : (s.runDb faults (Sql.query tag select)).snd = s := by
  unfold State.runDb
  have := Sql.keeps_query id tag select faults s.db
  exact congrArg (fun db => { s with db }) this

theorem fst_runDb_query (faults : Faults Stmt) (s : State) (tag : Stmt) (select : Db → α)
    : (s.runDb faults (Sql.query tag select)).fst
        =
      match faults tag with
      | some msg => .error (.failure msg)
      | none => .ok (select s.db) := by
  unfold State.runDb Sql.query Sql.run
  dsimp only
  cases faults tag <;> rfl

theorem core_of_runDb {program : DbM α} (h : Sql.Keeps Db.jobView program) {s s' : State}
    {faults : Faults Stmt} {res : Except SqlError α} (hrun : s.runDb faults program = (res, s'))
    : s'.core = s.core := by
  have ⟨hdb, hs⟩ := run_of_runDb hrun
  have hview := h faults s.db
  rw [hdb] at hview
  simp only [Db.jobView, Prod.mk.injEq] at hview
  rw [hs]
  simp only [State.core, hview]

theorem follows_updateJobStatus {phase phase' : Phase} {status : Status}
    {startedAt finishedAt errorMsg : Option String}
    (hsets : SetsStatus phase status startedAt finishedAt errorMsg phase') (faults : Faults Stmt)
    : Follows (Transition ext)
        (fun p res =>
          if res.isOk then p = phase' else p = phase ∧ ∃ msg, faults .updateJobStatus = some msg)
        (lockDb faults (Db.updateJobStatus phase.jobId status startedAt finishedAt errorMsg))
        phase := by
  apply follows_atomic
  intro s
  dsimp only [State.runDb]
  cases hrun : (Db.updateJobStatus phase.jobId status startedAt finishedAt errorMsg).run faults
      s.db with
  | mk res db =>
    rcases Db.run_updateJobStatus_cases hrun with ⟨rfl, rfl⟩ | ⟨msg, hfault, rfl, rfl⟩
    . refine ⟨phase', ?_, rfl⟩
      apply Transition.setStatus hsets
      rfl
    . refine ⟨phase, ?_, rfl, msg, hfault⟩
      apply Transition.quiet (.stay phase)
      rfl

/-- The program changes neither the phase nor the part of the state that it is about. -/
def Quiet (ext : Crates) (prog : Prog State α) : Prop :=
  ∀ phase, Follows (Transition ext) (fun phase' _ => phase' = phase) prog phase

theorem quiet_pure (a : α) : Quiet ext (pure a) := by
  intro phase
  exact follows_pure rfl

theorem quiet_atomic {f : State → α × State} (h : ∀ s, (f s).snd.core = s.core)
    : Quiet ext (atomic f) := by
  intro phase
  apply follows_atomic
  intro s
  exact ⟨phase, .quiet (.stay phase) (h s), rfl⟩

theorem quiet_lockDb {program : DbM α} (h : Sql.Keeps Db.jobView program) (faults : Faults Stmt)
    : Quiet ext (lockDb faults program) := by
  apply quiet_atomic
  intro s
  exact core_of_runDb h rfl

theorem quiet_perform (effect : Effect) : Quiet ext (perform effect) := by
  apply quiet_atomic
  intro s
  rfl

def Stays (ext : Crates) (early : ε → Prop) (prog : ExceptT ε (Prog State) α) : Prop :=
  ∀ phase,
    Follows (Transition ext)
      (Until (fun phase' _ => phase' = phase) fun phase' e => phase' = phase ∧ early e)
      prog.run phase

section Stays

variable {early : ε → Prop}

theorem stays_pure (a : α) : Stays ext early (pure a) := by
  intro phase
  exact follows_pure (by rfl)

theorem stays_throw {e : ε} (h : early e)
    : Stays ext early (throw e : ExceptT ε (Prog State) α) := by
  intro phase
  exact follows_pure ⟨rfl, h⟩

theorem stays_lift {prog : Prog State α} (h : Quiet ext prog)
    : Stays ext early (ExceptT.lift prog) := by
  intro phase
  exact Follows.liftExcept (h phase)

theorem stays_lockDb {program : DbM α} (h : Sql.Keeps Db.jobView program) (faults : Faults Stmt)
    : Stays ext early (ExceptT.lift (lockDb faults program)) := stays_lift (quiet_lockDb h faults)

def Leaves (early : ε → Prop) (s : State) (out : Except ε α × State) : Prop :=
  out.snd.core = s.core ∧ ∀ e, out.fst = .error e → early e

theorem leaves_ok {s s' : State} (h : s'.core = s.core) (a : α) : Leaves early s (.ok a, s') := by
  refine ⟨h, ?_⟩
  intro e he
  contradiction

theorem leaves_error {s s' : State} {e : ε} (h : s'.core = s.core) (he : early e)
    : Leaves early s ((.error e : Except ε α), s') := by
  refine ⟨h, ?_⟩
  intro e' he'
  injection he' with he'
  rw [← he']
  exact he

theorem stays_atomic {f : State → Except ε α × State} (h : ∀ s, Leaves early s (f s))
    : Stays ext early (ExceptT.mk (atomic f)) := by
  intro phase
  apply follows_atomic
  intro s
  have ⟨hcore, hearly⟩ := h s
  refine ⟨phase, .quiet (.stay phase) hcore, ?_⟩
  cases hres : (f s).fst with
  | ok a => exact rfl
  | error e => exact ⟨rfl, hearly e hres⟩

theorem Stays.bind {prog : ExceptT ε (Prog State) α} {next : α → ExceptT ε (Prog State) β}
    (h : Stays ext early prog) (hnext : ∀ a, Stays ext early (next a))
    : Stays ext early (prog >>= next) := by
  intro phase
  apply Follows.bindExcept (h phase)
  rintro a phase' rfl
  exact hnext a phase'

theorem Stays.follows {prog : ExceptT ε (Prog State) α} {next : α → ExceptT ε (Prog State) β}
    {final : Phase → β → Prop} {final' : Phase → ε → Prop} {phase : Phase}
    (h : Stays ext early prog) (hearly : ∀ e, early e → final' phase e)
    (hnext : ∀ a, Follows (Transition ext) (Until final final') (next a).run phase)
    : Follows (Transition ext) (Until final final') (prog >>= next).run phase := by
  apply Follows.bindExcept (m := fun phase' _ => phase' = phase)
  . apply (h phase).weaken
    intro phase' res heq
    cases res with
    | ok a => exact heq
    | error e =>
      have ⟨heq, he⟩ := heq
      rw [heq]
      exact hearly e he
  . rintro a phase' rfl
    exact hnext a

end Stays

end Koval
