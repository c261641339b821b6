import Koval.Server.Routes.RouteWrites
import Koval.Server.SystemFrames
import Koval.Server.Worker.WorkerSteps

/-!
This module contains what the whole server writes into the database, whatever its runs are.
-/

namespace Koval

open Prog

variable {crates : Crates} {settings : Settings}

abbrev Writes (crates : Crates) (settings : Settings) (s s' : State) : Prop :=
  s.db.Writes crates settings s'.db

theorem writes_of_db_eq {s s' : State} (h : s'.db = s.db) : Writes crates settings s s' :=
  Db.writes_of_eq h

theorem writes_lockDb {α : Type} {program : DbM α}
    (h : Sql.Moves (Db.Writes crates settings) program) (faults : Faults Stmt)
    : Always (Writes crates settings) (lockDb faults program) := by
  apply always_atomic
  intro s
  exact h faults s.db

namespace processJob

variable {externals : Externals} {job : Job} {α : Type}

abbrev WritesStep (crates : Crates) (settings : Settings) (_ : Unit) (s : State) (_ : Unit)
    (s' : State) : Prop :=
  Writes crates settings s s'

theorem follows_of_writes {prog : Worker α} {final : Unit → α → Prop}
    (h : Always (Writes crates settings) prog.run) (hfinal : ∀ a, final () a)
    : Follows (WritesStep crates settings) (Until final fun _ (_ : Outcome) => True) prog.run () := by
  apply (h.follows fun _ _ hstep => hstep).weaken
  intro _ res _
  cases res with
  | ok a => exact hfinal a
  | error outcome => trivial

theorem writes_tryDb (res : Except SqlError α) : Always (Writes crates settings) (tryDb res).run := by
  unfold tryDb
  split
  . exact always_pure _
  . exact always_throw _

theorem writes_perform (effect : Effect) : Always (Writes crates settings) (perform effect) := by
  apply always_atomic
  intro s
  exact writes_of_db_eq rfl

theorem writes_deliver (payload : WebhookPayload) (webhooks : List (String × String))
    : Always (Writes crates settings) (deliver payload webhooks) := by
  unfold deliver
  split
  . exact always_pure _
  . exact writes_perform _

theorem writes_start : Always (Writes crates settings) (start settings externals job).run := by
  unfold start
  apply Always.bindExcept (writes_lockDb
    (Db.writes_updateJobStatus _ _ _ (Db.isTime_some _) Db.isTime_none) _).liftExcept
  intro res
  apply Always.bindExcept (writes_tryDb res)
  intro _
  split
  . exact (writes_perform _).liftExcept
  . exact always_pure _

theorem writes_failJob (errMsg : String)
    : Always (Writes crates settings) (failJob settings externals job errMsg : Worker α).run := by
  unfold failJob
  apply Always.bindExcept (writes_lockDb (Db.writes_query _ _) _).liftExcept
  intro webhooks
  apply Always.bindExcept (writes_lockDb
    (Db.writes_updateJobStatus _ _ _ Db.isTime_none (Db.isTime_some _)) _).liftExcept
  intro res
  apply Always.bindExcept (writes_tryDb res)
  intro _
  apply Always.bindExcept (writes_perform _).liftExcept
  intro _
  apply Always.bindExcept (writes_deliver _ _).liftExcept
  intro _
  exact always_throw _

theorem writes_tryIo (fault : Option IoError) (path : Path)
    : Always (Writes crates settings) (tryIo fault path).run := by
  apply always_atomicExcept
  intro s
  split <;> exact writes_of_db_eq rfl

theorem follows_measure
    : Follows (WritesStep crates settings)
        (Until (fun _ measured => ∃ content, measured.snd = crates.sha256 content)
          fun _ (_ : Outcome) => True)
        (measure crates settings externals job).run () := by
  unfold measure
  apply Follows.bindExcept (m := fun _ _ => True)
  . exact follows_of_writes (writes_tryIo _ _) fun _ => trivial
  intro file _ _
  split
  . exact follows_pure trivial
  . apply Follows.bindExcept (m := fun _ _ => True)
    . exact follows_of_writes (writes_tryIo _ _) fun _ => trivial
    intro stat _ _
    exact follows_pure ⟨file.content, rfl⟩

theorem writes_of_complete (fileSize : Nat) (content : Bytes)
    : Always (Writes crates settings)
        (complete crates settings externals job fileSize (crates.sha256 content)).run := by
  unfold complete
  apply Always.bindExcept (writes_lockDb (Db.writes_query _ _) _).liftExcept
  intro webhooks
  apply Always.bindExcept
  . apply Always.liftExcept
    apply always_atomic
    intro s
    have h := @Db.writes_complete crates settings job externals.finished fileSize content
      (externals.faults 3) s.db
    dsimp only
    split <;> exact h
  . intro res
    apply Always.bindExcept (writes_tryDb res)
    intro _
    exact (writes_deliver _ _).liftExcept

theorem writes_processJob (externals : Externals) (job : Job)
    : Always (Writes crates settings) (processJob crates settings externals job) := by
  have steps : Steps settings externals job (WritesStep crates settings) (fun _ _ => True) () := by
    constructor
    . intro s s' h
      exact writes_of_db_eq h.db
    . intro s mid h
      unfold afterTar
      split <;> exact writes_of_db_eq h.db
    . intro _ _
      trivial
    . intro _ errMsg
      exact follows_of_writes (writes_failJob errMsg) fun _ => rfl
  apply Follows.always
  apply steps.follows_processJob
  . exact follows_of_writes writes_start fun _ => rfl
  . exact follows_measure
  . rintro fileSize _ _ ⟨content, rfl⟩
    exact follows_of_writes (writes_of_complete fileSize content) fun _ => rfl
  . intro s s' h
    exact writes_of_db_eq h.db
  . trivial

end processJob

theorem writes_main {boot : Boot} {s : State} {system : System}
    (h : main crates settings boot s = some system)
    : Writes crates settings s system.state := by
  have hwrites := @Db.writes_bootstrapAdminToken crates settings boot boot.faults s.db
  unfold main at h
  split at h
  . next hrun =>
    have ⟨hdb, _⟩ := run_of_runDb hrun
    rw [hdb] at hwrites
    split at h
    . contradiction
    . injection h with h
      rw [← h]
      exact hwrites
  . contradiction

theorem files_of_main {boot : Boot} {s : State} {system : System}
    (h : main crates settings boot s = some system)
    : system.state.files = s.files := by
  unfold main at h
  split at h
  . next hrun =>
    have hfiles := files_of_runDb hrun
    split at h
    . contradiction
    . injection h with h
      rw [← h, ← hfiles]
      rfl
  . contradiction

abbrev System.AllWrite (crates : Crates) (settings : Settings) (system : System) : Prop :=
  Pool.AllAlways (fun _ => Writes crates settings) system.threads

theorem System.AllWrite.step {action : Action} {system system' : System}
    (h : system.AllWrite crates settings) (hstep : system.step crates settings action = some system')
    : Writes crates settings system.state system'.state ∧ system'.AllWrite crates settings := by
  cases System.stepsTo hstep with
  | @request request ambient _ =>
    refine ⟨Db.writes_refl _, h.spawn ?_⟩
    apply Always.bind
    . apply Always.bind ((handles_route request).mono fun _ _ h => h.writes)
      intro res
      cases res <;> exact always_pure _
    . intro _
      exact always_pure _
  | @recv externals job queue _ _ =>
    refine ⟨Db.writes_refl _, ?_⟩
    apply Pool.AllAlways.spawn h
    apply Always.bind (processJob.writes_processJob externals job)
    intro outcome
    exact always_pure _
  | run hrun =>
    rcases h.runThread hrun with ⟨_, _, _, hwrites, hnext⟩
    exact ⟨hwrites, hnext⟩
  | changeFiles => exact ⟨Db.writes_refl _, h⟩
  | restart hthreads _ =>
    refine ⟨writes_main hstep, ?_⟩
    unfold System.AllWrite
    rw [hthreads]
    intro thread hthread
    contradiction

theorem System.AllWrite.run {actions : List Action} {system system' : System}
    (h : system.AllWrite crates settings)
    (hrun : Machine.run (System.step crates settings) system actions = some system')
    : Writes crates settings system.state system'.state ∧ system'.AllWrite crates settings := by
  apply Machine.invariant_of_run
    (I := fun t => Writes crates settings system.state t.state ∧ t.AllWrite crates settings)
    _ ⟨Db.writes_refl _, h⟩ hrun
  rintro action _ t t' ⟨hwrites, hall⟩ hstep
  have ⟨hstep, hall'⟩ := hall.step hstep
  exact ⟨hwrites.trans _ _ _ hstep, hall'⟩

theorem System.Reachable.writes {system : System} (h : system.Reachable crates settings)
    : Db.Writes crates settings {} system.state.db ∧ system.AllWrite crates settings := by
  rcases h with ⟨boot, system₀, actions, hmain, hrun⟩
  have hstart : system₀.AllWrite crates settings := by
    unfold System.AllWrite
    rw [(main_eq_some hmain).left]
    intro thread hthread
    contradiction
  have ⟨hwrites, hall⟩ := hstart.run hrun
  exact ⟨Db.Writes.trans _ _ _ (writes_main hmain) hwrites, hall⟩

theorem System.Reachable.writes_of_run {actions : List Action} {system system' : System}
    (h : system.Reachable crates settings)
    (hrun : Machine.run (System.step crates settings) system actions = some system')
    : Db.Writes crates settings system.state.db system'.state.db :=
  (h.writes.right.run hrun).left

end Koval
