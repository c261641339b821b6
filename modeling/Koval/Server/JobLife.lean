import Koval.Server.Samples
import Koval.Server.SystemLemmas

/-!
This module contains what a client may rely on when it follows a job: how its status moves, the
columns that go with it, and the position in the queue.
-/

namespace Koval

variable {crates : Crates} {settings : Settings} {system system' : System}

theorem Db.run_getJobStatus (id : String) (db : Db)
    : ∃ found,
        (getJobStatus id).run .none db = (.ok found, db)
          ∧
        found.map (·.status) = (db.jobs.find? id).map (·.status)
          ∧
        ((found.bind (·.position)).isSome
            ↔
          (db.jobs.find? id).map (·.status) = some .queued) := by
  unfold getJobStatus getJobPosition
  simp only [Sql.run_bind, Sql.run_query_none]
  cases hfind : db.jobs.find? id with
  | none => simp [hfind]
  | some row =>
    by_cases hqueued : row.status = .queued
    . simp [hfind, hqueued, Sql.run_bind]
    . simp [hfind, hqueued]

theorem System.Reachable.isConsistent (h : system.Reachable crates settings) {row : JobRow}
    (hrow : row ∈ system.state.db.jobs.rows)
    : row.IsConsistent system.state.db.artifacts := by
  rcases h.exists_lives with ⟨phases, _, hlife⟩
  exact hlife.isConsistent row.id row (Table.find?_of_mem hrow)

theorem System.Reachable.statusMoves {action : Action} (h : system.Reachable crates settings)
    (hstep : system.step crates settings action = some system') (id : String)
    : StatusMoves (system.state.core.statusOf id) (system'.state.core.statusOf id) := by
  rcases h.exists_lives with ⟨phases, hphases, hlife⟩
  rcases hphases.step hstep with ⟨before, after, phases', hbefore, hadvance, _, _⟩
  exact (hlife.owned.perm hbefore).statusMoves hadvance id

theorem System.Reachable.statusOf_of_run {actions : List Action}
    (h : system.Reachable crates settings)
    (hrun : Machine.run (System.step crates settings) system actions = some system')
    {id : String} {status : Status} (hsettled : status.IsSettled)
    (hstatus : system.state.core.statusOf id = some status)
    : system'.state.core.statusOf id = some status := by
  have hinv : system'.Reachable crates settings ∧ system'.state.core.statusOf id = some status := by
    apply Machine.invariant_of_run
      (I := fun system =>
        System.Reachable crates settings system ∧ system.state.core.statusOf id = some status)
      _ ⟨h, hstatus⟩ hrun
    rintro action _ system system' ⟨h, hstatus⟩ hstep
    exact ⟨h.step hstep, (h.statusMoves hstep id).lasts hsettled hstatus⟩
  exact hinv.right

/-- The life of the jobs, over all interleavings, faults and restarts. -/
theorem System.Reachable.jobs_live (h : system.Reachable crates settings)
    : (∀ row ∈ system.state.db.jobs.rows, row.IsConsistent system.state.db.artifacts)
        ∧
      (∀ id, ∃ found,
        (Db.getJobStatus id).run .none system.state.db = (.ok found, system.state.db)
          ∧
        found.map (·.status) = system.state.core.statusOf id
          ∧
        ((found.bind (·.position)).isSome ↔ system.state.core.statusOf id = some .queued))
        ∧
      (∀ action system', system.step crates settings action = some system' →
        ∀ id, StatusMoves (system.state.core.statusOf id) (system'.state.core.statusOf id))
        ∧
      (∀ actions system',
        Machine.run (System.step crates settings) system actions = some system' →
        ∀ id status, status.IsSettled → system.state.core.statusOf id = some status →
          system'.state.core.statusOf id = some status) := by
  refine ⟨?_, ?_, ?_, ?_⟩
  . intro row hrow
    exact h.isConsistent hrow
  . intro id
    exact Db.run_getJobStatus id system.state.db
  . intro action system' hstep
    exact h.statusMoves hstep
  . intro actions system' hrun id status hsettled hstatus
    exact h.statusOf_of_run hrun hsettled hstatus

theorem System.Reachable.jobs_live_built
    : ∃ system,
        system.state.core.statusOf "4c1e" = some .done
          ∧
        ∀ actions system',
          Machine.run (System.step Samples.github.crates Samples.settings) system actions
              = some system' →
            system'.state.core.statusOf "4c1e" = some .done := by
  rcases Samples.exists_of_runs
      (Samples.submitted 0 (.build Samples.request) "4c1e" 4
        ++ Samples.processed 1 Samples.externals 10)
      (fun system => system.state.core.statusOf "4c1e" = some .done) (by decide +kernel) with
    ⟨system₀, system, hmain, hrun₀, hdone⟩
  have hreachable : system.Reachable Samples.github.crates Samples.settings :=
    ⟨Samples.boot, system₀, _, hmain, hrun₀⟩
  have hlive := hreachable.jobs_live.right.right.right
  refine ⟨system, hdone, ?_⟩
  intro actions system' hrun
  exact hlive actions system' hrun "4c1e" .done (.inl rfl) hdone

end Koval
