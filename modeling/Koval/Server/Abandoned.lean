import Koval.Server.Drains
import Koval.Server.QueuePlaces

/-!
This module contains what becomes of the jobs that are there when the server starts: nothing.
-/

namespace Koval

variable {crates : Crates} {settings : Settings} {system system' : System}

namespace System

structure Strands (rows : List JobRow) (system : System) : Prop where
  stays : ∀ row ∈ rows, system.state.db.jobs.find? row.id = some row
  threads : ∀ row ∈ rows, ∀ thread ∈ system.threads, thread.label.jobId ≠ row.id
  waiting : ∀ row ∈ rows, ∀ job ∈ system.state.queue.jobs, job.id ≠ row.id

theorem Strands.step {rows : List JobRow} {action : Action} (h : system.Strands rows)
    (hreachable : system.Reachable crates settings)
    (hstep : system.step crates settings action = some system')
    : system'.Strands rows := by
  cases System.stepsTo hstep with
  | @request request ambient hfresh =>
    refine ⟨h.stays, ?_, h.waiting⟩
    intro row hrow thread hthread
    rw [Pool.spawn, List.mem_append, List.mem_singleton] at hthread
    rcases hthread with hthread | rfl
    . exact h.threads row hrow thread hthread
    . intro heq
      have hnone := find?_of_isFresh hfresh
      have hsome : system.state.core.jobs.find? row.id = some row := h.stays row hrow
      have heq : ambient.uuid = row.id := heq
      rw [heq, hsome] at hnone
      contradiction
  | @recv externals job queue hjobs hclosed =>
    refine ⟨h.stays, ?_, ?_⟩
    . intro row hrow thread hthread
      rw [Pool.spawn, List.mem_append, List.mem_singleton] at hthread
      rcases hthread with hthread | rfl
      . exact h.threads row hrow thread hthread
      . apply h.waiting row hrow job
        rw [hjobs]
        exact List.mem_cons_self
    . intro row hrow job' hjob'
      apply h.waiting row hrow job'
      rw [hjobs]
      exact List.mem_cons_of_mem job hjob'
  | @run i _ hrun =>
    rcases hreachable.exists_lives with ⟨phases, hphases, _⟩
    rcases hphases.runThread Agrees.transition hrun with ⟨phase, _, hphase, htrans, _⟩
    rcases hphases.getElem? hphase with ⟨thread, hthread, hagrees, _⟩
    have hid : ∀ row ∈ rows, phase.jobId ≠ row.id := by
      intro row hrow
      rw [← hagrees.left]
      exact h.threads row hrow thread (List.mem_of_getElem? hthread)
    refine ⟨?_, ?_, ?_⟩
    . intro row hrow
      have howned : phase.ownedId? ≠ some row.id := fun howned =>
        hid row hrow (Phase.jobId_of_ownedId? howned)
      exact (htrans.find?_eq howned).trans (h.stays row hrow)
    . intro row hrow thread' hthread'
      rcases List.getElem?_of_mem hthread' with ⟨j, hj⟩
      rcases Pool.exists_of_runThread hrun hj with ⟨old, hold, hlabel, _⟩
      rw [hlabel]
      exact h.threads row hrow old (List.mem_of_getElem? hold)
    . intro row hrow job hjob
      rcases htrans.queue_cases with ⟨added, hinserted, hwaiting, _⟩ | ⟨hwaiting, _⟩
      . have hjob : job ∈ system'.state.core.waiting := hjob
        rw [hwaiting, List.mem_append, List.mem_singleton] at hjob
        rcases hjob with hjob | rfl
        . exact h.waiting row hrow job hjob
        . have hne := hid row hrow
          rw [hinserted] at hne
          exact hne
      . have hjob : job ∈ system'.state.core.waiting := hjob
        rw [hwaiting] at hjob
        exact h.waiting row hrow job hjob
  | changeFiles => exact ⟨h.stays, h.threads, h.waiting⟩
  | restart hthreads hcore =>
    have hjobs : system'.state.db.jobs = system.state.db.jobs := congrArg Core.jobs hcore
    have hwaiting : system'.state.queue.jobs = [] := congrArg Core.waiting hcore
    refine ⟨?_, ?_, ?_⟩
    . rw [hjobs]
      exact h.stays
    . intro row _ thread hthread
      rw [hthreads] at hthread
      contradiction
    . intro row _ job hjob
      rw [hwaiting] at hjob
      contradiction

theorem Strands.of_restart {boot : Boot}
    (hrestart : system.step crates settings (.restart boot) = some system')
    : system'.Strands system.state.db.jobs.rows := by
  have ⟨hthreads, hcore⟩ := main_eq_some hrestart
  have hjobs : system'.state.db.jobs = system.state.db.jobs := congrArg Core.jobs hcore
  have hwaiting : system'.state.queue.jobs = [] := congrArg Core.waiting hcore
  refine ⟨?_, ?_, ?_⟩
  . intro row hrow
    rw [hjobs]
    exact Table.find?_of_mem hrow
  . intro row _ thread hthread
    rw [hthreads] at hthread
    contradiction
  . intro row _ job hjob
    rw [hwaiting] at hjob
    contradiction

theorem Strands.not_taken {rows : List JobRow} (h : system.Strands rows) {row : JobRow}
    (hrow : row ∈ rows)
    : row.id ∉ (system.taken ++ system.state.queue.jobs).map Job.id := by
  intro hmem
  rw [List.mem_map] at hmem
  rcases hmem with ⟨job, hjob, hid⟩
  rw [List.mem_append] at hjob
  rcases hjob with htaken | hwaiting
  . unfold taken at htaken
    rw [List.mem_filterMap] at htaken
    rcases htaken with ⟨label, hlabel, hjob⟩
    rw [List.mem_map] at hlabel
    rcases hlabel with ⟨thread, hthread, rfl⟩
    apply h.threads row hrow thread hthread
    rw [← hid]
    cases hlabel : thread.label with
    | handler request ambient =>
      rw [hlabel] at hjob
      contradiction
    | worker job' =>
      rw [hlabel] at hjob
      injection hjob with hjob
      rw [← hjob]
      rfl
  . exact h.waiting row hrow job hwaiting hid

theorem Strands.lt_position {rows : List JobRow} (h : system.Strands rows)
    (hnodup : (rows.map JobRow.id).Nodup) {id : String} {position : Nat}
    (hposition : ((Db.getJobPosition id).run .none system.state.db).fst = .ok (some position))
    : (rows.countP fun row => row.status = .queued && row.queuedAt < system.state.db.queuedAt id)
        < position := by
  have hsub : rows.Subperm system.state.db.jobs.rows := by
    apply List.subperm_of_subset (.of_map _ hnodup)
    intro row hrow
    exact Table.mem_of_find? (h.stays row hrow)
  rw [Db.fst_getJobPosition rfl] at hposition
  injection hposition with hposition
  split at hposition
  . injection hposition with hposition
    rw [← hposition]
    exact Nat.lt_succ_of_le (hsub.countP_le _)
  . contradiction

/--
Whatever the server does after it has started again: the rows of all jobs that were there stay as
they are, so that a job which was not settled never will be; no worker is given any of them; and
those among them that are queued are counted in the positions of all later jobs.
-/
theorem restart_strands_jobs {system₀ : System} {boot : Boot} {actions : List Action}
    (h : system.Reachable crates settings)
    (hrestart : system.step crates settings (.restart boot) = some system₀)
    (hrun : Machine.run (System.step crates settings) system₀ actions = some system')
    : (∀ row ∈ system.state.db.jobs.rows,
        system'.state.db.jobs.find? row.id = some row
          ∧
        row.id ∉ (system'.taken ++ system'.state.queue.jobs).map Job.id)
        ∧
      ∀ id position,
        ((Db.getJobPosition id).run .none system'.state.db).fst = .ok (some position) →
          (system.state.db.jobs.rows.countP fun row =>
            row.status = .queued && row.queuedAt < system'.state.db.queuedAt id) < position := by
  have hinv : system'.Reachable crates settings ∧ system'.Strands system.state.db.jobs.rows := by
    apply Machine.invariant_of_run
      (I := fun system' =>
        System.Reachable crates settings system' ∧ system'.Strands system.state.db.jobs.rows)
      _ ⟨h.step hrestart, Strands.of_restart hrestart⟩ hrun
    rintro action _ t t' ⟨h, hstrands⟩ hstep
    exact ⟨h.step hstep, hstrands.step h hstep⟩
  have hstrands := hinv.right
  constructor
  . intro row hrow
    exact ⟨hstrands.stays row hrow, hstrands.not_taken hrow⟩
  . intro id position hposition
    exact hstrands.lt_position system.state.db.jobs.nodup hposition

-- A job is put on the queue, the server starts again, and builds the next job.
theorem restart_strands_jobs_queued
    : ∃ system : System,
        system.state.core.statusOf "5d2f" = some .done
          ∧
        system.state.core.statusOf "4c1e" = some .queued
          ∧
        "4c1e" ∉ (system.taken ++ system.state.queue.jobs).map Job.id := by
  let later := Samples.submitted 0 (.build Samples.request) "5d2f" 4
    ++ Samples.processed 1 Samples.externals 10
  rcases Samples.exists_of_runs (Samples.submitted 0 (.build Samples.request) "4c1e" 4)
      (fun system => system.state.core.statusOf "4c1e" = some .queued
        ∧ ((system.step Samples.github.crates Samples.settings (.restart Samples.boot)).bind
            fun system₀ => Machine.run (System.step Samples.github.crates Samples.settings) system₀
              later).any fun system' => system'.state.core.statusOf "5d2f" = some .done)
      (by decide +kernel) with
    ⟨start, system, hmain, hrun, hqueued, hlater⟩
  rw [Option.any_eq_true] at hlater
  rcases hlater with ⟨system', hsystem', hdone⟩
  rcases Option.bind_eq_some_iff.mp hsystem' with ⟨system₀, hrestart, hrun'⟩
  have h : system.Reachable Samples.github.crates Samples.settings :=
    ⟨Samples.boot, start, _, hmain, hrun⟩
  rcases Option.map_eq_some_iff.mp hqueued with ⟨row, hrow, hstatus⟩
  have hid : row.id = "4c1e" := Table.key_of_find? hrow
  have ⟨hstays, hnot⟩ := (restart_strands_jobs h hrestart hrun').left row (Table.mem_of_find? hrow)
  rw [hid] at hstays hnot
  refine ⟨system', of_decide_eq_true hdone, ?_, hnot⟩
  unfold Core.statusOf
  exact (congrArg (Option.map _) hstays).trans (congrArg some hstatus)

end System

end Koval
