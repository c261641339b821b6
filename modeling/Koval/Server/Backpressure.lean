import Koval.Server.JobLife

/-!
This module contains how many jobs are under way at a time.
-/

namespace Koval

variable {crates : Crates} {settings : Settings} {system system' : System}

def System.IsOver (system : System) (thread : Thread Label State Answer) : Prop :=
  thread.prog.isDone
    ∧ (system.state.core.statusOf thread.label.jobId = some .done
      ∨ system.state.core.statusOf thread.label.jobId = some .failed)

instance (system : System) (thread : Thread Label State Answer) : Decidable (system.IsOver thread) :=
  inferInstanceAs (Decidable (_ ∧ _))

-- The worker loop receives a job when everything that it received before is over.
def System.Waits (system : System) (action : Action) : Prop :=
  match action with
  | .recv _ => ∀ thread ∈ system.threads, thread.label.isWorker → system.IsOver thread
  | _ => True

instance (system : System) (action : Action) : Decidable (system.Waits action) :=
  match action with
  | .recv _ => List.decidableBAll _ system.threads
  | .request .. | .run _ | .changeFiles _ | .restart _ => isTrue trivial

def System.inProgress (system : System) : List (Thread Label State Answer) :=
  system.threads.filter fun thread => thread.label.isWorker && !thread.prog.isDone

def System.unsettled (system : System) : List JobRow :=
  system.state.db.jobs.rows.filter fun row =>
    (system.state.core.enqueuedSinceStart.map Job.id).contains row.id
      && !(row.status = .done || row.status = .failed)

def System.IsSequential (system : System) : Prop :=
  ∀ (i j : Nat) thread thread', system.threads[i]? = some thread →
    system.threads[j]? = some thread' → thread.label.isWorker → thread'.label.isWorker →
      i = j ∨ system.IsOver thread ∨ system.IsOver thread'

theorem System.IsOver.step {action : Action} (hreachable : system.Reachable crates settings)
    (hstep : system.step crates settings action = some system')
    {thread : Thread Label State Answer} (h : system.IsOver thread)
    : system'.IsOver thread := by
  have hmoves := hreachable.statusMoves hstep thread.label.jobId
  rcases h with ⟨hdone, hstatus | hstatus⟩
  . exact ⟨hdone, .inl (hmoves.lasts (.inl rfl) hstatus)⟩
  . exact ⟨hdone, .inr (hmoves.lasts (.inr rfl) hstatus)⟩

theorem System.IsSequential.runThread {k : Nat} (h : system.IsSequential)
    (hover : ∀ thread, system.IsOver thread → system'.IsOver thread)
    (hrun : system.runThread k = some system')
    : system'.IsSequential := by
  intro i j thread thread' hi hj hworker hworker'
  rcases Pool.exists_of_runThread hrun hi with ⟨old, hold, hlabel, hsame⟩
  rcases Pool.exists_of_runThread hrun hj with ⟨old', hold', hlabel', hsame'⟩
  rw [hlabel] at hworker
  rw [hlabel'] at hworker'
  rcases h i j old old' hold hold' hworker hworker' with heq | hor | hor
  . exact .inl heq
  . rw [hsame hor.left]
    exact .inr (.inl (hover old hor))
  . rw [hsame' hor.left]
    exact .inr (.inr (hover old' hor))

theorem System.IsSequential.spawn {label : Label} {prog : Prog State Answer}
    (h : system.IsSequential)
    (hover : label.isWorker → ∀ thread ∈ system.threads, thread.label.isWorker → system.IsOver thread)
    : System.IsSequential (system.spawn label prog) := by
  intro i j thread thread' hi hj hworker hworker'
  rcases Pool.getElem?_spawn_cases hi with hold | ⟨hnew, hthread⟩
  . rcases Pool.getElem?_spawn_cases hj with hold' | ⟨_, hthread'⟩
    . exact h i j thread thread' hold hold' hworker hworker'
    . rw [hthread'] at hworker'
      exact .inr (.inl (hover hworker' thread (List.mem_of_getElem? hold) hworker))
  . rcases Pool.getElem?_spawn_cases hj with hold' | ⟨hnew', _⟩
    . rw [hthread] at hworker
      exact .inr (.inr (hover hworker thread' (List.mem_of_getElem? hold') hworker'))
    . exact .inl (hnew.trans hnew'.symm)

theorem System.IsSequential.step {action : Action} (h : system.IsSequential)
    (hreachable : system.Reachable crates settings) (hwaits : system.Waits action)
    (hstep : system.step crates settings action = some system')
    : system'.IsSequential := by
  have hover : ∀ thread, system.IsOver thread → system'.IsOver thread := by
    intro thread h
    exact h.step hreachable hstep
  cases System.stepsTo hstep with
  | request =>
    apply h.spawn
    intro hworker
    contradiction
  | @recv _ job queue _ _ =>
    have h : System.IsSequential { system with state := { system.state with queue } } := h
    exact h.spawn fun _ => hwaits
  | run hrun => exact h.runThread hover hrun
  | @changeFiles files =>
    have h : System.IsSequential { system with state := { system.state with files } } := h
    exact h
  | restart hthreads _ =>
    intro i j thread thread' hi
    rw [hthreads] at hi
    contradiction

theorem System.IsSequential.length_le (h : system.IsSequential) {p : Thread Label State Answer → Bool}
    (hp : ∀ thread, p thread → thread.label.isWorker ∧ ¬system.IsOver thread)
    : (system.threads.filter p).length ≤ 1 := by
  have hpairs : system.threads.Pairwise fun thread thread' => ¬(p thread ∧ p thread') := by
    rw [List.pairwise_iff_getElem]
    rintro i j hi hj hlt ⟨hthread, hthread'⟩
    have ⟨hworker, hopen⟩ := hp _ hthread
    have ⟨hworker', hopen'⟩ := hp _ hthread'
    rcases h i j _ _ (List.getElem?_eq_getElem hi) (List.getElem?_eq_getElem hj) hworker hworker' with
      heq | hor | hor
    . omega
    . exact hopen hor
    . exact hopen' hor
  have hpairs := hpairs.filter p
  match hthreads : system.threads.filter p with
  | [] => exact Nat.zero_le 1
  | [_] => exact Nat.le_refl 1
  | thread :: thread' :: _ =>
    have hp : ∀ t ∈ system.threads.filter p, p t := fun t ht => List.of_mem_filter ht
    rw [hthreads] at hpairs hp
    apply absurd _ ((List.pairwise_cons.mp hpairs).left thread' List.mem_cons_self)
    exact ⟨hp _ List.mem_cons_self, hp _ (List.mem_cons_of_mem _ List.mem_cons_self)⟩

theorem System.Reachable.unsettled_cases (h : system.Reachable crates settings) {row : JobRow}
    (hrow : row ∈ system.unsettled)
    : row.id ∈ system.state.queue.jobs.map Job.id
        ∨ ∃ thread ∈ system.threads,
            thread.label.isWorker ∧ ¬system.IsOver thread ∧ thread.label.jobId = row.id := by
  unfold System.unsettled at hrow
  rw [List.mem_filter, Bool.and_eq_true, List.contains_iff_mem, List.mem_map] at hrow
  rcases hrow with ⟨hrow, ⟨job, hjob, hid⟩, hstatus⟩
  rcases h.exists_lives with ⟨phases, hphases, hlife⟩
  rcases hlife.handed.jobs job hjob with hwaiting | ⟨phase, hphase, hworker, hphaseId⟩
  . left
    rw [← hid]
    exact List.mem_map_of_mem hwaiting
  . right
    rcases hphases.getThread? hphase with ⟨thread, hthread, hagrees, _⟩
    have hthreadId : thread.label.jobId = row.id := hagrees.left.trans (hphaseId.trans hid)
    refine ⟨thread, hthread, hagrees.right.trans hworker, ?_, hthreadId⟩
    have hstatusOf : system.state.core.statusOf row.id = some row.status := by
      unfold Core.statusOf State.core
      rw [Table.find?_of_mem hrow]
      rfl
    unfold System.IsOver
    rw [hthreadId, hstatusOf]
    rintro ⟨_, hsettled⟩
    simp at hstatus hsettled
    rcases hsettled with hdone | hfailed
    . exact hstatus.left hdone
    . exact hstatus.right hfailed

theorem System.Reachable.unsettled_length_le (h : system.Reachable crates settings)
    (hsequential : system.IsSequential)
    : system.unsettled.length ≤ system.state.queue.jobs.length + 1 := by
  let workers := system.threads.filter fun thread =>
    thread.label.isWorker && !decide (system.IsOver thread)
  have hworkers : workers.length ≤ 1 := by
    apply hsequential.length_le
    intro thread hp
    simpa using hp
  have hnodup : (system.unsettled.map JobRow.id).Nodup :=
    system.state.db.jobs.nodup.sublist (List.filter_sublist.map _)
  have hsubset : system.unsettled.map JobRow.id
      ⊆ system.state.queue.jobs.map Job.id ++ workers.map (·.label.jobId) := by
    intro id hid
    rw [List.mem_map] at hid
    rcases hid with ⟨row, hrow, rfl⟩
    rw [List.mem_append]
    rcases h.unsettled_cases hrow with hwaiting | ⟨thread, hthread, hworker, hopen, hid⟩
    . exact .inl hwaiting
    . right
      rw [← hid]
      apply List.mem_map_of_mem
      rw [List.mem_filter]
      exact ⟨hthread, by simp [hworker, hopen]⟩
  have hlength := (List.subperm_of_subset hnodup hsubset).length_le
  rw [List.length_map, List.length_append, List.length_map, List.length_map] at hlength
  omega

theorem JobQueue.enqueue_of_full {queue : JobQueue} (hopen : queue.isClosed = false)
    (hfull : queue.capacity ≤ queue.jobs.length) (job : Job)
    : (queue.enqueue job).fst = .error .queueFull := by
  unfold enqueue
  rw [hopen, if_neg Bool.false_ne_true, dif_neg (Nat.not_lt.mpr hfull)]

/--
If the worker loop always waits for what it has started, then at most one job is being processed, and
the accepted jobs that are neither done nor failed are at most one more than the channel takes; when
they are as many, the next one is refused.
-/
theorem System.works_one_by_one {boot : Boot} {system₀ : System} {actions : List Action}
    (hmain : main crates settings boot (.empty settings) = some system₀)
    (hrun : Machine.run (System.step crates settings) system₀ actions = some system)
    (hwaits : ∀ t action t',
      (t, action, t') ∈ Machine.transitions (System.step crates settings) system₀ actions →
        t.Waits action)
    : system.inProgress.length ≤ 1
        ∧
      system.unsettled.length ≤ system.state.queue.capacity + 1
        ∧
      (system.unsettled.length = system.state.queue.capacity + 1 →
        ∀ job, (system.state.queue.enqueue job).fst = .error .queueFull) := by
  have hstart : system₀.Reachable crates settings := ⟨boot, system₀, [], hmain, rfl⟩
  have hsequential₀ : system₀.IsSequential := by
    intro i j thread thread' hi
    rw [(main_eq_some hmain).left] at hi
    contradiction
  have ⟨h, hsequential⟩ : system.Reachable crates settings ∧ system.IsSequential := by
    apply Machine.invariant_of_transitions
      (I := fun system => System.Reachable crates settings system ∧ system.IsSequential)
      _ ⟨hstart, hsequential₀⟩ hrun
    rintro t action t' hmem ⟨h, hsequential⟩
    have hstep := Machine.step_of_mem_transitions hmem
    exact ⟨h.step hstep, hsequential.step h (hwaits t action t' hmem) hstep⟩
  have hlength := h.unsettled_length_le hsequential
  have hle := system.state.queue.length_le
  refine ⟨?_, by omega, ?_⟩
  . apply hsequential.length_le
    intro thread hp
    rw [Bool.and_eq_true, Bool.not_eq_true'] at hp
    refine ⟨hp.left, ?_⟩
    rintro ⟨hdone, _⟩
    rw [hp.right] at hdone
    contradiction
  . intro heq job
    rcases h.exists_lives with ⟨phases, _, hlife⟩
    exact JobQueue.enqueue_of_full hlife.isOpen.isClosed (by omega) job

theorem System.works_one_by_one_once
    : ∃ system : System,
        system.inProgress.length = 1 ∧ system.unsettled.length ≤ system.state.queue.capacity + 1 := by
  rcases Samples.exists_of_steps
      (Samples.submitted 0 (.build Samples.request) "4c1e" 4
        ++ Samples.processed 1 Samples.externals 1)
      System.Waits (fun system => 1 ≤ system.inProgress.length) (by decide +kernel) with
    ⟨system₀, system, hmain, hrun, hwaits, hlength⟩
  have ⟨hle, hunsettled, _⟩ := System.works_one_by_one hmain hrun hwaits
  exact ⟨system, Nat.le_antisymm hle hlength, hunsettled⟩

/-- The worker loop receives a second job while the first one is being processed. -/
theorem works_side_by_side
    : ¬∀ (crates : Crates) (settings : Settings) (system : System),
        system.Reachable crates settings →
          system.inProgress.length ≤ 1
            ∧
          system.unsettled.length ≤ system.state.queue.capacity + 1
            ∧
          (system.unsettled.length = system.state.queue.capacity + 1 →
            ∀ job, (system.state.queue.enqueue job).fst = .error .queueFull) := by
  intro hall
  rcases Samples.exists_of_runs
      (Samples.submitted 0 (.build Samples.request) "4c1e" 4
        ++ Samples.submitted 1 (.build Samples.request) "5d2f" 4
        ++ [.recv Samples.externals, .recv Samples.externals])
      (fun system => system.inProgress.length = 2) (by decide +kernel) with
    ⟨system₀, system, hmain, hrun, hlength⟩
  have hle := (hall _ _ system ⟨Samples.boot, system₀, _, hmain, hrun⟩).left
  omega

end Koval
