import Koval.Server.CompletionLemmas
import Koval.Server.Routes.RouteLemmas
import Koval.Server.TrackLemmas
import Koval.Server.Worker.ProcessJobLemmas

/-!
This module contains the refinement: every run of the server is a life of its jobs.
-/

namespace Koval

variable {ext : Crates} {settings : Settings} {phases phases' : List Phase}

def Agrees (label : Label) (phase : Phase) : Prop :=
  label.jobId = phase.jobId ∧ label.isWorker = phase.isWorker

def Settles (label : Label) (phase : Phase) (answer : Answer) : Prop :=
  match label, answer with
  | .handler request ambient, .response response =>
    AnswersRequest request ambient.faults phase response
  | .worker job, .outcome outcome => processJob.EndsWith job phase outcome
  | _, _ => False

theorem Settles.answers {request : Request} {ambient : Ambient} {phase : Phase} {response : Response}
    (h : Settles (.handler request ambient) phase (.response response))
    : Answers ambient.faults phase response := by
  cases request with
  | uploadProfiles => exact h.left
  | _ => exact h

abbrev System.InPhases (ext : Crates) (system : System) (phases : List Phase) : Prop :=
  Pool.Conforms (Transition ext) Agrees Settles system.threads phases

theorem Agrees.transition (label : Label) (phase : Phase) (s : State) (phase' : Phase) (s' : State)
    (h : Agrees label phase) (htrans : Transition ext phase s phase' s')
    : Agrees label phase' := by
  refine ⟨?_, ?_⟩
  . rw [htrans.jobId_eq]
    exact h.left
  . rw [htrans.isWorker_eq]
    exact h.right

theorem follows_handler (request : Request) (ambient : Ambient)
    : Prog.Follows (Transition ext) (Settles (.handler request ambient))
        (do let response ← (route ext settings request ambient).respond
            pure (.response response))
        (.idle ambient.uuid) := by
  apply Prog.Follows.bind (follows_route request)
  intro response phase hanswers
  exact Prog.follows_pure hanswers

theorem follows_worker (externals : Externals) (job : Job)
    : Prog.Follows (Transition ext) (Settles (.worker job))
        (do let outcome ← processJob ext settings externals job
            pure (.outcome outcome))
        (.received job) := by
  apply Prog.Follows.bind (follows_processJob ext settings externals job)
  intro outcome phase hends
  exact Prog.follows_pure hends

theorem keeps_bootstrapAdminToken (boot : Boot)
    : Sql.Keeps Db.jobView (bootstrapAdminToken ext boot) := by
  unfold bootstrapAdminToken
  apply Sql.Keeps.bind Db.keeps_getActiveTokens
  intro activeTokens
  split
  . dsimp only
    split
    . exact Sql.keeps_pure _ _
    . apply Sql.Keeps.bind (Db.keeps_insertToken _ _ _)
      intro _
      exact Sql.keeps_pure _ _
  . exact Sql.keeps_pure _ _

theorem main_eq_some {boot : Boot} {s : State} {system : System}
    (h : main ext settings boot s = some system)
    : system.threads = []
        ∧
      system.state.core
        = { s.core with waiting := [], isClosed := false }.note .started := by
  unfold main at h
  split at h
  . next hrun =>
    have hcore := core_of_runDb (keeps_bootstrapAdminToken boot) hrun
    split at h
    . contradiction
    . injection h with h
      rw [← h, ← hcore]
      exact ⟨rfl, rfl⟩
  . contradiction

inductive System.StepsTo (ext : Crates) (settings : Settings) (system : System) :
    Action → System → Prop where
  | request {request : Request} {ambient : Ambient} (hfresh : system.isFresh ambient.uuid) :
    StepsTo ext settings system (.request request ambient)
      (system.spawn (.handler request ambient) do
        let response ← (route ext settings request ambient).respond
        pure (.response response))
  | recv {externals : Externals} {job : Job} {queue : JobQueue}
    (hjobs : system.state.queue.jobs = job :: queue.jobs)
    (hclosed : queue.isClosed = system.state.queue.isClosed) :
    StepsTo ext settings system (.recv externals)
      (Pool.spawn { system with state := { system.state with queue } } (.worker job) do
        let outcome ← processJob ext settings externals job
        pure (.outcome outcome))
  | run {i : Nat} {system' : System} (hrun : system.runThread i = some system') :
    StepsTo ext settings system (.run i) system'
  | changeFiles {files : Table FileRow.path} :
    StepsTo ext settings system (.changeFiles files)
      { system with state := { system.state with files } }
  | restart {boot : Boot} {system' : System} (hthreads : system'.threads = [])
    (hcore : system'.state.core
        = { system.state.core with waiting := [], isClosed := false }.note .started) :
    StepsTo ext settings system (.restart boot) system'

theorem System.stepsTo {action : Action} {system system' : System}
    (h : system.step ext settings action = some system')
    : system.StepsTo ext settings action system' := by
  cases action with
  | request request ambient =>
    simp only [System.step] at h
    split at h
    . next hfresh =>
      injection h with h
      rw [← h]
      exact .request hfresh
    . contradiction
  | recv externals =>
    simp only [System.step] at h
    split at h
    . contradiction
    . next job queue hrecv =>
      injection h with h
      rw [← h]
      exact .recv (JobQueue.jobs_recv hrecv).left (JobQueue.jobs_recv hrecv).right
  | run i => exact .run h
  | changeFiles files =>
    injection h with h
    rw [← h]
    exact .changeFiles
  | restart boot => exact .restart (main_eq_some h).left (main_eq_some h).right

theorem ne_of_isFresh {final : Label → Phase → Answer → Prop} {system : System}
    (h : Pool.Conforms (Transition ext) Agrees final system.threads phases) {uuid : String}
    (hfresh : system.isFresh uuid) {phase : Phase} (hphase : phase ∈ phases)
    : phase.jobId ≠ uuid := by
  unfold System.isFresh at hfresh
  rw [Bool.and_eq_true, List.all_eq_true] at hfresh
  rcases h.getThread? hphase with ⟨thread, hthread, hagrees, _⟩
  have := hfresh.right thread hthread
  rw [bne_iff_ne, hagrees.left] at this
  exact this

theorem find?_of_isFresh {system : System} {uuid : String} (hfresh : system.isFresh uuid)
    : system.state.core.jobs.find? uuid = none := by
  unfold System.isFresh Table.contains at hfresh
  rw [Bool.and_eq_true, Bool.not_eq_true', Option.isSome_eq_false_iff, Option.isNone_iff_eq_none]
    at hfresh
  exact hfresh.left

/--
A step of the server is an advance of the life of its jobs, up to the order of the threads, whatever
the phases are that its threads end in.
-/
theorem advance_of_step {final : Label → Phase → Answer → Prop} {action : Action}
    {system system' : System}
    (h : Pool.Conforms (Transition ext) Agrees final system.threads phases)
    (hstep : system.step ext settings action = some system')
    (hhandler : ∀ request ambient, action = .request request ambient →
      Prog.Follows (Transition ext) (final (.handler request ambient))
        (do let response ← (route ext settings request ambient).respond
            pure (.response response))
        (.idle ambient.uuid))
    (hworker : ∀ externals job, action = .recv externals →
      Prog.Follows (Transition ext) (final (.worker job))
        (do let outcome ← processJob ext settings externals job
            pure (.outcome outcome))
        (.received job))
    : ∃ before after phases',
        phases.Perm before
          ∧
        Advance ext system.state before system'.state after
          ∧
        after.Perm phases'
          ∧
        Pool.Conforms (Transition ext) Agrees final system'.threads phases' := by
  cases System.stepsTo hstep with
  | @request request ambient hfresh =>
    refine ⟨phases, .idle ambient.uuid :: phases, phases ++ [.idle ambient.uuid], .refl _, ?_, ?_, ?_⟩
    . exact .spawn (find?_of_isFresh hfresh) fun _ => ne_of_isFresh h hfresh
    . exact (List.perm_append_singleton _ _).symm
    . exact h.spawn ⟨rfl, rfl⟩ (hhandler request ambient rfl)
  | @recv externals job queue hjobs hclosed =>
    refine ⟨phases, .received job :: phases, phases ++ [.received job], .refl _, ?_, ?_, ?_⟩
    . apply Advance.recv hjobs
      simp only [Pool.spawn, State.core, hclosed]
    . exact (List.perm_append_singleton _ _).symm
    . let received : System := { system with state := { system.state with queue } }
      have h : Pool.Conforms (Transition ext) Agrees final received.threads phases := h
      exact h.spawn ⟨rfl, rfl⟩ (hworker externals job rfl)
  | @run i _ hrun =>
    rcases h.runThread Agrees.transition hrun with ⟨phase, phase', hphase, htrans, hconforms⟩
    rcases List.getElem?_eq_some_iff.mp hphase with ⟨hlt, hget⟩
    refine ⟨phase :: phases.eraseIdx i, phase' :: phases.eraseIdx i, phases.set i phase', ?_,
      .thread htrans, (List.set_perm_cons_eraseIdx hlt phase').symm, hconforms⟩
    rw [← hget]
    exact (List.getElem_cons_eraseIdx_perm hlt).symm
  | changeFiles => exact ⟨phases, phases, phases, .refl _, .outside rfl, .refl _, h⟩
  | restart hthreads hcore =>
    refine ⟨phases, [], [], .refl _, .restart hcore, .refl _, ?_⟩
    rw [hthreads]
    exact Pool.conforms_nil

theorem System.InPhases.step {action : Action} {system system' : System}
    (h : system.InPhases ext phases) (hstep : system.step ext settings action = some system')
    : ∃ before after phases',
        phases.Perm before
          ∧
        Advance ext system.state before system'.state after
          ∧
        after.Perm phases'
          ∧
        system'.InPhases ext phases' := by
  apply advance_of_step h hstep
  . intro request ambient _
    exact follows_handler request ambient
  . intro externals job _
    exact follows_worker externals job

/-- What holds of the jobs, their rows and the threads in every state that the server reaches. -/
structure Life (ext : Crates) (c : Core) (phases : List Phase) : Prop where
  owned : Owned c phases
  isConsistent : c.IsConsistent
  recorded : Recorded ext c phases
  tracked : Tracked c phases
  handed : Handed c phases
  isOpen : Open c phases
  cached : Cached ext c

theorem Life.perm {c : Core} (h : Life ext c phases) (hperm : phases.Perm phases')
    : Life ext c phases' where
  owned := h.owned.perm hperm
  isConsistent := h.isConsistent
  recorded := h.recorded.perm hperm
  tracked := h.tracked.perm hperm
  handed := h.handed.perm hperm
  isOpen := h.isOpen.perm hperm
  cached := h.cached

theorem Life.advance {s s' : State} (h : Life ext s.core phases)
    (hadvance : Advance ext s phases s' phases')
    : Life ext s'.core phases' where
  owned := h.owned.advance hadvance
  isConsistent := h.isConsistent.advance h.owned hadvance
  recorded := h.recorded.advance hadvance
  tracked := h.tracked.advance h.owned hadvance
  handed := h.handed.advance h.owned hadvance
  isOpen := h.isOpen.advance hadvance
  cached := h.cached.advance h.owned h.recorded hadvance

theorem life_init : Life ext ⟨.empty, .empty, .empty, [], false, [.started]⟩ [] where
  owned := by
    constructor
    . exact List.nodup_nil
    . intro job hjob
      contradiction
    . intro phase hphase
      contradiction
  isConsistent := by
    intro id row hrow
    contradiction
  recorded := by
    constructor
    . intro job hjob
      contradiction
    . intro id hid
      contradiction
    . intro job hjob
      contradiction
    . intro job hjob
      contradiction
    . intro phase hphase
      contradiction
    . intro phase hphase
      contradiction
    . intro job hjob
      contradiction
  tracked := by
    constructor
    . intro job hjob
      contradiction
    . intro job hjob
      contradiction
  handed := by
    constructor
    . intro job hjob
      contradiction
    . intro job hjob
      contradiction
  isOpen := ⟨rfl, fun _ => List.not_mem_nil⟩
  cached := by
    constructor
    . intro cacheKey cacheRow hrow
      contradiction
    . intro cacheKey cacheRow hrow
      contradiction
    . intro job hjob
      contradiction

def System.Lives (ext : Crates) (system : System) (phases : List Phase) : Prop :=
  system.InPhases ext phases ∧ Life ext system.state.core phases

theorem System.Lives.step {action : Action} {system system' : System}
    (h : system.Lives ext phases) (hstep : system.step ext settings action = some system')
    : ∃ phases', system'.Lives ext phases' := by
  rcases h.left.step hstep with ⟨before, after, phases', hbefore, hadvance, hafter, hphases'⟩
  exact ⟨phases', hphases', ((h.right.perm hbefore).advance hadvance).perm hafter⟩

theorem exists_lives_of_run {actions : List Action} {system system' : System}
    (h : ∃ phases, system.Lives ext phases)
    (hrun : Machine.run (System.step ext settings) system actions = some system')
    : ∃ phases, system'.Lives ext phases := by
  apply Machine.invariant_of_run (I := fun system => ∃ phases, System.Lives ext system phases) _ h hrun
  rintro action _ system system' ⟨phases, h⟩ hstep
  exact h.step hstep

theorem System.Reachable.exists_lives {system : System} (h : system.Reachable ext settings)
    : ∃ phases, system.Lives ext phases := by
  rcases h with ⟨boot, system₀, actions, hmain, hrun⟩
  apply exists_lives_of_run _ hrun
  have ⟨hthreads, hcore⟩ := main_eq_some hmain
  refine ⟨[], ?_, ?_⟩
  . unfold System.InPhases
    rw [hthreads]
    exact Pool.conforms_nil
  . rw [hcore]
    exact life_init

theorem System.Reachable.run {actions : List Action} {system system' : System}
    (h : system.Reachable ext settings)
    (hrun : Machine.run (System.step ext settings) system actions = some system')
    : system'.Reachable ext settings := by
  rcases h with ⟨boot, system₀, actions₀, hmain, hrun₀⟩
  exact ⟨boot, system₀, actions₀ ++ actions, hmain, Machine.run_trans hrun₀ hrun⟩

theorem System.Reachable.step {action : Action} {system system' : System}
    (h : system.Reachable ext settings) (hstep : system.step ext settings action = some system')
    : system'.Reachable ext settings := by
  have hrun : Machine.run (System.step ext settings) system [action] = some system' := by
    simp [Machine.run, hstep]
  exact h.run hrun

end Koval
