import Koval.Log.Rank
import Koval.Server.JobLife

/-!
This module contains the positions that clients are told for their jobs, and the places that the jobs
have in the channel.
-/

namespace Koval

variable {crates : Crates} {settings : Settings} {system system' : System}

namespace Db

variable {db : Db} {id : String} {faults : Faults Stmt}

def queuedAt (db : Db) (id : String) : String :=
  match db.jobs.find? id with
  | some row => row.queuedAt
  | none => ""

def statusOf (db : Db) (id : String) : Option Status := (db.jobs.find? id).map (·.status)

theorem fst_getJobPosition (hfaults : faults .getJobPosition = none) (id : String)
    : ((getJobPosition id).run faults db).fst
        =
      .ok (if db.statusOf id = some .queued then
        some ((db.jobs.rows.countP fun row =>
          row.status = .queued && row.queuedAt < db.queuedAt id) + 1)
      else
        none) := by
  unfold getJobPosition statusOf queuedAt
  rw [Sql.run_bind, Sql.run_query_of_none hfaults]
  dsimp only
  cases db.jobs.find? id with
  | none => rfl
  | some row =>
    dsimp only
    rw [Option.map_some]
    split
    . next hqueued =>
      rw [Sql.run_bind, Sql.run_query_of_none hfaults, if_pos (congrArg some hqueued)]
      rfl
    . next hqueued =>
      rw [if_neg (fun h => hqueued (Option.some.inj h))]
      rfl

theorem countP_queued {jobs : List Job} (hnodup : (jobs.map Job.id).Nodup)
    (hqueued : ∀ id, db.statusOf id = some .queued ↔ id ∈ jobs.map Job.id) (time : String)
    : (db.jobs.rows.countP fun row => row.status = .queued && row.queuedAt < time)
        =
      Rank.rank (fun job : Job => db.queuedAt job.id) jobs time := by
  have hrows : ((db.jobs.rows.filter fun row =>
      row.status = .queued && row.queuedAt < time).map JobRow.id).Nodup :=
    db.jobs.nodup.sublist (List.filter_sublist.map _)
  have hjobs : ((jobs.filter fun job => db.queuedAt job.id < time).map Job.id).Nodup :=
    hnodup.sublist (List.filter_sublist.map _)
  have hperm := (List.perm_ext_iff_of_nodup hrows hjobs).mpr ?_
  . have hlength := hperm.length_eq
    rw [List.length_map, List.length_map] at hlength
    rw [Rank.rank, List.countP_eq_length_filter, List.countP_eq_length_filter]
    exact hlength
  . intro id
    simp only [List.mem_map, List.mem_filter, Bool.and_eq_true, decide_eq_true_eq]
    constructor
    . rintro ⟨row, ⟨hrow, hstatus, hlt⟩, rfl⟩
      have hfind := Table.find?_of_mem hrow
      have hmem : row.id ∈ jobs.map Job.id := by
        rw [← hqueued, statusOf, hfind, ← hstatus]
        rfl
      rw [List.mem_map] at hmem
      rcases hmem with ⟨job, hjob, hid⟩
      refine ⟨job, ⟨hjob, ?_⟩, hid⟩
      rw [hid, queuedAt, hfind]
      exact hlt
    . rintro ⟨job, ⟨hjob, hlt⟩, rfl⟩
      have hstatus := (hqueued job.id).mpr (List.mem_map_of_mem hjob)
      rw [statusOf, Option.map_eq_some_iff] at hstatus
      rcases hstatus with ⟨row, hfind, hstatus⟩
      rw [queuedAt, hfind] at hlt
      exact ⟨row, ⟨Table.mem_of_find? hfind, hstatus, hlt⟩, Table.key_of_find? hfind⟩

end Db

/-- Clients are told the places of their jobs in the channel. -/
def State.ReportsPlaces (s : State) : Prop :=
  ∀ faults, faults .getJobPosition = none →
    (∀ i job, s.queue.jobs[i]? = some job →
      ((Db.getJobPosition job.id).run faults s.db).fst = .ok (some (i + 1)))
      ∧
    ∀ id, id ∉ s.queue.jobs.map Job.id →
      ((Db.getJobPosition id).run faults s.db).fst = .ok none

def State.IsOrdered (s : State) : Prop :=
  s.queue.jobs.Pairwise fun job job' => s.db.queuedAt job.id < s.db.queuedAt job'.id

theorem State.reportsPlaces_iff {s : State} (hnodup : (s.queue.jobs.map Job.id).Nodup)
    (hwaiting : ∀ job ∈ s.queue.jobs, s.db.statusOf job.id = some .queued)
    : s.ReportsPlaces
        ↔
      (∀ id, s.db.statusOf id = some .queued → id ∈ s.queue.jobs.map Job.id) ∧ s.IsOrdered := by
  have hwaiting : ∀ id ∈ s.queue.jobs.map Job.id, s.db.statusOf id = some .queued := by
    intro id hid
    rw [List.mem_map] at hid
    rcases hid with ⟨job, hjob, rfl⟩
    exact hwaiting job hjob
  constructor
  . intro h
    have ⟨hplaces, hnone⟩ := h .none rfl
    have hqueued : ∀ id, s.db.statusOf id = some .queued → id ∈ s.queue.jobs.map Job.id := by
      intro id hstatus
      by_contra hid
      have := hnone id hid
      rw [Db.fst_getJobPosition rfl, if_pos hstatus] at this
      injection this with this
      contradiction
    refine ⟨hqueued, Rank.forall_rank_eq_iff.mp ?_⟩
    intro i job hjob
    have hmem := @List.mem_map_of_mem _ _ _ _ Job.id (List.mem_of_getElem? hjob)
    have hplace := hplaces i job hjob
    rw [Db.fst_getJobPosition rfl, if_pos (hwaiting job.id hmem),
      Db.countP_queued hnodup fun id => ⟨hqueued id, hwaiting id⟩] at hplace
    injection hplace with hplace
    injection hplace with hplace
    exact Nat.succ.inj hplace
  . rintro ⟨hqueued, hordered⟩ faults hfaults
    constructor
    . intro i job hjob
      have hmem := @List.mem_map_of_mem _ _ _ _ Job.id (List.mem_of_getElem? hjob)
      rw [Db.fst_getJobPosition hfaults, if_pos (hwaiting job.id hmem),
        Db.countP_queued hnodup fun id => ⟨hqueued id, hwaiting id⟩]
      rw [Rank.forall_rank_eq_iff.mpr hordered i job hjob]
    . intro id hid
      rw [Db.fst_getJobPosition hfaults, if_neg fun hstatus => hid (hqueued id hstatus)]

-- How the channel changes

theorem Owned.find?_waiting {s s' : State} {phases phases' : List Phase} (h : Owned s.core phases)
    (hadvance : Advance crates s phases s' phases') {job : Job} (hjob : job ∈ s.core.waiting)
    : s'.core.jobs.find? job.id = s.core.jobs.find? job.id := by
  cases hadvance with
  | thread htrans =>
    apply htrans.find?_eq
    exact h.ownedId?_ne (.inl (List.mem_map_of_mem hjob))
  | spawn => rfl
  | recv _ hcore => rw [hcore]
  | outside hcore => rw [hcore]
  | restart hcore =>
    rw [hcore]
    rfl

theorem Advance.waiting_cases {s s' : State} {phases phases' : List Phase}
    (h : Advance crates s phases s' phases')
    : (∃ job, s'.core.waiting = s.core.waiting ++ [job] ∧ s'.core.jobs = s.core.jobs)
        ∨
      s'.core.waiting.Sublist s.core.waiting := by
  cases h with
  | thread htrans =>
    rcases htrans.waiting_cases with ⟨job, _, _, hwaiting, hjobs⟩ | ⟨_, hwaiting⟩
    . exact .inl ⟨job, hwaiting, hjobs⟩
    . exact .inr (by rw [hwaiting])
  | spawn => exact .inr (List.Sublist.refl _)
  | recv hwaiting hcore =>
    right
    rw [hcore, hwaiting]
    exact List.sublist_cons_self _ _
  | outside hcore => exact .inr (by rw [hcore])
  | restart hcore =>
    right
    rw [hcore]
    exact List.nil_sublist _

theorem Db.queuedAt_congr {db db' : Db} {id : String} (h : db'.jobs.find? id = db.jobs.find? id)
    : db'.queuedAt id = db.queuedAt id := by
  unfold queuedAt
  rw [h]

theorem State.IsOrdered.advance {s s' : State} {phases phases' : List Phase} (h : s.IsOrdered)
    (howned : Owned s.core phases) (hadvance : Advance crates s phases s' phases')
    (hjoins : ∀ job, s'.queue.jobs = s.queue.jobs ++ [job] →
      ∀ other ∈ s.queue.jobs, s.db.queuedAt other.id < s.db.queuedAt job.id)
    : s'.IsOrdered := by
  have hsame : ∀ job ∈ s.queue.jobs, s'.db.queuedAt job.id = s.db.queuedAt job.id := by
    intro job hjob
    exact Db.queuedAt_congr (howned.find?_waiting hadvance hjob)
  have hpairs : s.queue.jobs.Pairwise fun job job' =>
      s'.db.queuedAt job.id < s'.db.queuedAt job'.id := by
    apply List.Pairwise.imp_of_mem _ h
    intro job job' hjob hjob' hlt
    rw [hsame job hjob, hsame job' hjob']
    exact hlt
  unfold State.IsOrdered
  rcases hadvance.waiting_cases with ⟨job, hwaiting, hjobs⟩ | hsublist
  . have hwaiting : s'.queue.jobs = s.queue.jobs ++ [job] := hwaiting
    have hjobs : s'.db.jobs = s.db.jobs := hjobs
    rw [hwaiting, List.pairwise_append]
    refine ⟨hpairs, List.pairwise_singleton _ _, ?_⟩
    intro other hother last hlast
    rw [List.mem_singleton] at hlast
    rw [hlast, hsame other hother, Db.queuedAt_congr (congrArg (·.find? job.id) hjobs)]
    exact hjoins job hwaiting other hother
  . exact hpairs.sublist hsublist

-- How the history grows while the server runs

def Core.IsFirstRun (c : Core) : Prop := ∃ events, c.history = events ++ [.started] ∧ .started ∉ events

theorem Core.IsFirstRun.recordedSinceStart {c : Core} (h : c.IsFirstRun)
    : c.recordedSinceStart = c.recorded := by
  rcases h with ⟨events, hhistory, hnone⟩
  unfold Core.recordedSinceStart Core.recorded
  rw [hhistory, List.takeWhile_append_of_pos, List.filterMap_append]
  . rw [List.takeWhile_cons_of_neg (by simp)]
    simp
  . intro event hevent
    rw [decide_eq_true_eq]
    rintro rfl
    exact hnone hevent

theorem Transition.history_cases {phase phase' : Phase} {s s' : State}
    (h : Transition crates phase s phase' s')
    : s'.core.history = s.core.history
        ∨
      ∃ event, event ≠ .started ∧ s'.core.history = event :: s.core.history := by
  cases h with
  | quiet _ hcore | read hcore | setStatus _ hcore | storeArtifact _ hcore | storeCache _ hcore =>
    left
    rw [hcore]
    try rfl
  | hit _ _ _ _ _ hcore | insert _ _ hcore | enqueue hcore | complete _ hcore =>
    right
    rw [hcore]
    refine ⟨_, ?_, rfl⟩
    intro heq
    contradiction

theorem Core.IsFirstRun.step {phases : List Phase} {final : Label → Phase → Answer → Prop}
    {action : Action} (h : system.state.core.IsFirstRun)
    (hconforms : Pool.Conforms (Transition crates) Agrees final system.threads phases)
    (hstep : system.step crates settings action = some system')
    (hrestart : ∀ boot, action ≠ .restart boot)
    : system'.state.core.IsFirstRun := by
  cases System.stepsTo hstep with
  | request => exact h
  | recv => exact h
  | changeFiles => exact h
  | restart => exact absurd rfl (hrestart _)
  | run hrun =>
    rcases hconforms.runThread Agrees.transition hrun with ⟨phase, phase', _, htrans, _⟩
    rcases h with ⟨events, hhistory, hnone⟩
    rcases htrans.history_cases with hsame | ⟨event, hevent, hnext⟩
    . exact ⟨events, hsame.trans hhistory, hnone⟩
    . refine ⟨event :: events, ?_, ?_⟩
      . rw [hnext, hhistory]
        rfl
      . rw [List.mem_cons]
        rintro (heq | hmem)
        . exact hevent heq.symm
        . exact hnone hmem

-- What the threads leave behind

def Phase.IsMarked (phase : Phase) : Prop :=
  match phase with
  | .building _ | .finished _ => True
  | _ => False

theorem Phase.isMarked_transition (phase : Phase) (s : State) (phase' : Phase) (s' : State)
    (h : Transition crates phase s phase' s') (hphase : phase.IsMarked)
    : phase'.IsMarked := by
  cases h with
  | quiet hmoves =>
    cases hmoves with
    | stay => exact hphase
    | refuse | drop => contradiction
  | setStatus hsets =>
    cases hsets with
    | start | fail => trivial
    | failRefused => contradiction
  | storeArtifact | storeCache | complete => trivial
  | insert hmay =>
    cases phase with
    | building | finished => exact hmay
    | _ => contradiction
  | _ => contradiction

def Phase.LeavesNone (phase : Phase) : Prop :=
  phase.expected? = some (some .queued) → ∃ job, phase = .dropped job

theorem Phase.IsMarked.leavesNone {phase : Phase} (h : phase.IsMarked) : phase.LeavesNone := by
  intro hexpected
  cases phase with
  | building => simp [Phase.expected?] at hexpected
  | finished => contradiction
  | _ => contradiction

theorem leavesNone_processJob {externals : Externals}
    (hfaults : externals.faults 0 .updateJobStatus = none) (job : Job)
    : Prog.Follows (Transition crates) (fun phase _ => phase.LeavesNone)
        (processJob crates settings externals job) (.received job) := by
  have hbuilding : (Phase.building job).IsMarked := trivial
  have rules : processJob.Rules settings externals job (Transition crates)
      (fun phase _ => phase.IsMarked) (.building job) := by
    refine ⟨fun h => .quiet (.stay _) h.core, fun _ => hbuilding, ?_⟩
    intro α errMsg _
    exact (processJob.builds_failJob errMsg).untilKeeps Phase.isMarked_transition hbuilding
  have hmarked : Prog.Follows (Transition crates) (fun phase _ => phase.IsMarked)
      (processJob crates settings externals job) (.received job) := by
    apply processJob.follows_processJob_of rules
    . intro config
      exact (processJob.rules_builds.works_rustflags (fun _ => processJob.builds_failJob _)
        config).untilKeeps Phase.isMarked_transition hbuilding
    . apply processJob.follows_start_of
      intro msg errMsg hfault
      rw [hfaults] at hfault
      contradiction
    . intro fileSize sha256
      exact (processJob.follows_complete fileSize sha256).untilKeeps Phase.isMarked_transition
        hbuilding
    . intro s s' h
      exact .quiet (.stay _) h.core
    . trivial
  exact hmarked.weaken fun _ _ h => h.leavesNone

theorem leavesNone_handler {ambient : Ambient}
    (hfaults : ∀ scope, ambient.faults scope .updateJobStatus = none) (request : Request)
    : Prog.Follows (Transition crates) (fun phase _ => phase.LeavesNone)
        (do let response ← (route crates settings request ambient).respond
            pure (Answer.response response))
        (.idle ambient.uuid) := by
  apply (follows_handler request ambient).weaken
  intro phase answer hsettles hexpected
  cases answer with
  | outcome => contradiction
  | response response =>
    have hanswers := hsettles.answers
    cases phase with
    | refused job =>
      rcases hanswers.right with ⟨scope, msg, hfault⟩
      rw [hfaults scope] at hfault
      contradiction
    | dropped job => exact ⟨job, rfl⟩
    | inserted | received => contradiction
    | idle | source => simp [Phase.expected?] at hexpected
    | building => simp [Phase.expected?] at hexpected
    | _ => contradiction

-- The server as a whole

-- The statements succeed that take a job off the queued ones, and the server is not restarted.
def Action.MarksJobs (action : Action) : Prop :=
  match action with
  | .request _ ambient => ∀ scope, ambient.faults scope .updateJobStatus = none
  | .recv externals => externals.faults 0 .updateJobStatus = none
  | .run _ | .changeFiles _ => True
  | .restart _ => False

/-- If a job joins the channel, it was submitted after all those that wait there. -/
def System.JoinsLast (crates : Crates) (settings : Settings) (system : System) (action : Action) :
    Prop :=
  ∀ system' ∈ system.step crates settings action,
    ∀ job ∈ system'.state.queue.jobs.drop system.state.queue.jobs.length,
      ∀ other ∈ system.state.queue.jobs,
        system.state.db.queuedAt other.id < system.state.db.queuedAt job.id

instance (crates : Crates) (settings : Settings) (system : System) (action : Action) :
    Decidable (system.JoinsLast crates settings action) :=
  inferInstanceAs (Decidable (∀ system' ∈ system.step crates settings action, _))

structure System.InLine (crates : Crates) (system : System) (phases : List Phase) : Prop where
  conforms : Pool.Conforms (Transition crates) Agrees (fun _ phase _ => phase.LeavesNone)
    system.threads phases
  life : Life crates system.state.core phases
  isFirstRun : system.state.core.IsFirstRun
  isOrdered : system.state.IsOrdered

theorem System.InLine.step {phases : List Phase} {action : Action} (h : system.InLine crates phases)
    (hmarks : action.MarksJobs) (hjoins : system.JoinsLast crates settings action)
    (hstep : system.step crates settings action = some system')
    : ∃ phases', system'.InLine crates phases' := by
  have hrestart : ∀ boot, action ≠ .restart boot := by
    rintro boot rfl
    contradiction
  have hadvances := advance_of_step h.conforms hstep ?_ ?_
  . rcases hadvances with ⟨before, after, phases', hbefore, hadvance, hafter, hconforms⟩
    have hlife := h.life.perm hbefore
    refine ⟨phases', hconforms, (hlife.advance hadvance).perm hafter,
      h.isFirstRun.step h.conforms hstep hrestart, ?_⟩
    apply h.isOrdered.advance hlife.owned hadvance
    intro job hjobs
    apply hjoins system' hstep job
    rw [hjobs, List.drop_left]
    exact List.mem_singleton_self job
  . rintro request ambient rfl
    exact leavesNone_handler hmarks request
  . rintro externals job rfl
    apply Prog.Follows.bind (leavesNone_processJob hmarks job)
    intro outcome phase hphase
    exact Prog.follows_pure hphase

theorem System.inLine_main {boot : Boot}
    (h : main crates settings boot (.empty settings) = some system)
    : system.InLine crates [] := by
  have ⟨hthreads, hcore⟩ := main_eq_some h
  refine ⟨?_, ?_, ?_, ?_⟩
  . rw [hthreads]
    exact Pool.conforms_nil
  . rw [hcore]
    exact life_init
  . rw [hcore]
    exact ⟨[], rfl, List.not_mem_nil⟩
  . have hwaiting : system.state.queue.jobs = [] := congrArg Core.waiting hcore
    unfold State.IsOrdered
    rw [hwaiting]
    exact List.Pairwise.nil

theorem System.InLine.mem_waiting {phases : List Phase} (h : system.InLine crates phases)
    (hdone : ∀ thread ∈ system.threads, thread.prog.isDone) {id : String}
    (hqueued : system.state.db.statusOf id = some .queued)
    : id ∈ system.state.queue.jobs.map Job.id := by
  have hstatus : system.state.core.statusOf id = some .queued := hqueued
  have hsubmitted : (system.state.core.submittedOf id).isSome := by
    unfold Core.statusOf at hstatus
    unfold Core.submittedOf
    rw [Option.isSome_map]
    rw [Option.map_eq_some_iff] at hstatus
    rcases hstatus with ⟨row, hrow, _⟩
    rw [hrow]
    rfl
  rcases h.life.recorded.ofRow id hsubmitted with ⟨job, hjob, rfl⟩
  rw [← h.isFirstRun.recordedSinceStart] at hjob
  rcases h.life.tracked.places job hjob .queued hstatus with
    hsettled | ⟨_, hwaiting⟩ | ⟨phase, hphase, _, hexpected⟩
  . rcases hsettled with hsettled | hsettled <;> contradiction
  . exact hwaiting
  . rcases h.conforms.getThread? hphase with ⟨⟨label, prog⟩, hthread, _, hfollows⟩
    cases prog with
    | act effect next => exact absurd (hdone _ hthread) Bool.false_ne_true
    | ret answer =>
      have hleaves : phase.LeavesNone := hfollows
      rcases hleaves hexpected with ⟨dropped, rfl⟩
      exact absurd hphase (h.life.isOpen.dropped dropped)

/--
In every state that a server reaches without a restart, when no handler or worker is between two of
its steps, clients are told the places of their jobs in the channel; provided that the jobs join it in
the order that they were submitted in, and that no statement fails that takes a job off the queued
ones.
-/
theorem System.reports_places {boot : Boot} {system₀ : System} {actions : List Action}
    (hmain : main crates settings boot (.empty settings) = some system₀)
    (hrun : Machine.run (System.step crates settings) system₀ actions = some system)
    (hmarks : ∀ action ∈ actions, action.MarksJobs)
    (hjoins : ∀ t action t',
      (t, action, t') ∈ Machine.transitions (System.step crates settings) system₀ actions →
        t.JoinsLast crates settings action)
    (hdone : ∀ thread ∈ system.threads, thread.prog.isDone)
    : system.state.ReportsPlaces := by
  have ⟨phases, h⟩ : ∃ phases, system.InLine crates phases := by
    apply Machine.invariant_of_transitions
      (I := fun system => ∃ phases, System.InLine crates system phases)
      _ ⟨[], System.inLine_main hmain⟩ hrun
    rintro t action t' hmem ⟨phases, h⟩
    rcases Machine.mem_transitions_iff.mp hmem with ⟨before, after, hactions, _⟩
    apply h.step (hmarks action _) (hjoins t action t' hmem) (Machine.step_of_mem_transitions hmem)
    rw [hactions]
    simp
  have howned := h.life.owned
  apply (State.reportsPlaces_iff (List.nodup_append'.mp howned.nodup).left howned.waiting).mpr
  exact ⟨fun id => h.mem_waiting hdone, h.isOrdered⟩

namespace Samples

-- Two builds, whose handlers take their times one second after the other. The first is recorded first.
def inTurn : List Action :=
  submitted 0 (.build request) "4c1e" 4
    ++ .request (.build request) { ambient "5d2f" with now := time 2 } :: List.replicate 4 (.run 1)

-- The handler of the second build overtakes the other one.
def overtaken : List Action :=
  [.request (.build request) (ambient "4c1e"),
    .request (.build request) { ambient "5d2f" with now := time 2 }]
    ++ List.replicate 4 (.run 1) ++ List.replicate 4 (.run 0)

theorem marksJobs_inTurn : ∀ action ∈ inTurn, action.MarksJobs := by
  intro action haction
  simp only [inTurn, submitted, List.replicate, List.cons_append, List.nil_append, List.mem_cons,
    List.not_mem_nil, or_false] at haction
  rcases haction with rfl | rfl | rfl | rfl | rfl | rfl | rfl | rfl | rfl | rfl
  all_goals first | trivial | exact fun _ => rfl

theorem marksJobs_overtaken : ∀ action ∈ overtaken, action.MarksJobs := by
  intro action haction
  simp only [overtaken, List.replicate, List.cons_append, List.nil_append, List.mem_cons,
    List.not_mem_nil, or_false] at haction
  rcases haction with rfl | rfl | rfl | rfl | rfl | rfl | rfl | rfl | rfl | rfl
  all_goals first | trivial | exact fun _ => rfl

end Samples

theorem System.reports_places_second
    : ∃ system : System, ∃ job,
        system.state.queue.jobs[1]? = some job
          ∧
        ((Db.getJobPosition job.id).run .none system.state.db).fst = .ok (some 2) := by
  rcases Samples.exists_of_steps Samples.inTurn
      (System.JoinsLast Samples.github.crates Samples.settings)
      (fun system => system.state.queue.jobs[1]?.isSome
        ∧ ∀ thread ∈ system.threads, thread.prog.isDone)
      (by decide +kernel) with
    ⟨system₀, system, hmain, hrun, hjoins, hsome, hdone⟩
  rw [Option.isSome_iff_exists] at hsome
  rcases hsome with ⟨job, hjob⟩
  have hplaces := System.reports_places hmain hrun Samples.marksJobs_inTurn hjoins hdone
  exact ⟨system, job, hjob, (hplaces .none rfl).left 1 job hjob⟩

def Action.capturedAt? (action : Action) : Option DateTime :=
  match action with
  | .request (.uploadProfiles _ _) ambient => some ambient.laterNow
  | .request _ ambient => some ambient.now
  | _ => none

/-- The first in line is told to be second. -/
theorem places_overtaken
    : ¬ ∀ crates settings boot system₀ system actions,
        main crates settings boot (.empty settings) = some system₀ →
        Machine.run (System.step crates settings) system₀ actions = some system →
        (∀ action ∈ actions, action.MarksJobs) →
        (actions.filterMap Action.capturedAt?).Nodup →
        (∀ thread ∈ system.threads, thread.prog.isDone) →
          system.state.ReportsPlaces := by
  intro hall
  rcases Samples.exists_of_runs Samples.overtaken
      (fun system => (∀ thread ∈ system.threads, thread.prog.isDone)
        ∧ ∃ job ∈ system.state.queue.jobs[0]?,
            ((Db.getJobPosition job.id).run .none system.state.db).fst.toOption ≠ some (some 1))
      (by decide +kernel) with
    ⟨system₀, system, hmain, hrun, hdone, job, hjob, hposition⟩
  have hplaces := hall _ _ _ _ _ _ hmain hrun Samples.marksJobs_overtaken (by decide) hdone
  rw [(hplaces .none rfl).left 0 job hjob] at hposition
  exact hposition rfl

end Koval
