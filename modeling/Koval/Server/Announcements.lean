import Koval.Server.JobLife
import Koval.Server.Routes.Submissions
import Koval.Server.Worker.WorkerFrames

/-!
This module contains how the threads of the server announce the end of a job to the webhooks of its
token.
-/

namespace Koval

open Prog

variable {crates : Crates} {settings : Settings}

def Db.deliveryInfo (db : Db) (tokenId : Int) : List (String × String) :=
  (db.webhooks.rows.filter fun row => row.tokenId = tokenId && row.isActive).map fun row =>
    (row.url, row.secret)

def Core.IsPending (c : Core) (id : String) : Prop :=
  ∃ status, c.statusOf id = some status ∧ ¬ status.IsSettled

structure Hushed (exempt : Option String) (s s' : State) : Prop where
  deliveries : s'.deliveries = s.deliveries
  waiting : s'.queue.jobs = s.queue.jobs
  settled : ∀ id status, exempt ≠ some id → status.IsSettled →
    s'.core.statusOf id = some status → s.core.statusOf id = some status

-- What a thread still has to do for its job.
inductive Notice where
  -- of a handler
  | calm (uuid : String)
  | recorded (uuid : String)
  | accepted (uuid : String)
  | refused (uuid : String)
  -- of a worker, after it has asked for the webhooks, and after the end of the job
  | working (job : Job)
  | asked (job : Job) (webhooks : List (String × String))
  | due (job : Job) (status : Status) (webhooks : List (String × String))
  | told (job : Job)

namespace Notice

def isDue (notice : Notice) : Bool :=
  match notice with
  | due .. => true
  | _ => false

-- A delivery without targets is left out.
def ended (job : Job) (status : Status) (webhooks : List (String × String)) : Notice :=
  if webhooks = [] then told job else due job status webhooks

end Notice

inductive Announces : Notice → State → Notice → State → Prop where
  | stay {notice : Notice} {s s' : State} (hhushed : Hushed none s s') : Announces notice s notice s'
  | record {uuid : String} {s s' : State} (hhushed : Hushed none s s')
    (hpending : s'.core.IsPending uuid) : Announces (.calm uuid) s (.recorded uuid) s'
  | enqueue {uuid : String} {s s' : State} (hjobs : s'.db.jobs = s.db.jobs)
    (hdeliveries : s'.deliveries = s.deliveries)
    (hwaiting : s'.queue.jobs.map Job.id = s.queue.jobs.map Job.id ++ [uuid]) :
    Announces (.recorded uuid) s (.accepted uuid) s'
  | refuse {uuid : String} {s s' : State} (hhushed : Hushed none s s')
    (hfull : ¬ s.queue.jobs.length < s.queue.capacity) :
    Announces (.recorded uuid) s (.refused uuid) s'
  | fail {uuid : String} {s s' : State} (hhushed : Hushed (some uuid) s s') :
    Announces (.refused uuid) s (.refused uuid) s'
  | ask {job : Job} {s s' : State} (hhushed : Hushed none s s') :
    Announces (.working job) s (.asked job (s.db.deliveryInfo job.tokenId)) s'
  | settle {job : Job} {webhooks : List (String × String)} {status : Status} {s s' : State}
    (hhushed : Hushed (some job.id) s s') (hsettled : status.IsSettled)
    (hstatus : ∀ status', s'.core.statusOf job.id = some status' → status' = status) :
    Announces (.asked job webhooks) s (.ended job status webhooks) s'
  | deliver {job : Job} {status : Status} {webhooks : List (String × String)}
    {payload : WebhookPayload} {s s' : State} (hid : payload.jobId = job.id)
    (hstatus : payload.status = status) (hjobs : s'.db.jobs = s.db.jobs)
    (hwaiting : s'.queue.jobs = s.queue.jobs)
    (hdeliveries : s'.deliveries = (payload, webhooks) :: s.deliveries) :
    Announces (.due job status webhooks) s (.told job) s'

theorem statusOf_of_jobs {s s' : State} (h : s'.db.jobs = s.db.jobs) (id : String)
    : s'.core.statusOf id = s.core.statusOf id := by
  unfold Core.statusOf
  have hjobs : s'.core.jobs = s.core.jobs := h
  rw [hjobs]

theorem statusOf_insert_cases {c : Core} {row : JobRow} {jobs : Table JobRow.id}
    (h : c.jobs.insert? row = some jobs) {id : String} {status : Status}
    (hstatus : ({ c with jobs } : Core).statusOf id = some status)
    : status = row.status ∨ c.statusOf id = some status := by
  unfold Core.statusOf at hstatus ⊢
  dsimp only at hstatus
  rw [Table.find?_of_insert? h] at hstatus
  split at hstatus
  . injection hstatus with hstatus
    exact .inl hstatus.symm
  . exact .inr hstatus

theorem statusOf_setStatus_of_ne (c : Core) {id id' : String} (h : id ≠ id') (status : Status)
    (startedAt finishedAt errorMsg : Option String)
    : (c.setStatus id status startedAt finishedAt errorMsg).statusOf id' = c.statusOf id' := by
  unfold Core.statusOf
  rw [find?_setStatus, if_neg (Ne.symm h)]

theorem Aside.hushed {s s' : State} (h : Aside s s') (exempt : Option String)
    : Hushed exempt s s' where
  deliveries := h.deliveries
  waiting := h.waiting
  settled := by
    intro id status _ _ hstatus
    rw [← hstatus]
    exact (statusOf_of_jobs h.jobs id).symm

theorem Aside.announces (notice : Notice) (s s' : State) (h : Aside s s')
    : Announces notice s notice s' :=
  .stay (h.hushed none)

theorem Still.announces (notice : Notice) (s s' : State) (h : Still s s')
    : Announces notice s notice s' := h.aside.announces notice s s'

theorem not_isSettled_queued : ¬ Status.queued.IsSettled := by
  intro h
  rcases h with h | h <;> contradiction

theorem not_isSettled_building : ¬ Status.building.IsSettled := by
  intro h
  rcases h with h | h <;> contradiction

section Handler

variable {ambient : Ambient}

theorem announces_recordJob (job : Job) (faults : Faults Stmt) (queuedAt : String)
    : Follows Announces (fun notice res => res = .ok () → notice = .recorded job.id)
        (recordJob crates faults job queuedAt) (.calm job.id) := by
  apply follows_atomic
  intro s
  dsimp only
  cases hrun : s.runDb faults (Db.insertJob crates job.id job.tokenId job.project job.gitRef
      job.hardware queuedAt job.jobType job.pgoSourceJobId) with
  | mk res s' =>
    have ⟨hdb, hs⟩ := run_of_runDb hrun
    rcases run_insertJob_cases hdb with ⟨rfl, jobs, hinsert, hdb'⟩ | ⟨err, rfl, hdb'⟩
    . rw [hs, hdb']
      have hinsert : s.core.jobs.insert? (.ofJob crates job queuedAt) = some jobs := hinsert
      refine ⟨.recorded job.id, .record ⟨rfl, rfl, ?_⟩ ⟨.queued, ?_, not_isSettled_queued⟩,
        fun _ => rfl⟩
      . intro id status _ hsettled hstatus
        rcases statusOf_insert_cases hinsert hstatus with rfl | hold
        . exact absurd hsettled not_isSettled_queued
        . exact hold
      . exact statusOf_insert hinsert
    . rw [hs, hdb']
      refine ⟨.calm job.id, .stay ⟨rfl, rfl, fun _ _ _ _ h => h⟩, ?_⟩
      intro hok
      contradiction

theorem JobQueue.length_of_queueFull {queue queue' : JobQueue} {job : Job}
    (h : queue.enqueue job = (.error .queueFull, queue'))
    : ¬ queue.jobs.length < queue.capacity := by
  unfold enqueue at h
  split at h
  . simp at h
  . split at h
    . simp at h
    . assumption

theorem announces_enqueue (job : Job)
    : Follows Announces (fun notice res => res = .error .queueFull → notice = .refused job.id)
        (enqueue job) (.recorded job.id) := by
  apply follows_atomic
  intro s
  dsimp only
  cases henqueue : s.queue.enqueue job with
  | mk res queue =>
    cases res with
    | ok id =>
      have ⟨_, hjobs, _⟩ := JobQueue.jobs_enqueue henqueue
      refine ⟨.accepted job.id, .enqueue rfl rfl ?_, ?_⟩
      . change queue.jobs.map Job.id = _
        rw [hjobs, List.map_append]
        rfl
      . intro herr
        contradiction
    | error err =>
      have hqueue := JobQueue.enqueue_error henqueue
      have haside : Aside s { s with queue } := by
        rw [hqueue]
        exact ⟨rfl, rfl, rfl⟩
      cases err with
      | queueFull =>
        exact ⟨.refused job.id, .refuse (haside.hushed none)
          (JobQueue.length_of_queueFull henqueue), fun _ => rfl⟩
      | sendError msg =>
        refine ⟨.recorded job.id, haside.announces _, ?_⟩
        rintro ⟨⟩

theorem hushed_setStatus {id : String} {status : Status}
    {startedAt finishedAt errorMsg : Option String} {s s' : State}
    (hcore : s'.core = s.core.setStatus id status startedAt finishedAt errorMsg)
    (hdeliveries : s'.deliveries = s.deliveries)
    : Hushed (some id) s s' where
  deliveries := hdeliveries
  waiting := congrArg Core.waiting hcore
  settled := by
    intro id' status' hexempt _ hstatus
    rw [hcore, statusOf_setStatus_of_ne] at hstatus
    . exact hstatus
    . rintro rfl
      exact hexempt rfl

theorem core_updateJobStatus {id : String} {status : Status}
    {startedAt finishedAt errorMsg : Option String} {faults : Faults Stmt} {s s' : State}
    {res : Except SqlError Unit}
    (hrun : s.runDb faults (Db.updateJobStatus id status startedAt finishedAt errorMsg) = (res, s'))
    : s'.deliveries = s.deliveries
        ∧
      ((res = .ok () ∧ s'.core = s.core.setStatus id status startedAt finishedAt errorMsg)
          ∨
        ((∃ msg, faults .updateJobStatus = some msg) ∧ s'.core = s.core)) := by
  have ⟨hdb, hs⟩ := run_of_runDb hrun
  rcases Db.run_updateJobStatus_cases hdb with ⟨hres, hdb'⟩ | ⟨msg, hfault, _, hdb'⟩
  . rw [hs, hdb']
    exact ⟨rfl, .inl ⟨hres, rfl⟩⟩
  . rw [hs, hdb']
    exact ⟨rfl, .inr ⟨⟨msg, hfault⟩, rfl⟩⟩

theorem announces_submit (job : Job) (scope : Nat) (queuedAt : DateTime) (insertError : String)
    (accept : String → Response)
    : Proceeds Announces (submit crates ambient scope job queuedAt insertError accept)
        (.calm job.id) := by
  unfold submit
  apply Follows.bindExcept (announces_recordJob job _ _).liftExcept
  intro res notice hrecorded
  split
  . exact proceeds_throw _
  . rw [hrecorded rfl]
    apply Follows.bindExcept (announces_enqueue job).liftExcept
    intro res notice hrefused
    split
    . exact proceeds_pure _
    . rw [hrefused rfl]
      apply Follows.bindExcept (m := fun _ _ => True)
      . apply Follows.liftExcept
        apply follows_atomic
        intro s
        refine ⟨.refused job.id, .fail ?_, trivial⟩
        rcases core_updateJobStatus (Prod.eta _).symm with ⟨hdeliveries, ⟨_, hcore⟩ | ⟨_, hcore⟩⟩
        . exact hushed_setStatus hcore hdeliveries
        . exact Aside.hushed ⟨congrArg Core.jobs hcore, congrArg Core.waiting hcore, hdeliveries⟩ _
      . intro _ _ _
        exact proceeds_throw _
    . exact proceeds_throw _

theorem announces_route (request : Request)
    : Follows Announces (fun _ _ => True)
        (do let response ← (route crates settings request ambient).respond
            pure (Answer.response response))
        (.calm ambient.uuid) := by
  apply follows_handler_of
  apply proceeds_route (Aside.announces _)
  intro job scope queuedAt insertError accept hid
  rw [← hid]
  exact announces_submit job scope queuedAt insertError accept

end Handler

namespace processJob

variable {externals : Externals} {job : Job} {α : Type}

abbrev NotDue {α : Type} (notice : Notice) (_ : α) : Prop := notice.isDue = false

theorem announces_getWebhooksDeliveryInfo {faults : Faults Stmt} (hfaults : faults = .none)
    : Follows Announces (fun notice res => ∃ webhooks, res = .ok webhooks ∧ notice = .asked job webhooks)
        (lockDb faults (Db.getWebhooksDeliveryInfo job.tokenId)) (.working job) := by
  rw [hfaults]
  apply follows_atomic
  intro s
  refine ⟨.asked job (s.db.deliveryInfo job.tokenId), .ask ⟨rfl, rfl, fun _ _ _ _ h => h⟩, ?_⟩
  exact ⟨_, rfl, rfl⟩

theorem announces_perform {effect : Effect} (heffect : effect.IsLocal) (notice : Notice)
    : Follows Announces (Until (fun notice' _ => notice' = notice) NotDue)
        (ExceptT.lift (perform effect) : Worker Unit).run notice :=
  ((still_perform heffect).follows (Still.announces notice)).liftExcept

theorem announces_deliver {payload : WebhookPayload} {status : Status} (hid : payload.jobId = job.id)
    (hstatus : payload.status = status) (webhooks : List (String × String))
    : Follows Announces (Until (fun notice _ => notice = .told job) NotDue)
        (ExceptT.lift (deliver payload webhooks) : Worker Unit).run
        (.ended job status webhooks) := by
  apply Follows.liftExcept
  unfold deliver Notice.ended
  split
  . exact follows_pure rfl
  . apply follows_atomic
    intro s
    exact ⟨.told job, .deliver hid hstatus rfl rfl rfl, rfl⟩

theorem announces_failJob (hfaults : ∀ scope, externals.faults scope = .none) (errMsg : String)
    : Works Announces NotDue (.working job)
        (failJob settings externals job errMsg : Worker α) := by
  unfold failJob
  apply Follows.bindExcept (announces_getWebhooksDeliveryInfo (hfaults 4)).liftExcept
  rintro _ _ ⟨webhooks, rfl, rfl⟩
  apply Follows.bindExcept
    (m := fun notice (res : Except SqlError Unit) =>
      res = .ok () ∧ notice = .ended job .failed webhooks)
  . apply Follows.liftExcept
    apply follows_atomic
    intro s
    rcases core_updateJobStatus (Prod.eta _).symm with
      ⟨hdeliveries, ⟨hok, hcore⟩ | ⟨⟨msg, hfault⟩, _⟩⟩
    . refine ⟨_, .settle (hushed_setStatus hcore hdeliveries) (.inr rfl) ?_, hok, rfl⟩
      intro status hstatus
      rw [hcore, statusOf_setStatus, Option.map_eq_some_iff] at hstatus
      rcases hstatus with ⟨_, _, heq⟩
      exact heq.symm
    . rw [hfaults 5] at hfault
      contradiction
  . rintro _ _ ⟨rfl, rfl⟩
    apply Follows.bindExcept (m := fun notice _ => notice = .ended job .failed webhooks)
    . exact follows_pure rfl
    . rintro _ _ rfl
      apply Follows.bindExcept (announces_perform (by trivial) _)
      rintro _ _ rfl
      apply Follows.bindExcept (announces_deliver rfl rfl webhooks)
      rintro _ _ rfl
      exact follows_pure rfl

theorem announces_start
    : Works Announces NotDue (.working job) (start settings externals job) := by
  unfold start
  apply Works.bind
  . apply Follows.liftExcept
    apply follows_atomic
    intro s
    refine ⟨.working job, .stay ?_, rfl⟩
    rcases core_updateJobStatus (Prod.eta _).symm with ⟨hdeliveries, ⟨_, hcore⟩ | ⟨_, hcore⟩⟩
    . have hhushed := hushed_setStatus hcore hdeliveries
      refine ⟨hhushed.deliveries, hhushed.waiting, ?_⟩
      intro id status _ hsettled hstatus
      by_cases hid : some job.id = some id
      . injection hid with hid
        rw [← hid, hcore, statusOf_setStatus, Option.map_eq_some_iff] at hstatus
        rcases hstatus with ⟨_, _, heq⟩
        rw [← heq] at hsettled
        exact absurd hsettled not_isSettled_building
      . exact hhushed.settled id status hid hsettled hstatus
    . exact Aside.hushed ⟨congrArg Core.jobs hcore, congrArg Core.waiting hcore, hdeliveries⟩ _
  . intro res
    apply Works.bind
    . unfold tryDb
      split
      . exact works_pure _
      . exact follows_pure rfl
    . intro _
      split
      . exact announces_perform (by trivial) _
      . exact works_pure _

theorem announces_complete (hfaults : ∀ scope, externals.faults scope = .none) (fileSize : Nat)
    (sha256 : String)
    : Follows Announces (Until (fun notice _ => notice = .told job) NotDue)
        (complete crates settings externals job fileSize sha256).run (.working job) := by
  unfold complete
  apply Follows.bindExcept (announces_getWebhooksDeliveryInfo (hfaults 2)).liftExcept
  rintro _ _ ⟨webhooks, rfl, rfl⟩
  apply Follows.bindExcept
    (m := fun notice (res : Except SqlError Unit) =>
      notice = if res.isOk then .ended job .done webhooks else .asked job webhooks)
  . apply Follows.liftExcept
    apply follows_atomic
    intro s
    dsimp only
    cases hrun : s.runDb (externals.faults 3)
        (complete.go crates settings job externals.finished.toRfc3339 fileSize sha256) with
    | mk res s' =>
      have ⟨_, hs⟩ := run_of_runDb hrun
      have hdeliveries : s'.deliveries = s.deliveries := by
        rw [hs]
        rfl
      have haside : s'.core.jobs = s.core.jobs ∧ s'.core.waiting = s.core.waiting →
          Announces (.asked job webhooks) s (.asked job webhooks) s' := by
        rintro ⟨hjobs, hwaiting⟩
        exact Aside.announces _ _ _ ⟨hjobs, hwaiting, hdeliveries⟩
      rcases complete.run_go_cases hrun with
        ⟨artifact, _, ⟨rfl, hcore⟩ | ⟨err, rfl, hcore | hcore | hcore⟩⟩
      . refine ⟨.ended job .done webhooks, .settle ⟨hdeliveries, congrArg Core.waiting hcore, ?_⟩
          (.inl rfl) ?_, rfl⟩
        . intro id status hexempt _ hstatus
          change s'.core.statusOf id = some status at hstatus
          rw [hcore, statusOf_setStatus_of_ne] at hstatus
          . exact hstatus
          . rintro rfl
            exact hexempt rfl
        . intro status hstatus
          change s'.core.statusOf job.id = some status at hstatus
          rw [hcore, statusOf_setStatus, Option.map_eq_some_iff] at hstatus
          rcases hstatus with ⟨_, _, heq⟩
          exact heq.symm
      . exact ⟨_, haside (by rw [hcore]; exact ⟨rfl, rfl⟩), rfl⟩
      . exact ⟨_, haside (by rw [hcore]; exact ⟨rfl, rfl⟩), rfl⟩
      . exact ⟨_, haside (by rw [hcore]; exact ⟨rfl, rfl⟩), rfl⟩
  . intro res notice hnotice
    rw [hnotice]
    cases res with
    | error err => exact follows_pure rfl
    | ok _ =>
      apply Follows.bindExcept (m := fun notice _ => notice = .ended job .done webhooks)
      . exact follows_pure rfl
      . rintro _ _ rfl
        exact announces_deliver rfl rfl webhooks

theorem announces_processJob (hfaults : ∀ scope, externals.faults scope = .none) (job : Job)
    : Follows Announces NotDue
        (do let outcome ← processJob crates settings externals job
            pure (Answer.outcome outcome))
        (.working job) := by
  have rules : Rules settings externals job Announces NotDue (.working job) := by
    constructor
    . exact Still.announces _ _ _
    . intro _ _
      rfl
    . intro _ errMsg _
      exact announces_failJob hfaults errMsg
  apply Follows.bind (m := NotDue)
  . apply follows_processJob_of rules
    . exact rules.works_rustflags fun _ => announces_failJob hfaults _
    . exact announces_start
    . exact announces_complete hfaults
    . exact Still.announces _
    . rfl
  . intro _ _ h
    exact follows_pure h

end processJob

end Koval
