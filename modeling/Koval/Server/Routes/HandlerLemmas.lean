import Koval.Server.StepLemmas

/-!
This module contains the steps that handlers have in common as steps in the life of jobs.
-/

namespace Koval

open Prog

variable {ext : Crates} {settings : Settings} {ambient : Ambient}

theorem keeps_authenticate (rawToken : String) (now : DateTime) (limit : Nat)
    : Sql.Keeps Db.jobView (authenticateAndRateLimit.go ext rawToken now limit) := by
  unfold authenticateAndRateLimit.go
  apply Sql.Keeps.bind Db.keeps_getActiveTokens
  intro activeTokens
  split
  . exact Sql.keeps_pure _ _
  . split
    . exact Sql.keeps_pure _ _
    . apply Sql.Keeps.bind (Db.keeps_pruneRateLimits _)
      intro _
      apply Sql.Keeps.bind (Sql.keeps_query _ _ _)
      intro currentRequests
      split
      . exact Sql.keeps_pure _ _
      . apply Sql.Keeps.bind (Db.keeps_incrementRateLimit _ _)
        intro _
        exact Sql.keeps_pure _ _

theorem jobView_authenticateAndRateLimit (rawToken : String) (now : DateTime) (limit : Nat)
    (faults : Faults Stmt) (db : Db)
    : (authenticateAndRateLimit ext rawToken now limit faults db).snd.jobView = db.jobView := by
  have h := @keeps_authenticate ext rawToken now limit faults db
  unfold authenticateAndRateLimit
  split
  . next hrun =>
    rw [hrun] at h
    exact h
  . next hrun =>
    rw [hrun] at h
    exact h

theorem stays_authenticate {early : Response → Prop} {refuse : AuthError → Response}
    (hmissing : early (.text .unauthorized "Missing or invalid authorization header"))
    (hrefuse : ∀ err, early (refuse err))
    : Stays ext early (authenticate ext settings ambient refuse) := by
  unfold authenticate
  split
  . exact stays_throw hmissing
  . next tokenStr _ =>
    apply Stays.bind
    . apply stays_lift
      apply quiet_atomic
      intro s
      have := @jobView_authenticateAndRateLimit ext tokenStr ambient.now
        settings.rateLimitLimit (ambient.faults 0) s.db
      simp only [Db.jobView, Prod.mk.injEq] at this
      simp only [State.core, this]
    . intro res
      split
      . exact stays_pure _
      . exact stays_throw (hrefuse _)

def Response.IsServerError (response : Response) : Prop :=
  response.status = .internalServerError ∨ response.status = .serviceUnavailable

theorem follows_recordJob {phase : Phase} {job : Job} (hmay : phase.MayInsert job)
    (faults : Faults Stmt) (queuedAt : String)
    : Follows (Transition ext)
        (fun phase' res => if res.isOk then phase' = .inserted job else phase' = phase)
        (recordJob ext faults job queuedAt) phase := by
  apply follows_atomic
  intro s
  dsimp only [State.runDb]
  cases hrun : (Db.insertJob ext job.id job.tokenId job.project job.gitRef job.hardware queuedAt
      job.jobType job.pgoSourceJobId).run faults s.db with
  | mk res db =>
    rcases run_insertJob_cases hrun with ⟨rfl, jobs, hinsert, rfl⟩ | ⟨err, rfl, rfl⟩
    . refine ⟨.inserted job, ?_, rfl⟩
      apply Transition.insert hmay hinsert
      rfl
    . refine ⟨phase, ?_, rfl⟩
      apply Transition.quiet (.stay phase)
      rfl

def Enqueued (job : Job) (phase : Phase) (res : Except QueueError String) : Prop :=
  match res with
  | .ok id => phase = .accepted job ∧ id = job.id
  | .error .queueFull => phase = .refused job
  | .error (.sendError _) => phase = .dropped job

theorem follows_enqueue (job : Job)
    : Follows (Transition ext) (Enqueued job) (enqueue job) (.inserted job) := by
  apply follows_atomic
  intro s
  dsimp only
  cases henqueue : s.queue.enqueue job with
  | mk res queue =>
    cases res with
    | ok id =>
      have ⟨hid, hjobs, hclosed⟩ := JobQueue.jobs_enqueue henqueue
      refine ⟨.accepted job, ?_, rfl, hid⟩
      apply Transition.enqueue
      simp only [State.core, State.note, Core.note, hjobs, hclosed]
    | error err =>
      have hqueue := JobQueue.enqueue_error henqueue
      cases err with
      | queueFull =>
        refine ⟨.refused job, ?_, rfl⟩
        apply Transition.quiet (.refuse job)
        simp only [State.core, hqueue]
      | sendError e =>
        refine ⟨.dropped job, ?_, rfl⟩
        apply Transition.quiet (.drop job (JobQueue.isClosed_of_sendError henqueue))
        simp only [State.core, hqueue]

def GivenUp (faults : Nat → Faults Stmt) (job : Job) (phase : Phase) : Prop :=
  (phase = .refused job ∧ ∃ scope msg, faults scope .updateJobStatus = some msg)
    ∨ phase = .abandoned job ∨ phase = .dropped job

theorem follows_submit {phase : Phase} {job : Job} (hmay : phase.MayInsert job) (scope : Nat)
    (queuedAt : DateTime) (insertError : String) (accept : String → Response)
    : Follows (Transition ext)
        (Until (fun phase' response => phase' = .accepted job ∧ response = accept job.id)
          fun phase' response =>
            (phase' = phase ∨ GivenUp ambient.faults job phase') ∧ response.IsServerError)
        (submit ext ambient scope job queuedAt insertError accept).run phase := by
  unfold submit
  apply Follows.bindExcept (Follows.liftExcept (follows_recordJob hmay _ _))
  intro res phase' hres
  cases res with
  | error err => exact ⟨.inl hres, .inl rfl⟩
  | ok _ =>
    have hphase : phase' = .inserted job := hres
    rw [hphase]
    apply Follows.bindExcept (Follows.liftExcept (follows_enqueue job))
    intro res phase' hres
    cases res with
    | ok id => exact ⟨hres.left, congrArg accept hres.right⟩
    | error err =>
      cases err with
      | queueFull =>
        have hphase : phase' = .refused job := hres
        rw [hphase]
        apply Follows.bindExcept
          (Follows.liftExcept (follows_updateJobStatus (.failRefused job _ _) _))
        intro res phase' hres
        refine ⟨.inr ?_, .inr rfl⟩
        split at hres
        . exact .inr (.inl hres)
        . exact .inl ⟨hres.left, _, hres.right⟩
      | sendError e => exact ⟨.inr (.inr (.inr hres)), .inl rfl⟩

theorem buildHandler.jobType_of_validate {payload : JobRequest} {jobType : JobType}
    (h : validate payload = .ok jobType)
    : jobType ≠ .pgoOptimize := by
  unfold validate at h
  split at h
  . contradiction
  . split at h
    . contradiction
    . split at h
      . contradiction
      . split at h
        . injection h with h
          simp [← h]
        . injection h with h
          simp [← h]
        . contradiction

namespace cacheLookup

theorem keeps_go {γ : Type} (view : Db → γ) (cacheKey : String)
    : Sql.Keeps view (go cacheKey) := by
  unfold go
  apply Sql.Keeps.bind (Sql.keeps_query _ _ _)
  intro jobId
  split
  . exact Sql.keeps_pure _ _
  . apply Sql.Keeps.bind (Db.keeps_getJobStatus _ _)
    intro jobStatus
    split
    . exact Sql.keeps_pure _ _
    . split
      . apply Sql.Keeps.bind (Db.keeps_getArtifact _ _)
        intro artifact
        split <;> exact Sql.keeps_pure _ _
      . exact Sql.keeps_pure _ _

theorem run_go_eq_ok {cacheKey id filePath sha256 : String} {faults : Faults Stmt} {db db' : Db}
    (h : (go cacheKey).run faults db = (.ok (some (id, filePath, sha256)), db'))
    : (∃ cacheRow, db.buildCache.find? cacheKey = some cacheRow ∧ cacheRow.jobId = id)
        ∧
      (∃ row, db.jobs.find? id = some row ∧ row.status = .done)
        ∧
      (∃ artifact, db.artifacts.find? id = some artifact ∧ artifact.filePath = filePath) := by
  rcases Sql.run_bind_eq_ok h with ⟨entry, mid, hentry, h⟩
  have ⟨hentry, hmid⟩ := Sql.run_query_eq_ok hentry
  rw [hmid] at h
  cases hcache : db.buildCache.find? cacheKey with
  | none =>
    rw [hentry, hcache] at h
    have := (Sql.run_pure_eq_ok h).left
    contradiction
  | some cacheRow =>
    rw [hentry, hcache] at h
    rcases Sql.run_bind_eq_ok h with ⟨status, mid, hstatus, h⟩
    cases status with
    | none =>
      have := (Sql.run_pure_eq_ok h).left
      contradiction
    | some jobStatus =>
      rcases Db.run_getJobStatus_eq_ok hstatus with ⟨hmid, row, hrow, hrowStatus, _⟩
      rw [hmid] at h
      dsimp only at h
      split at h
      . next hdone =>
        rcases Sql.run_bind_eq_ok h with ⟨artifact, mid, hartifact, h⟩
        have ⟨hartifact, _⟩ := Sql.run_query_eq_ok hartifact
        cases hfind : db.artifacts.find? cacheRow.jobId with
        | none =>
          rw [hartifact, hfind] at h
          have := (Sql.run_pure_eq_ok h).left
          contradiction
        | some artifactRow =>
          rw [hartifact, hfind] at h
          have := (Sql.run_pure_eq_ok h).left
          simp only [Option.some.injEq, Prod.mk.injEq] at this
          rw [this.left, this.right.left]
          exact ⟨⟨cacheRow, rfl, rfl⟩, ⟨row, hrow, hrowStatus ▸ hdone⟩, artifactRow, hfind, rfl⟩
      . have := (Sql.run_pure_eq_ok h).left
        contradiction

end cacheLookup

theorem follows_cacheLookup (uuid : String) (tuple : BuildTuple)
    : Follows (Transition ext) (fun phase' _ => phase' = .idle uuid)
        (cacheLookup ext ambient tuple) (.idle uuid) := by
  apply follows_atomic
  intro s
  refine ⟨.idle uuid, ?_, rfl⟩
  split
  . next id filePath sha256 s' hrun =>
    have hcore := core_of_runDb (cacheLookup.keeps_go _ _) hrun
    split
    . next hexists =>
      have ⟨hdb, hs⟩ := run_of_runDb hrun
      rcases cacheLookup.run_go_eq_ok hdb with
        ⟨⟨cacheRow, hcache, rfl⟩, ⟨row, hrow, hdone⟩, artifact, hartifact, rfl⟩
      apply Transition.hit hcache hrow hdone hartifact
      . rw [hs] at hexists
        exact hexists
      . rw [← hcore]
        rfl
    . exact .quiet (.stay _) hcore
  . next res s' _ hrun =>
    exact .quiet (.stay _) (core_of_runDb (cacheLookup.keeps_go _ _) hrun)

end Koval
