import Koval.Server.Deliveries
import Koval.Server.Worker.Packing

/-!
This module contains how a worker comes to a delivery: it asks for the webhooks, brings the job to its
end, and hands over what it has written, whichever of the statements fail.
-/

namespace Koval

open Prog

variable {crates : Crates} {settings : Settings}

inductive Reporting where
  -- a handler
  | attending
  | working (job : Job)
  | asked (job : Job) (webhooks : List (String × String))
  | due (job : Job) (delivery : Delivery)
  | closed (job : Job)

namespace Reporting

-- There may be nobody to tell.
def ended (job : Job) (delivery : Delivery) : Reporting :=
  if delivery.snd = [] then closed job else due job delivery

def agrees (label : Label) (reporting : Reporting) : Prop :=
  match label, reporting with
  | .handler .., attending => True
  | .worker job, working job' | .worker job, asked job' _ => job' = job
  | .worker job, due job' _ | .worker job, closed job' => job' = job
  | _, _ => False

end Reporting

/-- The end of the job, as it is written and as it is told. -/
inductive Settling (job : Job) (s s' : State) : WebhookPayload → Prop where
  | fail {finished errMsg : String}
    (hjobs : s'.core.jobs
      = (s.core.setStatus job.id .failed none (some finished) (some errMsg)).jobs) :
    Settling job s s' ⟨job.id, .failed, some finished, job.project, none⟩
  | complete {finished : String} {artifact : ArtifactRow} (hid : artifact.jobId = job.id)
    (hjobs : s'.core.jobs = (s.core.setStatus job.id .done none (some finished) none).jobs)
    (hartifacts : s'.core.artifacts = (s.core.setArtifact artifact).artifacts) :
    Settling job s s' ⟨job.id, .done, some finished, job.project, some artifact.sha256⟩

inductive Reports : Reporting → State → Reporting → State → Prop where
  | stay {reporting : Reporting} {s s' : State} (hdeliveries : s'.deliveries = s.deliveries) :
    Reports reporting s reporting s'
  | ask {job : Job} {webhooks : List (String × String)} {s s' : State}
    (hwebhooks : webhooks ⊆ s.db.deliveryInfo job.tokenId) (hdeliveries : s'.deliveries = s.deliveries) :
    Reports (.working job) s (.asked job webhooks) s'
  | settle {job : Job} {webhooks : List (String × String)} {payload : WebhookPayload} {s s' : State}
    (hsettling : Settling job s s' payload) (hdeliveries : s'.deliveries = s.deliveries) :
    Reports (.asked job webhooks) s (.ended job (payload, webhooks)) s'
  | deliver {job : Job} {delivery : Delivery} {s s' : State}
    (hdeliveries : s'.deliveries = delivery :: s.deliveries) :
    Reports (.due job delivery) s (.closed job) s'

theorem Reporting.agrees_of_reports (label : Label) (reporting : Reporting) (s : State)
    (reporting' : Reporting) (s' : State) (h : agrees label reporting)
    (hreports : Reports reporting s reporting' s')
    : agrees label reporting' := by
  cases label with
  | handler =>
    cases hreports with
    | stay => exact h
    | ask | settle | deliver => contradiction
  | worker job =>
    cases hreports with
    | stay | ask | deliver => exact h
    | settle =>
      unfold Reporting.ended
      split <;> exact h

theorem reports_attending (request : Request) (ambient : Ambient)
    : Follows Reports (fun _ _ => True)
        (do let response ← (route crates settings request ambient).respond
            pure (Answer.response response))
        .attending := by
  apply ((always_handler (@deed_route crates settings ambient request)).follows ?_).weaken
  . intro _ _ _
    trivial
  . intro s s' hdeed
    exact .stay (hdeed.deliveries rfl)

namespace processJob

variable {externals : Externals} {job : Job} {α : Type}

theorem reports_getWebhooksDeliveryInfo (faults : Faults Stmt)
    : Follows Reports
        (fun reporting (res : Except SqlError (List (String × String))) =>
          reporting = .asked job (res.toOption.getD []))
        (lockDb faults (Db.getWebhooksDeliveryInfo job.tokenId)) (.working job) := by
  apply follows_atomic
  intro s
  refine ⟨_, .ask ?_ ?_, rfl⟩
  . unfold Db.getWebhooksDeliveryInfo
    rw [fst_runDb_query]
    split
    . exact List.nil_subset _
    . exact List.Subset.refl _
  . unfold Db.getWebhooksDeliveryInfo
    rw [runDb_query]

theorem reports_deliver (payload : WebhookPayload) (webhooks : List (String × String))
    : Follows Reports (fun reporting _ => reporting = .closed job) (deliver payload webhooks)
        (.ended job (payload, webhooks)) := by
  unfold deliver Reporting.ended
  split
  . exact follows_pure rfl
  . apply follows_atomic
    intro s
    exact ⟨.closed job, .deliver rfl, rfl⟩

theorem reports_updateJobStatus {reporting : Reporting} (status : Status)
    (startedAt finishedAt errorMsg : Option String) (faults : Faults Stmt)
    {final : Reporting → Except SqlError Unit → Prop}
    (hok : ∀ s s', s'.deliveries = s.deliveries →
      s'.core = s.core.setStatus job.id status startedAt finishedAt errorMsg →
      ∃ reporting', Reports reporting s reporting' s' ∧ final reporting' (.ok ()))
    (herror : ∀ err, final reporting (.error err))
    : Follows Reports final
        (lockDb faults (Db.updateJobStatus job.id status startedAt finishedAt errorMsg)) reporting := by
  apply follows_atomic
  intro s
  rcases core_updateJobStatus (Prod.eta _).symm with ⟨hdeliveries, ⟨hres, hcore⟩ | ⟨⟨msg, hfault⟩, _⟩⟩
  . rw [hres]
    exact hok s _ hdeliveries hcore
  . have hres : (s.runDb faults (Db.updateJobStatus job.id status startedAt finishedAt errorMsg)).fst
        = .error (.failure msg) := by
      unfold State.runDb Db.updateJobStatus Sql.execute Sql.run
      dsimp only
      rw [hfault]
    rw [hres]
    exact ⟨reporting, .stay hdeliveries, herror _⟩

abbrev Anyhow (_ : Reporting) (_ : Outcome) : Prop := True

theorem reports_tryDb (res : Except SqlError α) (reporting : Reporting)
    : Works Reports Anyhow reporting (tryDb res) := by
  unfold tryDb
  split
  . exact works_pure _
  . exact follows_pure trivial

theorem reports_perform {effect : Effect} (h : effect.IsLocal) (reporting : Reporting)
    : Works Reports Anyhow reporting (ExceptT.lift (perform effect) : Worker Unit) := by
  apply Follows.liftExcept
  apply follows_atomic
  intro s
  exact ⟨reporting, .stay (deliveries_perform h s), rfl⟩

theorem reports_failJob (errMsg : String)
    : Follows Reports (Until (fun reporting _ => reporting = .working job) Anyhow)
        (failJob settings externals job errMsg : Worker α).run (.working job) := by
  unfold failJob
  apply Follows.bindExcept (m := fun reporting res => reporting = .asked job (res.toOption.getD []))
  . exact (reports_getWebhooksDeliveryInfo _).liftExcept
  rintro webhooks _ rfl
  let delivery : Delivery :=
    (⟨job.id, .failed, some externals.finished.toRfc3339, job.project, none⟩,
      webhooks.toOption.getD [])
  apply Follows.bindExcept (m := fun reporting res => res = .ok () → reporting = .ended job delivery)
  . apply Follows.liftExcept
    apply reports_updateJobStatus
    . intro s s' hdeliveries hcore
      exact ⟨.ended job delivery, .settle (.fail (congrArg Core.jobs hcore)) hdeliveries, fun _ => rfl⟩
    . intro err hres
      contradiction
  intro res reporting hreporting
  cases res with
  | error err => exact follows_pure trivial
  | ok _ =>
    rw [hreporting rfl]
    apply Follows.bindExcept (m := fun reporting _ => reporting = .ended job delivery)
    . exact reports_tryDb _ _
    rintro _ _ rfl
    apply Follows.bindExcept (reports_perform (by trivial) _)
    rintro _ _ rfl
    apply Follows.bindExcept (reports_deliver _ _).liftExcept
    intro _ _ _
    exact follows_pure trivial

theorem reports_start
    : Works Reports Anyhow (.working job) (start settings externals job) := by
  unfold start
  apply Works.bind
  . apply Follows.liftExcept
    apply reports_updateJobStatus
    . intro s s' hdeliveries _
      exact ⟨_, .stay hdeliveries, rfl⟩
    . intro _
      rfl
  . intro res
    apply Works.bind (reports_tryDb _ _)
    intro _
    split
    . exact reports_perform (by trivial) _
    . exact works_pure _

theorem reports_tryIo (fault : Option IoError) (path : Path) (reporting : Reporting)
    : Works Reports Anyhow reporting (tryIo fault path) := by
  apply follows_atomic
  intro s
  split <;> exact ⟨reporting, .stay rfl, by trivial⟩

theorem reports_measure
    : Works Reports Anyhow (.working job) (measure crates settings externals job) := by
  unfold measure
  apply Works.bind (reports_tryIo _ _ _)
  intro file
  split
  . exact follows_pure trivial
  . apply Works.bind (reports_tryIo _ _ _)
    intro stat
    exact works_pure _

theorem core_of_go_ok {finishedStr : String} {fileSize : Nat} {sha256 : String}
    {faults : Faults Stmt} {s s' : State}
    (h : s.runDb faults (complete.go crates settings job finishedStr fileSize sha256) = (.ok (), s'))
    : s'.core
        =
      ((s.core.setArtifact ⟨job.id, (archivePath settings job).display, fileSize, sha256⟩).setCache
          ⟨job.tuple.cacheKey crates, job.id, finishedStr⟩).setStatus job.id .done none
        (some finishedStr) none := by
  have ⟨hdb, hs⟩ := run_of_runDb h
  rw [hs]
  rcases Sql.run_bind_eq_ok hdb with ⟨_, mid, hartifact, hdb⟩
  rcases Sql.run_bind_eq_ok hdb with ⟨_, mid', hcache, hdb⟩
  rcases Db.run_insertArtifact_cases hartifact with ⟨_, rfl⟩ | ⟨_, herr, _⟩
  . rcases Db.run_insertCacheEntry_cases hcache with ⟨_, rfl⟩ | ⟨_, herr, _⟩
    . rcases Db.run_updateJobStatus_cases hdb with ⟨_, hdb⟩ | ⟨_, _, hres, _⟩
      . rw [hdb]
        rfl
      . contradiction
    . contradiction
  . contradiction

theorem reports_complete (fileSize : Nat) (sha256 : String)
    : Follows Reports (Until (fun reporting _ => reporting = .closed job) Anyhow)
        (complete crates settings externals job fileSize sha256).run (.working job) := by
  unfold complete
  apply Follows.bindExcept (m := fun reporting res => reporting = .asked job (res.toOption.getD []))
  . exact (reports_getWebhooksDeliveryInfo _).liftExcept
  rintro webhooks _ rfl
  dsimp only
  let delivery : Delivery :=
    (⟨job.id, .done, some externals.finished.toRfc3339, job.project, some sha256⟩,
      webhooks.toOption.getD [])
  apply Follows.bindExcept (m := fun reporting res => res = .ok () → reporting = .ended job delivery)
  . apply Follows.liftExcept
    apply follows_atomic
    intro s
    cases hrun : s.runDb (externals.faults 3)
        (complete.go crates settings job externals.finished.toRfc3339 fileSize sha256) with
    | mk res s' =>
      have hdeliveries : s'.deliveries = s.deliveries := by
        rw [(run_of_runDb hrun).right]
        rfl
      cases res with
      | ok _ =>
        have hcore := core_of_go_ok hrun
        let artifact : ArtifactRow := ⟨job.id, (archivePath settings job).display, fileSize, sha256⟩
        have hsettling : Settling job s (s'.note (.completed job)) delivery.fst :=
          @Settling.complete job s _ _ artifact rfl ((congrArg Core.jobs hcore).trans rfl)
            ((congrArg Core.artifacts hcore).trans rfl)
        exact ⟨.ended job delivery, .settle hsettling hdeliveries, fun _ => rfl⟩
      | error err =>
        refine ⟨_, .stay hdeliveries, ?_⟩
        intro hres
        contradiction
  intro res reporting hreporting
  cases res with
  | error err => exact follows_pure trivial
  | ok _ =>
    rw [hreporting rfl]
    apply Follows.bindExcept (m := fun reporting _ => reporting = .ended job delivery)
    . exact reports_tryDb _ _
    rintro _ _ rfl
    exact (reports_deliver _ _).liftExcept

theorem steps_reporting
    : Steps settings externals job Reports Anyhow (.working job) := by
  constructor
  . intro s s' h
    exact .stay h.deliveries
  . intro s mid h
    apply Reports.stay
    rw [← h.deliveries]
    unfold afterTar
    split <;> rfl
  . intro _ _
    trivial
  . intro _ errMsg
    exact reports_failJob errMsg

theorem reports_processJob (externals : Externals) (job : Job)
    : Follows Reports (fun _ _ => True)
        (do let outcome ← processJob crates settings externals job
            pure (Answer.outcome outcome))
        (.working job) := by
  apply Follows.bind (m := fun _ _ => True)
  . apply steps_reporting.follows_processJob
    . exact reports_start
    . exact reports_measure
    . rintro fileSize sha256 _ rfl
      exact reports_complete fileSize sha256
    . intro s s' h
      exact .stay h.deliveries
    . trivial
  . intro _ _ _
    exact follows_pure trivial

end processJob

end Koval
