import Koval.Server.AnnouncedEnds
import Koval.Server.PgoRuns
import Koval.Server.Routes.Authenticated
import Koval.Server.Routes.Submissions
import Koval.Server.TokenLife

/-!
This module contains where the jobs come from: from requests that authentication has let through.
-/

namespace Koval

open Prog

variable {crates : Crates} {settings : Settings} {ambient : Ambient} {system system' : System}

/-- The job that the request asks for when it is one of the token. -/
inductive Request.Asks (ambient : Ambient) (token : Token) : Request → Job → Prop where
  | build {payload : JobRequest} {jobType : JobType}
    (hvalidate : buildHandler.validate payload = .ok jobType) :
    Asks ambient token (.build payload) (payload.job ambient.uuid token.id jobType)
  | forgeInstall {params : ForgeInstallParams} {hardware : HardwareProfile}
    (hvalidate : forgeInstallHandler.validate params = .ok ()) :
    Asks ambient token (.forgeInstall params hardware)
      (params.job hardware ambient.uuid token.id)
  | uploadProfiles {instrumentJobId : String} {upload : Upload} {details : Db.JobDetails}
    (hverify : uploadProfilesHandler.verify details token = .ok ()) :
    Asks ambient token (.uploadProfiles instrumentJobId upload)
      (uploadProfilesHandler.optJob details ambient.uuid token.id instrumentJobId)

-- A thread, with the token that its request has been taken for.
structure Mandate where
  label : Label
  token : Option Token := none

inductive Files (crates : Crates) (settings : Settings) : Mandate → State → Mandate → State → Prop where
  | keep {mandate : Mandate} {s s' : State} (hrecorded : s'.core.recorded = s.core.recorded) :
    Files crates settings mandate s mandate s'
  | grant {request : Request} {ambient : Ambient} {token : Token} {s s' : State}
    (hauthenticates : AuthenticatesAs crates settings ambient s token)
    (hrecorded : s'.core.recorded = s.core.recorded) :
    Files crates settings ⟨.handler request ambient, none⟩ s ⟨.handler request ambient, some token⟩ s'
  | record {request : Request} {ambient : Ambient} {token : Token} {job : Job} {s s' : State}
    (hasks : request.Asks ambient token job)
    (hrecorded : s'.core.recorded = job :: s.core.recorded) :
    Files crates settings ⟨.handler request ambient, some token⟩ s
      ⟨.handler request ambient, some token⟩ s'
  | work {job : Job} {s s' : State} : Files crates settings ⟨.worker job, none⟩ s ⟨.worker job, none⟩ s'

def Unrecorded (s s' : State) : Prop := s'.core.recorded = s.core.recorded

theorem unrecorded_of_history {s s' : State} (h : s'.history = s.history) : Unrecorded s s' := by
  unfold Unrecorded Core.recorded State.core
  rw [h]

theorem unrecorded_of_still {α : Type} {prog : Prog State α} (h : Always Still prog)
    : Always Unrecorded prog := by
  apply h.mono
  intro s s' h
  exact congrArg Core.recorded h.core

theorem unrecorded_lockDb {α : Type} (faults : Faults Stmt) (program : DbM α)
    : Always Unrecorded (lockDb faults program) := by
  apply always_atomic
  intro s
  exact unrecorded_of_history rfl

theorem unrecorded_cacheLookup (tuple : BuildTuple)
    : Always Unrecorded (cacheLookup crates ambient tuple) := by
  apply always_atomic
  intro s
  split
  . next hrun =>
    have hs := congrArg State.history (run_of_runDb hrun).right
    split
    . unfold Unrecorded State.note Core.recorded State.core
      dsimp only
      rw [List.filterMap_cons, hs]
    . exact unrecorded_of_history hs
  . next hrun =>
    have hs := congrArg State.history (run_of_runDb hrun).right
    exact unrecorded_of_history hs

theorem unrecorded_profilesDir (instrumentJobId : String) (upload : Upload)
    : Always Unrecorded
        (uploadProfilesHandler.profilesDir settings ambient upload instrumentJobId).run := by
  apply always_profilesDir
  . intro s
    rfl
  . intro dir createdAt s
    exact unrecorded_of_history rfl

section Filing

variable {α : Type} {request : Request}

abbrev FilesOn (crates : Crates) (settings : Settings) (prog : Handler α) (mandate : Mandate)
    (mid : Mandate → α → Prop) : Prop :=
  Follows (Files crates settings) (Until mid fun _ _ => True) prog.run mandate

theorem filesOn_of_unrecorded {prog : Handler α} (h : Always Unrecorded prog.run) (mandate : Mandate)
    : FilesOn crates settings prog mandate fun mandate' _ => mandate' = mandate := by
  apply (h.follows fun _ _ => .keep).weaken
  intro _ res hmandate
  cases res with
  | ok _ => exact hmandate
  | error _ => trivial

theorem FilesOn.bind {prog : Handler α} {next : α → Handler Response} {mandate : Mandate}
    (h : Always Unrecorded prog.run)
    (hnext : ∀ a, FilesOn crates settings (next a) mandate fun _ _ => True)
    : FilesOn crates settings (prog >>= next) mandate fun _ _ => True := by
  apply Follows.bindExcept (filesOn_of_unrecorded h mandate)
  rintro a _ rfl
  exact hnext a

theorem filesOn_throw (response : Response) (mandate : Mandate)
    : FilesOn crates settings (throw response : Handler Response) mandate fun _ _ => True :=
  follows_pure trivial

theorem filesOn_authenticate (refuse : AuthError → Response)
    : FilesOn crates settings (authenticate crates settings ambient refuse)
        ⟨.handler request ambient, none⟩
        (fun mandate res => mandate = ⟨.handler request ambient, some res.snd⟩) := by
  unfold authenticate
  cases hbearer : bearerToken ambient.authorization with
  | none => exact follows_pure trivial
  | some tokenStr =>
    apply Follows.bindExcept (m := fun mandate res => ∀ token, res = .ok token →
      mandate = ⟨.handler request ambient, some token⟩)
    . apply Follows.liftExcept
      apply follows_atomic
      intro s
      cases hres : (authenticateAndRateLimit crates tokenStr ambient.now settings.rateLimitLimit
          (ambient.faults 0) s.db).fst with
      | error err =>
        refine ⟨_, .keep (unrecorded_of_history rfl), ?_⟩
        intro token htoken
        contradiction
      | ok token =>
        refine ⟨_, .grant ⟨tokenStr, hbearer, hres⟩ (unrecorded_of_history rfl), ?_⟩
        intro token' htoken
        injection htoken with htoken
        rw [htoken]
    . intro res mandate hmandate
      cases res with
      | ok token => exact follows_pure (hmandate token rfl)
      | error err => exact follows_pure trivial

theorem filesOn_submit {token : Token} {job : Job} (hasks : request.Asks ambient token job)
    (scope : Nat) (queuedAt : DateTime) (insertError : String) (accept : String → Response)
    : FilesOn crates settings (submit crates ambient scope job queuedAt insertError accept)
        ⟨.handler request ambient, some token⟩ fun _ _ => True := by
  unfold submit
  apply Follows.bindExcept
    (m := fun mandate _ => mandate = ⟨.handler request ambient, some token⟩)
  . apply Follows.liftExcept
    apply follows_atomic
    intro s
    dsimp only
    split
    . exact ⟨_, .record hasks rfl, rfl⟩
    . exact ⟨_, .keep (unrecorded_of_history rfl), rfl⟩
  . rintro res _ rfl
    split
    . exact filesOn_throw _ _
    . apply FilesOn.bind
      . apply Always.liftExcept
        apply always_atomic
        intro s
        dsimp only
        split <;> rfl
      . intro res
        split
        . exact follows_pure trivial
        . apply FilesOn.bind (unrecorded_lockDb _ _).liftExcept
          intro _
          exact filesOn_throw _ _
        . exact filesOn_throw _ _

theorem filesOn_buildHandler (payload : JobRequest)
    : FilesOn crates settings (buildHandler crates settings ambient payload)
        ⟨.handler (.build payload) ambient, none⟩ fun _ _ => True := by
  unfold buildHandler
  apply Follows.bindExcept (filesOn_authenticate _)
  rintro ⟨_, token⟩ _ rfl
  dsimp only
  split
  . exact filesOn_throw _ _
  . next hvalidate =>
    apply FilesOn.bind
    . unfold buildHandler.lookup
      split
      . exact (unrecorded_cacheLookup _).liftExcept
      . exact always_pure _
    . intro cached
      split
      . exact follows_pure trivial
      . exact filesOn_submit (.build hvalidate) _ _ _ _

theorem filesOn_forgeInstallHandler (params : ForgeInstallParams) (hardware : HardwareProfile)
    : FilesOn crates settings (forgeInstallHandler crates settings ambient params hardware)
        ⟨.handler (.forgeInstall params hardware) ambient, none⟩ fun _ _ => True := by
  unfold forgeInstallHandler
  apply Follows.bindExcept (filesOn_authenticate _)
  rintro ⟨_, token⟩ _ rfl
  dsimp only
  split
  . exact filesOn_throw _ _
  . next hvalidate =>
    apply FilesOn.bind (unrecorded_cacheLookup _).liftExcept
    intro cached
    split
    . exact follows_pure trivial
    . exact filesOn_submit (.forgeInstall hvalidate) _ _ _ _

theorem filesOn_uploadProfilesHandler (instrumentJobId : String) (upload : Upload)
    : FilesOn crates settings
        (uploadProfilesHandler crates settings ambient instrumentJobId upload)
        ⟨.handler (.uploadProfiles instrumentJobId upload) ambient, none⟩ fun _ _ => True := by
  unfold uploadProfilesHandler
  apply Follows.bindExcept (filesOn_authenticate _)
  rintro ⟨_, token⟩ _ rfl
  dsimp only
  apply FilesOn.bind (unrecorded_lockDb _ _).liftExcept
  intro res
  split
  . exact filesOn_throw _ _
  . exact filesOn_throw _ _
  . split
    . exact filesOn_throw _ _
    . next hverify =>
      unfold uploadProfilesHandler.mergeAndSubmit
      apply FilesOn.bind (unrecorded_profilesDir _ _)
      intro dir
      apply FilesOn.bind (unrecorded_of_still (still_saveParts _ _ _ _))
      intro filesSaved
      split
      . exact filesOn_throw _ _
      . apply FilesOn.bind (unrecorded_of_still (still_merge _ _ _))
        intro _
        apply FilesOn.bind (unrecorded_lockDb _ _).liftExcept
        intro res
        split
        . exact filesOn_throw _ _
        . exact filesOn_submit (.uploadProfiles hverify) _ _ _ _

theorem unrecorded_createTokenHandler (payload : TokenRequest)
    : Always Unrecorded (createTokenHandler crates settings ambient payload).run := by
  unfold createTokenHandler
  apply Always.bindExcept (unrecorded_of_still still_authenticateAdmin)
  intro _
  dsimp only
  split
  . exact always_throw _
  . apply Always.bindExcept (unrecorded_lockDb _ _).liftExcept
    intro res
    split
    . exact always_pure _
    . exact always_throw _

theorem unrecorded_deleteTokenHandler (id : Int)
    : Always Unrecorded (deleteTokenHandler crates settings ambient id).run := by
  unfold deleteTokenHandler
  apply Always.bindExcept (unrecorded_of_still still_authenticateAdmin)
  intro _
  apply Always.bindExcept (unrecorded_lockDb _ _).liftExcept
  intro res
  split
  . exact always_pure _
  . exact always_throw _

theorem filesOn_route (request : Request)
    : FilesOn crates settings (route crates settings request ambient)
        ⟨.handler request ambient, none⟩ fun _ _ => True := by
  have hidle : ∀ {handler : Handler Response} {mandate : Mandate},
      Always Unrecorded handler.run →
        FilesOn crates settings handler mandate fun _ _ => True := by
    intro handler mandate h
    apply (filesOn_of_unrecorded h mandate).weaken
    intro _ res _
    cases res <;> trivial
  cases request with
  | build payload => exact filesOn_buildHandler payload
  | forgeInstall params hardware => exact filesOn_forgeInstallHandler params hardware
  | uploadProfiles id upload => exact filesOn_uploadProfilesHandler id upload
  | getMergedProfile id => exact hidle (unrecorded_of_still (still_getMergedProfileHandler id))
  | status jobId => exact hidle (unrecorded_of_still (still_statusHandler jobId))
  | binary jobId => exact hidle (unrecorded_of_still (still_binaryHandler jobId))
  | listJobs => exact hidle (unrecorded_of_still still_listJobsHandler)
  | registerWebhook payload => exact hidle (unrecorded_of_still (still_registerWebhookHandler payload))
  | listWebhooks => exact hidle (unrecorded_of_still still_listWebhooksHandler)
  | deleteWebhook id => exact hidle (unrecorded_of_still (still_deleteWebhookHandler id))
  | createToken payload => exact hidle (unrecorded_createTokenHandler payload)
  | listTokens => exact hidle (unrecorded_of_still still_listTokensHandler)
  | deleteToken id => exact hidle (unrecorded_deleteTokenHandler id)

theorem follows_work (externals : Externals) (job : Job)
    : Follows (Files crates settings) (fun _ _ => True)
        (do let outcome ← processJob crates settings externals job
            pure (Answer.outcome outcome))
        ⟨.worker job, none⟩ :=
  follows_of_forall (fun _ _ => .work) (fun _ => trivial) _

end Filing

theorem Files.label_eq {mandate mandate' : Mandate} {s s' : State}
    (h : Files crates settings mandate s mandate' s')
    : mandate'.label = mandate.label := by
  cases h <;> rfl

namespace System

variable (crates settings) in
/-- At some moment of the run the request has been let through as one of the token. -/
def LetThrough (start : System) (actions : List Action) (request : Request) (ambient : Ambient)
    (token : Token) : Prop :=
  ∃ before after system,
    actions = before ++ after
      ∧
    Machine.run (System.step crates settings) start before = some system
      ∧
    .handler request ambient ∈ system.labels
      ∧
    AuthenticatesAs crates settings ambient system.state token

variable (crates settings) in
/-- A request of the run has asked for the job, with a secret of the token that the job is for. -/
def IsAsked (start : System) (actions : List Action) (job : Job) : Prop :=
  ∃ request ambient token,
    .request request ambient ∈ actions
      ∧
    LetThrough crates settings start actions request ambient token
      ∧
    request.Asks ambient token job

variable (crates settings) in
structure IsFiling (start : System) (actions : List Action) (system : System) : Prop where
  reachable : system.Reachable crates settings
  requests : ∀ request ambient, .handler request ambient ∈ system.labels →
    .request request ambient ∈ actions
  mandates : ∃ mandates : List Mandate,
    Pool.Conforms (Files crates settings) (fun label mandate => mandate.label = label)
      (fun _ _ _ => True) system.threads mandates
      ∧
    ∀ mandate ∈ mandates, ∀ token, mandate.token = some token → ∃ request ambient,
      mandate.label = .handler request ambient
        ∧
      LetThrough crates settings start actions request ambient token
  recorded : ∀ job ∈ system.state.core.recorded, IsAsked crates settings start actions job

variable {start : System} {actions before after : List Action} {action : Action}

theorem Reachable.recorded_of_worker (h : system.Reachable crates settings) {i : Nat}
    (hrun : system.runThread i = some system')
    {thread : Thread Label State Answer} (hthread : system.threads[i]? = some thread)
    (hworker : thread.label.isWorker)
    : system'.state.core.recorded = system.state.core.recorded := by
  rcases h.exists_lives with ⟨phases, hphases, _⟩
  rcases hphases.runThread Agrees.transition hrun with ⟨phase, _, hphase, htrans, _⟩
  rcases hphases.get? hthread with ⟨phase', hphase', hagrees, _⟩
  rw [hphase] at hphase'
  injection hphase' with heq
  rw [hagrees.right, ← heq] at hworker
  rcases htrans.recorded_cases with ⟨job, _, hmay, _⟩ | ⟨_, hrecorded, _⟩
  . cases phase with
    | idle | source => contradiction
    | _ => exact absurd hmay id
  . exact hrecorded

theorem IsFiling.step (h : IsFiling crates settings start actions system)
    (hactions : actions = before ++ action :: after)
    (hbefore : Machine.run (System.step crates settings) start before = some system)
    (hstep : system.step crates settings action = some system')
    : IsFiling crates settings start actions system' := by
  have hreachable := h.reachable.step hstep
  have hrequests : ∀ request ambient, .handler request ambient ∈ system'.labels →
      .request request ambient ∈ actions := by
    intro request ambient hlabel
    rcases (mem_labels_of_step hstep hlabel).right with hlabel | haction
    . exact h.requests request ambient hlabel
    . rw [hactions, haction]
      exact List.mem_append_right _ List.mem_cons_self
  rcases h.mandates with ⟨mandates, hconforms, hgranted⟩
  have hnew : ∀ label, ∀ mandate ∈ mandates ++ [⟨label, none⟩], ∀ token, mandate.token = some token →
      ∃ request ambient, mandate.label = .handler request ambient
        ∧ LetThrough crates settings start actions request ambient token := by
    intro label mandate hmandate token htoken
    rw [List.mem_append, List.mem_singleton] at hmandate
    rcases hmandate with hmandate | rfl
    . exact hgranted mandate hmandate token htoken
    . contradiction
  cases System.stepsTo hstep with
  | @request request ambient _ =>
    refine ⟨hreachable, hrequests, ⟨_, ?_, hnew (.handler request ambient)⟩, h.recorded⟩
    exact hconforms.spawn rfl (follows_handler_of (filesOn_route request))
  | @recv externals job queue _ _ =>
    refine ⟨hreachable, hrequests, ⟨_, ?_, hnew (.worker job)⟩, h.recorded⟩
    exact Pool.Conforms.spawn hconforms rfl (follows_work externals job)
  | @run i _ hrun =>
    rcases hconforms.runThread (fun _ _ _ _ _ hlabel hfiles => hfiles.label_eq.trans hlabel) hrun with
      ⟨mandate, mandate', hmandate, hfiles, hconforms'⟩
    rcases hconforms.getElem? hmandate with ⟨thread, hthread, hlabel, _⟩
    have hmem := List.mem_of_getElem? hmandate
    have hmemLabel : mandate.label ∈ system.labels := by
      rw [hlabel]
      exact List.mem_map_of_mem (List.mem_of_getElem? hthread)
    have hset : (∀ token, mandate'.token = some token → ∃ request ambient,
        mandate'.label = .handler request ambient
          ∧ LetThrough crates settings start actions request ambient token) →
        ∀ m ∈ mandates.set i mandate', ∀ token, m.token = some token → ∃ request ambient,
          m.label = .handler request ambient
            ∧ LetThrough crates settings start actions request ambient token := by
      intro hmandate' m hm
      rcases List.mem_or_eq_of_mem_set hm with hm | rfl
      . exact hgranted m hm
      . exact hmandate'
    cases hfiles with
    | keep hrecorded =>
      refine ⟨hreachable, hrequests, ⟨_, hconforms', hset (hgranted mandate hmem)⟩, ?_⟩
      rw [hrecorded]
      exact h.recorded
    | @grant request ambient token _ _ hauthenticates hrecorded =>
      refine ⟨hreachable, hrequests, ⟨_, hconforms', hset ?_⟩, ?_⟩
      . intro token' htoken
        injection htoken with htoken
        rw [← htoken]
        exact ⟨request, ambient, rfl, before, _, system, hactions, hbefore, hmemLabel, hauthenticates⟩
      . rw [hrecorded]
        exact h.recorded
    | @record request ambient token job _ _ hasks hrecorded =>
      refine ⟨hreachable, hrequests, ⟨_, hconforms', hset (hgranted _ hmem)⟩, ?_⟩
      intro job' hjob'
      rw [hrecorded, List.mem_cons] at hjob'
      rcases hjob' with rfl | hjob'
      . rcases hgranted _ hmem token rfl with ⟨request', ambient', heq, hthrough⟩
        injection heq with hrequest hambient
        rw [← hrequest, ← hambient] at hthrough
        exact ⟨request, ambient, token, h.requests request ambient hmemLabel, hthrough, hasks⟩
      . exact h.recorded job' hjob'
    | @work job =>
      refine ⟨hreachable, hrequests, ⟨_, hconforms', hset (hgranted _ hmem)⟩, ?_⟩
      have hlabel : .worker job = thread.label := hlabel
      rw [h.reachable.recorded_of_worker hrun hthread (by rw [← hlabel]; rfl)]
      exact h.recorded
  | changeFiles => exact ⟨hreachable, hrequests, ⟨mandates, hconforms, hgranted⟩, h.recorded⟩
  | restart hthreads hcore =>
    refine ⟨hreachable, hrequests, ⟨[], ?_, ?_⟩, ?_⟩
    . rw [hthreads]
      exact Pool.conforms_nil
    . intro mandate hmandate
      contradiction
    . rw [hcore]
      exact h.recorded

theorem Reachable.recorded_of_label (h : system.Reachable crates settings) {job : Job}
    (hlabel : .worker job ∈ system.labels)
    : job ∈ system.state.core.recorded := by
  rcases h with ⟨boot, start, actions, hmain, hrun⟩
  have hinv : system.Reachable crates settings
      ∧ ∀ job, .worker job ∈ system.labels → job ∈ system.state.core.recorded := by
    apply Machine.invariant_of_run
      (I := fun system => System.Reachable crates settings system
        ∧ ∀ job, .worker job ∈ system.labels → job ∈ system.state.core.recorded)
      _ _ hrun
    . rintro action _ system system' ⟨h, hworkers⟩ hstep
      refine ⟨h.step hstep, ?_⟩
      intro job hlabel
      cases System.stepsTo hstep with
      | request =>
        apply hworkers
        simpa [labels, Pool.spawn] using hlabel
      | @recv externals job' queue hjobs _ =>
        have hlabel : .worker job ∈ system.labels ∨ job = job' := by
          simpa [labels, Pool.spawn] using hlabel
        rcases hlabel with hlabel | rfl
        . exact hworkers job hlabel
        . rcases h.exists_lives with ⟨phases, _, hlife⟩
          apply hlife.recorded.waiting
          change job ∈ system.state.queue.jobs
          rw [hjobs]
          exact List.mem_cons_self
      | run hrun =>
        rw [labels_of_run hrun] at hlabel
        exact h.recorded_subset hrun (hworkers job hlabel)
      | changeFiles => exact hworkers job hlabel
      | restart hthreads =>
        unfold labels at hlabel
        rw [hthreads] at hlabel
        contradiction
    . refine ⟨⟨boot, start, [], hmain, rfl⟩, ?_⟩
      intro job hlabel
      unfold labels at hlabel
      rw [(main_eq_some hmain).left] at hlabel
      contradiction
  exact hinv.right job hlabel

theorem isFiling_main {boot : Boot}
    (hmain : main crates settings boot (.empty settings) = some start)
    : IsFiling crates settings start actions start := by
  have ⟨hthreads, hcore⟩ := main_eq_some hmain
  refine ⟨⟨boot, start, [], hmain, rfl⟩, ?_, ⟨[], ?_, ?_⟩, ?_⟩
  . intro request ambient hlabel
    unfold labels at hlabel
    rw [hthreads] at hlabel
    contradiction
  . rw [hthreads]
    exact Pool.conforms_nil
  . intro mandate hmandate
    contradiction
  . rw [hcore]
    intro job hjob
    contradiction

variable (crates settings) in
/-- The job has been asked for, and what it optimizes has been, too. -/
def Stems (start : System) (actions : List Action) (job : Job) : Prop :=
  IsAsked crates settings start actions job
    ∧
  (job.jobType = .pgoOptimize →
    ∃ source, IsAsked crates settings start actions source ∧ job.Optimizes crates source)

/--
Every job stems from one request of the run, which has shown a secret of the token that the job is
for, and asks for just this job: what the rows say, what waits in the channel, and what the workers
have been given.
-/
theorem jobs_asked {boot : Boot}
    (hmain : main crates settings boot (.empty settings) = some start)
    (hrun : Machine.run (System.step crates settings) start actions = some system)
    : (∀ row ∈ system.state.db.jobs.rows, ∃ job,
        Stems crates settings start actions job
          ∧
        row.submitted = .ofJob crates job row.queuedAt)
        ∧
      ∀ job, (job ∈ system.state.queue.jobs ∨ .worker job ∈ system.labels) →
        Stems crates settings start actions job
          ∧
        ∃ row ∈ system.state.db.jobs.rows, row.submitted = .ofJob crates job row.queuedAt := by
  have hfiling : IsFiling crates settings start actions system := by
    apply Machine.invariant_of_transitions (I := IsFiling crates settings start actions) _
      (isFiling_main hmain) hrun
    intro t action t' hmem h
    rcases Machine.mem_transitions_iff.mp hmem with ⟨before, after, hactions, hbefore, hstep⟩
    exact h.step hactions hbefore hstep
  rcases hfiling.reachable.exists_lives with ⟨phases, _, hlife⟩
  have hstems : ∀ job ∈ system.state.core.recorded, Stems crates settings start actions job := by
    intro job hjob
    refine ⟨hfiling.recorded job hjob, ?_⟩
    intro htype
    rcases hlife.recorded.optimizes job hjob htype with ⟨source, hsource, hoptimizes⟩
    exact ⟨source, hfiling.recorded source hsource, hoptimizes⟩
  have hrows : ∀ job ∈ system.state.core.recorded, ∃ row,
      system.state.db.jobs.find? job.id = some row
        ∧ row.submitted = .ofJob crates job row.queuedAt := by
    intro job hjob
    rcases hlife.recorded.rows job hjob with ⟨queuedAt, hsubmitted⟩
    rcases Option.map_eq_some_iff.mp hsubmitted with ⟨row, hrow, hsubmitted⟩
    have hqueuedAt : row.queuedAt = queuedAt := congrArg JobRow.queuedAt hsubmitted
    refine ⟨row, hrow, ?_⟩
    rw [hsubmitted, hqueuedAt]
  constructor
  . intro row hrow
    have hfind := Table.find?_of_mem hrow
    have hsome : (system.state.core.submittedOf row.id).isSome := by
      unfold Core.submittedOf State.core
      rw [hfind]
      rfl
    rcases hlife.recorded.ofRow row.id hsome with ⟨job, hjob, hid⟩
    rcases hrows job hjob with ⟨row', hrow', hsubmitted⟩
    rw [hid, hfind] at hrow'
    injection hrow' with hrow'
    rw [← hrow'] at hsubmitted
    exact ⟨job, hstems job hjob, hsubmitted⟩
  . intro job hplace
    have hjob : job ∈ system.state.core.recorded := by
      rcases hplace with hwaiting | hlabel
      . exact hlife.recorded.waiting job hwaiting
      . exact hfiling.reachable.recorded_of_label hlabel
    rcases hrows job hjob with ⟨row, hrow, hsubmitted⟩
    exact ⟨hstems job hjob, row, Table.mem_of_find? hrow, hsubmitted⟩

theorem jobs_asked_uploaded
    : ∃ start actions, ∃ system : System, ∃ row ∈ system.state.db.jobs.rows, ∃ source,
        row.jobType = .pgoOptimize
          ∧
        row.pgoSourceJobId = some source.id
          ∧
        IsAsked Samples.github.crates Samples.settings start actions source
          ∧
        Machine.run (System.step Samples.github.crates Samples.settings) start actions
          = some system := by
  rcases Samples.exists_of_runs (Samples.uploaded none)
      (fun system => ∃ row ∈ system.state.db.jobs.rows, row.jobType = .pgoOptimize)
      (by decide +kernel) with
    ⟨start, system, hmain, hrun, row, hrow, htype⟩
  rcases (jobs_asked hmain hrun).left row hrow with ⟨job, ⟨_, hoptimizes⟩, hsubmitted⟩
  have hjobType : row.submitted.jobType = job.jobType := congrArg JobRow.jobType hsubmitted
  have hsourceId : row.submitted.pgoSourceJobId = job.pgoSourceJobId :=
    congrArg JobRow.pgoSourceJobId hsubmitted
  rcases hoptimizes (hjobType.symm.trans htype) with ⟨source, hsource, hopt⟩
  exact ⟨start, _, system, row, hrow, source, htype, hsourceId.trans hopt.sourceId, hsource, hrun⟩

end System

end Koval
