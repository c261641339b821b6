import Koval.Server.Routes.HandlerLemmas
import Koval.Server.System

/-!
This module contains the handlers as threads in the life of jobs.
-/

namespace Koval

open Prog

variable {ext : Crates} {settings : Settings} {ambient : Ambient}

theorem quiet_exists? (path : Path) : Quiet ext (exists? path) := by
  apply quiet_atomic
  intro s
  rfl

theorem quiet_readFile (path : Path) : Quiet ext (readFile ambient path) := by
  apply quiet_atomic
  intro s
  split <;> rfl

abbrev Anyhow (_ : Response) : Prop := True

theorem stays_authenticate_anyhow (refuse : AuthError → Response)
    : Stays ext Anyhow (authenticate ext settings ambient refuse) := by
  apply stays_authenticate
  . trivial
  . intro _
    trivial

-- The handlers that submit nothing

theorem stays_statusHandler (jobId : String) : Stays ext Anyhow (statusHandler ext settings ambient jobId) := by
  unfold statusHandler
  apply Stays.bind (stays_authenticate_anyhow _)
  intro _
  apply Stays.bind (stays_lockDb (Db.keeps_getJobStatus _ _) _)
  intro res
  split
  . split
    . apply Stays.bind (stays_lockDb (Db.keeps_getArtifact _ _) _)
      intro res
      split <;> exact stays_pure _
    . exact stays_pure _
  . exact stays_throw trivial
  . exact stays_throw trivial

theorem stays_binaryHandler (jobId : String) : Stays ext Anyhow (binaryHandler ext settings ambient jobId) := by
  unfold binaryHandler
  apply Stays.bind (stays_authenticate_anyhow _)
  intro _
  apply Stays.bind (stays_lockDb (Db.keeps_getArtifact _ _) _)
  intro res
  split
  . exact stays_throw trivial
  . exact stays_throw trivial
  . apply Stays.bind (stays_lift (quiet_exists? _))
    intro doesExist
    split
    . exact stays_throw trivial
    . apply Stays.bind (stays_lift (quiet_readFile _))
      intro content
      split
      . exact stays_throw trivial
      . exact stays_pure _

theorem stays_listJobsHandler : Stays ext Anyhow (listJobsHandler ext settings ambient) := by
  unfold listJobsHandler
  apply Stays.bind (stays_authenticate_anyhow _)
  intro _
  apply Stays.bind (stays_lockDb (Sql.keeps_query _ _ _) _)
  intro res
  split
  . exact stays_pure _
  . exact stays_throw trivial

theorem stays_registerWebhookHandler (payload : WebhookRequest)
    : Stays ext Anyhow (registerWebhookHandler ext settings ambient payload) := by
  unfold registerWebhookHandler
  apply Stays.bind (stays_authenticate_anyhow _)
  intro _
  apply Stays.bind (stays_lockDb (Db.keeps_insertWebhook _ _ _ _) _)
  intro res
  split
  . exact stays_pure _
  . exact stays_throw trivial

theorem stays_listWebhooksHandler : Stays ext Anyhow (listWebhooksHandler ext settings ambient) := by
  unfold listWebhooksHandler
  apply Stays.bind (stays_authenticate_anyhow _)
  intro _
  apply Stays.bind (stays_lockDb (Sql.keeps_query _ _ _) _)
  intro res
  split
  . exact stays_pure _
  . exact stays_throw trivial

theorem stays_deleteWebhookHandler (id : Int)
    : Stays ext Anyhow (deleteWebhookHandler ext settings ambient id) := by
  unfold deleteWebhookHandler
  apply Stays.bind (stays_authenticate_anyhow _)
  intro _
  apply Stays.bind (stays_lockDb (Db.keeps_deactivateWebhook _ _) _)
  intro res
  split
  . exact stays_pure _
  . exact stays_throw trivial
  . exact stays_throw trivial

theorem stays_authenticateAdmin : Stays ext Anyhow (authenticateAdmin ext settings ambient) := by
  unfold authenticateAdmin
  apply Stays.bind (stays_authenticate_anyhow _)
  rintro ⟨tokenStr, token⟩
  dsimp only
  split
  . exact stays_throw trivial
  . exact stays_pure _

theorem stays_createTokenHandler (payload : TokenRequest)
    : Stays ext Anyhow (createTokenHandler ext settings ambient payload) := by
  unfold createTokenHandler
  apply Stays.bind stays_authenticateAdmin
  intro _
  dsimp only
  split
  . exact stays_throw trivial
  . apply Stays.bind (stays_lockDb (Db.keeps_insertToken _ _ _) _)
    intro res
    split
    . exact stays_pure _
    . exact stays_throw trivial

theorem stays_listTokensHandler : Stays ext Anyhow (listTokensHandler ext settings ambient) := by
  unfold listTokensHandler
  apply Stays.bind stays_authenticateAdmin
  intro _
  apply Stays.bind (stays_lockDb (Sql.keeps_query _ _ _) _)
  intro res
  split
  . exact stays_pure _
  . exact stays_throw trivial

theorem stays_deleteTokenHandler (id : Int)
    : Stays ext Anyhow (deleteTokenHandler ext settings ambient id) := by
  unfold deleteTokenHandler
  apply Stays.bind stays_authenticateAdmin
  intro _
  apply Stays.bind (stays_lockDb (Db.keeps_revokeToken _) _)
  intro res
  split
  . exact stays_pure _
  . exact stays_throw trivial

theorem stays_getMergedProfileHandler (instrumentJobId : String)
    : Stays ext Anyhow (getMergedProfileHandler ext settings ambient instrumentJobId) := by
  unfold getMergedProfileHandler
  apply Stays.bind (stays_authenticate_anyhow _)
  intro _
  apply Stays.bind (stays_lockDb (Db.keeps_getPgoProfile _) _)
  intro res
  split
  . apply Stays.bind (stays_lockDb (Sql.keeps_query _ _ _) _)
    intro res
    split
    . split
      . exact stays_throw trivial
      . split
        . exact stays_throw trivial
        . apply Stays.bind (stays_lift (quiet_exists? _))
          intro doesExist
          split
          . exact stays_throw trivial
          . apply Stays.bind (stays_lift (quiet_readFile _))
            intro content
            split
            . exact stays_pure _
            . exact stays_throw trivial
    . exact stays_throw trivial
  . exact stays_throw trivial

def Refuses (response : Response) : Prop := response.status ≠ .accepted

theorem refuses_text {status : StatusCode} (h : status ≠ .accepted) (msg : String)
    : Refuses (.text status msg) := h

theorem refuses_intoResponse (err : MultipartError) : Refuses err.intoResponse := by
  cases err <;> exact refuses_text (by decide) _

theorem stays_throw_text {α : Type} {status : StatusCode} (h : status ≠ .accepted) (msg : String)
    : Stays ext Refuses (throw (.text status msg) : Handler α) := stays_throw (refuses_text h msg)

namespace uploadProfilesHandler

variable {upload : Upload}

theorem stays_profilesDir (instrumentJobId : String)
    : Stays ext Refuses (profilesDir settings ambient upload instrumentJobId) := by
  apply stays_atomic
  intro s
  split
  . next hrun =>
    exact leaves_error (core_of_runDb (Db.keeps_getPgoProfile _) hrun) (refuses_text (by decide) _)
  . next hrun => exact leaves_ok (core_of_runDb (Db.keeps_getPgoProfile _) hrun) _
  . next hrun =>
    have hget := core_of_runDb (Db.keeps_getPgoProfile _) hrun
    dsimp only
    split
    . exact leaves_error hget (refuses_text (by decide) _)
    . split
      . next hrun =>
        exact leaves_ok ((core_of_runDb (Db.keeps_insertPgoProfile _ _ _) hrun).trans hget) _
      . next hrun =>
        exact leaves_error ((core_of_runDb (Db.keeps_insertPgoProfile _ _ _) hrun).trans hget)
          (refuses_text (by decide) _)

theorem stays_writeFile (fault : Option IoError) (path : Path) (data : Bytes)
    : Stays ext Refuses (writeFile fault path data) := by
  apply stays_atomic
  intro s
  split
  . exact leaves_error rfl (refuses_text (by decide) _)
  . exact leaves_ok rfl _

theorem stays_saveParts (profilesDir : Path) (parts : List Part) (filesSaved : Nat)
    : Stays ext Refuses (saveParts upload profilesDir parts filesSaved) := by
  induction parts generalizing filesSaved with
  | nil => exact stays_pure _
  | cons part parts ih =>
    unfold saveParts
    split
    . exact stays_throw_text (by decide) _
    . split
      . exact ih filesSaved
      . split
        . exact stays_throw_text (by decide) _
        . split
          . exact stays_throw (refuses_intoResponse _)
          . split
            . exact ih filesSaved
            . apply Stays.bind (stays_writeFile _ _ _)
              intro _
              exact ih (filesSaved + 1)

theorem stays_merge (profilesDir mergedPath : Path)
    : Stays ext Refuses (merge upload profilesDir mergedPath) := by
  unfold merge
  apply Stays.bind
  . apply stays_atomic
    intro s
    dsimp only
    split
    . exact leaves_error rfl (refuses_text (by decide) _)
    . split
      . exact leaves_ok rfl _
      . exact leaves_error rfl (refuses_text (by decide) _)
  . intro cmd
    apply Stays.bind
    . apply stays_lift
      apply quiet_atomic
      intro s
      dsimp only
      split <;> rfl
    . intro _
      split
      . exact stays_throw_text (by decide) _
      . exact stays_throw_text (by decide) _
      . split
        . exact stays_throw_text (by decide) _
        . exact stays_pure _

end uploadProfilesHandler

-- The handlers that submit a job

/-- The phases that a handler may end in. -/
def Answers (faults : Nat → Faults Stmt) (phase : Phase) (response : Response) : Prop :=
  match phase with
  | .idle _ | .source _ _ | .accepted _ => True
  | .refused _ => response.IsServerError ∧ ∃ scope msg, faults scope .updateJobStatus = some msg
  | .abandoned _ | .dropped _ => response.IsServerError
  | _ => False

theorem GivenUp.answers {faults : Nat → Faults Stmt} {job : Job} {phase : Phase}
    {response : Response} (h : GivenUp faults job phase) (herror : response.IsServerError)
    : Answers faults phase response := by
  rcases h with ⟨rfl, hfault⟩ | rfl | rfl
  . exact ⟨herror, hfault⟩
  . exact herror
  . exact herror

def AnswersUpload (faults : Nat → Faults Stmt) (instrumentJobId : String) (phase : Phase)
    (response : Response) : Prop :=
  Answers faults phase response
    ∧
  (response.status = .accepted → ∃ job,
    phase = .accepted job
      ∧
    job.jobType = .pgoOptimize
      ∧
    job.pgoSourceJobId = some instrumentJobId
      ∧
    response = uploadProfilesHandler.accepted instrumentJobId job.id)

theorem Response.IsServerError.refuses {response : Response} (h : response.IsServerError)
    : Refuses response := by
  unfold Refuses
  cases h with
  | inl h => simp [h]
  | inr h => simp [h]

theorem follows_submit_answers {uuid : String} {job : Job} (hid : job.id = uuid)
    (htype : job.jobType ≠ .pgoOptimize) (scope : Nat) (queuedAt : DateTime) (insertError : String)
    (accept : String → Response)
    : Follows (Transition ext) (Until (Answers ambient.faults) (Answers ambient.faults))
        (submit ext ambient scope job queuedAt insertError accept).run (.idle uuid) := by
  have hmay : (Phase.idle uuid).MayInsert job := ⟨hid, htype⟩
  apply (follows_submit hmay scope queuedAt insertError accept).weaken
  intro phase res h
  cases res with
  | ok response =>
    rw [h.left]
    trivial
  | error response =>
    rcases h with ⟨rfl | hgiven, herror⟩
    . trivial
    . exact hgiven.answers herror

theorem follows_buildHandler (payload : JobRequest)
    : Follows (Transition ext) (Until (Answers ambient.faults) (Answers ambient.faults))
        (buildHandler ext settings ambient payload).run (.idle ambient.uuid) := by
  apply Stays.follows (stays_authenticate_anyhow _)
  . intro _ _
    trivial
  . rintro ⟨_, token⟩
    dsimp only
    split
    . trivial
    . next jobType hvalidate =>
      have htype := buildHandler.jobType_of_validate hvalidate
      apply Follows.bindExcept (m := fun phase' _ => phase' = .idle ambient.uuid)
      . unfold buildHandler.lookup
        split
        . exact Follows.liftExcept (follows_cacheLookup ambient.uuid payload.tuple)
        . exact follows_pure rfl
      . rintro cached phase' rfl
        split
        . trivial
        . exact follows_submit_answers rfl htype _ _ _ _

theorem follows_forgeInstallHandler (params : ForgeInstallParams) (hardware : HardwareProfile)
    : Follows (Transition ext) (Until (Answers ambient.faults) (Answers ambient.faults))
        (forgeInstallHandler ext settings ambient params hardware).run (.idle ambient.uuid) := by
  apply Stays.follows (stays_authenticate_anyhow _)
  . intro _ _
    trivial
  . rintro ⟨_, token⟩
    dsimp only
    split
    . trivial
    . apply Follows.bindExcept
        (Follows.liftExcept (follows_cacheLookup ambient.uuid (params.tuple hardware)))
      rintro cached phase' rfl
      split
      . trivial
      . exact follows_submit_answers rfl (by simp [ForgeInstallParams.job]) _ _ _ _

namespace uploadProfilesHandler

variable {upload : Upload}

theorem verify_eq_ok {jobDetails : Db.JobDetails} {token : Token}
    (h : verify jobDetails token = .ok ())
    : jobDetails.tokenId = token.id
        ∧ jobDetails.jobType = .pgoInstrument ∧ jobDetails.status = .done := by
  unfold verify at h
  split at h
  . contradiction
  . split at h
    . contradiction
    . split at h
      . contradiction
      . simp_all

theorem refuses_of_verify {jobDetails : Db.JobDetails} {token : Token} {response : Response}
    (h : verify jobDetails token = .error response)
    : Refuses response := by
  unfold verify at h
  split at h
  . injection h with h
    rw [← h]
    exact refuses_text (by decide) _
  . split at h
    . injection h with h
      rw [← h]
      exact refuses_text (by decide) _
    . split at h
      . injection h with h
        rw [← h]
        exact refuses_text (by decide) _
      . contradiction

def Read (uuid instrumentJobId : String) (token : Token) (phase : Phase)
    (res : Except SqlError (Option Db.JobDetails)) : Prop :=
  match res with
  | .ok (some details) =>
    match verify details token with
    | .ok () => phase = .source uuid details ∧ details.id = instrumentJobId
    | .error _ => phase = .idle uuid
  | _ => phase = .idle uuid

theorem follows_getJobDetails (uuid instrumentJobId : String) (token : Token) (faults : Faults Stmt)
    : Follows (Transition ext) (Read uuid instrumentJobId token)
        (lockDb faults (Db.getJobDetails ext instrumentJobId)) (.idle uuid) := by
  apply follows_atomic
  intro s
  cases hrun : s.runDb faults (Db.getJobDetails ext instrumentJobId) with
  | mk res s' =>
    have hcore := core_of_runDb (Sql.keeps_query _ _ _) hrun
    unfold Read
    dsimp only
    split
    . next details =>
      split
      . next hverify =>
        have ⟨hdetails, _⟩ := Sql.run_query_eq_ok (run_of_runDb hrun).left
        symm at hdetails
        rw [Option.map_eq_some_iff] at hdetails
        rcases hdetails with ⟨row, hrow, rfl⟩
        have ⟨_, htype, hdone⟩ := verify_eq_ok hverify
        have hid : row.id = instrumentJobId := Table.key_of_find? hrow
        refine ⟨_, ?_, rfl, hid⟩
        exact .read hcore (Table.mem_of_find? hrow) htype hdone
      . exact ⟨_, .quiet (.stay _) hcore, rfl⟩
    . exact ⟨_, .quiet (.stay _) hcore, rfl⟩

theorem follows_mergeAndSubmit {uuid instrumentJobId : String} {jobDetails : Db.JobDetails}
    {tokenId : Int} (huuid : ambient.uuid = uuid) (hid : jobDetails.id = instrumentJobId)
    (htoken : jobDetails.tokenId = tokenId)
    : Follows (Transition ext)
        (Until (AnswersUpload ambient.faults instrumentJobId)
          (AnswersUpload ambient.faults instrumentJobId))
        (mergeAndSubmit ext settings ambient upload instrumentJobId jobDetails tokenId).run
        (.source uuid jobDetails) := by
  have hrefuses : ∀ response, Refuses response →
      AnswersUpload ambient.faults instrumentJobId (.source uuid jobDetails) response := by
    intro response h
    exact ⟨trivial, fun haccepted => absurd haccepted h⟩
  unfold mergeAndSubmit
  apply Stays.follows (stays_profilesDir _) hrefuses
  intro profilesDir
  apply Stays.follows (stays_saveParts _ _ _) hrefuses
  intro filesSaved
  dsimp only
  split
  . exact hrefuses _ (refuses_text (by decide) _)
  . apply Stays.follows (stays_merge _ _) hrefuses
    intro _
    apply Stays.follows (stays_lockDb (Db.keeps_updatePgoMergedPath _ _) _) hrefuses
    intro res
    cases res with
    | error err => exact hrefuses _ (refuses_text (by decide) _)
    | ok _ =>
      have hmay : (Phase.source uuid jobDetails).MayInsert
          (optJob jobDetails ambient.uuid tokenId instrumentJobId) := by
        change _ = optJob jobDetails uuid jobDetails.tokenId jobDetails.id
        rw [huuid, htoken, hid]
      apply (follows_submit hmay _ _ _ _).weaken
      intro phase res h
      cases res with
      | ok response =>
        rw [h.left]
        exact ⟨trivial, fun _ => ⟨_, rfl, rfl, rfl, h.right⟩⟩
      | error response =>
        rcases h with ⟨rfl | hgiven, herror⟩
        . exact hrefuses _ herror.refuses
        . exact ⟨hgiven.answers herror, fun haccepted => absurd haccepted herror.refuses⟩

end uploadProfilesHandler

theorem follows_uploadProfilesHandler (instrumentJobId : String) (upload : Upload)
    : Follows (Transition ext)
        (Until (AnswersUpload ambient.faults instrumentJobId)
          (AnswersUpload ambient.faults instrumentJobId))
        (uploadProfilesHandler ext settings ambient instrumentJobId upload).run
        (.idle ambient.uuid) := by
  have hrefuses : ∀ response, Refuses response →
      AnswersUpload ambient.faults instrumentJobId (.idle ambient.uuid) response := by
    intro response h
    exact ⟨trivial, fun haccepted => absurd haccepted h⟩
  unfold uploadProfilesHandler
  apply Stays.follows _ hrefuses
  . rintro ⟨_, token⟩
    apply Follows.bindExcept
      (Follows.liftExcept
        (uploadProfilesHandler.follows_getJobDetails ambient.uuid instrumentJobId token _))
    intro res phase hread
    unfold uploadProfilesHandler.Read at hread
    cases res with
    | error err =>
      have hphase : phase = .idle ambient.uuid := hread
      rw [hphase]
      exact hrefuses _ (refuses_text (by decide) _)
    | ok details? =>
      cases details? with
      | none =>
        have hphase : phase = .idle ambient.uuid := hread
        rw [hphase]
        exact hrefuses _ (refuses_text (by decide) _)
      | some details =>
        dsimp only at hread ⊢
        cases hverify : uploadProfilesHandler.verify details token with
        | error response =>
          rw [hverify] at hread
          have hphase : phase = .idle ambient.uuid := hread
          rw [hphase]
          exact hrefuses _ (uploadProfilesHandler.refuses_of_verify hverify)
        | ok _ =>
          rw [hverify] at hread
          have ⟨hphase, hid⟩ := hread
          rw [hphase]
          exact uploadProfilesHandler.follows_mergeAndSubmit rfl hid
            (uploadProfilesHandler.verify_eq_ok hverify).left
  . apply stays_authenticate
    . exact refuses_text (by decide) _
    . intro err
      cases err <;> exact refuses_text (by decide) _

def AnswersRequest (request : Request) (faults : Nat → Faults Stmt) (phase : Phase)
    (response : Response) : Prop :=
  match request with
  | .uploadProfiles id _ => AnswersUpload faults id phase response
  | _ => Answers faults phase response

theorem Stays.follows_idle {handler : Handler Response} (h : Stays ext Anyhow handler) (uuid : String)
    : Follows (Transition ext) (Until (Answers ambient.faults) (Answers ambient.faults)) handler.run (.idle uuid) := by
  apply (h (.idle uuid)).weaken
  intro phase res hphase
  cases res with
  | ok response =>
    have hphase : phase = .idle uuid := hphase
    rw [hphase]
    trivial
  | error response =>
    rw [hphase.left]
    trivial

theorem follows_respond {final : Phase → Response → Prop} {handler : Handler Response}
    {phase : Phase} (h : Follows (Transition ext) (Until final final) handler.run phase)
    : Follows (Transition ext) final handler.respond phase := by
  apply Follows.bind h
  intro res phase hres
  cases res <;> exact hres

theorem follows_route (request : Request)
    : Follows (Transition ext) (AnswersRequest request ambient.faults)
        (route ext settings request ambient).respond (.idle ambient.uuid) := by
  apply follows_respond
  cases request with
  | build payload => exact follows_buildHandler payload
  | forgeInstall params hardware => exact follows_forgeInstallHandler params hardware
  | uploadProfiles id upload => exact follows_uploadProfilesHandler id upload
  | getMergedProfile id => exact (stays_getMergedProfileHandler id).follows_idle _
  | status jobId => exact (stays_statusHandler jobId).follows_idle _
  | binary jobId => exact (stays_binaryHandler jobId).follows_idle _
  | listJobs => exact stays_listJobsHandler.follows_idle _
  | registerWebhook payload => exact (stays_registerWebhookHandler payload).follows_idle _
  | listWebhooks => exact stays_listWebhooksHandler.follows_idle _
  | deleteWebhook id => exact (stays_deleteWebhookHandler id).follows_idle _
  | createToken payload => exact (stays_createTokenHandler payload).follows_idle _
  | listTokens => exact stays_listTokensHandler.follows_idle _
  | deleteToken id => exact (stays_deleteTokenHandler id).follows_idle _

end Koval
