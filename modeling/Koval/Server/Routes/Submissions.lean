import Koval.Server.Routes.RouteFrames

/-!
This module contains the handlers up to their submission of a job, which is all that they do to the
jobs.
-/

namespace Koval

open Prog

variable {crates : Crates} {settings : Settings} {ambient : Ambient}

structure Aside (s s' : State) : Prop where
  jobs : s'.db.jobs = s.db.jobs
  waiting : s'.queue.jobs = s.queue.jobs
  deliveries : s'.deliveries = s.deliveries

theorem Still.aside {s s' : State} (h : Still s s') : Aside s s' :=
  ⟨congrArg Core.jobs h.core, congrArg Core.waiting h.core, h.deliveries⟩

theorem aside_of_runDb {α : Type} {program : DbM α} (h : Sql.Keeps Db.jobView program)
    {faults : Faults Stmt} {s s' : State} {res : Except SqlError α}
    (hrun : s.runDb faults program = (res, s'))
    : Aside s s' := by
  have ⟨hdb, hs⟩ := run_of_runDb hrun
  have hview := h faults s.db
  rw [hdb] at hview
  simp only [Db.jobView, Prod.mk.injEq] at hview
  rw [hs]
  exact ⟨hview.left, rfl, rfl⟩

theorem aside_lockDb {α : Type} {program : DbM α} (h : Sql.Keeps Db.jobView program)
    (faults : Faults Stmt)
    : Always Aside (lockDb faults program) := by
  apply always_atomic
  intro s
  exact aside_of_runDb h rfl

theorem aside_of_still {α : Type} {prog : Prog State α} (h : Always Still prog)
    : Always Aside prog :=
  h.mono fun _ _ h => h.aside

theorem aside_cacheLookup (tuple : BuildTuple) : Always Aside (cacheLookup crates ambient tuple) := by
  apply always_atomic
  intro s
  split
  . next hrun =>
    have h := aside_of_runDb (cacheLookup.keeps_go Db.jobView _) hrun
    split <;> exact ⟨h.jobs, h.waiting, h.deliveries⟩
  . next hrun => exact aside_of_runDb (cacheLookup.keeps_go Db.jobView _) hrun

theorem aside_profilesDir (instrumentJobId : String) (upload : Upload)
    : Always Aside
        (uploadProfilesHandler.profilesDir settings ambient upload instrumentJobId).run := by
  apply always_profilesDir
  . intro s
    exact ⟨rfl, rfl, rfl⟩
  . intro dir createdAt s
    have h := aside_of_runDb (Db.keeps_insertPgoProfile instrumentJobId dir.display createdAt)
      (Prod.eta ((s.perform (.createDirAll dir)).runDb (ambient.faults 2) _)).symm
    exact ⟨h.jobs, h.waiting, h.deliveries⟩

theorem aside_createTokenHandler (payload : TokenRequest)
    : Always Aside (createTokenHandler crates settings ambient payload).run := by
  unfold createTokenHandler
  apply Always.bindExcept (aside_of_still still_authenticateAdmin)
  intro _
  dsimp only
  split
  . exact always_throw _
  . apply Always.bindExcept (aside_lockDb (Db.keeps_insertToken _ _ _) _).liftExcept
    intro res
    split
    . exact always_pure _
    . exact always_throw _

theorem aside_deleteTokenHandler (id : Int)
    : Always Aside (deleteTokenHandler crates settings ambient id).run := by
  unfold deleteTokenHandler
  apply Always.bindExcept (aside_of_still still_authenticateAdmin)
  intro _
  apply Always.bindExcept (aside_lockDb (Db.keeps_revokeToken _) _).liftExcept
  intro res
  split
  . exact always_pure _
  . exact always_throw _

section Follows

variable {φ : Type} {trans : φ → State → φ → State → Prop} {phase : φ} {α : Type}

abbrev Proceeds (trans : φ → State → φ → State → Prop) (prog : Handler α) (phase : φ) : Prop :=
  Follows trans (Until (fun _ _ => True) fun _ _ => True) prog.run phase

theorem proceeds_pure (a : α) : Proceeds trans (pure a : Handler α) phase := follows_pure trivial

theorem proceeds_throw (response : Response)
    : Proceeds trans (throw response : Handler α) phase := follows_pure trivial

variable (haside : ∀ s s', Aside s s' → trans phase s phase s')
include haside

theorem proceeds_of_aside {prog : Handler α} (h : Always Aside prog.run)
    : Proceeds trans prog phase := by
  apply (h.follows haside).weaken
  intro _ res _
  cases res <;> trivial

theorem Proceeds.bind {prog : Handler α} {next : α → Handler Response} (h : Always Aside prog.run)
    (hnext : ∀ a, Proceeds trans (next a) phase)
    : Proceeds trans (prog >>= next) phase := by
  have hprog : Follows trans (Until (fun phase' _ => phase' = phase) fun _ _ => True) prog.run
      phase := by
    apply (h.follows haside).weaken
    intro _ res hphase
    cases res with
    | ok _ => exact hphase
    | error _ => trivial
  apply Follows.bindExcept hprog
  rintro a _ rfl
  exact hnext a

variable (hsubmit : ∀ job scope queuedAt insertError accept, job.id = ambient.uuid →
  Proceeds trans (submit crates ambient scope job queuedAt insertError accept) phase)
include hsubmit

theorem proceeds_buildHandler (payload : JobRequest)
    : Proceeds trans (buildHandler crates settings ambient payload) phase := by
  unfold buildHandler
  apply Proceeds.bind haside (aside_of_still (still_authenticate _))
  rintro ⟨_, token⟩
  dsimp only
  split
  . exact proceeds_throw _
  . apply Proceeds.bind haside
    . unfold buildHandler.lookup
      split
      . exact (aside_cacheLookup _).liftExcept
      . exact always_pure _
    . intro cached
      split
      . exact proceeds_pure _
      . exact hsubmit _ _ _ _ _ rfl

theorem proceeds_forgeInstallHandler (params : ForgeInstallParams) (hardware : HardwareProfile)
    : Proceeds trans (forgeInstallHandler crates settings ambient params hardware) phase := by
  unfold forgeInstallHandler
  apply Proceeds.bind haside (aside_of_still (still_authenticate _))
  rintro ⟨_, token⟩
  dsimp only
  split
  . exact proceeds_throw _
  . apply Proceeds.bind haside (aside_cacheLookup _).liftExcept
    intro cached
    split
    . exact proceeds_pure _
    . exact hsubmit _ _ _ _ _ rfl

theorem proceeds_uploadProfilesHandler (instrumentJobId : String) (upload : Upload)
    : Proceeds trans (uploadProfilesHandler crates settings ambient instrumentJobId upload) phase := by
  unfold uploadProfilesHandler
  apply Proceeds.bind haside (aside_of_still (still_authenticate _))
  rintro ⟨_, token⟩
  apply Proceeds.bind haside (aside_of_still (still_reading (Sql.keeps_query _ _ _) _)).liftExcept
  intro res
  split
  . exact proceeds_throw _
  . exact proceeds_throw _
  . split
    . exact proceeds_throw _
    . unfold uploadProfilesHandler.mergeAndSubmit
      apply Proceeds.bind haside (aside_profilesDir _ _)
      intro dir
      apply Proceeds.bind haside (aside_of_still (still_saveParts _ _ _ _))
      intro filesSaved
      split
      . exact proceeds_throw _
      . apply Proceeds.bind haside (aside_of_still (still_merge _ _ _))
        intro _
        apply Proceeds.bind haside (aside_lockDb (Db.keeps_updatePgoMergedPath _ _) _).liftExcept
        intro res
        split
        . exact proceeds_throw _
        . exact hsubmit _ _ _ _ _ rfl

theorem proceeds_route (request : Request)
    : Proceeds trans (route crates settings request ambient) phase := by
  have hstill : ∀ {handler : Handler Response}, Always Still handler.run →
      Proceeds trans handler phase :=
    fun h => proceeds_of_aside haside (aside_of_still h)
  cases request with
  | build payload => exact proceeds_buildHandler haside hsubmit payload
  | forgeInstall params hardware => exact proceeds_forgeInstallHandler haside hsubmit params hardware
  | uploadProfiles id upload => exact proceeds_uploadProfilesHandler haside hsubmit id upload
  | getMergedProfile id => exact hstill (still_getMergedProfileHandler id)
  | status jobId => exact hstill (still_statusHandler jobId)
  | binary jobId => exact hstill (still_binaryHandler jobId)
  | listJobs => exact hstill still_listJobsHandler
  | registerWebhook payload => exact hstill (still_registerWebhookHandler payload)
  | listWebhooks => exact hstill still_listWebhooksHandler
  | deleteWebhook id => exact hstill (still_deleteWebhookHandler id)
  | createToken payload => exact proceeds_of_aside haside (aside_createTokenHandler payload)
  | listTokens => exact hstill still_listTokensHandler
  | deleteToken id => exact proceeds_of_aside haside (aside_deleteTokenHandler id)

end Follows

theorem follows_handler_of {φ : Type} {trans : φ → State → φ → State → Prop} {phase : φ}
    {handler : Handler Response} (h : Proceeds trans handler phase)
    : Follows trans (fun _ _ => True)
        (do let response ← handler.respond
            pure (Answer.response response))
        phase := by
  apply Follows.bind (m := fun _ _ => True)
  . apply Follows.bind h
    intro res _ _
    split <;> exact follows_pure trivial
  . intro _ _ _
    exact follows_pure trivial

end Koval
