import Koval.Server.Frames
import Koval.Server.Worker.ProcessJob

/-!
This module contains the processing of a job as a thread in the life of jobs.
-/

namespace Koval
namespace processJob

open Prog

variable {ext : Crates} {settings : Settings} {externals : Externals} {job : Job} {α β : Type}

inductive MissesSource : String → Prop where
  | sourceJob : MissesSource "PGO optimize job missing source instrumentation job ID"
  | profile (pgoSourceId : String) :
    MissesSource ("No PGO profile record found for source job ID: " ++ pgoSourceId)
  | merged (pgoSourceId : String) :
    MissesSource ("PGO source job " ++ pgoSourceId ++ " profile data has not been merged")

theorem MissesSource.head? {errMsg : String} (h : MissesSource errMsg)
    : errMsg.toList.head? = some 'P' ∨ errMsg.toList.head? = some 'N' := by
  cases h with
  | sourceJob => exact .inl (by simp)
  | profile pgoSourceId => exact .inr (by simp)
  | merged pgoSourceId => exact .inl (by simp)

-- All other failures start differently.
theorem not_missesSource {errMsg : String}
    (h : ∃ c, errMsg.toList.head? = some c ∧ c ≠ 'P' ∧ c ≠ 'N')
    : ¬ MissesSource errMsg := by
  rcases h with ⟨c, hhead, hp, hn⟩
  intro hmisses
  have := hmisses.head?
  rw [hhead, Option.some.injEq, Option.some.injEq] at this
  rcases this with heq | heq
  . exact hp heq
  . exact hn heq

theorem not_missesSource_of_validateProjectUrl {url err : String}
    (h : validateProjectUrl url = some (.error err))
    : ¬ MissesSource err := by
  apply not_missesSource
  unfold validateProjectUrl at h
  dsimp only at h
  split at h
  . split at h
    . contradiction
    . split at h
      . injection h with h
        contradiction
      . injection h with h
        injection h with h
        simp [← h]
  . injection h with h
    injection h with h
    simp [← h]

theorem not_missesSource_of_validateGitRef {gitRef err : String}
    (h : validateGitRef gitRef = .error err)
    : ¬ MissesSource err := by
  apply not_missesSource
  refine ⟨'I', ?_, by decide⟩
  unfold validateGitRef at h
  split at h
  . injection h with h
    simp [← h]
  . split at h
    . injection h with h
      simp [← h]
    . split at h
      . injection h with h
        simp [← h]
      . split at h
        . injection h with h
          simp [← h]
        . split at h
          . injection h with h
            simp [← h]
          . dsimp only at h
            split at h
            . injection h with h
              simp [← h]
            . contradiction

theorem not_missesSource_of_detectBuildMode {cargoTomlContent err : String}
    {binary package : Option String}
    (h : detectBuildMode ext cargoTomlContent binary package = .error err)
    : ¬ MissesSource err := by
  apply not_missesSource
  unfold detectBuildMode at h
  split at h
  . contradiction
  . split at h
    . injection h with h
      simp [← h]
    . unfold detectBuildMode.ofValue at h
      dsimp only at h
      split at h
      . split at h <;> contradiction
      . split at h
        . split at h
          . injection h with h
            simp [← h]
          . split at h <;> contradiction
        . injection h with h
          simp [← h]

section Works

variable {φ : Type} {trans : φ → State → φ → State → Prop} {early : φ → Outcome → Prop} {phase : φ}

def Works (trans : φ → State → φ → State → Prop) (early : φ → Outcome → Prop) (phase : φ)
    (prog : Worker α) : Prop :=
  Follows trans (Until (fun phase' _ => phase' = phase) early) prog.run phase

/-- What has to be allowed between the start and the completion. -/
structure Rules (settings : Settings) (externals : Externals) (job : Job)
    (trans : φ → State → φ → State → Prop) (early : φ → Outcome → Prop) (phase : φ) : Prop where
  still : ∀ {s s' : State}, Still s s' → trans phase s phase s'
  ends : ∀ {outcome : Outcome}, outcome ≠ .ok → early phase outcome
  failJob : ∀ {α : Type} {errMsg : String}, ¬ MissesSource errMsg →
    Works trans early phase (failJob settings externals job errMsg : Worker α)

theorem works_pure (a : α) : Works trans early phase (pure a : Worker α) := follows_pure (by rfl)

theorem Works.bind {prog : Worker α} {next : α → Worker β} (h : Works trans early phase prog)
    (hnext : ∀ a, Works trans early phase (next a))
    : Works trans early phase (prog >>= next) := by
  apply Follows.bindExcept h
  rintro a _ rfl
  exact hnext a

namespace Rules

variable (rules : Rules settings externals job trans early phase)
include rules

theorem throws {outcome : Outcome} (h : outcome ≠ .ok)
    : Works trans early phase (throw outcome : Worker α) := follows_pure (rules.ends h)

theorem lift {prog : Prog State α} (h : Always Still prog)
    : Works trans early phase (ExceptT.lift prog : Worker α) := by
  apply Follows.liftExcept
  exact h.follows fun _ _ => rules.still

theorem runs (command : Command)
    : Works trans early phase (ExceptT.lift (perform (.run command)) : Worker Unit) := by
  apply rules.lift
  apply still_perform
  trivial

theorem atomicExcept {f : State → Except Outcome α × State} (h : ∀ s, Still s (f s).snd)
    (hearly : ∀ s outcome, (f s).fst = .error outcome → outcome ≠ .ok)
    : Works trans early phase (ExceptT.mk (atomic f) : Worker α) := by
  apply follows_atomic
  intro s
  refine ⟨phase, rules.still (h s), ?_⟩
  cases hres : (f s).fst with
  | ok a => rfl
  | error outcome => exact rules.ends (hearly s outcome hres)

theorem works_expectSuccess (command : Command) {errMsg : String} (herr : ¬ MissesSource errMsg)
    : Works trans early phase (expectSuccess settings externals job command errMsg) := by
  unfold expectSuccess
  apply Works.bind (rules.runs _)
  intro _
  split
  . split
    . exact works_pure _
    . exact rules.failJob herr
  . exact rules.failJob herr

theorem works_fetchSource : Works trans early phase (fetchSource settings externals job) := by
  unfold fetchSource
  split
  . apply rules.throws
    simp
  . next herr => exact rules.failJob (not_missesSource_of_validateProjectUrl herr)
  . apply Works.bind (rules.works_expectSuccess _ (not_missesSource (by simp)))
    intro _
    split
    . next herr => exact rules.failJob (not_missesSource_of_validateGitRef herr)
    . exact rules.works_expectSuccess _ (not_missesSource (by simp))

theorem works_loadConfig : Works trans early phase (loadConfig ext settings externals job) := by
  unfold loadConfig
  dsimp only
  split
  . split
    . exact rules.failJob (not_missesSource (by simp))
    . split
      . exact rules.failJob (not_missesSource (by simp))
      . exact works_pure _
  . exact works_pure _

theorem works_loadMode : Works trans early phase (loadMode ext settings externals job) := by
  unfold loadMode
  dsimp only
  split
  . exact rules.failJob (not_missesSource (by simp))
  . split
    . exact rules.failJob (not_missesSource (by simp))
    . split
      . next herr => exact rules.failJob (not_missesSource_of_detectBuildMode herr)
      . exact works_pure _

theorem works_mergedFile (path : String)
    : Works trans early phase
        (do let mergedPath := Path.ofString path
            if !(← ExceptT.lift (Prog.atomic fun (s : State) => (s.exists? mergedPath, s))) then
              processJob.failJob settings externals job
                ("Merged profile data at " ++ mergedPath.display ++ " does not exist")
            else
              pure mergedPath) := by
  apply Works.bind
  . apply rules.lift
    apply always_atomic
    intro s
    exact ⟨spares_refl s, rfl⟩
  . intro doesExist
    split
    . exact rules.failJob (not_missesSource (by simp))
    . exact works_pure _

theorem works_rustflags
    (hmisses : ∀ {α : Type} {errMsg : String}, MissesSource errMsg →
      Works trans early phase (processJob.failJob settings externals job errMsg : Worker α))
    (config : BuildConfig)
    : Works trans early phase (rustflags settings externals job config) := by
  unfold rustflags
  split
  . exact works_pure _
  . exact works_pure _
  . split
    . exact hmisses .sourceJob
    . apply Works.bind
      . unfold mergedPath
        apply Works.bind (rules.lift (still_reading (Sql.keeps_query _ _ _) _))
        intro res
        split
        . exact rules.failJob (not_missesSource (by simp))
        . exact hmisses (.profile _)
        . split
          . exact hmisses (.merged _)
          . exact rules.works_mergedFile _
      . intro _
        exact works_pure _

theorem works_compile (command : Command)
    : Works trans early phase (compile settings externals job command) := by
  unfold compile
  apply Works.bind (rules.runs _)
  intro _
  split
  . split
    . exact works_pure _
    . exact rules.failJob (not_missesSource (by simp))
  . exact rules.failJob (not_missesSource (by simp))

theorem works_expectTar (args : List String) {errMsg : String} (herr : ¬ MissesSource errMsg)
    : Works trans early phase (expectTar settings externals job args errMsg) := by
  unfold expectTar
  apply Works.bind
  . apply rules.lift
    apply always_atomic
    intro s
    dsimp only
    split <;> exact ⟨⟨s.db.spares_refl, rfl⟩, rfl⟩
  . intro _
    split
    . split
      . exact works_pure _
      . exact rules.failJob herr
    . exact rules.failJob herr

theorem works_orErr (value : Option α) (msg : String) : Works trans early phase (orErr value msg) := by
  unfold orErr
  split
  . exact works_pure _
  . exact rules.throws Outcome.noConfusion

theorem works_pack (mode : BuildMode) : Works trans early phase (pack settings externals job mode) := by
  have hbinaries : Works trans early phase (packBinaries settings externals job) := by
    unfold packBinaries
    dsimp only
    split
    . exact rules.failJob (not_missesSource (by simp))
    . split
      . exact rules.failJob (not_missesSource (by simp))
      . apply Works.bind (rules.works_orErr _ _)
        intro archiveStr
        apply Works.bind (rules.works_orErr _ _)
        intro releaseStr
        apply Works.bind (rules.works_orErr _ _)
        intro names
        exact rules.works_expectTar _ (not_missesSource (by simp))
  have hbinary : ∀ name, Works trans early phase (packBinary settings externals job name) := by
    intro name
    unfold packBinary
    dsimp only
    split
    . exact rules.failJob (not_missesSource (by simp))
    . exact rules.works_expectTar _ (not_missesSource (by simp))
  cases mode with
  | workspace | packageInWorkspace _ | multiBin => exact hbinaries
  | specificBinary name | singlePackage name => exact hbinary name

theorem works_tryIo (fault : Option IoError) (path : Path)
    : Works trans early phase (tryIo fault path) := by
  apply rules.atomicExcept
  . intro s
    split <;> exact ⟨spares_refl s, rfl⟩
  . intro s outcome
    split
    . rintro ⟨⟩
      simp
    . intro hok
      contradiction
    . rintro ⟨⟩
      simp

theorem works_measure : Works trans early phase (measure ext settings externals job) := by
  unfold measure
  apply Works.bind (rules.works_tryIo _ _)
  intro file
  split
  . exact rules.throws Outcome.noConfusion
  . apply Works.bind (rules.works_tryIo _ _)
    intro stat
    exact works_pure _

end Rules

theorem follows_processJob_of {initial finished : φ}
    (rules : Rules settings externals job trans early phase)
    (hrustflags : ∀ config, Works trans early phase (rustflags settings externals job config))
    (hstart : Follows trans (Until (fun phase' _ => phase' = phase) early)
      (start settings externals job).run initial)
    (hcomplete : ∀ fileSize sha256,
      Follows trans (Until (fun phase' _ => phase' = finished) early)
        (complete ext settings externals job fileSize sha256).run phase)
    (hstill : ∀ s s', Still s s' → trans finished s finished s') (hok : early finished .ok)
    : Follows trans early (processJob ext settings externals job) initial := by
  have hgo : Follows trans (Until (fun phase' _ => phase' = finished) early)
      (go ext settings externals job).run initial := by
    unfold go
    apply Follows.bindExcept hstart
    rintro _ _ rfl
    apply Follows.bindExcept rules.works_fetchSource
    rintro _ _ rfl
    apply Follows.bindExcept rules.works_loadConfig
    rintro config _ rfl
    apply Follows.bindExcept rules.works_loadMode
    rintro mode _ rfl
    apply Follows.bindExcept (hrustflags _)
    rintro rustflags _ rfl
    apply Follows.bindExcept (rules.works_compile _)
    rintro _ _ rfl
    apply Follows.bindExcept (rules.works_pack _)
    rintro _ _ rfl
    apply Follows.bindExcept rules.works_measure
    rintro ⟨fileSize, sha256⟩ _ rfl
    apply Follows.bindExcept (hcomplete _ _)
    rintro _ _ rfl
    have hlast : Always Still (perform (.removeDirAll (buildDir settings job))) := still_perform trivial
    exact Follows.liftExcept (hlast.follows hstill)
  apply Follows.bind hgo
  intro res phase' hres
  cases res with
  | ok _ =>
    have hphase : phase' = finished := hres
    rw [hphase]
    exact hok
  | error outcome => exact hres

end Works

def EndsWith (job : Job) (phase : Phase) (outcome : Outcome) : Prop :=
  match outcome with
  | .ok => phase = .finished job
  | .err _ | .panicked => phase = .received job ∨ phase = .building job

-- The same in the life of jobs

def Builds (ext : Crates) (job : Job) (prog : Worker α) : Prop :=
  Works (Transition ext) (EndsWith job) (.building job) prog

theorem builds_lift {prog : Prog State α} (h : Quiet ext prog)
    : Builds ext job (ExceptT.lift prog : Worker α) := Follows.liftExcept (h (.building job))

theorem quiet_deliver (payload : WebhookPayload) (webhooks : List (String × String))
    : Quiet ext (deliver payload webhooks) := by
  unfold deliver
  split
  . exact quiet_pure _
  . exact quiet_perform _

theorem builds_failJob (errMsg : String)
    : Builds ext job (failJob settings externals job errMsg : Worker α) := by
  unfold failJob
  apply Works.bind (builds_lift (quiet_lockDb (Sql.keeps_query _ _ _) _))
  intro webhooks
  apply Follows.bindExcept (Follows.liftExcept (follows_updateJobStatus (.fail job _ _) _))
  intro res phase hres
  cases res with
  | error err => exact .inr hres.left
  | ok _ =>
    have hphase : phase = .finished job := hres
    rw [hphase]
    apply Follows.bindExcept (Follows.liftExcept (quiet_perform _ (.finished job)))
    rintro _ phase rfl
    apply Follows.bindExcept (Follows.liftExcept (quiet_deliver _ _ (.finished job)))
    rintro _ phase rfl
    exact follows_pure (by rfl)

namespace complete

theorem run_go_cases {finishedStr : String} {fileSize : Nat} {sha256 : String} {faults : Faults Stmt}
    {s s' : State} {res : Except SqlError Unit}
    (h : s.runDb faults (go ext settings job finishedStr fileSize sha256) = (res, s'))
    : ∃ artifact : ArtifactRow, artifact.jobId = job.id ∧
        ((res = .ok () ∧ s'.core =
          ((s.core.setArtifact artifact).setCache
            ⟨job.tuple.cacheKey ext, job.id, finishedStr⟩).setStatus job.id .done none
              (some finishedStr) none)
          ∨
        (∃ err, res = .error err ∧
          (s'.core = s.core
            ∨ s'.core = s.core.setArtifact artifact
            ∨ s'.core = (s.core.setArtifact artifact).setCache
                ⟨job.tuple.cacheKey ext, job.id, finishedStr⟩))) := by
  have ⟨hdb, hs⟩ := run_of_runDb h
  refine ⟨⟨job.id, (archivePath settings job).display, fileSize, sha256⟩, rfl, ?_⟩
  rw [hs]
  rcases Sql.run_bind_cases hdb with ⟨_, mid, hartifact, hdb⟩ | ⟨err, hartifact, hres⟩
  . rcases Db.run_insertArtifact_cases hartifact with ⟨_, rfl⟩ | ⟨err, herr, _⟩
    . rcases Sql.run_bind_cases hdb with ⟨_, mid, hcache, hdb⟩ | ⟨err, hcache, hres⟩
      . rcases Db.run_insertCacheEntry_cases hcache with ⟨_, rfl⟩ | ⟨err, herr, _⟩
        . rcases Db.run_updateJobStatus_cases hdb with ⟨hres, hdb⟩ | ⟨msg, _, hres, hdb⟩
          . rw [hdb]
            exact .inl ⟨hres, rfl⟩
          . rw [hdb]
            exact .inr ⟨_, hres, .inr (.inr rfl)⟩
        . contradiction
      . rcases Db.run_insertCacheEntry_cases hcache with ⟨hok, _⟩ | ⟨_, _, hdb⟩
        . contradiction
        . rw [hdb]
          exact .inr ⟨err, hres, .inr (.inl rfl)⟩
    . contradiction
  . rcases Db.run_insertArtifact_cases hartifact with ⟨hok, _⟩ | ⟨_, _, hdb⟩
    . contradiction
    . rw [hdb]
      exact .inr ⟨err, hres, .inl rfl⟩

end complete

theorem follows_complete (fileSize : Nat) (sha256 : String)
    : Follows (Transition ext) (Until (fun phase _ => phase = .finished job) (EndsWith job))
        (complete ext settings externals job fileSize sha256).run (.building job) := by
  unfold complete
  apply Follows.bindExcept (builds_lift (quiet_lockDb (Sql.keeps_query _ _ _) _))
  rintro webhooks phase rfl
  apply Follows.bindExcept
    (m := fun phase (res : Except SqlError Unit) =>
      if res.isOk then phase = .finished job else phase = .building job)
  . apply Follows.liftExcept
    apply follows_atomic
    intro s
    dsimp only
    cases hrun : s.runDb (externals.faults 3)
        (complete.go ext settings job externals.finished.toRfc3339 fileSize sha256) with
    | mk res s' =>
      rcases complete.run_go_cases hrun with
        ⟨artifact, hid, ⟨rfl, hcore⟩ | ⟨err, rfl, hcore | hcore | hcore⟩⟩
      . refine ⟨.finished job, ?_, rfl⟩
        apply Transition.complete hid
        rw [← hcore]
        rfl
      . exact ⟨.building job, .quiet (.stay _) hcore, rfl⟩
      . exact ⟨.building job, .storeArtifact hid hcore, rfl⟩
      . exact ⟨.building job, .storeCache hid hcore, rfl⟩
  . intro res phase hres
    cases res with
    | error err => exact .inr hres
    | ok _ =>
      have hphase : phase = .finished job := hres
      rw [hphase]
      exact Follows.liftExcept (quiet_deliver _ _ (.finished job))

theorem rules_builds
    : Rules settings externals job (Transition ext) (EndsWith job) (.building job) where
  still h := .quiet (.stay _) h.core
  ends := by
    intro outcome h
    cases outcome with
    | ok => contradiction
    | err msg => exact .inr rfl
    | panicked => exact .inr rfl
  failJob _ := builds_failJob _

theorem follows_start_of {early : Phase → Outcome → Prop}
    (hearly : ∀ msg errMsg, externals.faults 0 .updateJobStatus = some msg →
      early (.received job) (.err errMsg))
    : Follows (Transition ext) (Until (fun phase _ => phase = .building job) early)
        (start settings externals job).run (.received job) := by
  unfold start
  apply Follows.bindExcept (Follows.liftExcept (follows_updateJobStatus (.start job _) _))
  intro res phase hres
  cases res with
  | error err =>
    rcases hres with ⟨hphase, msg, hfault⟩
    rw [hphase]
    exact hearly msg _ hfault
  | ok _ =>
    have hphase : phase = .building job := hres
    rw [hphase]
    dsimp only [tryDb]
    apply Works.bind (works_pure _)
    intro _
    split
    . exact Follows.liftExcept (quiet_perform _ (.building job))
    . exact works_pure _

theorem follows_start
    : Follows (Transition ext) (Until (fun phase _ => phase = .building job) (EndsWith job))
        (start settings externals job).run (.received job) :=
  follows_start_of fun _ _ _ => .inl rfl

end processJob

theorem follows_processJob (ext : Crates) (settings : Settings) (externals : Externals) (job : Job)
    : Prog.Follows (Transition ext) (processJob.EndsWith job)
        (processJob ext settings externals job) (.received job) := by
  apply processJob.follows_processJob_of processJob.rules_builds
    (processJob.rules_builds.works_rustflags fun _ => processJob.builds_failJob _)
    processJob.follows_start processJob.follows_complete
  . intro s s' h
    exact .quiet (.stay _) h.core
  . rfl

end Koval
