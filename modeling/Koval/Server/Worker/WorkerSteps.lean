import Koval.Server.Worker.ProcessJobLemmas

/-!
This module contains the processing of a job by the exact effect of its steps: most touch nothing
but the build directory, `tar` writes the archive, and only the start, the completion and the failures
write into the database.
-/

namespace Koval

open Prog

structure Aloof (s s' : State) : Prop where
  db : s'.db = s.db
  queue : s'.queue = s.queue
  files : s'.files = s.files
  history : s'.history = s.history
  deliveries : s'.deliveries = s.deliveries

theorem aloof_refl (s : State) : Aloof s s := ⟨rfl, rfl, rfl, rfl, rfl⟩

theorem aloof_perform {effect : Effect} (h : effect.IsLocal) (s : State)
    : Aloof s (s.perform effect) := ⟨rfl, rfl, rfl, rfl, deliveries_perform h s⟩

namespace processJob

variable {ext : Crates} {settings : Settings} {externals : Externals} {job : Job} {α β : Type}
  {φ : Type} {trans : φ → State → φ → State → Prop} {early : φ → Outcome → Prop} {phase : φ}

def afterTar (settings : Settings) (externals : Externals) (job : Job) (s : State) : State :=
  match externals.archive with
  | some content => s.write (archivePath settings job) content
  | none => s

/-- What has to be allowed between the start and the measurement of the archive. -/
structure Steps (settings : Settings) (externals : Externals) (job : Job)
    (trans : φ → State → φ → State → Prop) (early : φ → Outcome → Prop) (phase : φ) : Prop where
  aloof : ∀ {s s' : State}, Aloof s s' → trans phase s phase s'
  tar : ∀ {s mid : State}, Aloof s mid → trans phase s phase (afterTar settings externals job mid)
  ends : ∀ {outcome : Outcome}, outcome ≠ .ok → early phase outcome
  failJob : ∀ {α : Type} (errMsg : String),
    Works trans early phase (failJob settings externals job errMsg : Worker α)

theorem works_perform {effect : Effect} (h : effect.IsLocal)
    (haloof : ∀ {s s' : State}, Aloof s s' → trans phase s phase s')
    : Works trans early phase (ExceptT.lift (perform effect) : Worker Unit) := by
  apply Follows.liftExcept
  apply follows_atomic
  intro s
  exact ⟨phase, haloof (aloof_perform h s), rfl⟩

namespace Steps

variable (steps : Steps settings externals job trans early phase)
include steps

theorem throws {outcome : Outcome} (h : outcome ≠ .ok)
    : Works trans early phase (throw outcome : Worker α) := follows_pure (steps.ends h)

theorem runs (command : Command)
    : Works trans early phase (ExceptT.lift (perform (.run command)) : Worker Unit) :=
  works_perform trivial steps.aloof

theorem reads (select : State → α)
    : Works trans early phase (ExceptT.lift (atomic fun s => (select s, s)) : Worker α) := by
  apply Follows.liftExcept
  apply follows_atomic
  intro s
  exact ⟨phase, steps.aloof (aloof_refl s), rfl⟩

theorem queries (tag : Stmt) (select : Db → α) (faults : Faults Stmt)
    : Works trans early phase
        (ExceptT.lift (lockDb faults (Sql.query tag select)) : Worker (Except SqlError α)) := by
  apply Follows.liftExcept
  apply follows_atomic
  intro s
  refine ⟨phase, steps.aloof ?_, rfl⟩
  rw [runDb_query]
  exact aloof_refl s

theorem works_expectSuccess (command : Command) (errMsg : String)
    : Works trans early phase (expectSuccess settings externals job command errMsg) := by
  unfold expectSuccess
  apply Works.bind (steps.runs _)
  intro _
  split
  . split
    . exact works_pure _
    . exact steps.failJob _
  . exact steps.failJob _

theorem works_fetchSource : Works trans early phase (fetchSource settings externals job) := by
  unfold fetchSource
  split
  . exact steps.throws Outcome.noConfusion
  . exact steps.failJob _
  . apply Works.bind (steps.works_expectSuccess _ _)
    intro _
    split
    . exact steps.failJob _
    . exact steps.works_expectSuccess _ _

theorem works_loadConfig : Works trans early phase (loadConfig ext settings externals job) := by
  unfold loadConfig
  dsimp only
  split
  . split
    . exact steps.failJob _
    . split
      . exact steps.failJob _
      . exact works_pure _
  . exact works_pure _

theorem works_loadMode : Works trans early phase (loadMode ext settings externals job) := by
  unfold loadMode
  dsimp only
  split
  . exact steps.failJob _
  . split
    . exact steps.failJob _
    . split
      . exact steps.failJob _
      . exact works_pure _

theorem works_mergedPath (pgoSourceId : String)
    : Works trans early phase (mergedPath settings externals job pgoSourceId) := by
  unfold mergedPath
  apply Works.bind (steps.queries _ _ _)
  intro res
  split
  . exact steps.failJob _
  . exact steps.failJob _
  . split
    . exact steps.failJob _
    . apply Works.bind (steps.reads _)
      intro doesExist
      split
      . exact steps.failJob _
      . exact works_pure _

theorem works_rustflags (config : BuildConfig)
    : Works trans early phase (rustflags settings externals job config) := by
  unfold rustflags
  split
  . exact works_pure _
  . exact works_pure _
  . split
    . exact steps.failJob _
    . apply Works.bind (steps.works_mergedPath _)
      intro _
      exact works_pure _

theorem works_compile (command : Command)
    : Works trans early phase (compile settings externals job command) := by
  unfold compile
  apply Works.bind (steps.runs _)
  intro _
  split
  . split
    . exact works_pure _
    . exact steps.failJob _
  . exact steps.failJob _

theorem works_expectTar (args : List String) (errMsg : String)
    : Works trans early phase (expectTar settings externals job args errMsg) := by
  unfold expectTar
  apply Works.bind
  . apply Follows.liftExcept
    apply follows_atomic
    intro s
    refine ⟨phase, ?_, rfl⟩
    have haloof : Aloof s (s.perform (.run { program := "tar", args := args.map Path.ofString })) :=
      aloof_perform (by trivial) s
    have htar := steps.tar haloof
    unfold afterTar at htar
    dsimp only
    split
    . next harchive =>
      rw [harchive] at htar
      exact htar
    . next harchive =>
      rw [harchive] at htar
      exact htar
  . intro _
    split
    . split
      . exact works_pure _
      . exact steps.failJob _
    . exact steps.failJob _

theorem works_orErr (value : Option α) (msg : String)
    : Works trans early phase (orErr value msg) := by
  unfold orErr
  split
  . exact works_pure _
  . exact steps.throws Outcome.noConfusion

theorem works_packBinaries : Works trans early phase (packBinaries settings externals job) := by
  unfold packBinaries
  dsimp only
  split
  . exact steps.failJob _
  . split
    . exact steps.failJob _
    . apply Works.bind (steps.works_orErr _ _)
      intro archiveStr
      apply Works.bind (steps.works_orErr _ _)
      intro releaseStr
      apply Works.bind (steps.works_orErr _ _)
      intro names
      exact steps.works_expectTar _ _

theorem works_packBinary (name : String)
    : Works trans early phase (packBinary settings externals job name) := by
  unfold packBinary
  dsimp only
  split
  . exact steps.failJob _
  . exact steps.works_expectTar _ _

theorem works_pack (mode : BuildMode)
    : Works trans early phase (pack settings externals job mode) := by
  cases mode with
  | workspace | packageInWorkspace _ | multiBin => exact steps.works_packBinaries
  | specificBinary name | singlePackage name => exact steps.works_packBinary name

theorem follows_processJob {initial finished : φ} {measured : φ → Nat × String → Prop}
    (hstart : Follows trans (Until (fun phase' _ => phase' = phase) early)
      (start settings externals job).run initial)
    (hmeasure : Follows trans (Until measured early) (measure ext settings externals job).run phase)
    (hcomplete : ∀ fileSize sha256 phase', measured phase' (fileSize, sha256) →
      Follows trans (Until (fun phase'' _ => phase'' = finished) early)
        (complete ext settings externals job fileSize sha256).run phase')
    (hlast : ∀ {s s' : State}, Aloof s s' → trans finished s finished s')
    (hok : early finished .ok)
    : Follows trans early (processJob ext settings externals job) initial := by
  have hgo : Follows trans (Until (fun phase' _ => phase' = finished) early)
      (go ext settings externals job).run initial := by
    unfold go
    apply Follows.bindExcept hstart
    rintro _ _ rfl
    apply Follows.bindExcept steps.works_fetchSource
    rintro _ _ rfl
    apply Follows.bindExcept steps.works_loadConfig
    rintro config _ rfl
    apply Follows.bindExcept steps.works_loadMode
    rintro mode _ rfl
    apply Follows.bindExcept (steps.works_rustflags _)
    rintro rustflags _ rfl
    apply Follows.bindExcept (steps.works_compile _)
    rintro _ _ rfl
    apply Follows.bindExcept (steps.works_pack _)
    rintro _ _ rfl
    apply Follows.bindExcept hmeasure
    rintro ⟨fileSize, sha256⟩ phase' hmeasured
    apply Follows.bindExcept (hcomplete _ _ _ hmeasured)
    rintro _ _ rfl
    exact works_perform trivial hlast
  apply Follows.bind hgo
  intro res phase' hres
  cases res with
  | ok _ =>
    have hphase : phase' = finished := hres
    rw [hphase]
    exact hok
  | error outcome => exact hres

end Steps

end processJob
end Koval
