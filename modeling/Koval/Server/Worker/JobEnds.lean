import Koval.Conc.Course
import Koval.Server.JobLife
import Koval.Server.Samples

/-!
This module contains how the processing of a job ends, for all outcomes of what it calls.
-/

namespace Koval
namespace processJob

variable (crates : Crates) (settings : Settings) (externals : Externals) (job : Job)

-- What decides how far the processing comes.

def succeeds (command : Command) : Bool :=
  match externals.status command with
  | .ok status => status.success
  | .error _ => false

def fetches : Bool :=
  succeeds externals (cloneCommand settings job)
    && ((validateGitRef job.gitRef).isOk && succeeds externals (checkoutCommand settings job))

def config? : Option BuildConfig :=
  let kovalTomlPath := (buildDir settings job).join (.ofString "koval.toml")
  if externals.exists? kovalTomlPath then
    match externals.readToString kovalTomlPath with
    | .error _ => none
    | .ok content =>
      match crates.kovalTomlFromStr content with
      | .error _ => none
      | .ok config => some (buildConfig job.hardware config)
  else
    some (buildConfig job.hardware default)

def mode? : Option BuildMode :=
  let cargoTomlPath := (buildDir settings job).join (.ofString "Cargo.toml")
  if !externals.exists? cargoTomlPath then
    none
  else
    match externals.readToString cargoTomlPath with
    | .error _ => none
    | .ok content =>
      match detectBuildMode crates content job.binary job.package with
      | .error _ => none
      | .ok mode => some mode

def usableProfile (s : State) : Option Path :=
  (((job.pgoSourceJobId.bind s.db.pgoProfiles.find?).bind (·.mergedPath)).map Path.ofString).filter
    s.exists?

def rustflags? (usable : Option Path) (config : BuildConfig) : Option String :=
  match job.jobType with
  | .standard => some config.rustflags
  | .pgoInstrument =>
    some (pushFlags config.rustflags (instrumentFlags job.id settings.artifactsDir))
  | .pgoOptimize =>
    if (externals.faults 1 .getPgoProfile).isSome then
      none
    else
      usable.map fun path => pushFlags config.rustflags (optimizeFlags path)

def compiles (command : Command) : Bool :=
  match externals.runCargoBuild command (externals.buildTimeoutSecs.getD 3600) with
  | .ok output => output.status.success
  | .error _ => false

def compiled? (usable : Option Path) : Option BuildMode :=
  if validateProjectUrl job.project = some (.ok ()) ∧ fetches settings externals job then do
    let config ← config? crates settings externals job
    let mode ← mode? crates settings externals job
    let rustflags ← rustflags? settings externals job usable config
    if compiles externals (cargoCommand settings job config mode rustflags) then some mode else none
  else
    none

def binaries? : Option (List Path) :=
  match externals.readDir (releaseDir settings job) with
  | .error _ => none
  | .ok entries =>
    if binaries settings job entries = [] then none else some (binaries settings job entries)

def tars (args : List String) : Bool :=
  succeeds externals { program := "tar", args := args.map Path.ofString }

def pathsReadable : Bool :=
  (Utf8.toStr (archivePath settings job)).isSome && (Utf8.toStr (releaseDir settings job)).isSome

-- What is in the place of the archive after `tar`.
def archived (file : Option FileRow) : Option FileRow :=
  match externals.archive with
  | some content => some ⟨archivePath settings job, content⟩
  | none => file

def packsBinaries : Bool :=
  (binaries? settings externals job).any fun binaries =>
    match Utf8.toStr (archivePath settings job), Utf8.toStr (releaseDir settings job),
      binaries.mapM fun bin => bin.fileName.bind Utf8.toStr with
    | some archiveStr, some releaseStr, some names =>
      tars externals (["-czf", archiveStr, "-C", releaseStr] ++ names)
    | _, _, _ => false

def packsBinary (name : String) : Bool :=
  externals.exists? ((releaseDir settings job).join (.ofString name))
    && tars externals ["-czf", (archivePath settings job).display, "-C",
      (releaseDir settings job).display, name]

def packsAll (mode : BuildMode) : Bool :=
  match mode with
  | .workspace | .packageInWorkspace _ | .multiBin => true
  | .specificBinary _ | .singlePackage _ => false

def packed (mode : BuildMode) : Bool :=
  match mode with
  | .workspace | .packageInWorkspace _ | .multiBin => packsBinaries settings externals job
  | .specificBinary name | .singlePackage name => packsBinary settings externals job name

def unlessFault {α : Type} (fault : Option IoError) (value : Option α) : Option α :=
  match fault with
  | some _ => none
  | none => value

-- The size and the digest of the archive.
def measured? (file : Option FileRow) : Option (Nat × String) :=
  unlessFault externals.openFault <| unlessFault externals.readFault <|
    unlessFault externals.metadataFault <|
      file.map fun row => (row.content.length, crates.sha256 row.content)

def stored? : Option Unit :=
  if externals.faults 3 .insertArtifact = none ∧ externals.faults 3 .insertCacheEntry = none then
    some ()
  else
    none

/-- The archive can be opened, read and measured, and is stored with the key of the job. -/
structure Stores (file : Option FileRow) : Prop where
  opens : externals.openFault = none
  reads : externals.readFault = none
  measures : externals.metadataFault = none
  exists? : externals.archive.isSome ∨ file.isSome
  insertArtifact : externals.faults 3 .insertArtifact = none
  insertCacheEntry : externals.faults 3 .insertCacheEntry = none

/-- No exit of the processing is taken that leaves the status as it is. -/
structure EndsWell (usable : Option Path) (file : Option FileRow) : Prop where
  url : validateProjectUrl job.project ≠ none
  paths : ∀ mode, compiled? crates settings externals job usable = some mode →
    packsAll mode → (binaries? settings externals job).isSome → pathsReadable settings job
  stores : ∀ mode, compiled? crates settings externals job usable = some mode →
    packed settings externals job mode → Stores externals file

/-- A run in the directory, which may be the one that creates it. -/
def RunsIn (dir : Path) (effect : Effect) : Prop :=
  match effect with
  | .run command => command.currentDir = some dir ∨ .ofString dir.display ∈ command.args
  | _ => False

def packCourse (mode : BuildMode) : Course Unit :=
  if packsAll mode && (binaries? settings externals job).isSome && !pathsReadable settings job then
    .breaks
  else
    .ofBool (packed settings externals job mode)

def finish (file : Option FileRow) (mode : BuildMode) : Course Unit :=
  (packCourse settings externals job mode).bind fun _ =>
    (Course.orBreaks (measured? crates externals (archived settings externals job file))).bind
      fun _ => (Course.orBreaks (stored? externals)).bind fun _ => .goesOn ()

def fetchCourse : Course Unit :=
  if validateProjectUrl job.project = none then
    .breaks
  else
    .ofBool (validateProjectUrl job.project = some (.ok ()) && fetches settings externals job)

def course (usable : Option Path) (file : Option FileRow) : Course Unit :=
  (fetchCourse settings externals job).bind fun _ =>
    (Course.ofOption (config? crates settings externals job)).bind fun config =>
      (Course.ofOption (mode? crates settings externals job)).bind fun mode =>
        (Course.ofOption (rustflags? settings externals job usable config)).bind fun rustflags =>
          (Course.ofBool
              (compiles externals (cargoCommand settings job config mode rustflags))).bind
            fun _ => finish crates settings externals job file mode

/-- What others may do meanwhile: anything but touch the job and what it reads. -/
structure Undisturbed (s s' : State) : Prop where
  row : s'.db.jobs.find? job.id = s.db.jobs.find? job.id
  profile : job.pgoSourceJobId.bind s'.db.pgoProfiles.find?
    = job.pgoSourceJobId.bind s.db.pgoProfiles.find?
  usable : usableProfile job s' = usableProfile job s
  archive : s'.files.find? (archivePath settings job) = s.files.find? (archivePath settings job)
  effects : ∃ others, s'.effects = others ++ s.effects
    ∧ ∀ effect ∈ others, ¬RunsIn (buildDir settings job) effect

/-- Since `s₀` and the last run in it, the removal of the build directory has been attempted. -/
def IsCleaned (s₀ s : State) : Prop :=
  ∃ after before, s.effects = after ++ .removeDirAll (buildDir settings job) :: before
    ∧ (∀ effect ∈ after, ¬RunsIn (buildDir settings job) effect) ∧ s₀.effects <:+ before

def IsSettled (s : State) : Prop :=
  ∃ row, s.db.jobs.find? job.id = some row ∧ row.status.IsSettled ∧ row.finishedAt.isSome

structure HasEnded (s₀ s : State) : Prop where
  settled : IsSettled job s
  cleaned : IsCleaned settings job s₀ s

def IsBuilding (s : State) : Prop := s.core.statusOf job.id = some .building

structure During (s₀ : State) (file : Option FileRow) (s : State) : Prop where
  building : IsBuilding job s
  archive : s.files.find? (archivePath settings job) = file
  effects : s₀.effects <:+ s.effects

structure BeforePack (s₀ : State) (file : Option FileRow) (profile : Option PgoProfileRow)
    (usable : Option Path) (s : State) : Prop extends During settings job s₀ file s where
  profile : job.pgoSourceJobId.bind s.db.pgoProfiles.find? = profile
  usable : usableProfile job s = usable

structure AtStart (s₀ : State) (file : Option FileRow) (profile : Option PgoProfileRow)
    (usable : Option Path) (s : State) : Prop where
  queued : s.core.statusOf job.id = some .queued
  archive : s.files.find? (archivePath settings job) = file
  effects : s₀.effects <:+ s.effects
  profile : job.pgoSourceJobId.bind s.db.pgoProfiles.find? = profile
  usable : usableProfile job s = usable

structure AfterUpdate (s₀ s : State) : Prop where
  settled : IsSettled job s
  effects : s₀.effects <:+ s.effects

abbrev Goes {α : Type} (s₀ : State) (P : State → Prop) (prog : Worker α) (course : Course α)
    (Q : State → Prop) : Prop :=
  Prog.Takes (Undisturbed settings job) (HasEnded settings job s₀) (IsBuilding job) P prog course Q

variable {crates settings externals job} {s₀ : State} {file : Option FileRow}
  {profile : Option PgoProfileRow} {usable : Option Path} {P Q R : State → Prop} {α β : Type}

theorem undisturbed_refl (s : State) : Undisturbed settings job s s where
  row := rfl
  profile := rfl
  usable := rfl
  archive := rfl
  effects := ⟨[], rfl, by simp⟩

theorem Undisturbed.statusOf {s s' : State} (h : Undisturbed settings job s s')
    : s'.core.statusOf job.id = s.core.statusOf job.id := by
  unfold Core.statusOf
  exact congrArg (Option.map _) h.row

theorem Undisturbed.suffix {s s' : State} (h : Undisturbed settings job s s')
    (hsuffix : s₀.effects <:+ s.effects)
    : s₀.effects <:+ s'.effects := by
  rcases h.effects with ⟨others, heffects, _⟩
  rw [heffects]
  exact hsuffix.trans (List.suffix_append _ _)

theorem stable_isSettled : Prog.Stable (Undisturbed settings job) (IsSettled job) := by
  rintro s s' ⟨row, hrow, hsettled⟩ hrely
  exact ⟨row, hrely.row.trans hrow, hsettled⟩

theorem IsCleaned.append {s s' : State} (h : IsCleaned settings job s₀ s) {others : List Effect}
    (heffects : s'.effects = others ++ s.effects)
    (hothers : ∀ effect ∈ others, ¬RunsIn (buildDir settings job) effect)
    : IsCleaned settings job s₀ s' := by
  rcases h with ⟨after, before, hs, hafter, hbefore⟩
  refine ⟨others ++ after, before, ?_, ?_, hbefore⟩
  . rw [heffects, hs, List.append_assoc]
  . intro effect heffect
    rw [List.mem_append] at heffect
    rcases heffect with heffect | heffect
    . exact hothers effect heffect
    . exact hafter effect heffect

theorem stable_hasEnded : Prog.Stable (Undisturbed settings job) (HasEnded settings job s₀) := by
  intro s s' h hrely
  rcases hrely.effects with ⟨others, heffects, hothers⟩
  exact ⟨stable_isSettled s s' h.settled hrely, h.cleaned.append heffects hothers⟩

theorem stable_isBuilding : Prog.Stable (Undisturbed settings job) (IsBuilding job) := by
  intro s s' h hrely
  exact hrely.statusOf.trans h

theorem stable_atStart
    : Prog.Stable (Undisturbed settings job) (AtStart settings job s₀ file profile usable) := by
  intro s s' h hrely
  constructor
  . exact hrely.statusOf.trans h.queued
  . exact hrely.archive.trans h.archive
  . exact hrely.suffix h.effects
  . exact hrely.profile.trans h.profile
  . exact hrely.usable.trans h.usable

theorem stable_during : Prog.Stable (Undisturbed settings job) (During settings job s₀ file) := by
  intro s s' h hrely
  constructor
  . exact stable_isBuilding s s' h.building hrely
  . exact hrely.archive.trans h.archive
  . exact hrely.suffix h.effects

theorem stable_beforePack
    : Prog.Stable (Undisturbed settings job) (BeforePack settings job s₀ file profile usable) := by
  intro s s' h hrely
  constructor
  . exact stable_during s s' h.toDuring hrely
  . exact hrely.profile.trans h.profile
  . exact hrely.usable.trans h.usable

theorem stable_afterUpdate : Prog.Stable (Undisturbed settings job) (AfterUpdate job s₀) := by
  intro s s' h hrely
  exact ⟨stable_isSettled s s' h.settled hrely, hrely.suffix h.effects⟩

theorem During.perform {s : State} (h : During settings job s₀ file s) (effect : Effect)
    : During settings job s₀ file (s.perform effect) where
  building := h.building
  archive := h.archive
  effects := h.effects.trans (List.suffix_cons _ _)

theorem BeforePack.perform {s : State} (h : BeforePack settings job s₀ file profile usable s)
    (effect : Effect)
    : BeforePack settings job s₀ file profile usable (s.perform effect) where
  toDuring := h.toDuring.perform effect
  profile := h.profile
  usable := h.usable

theorem AfterUpdate.perform {s : State} (h : AfterUpdate job s₀ s) (effect : Effect)
    : AfterUpdate job s₀ (s.perform effect) where
  settled := h.settled
  effects := h.effects.trans (List.suffix_cons _ _)

theorem AfterUpdate.clean {s : State} (h : AfterUpdate job s₀ s)
    : HasEnded settings job s₀ (s.perform (.removeDirAll (buildDir settings job))) where
  settled := h.settled
  cleaned := ⟨[], s.effects, rfl, by simp, h.effects⟩

theorem HasEnded.deliver {s : State} (h : HasEnded settings job s₀ s) (payload : WebhookPayload)
    (webhooks : List (String × String))
    : HasEnded settings job s₀ (s.perform (.deliver payload webhooks)) where
  settled := h.settled
  cleaned := by
    have heffects : (s.perform (.deliver payload webhooks)).effects
        = [.deliver payload webhooks] ++ s.effects := rfl
    apply h.cleaned.append heffects
    intro effect heffect
    rw [List.mem_singleton] at heffect
    rw [heffect]
    exact id

theorem IsBuilding.not_hasEnded {s : State} (h : IsBuilding job s)
    : ¬HasEnded settings job s₀ s := by
  rintro ⟨⟨row, hrow, hsettled, _⟩, _⟩
  unfold IsBuilding Core.statusOf at h
  change (s.db.jobs.find? job.id).map (·.status) = _ at h
  rw [hrow, Option.map_some, Option.some_inj] at h
  rw [h] at hsettled
  rcases hsettled with hsettled | hsettled <;> contradiction

theorem Goes.bind {prog : Worker α} {next : α → Worker β} {course : Course α} {rest : α → Course β}
    (h : Goes settings job s₀ P prog course Q)
    (hnext : ∀ a, course = .goesOn a → Goes settings job s₀ Q (next a) (rest a) R)
    : Goes settings job s₀ P (prog >>= next) (course.bind rest) R :=
  Prog.Takes.bind undisturbed_refl stable_hasEnded stable_isBuilding h hnext

theorem goes_atomic_bind (hP : Prog.Stable (Undisturbed settings job) P)
    (hQ : Prog.Stable (Undisturbed settings job) Q) {f : State → α × State}
    (hf : ∀ s, P s → Q (f s).snd) {next : α → Worker β} {rest : Course β}
    (hnext : ∀ s, P s → Goes settings job s₀ Q (next (f s).fst) rest R)
    : Goes settings job s₀ P (ExceptT.lift (Prog.atomic f) >>= next) rest R :=
  Prog.takes_atomic_bind undisturbed_refl hP hQ hf hnext

theorem Goes.pure_bind {a : α} {next : α → Worker β} {course : Course β}
    (h : Goes settings job s₀ P (next a) course Q)
    : Goes settings job s₀ P (pure a >>= next) course Q := h

theorem Goes.goesOn_bind {prog : Worker α} {next : α → Worker β} {a : α} {course : Course β}
    (h : Goes settings job s₀ P prog (.goesOn a) Q)
    (hnext : Goes settings job s₀ Q (next a) course R)
    : Goes settings job s₀ P (prog >>= next) course R := by
  have hnext : ∀ b, (.goesOn a : Course α) = .goesOn b → Goes settings job s₀ Q (next b) course R := by
    intro b hb
    injection hb with hb
    rw [← hb]
    exact hnext
  exact Goes.bind h hnext

theorem Goes.breaks_bind {prog : Worker α} {next : α → Worker β}
    (h : Goes settings job s₀ P prog .breaks Q)
    : Goes settings job s₀ P (prog >>= next) .breaks R := by
  let rest (_ : α) : Course β := .breaks
  have hnext : ∀ a, (.breaks : Course α) = .goesOn a → Goes settings job s₀ Q (next a) (rest a) R := by
    intro a ha
    contradiction
  exact Goes.bind h hnext

theorem goes_throw_breaks (hP : ∀ s, P s → IsBuilding job s) (outcome : Outcome)
    : Goes settings job s₀ P (throw outcome : Worker α) .breaks Q := by
  apply Prog.takes_throw_breaks
  intro s s' hs hrely
  exact stable_isBuilding s s' (hP s hs) hrely

theorem runDb_updateJobStatus {faults : Faults Stmt} (hfault : faults .updateJobStatus = none)
    (s : State) (id : String) (status : Status) (startedAt finishedAt errorMsg : Option String)
    : s.runDb faults (Db.updateJobStatus id status startedAt finishedAt errorMsg)
        =
      (.ok (), { s with db := { s.db with
        jobs := s.db.jobs.updateKey id (JobRow.setStatus status startedAt finishedAt errorMsg)
          (JobRow.id_setStatus _ _ _ _) } }) := by
  unfold State.runDb Db.updateJobStatus Sql.run Sql.execute
  simp only [hfault]

theorem find?_updateStatus {s : State} {row : JobRow} (h : s.db.jobs.find? job.id = some row)
    (status : Status) (startedAt finishedAt errorMsg : Option String)
    : (s.db.jobs.updateKey job.id (JobRow.setStatus status startedAt finishedAt errorMsg)
        (JobRow.id_setStatus _ _ _ _)).find? job.id
        =
      some (row.setStatus status startedAt finishedAt errorMsg) := by
  rw [Table.find?_updateKey, if_pos rfl, h, Option.map_some]

theorem exists_row {s : State} {status : Status} (h : s.core.statusOf job.id = some status)
    : ∃ row, s.db.jobs.find? job.id = some row := by
  unfold Core.statusOf at h
  rw [Option.map_eq_some_iff] at h
  rcases h with ⟨row, hrow, _⟩
  exact ⟨row, hrow⟩

theorem exists_names (settings : Settings) (job : Job) (entries : List (Option DirEntry))
    : ∃ names,
        (binaries settings job entries).mapM (fun bin => bin.fileName.bind Utf8.toStr) = some names := by
  have hsome : ∀ bin ∈ binaries settings job entries, (bin.fileName.bind Utf8.toStr).isSome := by
    intro bin hbin
    unfold binaries at hbin
    rw [List.mem_map] at hbin
    rcases hbin with ⟨entry, hentry, rfl⟩
    have hbinary := List.of_mem_filter hentry
    unfold isBinary at hbinary
    simp only [Bool.and_eq_true] at hbinary
    rw [Option.any_eq_true] at hbinary
    rcases hbinary.left.left.right with ⟨name, hname, _⟩
    rw [hname]
    rfl
  generalize binaries settings job entries = bins at hsome
  induction bins with
  | nil => exact ⟨[], rfl⟩
  | cons bin bins ih =>
    rcases ih fun bin hbin => hsome bin (List.mem_cons_of_mem _ hbin) with ⟨names, hnames⟩
    have ⟨name, hname⟩ := Option.isSome_iff_exists.mp (hsome bin List.mem_cons_self)
    rw [List.mapM_cons, hname, hnames]
    exact ⟨name :: names, rfl⟩

theorem fails_failJob {rely : State → State → Prop} (hrefl : ∀ s, rely s s) (errMsg : String)
    : Prog.Fails rely (failJob settings externals job errMsg : Worker α) := by
  unfold failJob
  apply Prog.fails_bind hrefl
  intro webhooks
  apply Prog.fails_bind hrefl
  intro res
  apply Prog.fails_bind hrefl
  intro _
  apply Prog.fails_bind hrefl
  intro _
  apply Prog.fails_bind hrefl
  intro _
  exact Prog.fails_throw _

theorem goes_tryIo (fault : Option IoError)
    : Goes settings job s₀ (During settings job s₀ file) (tryIo fault (archivePath settings job))
        (.orBreaks (unlessFault fault file))
        (During settings job s₀ file) := by
  apply Prog.takes_atomicExcept stable_hasEnded stable_isBuilding stable_during stable_during
  intro s hs
  rw [hs.archive]
  cases fault with
  | some err => exact ⟨⟨_, rfl⟩, hs.building⟩
  | none =>
    cases file with
    | none => exact ⟨⟨_, rfl⟩, hs.building⟩
    | some row => exact ⟨rfl, hs⟩

theorem unlessFault_none (fault : Option IoError) : unlessFault fault (none : Option α) = none := by
  cases fault <;> rfl

theorem goes_measure
    : Goes settings job s₀ (During settings job s₀ file) (measure crates settings externals job)
        (.orBreaks (measured? crates externals file))
        (During settings job s₀ file) := by
  unfold measure measured?
  cases externals.openFault with
  | some err => exact (goes_tryIo (some err)).breaks_bind
  | none =>
    cases file with
    | none =>
      rw [Option.map_none, unlessFault_none, unlessFault_none]
      apply Goes.breaks_bind
      exact goes_tryIo none
    | some row =>
      apply (goes_tryIo none).goesOn_bind
      cases externals.readFault with
      | some err =>
        apply goes_throw_breaks
        intro s hs
        exact hs.building
      | none =>
        cases externals.metadataFault with
        | some err => exact (goes_tryIo (some err)).breaks_bind
        | none =>
          apply (goes_tryIo none).goesOn_bind
          exact Prog.takes_pure stable_during _

theorem runDb_go {s : State} (hbuilding : IsBuilding job s)
    (hfault : externals.faults 3 .updateJobStatus = none) (finishedStr : String) (fileSize : Nat)
    (sha256 : String)
    : ∃ res db, s.runDb (externals.faults 3)
          (complete.go crates settings job finishedStr fileSize sha256) = (res, { s with db })
        ∧
      match stored? externals with
      | some _ => res = .ok () ∧ ∃ row, db.jobs.find? job.id = some row
          ∧ row.status.IsSettled ∧ row.finishedAt.isSome
      | none => (∃ err, res = .error err) ∧ db.jobs = s.db.jobs := by
  rcases exists_row hbuilding with ⟨row, hrow⟩
  have hcontains : s.db.jobs.contains job.id = true := by
    rw [Table.contains, hrow]
    rfl
  unfold stored? State.runDb complete.go
  rw [Sql.run_bind]
  unfold Db.insertArtifact Db.insertCacheEntry Db.updateJobStatus Sql.run Sql.execute
  dsimp only [bind]
  cases externals.faults 3 .insertArtifact with
  | some msg => exact ⟨_, _, rfl, ⟨_, rfl⟩, rfl⟩
  | none =>
    simp only [hcontains, ite_true]
    cases externals.faults 3 .insertCacheEntry with
    | some msg => exact ⟨_, _, rfl, ⟨_, rfl⟩, rfl⟩
    | none =>
      simp only [hfault]
      exact ⟨_, _, rfl, rfl, _, find?_updateStatus hrow _ _ _ _, .inl rfl, rfl⟩

section Stages

variable (hfaults : ∀ scope, externals.faults scope .updateJobStatus = none)
include hfaults

theorem goes_failJob (errMsg : String)
    : Goes settings job s₀ (During settings job s₀ file)
        (failJob settings externals job errMsg : Worker α) .settles Q := by
  unfold failJob
  apply goes_atomic_bind stable_during stable_during
  . intro s hs
    rw [Db.getWebhooksDeliveryInfo, runDb_query]
    exact hs
  intro s hs
  apply goes_atomic_bind stable_during stable_afterUpdate
  . intro s hs
    rw [runDb_updateJobStatus (hfaults 5)]
    rcases exists_row hs.building with ⟨row, hrow⟩
    exact ⟨⟨_, find?_updateStatus hrow _ _ _ _, .inr rfl, rfl⟩, hs.effects⟩
  intro s hs
  rw [runDb_updateJobStatus (hfaults 5)]
  apply goes_atomic_bind stable_afterUpdate stable_hasEnded
  . intro s hs
    exact hs.clean
  intro s hs
  have hthrow : Goes settings job s₀ (HasEnded settings job s₀) (throw .ok : Worker α) .settles Q :=
    Prog.takes_throw_settles stable_hasEnded _
  unfold deliver
  split
  . exact hthrow
  . apply goes_atomic_bind stable_hasEnded stable_hasEnded
    . intro s hs
      exact hs.deliver _ _
    . intro _ _
      exact hthrow

theorem goes_failJob_beforePack (errMsg : String)
    : Goes settings job s₀ (BeforePack settings job s₀ file profile usable)
        (failJob settings externals job errMsg : Worker α) .settles Q :=
  (goes_failJob hfaults errMsg).weaken (fun _ hs => hs.toDuring) (fun _ hs => hs)

theorem goes_expectSuccess (command : Command) (errMsg : String)
    : Goes settings job s₀ (BeforePack settings job s₀ file profile usable)
        (expectSuccess settings externals job command errMsg)
        (.ofBool (succeeds externals command))
        (BeforePack settings job s₀ file profile usable) := by
  unfold expectSuccess
  apply goes_atomic_bind stable_beforePack stable_beforePack
  . intro s hs
    exact hs.perform _
  intro s hs
  unfold succeeds
  cases externals.status command with
  | error err => exact goes_failJob_beforePack hfaults _
  | ok status =>
    dsimp only
    cases status.success with
    | true => exact Prog.takes_pure stable_beforePack ()
    | false => exact goes_failJob_beforePack hfaults _

theorem goes_fetchSource
    : Goes settings job s₀ (BeforePack settings job s₀ file profile usable)
        (fetchSource settings externals job)
        (fetchCourse settings externals job)
        (BeforePack settings job s₀ file profile usable) := by
  unfold fetchSource fetchCourse
  split
  . next hurl =>
    rw [if_pos hurl]
    apply goes_throw_breaks
    intro s hs
    exact hs.building
  . next hurl =>
    rw [hurl]
    exact goes_failJob_beforePack hfaults _
  . next hurl =>
    rw [hurl]
    unfold fetches
    simp only [reduceCtorEq, ite_false, decide_true, Bool.true_and, Course.ofBool_and]
    apply (goes_expectSuccess hfaults _ _).bind
    intro _ _
    split
    . next href =>
      rw [href]
      exact goes_failJob_beforePack hfaults _
    . next href =>
      rw [href]
      exact goes_expectSuccess hfaults _ _

theorem goes_loadConfig
    : Goes settings job s₀ (BeforePack settings job s₀ file profile usable)
        (loadConfig crates settings externals job) (.ofOption (config? crates settings externals job))
        (BeforePack settings job s₀ file profile usable) := by
  unfold loadConfig config?
  dsimp only
  split
  . cases externals.readToString ((buildDir settings job).join (.ofString "koval.toml")) with
    | error err => exact goes_failJob_beforePack hfaults _
    | ok content =>
      dsimp only
      cases crates.kovalTomlFromStr content with
      | error err => exact goes_failJob_beforePack hfaults _
      | ok config => exact Prog.takes_pure stable_beforePack _
  . exact Prog.takes_pure stable_beforePack _

theorem goes_loadMode
    : Goes settings job s₀ (BeforePack settings job s₀ file profile usable)
        (loadMode crates settings externals job) (.ofOption (mode? crates settings externals job))
        (BeforePack settings job s₀ file profile usable) := by
  unfold loadMode mode?
  dsimp only
  split
  . exact goes_failJob_beforePack hfaults _
  . cases externals.readToString ((buildDir settings job).join (.ofString "Cargo.toml")) with
    | error err => exact goes_failJob_beforePack hfaults _
    | ok content =>
      dsimp only
      cases detectBuildMode crates content job.binary job.package with
      | error err => exact goes_failJob_beforePack hfaults _
      | ok mode => exact Prog.takes_pure stable_beforePack _

theorem goes_compile (command : Command)
    : Goes settings job s₀ (BeforePack settings job s₀ file profile usable)
        (compile settings externals job command) (.ofBool (compiles externals command))
        (BeforePack settings job s₀ file profile usable) := by
  unfold compile
  apply goes_atomic_bind stable_beforePack stable_beforePack
  . intro s hs
    exact hs.perform _
  intro s hs
  unfold compiles
  cases externals.runCargoBuild command (externals.buildTimeoutSecs.getD 3600) with
  | error err => exact goes_failJob_beforePack hfaults _
  | ok output =>
    dsimp only
    cases output.status.success with
    | true => exact Prog.takes_pure stable_beforePack ()
    | false => exact goes_failJob_beforePack hfaults _

theorem goes_mergedPath {pgoSourceId : String} (hsource : job.pgoSourceJobId = some pgoSourceId)
    : Goes settings job s₀ (BeforePack settings job s₀ file profile usable)
        (mergedPath settings externals job pgoSourceId)
        (.ofOption (if (externals.faults 1 .getPgoProfile).isSome then none else usable))
        (BeforePack settings job s₀ file profile usable) := by
  have hprofile {s : State} (hs : BeforePack settings job s₀ file profile usable s)
      : s.db.pgoProfiles.find? pgoSourceId = profile := by
    rw [← hs.profile, hsource]
    rfl
  have husable {s : State} (hs : BeforePack settings job s₀ file profile usable s)
      : ((profile.bind (·.mergedPath)).map Path.ofString).filter s.exists? = usable := by
    rw [← hs.usable, ← hs.profile]
    rfl
  unfold mergedPath
  apply goes_atomic_bind stable_beforePack stable_beforePack
  . intro s hs
    rw [Db.getPgoProfile, runDb_query]
    exact hs
  intro s hs
  rw [Db.getPgoProfile, fst_runDb_query]
  cases externals.faults 1 .getPgoProfile with
  | some msg => exact goes_failJob_beforePack hfaults _
  | none =>
    dsimp only
    rw [hprofile hs]
    cases hprofile' : profile with
    | none =>
      have husable := husable hs
      rw [hprofile'] at husable
      rw [← husable]
      exact goes_failJob_beforePack hfaults _
    | some row =>
      dsimp only
      cases hmerged : row.mergedPath with
      | none =>
        have husable := husable hs
        rw [hprofile', Option.bind_some, hmerged] at husable
        rw [← husable]
        exact goes_failJob_beforePack hfaults _
      | some path =>
        rw [← hprofile']
        apply goes_atomic_bind stable_beforePack stable_beforePack
        . intro s hs
          exact hs
        intro s hs
        have husable := husable hs
        rw [hprofile', Option.bind_some, hmerged, Option.map_some, Option.filter_some] at husable
        rw [← husable]
        cases s.exists? (.ofString path) with
        | false => exact goes_failJob_beforePack hfaults _
        | true => exact Prog.takes_pure stable_beforePack _

theorem goes_rustflags (config : BuildConfig)
    : Goes settings job s₀ (BeforePack settings job s₀ file profile usable)
        (rustflags settings externals job config)
        (.ofOption (rustflags? settings externals job usable config))
        (BeforePack settings job s₀ file profile usable) := by
  unfold rustflags rustflags?
  cases job.jobType with
  | standard => exact Prog.takes_pure stable_beforePack _
  | pgoInstrument => exact Prog.takes_pure stable_beforePack _
  | pgoOptimize =>
    dsimp only
    cases hsource : job.pgoSourceJobId with
    | none =>
      intro s res s' hs
      have husable : usable = none := by
        rw [← hs.usable, usableProfile, hsource]
        rfl
      rw [husable, Option.map_none, ite_self]
      exact goes_failJob_beforePack hfaults _ s res s' hs
    | some pgoSourceId =>
      have hcourse : (if (externals.faults 1 .getPgoProfile).isSome then
            none
          else
            usable.map fun path => pushFlags config.rustflags (optimizeFlags path))
          =
        (if (externals.faults 1 .getPgoProfile).isSome then none else usable).map fun path =>
            pushFlags config.rustflags (optimizeFlags path) := by
        split <;> rfl
      rw [hcourse, Course.ofOption_map]
      apply (goes_mergedPath hfaults hsource).bind
      intro path _
      exact Prog.takes_pure stable_beforePack _

theorem goes_expectTar (args : List String) (errMsg : String)
    : Goes settings job s₀ (During settings job s₀ file)
        (expectTar settings externals job args errMsg) (.ofBool (tars externals args))
        (During settings job s₀ (archived settings externals job file)) := by
  unfold expectTar
  apply goes_atomic_bind (Q := During settings job s₀ (archived settings externals job file))
    stable_during stable_during
  . intro s hs
    cases harchive : externals.archive with
    | none =>
      unfold archived
      rw [harchive]
      exact hs.perform _
    | some content =>
      unfold archived
      rw [harchive]
      constructor
      . exact hs.building
      . exact (Table.find?_replace _ _ _).trans (if_pos rfl)
      . exact (hs.perform _).effects
  intro s hs
  unfold tars succeeds
  cases externals.status { program := "tar", args := args.map Path.ofString } with
  | error err => exact goes_failJob hfaults _
  | ok status =>
    dsimp only
    cases status.success with
    | true => exact Prog.takes_pure stable_during ()
    | false => exact goes_failJob hfaults _

theorem goes_packBinary (name : String)
    : Goes settings job s₀ (During settings job s₀ file) (packBinary settings externals job name)
        (.ofBool (packsBinary settings externals job name))
        (During settings job s₀ (archived settings externals job file)) := by
  unfold packBinary packsBinary
  dsimp only
  cases externals.exists? ((releaseDir settings job).join (.ofString name)) with
  | false => exact goes_failJob hfaults _
  | true => exact goes_expectTar hfaults _ _

theorem goes_packBinaries
    : Goes settings job s₀ (During settings job s₀ file) (packBinaries settings externals job)
        (if (binaries? settings externals job).isSome && !pathsReadable settings job then
          .breaks
        else
          .ofBool (packsBinaries settings externals job))
        (During settings job s₀ (archived settings externals job file)) := by
  unfold packBinaries packsBinaries binaries?
  dsimp only
  cases externals.readDir (releaseDir settings job) with
  | error err => exact goes_failJob hfaults _
  | ok entries =>
    dsimp only
    split
    . exact goes_failJob hfaults _
    . rcases exists_names settings job entries with ⟨names, hnames⟩
      rw [Option.any_some, hnames]
      unfold pathsReadable
      have hbreaks (msg : String) : Goes settings job s₀ (During settings job s₀ file)
          (throw (.err msg) : Worker String) .breaks (During settings job s₀ file) := by
        apply goes_throw_breaks
        intro s hs
        exact hs.building
      cases Utf8.toStr (archivePath settings job) with
      | none => exact (hbreaks _).breaks_bind
      | some archiveStr =>
        apply Goes.pure_bind (a := archiveStr)
        cases Utf8.toStr (releaseDir settings job) with
        | none => exact (hbreaks _).breaks_bind
        | some releaseStr => exact goes_expectTar hfaults _ _

theorem goes_pack (mode : BuildMode)
    : Goes settings job s₀ (During settings job s₀ file) (pack settings externals job mode)
        (packCourse settings externals job mode)
        (During settings job s₀ (archived settings externals job file)) := by
  cases mode with
  | workspace => exact goes_packBinaries hfaults
  | packageInWorkspace pkgName => exact goes_packBinaries hfaults
  | multiBin => exact goes_packBinaries hfaults
  | specificBinary name => exact goes_packBinary hfaults name
  | singlePackage name => exact goes_packBinary hfaults name

theorem goes_complete (fileSize : Nat) (sha256 : String)
    : Goes settings job s₀ (During settings job s₀ file)
        (complete crates settings externals job fileSize sha256) (.orBreaks (stored? externals))
        (AfterUpdate job s₀) := by
  unfold complete
  apply goes_atomic_bind stable_during stable_during
  . intro s hs
    rw [Db.getWebhooksDeliveryInfo, runDb_query]
    exact hs
  intro s hs
  have hgo {s : State} (hs : During settings job s₀ file s) :=
    @runDb_go crates settings externals job s hs.building (hfaults 3)
      externals.finished.toRfc3339 fileSize sha256
  cases hstored : stored? externals with
  | none =>
    rw [hstored] at hgo
    apply goes_atomic_bind stable_during stable_during
    . intro s hs
      rcases hgo hs with ⟨_, db, hrun, ⟨err, rfl⟩, hjobs⟩
      dsimp only
      rw [hrun]
      constructor
      . change (db.jobs.find? job.id).map (·.status) = _
        rw [hjobs]
        exact hs.building
      . exact hs.archive
      . exact hs.effects
    . intro s hs
      rcases hgo hs with ⟨_, db, hrun, ⟨err, rfl⟩, _⟩
      dsimp only
      rw [hrun]
      apply Goes.breaks_bind (Q := During settings job s₀ file)
      apply goes_throw_breaks
      intro s hs
      exact hs.building
  | some _ =>
    rw [hstored] at hgo
    apply goes_atomic_bind stable_during stable_afterUpdate
    . intro s hs
      rcases hgo hs with ⟨_, db, hrun, rfl, hsettled⟩
      dsimp only
      rw [hrun]
      exact ⟨hsettled, hs.effects⟩
    . intro s hs
      rcases hgo hs with ⟨_, db, hrun, rfl, _⟩
      dsimp only
      rw [hrun]
      apply Goes.pure_bind (a := ())
      unfold deliver
      split
      . exact Prog.takes_pure stable_afterUpdate ()
      . exact Prog.takes_atomic undisturbed_refl stable_afterUpdate stable_afterUpdate
          fun s hs => ⟨rfl, hs.perform _⟩

theorem goes_start
    : Goes settings job s₀ (AtStart settings job s₀ file profile usable)
        (start settings externals job) (.goesOn ())
        (BeforePack settings job s₀ file profile usable) := by
  unfold start
  apply goes_atomic_bind (Q := BeforePack settings job s₀ file profile usable) stable_atStart
    stable_beforePack
  . intro s hs
    rw [runDb_updateJobStatus (hfaults 0)]
    constructor
    . constructor
      . rcases exists_row hs.queued with ⟨row, hrow⟩
        exact congrArg (Option.map _) (find?_updateStatus hrow _ _ _ _)
      . exact hs.archive
      . exact hs.effects
    . exact hs.profile
    . exact hs.usable
  intro s hs
  rw [runDb_updateJobStatus (hfaults 0)]
  apply Goes.pure_bind (a := ())
  split
  . exact Prog.takes_atomic undisturbed_refl stable_beforePack stable_beforePack
      fun s hs => ⟨rfl, hs.perform _⟩
  . exact Prog.takes_pure stable_beforePack ()

theorem goes_go
    : Goes settings job s₀ (AtStart settings job s₀ file profile usable)
        (go crates settings externals job) (course crates settings externals job usable file)
        (HasEnded settings job s₀) := by
  unfold go course
  apply (goes_start hfaults).goesOn_bind
  apply (goes_fetchSource hfaults).bind
  intro _ _
  apply (goes_loadConfig hfaults).bind
  intro config _
  apply (goes_loadMode hfaults).bind
  intro mode _
  apply (goes_rustflags hfaults config).bind
  intro rustflags _
  apply (goes_compile hfaults _).bind
  intro _ _
  apply Goes.bind (Q := During settings job s₀ (archived settings externals job file))
  . exact (goes_pack hfaults mode).weaken (fun _ hs => hs.toDuring) (fun _ hs => hs)
  intro _ _
  apply goes_measure.bind
  rintro ⟨fileSize, sha256⟩ _
  apply (goes_complete hfaults fileSize sha256).bind
  intro _ _
  exact Prog.takes_atomic undisturbed_refl stable_afterUpdate stable_hasEnded
    fun s hs => ⟨rfl, hs.clean⟩

end Stages

theorem course_eq (hurl : validateProjectUrl job.project ≠ none)
    : course crates settings externals job usable file
        =
      (Course.ofOption (compiled? crates settings externals job usable)).bind
        (finish crates settings externals job file) := by
  unfold course fetchCourse compiled?
  rw [if_neg hurl]
  by_cases hfetch : validateProjectUrl job.project = some (.ok ()) ∧ fetches settings externals job
  . rw [if_pos hfetch, decide_eq_true hfetch.left, hfetch.right]
    cases config? crates settings externals job with
    | none => rfl
    | some config =>
      cases mode? crates settings externals job with
      | none => rfl
      | some mode =>
        cases hflags : rustflags? settings externals job usable config with
        | none => simp [Course.bind, Course.ofOption, Course.ofBool, hflags]
        | some rustflags =>
          cases hcompiles : compiles externals (cargoCommand settings job config mode rustflags) <;>
          simp [Course.bind, Course.ofOption, Course.ofBool, hflags, hcompiles]
  . have hfetch' : (decide (validateProjectUrl job.project = some (.ok ()))
        && fetches settings externals job) = false :=
      Bool.eq_false_iff.mpr (by simpa using hfetch)
    rw [if_neg hfetch, hfetch']
    rfl

theorem stores_iff
    : Stores externals file
        ↔
      measured? crates externals (archived settings externals job file) ≠ none
        ∧ stored? externals ≠ none := by
  unfold measured? stored? archived
  constructor
  . intro h
    rw [h.opens, h.reads, h.measures, if_pos ⟨h.insertArtifact, h.insertCacheEntry⟩]
    have hexists := h.exists?
    cases harchive : externals.archive with
    | some content => simp [unlessFault]
    | none =>
      cases file with
      | none => simp [harchive] at hexists
      | some row => simp [unlessFault]
  . rintro ⟨hmeasured, hstored⟩
    have hstored := not_imp_comm.mp (fun h => if_neg h) hstored
    cases hopen : externals.openFault with
    | some err => simp [hopen, unlessFault] at hmeasured
    | none =>
      cases hread : externals.readFault with
      | some err => simp [hopen, hread, unlessFault] at hmeasured
      | none =>
        cases hmeta : externals.metadataFault with
        | some err => simp [hopen, hread, hmeta, unlessFault] at hmeasured
        | none =>
          refine ⟨hopen, hread, hmeta, ?_, hstored.left, hstored.right⟩
          cases harchive : externals.archive with
          | some content => exact .inl rfl
          | none =>
            cases file with
            | some row => exact .inr rfl
            | none => simp [hopen, hread, hmeta, harchive, unlessFault] at hmeasured

theorem finish_eq_breaks_iff {mode : BuildMode}
    : finish crates settings externals job file mode = .breaks
        ↔
      (packsAll mode ∧ (binaries? settings externals job).isSome ∧ ¬pathsReadable settings job)
        ∨
      (packed settings externals job mode ∧ ¬Stores externals file) := by
  have hlast : ((Course.orBreaks
        (measured? crates externals (archived settings externals job file))).bind fun _ =>
          (Course.orBreaks (stored? externals)).bind fun _ => .goesOn ()) = .breaks
      ↔
    ¬Stores externals file := by
    rw [@stores_iff crates settings externals job]
    cases measured? crates externals (archived settings externals job file) <;>
    cases stored? externals <;>
    simp [Course.bind, Course.orBreaks]
  unfold finish packCourse
  by_cases hpaths : (packsAll mode && (binaries? settings externals job).isSome
      && !pathsReadable settings job) = true
  . rw [if_pos hpaths]
    simp only [Bool.and_eq_true, Bool.not_eq_true'] at hpaths
    constructor
    . intro _
      left
      exact ⟨hpaths.left.left, hpaths.left.right, by rw [hpaths.right]; exact Bool.noConfusion⟩
    . intro _
      rfl
  . rw [if_neg hpaths]
    have hpaths' : ¬(packsAll mode ∧ (binaries? settings externals job).isSome
        ∧ ¬pathsReadable settings job) := by
      simpa [and_assoc] using hpaths
    rw [Course.bind_eq_breaks_iff]
    simp only [Course.ofBool_ne_breaks, Course.ofBool_eq_goesOn_iff, false_or, hlast]
    constructor
    . rintro ⟨_, hpacked, hstores⟩
      exact .inr ⟨hpacked, hstores⟩
    . rintro (h | ⟨hpacked, hstores⟩)
      . contradiction
      . exact ⟨(), hpacked, hstores⟩

theorem course_eq_breaks_iff
    : course crates settings externals job usable file = .breaks
        ↔
      ¬EndsWell crates settings externals job usable file := by
  by_cases hurl : validateProjectUrl job.project = none
  . constructor
    . intro _ h
      exact h.url hurl
    . intro _
      unfold course fetchCourse
      rw [if_pos hurl]
      rfl
  . rw [course_eq hurl, Course.bind_eq_breaks_iff]
    simp only [Course.ofOption_ne_breaks, false_or, Course.ofOption_eq_goesOn_iff,
      finish_eq_breaks_iff]
    constructor
    . rintro ⟨mode, hmode, ⟨hall, hbinaries, hpaths⟩ | ⟨hpacked, hstores⟩⟩ h
      . exact hpaths (h.paths mode hmode hall hbinaries)
      . exact hstores (h.stores mode hmode hpacked)
    . intro h
      by_contra hnone
      apply h
      refine ⟨hurl, ?_, ?_⟩
      . intro mode hmode hall hbinaries
        by_contra hpaths
        exact hnone ⟨mode, hmode, .inl ⟨hall, hbinaries, hpaths⟩⟩
      . intro mode hmode hpacked
        by_contra hstores
        exact hnone ⟨mode, hmode, .inr ⟨hpacked, hstores⟩⟩

end processJob

/--
Whatever the steps outside the server come to, the job ends, and its build directory is cleaned up,
if and only if no exit of its processing is taken that forgets about it.
-/
theorem processJob.ends_iff {crates : Crates} {settings : Settings} {externals : Externals}
    {job : Job} (hfaults : ∀ scope, externals.faults scope .updateJobStatus = none)
    {s s' : State} {outcome : Outcome} (hqueued : s.core.statusOf job.id = some .queued)
    (hends : Prog.Ends (processJob.Undisturbed settings job)
      (processJob crates settings externals job) s outcome s')
    : processJob.HasEnded settings job s s'
        ↔
      processJob.EndsWell crates settings externals job (processJob.usableProfile job s)
        (s.files.find? (processJob.archivePath settings job)) := by
  have hstart : AtStart settings job s (s.files.find? (archivePath settings job))
      (job.pgoSourceJobId.bind s.db.pgoProfiles.find?) (usableProfile job s) s :=
    ⟨hqueued, rfl, List.suffix_refl _, rfl, rfl⟩
  rcases hends.of_bind undisturbed_refl with ⟨res, mid, hgo, hrest⟩
  have hrely : Undisturbed settings job mid s' := by
    cases res with
    | ok _ => exact (Prog.ends_ret_iff.mp hrest).right
    | error _ => exact (Prog.ends_ret_iff.mp hrest).right
  have hmid := goes_go hfaults s res mid hstart hgo
  cases hcourse : course crates settings externals job (usableProfile job s)
      (s.files.find? (archivePath settings job)) with
  | goesOn _ =>
    rw [hcourse] at hmid
    have hwell := not_not.mp (mt course_eq_breaks_iff.mpr (by rw [hcourse]; nofun))
    exact iff_of_true (stable_hasEnded mid s' hmid.right hrely) hwell
  | settles =>
    rw [hcourse] at hmid
    have hwell := not_not.mp (mt course_eq_breaks_iff.mpr (by rw [hcourse]; nofun))
    exact iff_of_true (stable_hasEnded mid s' hmid.right hrely) hwell
  | breaks =>
    rw [hcourse] at hmid
    have hbuilding := stable_isBuilding mid s' hmid.right hrely
    exact iff_of_false hbuilding.not_hasEnded (course_eq_breaks_iff.mp hcourse)

theorem processJob.ends_iff_alone
    : HasEnded Samples.settings (Samples.job "https://github.com/a/b")
          (Samples.received "https://github.com/a/b")
          ((processJob Samples.github.crates Samples.settings Samples.externals
            (Samples.job "https://github.com/a/b")).runAlone
              (Samples.received "https://github.com/a/b")).snd
        ↔
      EndsWell Samples.github.crates Samples.settings Samples.externals
        (Samples.job "https://github.com/a/b") none none :=
  processJob.ends_iff (fun _ => rfl) (by decide) (Prog.ends_runAlone undisturbed_refl _ _)

/-- The eighth byte of the URL is within a character. -/
theorem processJob.stays_building
    : ¬∀ (crates : Crates) (settings : Settings) (externals : Externals) (job : Job) (s s' : State)
          (outcome : Outcome),
        (∀ scope, externals.faults scope .updateJobStatus = none) →
          s.core.statusOf job.id = some .queued →
            Prog.Ends (processJob.Undisturbed settings job)
                (processJob crates settings externals job) s outcome s' →
              processJob.HasEnded settings job s s' := by
  intro hall
  let run := (processJob Samples.github.crates Samples.settings Samples.externals
    (Samples.job "https:/é")).runAlone (Samples.received "https:/é")
  have hended := hall Samples.github.crates Samples.settings Samples.externals
    (Samples.job "https:/é") (Samples.received "https:/é") run.snd run.fst (fun _ => rfl) (by decide)
    (Prog.ends_runAlone undisturbed_refl _ _)
  have hbuilding : IsBuilding (Samples.job "https:/é") run.snd := by
    unfold IsBuilding
    decide +kernel
  exact hbuilding.not_hasEnded hended

end Koval
