import Koval.Server.SystemWrites

/-!
This module contains how a worker comes to the row of its archive: it packs the archive, opens it,
measures it, and stores what it has measured.
-/

namespace Koval

open Prog

variable {crates : Crates} {settings : Settings}

inductive Packing where
  -- a handler
  | attending
  | packing (job : Job)
  | opened (job : Job) (content : Bytes)
  | measured (job : Job) (content : Bytes) (size : Nat)
  | closed (job : Job)

namespace Packing

def openJob? (packing : Packing) : Option Job :=
  match packing with
  | .packing job | opened job _ | measured job _ _ => some job
  | attending | closed _ => none

-- Neither the archive nor the row has been looked at.
def starts (packing : Packing) : Bool :=
  match packing with
  | attending | .packing _ => true
  | opened _ _ | measured _ _ _ | closed _ => false

def agrees (label : Label) (packing : Packing) : Prop :=
  match label, packing with
  | .handler .., attending => True
  | .worker job, .packing job' | .worker job, opened job' _ => job' = job
  | .worker job, measured job' _ _ | .worker job, closed job' => job' = job
  | _, _ => False

end Packing

def archiveRow (crates : Crates) (settings : Settings) (job : Job) (content : Bytes) (size : Nat) :
    ArtifactRow :=
  ⟨job.id, (processJob.archivePath settings job).display, size, crates.sha256 content⟩

/-- How a step may change the archives, and the rows about them. -/
inductive Packs (crates : Crates) (settings : Settings) :
    Packing → State → Packing → State → Prop where
  | attend {s s' : State} (hhandles : Handles crates settings s s')
    (hartifacts : s'.db.artifacts = s.db.artifacts) :
    Packs crates settings .attending s .attending s'
  | stay {packing : Packing} {s s' : State} (hartifacts : s'.db.artifacts = s.db.artifacts)
    (hfiles : s'.files = s.files) : Packs crates settings packing s packing s'
  | tar {job : Job} {s s' : State} (content : Bytes) (hartifacts : s'.db.artifacts = s.db.artifacts)
    (hfiles : s'.files = s.files.replace ⟨processJob.archivePath settings job, content⟩) :
    Packs crates settings (.packing job) s (.packing job) s'
  | open {job : Job} {s s' : State} {file : FileRow} (hartifacts : s'.db.artifacts = s.db.artifacts)
    (hfiles : s'.files = s.files)
    (hfile : s.files.find? (processJob.archivePath settings job) = some file) :
    Packs crates settings (.packing job) s (.opened job file.content) s'
  -- the size is the one that the file has by then
  | measure {job : Job} {content : Bytes} {s s' : State} {file : FileRow}
    (hartifacts : s'.db.artifacts = s.db.artifacts) (hfiles : s'.files = s.files)
    (hfile : s.files.find? (processJob.archivePath settings job) = some file) :
    Packs crates settings (.opened job content) s (.measured job content file.content.length) s'
  | store {job : Job} {content : Bytes} {size : Nat} {s s' : State}
    (hartifacts : s'.db.artifacts
      = s.db.artifacts.replace (archiveRow crates settings job content size))
    (hfiles : s'.files = s.files) :
    Packs crates settings (.measured job content size) s (.closed job) s'
  | close {packing : Packing} {job : Job} {s s' : State}
    (hopen : packing.openJob? = some job) (hartifacts : s'.db.artifacts = s.db.artifacts)
    (hfiles : s'.files = s.files) : Packs crates settings packing s (.closed job) s'

inductive PacksTo (crates : Crates) (settings : Settings) (packings : List Packing) (s : State) :
    Action → List Packing → State → Prop where
  | spawn {action : Action} {packing : Packing} {s' : State} (hstarts : packing.starts)
    (hartifacts : s'.db.artifacts = s.db.artifacts) (hfiles : s'.files = s.files) :
    PacksTo crates settings packings s action (packings ++ [packing]) s'
  | thread {action : Action} {i : Nat} {packing packing' : Packing} {s' : State}
    (hpacking : packings[i]? = some packing) (hpacks : Packs crates settings packing s packing' s') :
    PacksTo crates settings packings s action (packings.set i packing') s'
  | outside {files : Table FileRow.path} {s' : State}
    (hartifacts : s'.db.artifacts = s.db.artifacts) :
    PacksTo crates settings packings s (.changeFiles files) packings s'
  | restart {action : Action} {s' : State} (hartifacts : s'.db.artifacts = s.db.artifacts)
    (hfiles : s'.files = s.files) : PacksTo crates settings packings s action [] s'

theorem Packing.agrees_of_packs (label : Label) (packing : Packing) (s : State) (packing' : Packing)
    (s' : State) (h : agrees label packing) (hpacks : Packs crates settings packing s packing' s')
    : agrees label packing' := by
  cases hpacks with
  | attend | stay | tar => exact h
  | «open» | measure | store =>
    cases label with
    | handler => contradiction
    | worker job => exact h
  | @close packing job _ _ hopen =>
    cases label with
    | handler =>
      cases packing with
      | attending => contradiction
      | _ => contradiction
    | worker job' =>
      cases packing with
      | attending => contradiction
      | closed => contradiction
      | packing _ | opened _ _ | measured _ _ _ =>
        injection hopen with hopen
        rw [← hopen]
        exact h

-- The handlers

theorem follows_attending (request : Request) (ambient : Ambient)
    : Follows (Packs crates settings) (fun _ _ => True)
        (do let response ← (route crates settings request ambient).respond
            pure (Answer.response response))
        .attending := by
  have halways := (always_handler (handles_route request)).and
    (always_handler (@deed_route crates settings ambient request))
  apply (halways.follows ?_).weaken
  . intro _ _ _
    trivial
  . rintro s s' ⟨hhandles, hdeed⟩
    exact .attend hhandles (hdeed.artifacts rfl)

namespace processJob

variable {externals : Externals} {job : Job} {α : Type} {packing : Packing}

abbrev SparesArchives (s s' : State) : Prop :=
  s'.db.artifacts = s.db.artifacts ∧ s'.files = s.files

theorem follows_of_spares {prog : Worker α} {mid : Packing → α → Prop}
    (h : Always SparesArchives prog.run) (hmid : ∀ a, mid packing a)
    : Follows (Packs crates settings) (Until mid fun _ (_ : Outcome) => True) prog.run packing := by
  apply (h.follows fun _ _ hstep => .stay hstep.left hstep.right).weaken
  rintro _ res rfl
  cases res with
  | ok a => exact hmid a
  | error outcome => trivial

theorem sparesArchives_lockDb {program : DbM α} (h : Sql.Keeps Db.artifacts program) (faults : Faults Stmt)
    : Always SparesArchives (lockDb faults program) := by
  apply always_atomic
  intro s
  exact ⟨h faults s.db, rfl⟩

theorem sparesArchives_perform (effect : Effect) : Always SparesArchives (perform effect) := by
  apply always_atomic
  intro s
  exact ⟨rfl, rfl⟩

theorem sparesArchives_deliver (payload : WebhookPayload) (webhooks : List (String × String))
    : Always SparesArchives (deliver payload webhooks) := by
  unfold deliver
  split
  . exact always_pure _
  . exact sparesArchives_perform _

theorem sparesArchives_tryDb (res : Except SqlError α) : Always SparesArchives (tryDb res).run := by
  unfold tryDb
  split
  . exact always_pure _
  . exact always_throw _

theorem sparesArchives_updateJobStatus (id : String) (status : Status)
    (startedAt finishedAt errorMsg : Option String) (faults : Faults Stmt)
    : Always SparesArchives
        (lockDb faults (Db.updateJobStatus id status startedAt finishedAt errorMsg)) := by
  apply sparesArchives_lockDb
  apply Sql.keeps_execute
  intro db db' h
  injection h with h
  rw [← h]

theorem sparesArchives_start : Always SparesArchives (start settings externals job).run := by
  unfold start
  apply Always.bindExcept (sparesArchives_updateJobStatus _ _ _ _ _ _).liftExcept
  intro res
  apply Always.bindExcept (sparesArchives_tryDb res)
  intro _
  split
  . exact (sparesArchives_perform _).liftExcept
  . exact always_pure _

theorem sparesArchives_failJob (errMsg : String)
    : Always SparesArchives (failJob settings externals job errMsg : Worker α).run := by
  unfold failJob
  apply Always.bindExcept (sparesArchives_lockDb (Sql.keeps_query _ _ _) _).liftExcept
  intro webhooks
  apply Always.bindExcept (sparesArchives_updateJobStatus _ _ _ _ _ _).liftExcept
  intro res
  apply Always.bindExcept (sparesArchives_tryDb res)
  intro _
  apply Always.bindExcept (sparesArchives_perform _).liftExcept
  intro _
  apply Always.bindExcept (sparesArchives_deliver _ _).liftExcept
  intro _
  exact always_throw _

theorem steps_packing
    : Steps settings externals job (Packs crates settings) (fun _ _ => True) (.packing job) := by
  constructor
  . intro s s' h
    exact .stay (congrArg Db.artifacts h.db) h.files
  . intro s mid h
    unfold afterTar
    split
    . next content _ =>
      apply Packs.tar content
      . exact congrArg Db.artifacts h.db
      . rw [← h.files]
        rfl
    . exact .stay (congrArg Db.artifacts h.db) h.files
  . intro _ _
    trivial
  . intro _ errMsg
    exact follows_of_spares (sparesArchives_failJob errMsg) fun _ => rfl

theorem follows_openArchive (fault : Option IoError)
    : Follows (Packs crates settings)
        (Until (fun packing file => packing = .opened job file.content) fun _ (_ : Outcome) => True)
        (tryIo fault (archivePath settings job)).run (.packing job) := by
  apply follows_atomic
  intro s
  split
  . exact ⟨.packing job, .stay rfl rfl, trivial⟩
  . next file hfile => exact ⟨.opened job file.content, .open rfl rfl hfile, rfl⟩
  . exact ⟨.packing job, .stay rfl rfl, trivial⟩

theorem follows_statArchive (fault : Option IoError) (content : Bytes)
    : Follows (Packs crates settings)
        (Until (fun packing file => packing = .measured job content file.content.length)
          fun _ (_ : Outcome) => True)
        (tryIo fault (archivePath settings job)).run (.opened job content) := by
  apply follows_atomic
  intro s
  split
  . exact ⟨.opened job content, .stay rfl rfl, trivial⟩
  . next file hfile => exact ⟨.measured job content file.content.length, .measure rfl rfl hfile, rfl⟩
  . exact ⟨.opened job content, .stay rfl rfl, trivial⟩

def IsMeasured (crates : Crates) (job : Job) (packing : Packing) (measured : Nat × String) : Prop :=
  ∃ content, packing = .measured job content measured.fst ∧ measured.snd = crates.sha256 content

theorem packs_measure
    : Follows (Packs crates settings) (Until (IsMeasured crates job) fun _ (_ : Outcome) => True)
        (measure crates settings externals job).run (.packing job) := by
  unfold measure
  apply Follows.bindExcept (follows_openArchive _)
  rintro file _ rfl
  split
  . exact follows_pure trivial
  . apply Follows.bindExcept (follows_statArchive _ _)
    rintro stat _ rfl
    exact follows_pure ⟨file.content, rfl, rfl⟩

theorem artifacts_complete (finishedStr : String) (size : Nat) (content : Bytes)
    (faults : Faults Stmt) (db : Db)
    : let db' := ((complete.go crates settings job finishedStr size (crates.sha256 content)).run
          faults db).snd
      db'.artifacts = db.artifacts
        ∨
      db'.artifacts = db.artifacts.replace (archiveRow crates settings job content size) := by
  intro db'
  have hkeeps : Sql.Keeps Db.artifacts (do
      Db.insertCacheEntry (job.tuple.cacheKey crates) job.id finishedStr
      Db.updateJobStatus job.id .done none (some finishedStr) none) := by
    apply Sql.Keeps.bind
    . apply Sql.keeps_execute
      intro db db' h
      split at h
      . injection h with h
        rw [← h]
      . contradiction
    . intro _
      apply Sql.keeps_execute
      intro db db' h
      injection h with h
      rw [← h]
  have hrun : (complete.go crates settings job finishedStr size (crates.sha256 content)).run faults db
      = (((complete.go crates settings job finishedStr size (crates.sha256 content)).run
          faults db).fst, db') := rfl
  rcases Sql.run_bind_cases hrun with ⟨_, mid, hinsert, hrest⟩ | ⟨err, hinsert, _⟩
  . have hmid : db'.artifacts = mid.artifacts :=
      (congrArg (fun out => out.snd.artifacts) hrest).symm.trans (hkeeps faults mid)
    rw [hmid]
    rcases Sql.run_execute_cases hinsert with ⟨_, hchange⟩ | ⟨_, herr, _⟩
    . split at hchange
      . injection hchange with hchange
        rw [← hchange]
        exact .inr rfl
      . contradiction
    . contradiction
  . rcases Sql.run_execute_cases hinsert with ⟨hok, _⟩ | ⟨_, _, hdb⟩
    . contradiction
    . rw [hdb]
      exact .inl rfl

theorem packs_complete (content : Bytes) (size : Nat)
    : Follows (Packs crates settings)
        (Until (fun packing _ => packing = .closed job) fun _ (_ : Outcome) => True)
        (complete crates settings externals job size (crates.sha256 content)).run
        (.measured job content size) := by
  unfold complete
  apply Follows.bindExcept (m := fun packing _ => packing = .measured job content size)
  . exact follows_of_spares (sparesArchives_lockDb (Sql.keeps_query _ _ _) _).liftExcept fun _ => rfl
  rintro webhooks _ rfl
  apply Follows.bindExcept (m := fun packing _ => packing = .closed job)
  . apply Follows.liftExcept
    apply follows_atomic
    intro s
    refine ⟨.closed job, ?_, rfl⟩
    have hartifacts := @artifacts_complete crates settings job externals.finished.toRfc3339 size
      content (externals.faults 3) s.db
    dsimp only
    rcases hartifacts with hsame | hstored
    . split <;> exact .close rfl hsame rfl
    . split <;> exact .store hstored rfl
  . rintro res _ rfl
    apply Follows.bindExcept (m := fun packing _ => packing = .closed job)
    . exact follows_of_spares (sparesArchives_tryDb res) fun _ => rfl
    rintro _ _ rfl
    exact follows_of_spares (sparesArchives_deliver _ _).liftExcept fun _ => rfl

theorem packs_processJob (externals : Externals) (job : Job)
    : Follows (Packs crates settings) (fun _ _ => True)
        (do let outcome ← processJob crates settings externals job
            pure (Answer.outcome outcome))
        (.packing job) := by
  apply Follows.bind (m := fun _ _ => True)
  . apply steps_packing.follows_processJob
    . exact follows_of_spares sparesArchives_start fun _ => rfl
    . exact packs_measure
    . rintro size _ _ ⟨content, rfl, rfl⟩
      exact packs_complete content size
    . intro s s' h
      exact .stay (congrArg Db.artifacts h.db) h.files
    . trivial
  . intro _ _ _
    exact follows_pure trivial

end processJob

end Koval
