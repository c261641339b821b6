import Koval.Conc.Coincide
import Koval.Server.PgoRuns
import Koval.Server.Tenants
import Koval.Server.TokenLemmas
import Koval.Server.WebhookSet

/-!
This module contains what the requests of a token can tell about the rows of another one.
-/

namespace Koval

open Prog

def Db.rowsBut (db : Db) (tokenId : Int) : TenantRows where
  webhooks := db.webhooks.rows.filter fun row => row.tokenId ≠ tokenId
  jobs := db.jobs.rows.filter fun row => row.tokenId ≠ tokenId
  pgoProfiles := db.pgoProfiles.rows.filter fun row => !db.isJobOf tokenId row.instrumentJobId

/-- The rows of the token are all that a handler could tell the states apart by. -/
@[mk_iff]
structure DifferIn (tokenId : Int) (s s' : State) : Prop where
  rows : s'.db.rowsBut tokenId = s.db.rowsBut tokenId
  tokens : s'.db.tokens = s.db.tokens
  artifacts : s'.db.artifacts = s.db.artifacts
  rateLimit : s'.db.rateLimit = s.db.rateLimit
  buildCache : s'.db.buildCache = s.db.buildCache
  lastTokenId : s'.db.lastTokenId = s.db.lastTokenId
  lastWebhookId : s'.db.lastWebhookId = s.db.lastWebhookId
  queue : s'.queue = s.queue
  files : s'.files = s.files

instance (tokenId : Int) (s s' : State) : Decidable (DifferIn tokenId s s') :=
  decidable_of_iff' _ (differIn_iff tokenId s s')

def Db.holdsProfile (db : Db) (tokenId : Int) (id : String) : Bool :=
  db.isJobOf tokenId id && db.pgoProfiles.contains id

-- The routes under /webhooks, /jobs and /pgo.
def Request.isTenantRoute (request : Request) : Bool :=
  match request with
  | .uploadProfiles _ _ | .getMergedProfile _ | .listJobs | .registerWebhook _ | .listWebhooks
  | .deleteWebhook _ => true
  | _ => false

/-- A failure of the second query tells a job of the token with a profile from one without. -/
def Reveals (tokenId : Int) (s s' : State) (request : Request) (ambient : Ambient) : Prop :=
  match request with
  | .getMergedProfile id =>
    s.db.holdsProfile tokenId id ≠ s'.db.holdsProfile tokenId id
      ∧ ambient.faults 1 .getPgoProfile = none ∧ ambient.faults 2 .getJobDetails ≠ none
  | _ => False

/-- The request leaves the rows of the token as they are, and its answer does not depend on them. -/
structure Isolates (crates : Crates) (settings : Settings) (tokenId : Int) (s s' : State)
    (request : Request) (ambient : Ambient) : Prop where
  rows : ((route crates settings request ambient).respond.runAlone s).snd.db.rowsOf tokenId
    = s.db.rowsOf tokenId
  response : request.isTenantRoute →
    ((route crates settings request ambient).respond.runAlone s).fst
      = ((route crates settings request ambient).respond.runAlone s').fst

namespace Db

structure Alike (tokenId : Int) (ids : List String) (db db' : Db) : Prop where
  webhooks : (db'.rowsBut tokenId).webhooks = (db.rowsBut tokenId).webhooks
  jobs : (db'.rowsBut tokenId).jobs = (db.rowsBut tokenId).jobs
  pgoProfiles : (db'.rowsBut tokenId).pgoProfiles = (db.rowsBut tokenId).pgoProfiles
  tokens : db'.tokens = db.tokens
  lastWebhookId : db'.lastWebhookId = db.lastWebhookId
  counts : db.CountsWebhooks
  counts' : db'.CountsWebhooks
  spares : ∀ id ∈ ids, db.isJobOf tokenId id = false
  spares' : ∀ id ∈ ids, db'.isJobOf tokenId id = false

variable {db db' : Db} {tokenId owner : Int} {ids : List String} {id : String}

theorem find?_jobs (h : db.isJobOf tokenId id = false)
    : db.jobs.find? id = (db.rowsBut tokenId).jobs.find? fun row => row.id = id := by
  apply Table.find?_eq_find?_filter
  intro row hrow hid
  simpa using ne_of_isJobOf h hrow hid

theorem find?_pgoProfiles (h : db.isJobOf tokenId id = false)
    : db.pgoProfiles.find? id
        =
      (db.rowsBut tokenId).pgoProfiles.find? fun row => row.instrumentJobId = id := by
  apply Table.find?_eq_find?_filter
  intro row _ hid
  rw [hid, h]
  rfl

-- Conditions that exclude the rows of the token see no difference.

theorem filter_filter_owner {ρ : Type} {rows : List ρ} {ownerOf : ρ → Int} (howner : owner ≠ tokenId)
    (p : ρ → Bool)
    : (rows.filter fun row => ownerOf row ≠ tokenId).filter
          (fun row => ownerOf row = owner && p row)
        =
      rows.filter fun row => ownerOf row = owner && p row := by
  rw [List.filter_filter]
  apply List.filter_congr
  intro row _
  by_cases hrow : ownerOf row = owner
  . simp [hrow, howner]
  . simp [hrow]

theorem agree_inserted {ρ κ : Type} [DecidableEq κ] {key : ρ → κ} {R : Db → Db → Prop}
    {columns : String} {references references' : Bool} (hreferences : references' = references)
    {table table' : Table key} {row row' : ρ} (hrow : row' = row) {store store' : Table key → Db}
    (hfind : table'.find? (key row) = table.find? (key row))
    (h : ∀ inserted inserted', table.insert? row = some inserted →
      table'.insert? row = some inserted' → R (store inserted) (store' inserted'))
    : Sql.Agree R (inserted columns references (table.insert? row) store)
        (inserted columns references' (table'.insert? row') store') := by
  rw [hreferences, hrow]
  cases hinsert : table.insert? row with
  | none =>
    have hinsert' : table'.insert? row = none := by
      rw [Table.insert?_eq_none_iff] at hinsert ⊢
      unfold Table.contains at *
      rw [hfind]
      exact hinsert
    rw [hinsert']
    exact .inl ⟨_, rfl, rfl⟩
  | some stored =>
    cases hinsert' : table'.insert? row with
    | none =>
      rw [Table.insert?_eq_none_iff, Table.contains, hfind] at hinsert'
      rw [Table.find?_fresh_of_insert? hinsert] at hinsert'
      contradiction
    | some stored' =>
      cases references with
      | false => exact .inl ⟨_, rfl, rfl⟩
      | true => exact .inr ⟨_, _, rfl, rfl, h stored stored' hinsert hinsert'⟩

theorem CountsWebhooks.find?_next (h : db.CountsWebhooks)
    : db.webhooks.find? (db.lastWebhookId + 1) = none := by
  rw [Table.find?_eq_none_iff]
  intro row hrow hid
  have := h row hrow
  omega

theorem coincides_insertWebhook (owner : Int) (url secret createdAt : String)
    : Sql.Coincides (Alike tokenId ids) (insertWebhook owner url secret createdAt) := by
  apply Sql.Coincides.bind
  . apply Sql.coincides_execute
    intro db db' h
    apply agree_inserted
    . rw [h.tokens]
    . rw [h.lastWebhookId]
    . have hnext := h.counts'.find?_next
      rw [h.lastWebhookId] at hnext
      exact hnext.trans h.counts.find?_next.symm
    . intro webhooks webhooks' hinsert hinsert'
      refine { h with
        webhooks := ?_
        lastWebhookId := congrArg (· + 1) h.lastWebhookId
        counts := counts_of_insert? h.counts hinsert rfl
        counts' := counts_of_insert? h.counts' hinsert' ?_ }
      . unfold rowsBut
        dsimp only
        rw [Table.filter_of_insert? hinsert, Table.filter_of_insert? hinsert']
        exact congrArg (· ++ _) h.webhooks
      . rw [h.lastWebhookId]
  . intro _
    apply Sql.coincides_query
    intro db db' h
    exact h.lastWebhookId.symm

theorem coincides_getWebhooksForToken (howner : owner ≠ tokenId)
    : Sql.Coincides (Alike tokenId ids) (getWebhooksForToken owner) := by
  apply Sql.coincides_query
  intro db db' h
  have hfilter := congrArg (List.filter fun row => row.tokenId = owner && row.isActive) h.webhooks
  unfold rowsBut at hfilter
  dsimp only at hfilter
  rw [filter_filter_owner howner, filter_filter_owner howner] at hfilter
  rw [hfilter]

theorem any_filter_owner {ρ : Type} {rows : List ρ} {ownerOf : ρ → Int} (howner : owner ≠ tokenId)
    (p : ρ → Bool)
    : (rows.filter fun row => ownerOf row ≠ tokenId).any (fun row => p row && ownerOf row = owner)
        =
      rows.any fun row => p row && ownerOf row = owner := by
  rw [List.any_filter]
  apply List.any_congr rfl
  intro row
  by_cases hrow : ownerOf row = owner
  . simp [hrow, howner]
  . simp [hrow]

theorem coincides_deactivateWebhook (howner : owner ≠ tokenId) (id : Int)
    : Sql.Coincides (Alike tokenId ids) (deactivateWebhook id owner) := by
  apply Sql.coincides_execute
  intro db db' h
  have hany := congrArg (List.any · fun row => row.id = id && row.tokenId = owner) h.webhooks
  unfold rowsBut at hany
  dsimp only at hany
  rw [any_filter_owner howner, any_filter_owner howner] at hany
  rw [hany]
  split
  . refine .inr ⟨db.deactivated id owner, db'.deactivated id owner, rfl, rfl, ?_⟩
    refine { h with
      webhooks := ?_
      counts := counts_deactivated h.counts id owner
      counts' := counts_deactivated h.counts' id owner }
    have hkeep : ∀ row : WebhookRow,
        decide ((if row.tokenId = owner then { row with isActive := false } else row).tokenId
          ≠ tokenId) = decide (row.tokenId ≠ tokenId) := by
      intro row
      split <;> rfl
    unfold rowsBut deactivated
    dsimp only
    rw [Table.filter_updateKey _ _ _ hkeep, Table.filter_updateKey _ _ _ hkeep]
    exact congrArg (List.map _) h.webhooks
  . exact .inl ⟨_, rfl, rfl⟩

theorem coincides_getRecentJobs (howner : owner ≠ tokenId) (limit : Nat)
    : Sql.Coincides (Alike tokenId ids) (getRecentJobs owner limit) := by
  apply Sql.coincides_query
  intro db db' h
  have hfilter := congrArg (List.filter fun row => row.tokenId = owner && true) h.jobs
  unfold rowsBut at hfilter
  dsimp only at hfilter
  rw [filter_filter_owner howner, filter_filter_owner howner] at hfilter
  simp only [Bool.and_true] at hfilter
  rw [hfilter]

theorem find?_jobs_eq_none (hjobs : (db'.rowsBut tokenId).jobs = (db.rowsBut tokenId).jobs)
    (hid : db.isJobOf tokenId id = false) (hid' : db'.isJobOf tokenId id)
    : db.jobs.find? id = none := by
  rw [find?_jobs hid, List.find?_eq_none]
  intro row hrow hsame
  rw [← hjobs] at hrow
  have ⟨hmem, hother⟩ := List.mem_filter.mp hrow
  rw [decide_eq_true_eq] at hsame hother
  rw [isJobOf_eq, Option.any_eq_true] at hid'
  rcases hid' with ⟨row', hfind, howner⟩
  rw [← hsame, Table.find?_of_mem hmem] at hfind
  injection hfind with heq
  rw [← heq, decide_eq_true_eq] at howner
  exact hother howner

theorem contains_pgoProfiles_eq_false
    (hprofiles : (db'.rowsBut tokenId).pgoProfiles = (db.rowsBut tokenId).pgoProfiles)
    (hid : db.isJobOf tokenId id = false) (hid' : db'.isJobOf tokenId id)
    : db.pgoProfiles.contains id = false := by
  unfold Table.contains
  rw [find?_pgoProfiles hid, Option.isSome_eq_false_iff, Option.isNone_iff_eq_none,
    List.find?_eq_none]
  intro row hrow hsame
  rw [← hprofiles] at hrow
  have hother := (List.mem_filter.mp hrow).right
  rw [decide_eq_true_eq] at hsame
  rw [hsame, hid'] at hother
  contradiction

theorem Alike.find?_jobs (h : db.Alike tokenId ids db') (hid : id ∈ ids)
    : db'.jobs.find? id = db.jobs.find? id := by
  rw [Db.find?_jobs (h.spares id hid), Db.find?_jobs (h.spares' id hid), h.jobs]

theorem Alike.find?_pgoProfiles (h : db.Alike tokenId ids db') (hid : id ∈ ids)
    : db'.pgoProfiles.find? id = db.pgoProfiles.find? id := by
  rw [Db.find?_pgoProfiles (h.spares id hid), Db.find?_pgoProfiles (h.spares' id hid),
    h.pgoProfiles]

theorem coincides_getPgoProfile (hid : id ∈ ids)
    : Sql.Coincides (Alike tokenId ids) (getPgoProfile id) := by
  apply Sql.coincides_query
  intro db db' h
  exact (h.find?_pgoProfiles hid).symm

theorem coincides_getJobDetails {crates : Crates} (hid : id ∈ ids)
    : Sql.Coincides (Alike tokenId ids) (getJobDetails crates id) := by
  apply Sql.coincides_query
  intro db db' h
  rw [h.find?_jobs hid]

theorem Alike.cons (h : db.Alike tokenId ids db') (hid : db.isJobOf tokenId id = false)
    (hid' : db'.isJobOf tokenId id = false)
    : db.Alike tokenId (id :: ids) db' := by
  refine { h with spares := ?_, spares' := ?_ }
  . exact List.forall_mem_cons.mpr ⟨hid, h.spares⟩
  . exact List.forall_mem_cons.mpr ⟨hid', h.spares'⟩

theorem coincides_insertPgoProfile (hid : id ∈ ids) (profilesDir createdAt : String)
    : Sql.Coincides (Alike tokenId ids) (insertPgoProfile id profilesDir createdAt) := by
  apply Sql.coincides_execute
  intro db db' h
  apply agree_inserted
  . unfold Table.contains
    rw [h.find?_jobs hid]
  . rfl
  . exact h.find?_pgoProfiles hid
  . intro pgoProfiles pgoProfiles' hinsert hinsert'
    refine { h with pgoProfiles := ?_ }
    unfold rowsBut
    dsimp only
    rw [Table.filter_of_insert? hinsert, Table.filter_of_insert? hinsert']
    change _ ++ (if !db'.isJobOf tokenId id then _ else _)
      = _ ++ if !db.isJobOf tokenId id then _ else _
    rw [h.spares id hid, h.spares' id hid]
    exact congrArg (· ++ _) h.pgoProfiles

theorem coincides_updatePgoMergedPath (id mergedPath : String)
    : Sql.Coincides (Alike tokenId ids) (updatePgoMergedPath id mergedPath) := by
  apply Sql.coincides_execute
  intro db db' h
  refine .inr ⟨_, _, rfl, rfl, ?_⟩
  refine { h with pgoProfiles := ?_ }
  unfold rowsBut
  dsimp only
  rw [Table.filter_updateKey, Table.filter_updateKey]
  . exact congrArg (List.map _) h.pgoProfiles
  . intro row
    rfl
  . intro row
    rfl

theorem Alike.with_jobs (h : db.Alike tokenId ids db') {jobs jobs' : Table JobRow.id}
    (hown : jobs.rows.filter (fun row => row.tokenId = tokenId)
      = db.jobs.rows.filter fun row => row.tokenId = tokenId)
    (hown' : jobs'.rows.filter (fun row => row.tokenId = tokenId)
      = db'.jobs.rows.filter fun row => row.tokenId = tokenId)
    (hbut : jobs'.rows.filter (fun row => row.tokenId ≠ tokenId)
      = jobs.rows.filter fun row => row.tokenId ≠ tokenId)
    : { db with jobs }.Alike tokenId ids { db' with jobs := jobs' } := by
  have hisJobOf := isJobOf_with_jobs hown
  have hisJobOf' := isJobOf_with_jobs hown'
  refine { h with jobs := hbut, pgoProfiles := ?_, spares := ?_, spares' := ?_ }
  . unfold rowsBut
    rw [hisJobOf, hisJobOf']
    exact h.pgoProfiles
  . rw [hisJobOf]
    exact h.spares
  . rw [hisJobOf']
    exact h.spares'

theorem coincides_insertJob {crates : Crates} {job : Job} (howner : job.tokenId ≠ tokenId)
    (hid : job.id ∈ ids) (hsource : ∀ source, job.pgoSourceJobId = some source → source ∈ ids)
    (queuedAt : String)
    : Sql.Coincides (Alike tokenId ids) (insertJob crates job.id job.tokenId job.project job.gitRef
        job.hardware queuedAt job.jobType job.pgoSourceJobId) := by
  apply Sql.coincides_execute
  intro db db' h
  apply agree_inserted
  . rw [h.tokens]
    cases hjob : job.pgoSourceJobId with
    | none => rfl
    | some source =>
      unfold Table.contains
      simp only [Option.all_some, h.find?_jobs (hsource source hjob)]
  . rfl
  . exact h.find?_jobs hid
  . intro jobs jobs' hinsert hinsert'
    have hjobs := h.jobs
    unfold rowsBut at hjobs
    apply h.with_jobs
    . rw [Table.filter_of_insert? hinsert, decide_eq_false howner, if_neg Bool.false_ne_true,
        List.append_nil]
    . rw [Table.filter_of_insert? hinsert', decide_eq_false howner, if_neg Bool.false_ne_true,
        List.append_nil]
    . rw [Table.filter_of_insert? hinsert, Table.filter_of_insert? hinsert']
      exact congrArg (· ++ _) hjobs

theorem coincides_updateJobStatus (hid : id ∈ ids) (status : Status)
    (startedAt finishedAt errorMsg : Option String)
    : Sql.Coincides (Alike tokenId ids)
        (updateJobStatus id status startedAt finishedAt errorMsg) := by
  apply Sql.coincides_execute
  intro db db' h
  refine .inr ⟨_, _, rfl, rfl, ?_⟩
  apply h.with_jobs
  . exact filter_updateJobStatus (h.spares id hid) _ _ _ _
  . exact filter_updateJobStatus (h.spares' id hid) _ _ _ _
  . rw [Table.filter_updateKey, Table.filter_updateKey]
    . exact congrArg (List.map _) h.jobs
    . intro row
      rfl
    . intro row
      rfl

end Db

-- The handlers

structure Resembles (tokenId : Int) (ids : List String) (s s' : State) : Prop where
  db : s.db.Alike tokenId ids s'.db
  queue : s'.queue = s.queue
  files : s'.files = s.files

variable {crates : Crates} {settings : Settings} {ambient : Ambient} {tokenId owner : Int}
  {ids : List String}

theorem coincides_lockDb {α : Type} {program : DbM α}
    (h : Sql.Coincides (Db.Alike tokenId ids) program) (faults : Faults Stmt)
    : Coincides (Resembles tokenId ids) (lockDb faults program) := by
  apply coincides_atomic
  intro s s' halike
  have ⟨hres, hdb⟩ := h faults s.db s'.db halike.db
  exact ⟨hres, hdb, halike.queue, halike.files⟩

theorem coincides_exists? (path : Path) : Coincides (Resembles tokenId ids) (exists? path) := by
  apply coincides_atomic
  intro s s' h
  refine ⟨?_, h⟩
  unfold State.exists?
  rw [h.files]

theorem coincides_readFile (path : Path)
    : Coincides (Resembles tokenId ids) (readFile ambient path) := by
  apply coincides_atomic
  intro s s' h
  rw [h.files]
  split <;> exact ⟨rfl, h⟩

theorem coincides_submit {job : Job} (howner : job.tokenId ≠ tokenId) (hid : job.id ∈ ids)
    (hsource : ∀ source, job.pgoSourceJobId = some source → source ∈ ids) (scope : Nat)
    (queuedAt : DateTime) (insertError : String) (accept : String → Response)
    : Coincides (Resembles tokenId ids)
        (submit crates ambient scope job queuedAt insertError accept).run := by
  unfold submit
  apply Coincides.bindExcept
  . apply Coincides.liftExcept
    apply coincides_atomic
    intro s s' h
    have ⟨hres, hdb⟩ := @Db.coincides_insertJob _ _ crates _ howner hid hsource
      queuedAt.toRfc3339 (ambient.faults scope) s.db s'.db h.db
    unfold State.runDb
    dsimp only
    rw [← hres]
    split
    . exact ⟨rfl, hdb, h.queue, h.files⟩
    . exact ⟨rfl, hdb, h.queue, h.files⟩
  . intro res
    split
    . exact coincides_throw _
    . apply Coincides.bindExcept
      . apply Coincides.liftExcept
        apply coincides_atomic
        intro s s' h
        rw [h.queue]
        dsimp only
        split
        . exact ⟨rfl, h.db, rfl, h.files⟩
        . exact ⟨rfl, h.db, rfl, h.files⟩
      . intro res
        split
        . exact coincides_pure _
        . apply Coincides.bindExcept
            (coincides_lockDb (Db.coincides_updateJobStatus hid _ _ _ _) _).liftExcept
          intro _
          exact coincides_throw _
        . exact coincides_throw _

theorem coincides_profilesDir {instrumentJobId : String} (hid : instrumentJobId ∈ ids)
    (upload : Upload)
    : Coincides (Resembles tokenId ids)
        (uploadProfilesHandler.profilesDir settings ambient upload instrumentJobId).run := by
  apply coincides_atomic
  intro s s' h
  have hget : ∀ s : State, (s.runDb (ambient.faults 2) (Db.getPgoProfile instrumentJobId)).snd = s :=
    fun s => runDb_query _ s _ _
  have hres : (s.runDb (ambient.faults 2) (Db.getPgoProfile instrumentJobId)).fst
      = (s'.runDb (ambient.faults 2) (Db.getPgoProfile instrumentJobId)).fst :=
    (Db.coincides_getPgoProfile hid (ambient.faults 2) s.db s'.db h.db).left
  have hs := hget s
  have hs' := hget s'
  generalize s.runDb (ambient.faults 2) (Db.getPgoProfile instrumentJobId) = queried at *
  generalize s'.runDb (ambient.faults 2) (Db.getPgoProfile instrumentJobId) = queried' at *
  rcases queried with ⟨res, _⟩
  rcases queried' with ⟨res', _⟩
  dsimp only at hres hs hs'
  rw [← hres, hs, hs']
  split
  . next heq =>
    injection heq with heq hs
    rw [heq, ← hs]
    exact ⟨rfl, h⟩
  . next heq =>
    injection heq with heq hs
    rw [heq, ← hs]
    exact ⟨rfl, h⟩
  . next heq =>
    injection heq with heq hs
    rw [heq, ← hs]
    dsimp only
    cases upload.createDirAll with
    | some err => exact ⟨rfl, h⟩
    | none =>
      have ⟨hinsert, hdb⟩ := Db.coincides_insertPgoProfile hid
        ((settings.artifactsDir.join (.ofString "pgo_profiles")).join
          (.ofString instrumentJobId)).display ambient.now.toRfc3339 (ambient.faults 2) s.db s'.db h.db
      unfold State.runDb State.perform
      dsimp only
      rw [← hinsert]
      split
      . next hrun =>
        injection hrun with hfst hsnd
        rw [← hsnd, hfst]
        exact ⟨rfl, hdb, h.queue, h.files⟩
      . next hrun =>
        injection hrun with hfst hsnd
        rw [← hsnd, hfst]
        exact ⟨rfl, hdb, h.queue, h.files⟩

theorem coincides_saveParts (upload : Upload) (dir : Path) (parts : List Part) (filesSaved : Nat)
    : Coincides (Resembles tokenId ids)
        (uploadProfilesHandler.saveParts upload dir parts filesSaved).run := by
  induction parts generalizing filesSaved with
  | nil => exact coincides_pure _
  | cons part parts ih =>
    unfold uploadProfilesHandler.saveParts
    split
    . exact coincides_throw _
    . split
      . exact ih filesSaved
      . split
        . exact coincides_throw _
        . split
          . exact coincides_throw _
          . split
            . exact ih filesSaved
            . apply Coincides.bindExcept
              . apply coincides_atomic
                intro s s' h
                cases upload.write filesSaved with
                | some err => exact ⟨rfl, h⟩
                | none => exact ⟨rfl, h.db, h.queue, congrArg (Table.replace · _) h.files⟩
              . intro _
                exact ih (filesSaved + 1)

theorem coincides_merge (upload : Upload) (dir mergedPath : Path)
    : Coincides (Resembles tokenId ids)
        (uploadProfilesHandler.merge upload dir mergedPath).run := by
  unfold uploadProfilesHandler.merge
  apply Coincides.bindExcept
  . apply coincides_atomic
    intro s s' h
    rw [h.files]
    dsimp only
    split
    . exact ⟨rfl, h⟩
    . split
      . exact ⟨rfl, h⟩
      . exact ⟨rfl, h⟩
  . intro cmd
    apply Coincides.bindExcept
    . apply Coincides.liftExcept
      apply coincides_atomic
      intro s s' h
      dsimp only
      split
      . exact ⟨rfl, h.db, h.queue, congrArg (Table.replace · _) h.files⟩
      . exact ⟨rfl, h.db, h.queue, h.files⟩
    . intro _
      split
      . exact coincides_throw _
      . exact coincides_throw _
      . split
        . exact coincides_throw _
        . exact coincides_pure _

theorem coincides_mergeAndSubmit {instrumentJobId : String} (hid : instrumentJobId ∈ ids)
    (huuid : ambient.uuid ∈ ids) (upload : Upload) (jobDetails : Db.JobDetails)
    (howner : owner ≠ tokenId)
    : Coincides (Resembles tokenId ids)
        (uploadProfilesHandler.mergeAndSubmit crates settings ambient upload instrumentJobId
          jobDetails owner).run := by
  unfold uploadProfilesHandler.mergeAndSubmit
  apply Coincides.bindExcept (coincides_profilesDir hid _)
  intro dir
  apply Coincides.bindExcept (coincides_saveParts _ _ _ _)
  intro filesSaved
  split
  . exact coincides_throw _
  . apply Coincides.bindExcept (coincides_merge _ _ _)
    intro _
    apply Coincides.bindExcept
      (coincides_lockDb (Db.coincides_updatePgoMergedPath _ _) _).liftExcept
    intro res
    split
    . exact coincides_throw _
    . apply coincides_submit
      . exact howner
      . exact huuid
      . intro source hsource
        injection hsource with hsource
        rw [← hsource]
        exact hid

-- Two requests at once

variable {s s' : State} {token : Token}

theorem Resembles.respond {handler : Handler Response}
    (h : Coincides (Resembles tokenId ids) handler.run) (hresembles : Resembles tokenId ids s s')
    : (handler.respond.runAlone s).fst = (handler.respond.runAlone s').fst := by
  have hrespond : Coincides (Resembles tokenId ids) handler.respond := by
    apply Coincides.bind h
    intro res
    split <;> exact coincides_pure _
  exact (hrespond s s' hresembles).left

theorem Resembles.with_rateLimit (h : Resembles tokenId ids s s')
    (rateLimit rateLimit' : Table RateLimitRow.key)
    : Resembles tokenId ids { s with db := { s.db with rateLimit } }
        { s' with db := { s'.db with rateLimit := rateLimit' } } where
  db := { h.db with }
  queue := h.queue
  files := h.files

theorem coincides_authenticate (rawToken : String) (now : DateTime) (limit : Nat)
    : Sql.Coincides (fun db db' : Db => db'.tokens = db.tokens ∧ db'.rateLimit = db.rateLimit)
        (authenticateAndRateLimit.go crates rawToken now limit) := by
  unfold authenticateAndRateLimit.go
  apply Sql.Coincides.bind
  . apply Sql.coincides_query
    intro db db' h
    rw [h.left]
  . intro activeTokens
    split
    . exact Sql.coincides_pure _
    . split
      . exact Sql.coincides_pure _
      . apply Sql.Coincides.bind
        . apply Sql.coincides_execute
          intro db db' h
          refine .inr ⟨_, _, rfl, rfl, h.left, ?_⟩
          dsimp only
          rw [h.right]
        . intro _
          apply Sql.Coincides.bind
          . apply Sql.coincides_query
            intro db db' h
            rw [h.right]
          . intro currentRequests
            split
            . exact Sql.coincides_pure _
            . apply Sql.Coincides.bind
              . apply Sql.coincides_execute
                intro db db' h
                rw [h.left]
                split
                . refine .inr ⟨_, _, rfl, rfl, rfl, ?_⟩
                  dsimp only
                  rw [h.right]
                . exact .inl ⟨_, rfl, rfl⟩
              . intro _
                exact Sql.coincides_pure _

theorem AuthenticatesAs.congr (h : AuthenticatesAs crates settings ambient s token)
    (htokens : s'.db.tokens = s.db.tokens) (hrateLimit : s'.db.rateLimit = s.db.rateLimit)
    : AuthenticatesAs crates settings ambient s' token := by
  rcases h with ⟨secret, hbearer, hok⟩
  refine ⟨secret, hbearer, ?_⟩
  have hfst := (@coincides_authenticate crates secret ambient.now settings.rateLimitLimit
    (ambient.faults 0) s.db s'.db ⟨htokens, hrateLimit⟩).left
  rw [← hok]
  unfold authenticateAndRateLimit
  generalize (authenticateAndRateLimit.go crates secret ambient.now settings.rateLimitLimit).run
    (ambient.faults 0) s.db = decided at hfst
  generalize (authenticateAndRateLimit.go crates secret ambient.now settings.rateLimitLimit).run
    (ambient.faults 0) s'.db = decided' at hfst
  rcases decided with ⟨res, _⟩
  rcases decided' with ⟨res', _⟩
  dsimp only at hfst
  rw [← hfst]
  cases res <;> rfl

section Tail

variable (hauth : AuthenticatesAs crates settings ambient s token)
  (hauth' : AuthenticatesAs crates settings ambient s' token)
include hauth hauth'

theorem fst_runAlone_eq {refuse : AuthError → Response} {next : String × Token → Handler Response}
    {tail : Handler Response} (hnext : ∀ secret, next (secret, token) = tail)
    (htail : Coincides (Resembles tokenId ids) tail.run) (h : Resembles tokenId ids s s')
    : ((authenticate crates settings ambient refuse >>= next).respond.runAlone s).fst
        =
      ((authenticate crates settings ambient refuse >>= next).respond.runAlone s').fst := by
  rcases hauth.runAlone_bind refuse next with ⟨secret, rateLimit, hrun⟩
  rcases hauth'.runAlone_bind refuse next with ⟨secret', rateLimit', hrun'⟩
  rw [hrun, hrun', hnext, hnext]
  exact (h.with_rateLimit rateLimit rateLimit').respond htail

variable (howner : token.id ≠ tokenId)
include howner

omit howner in
theorem fst_registerWebhook (h : Resembles tokenId [] s s') (payload : WebhookRequest)
    : ((route crates settings (.registerWebhook payload) ambient).respond.runAlone s).fst
        =
      ((route crates settings (.registerWebhook payload) ambient).respond.runAlone s').fst := by
  apply fst_runAlone_eq hauth hauth' (fun _ => rfl) _ h
  apply Coincides.bindExcept (coincides_lockDb (Db.coincides_insertWebhook _ _ _ _) _).liftExcept
  intro res
  split
  . exact coincides_pure _
  . exact coincides_throw _

theorem fst_listWebhooks (h : Resembles tokenId [] s s')
    : ((route crates settings .listWebhooks ambient).respond.runAlone s).fst
        =
      ((route crates settings .listWebhooks ambient).respond.runAlone s').fst := by
  apply fst_runAlone_eq hauth hauth' (fun _ => rfl) _ h
  apply Coincides.bindExcept
    (coincides_lockDb (Db.coincides_getWebhooksForToken howner) _).liftExcept
  intro res
  split
  . exact coincides_pure _
  . exact coincides_throw _

theorem fst_deleteWebhook (h : Resembles tokenId [] s s') (id : Int)
    : ((route crates settings (.deleteWebhook id) ambient).respond.runAlone s).fst
        =
      ((route crates settings (.deleteWebhook id) ambient).respond.runAlone s').fst := by
  apply fst_runAlone_eq hauth hauth' (fun _ => rfl) _ h
  apply Coincides.bindExcept
    (coincides_lockDb (Db.coincides_deactivateWebhook howner id) _).liftExcept
  intro res
  split
  . exact coincides_pure _
  . exact coincides_throw _
  . exact coincides_throw _

theorem fst_listJobs (h : Resembles tokenId [] s s')
    : ((route crates settings .listJobs ambient).respond.runAlone s).fst
        =
      ((route crates settings .listJobs ambient).respond.runAlone s').fst := by
  apply fst_runAlone_eq hauth hauth' (fun _ => rfl) _ h
  apply Coincides.bindExcept (coincides_lockDb (Db.coincides_getRecentJobs howner 50) _).liftExcept
  intro res
  split
  . exact coincides_pure _
  . exact coincides_throw _

omit hauth' in
theorem fst_uploadProfiles_of_missing {instrumentJobId : String}
    (hmissing : s.db.isJobOf tokenId instrumentJobId ∨ s.db.jobs.find? instrumentJobId = none)
    (upload : Upload)
    : ((route crates settings (.uploadProfiles instrumentJobId upload) ambient).respond.runAlone s).fst
        =
      match ambient.faults 1 .getJobDetails with
      | some msg => databaseError (.failure msg)
      | none => .text .notFound "Job not found" := by
  rcases hauth.runAlone_bind refuseByCause _ with ⟨secret, rateLimit, hrun⟩
  refine (congrArg Prod.fst hrun).trans ?_
  dsimp only
  rw [Db.getJobDetails, runAlone_query_bind]
  cases ambient.faults 1 .getJobDetails with
  | some msg => rfl
  | none =>
    dsimp only
    cases hfind : s.db.jobs.find? instrumentJobId with
    | none => rfl
    | some row =>
      rw [hfind, Db.isJobOf_eq, hfind] at hmissing
      have hrow : row.tokenId = tokenId := by simpa using hmissing
      rw [Option.map_some]
      unfold uploadProfilesHandler.verify
      simp only [hrow]
      rw [if_pos (Ne.symm howner)]
      rfl

theorem fst_uploadProfiles (h : Resembles tokenId [ambient.uuid] s s') (instrumentJobId : String)
    (upload : Upload)
    : ((route crates settings (.uploadProfiles instrumentJobId upload) ambient).respond.runAlone s).fst
        =
      ((route crates settings (.uploadProfiles instrumentJobId upload) ambient).respond.runAlone
        s').fst := by
  by_cases hothers : s.db.isJobOf tokenId instrumentJobId = false
      ∧ s'.db.isJobOf tokenId instrumentJobId = false
  . have hcons : Resembles tokenId [instrumentJobId, ambient.uuid] s s' :=
      { h with db := h.db.cons hothers.left hothers.right }
    apply fst_runAlone_eq hauth hauth' (fun _ => rfl) _ hcons
    apply Coincides.bindExcept
      (coincides_lockDb (Db.coincides_getJobDetails List.mem_cons_self) _).liftExcept
    intro res
    split
    . exact coincides_throw _
    . exact coincides_throw _
    . split
      . exact coincides_throw _
      . apply coincides_mergeAndSubmit
        . simp
        . simp
        . exact howner
  . have hmissing : s.db.isJobOf tokenId instrumentJobId
        ∨ s.db.jobs.find? instrumentJobId = none := by
      cases hid : s.db.isJobOf tokenId instrumentJobId with
      | true => exact .inl rfl
      | false => exact .inr (Db.find?_jobs_eq_none h.db.jobs hid (by simpa [hid] using hothers))
    have hmissing' : s'.db.isJobOf tokenId instrumentJobId
        ∨ s'.db.jobs.find? instrumentJobId = none := by
      cases hid : s'.db.isJobOf tokenId instrumentJobId with
      | true => exact .inl rfl
      | false => exact .inr (Db.find?_jobs_eq_none h.db.jobs.symm hid (by simpa [hid] using hothers))
    rw [fst_uploadProfiles_of_missing hauth howner hmissing,
      fst_uploadProfiles_of_missing hauth' howner hmissing']

omit hauth' in
theorem fst_getMergedProfile_of_hidden {instrumentJobId : String}
    (hhidden : s.db.isJobOf tokenId instrumentJobId
      ∨ s.db.pgoProfiles.contains instrumentJobId = false)
    : ((route crates settings (.getMergedProfile instrumentJobId) ambient).respond.runAlone s).fst
        =
      .text .notFound
        (if s.db.holdsProfile tokenId instrumentJobId ∧ ambient.faults 1 .getPgoProfile = none
            ∧ ambient.faults 2 .getJobDetails ≠ none then
          "Job not found"
        else
          "Profile not found") := by
  rcases hauth.runAlone_bind refuseAll _ with ⟨secret, rateLimit, hrun⟩
  refine (congrArg Prod.fst hrun).trans ?_
  dsimp only
  unfold Db.holdsProfile
  rw [Db.getPgoProfile, runAlone_query_bind]
  cases ambient.faults 1 .getPgoProfile with
  | some msg =>
    rw [if_neg (by simp)]
    rfl
  | none =>
    dsimp only
    unfold Table.contains at *
    cases hfind : s.db.pgoProfiles.find? instrumentJobId with
    | none =>
      rw [if_neg (by simp)]
      rfl
    | some profile =>
      rw [hfind] at hhidden
      have hid : s.db.isJobOf tokenId instrumentJobId := by simpa using hhidden
      have hjob := hid
      rw [Db.isJobOf_eq, Option.any_eq_true] at hjob
      rcases hjob with ⟨row, hjob, hrow⟩
      rw [decide_eq_true_eq] at hrow
      dsimp only
      rw [Db.getJobDetails, runAlone_query_bind]
      cases ambient.faults 2 .getJobDetails with
      | some msg =>
        rw [if_pos (by simp [hid])]
        rfl
      | none =>
        simp only [hjob, Option.map_some, hrow]
        rw [if_pos (Ne.symm howner), if_neg (by simp)]
        rfl

omit howner in
theorem fst_getMergedProfile_of_mem {instrumentJobId : String} (hid : instrumentJobId ∈ ids)
    (h : Resembles tokenId ids s s')
    : ((route crates settings (.getMergedProfile instrumentJobId) ambient).respond.runAlone s).fst
        =
      ((route crates settings (.getMergedProfile instrumentJobId) ambient).respond.runAlone s').fst := by
  apply fst_runAlone_eq hauth hauth' (fun _ => rfl) _ h
  apply Coincides.bindExcept (coincides_lockDb (Db.coincides_getPgoProfile hid) _).liftExcept
  intro res
  split
  . apply Coincides.bindExcept (coincides_lockDb (Db.coincides_getJobDetails hid) _).liftExcept
    intro res
    split
    . split
      . exact coincides_throw _
      . split
        . exact coincides_throw _
        . apply Coincides.bindExcept (coincides_exists? _).liftExcept
          intro doesExist
          split
          . exact coincides_throw _
          . apply Coincides.bindExcept (coincides_readFile _).liftExcept
            intro content
            split
            . exact coincides_pure _
            . exact coincides_throw _
    . exact coincides_throw _
  . exact coincides_throw _

theorem fst_getMergedProfile_iff (h : Resembles tokenId [] s s') (instrumentJobId : String)
    : ((route crates settings (.getMergedProfile instrumentJobId) ambient).respond.runAlone s).fst
          = ((route crates settings (.getMergedProfile instrumentJobId) ambient).respond.runAlone
              s').fst
        ↔
      ¬ Reveals tokenId s s' (.getMergedProfile instrumentJobId) ambient := by
  by_cases hothers : s.db.isJobOf tokenId instrumentJobId = false
      ∧ s'.db.isJobOf tokenId instrumentJobId = false
  . have hcons : Resembles tokenId [instrumentJobId] s s' :=
      { h with db := h.db.cons hothers.left hothers.right }
    apply iff_of_true
    . exact fst_getMergedProfile_of_mem hauth hauth' List.mem_cons_self hcons
    . rintro ⟨hdiffer, _⟩
      unfold Db.holdsProfile at hdiffer
      rw [hothers.left, hothers.right] at hdiffer
      exact hdiffer rfl
  . have hhidden : s.db.isJobOf tokenId instrumentJobId
        ∨ s.db.pgoProfiles.contains instrumentJobId = false := by
      cases hid : s.db.isJobOf tokenId instrumentJobId with
      | true => exact .inl rfl
      | false =>
        exact .inr (Db.contains_pgoProfiles_eq_false h.db.pgoProfiles hid
          (by simpa [hid] using hothers))
    have hhidden' : s'.db.isJobOf tokenId instrumentJobId
        ∨ s'.db.pgoProfiles.contains instrumentJobId = false := by
      cases hid : s'.db.isJobOf tokenId instrumentJobId with
      | true => exact .inl rfl
      | false =>
        exact .inr (Db.contains_pgoProfiles_eq_false h.db.pgoProfiles.symm hid
          (by simpa [hid] using hothers))
    rw [fst_getMergedProfile_of_hidden hauth howner hhidden,
      fst_getMergedProfile_of_hidden hauth' howner hhidden']
    unfold Reveals
    by_cases hfaults : ambient.faults 1 .getPgoProfile = none
        ∧ ambient.faults 2 .getJobDetails ≠ none
    . cases hholds : s.db.holdsProfile tokenId instrumentJobId with
      | true =>
        cases hholds' : s'.db.holdsProfile tokenId instrumentJobId with
        | true => simp [hholds, hholds']
        | false => simp [hholds, hholds', hfaults, Response.text]
      | false =>
        cases hholds' : s'.db.holdsProfile tokenId instrumentJobId with
        | true => simp [hholds, hholds', hfaults, Response.text]
        | false => simp [hholds, hholds']
    . rw [if_neg (fun hall => hfaults hall.right), if_neg (fun hall => hfaults hall.right)]
      exact iff_of_true rfl fun hreveals => hfaults hreveals.right

end Tail

theorem Boots.countsWebhooks {boot : Boot} {db db' : Db} (h : Boots crates boot db db')
    (hdb : db.CountsWebhooks)
    : db'.CountsWebhooks := by
  cases h <;> exact hdb

theorem System.Reachable.countsWebhooks {system : System} (h : system.Reachable crates settings)
    : system.state.db.CountsWebhooks := by
  apply And.right
  apply h.of_turns (I := fun system => system.state.db.CountsWebhooks)
  . intro boot system₀ hmain
    apply (boots_main hmain).left.countsWebhooks
    intro row hrow
    contradiction
  . intro system system' action hturn hcounts
    cases hturn with
    | run _ _ hdeed => exact hdeed.counts hcounts
    | restart hboots => exact hboots.countsWebhooks hcounts
    | quiet hdb =>
      rw [hdb]
      exact hcounts

theorem DifferIn.resembles (h : DifferIn tokenId s s') (hcounts : s.db.CountsWebhooks)
    (hcounts' : s'.db.CountsWebhooks)
    : Resembles tokenId [] s s' where
  db := {
    webhooks := congrArg TenantRows.webhooks h.rows
    jobs := congrArg TenantRows.jobs h.rows
    pgoProfiles := congrArg TenantRows.pgoProfiles h.rows
    tokens := h.tokens
    lastWebhookId := h.lastWebhookId
    counts := hcounts
    counts' := hcounts'
    spares := by
      intro id hid
      contradiction
    spares' := by
      intro id hid
      contradiction }
  queue := h.queue
  files := h.files

theorem Resembles.isolates_iff (hresembles : Resembles tokenId [] s s')
    (hauth : AuthenticatesAs crates settings ambient s token)
    (hauth' : AuthenticatesAs crates settings ambient s' token) (howner : token.id ≠ tokenId)
    (huuid : s.db.isJobOf tokenId ambient.uuid = false)
    (huuid' : s'.db.isJobOf tokenId ambient.uuid = false) (request : Request)
    : Isolates crates settings tokenId s s' request ambient
        ↔
      ¬ Reveals tokenId s s' request ambient := by
  have hrows := rowsOf_route hauth howner huuid request
  cases request with
  | getMergedProfile id =>
    rw [← fst_getMergedProfile_iff hauth hauth' howner hresembles]
    exact ⟨fun h => h.response rfl, fun h => ⟨hrows, fun _ => h⟩⟩
  | uploadProfiles id upload =>
    have hcons : Resembles tokenId [ambient.uuid] s s' :=
      { hresembles with db := hresembles.db.cons huuid huuid' }
    exact iff_of_true ⟨hrows, fun _ => fst_uploadProfiles hauth hauth' howner hcons id upload⟩ not_false
  | registerWebhook payload =>
    exact iff_of_true ⟨hrows, fun _ => fst_registerWebhook hauth hauth' hresembles payload⟩ not_false
  | listWebhooks =>
    exact iff_of_true ⟨hrows, fun _ => fst_listWebhooks hauth hauth' howner hresembles⟩ not_false
  | deleteWebhook id =>
    exact iff_of_true ⟨hrows, fun _ => fst_deleteWebhook hauth hauth' howner hresembles id⟩ not_false
  | listJobs =>
    exact iff_of_true ⟨hrows, fun _ => fst_listJobs hauth hauth' howner hresembles⟩ not_false
  | _ => exact iff_of_true ⟨hrows, fun h => Bool.noConfusion h⟩ not_false

/--
A request that is authenticated as another token leaves the rows of this one as they are, and is
answered alike whatever these rows are, unless it makes the route for merged profiles fail between its
two queries.
-/
theorem tenants_isolated_iff (hauth : AuthenticatesAs crates settings ambient s token)
    (howner : token.id ≠ tokenId) (hdiffer : DifferIn tokenId s s') (hcounts : s.db.CountsWebhooks)
    (hcounts' : s'.db.CountsWebhooks) (hfresh : s.db.jobs.contains ambient.uuid = false)
    (hfresh' : s'.db.jobs.contains ambient.uuid = false) (request : Request)
    : Isolates crates settings tokenId s s' request ambient
        ↔
      ¬ Reveals tokenId s s' request ambient := by
  have hresembles := hdiffer.resembles hcounts hcounts'
  exact hresembles.isolates_iff hauth (hauth.congr hdiffer.tokens hdiffer.rateLimit) howner
    (Db.isJobOf_of_fresh hfresh) (Db.isJobOf_of_fresh hfresh') request

theorem System.Reachable.isolates_iff {system system' : System}
    (h : system.Reachable crates settings) (h' : system'.Reachable crates settings)
    (hauth : AuthenticatesAs crates settings ambient system.state token) (howner : token.id ≠ tokenId)
    (hdiffer : DifferIn tokenId system.state system'.state)
    (hfresh : system.state.db.jobs.contains ambient.uuid = false)
    (hfresh' : system'.state.db.jobs.contains ambient.uuid = false) (request : Request)
    : Isolates crates settings tokenId system.state system'.state request ambient
        ↔
      ¬ Reveals tokenId system.state system'.state request ambient := by
  have hresembles := hdiffer.resembles h.countsWebhooks h'.countsWebhooks
  exact hresembles.isolates_iff hauth (hauth.congr hdiffer.tokens hdiffer.rateLimit) howner
    (Db.isJobOf_of_fresh hfresh) (Db.isJobOf_of_fresh hfresh') request

namespace Samples

def settled : State := {
  db := { aliceAndBob with
    webhooks := ⟨[⟨1, 1, hook.url, hook.secret, "2026-05-17T16:53:00+00:00", true⟩], by simp⟩
    jobs := ⟨[.ofJob github.crates (job "https://github.com/a/b") "2026-05-17T16:53:01+00:00"],
      by simp⟩
    pgoProfiles := ⟨[⟨"8b7a3c52-1f60-4b0e-9a41-5d2f3f9e6c10", "artifacts/pgo_profiles", none,
      "2026-05-17T16:53:04+00:00"⟩], by simp⟩
    lastWebhookId := 1 }
  queue := .new 10
}

def vacant : State := { db := { aliceAndBob with lastWebhookId := 1 }, queue := .new 10 }

def bob : Token :=
  ⟨2, "$2b$04$abcdefghijklmnopqrstuuX.0K476TiQWtszti49XtOqvAx871FAO", "bob",
    "2026-05-17T16:00:00+00:00", true⟩

end Samples

theorem tenants_isolated_iff_hidden
    : Isolates Samples.github.crates Samples.settings 1 Samples.settled Samples.vacant
        (.getMergedProfile "8b7a3c52-1f60-4b0e-9a41-5d2f3f9e6c10")
        { Samples.ambient "4c1e" with authorization := some (asBytes "Bearer bob-token") } := by
  have hauth : AuthenticatesAs Samples.github.crates Samples.settings
      { Samples.ambient "4c1e" with authorization := some (asBytes "Bearer bob-token") }
      Samples.settled Samples.bob := ⟨"bob-token", by decide, by decide⟩
  apply (tenants_isolated_iff hauth (by decide) (by decide) _ _ (by decide) (by decide) _).mpr
  . rintro ⟨_, _, hfails⟩
    exact hfails rfl
  . intro row hrow
    rw [List.mem_singleton.mp hrow]
    decide
  . intro row hrow
    contradiction

namespace Samples

-- A build of the admin is instrumented, and there is another token.
def instrumentedFor (secret : String) : List Action :=
  [.request (.createToken ⟨"ci"⟩) (adminAmbient secret), .run 0, .run 0,
    .request (.build { request with pgoPhase := some "instrument" }) (adminAmbient "4c1e"), .run 1,
    .run 1, .run 1] ++ processed 2 externals 10

def bobAmbient (secret : String) (faults : Nat → Faults Stmt) : Ambient :=
  { Samples.ambient "" with authorization := some (asBytes ("Bearer " ++ secret)), faults }

theorem authenticates_as_bob {secret : String} {faults : Nat → Faults Stmt} {s : State}
    {token : Token}
    (hbearer : bearerToken (bobAmbient secret faults).authorization = some secret)
    (h : (authenticateAndRateLimit salted secret (time 1) 20 (faults 0) s.db).fst.toOption
      = some token)
    : AuthenticatesAs salted Samples.settings (bobAmbient secret faults) s token := by
  refine ⟨secret, hbearer, ?_⟩
  change (authenticateAndRateLimit salted secret (time 1) 20 (faults 0) s.db).fst = _
  cases hres : (authenticateAndRateLimit salted secret (time 1) 20 (faults 0) s.db).fst with
  | error err =>
    rw [hres] at h
    contradiction
  | ok token' =>
    rw [hres] at h
    exact congrArg Except.ok (Option.some.inj h)

-- The build cache costs too much to be compared.
def uncached (s : State) : State := { s with db := { s.db with buildCache := .empty } }

theorem exists_of_two_requests (actions : List Action) (request request' : Request)
    (ambient : Ambient) (n n' : Nat) (P : State → State → Prop) [DecidableRel P]
    (h : (main salted Samples.settings adminBoot (.empty Samples.settings)).any fun system₀ =>
      (Machine.run (System.step salted Samples.settings) system₀ actions).any fun system =>
        (Machine.run (System.step salted Samples.settings) system
            (.request request ambient :: List.replicate n (.run system.threads.length))).any
          fun left =>
            (Machine.run (System.step salted Samples.settings) system
                (.request request' ambient :: List.replicate n' (.run system.threads.length))).any
              fun right => P left.state right.state)
    : ∃ left right,
        System.Reachable salted Samples.settings left
          ∧
        System.Reachable salted Samples.settings right
          ∧
        right.state.db.buildCache = left.state.db.buildCache
          ∧
        P left.state right.state := by
  simp only [Option.any_eq_true, decide_eq_true_eq] at h
  rcases h with ⟨system₀, hmain, system, hrun, left, hleft, right, hright, hP⟩
  have hreachable : system.Reachable salted Samples.settings := ⟨adminBoot, system₀, _, hmain, hrun⟩
  refine ⟨left, right, hreachable.run hleft, hreachable.run hright, ?_, hP⟩
  rw [hreachable.buildCache_of_request hleft, hreachable.buildCache_of_request hright]

end Samples

/-- Another token can be told whether profiles of an instrumented build have been uploaded. -/
theorem tenants_profile_seen
    : ¬ ∀ crates settings system system' request ambient token tokenId,
        crates.HashesExactly →
        System.Reachable crates settings system →
        System.Reachable crates settings system' →
        AuthenticatesAs crates settings ambient system.state token →
        (∃ owner ∈ system.state.db.tokens.rows, owner.id = tokenId) →
        token.id ≠ tokenId →
        DifferIn tokenId system.state system'.state →
        system.state.db.jobs.contains ambient.uuid = false →
        system'.state.db.jobs.contains ambient.uuid = false →
          Isolates crates settings tokenId system.state system'.state request ambient := by
  intro hall
  let secret := "8b7a3c52-1f60-4b0e-9a41-5d2f3f9e6c10"
  let faults (scope : Nat) (stmt : Stmt) : Option String :=
    if scope = 2 ∧ stmt = .getJobDetails then some "disk I/O error" else none
  let ambient := Samples.bobAmbient secret faults
  let request : Request := .getMergedProfile "4c1e"
  rcases Samples.exists_of_two_requests (Samples.instrumentedFor secret)
      (.uploadProfiles "4c1e" { Samples.upload with parts := [] }) .listJobs
      (Samples.adminAmbient "9b7d") 3 2
      (fun s s' =>
        ((authenticateAndRateLimit Samples.salted secret (Samples.time 1) 20 (faults 0)
          s.db).fst.toOption.any fun token => token.id = 2)
        ∧ (∃ owner ∈ s.db.tokens.rows, owner.id = 1)
        ∧ DifferIn 1 (Samples.uncached s) (Samples.uncached s')
        ∧ s.db.jobs.contains "" = false
        ∧ s'.db.jobs.contains "" = false
        ∧ ((route Samples.salted Samples.settings request ambient).respond.runAlone s).fst
          ≠ ((route Samples.salted Samples.settings request ambient).respond.runAlone s').fst)
      (by decide +kernel) with
    ⟨left, right, hreachable, hreachable', hcache, hauth, howner, huncached, hfresh, hfresh', hne⟩
  have hdiffer : DifferIn 1 left.state right.state := { huncached with buildCache := hcache }
  rw [Option.any_eq_true] at hauth
  rcases hauth with ⟨token, hauth, hid⟩
  rw [decide_eq_true_eq] at hid
  apply hne
  apply (hall Samples.salted Samples.settings left right request ambient token 1
    Samples.salted_hashesExactly hreachable hreachable' _ howner _ hdiffer hfresh hfresh').response rfl
  . exact Samples.authenticates_as_bob (by decide) hauth
  . rw [hid]
    decide

end Koval
