import Koval.Log.Latest
import Koval.Server.EndedJobs
import Koval.Server.Reports
import Koval.Time.TextOrder

/-!
This module contains what clients see in the list of their jobs: the latest of them, in the order of
time.
-/

namespace Koval

open Prog

variable {crates : Crates} {settings : Settings} {ambient : Ambient} {system system' : System}
  {s s' : State}

def IsNoLater (text text' : String) : Prop :=
  text ≤ text'
    ∧
  ∀ now now' : DateTime, now.InRange → now'.InRange → text = now.toRfc3339 → text' = now'.toRfc3339 →
    now.nanos ≤ now'.nanos

theorem isNoLater_of_le {text text' : String} (h : text ≤ text') : IsNoLater text text' := by
  refine ⟨h, ?_⟩
  rintro now now' hrange hrange' rfl rfl
  rw [← not_lt]
  intro hlt
  exact absurd (DateTime.toRfc3339_lt hrange' hrange hlt) (not_lt.mpr h)

def JobRow.summary (row : JobRow) : JobSummary :=
  ⟨row.id, row.project, row.gitRef, row.status, row.queuedAt, row.startedAt, row.finishedAt⟩

/-- The list of the jobs of the token, where jobs may be recorded between `before` and `after`. -/
structure ListsJobs (tokenId : Int) (before after : Db) (list : List JobSummary) : Prop where
  atMost : list.length ≤ 50
  nodup : (list.map (·.id)).Nodup
  own : ∀ summary ∈ list, ∃ row, after.jobs.find? summary.id = some row ∧ row.tokenId = tokenId
    ∧ row.project = summary.project ∧ row.gitRef = summary.gitRef ∧ row.queuedAt = summary.queuedAt
    ∧ (summary.status.IsSettled → row.summary = summary)
  sorted : list.Pairwise fun summary summary' => IsNoLater summary'.queuedAt summary.queuedAt
  complete : ∀ row ∈ before.jobs.rows, row.tokenId = tokenId →
    row.id ∈ list.map (·.id)
      ∨ list.length = 50 ∧ ∀ summary ∈ list, IsNoLater row.queuedAt summary.queuedAt

-- The order that `ORDER BY queued_at DESC` goes by.
abbrev JobRow.comesFirst (row row' : JobRow) : Prop := row.queuedAt ≥ row'.queuedAt

instance : Std.Total JobRow.comesFirst := ⟨fun row row' => le_total row'.queuedAt row.queuedAt⟩

instance : IsTrans JobRow JobRow.comesFirst := ⟨fun _ _ _ h h' => le_trans h' h⟩

theorem JobRow.of_submitted_eq {row row' : JobRow} (h : row'.submitted = row.submitted)
    : row'.tokenId = row.tokenId ∧ row'.project = row.project ∧ row'.gitRef = row.gitRef
        ∧ row'.queuedAt = row.queuedAt :=
  ⟨(congrArg JobRow.tokenId h :), (congrArg JobRow.project h :), (congrArg JobRow.gitRef h :),
    (congrArg JobRow.queuedAt h :)⟩

theorem Db.fst_run_getRecentJobs {tokenId : Int} {limit : Nat} {faults : Faults Stmt} {db : Db}
    {list : List JobSummary} (h : ((getRecentJobs tokenId limit).run faults db).fst = .ok list)
    : list = (Latest.latest JobRow.comesFirst limit
        (db.jobs.rows.filter (·.tokenId = tokenId))).map JobRow.summary := by
  have hrun : (getRecentJobs tokenId limit).run faults db
      = (.ok list, ((getRecentJobs tokenId limit).run faults db).snd) := by
    rw [← h]
  have ⟨hlist, _⟩ := Sql.run_query_eq_ok hrun
  exact hlist

theorem Db.listsJobs {tokenId : Int} {faults : Faults Stmt} {before db after : Db}
    {list : List JobSummary} (h : ((getRecentJobs tokenId 50).run faults db).fst = .ok list)
    (hbefore : before.Lasts db) (hafter : db.Lasts after)
    (hended : ∀ id row, db.jobs.find? id = some row → row.status.IsSettled →
      after.jobs.find? id = some row)
    : ListsJobs tokenId before after list := by
  let rows := db.jobs.rows.filter (·.tokenId = tokenId)
  have hlist : list = (Latest.latest JobRow.comesFirst 50 rows).map JobRow.summary :=
    fst_run_getRecentJobs h
  subst hlist
  constructor
  . rw [List.length_map, Latest.length_latest]
    exact Nat.min_le_left _ _
  . rw [List.map_map]
    apply Latest.nodup_latest
    exact db.jobs.nodup.sublist (List.filter_sublist.map _)
  . intro summary hsummary
    rcases List.mem_map.mp hsummary with ⟨row, hrow, rfl⟩
    have ⟨hmem, htoken⟩ := List.mem_filter.mp (Latest.mem_of_mem_latest hrow)
    have hfound := Table.find?_of_mem hmem
    rcases hafter.jobs row.id row hfound with ⟨row', hrow', hsame⟩
    have ⟨htoken', hproject, hgitRef, hqueuedAt⟩ := JobRow.of_submitted_eq hsame
    refine ⟨row', hrow', htoken'.trans (of_decide_eq_true htoken), hproject, hgitRef, hqueuedAt, ?_⟩
    intro hsettled
    rw [hended row.id row hfound hsettled] at hrow'
    injection hrow' with hrow'
    rw [hrow']
  . rw [List.pairwise_map]
    exact (Latest.pairwise_latest 50 rows).imp fun hle => isNoLater_of_le hle
  . intro row hrow htoken
    rcases hbefore.jobs row.id row (Table.find?_of_mem hrow) with ⟨row', hrow', hsame⟩
    have ⟨htoken', _, _, hqueuedAt⟩ := JobRow.of_submitted_eq hsame
    have hmem : row' ∈ rows := by
      rw [List.mem_filter, decide_eq_true_eq]
      exact ⟨Table.mem_of_find? hrow', htoken'.trans htoken⟩
    have hor := @Latest.mem_latest_or _ JobRow.comesFirst _ 50 _ _ _ _ hmem
    rcases hor with hlatest | ⟨hfull, hlate⟩
    . left
      have hid : row'.id = row.id := Table.key_of_find? hrow'
      rw [List.map_map, ← hid]
      exact List.mem_map_of_mem hlatest
    . right
      refine ⟨(List.length_map _).trans hfull, ?_⟩
      intro summary hsummary
      rcases List.mem_map.mp hsummary with ⟨listed, hlisted, rfl⟩
      rw [← hqueuedAt]
      exact isNoLater_of_le (hlate listed hlisted)

theorem ListsJobs.later {tokenId : Int} {before : Db} {list : List JobSummary}
    (h : ListsJobs tokenId before s.db list) (hkeeps : s.db.Lasts s'.db) (hended : KeepsEnded s s')
    : ListsJobs tokenId before s'.db list where
  atMost := h.atMost
  nodup := h.nodup
  own := by
    intro summary hsummary
    rcases h.own summary hsummary with ⟨row, hrow, htoken, hproject, hgitRef, hqueuedAt, hsettled⟩
    rcases hkeeps.jobs summary.id row hrow with ⟨row', hrow', hsame⟩
    have ⟨htoken', hproject', hgitRef', hqueuedAt'⟩ := JobRow.of_submitted_eq hsame
    refine ⟨row', hrow', htoken'.trans htoken, hproject'.trans hproject, hgitRef'.trans hgitRef,
      hqueuedAt'.trans hqueuedAt, ?_⟩
    intro hsettled'
    have hsummary := hsettled hsettled'
    have hstatus : row.status = summary.status := congrArg JobSummary.status hsummary
    rw [hended.jobs summary.id row hrow (hstatus ▸ hsettled')] at hrow'
    injection hrow' with hrow'
    rw [← hrow']
    exact hsummary
  sorted := h.sorted
  complete := h.complete

structure KeepsJobs (s s' : State) : Prop where
  lasts : s.db.Lasts s'.db
  ended : KeepsEnded s s'

theorem keepsJobs_refl (s : State) : KeepsJobs s s := ⟨s.db.lasts_refl, keepsEnded_refl s⟩

theorem KeepsJobs.trans (s s' s'' : State) (h : KeepsJobs s s') (h' : KeepsJobs s' s'')
    : KeepsJobs s s'' :=
  ⟨h.lasts.trans h'.lasts, h.ended.trans _ _ _ h'.ended⟩

theorem refuseByText_ne {code : StatusCode} (hcode : .unauthorized ≠ code) (err : AuthError)
    : (refuseByText err).status ≠ code := hcode

theorem keepsJobs_of_handles (hhandles : Handles crates settings s s') (hstill : Still s s')
    : KeepsJobs s s' :=
  ⟨hhandles.writes.lasts, hstill.keepsEnded⟩

theorem ends_listJobsHandler {res : Except Response Response}
    (h : Ends KeepsJobs (listJobsHandler crates settings ambient).run s res s')
    : (∃ response, res = .error response ∧ response.status ≠ .ok)
        ∨
      ∃ (secret : String) (token : Token) (list : List JobSummary),
        bearerToken ambient.authorization = some secret ∧ verify crates secret token.tokenHash
          ∧
        (∃ row, s'.db.tokens.find? token.id = some row ∧ row.tokenHash = token.tokenHash)
          ∧
        res = .ok ⟨.ok, .jobs list, []⟩ ∧ ListsJobs token.id s.db s'.db list := by
  rcases h.of_bindExcept keepsJobs_refl with
    ⟨⟨secret, token⟩, s₁, hauth, h⟩ | ⟨response, s₁, hauth, hres, _⟩
  swap
  . have hne : StatusCode.unauthorized ≠ .ok := StatusCode.noConfusion
    exact .inl ⟨response, hres,
      ends_authenticate_error keepsJobs_refl hne (refuseByText_ne hne) hauth⟩
  have hkeeps₁ : KeepsJobs s s₁ := by
    have hkeeps := ((@handles_of_authenticate crates settings ambient refuseByText).and
      (still_authenticate refuseByText)).mono fun _ _ h => keepsJobs_of_handles h.left h.right
    exact hkeeps.ends KeepsJobs.trans (fun _ _ => id) hauth
  rcases h.of_bindExcept keepsJobs_refl with ⟨found, s₂, hread, h⟩ | ⟨response, s₂, hread, _, _⟩
  swap
  . rcases hread.of_liftAtomic keepsJobs_refl with ⟨_, _, _, hok, _⟩
    contradiction
  rcases hread.of_liftAtomic keepsJobs_refl with ⟨t, t', hrely, hok, hrely', hrely''⟩
  injection hok with hok
  have ht' : (t.runDb (ambient.faults 1) (Db.getRecentJobs token.id 50)).snd = t :=
    runDb_query _ _ _ _
  have hkeeps₂ := KeepsJobs.trans _ _ _ (show KeepsJobs t t' from ht' ▸ hrely') hrely''
  cases found with
  | error err =>
    have ⟨hres, _⟩ := ends_ret_iff.mp h
    exact .inl ⟨_, hres, StatusCode.noConfusion⟩
  | ok list =>
    right
    have ⟨hres, hkeeps₃⟩ := ends_ret_iff.mp h
    rcases ends_authenticate_ok keepsJobs_refl KeepsJobs.trans hauth with
      ⟨hbearer, before, after, _, hhandles, hafter, hmem, _, hverify⟩
    have hkeeps := KeepsJobs.trans _ _ _ hkeeps₂ hkeeps₃
    refine ⟨secret, token, list, hbearer, hverify, ?_, hres, ?_⟩
    . have hlasts := hhandles.writes.lasts.trans
        (hafter.lasts.trans (hrely.lasts.trans hkeeps.lasts))
      rcases hlasts.tokens token.id token (Table.find?_of_mem hmem) with ⟨row, hrow, _, hsame⟩
      exact ⟨row, hrow, (congrArg Token.tokenHash hsame :)⟩
    . exact Db.listsJobs hok.symm (hkeeps₁.lasts.trans hrely.lasts) hkeeps.lasts hkeeps.ended.jobs

/--
Whatever happens while a request for the list of jobs is served, its answer has the latest jobs of
the token of the request, sorted by time, and leaves out none that is later than those it has.
-/
theorem System.Reachable.jobs_listed (h : system.Reachable crates settings) {started : System}
    (hrequest : system.step crates settings (.request .listJobs ambient) = some started)
    {actions : List Action} (hrestart : ∀ action ∈ actions, action.isRestart = false)
    (hrun : Machine.run (System.step crates settings) started actions = some system')
    {response : Response}
    (hanswer : system'.threads[system.threads.length]?
      = some ⟨.handler .listJobs ambient, .ret (.response response)⟩)
    (hok : response.status = .ok)
    : ∃ (secret : String) (row : Token) (list : List JobSummary),
        bearerToken ambient.authorization = some secret
          ∧
        row ∈ system'.state.db.tokens.rows ∧ verify crates secret row.tokenHash
          ∧
        response = ⟨.ok, .jobs list, []⟩
          ∧
        ListsJobs row.id system.state.db system'.state.db list := by
  have hends := h.ends_of_request keepsJobs_refl KeepsJobs.trans
    (fun _ _ _ ht hstep => ⟨ht.lasts hstep, ht.keepsEnded hstep⟩) hrequest hrestart hrun hanswer
  rcases ends_of_respond keepsJobs_refl KeepsJobs.trans hends with ⟨res, mid, hhandler, hmid, hres⟩
  rcases ends_listJobsHandler hhandler with
    ⟨refusal, hrefusal, hne⟩ | ⟨secret, token, list, hbearer, hverify, ⟨row, hrow, hhash⟩, hlist, hlists⟩
  . rw [hrefusal] at hres
    rcases hres with hres | hres
    . contradiction
    . injection hres with hres
      rw [hres] at hne
      exact absurd hok hne
  . rw [hlist] at hres
    rcases hres with hres | hres
    . injection hres with hres
      rcases hmid.lasts.tokens token.id row hrow with ⟨row', hrow', _, hsame⟩
      have hhash' : row'.tokenHash = row.tokenHash := (congrArg Token.tokenHash hsame :)
      have hid : row'.id = token.id := Table.key_of_find? hrow'
      refine ⟨secret, row', list, hbearer, Table.mem_of_find? hrow', ?_, hres.symm, ?_⟩
      . rw [hhash', hhash]
        exact hverify
      . rw [hid]
        exact hlists.later hmid.lasts hmid.ended
    . contradiction

def Samples.lists (ids : List String) (response : Response) : Bool :=
  match response.body with
  | .jobs list => response.status = .ok ∧ list.map (·.id) = ids
  | _ => false

theorem System.Reachable.jobs_listed_both
    : ∃ (system system' : System) (row : Token) (list : List JobSummary),
        list.map (·.id) = ["4c1e", "5d2f"]
          ∧
        ListsJobs row.id system.state.db system'.state.db list := by
  rcases Samples.exists_answered Samples.github.crates Samples.boot
      (Samples.submitted 0 (.build Samples.request) "4c1e" 4
        ++ Samples.submitted 1 (.build Samples.request) "5d2f" 4)
      .listJobs (Samples.ambient "9b7d") 2 2
      (fun response => Samples.lists ["4c1e", "5d2f"] response) (by decide +kernel) with
    ⟨system₀, system, started, system', response, hmain, hrun₀, hrequest, hrun, hanswer, hlists⟩
  have h : system.Reachable Samples.github.crates Samples.settings :=
    ⟨Samples.boot, system₀, _, hmain, hrun₀⟩
  have hrestart : ∀ action ∈ List.replicate 2 (Action.run 2), action.isRestart = false := by decide
  unfold Samples.lists at hlists
  split at hlists
  . next list hbody =>
    have ⟨hok, hids⟩ := of_decide_eq_true hlists
    rcases h.jobs_listed hrequest hrestart hrun hanswer hok with
      ⟨secret, row, list', _, _, _, hresponse, hjobs⟩
    rw [hresponse] at hbody
    injection hbody with hlist
    exact ⟨system, system', row, list, hids, hlist ▸ hjobs⟩
  . contradiction

end Koval
