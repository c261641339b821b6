import Koval.Server.SealedRows
import Koval.Server.TokenLemmas

/-!
This module contains what clients see of a job that has come to its end: all answers about it are
alike, whatever happens between them.
-/

namespace Koval

open Prog

variable {crates : Crates} {settings : Settings} {system system' : System} {s s' : State}

def Action.isRestart (action : Action) : Bool :=
  match action with
  | restart _ => true
  | _ => false

theorem System.leads_of_step {rely : State → State → Prop} (hrefl : ∀ s, rely s s)
    (htrans : ∀ s s' s'', rely s s' → rely s' s'' → rely s s'') {action : Action}
    (hstep : system.step crates settings action = some system') (hrestart : action.isRestart = false)
    (hrely : rely system.state system'.state) {i : Nat} {label : Label}
    {prog prog' : Prog State Answer} {s : State} (hthread : system.threads[i]? = some ⟨label, prog'⟩)
    (hleads : prog.Leads rely s prog' system.state)
    : ∃ prog'', system'.threads[i]? = some ⟨label, prog''⟩
        ∧ prog.Leads rely s prog'' system'.state := by
  have hspawn : ∀ {pool : System} {label' : Label} {start : Prog State Answer},
      pool.threads[i]? = some ⟨label, prog'⟩ →
        (pool.spawn label' start).threads[i]? = some ⟨label, prog'⟩ := by
    intro pool label' start hpool
    exact (List.getElem?_append_left (List.getElem?_eq_some_iff.mp hpool).choose).trans hpool
  cases System.stepsTo hstep with
  | request => exact ⟨prog', hspawn hthread, hleads.wait htrans hrely⟩
  | @recv externals job queue _ _ =>
    let received : System := { system with state := { system.state with queue } }
    have hreceived : received.threads[i]? = some ⟨label, prog'⟩ := hthread
    exact ⟨prog', hspawn hreceived, hleads.wait htrans hrely⟩
  | run hrun => exact Pool.leads_of_runThread hrefl htrans hrun (fun _ => hrely) hthread hleads
  | changeFiles => exact ⟨prog', hthread, hleads.wait htrans hrely⟩
  | restart => contradiction

theorem System.Reachable.ends_of_request {rely : State → State → Prop} (hrefl : ∀ s, rely s s)
    (htrans : ∀ s s' s'', rely s s' → rely s' s'' → rely s s'')
    (hsteps : ∀ (t t' : System) (action : Action), t.Reachable crates settings →
      t.step crates settings action = some t' → rely t.state t'.state)
    (h : system.Reachable crates settings) {request : Request} {ambient : Ambient} {started : System}
    (hrequest : system.step crates settings (.request request ambient) = some started)
    {actions : List Action} (hrestart : ∀ action ∈ actions, action.isRestart = false)
    (hrun : Machine.run (System.step crates settings) started actions = some system')
    {answer : Answer}
    (hanswer : system'.threads[system.threads.length]?
      = some ⟨.handler request ambient, .ret answer⟩)
    : Ends rely (do let response ← (route crates settings request ambient).respond
                    pure (Answer.response response)) system.state answer system'.state := by
  have hstarted : started.state = system.state ∧ started.threads[system.threads.length]?
      = some ⟨.handler request ambient, do
          let response ← (route crates settings request ambient).respond
          pure (Answer.response response)⟩ := by
    cases System.stepsTo hrequest with
    | request => exact ⟨rfl, Pool.getElem?_spawn _ _ _⟩
  have hinv : system'.Reachable crates settings
      ∧ ∃ prog, system'.threads[system.threads.length]? = some ⟨.handler request ambient, prog⟩
        ∧ Leads rely (do let response ← (route crates settings request ambient).respond
                         pure (Answer.response response)) system.state prog system'.state := by
    apply Machine.invariant_of_run
      (I := fun t => System.Reachable crates settings t
        ∧ ∃ prog, t.threads[system.threads.length]? = some ⟨.handler request ambient, prog⟩
          ∧ Leads rely (do let response ← (route crates settings request ambient).respond
                           pure (Answer.response response)) system.state prog t.state)
      _ ⟨h.step hrequest, _, hstarted.right, .stay (hstarted.left ▸ hrefl _)⟩ hrun
    rintro action haction t t' ⟨ht, prog, hthread, hleads⟩ hstep
    exact ⟨ht.step hstep, leads_of_step hrefl htrans hstep (hrestart action haction)
      (hsteps t t' action ht hstep) hthread hleads⟩
  rcases hinv with ⟨_, prog, hthread, hleads⟩
  rw [hanswer] at hthread
  injection hthread with hthread
  injection hthread with _ hprog
  rw [← hprog] at hleads
  exact hleads.ends_of_isDone hrefl htrans

theorem ends_of_respond {rely : State → State → Prop} (hrefl : ∀ s, rely s s)
    (htrans : ∀ s s' s'', rely s s' → rely s' s'' → rely s s'') {handler : Handler Response}
    {response : Response}
    (h : Ends rely (do let response ← handler.respond
                       pure (Answer.response response)) s (.response response) s')
    : ∃ res mid, Ends rely handler.run s res mid ∧ rely mid s'
        ∧ (res = .ok response ∨ res = .error response) := by
  rcases Ends.of_bind hrefl h with ⟨answer, mid, hrespond, hpure⟩
  have ⟨hanswer, hrely⟩ := ends_ret_iff.mp hpure
  injection hanswer with hanswer
  rcases Ends.of_bind hrefl hrespond with ⟨res, mid', hhandler, hmatch⟩
  refine ⟨res, mid', hhandler, ?_⟩
  cases res with
  | ok a =>
    have ⟨ha, hrely'⟩ := ends_ret_iff.mp hmatch
    exact ⟨htrans _ _ _ hrely' hrely, .inl (by rw [hanswer, ha])⟩
  | error e =>
    have ⟨he, hrely'⟩ := ends_ret_iff.mp hmatch
    exact ⟨htrans _ _ _ hrely' hrely, .inr (by rw [hanswer, he])⟩

def Samples.answers (P : Response → Prop) [DecidablePred P] (thread : Thread Label State Answer)
    : Bool :=
  match thread.prog with
  | .ret (.response response) => P response
  | _ => false

theorem Samples.exists_answered (crates : Crates) (boot : Boot) (actions : List Action)
    (request : Request) (ambient : Ambient) (i steps : Nat) (P : Response → Prop) [DecidablePred P]
    (h : (main crates Samples.settings boot (.empty Samples.settings)).any fun system₀ =>
      (Machine.run (System.step crates Samples.settings) system₀ actions).any fun system =>
        system.threads.length = i
          ∧ ((system.step crates Samples.settings (.request request ambient)).bind fun started =>
            Machine.run (System.step crates Samples.settings) started
              (List.replicate steps (.run i))).any
                fun system' => system'.threads[i]?.any (answers P))
    : ∃ (system₀ system started system' : System) (response : Response),
        main crates Samples.settings boot (.empty Samples.settings) = some system₀
          ∧
        Machine.run (System.step crates Samples.settings) system₀ actions = some system
          ∧
        system.step crates Samples.settings (.request request ambient) = some started
          ∧
        Machine.run (System.step crates Samples.settings) started (List.replicate steps (.run i))
          = some system'
          ∧
        system'.threads[system.threads.length]?
          = some ⟨.handler request ambient, .ret (.response response)⟩
          ∧
        P response := by
  rw [Option.any_eq_true] at h
  rcases h with ⟨system₀, hmain, h⟩
  rw [Option.any_eq_true] at h
  rcases h with ⟨system, hrun₀, h⟩
  rw [decide_eq_true_eq] at h
  rcases h with ⟨hlength, hany⟩
  rw [Option.any_eq_true] at hany
  rcases hany with ⟨system', hbind, hany⟩
  rcases Option.bind_eq_some_iff.mp hbind with ⟨started, hrequest, hrun⟩
  rw [Option.any_eq_true] at hany
  rcases hany with ⟨thread, hthread, hanswers⟩
  have hstarted : ∃ prog, started.threads[i]? = some ⟨.handler request ambient, prog⟩ := by
    cases System.stepsTo hrequest with
    | request =>
      rw [← hlength]
      exact ⟨_, Pool.getElem?_spawn _ _ _⟩
  -- The label of a thread is the one that it has started with.
  have hlabel : ∃ prog, system'.threads[i]? = some ⟨.handler request ambient, prog⟩ := by
    apply Machine.invariant_of_run
      (I := fun t => ∃ prog, t.threads[i]? = some ⟨.handler request ambient, prog⟩)
      _ hstarted hrun
    rintro action haction t t' ⟨prog, hprog⟩ hstep
    rw [List.eq_of_mem_replicate haction] at hstep
    have hleads : prog.Leads (fun _ _ => True) t.state prog t.state := .stay trivial
    rcases System.leads_of_step (fun _ => trivial) (fun _ _ _ _ _ => trivial) hstep rfl trivial hprog
      hleads with ⟨prog', hprog', _⟩
    exact ⟨prog', hprog'⟩
  rcases hlabel with ⟨prog, hprog⟩
  rw [hprog] at hthread
  injection hthread with hthread
  rw [← hthread] at hanswers
  unfold answers at hanswers
  split at hanswers
  . next response hret =>
    rw [show prog = _ from hret, ← hlength] at hprog
    exact ⟨system₀, system, started, system', response, hmain, hrun₀, hrequest, hrun, hprog,
      of_decide_eq_true hanswers⟩
  . contradiction

theorem Still.keepsEnded (h : Still s s') : KeepsEnded s s' where
  jobs := by
    intro id row hrow _
    have hjobs : s'.db.jobs = s.db.jobs := congrArg Core.jobs h.core
    rw [hjobs]
    exact hrow
  artifacts := keepsArtifacts_of_eq (congrArg Core.artifacts h.core)

theorem keepsEnded_of_ends {α : Type} {prog : Prog State α} (hstill : Always Still prog) {a : α}
    (h : Ends KeepsEnded prog s a s')
    : KeepsEnded s s' :=
  (hstill.mono fun _ _ => Still.keepsEnded).ends KeepsEnded.trans (fun _ _ => id) h

def JobRow.report (row : JobRow) : JobStatus := {
  status := row.status
  queuedAt := row.queuedAt
  startedAt := row.startedAt
  finishedAt := row.finishedAt
  errorMsg := row.errorMsg
  position := none
  jobType := row.jobType
}

theorem Status.IsSettled.ne_queued {status : Status} (h : status.IsSettled) : status ≠ .queued := by
  rcases h with rfl | rfl <;> exact Status.noConfusion

theorem Db.run_getJobStatus_of_settled {db : Db} {id : String} {row : JobRow}
    (hrow : db.jobs.find? id = some row) (hsettled : row.status.IsSettled) {faults : Faults Stmt}
    {found : Option JobStatus} (h : ((getJobStatus id).run faults db).fst = .ok found)
    : found = some row.report := by
  have hrun : (getJobStatus id).run faults db = (.ok found, ((getJobStatus id).run faults db).snd) := by
    rw [← h]
  rcases Sql.run_bind_eq_ok hrun with ⟨position, mid, hposition, hquery⟩
  have ⟨hmid, hiff⟩ := run_getJobPosition_eq_ok hposition
  have ⟨hfound, _⟩ := Sql.run_query_eq_ok hquery
  have hnone : position = none := by
    rw [← Option.not_isSome_iff_eq_none, hiff]
    rintro ⟨row', hrow', hqueued⟩
    rw [hrow] at hrow'
    injection hrow' with hrow'
    rw [← hrow'] at hqueued
    exact hsettled.ne_queued hqueued
  rw [hfound, hmid, hrow, hnone]
  rfl

def shownDigest (row : JobRow) (artifact : Option ArtifactRow) (ambient : Ambient) : Option String :=
  if row.status = .done ∧ ambient.faults 2 .getArtifact = none then
    artifact.map (·.sha256)
  else
    none

variable {ambient : Ambient} {id : String} {row : JobRow}

theorem refuseByCause_ne_ok (err : AuthError) : (refuseByCause err).status ≠ .ok := by
  cases err <;> exact StatusCode.noConfusion

section Authenticate

variable {rely : State → State → Prop} (hrefl : ∀ s, rely s s) {refuse : AuthError → Response}
include hrefl

theorem ends_authenticate_error {code : StatusCode} (hcode : .unauthorized ≠ code)
    (hrefuse : ∀ err, (refuse err).status ≠ code) {response : Response}
    (h : Ends rely (authenticate crates settings ambient refuse).run s (.error response) s')
    : response.status ≠ code := by
  unfold authenticate at h
  split at h
  . have ⟨heq, _⟩ := ends_ret_iff.mp h
    injection heq with heq
    rw [heq]
    exact hcode
  . rcases h.of_bindExcept hrefl with ⟨res, mid, _, hrest⟩ | ⟨err, mid, hauth, herr, _⟩
    . split at hrest
      . have ⟨heq, _⟩ := ends_ret_iff.mp hrest
        contradiction
      . have ⟨heq, _⟩ := ends_ret_iff.mp hrest
        injection heq with heq
        rw [heq]
        exact hrefuse _
    . rcases hauth.of_liftAtomic hrefl with ⟨_, _, _, hok, _⟩
      contradiction

theorem ends_authenticate_ok (htrans : ∀ s s' s'', rely s s' → rely s' s'' → rely s s'')
    {secret : String} {token : Token}
    (h : Ends rely (authenticate crates settings ambient refuse).run s (.ok (secret, token)) s')
    : bearerToken ambient.authorization = some secret
        ∧
      ∃ before after, rely s before ∧ Handles crates settings before after ∧ rely after s'
        ∧ token ∈ before.db.tokens.rows ∧ token.isActive
        ∧ verify crates secret token.tokenHash := by
  unfold authenticate at h
  split at h
  . have ⟨heq, _⟩ := ends_ret_iff.mp h
    contradiction
  . next hbearer =>
    rcases h.of_bindExcept hrefl with ⟨res, mid, hauth, hrest⟩ | ⟨err, mid, hauth, herr, _⟩
    . rcases hauth.of_liftAtomic hrefl with ⟨t, t', hrely, hok, hrely', hrely''⟩
      injection hok with hok
      split at hrest
      . have ⟨heq, hrest⟩ := ends_ret_iff.mp hrest
        injection heq with heq
        injection heq with hsecret htoken
        rw [hsecret, htoken]
        have ⟨hmatched, _⟩ := authenticate_eq_ok hok.symm
        have ⟨hmem, hactive⟩ := List.mem_filter.mp (List.mem_of_find?_eq_some hmatched)
        have hverify := @List.find?_some _ (fun t : Token => verify crates _ t.tokenHash) _ _ hmatched
        refine ⟨hbearer, t, _, hrely, ?_, htrans _ _ _ hrely' (htrans _ _ _ hrely'' hrest), hmem,
          hactive, hverify⟩
        exact handles_of_files_eq (writes_authenticateAndRateLimit _ _ _ _ _) rfl
      . have ⟨heq, _⟩ := ends_ret_iff.mp hrest
        contradiction
    . contradiction

end Authenticate

theorem ends_digest {status : JobStatus} {stored : ArtifactRow}
    (hstored : s.db.artifacts.find? id = some stored) {res : Except Response Response}
    (h : Ends KeepsEnded
      (do match ← ExceptT.lift (lockDb (ambient.faults 2) (Db.getArtifact id)) with
          | .ok (some (_, _, sha256)) => pure ⟨.ok, .jobStatus status (some sha256), []⟩
          | _ => pure ⟨.ok, .jobStatus status none, []⟩ : Handler Response).run s res s')
    : res = .ok ⟨.ok, .jobStatus status
        (if ambient.faults 2 .getArtifact = none then some stored.sha256 else none), []⟩ := by
  rcases h.of_bindExcept keepsEnded_refl with ⟨found, mid, hread, h⟩ | ⟨response, _, hread, _, _⟩
  . rcases hread.of_liftAtomic keepsEnded_refl with ⟨s₀, _, hrely₀, hok, _⟩
    injection hok with hok
    have hstored₀ := hrely₀.artifacts id stored hstored
    have hfound : found = ((Db.getArtifact id).run (ambient.faults 2) s₀.db).fst := hok
    unfold Db.getArtifact at hfound
    cases hfault : ambient.faults 2 .getArtifact with
    | none =>
      rw [Sql.run_query_of_none hfault, hstored₀] at hfound
      rw [hfound] at h
      exact (ends_ret_iff.mp h).left
    | some msg =>
      have herror : found = .error (.failure msg) := by
        rw [hfound]
        unfold Sql.run Sql.query
        rw [hfault]
      rw [herror] at h
      exact (ends_ret_iff.mp h).left
  . rcases hread.of_liftAtomic keepsEnded_refl with ⟨_, _, _, hok, _⟩
    contradiction

theorem ends_statusHandler (hrow : s.db.jobs.find? id = some row) (hsettled : row.status.IsSettled)
    {artifact : Option ArtifactRow} (hartifact : s.db.artifacts.find? id = artifact)
    (hdone : row.status = .done → artifact.isSome) {res : Except Response Response}
    (h : Ends KeepsEnded (statusHandler crates settings ambient id).run s res s')
    : (∃ response, res = .error response ∧ response.status ≠ .ok)
        ∨
      res = .ok ⟨.ok, .jobStatus row.report (shownDigest row artifact ambient), []⟩ := by
  rcases h.of_bindExcept keepsEnded_refl with ⟨token, s₁, hauth, h⟩ | ⟨response, s₁, hauth, hres, _⟩
  swap
  . exact .inl ⟨response, hres, ends_authenticate_error keepsEnded_refl StatusCode.noConfusion
      refuseByCause_ne_ok hauth⟩
  have hkeeps₁ := keepsEnded_of_ends (still_authenticate _) hauth
  rcases h.of_bindExcept keepsEnded_refl with ⟨found, s₂, hread, h⟩ | ⟨response, s₂, hread, hres, _⟩
  swap
  . rcases hread.of_liftAtomic keepsEnded_refl with ⟨_, _, _, hok, _⟩
    contradiction
  have hkeeps₂ := hkeeps₁.trans _ _ _
    (keepsEnded_of_ends (still_reading (Db.keeps_getJobStatus _ _) _).liftExcept hread)
  rcases hread.of_liftAtomic keepsEnded_refl with ⟨s₀, _, hrely₀, hok, _⟩
  injection hok with hok
  have hrow₀ := (hkeeps₁.trans _ _ _ hrely₀).jobs id row hrow hsettled
  cases found with
  | error err =>
    have ⟨hres, _⟩ := ends_ret_iff.mp h
    exact .inl ⟨_, hres, StatusCode.noConfusion⟩
  | ok found =>
    rw [Db.run_getJobStatus_of_settled hrow₀ hsettled hok.symm] at h
    have hreport : row.report.status = row.status := rfl
    dsimp only at h
    rw [hreport] at h
    right
    unfold shownDigest
    by_cases hstatus : row.status = .done
    . rw [if_pos hstatus] at h
      rcases Option.isSome_iff_exists.mp (hdone hstatus) with ⟨stored, hstored⟩
      rw [hstored] at hartifact
      rw [ends_digest (hkeeps₂.artifacts id stored hartifact) h, hstored]
      by_cases hfault : ambient.faults 2 .getArtifact = none
      . rw [if_pos hfault, if_pos ⟨hstatus, hfault⟩]
        rfl
      . rw [if_neg hfault, if_neg fun h => hfault h.right]
    . rw [if_neg hstatus] at h
      rw [if_neg fun h => hstatus h.left]
      exact (ends_ret_iff.mp h).left

/--
Once a job is done or failed, its row and its archive's row stay the same, whatever fails and however
often the server starts again, and all requests for its status that are answered get the same answer.
-/
theorem System.Reachable.ended_jobs_answer_alike (h : system.Reachable crates settings)
    (hrow : system.state.db.jobs.find? id = some row) (hsettled : row.status.IsSettled)
    : (∀ actions system',
        Machine.run (System.step crates settings) system actions = some system' →
          system'.state.db.jobs.find? id = some row
            ∧
          (row.status = .done → ∃ artifact,
            system.state.db.artifacts.find? id = some artifact
              ∧ system'.state.db.artifacts.find? id = some artifact))
        ∧
      (∀ ambient started actions system' response,
        system.step crates settings (.request (.status id) ambient) = some started →
        (∀ action ∈ actions, action.isRestart = false) →
        Machine.run (System.step crates settings) started actions = some system' →
        system'.threads[system.threads.length]?
            = some ⟨.handler (.status id) ambient, .ret (.response response)⟩ →
        response.status = .ok →
          response = ⟨.ok, .jobStatus row.report
            (shownDigest row (system.state.db.artifacts.find? id) ambient), []⟩) := by
  have hstored : row.status = .done → (system.state.db.artifacts.find? id).isSome := by
    intro hdone
    have hconsistent := h.isConsistent (Table.mem_of_find? hrow)
    unfold JobRow.IsConsistent at hconsistent
    rw [hdone] at hconsistent
    have hcontains := hconsistent.right.right.right
    rw [Table.key_of_find? hrow] at hcontains
    exact hcontains
  constructor
  . intro actions system' hrun
    have hkeeps := (h.keepsEnded_of_run hrun).right
    refine ⟨hkeeps.jobs id row hrow hsettled, ?_⟩
    intro hdone
    rcases Option.isSome_iff_exists.mp (hstored hdone) with ⟨artifact, hartifact⟩
    exact ⟨artifact, hartifact, hkeeps.artifacts id artifact hartifact⟩
  . intro ambient started actions system' response hrequest hrestart hrun hanswer hok
    have hends := h.ends_of_request keepsEnded_refl KeepsEnded.trans
      (fun _ _ _ ht => ht.keepsEnded) hrequest hrestart hrun hanswer
    rcases ends_of_respond keepsEnded_refl KeepsEnded.trans hends with ⟨res, mid, hhandler, _, hres⟩
    rcases ends_statusHandler hrow hsettled rfl hstored hhandler with
      ⟨refusal, hrefusal, hne⟩ | hreport
    . rw [hrefusal] at hres
      rcases hres with hres | hres
      . contradiction
      . injection hres with hres
        rw [hres] at hne
        exact absurd hok hne
    . rw [hreport] at hres
      rcases hres with hres | hres
      . injection hres with hres
        exact hres.symm
      . contradiction

-- A job that a worker has built, and a request that any of its statements may fail in.
theorem System.Reachable.ended_jobs_answer_alike_built
    : ∃ (system : System) (row : JobRow),
        row.status = .done
          ∧
        ∀ faults started actions system' response,
          system.step Samples.github.crates Samples.settings
              (.request (.status "4c1e") { Samples.ambient "9b7d" with faults })
            = some started →
          (∀ action ∈ actions, action.isRestart = false) →
          Machine.run (System.step Samples.github.crates Samples.settings) started actions
            = some system' →
          system'.threads[system.threads.length]?
              = some ⟨.handler (.status "4c1e") { Samples.ambient "9b7d" with faults },
                  .ret (.response response)⟩ →
          response.status = .ok →
            response = ⟨.ok, .jobStatus row.report
              (shownDigest row (system.state.db.artifacts.find? "4c1e")
                { Samples.ambient "9b7d" with faults }), []⟩ := by
  rcases Samples.exists_of_runs
      (Samples.submitted 0 (.build Samples.request) "4c1e" 4
        ++ Samples.processed 1 Samples.externals 10)
      (fun system => system.state.core.statusOf "4c1e" = some .done) (by decide +kernel) with
    ⟨system₀, system, hmain, hrun₀, hdone⟩
  have hreachable : system.Reachable Samples.github.crates Samples.settings :=
    ⟨Samples.boot, system₀, _, hmain, hrun₀⟩
  unfold Core.statusOf at hdone
  rcases Option.map_eq_some_iff.mp hdone with ⟨row, hrow, hdone⟩
  refine ⟨system, row, hdone, ?_⟩
  intro faults
  exact (hreachable.ended_jobs_answer_alike hrow (.inl hdone)).right _

end Koval
