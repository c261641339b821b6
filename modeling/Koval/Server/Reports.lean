import Koval.Server.AnnouncedEnds
import Koval.Server.SealedRows
import Koval.Server.Worker.Reporting

/-!
This module contains that what is told of a job is what is stored, and told to those who have asked
for it, in every run of the server.
-/

namespace Koval

open Prog

variable {crates : Crates} {settings : Settings} {system system' : System} {s s' : State}
  {delivery : Delivery} {reportings : List Reporting}

structure Db.TellsOf (db : Db) (payload : WebhookPayload) (row : JobRow) : Prop where
  find?_eq : db.jobs.find? payload.jobId = some row
  settled : row.status.IsSettled
  status : payload.status = row.status
  project : payload.project = row.project
  finishedAt : payload.finishedAt = row.finishedAt
  done : row.status = .done → ∃ artifact,
    db.artifacts.find? payload.jobId = some artifact ∧ payload.sha256 = some artifact.sha256
  failed : row.status = .failed → payload.sha256 = none

def Db.HasWebhook (db : Db) (tokenId : Int) (webhook : String × String) : Prop :=
  ∃ row ∈ db.webhooks.rows, row.tokenId = tokenId ∧ (row.url, row.secret) = webhook

/-- The delivery goes to webhooks of the token that has submitted the job. -/
def Db.Tells (db : Db) (delivery : Delivery) : Prop :=
  ∃ row, db.TellsOf delivery.fst row ∧ ∀ webhook ∈ delivery.snd, db.HasWebhook row.tokenId webhook

theorem Db.HasWebhook.lasts {db db' : Db} {tokenId : Int} {webhook : String × String}
    (h : db.HasWebhook tokenId webhook) (hlasts : db.Lasts db')
    : db'.HasWebhook tokenId webhook := by
  rcases h with ⟨row, hrow, htoken, heq⟩
  rcases hlasts.webhooks row.id row (Table.find?_of_mem hrow) with ⟨row', hrow', _, hsame⟩
  refine ⟨row', Table.mem_of_find? hrow', ?_, ?_⟩
  . rw [← htoken, ← hsame]
  . rw [← heq, ← hsame]

theorem Db.hasWebhook_of_deliveryInfo {db : Db} {tokenId : Int} {webhook : String × String}
    (h : webhook ∈ db.deliveryInfo tokenId)
    : db.HasWebhook tokenId webhook := by
  unfold Db.deliveryInfo at h
  rcases List.mem_map.mp h with ⟨row, hrow, heq⟩
  have ⟨hmem, hfilter⟩ := List.mem_filter.mp hrow
  rw [Bool.and_eq_true, decide_eq_true_eq] at hfilter
  exact ⟨row, hmem, hfilter.left, heq⟩

theorem KeepsEnded.tells (h : KeepsEnded s s') (hlasts : s.db.Lasts s'.db)
    (htells : s.db.Tells delivery)
    : s'.db.Tells delivery := by
  rcases htells with ⟨row, htells, hwebhooks⟩
  refine ⟨row, { htells with find?_eq := ?_, done := ?_ }, ?_⟩
  . exact h.jobs _ row htells.find?_eq htells.settled
  . intro hdone
    rcases htells.done hdone with ⟨artifact, hartifact, hsha256⟩
    exact ⟨artifact, h.artifacts _ artifact hartifact, hsha256⟩
  . intro webhook hwebhook
    exact (hwebhooks webhook hwebhook).lasts hlasts

def Reporting.Holds (reporting : Reporting) (s : State) : Prop :=
  match reporting with
  | attending | closed _ => True
  | working job => job ∈ s.core.recorded
  | asked job webhooks =>
    job ∈ s.core.recorded ∧ ∀ webhook ∈ webhooks, s.db.HasWebhook job.tokenId webhook
  | due _ delivery => s.db.Tells delivery

theorem Reporting.Holds.mono {reporting : Reporting} (h : reporting.Holds s)
    (hrecorded : s.core.recorded ⊆ s'.core.recorded) (hkeeps : KeepsEnded s s')
    (hlasts : s.db.Lasts s'.db)
    : reporting.Holds s' := by
  cases reporting with
  | attending | closed => trivial
  | working job => exact hrecorded h
  | asked job webhooks =>
    exact ⟨hrecorded h.left, fun webhook hwebhook => (h.right webhook hwebhook).lasts hlasts⟩
  | due job delivery => exact hkeeps.tells hlasts h

theorem System.Reachable.exists_row (h : system.Reachable crates settings) {job : Job}
    (hjob : job ∈ system.state.core.recorded)
    : ∃ row, system.state.core.jobs.find? job.id = some row
        ∧ row.project = job.project ∧ row.tokenId = job.tokenId := by
  rcases h.exists_lives with ⟨phases, _, hlife⟩
  rcases hlife.recorded.rows job hjob with ⟨queuedAt, hsubmitted⟩
  unfold Core.submittedOf at hsubmitted
  rcases Option.map_eq_some_iff.mp hsubmitted with ⟨row, hrow, heq⟩
  have hproject : row.submitted.project = job.project := by
    rw [heq]
    rfl
  have htoken : row.submitted.tokenId = job.tokenId := by
    rw [heq]
    rfl
  exact ⟨row, hrow, hproject, htoken⟩

theorem Settling.tells {job : Job} {payload : WebhookPayload} {webhooks : List (String × String)}
    (h : Settling job s s' payload) {row : JobRow} (hrow : s.core.jobs.find? job.id = some row)
    (hproject : row.project = job.project) (htoken : row.tokenId = job.tokenId)
    (hwebhooks : ∀ webhook ∈ webhooks, s'.db.HasWebhook job.tokenId webhook)
    : s'.db.Tells (payload, webhooks) := by
  have hfind : ∀ {status startedAt finishedAt errorMsg},
      s'.core.jobs = (s.core.setStatus job.id status startedAt finishedAt errorMsg).jobs →
        s'.db.jobs.find? job.id = some (row.setStatus status startedAt finishedAt errorMsg) := by
    intro status startedAt finishedAt errorMsg hjobs
    have hjobs : s'.db.jobs = s.core.jobs.updateKey job.id
        (JobRow.setStatus status startedAt finishedAt errorMsg) (JobRow.id_setStatus _ _ _ _) := hjobs
    rw [hjobs, Table.find?_updateKey_of_some (JobRow.id_setStatus _ _ _ _) hrow]
    exact congrArg some (if_pos rfl)
  cases h with
  | @fail finished errMsg hjobs =>
    refine ⟨_, ⟨hfind hjobs, .inr rfl, rfl, hproject.symm, rfl, ?_, fun _ => rfl⟩, ?_⟩
    . intro hdone
      contradiction
    . intro webhook hwebhook
      rw [show (row.setStatus _ _ _ _).tokenId = job.tokenId from htoken]
      exact hwebhooks webhook hwebhook
  | @complete finished artifact hid hjobs hartifacts =>
    refine ⟨_, ⟨hfind hjobs, .inl rfl, rfl, hproject.symm, rfl, ?_, ?_⟩, ?_⟩
    . intro _
      refine ⟨artifact, ?_, rfl⟩
      have hartifacts : s'.db.artifacts = s.core.artifacts.replace artifact := hartifacts
      rw [hartifacts, Table.find?_replace]
      exact if_pos hid.symm
    . intro hfailed
      contradiction
    . intro webhook hwebhook
      rw [show (row.setStatus _ _ _ _).tokenId = job.tokenId from htoken]
      exact hwebhooks webhook hwebhook

structure System.IsReporting (crates : Crates) (settings : Settings) (system : System)
    (reportings : List Reporting) : Prop where
  reachable : system.Reachable crates settings
  reports : Pool.Conforms Reports Reporting.agrees (fun _ _ _ => True) system.threads reportings
  holds : ∀ reporting ∈ reportings, reporting.Holds system.state
  told : ∀ delivery ∈ system.state.deliveries, system.state.db.Tells delivery

theorem System.Reachable.lasts {action : Action} (h : system.Reachable crates settings)
    (hstep : system.step crates settings action = some system')
    : system.state.db.Lasts system'.state.db := by
  have hrun : Machine.run (System.step crates settings) system [action] = some system' := by
    rw [Machine.run_cons hstep]
    rfl
  exact (h.writes_of_run hrun).lasts

theorem deliveries_of_main {boot : Boot} {s : State} (h : main crates settings boot s = some system)
    : system.state.deliveries = s.deliveries := by
  unfold main at h
  split at h
  . next hrun =>
    have heffects := congrArg State.deliveries (run_of_runDb hrun).right
    split at h
    . contradiction
    . injection h with h
      rw [← h]
      exact heffects
  . contradiction

theorem System.IsReporting.keep (h : system.IsReporting crates settings reportings) {action : Action}
    (hstep : system.step crates settings action = some system') {reportings' : List Reporting}
    (hreports : Pool.Conforms Reports Reporting.agrees (fun _ _ _ => True) system'.threads reportings')
    (hholds : ∀ reporting ∈ reportings', reporting ∈ reportings ∨ reporting.Holds system'.state)
    (hrecorded : system'.state.core.recorded = system.state.core.recorded)
    (hdeliveries : system'.state.deliveries = system.state.deliveries)
    : system'.IsReporting crates settings reportings' := by
  have hkeeps := h.reachable.keepsEnded hstep
  have hlasts := h.reachable.lasts hstep
  refine ⟨h.reachable.step hstep, hreports, ?_, ?_⟩
  . intro reporting hreporting
    rcases hholds reporting hreporting with hold | hholds
    . exact (h.holds reporting hold).mono (by rw [hrecorded]; exact fun _ h => h) hkeeps hlasts
    . exact hholds
  . rw [hdeliveries]
    intro delivery hdelivery
    exact hkeeps.tells hlasts (h.told delivery hdelivery)

theorem System.IsReporting.run (h : system.IsReporting crates settings reportings) {i : Nat}
    (hrun : system.runThread i = some system')
    : ∃ reportings', system'.IsReporting crates settings reportings' := by
  have hstep : system.step crates settings (.run i) = some system' := hrun
  have hkeeps := h.reachable.keepsEnded hstep
  have hlasts := h.reachable.lasts hstep
  have hrecorded := h.reachable.recorded_subset hrun
  rcases h.reports.runThread Reporting.agrees_of_reports hrun with
    ⟨reporting, reporting', hreporting, hreports, hconforms⟩
  have hmem := List.mem_of_getElem? hreporting
  have hholds := h.holds reporting hmem
  have hold : ∀ delivery ∈ system.state.deliveries, system'.state.db.Tells delivery :=
    fun delivery hdelivery => hkeeps.tells hlasts (h.told delivery hdelivery)
  have hnext : reporting'.Holds system'.state
      ∧ ∀ delivery ∈ system'.state.deliveries, system'.state.db.Tells delivery := by
    cases hreports with
    | stay hdeliveries => exact ⟨hholds.mono hrecorded hkeeps hlasts, hdeliveries ▸ hold⟩
    | @ask job webhooks _ _ hwebhooks hdeliveries =>
      refine ⟨⟨hrecorded hholds, ?_⟩, hdeliveries ▸ hold⟩
      intro webhook hwebhook
      exact (Db.hasWebhook_of_deliveryInfo (hwebhooks hwebhook)).lasts hlasts
    | @settle job webhooks payload _ _ hsettling hdeliveries =>
      refine ⟨?_, hdeliveries ▸ hold⟩
      rcases h.reachable.exists_row hholds.left with ⟨row, hrow, hproject, htoken⟩
      have htells := hsettling.tells hrow hproject htoken fun webhook hwebhook =>
        (hholds.right webhook hwebhook).lasts hlasts
      unfold Reporting.ended
      split
      . trivial
      . exact htells
    | @deliver job delivery _ _ hdeliveries =>
      refine ⟨trivial, ?_⟩
      rw [hdeliveries]
      intro delivery' hdelivery'
      rw [List.mem_cons] at hdelivery'
      rcases hdelivery' with rfl | hdelivery'
      . exact hkeeps.tells hlasts hholds
      . exact hold delivery' hdelivery'
  refine ⟨reportings.set i reporting', h.reachable.step hstep, hconforms, ?_, hnext.right⟩
  intro other hother
  rcases List.mem_or_eq_of_mem_set hother with hother | rfl
  . exact (h.holds other hother).mono hrecorded hkeeps hlasts
  . exact hnext.left

theorem System.IsReporting.step {action : Action} (h : system.IsReporting crates settings reportings)
    (hstep : system.step crates settings action = some system')
    : ∃ reportings', system'.IsReporting crates settings reportings' := by
  cases System.stepsTo hstep with
  | @request request ambient _ =>
    refine ⟨reportings ++ [.attending], h.keep hstep ?_ ?_ rfl rfl⟩
    . exact h.reports.spawn trivial (reports_attending request ambient)
    . intro reporting hreporting
      rw [List.mem_append, List.mem_singleton] at hreporting
      rcases hreporting with hreporting | rfl
      . exact .inl hreporting
      . exact .inr trivial
  | @recv externals job queue hjobs _ =>
    refine ⟨reportings ++ [.working job], h.keep hstep ?_ ?_ rfl rfl⟩
    . let received : System := { system with state := { system.state with queue } }
      have hreports : Pool.Conforms Reports Reporting.agrees (fun _ _ _ => True) received.threads
        reportings := h.reports
      exact hreports.spawn rfl (processJob.reports_processJob externals job)
    . intro reporting hreporting
      rw [List.mem_append, List.mem_singleton] at hreporting
      rcases hreporting with hreporting | rfl
      . exact .inl hreporting
      . right
        rcases h.reachable.exists_lives with ⟨phases, _, hlife⟩
        apply hlife.recorded.waiting job
        have hwaiting : system.state.core.waiting = job :: queue.jobs := hjobs
        rw [hwaiting]
        exact List.mem_cons_self
  | run hrun => exact h.run hrun
  | changeFiles => exact ⟨reportings, h.keep hstep h.reports (fun _ => .inl) rfl rfl⟩
  | @restart boot _ hthreads hcore =>
    refine ⟨[], h.keep hstep ?_ ?_ ?_ (deliveries_of_main hstep)⟩
    . rw [hthreads]
      exact Pool.conforms_nil
    . intro reporting hreporting
      contradiction
    . rw [hcore]
      rfl

theorem System.Reachable.exists_reporting (h : system.Reachable crates settings)
    : ∃ reportings, system.IsReporting crates settings reportings := by
  rcases h with ⟨boot, system₀, actions, hmain, hrun⟩
  have hinit : system₀.IsReporting crates settings [] := by
    refine ⟨⟨boot, system₀, [], hmain, rfl⟩, ?_, ?_, ?_⟩
    . rw [(main_eq_some hmain).left]
      exact Pool.conforms_nil
    . intro reporting hreporting
      contradiction
    . rw [deliveries_of_main hmain]
      intro delivery hdelivery
      contradiction
  apply Machine.invariant_of_run
    (I := fun system => ∃ reportings, System.IsReporting crates settings system reportings)
    _ ⟨[], hinit⟩ hrun
  rintro action _ system system' ⟨reportings, h⟩ hstep
  exact h.step hstep

theorem System.Reachable.tells (h : system.Reachable crates settings)
    (hdelivery : delivery ∈ system.state.deliveries)
    : system.state.db.Tells delivery := by
  rcases h.exists_reporting with ⟨reportings, hreporting⟩
  exact hreporting.told delivery hdelivery

end Koval
