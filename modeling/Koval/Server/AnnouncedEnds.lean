import Koval.Server.Deliveries
import Koval.Server.Samples
import Koval.Server.SystemFrames

/-!
This module contains that the end of a job is announced exactly once, unless the queue refuses it.
-/

namespace Koval

variable {crates : Crates} {settings : Settings} {system₀ system system' : System} {s s' : State}

/-- A handler that has recorded its job finds room for it, or nobody listens. -/
def System.Heeds (system : System) (action : Action) : Prop :=
  match action with
  | .run i =>
    ∀ thread ∈ system.threads[i]?, thread.label.isWorker = false →
      ∀ row ∈ system.state.db.jobs.find? thread.label.jobId,
        system.state.queue.jobs.length < system.state.queue.capacity
          ∨ system.state.db.deliveryInfo row.tokenId = []
  | _ => True

instance (system : System) (action : Action) : Decidable (system.Heeds action) :=
  match action with
  | .run i => inferInstanceAs (Decidable (∀ thread ∈ system.threads[i]?, _))
  | .request .. | .recv _ | .changeFiles _ | .restart _ => isTrue trivial

def Addresses (label : Label) (notice : Notice) : Prop :=
  label.jobId = notice.jobId ∧ label.isWorker = notice.isWorker

theorem Addresses.announces (label : Label) (notice : Notice) (s : State) (notice' : Notice)
    (s' : State) (h : Addresses label notice) (htrans : Announces notice s notice' s')
    : Addresses label notice' := by
  refine ⟨?_, ?_⟩
  . rw [htrans.jobId_eq]
    exact h.left
  . rw [htrans.isWorker_eq]
    exact h.right

def Owes (label : Label) (notice : Notice) (_ : Answer) : Prop :=
  label.isWorker = true → notice.isDue = false

structure IsTelling (crates : Crates) (settings : Settings)
    (kept : String → String × String → Prop) (start : State) (system : System) : Prop where
  reachable : system.Reachable crates settings
  telling : ∃ notices new,
    Pool.Conforms Announces Addresses Owes system.threads notices
      ∧ Tells kept start.core start.deliveries system.state notices new

theorem Transition.recorded_subset {phase phase' : Phase} (h : Transition crates phase s phase' s')
    : s.core.recorded ⊆ s'.core.recorded := by
  rcases h.recorded_cases with ⟨job, _, _, _, _, hrecorded, _⟩ | ⟨_, hrecorded, _⟩
  . rw [hrecorded]
    exact List.subset_cons_self job _
  . rw [hrecorded]
    exact fun _ h => h

theorem System.Reachable.recorded_subset {i : Nat} (h : system.Reachable crates settings)
    (hrun : system.runThread i = some system')
    : system.state.core.recorded ⊆ system'.state.core.recorded := by
  rcases h.exists_lives with ⟨phases, hphases, _⟩
  rcases hphases.runThread Agrees.transition hrun with ⟨_, _, _, htrans, _⟩
  exact htrans.recorded_subset

theorem System.Reachable.tokenId_eq (h : system.Reachable crates settings) {job : Job}
    (hjob : job ∈ system.state.core.recorded) {row : JobRow}
    (hrow : system.state.db.jobs.find? job.id = some row)
    : row.tokenId = job.tokenId := by
  rcases h.exists_lives with ⟨phases, _, hlife⟩
  rcases hlife.recorded.rows job hjob with ⟨queuedAt, hsubmitted⟩
  unfold Core.submittedOf at hsubmitted
  have hrow : system.state.core.jobs.find? job.id = some row := hrow
  rw [hrow] at hsubmitted
  exact congrArg JobRow.tokenId (Option.some.inj hsubmitted)

variable {kept : String → String × String → Prop} {start : State}

theorem IsTelling.step {action : Action} (h : IsTelling crates settings kept start system)
    (hstep : system.step crates settings action = some system')
    (hrestart : ∀ boot, action ≠ .restart boot)
    (hfaults : ∀ externals, action = .recv externals → ∀ scope, externals.faults scope = .none)
    (hheeds : system.Heeds action)
    (hwatches : ∀ id webhook, kept id webhook → system.state.Watches id webhook)
    : IsTelling crates settings kept start system' := by
  have hmoves := h.reachable.statusMoves hstep
  have hreachable := h.reachable.step hstep
  rcases h.reachable.exists_lives with ⟨phases, hphases, hlife⟩
  rcases h.telling with ⟨notices, new, hconforms, htells⟩
  refine ⟨hreachable, ?_⟩
  cases System.stepsTo hstep with
  | @request request ambient hfresh =>
    refine ⟨notices ++ [.calm ambient.uuid], new, ?_, ?_⟩
    . apply hconforms.spawn ⟨rfl, rfl⟩
      apply (announces_route request).weaken
      intro _ _ _ hworker
      contradiction
    . refine Tells.perm ?_ (List.perm_append_singleton _ _).symm
      apply htells.spawn
      . rw [List.mem_map]
        rintro ⟨job, hjob, hid⟩
        have hqueued := hlife.owned.waiting job hjob
        unfold Core.statusOf at hqueued
        have hnone : system.state.core.jobs.find? ambient.uuid = none := find?_of_isFresh hfresh
        rw [hid, hnone] at hqueued
        contradiction
      . intro notice hnotice howned
        rcases hconforms.getThread? hnotice with ⟨thread, hthread, haddresses, _⟩
        unfold System.isFresh at hfresh
        rw [Bool.and_eq_true, List.all_eq_true] at hfresh
        have hne := hfresh.right thread hthread
        rw [haddresses.left, jobId_of_ownedId? howned, bne_self_eq_false] at hne
        contradiction
  | @recv externals job queue hqueue _ =>
    have hwaiting : job ∈ system.state.core.waiting := by
      change job ∈ system.state.queue.jobs
      rw [hqueue]
      exact List.mem_cons_self
    refine ⟨notices ++ [.working job], new, ?_, ?_⟩
    . apply Pool.Conforms.spawn hconforms ⟨rfl, rfl⟩
      apply (processJob.announces_processJob (hfaults externals rfl) job).weaken
      intro _ _ hdue _
      exact hdue
    . refine Tells.perm ?_ (List.perm_append_singleton _ _).symm
      exact htells.recv hqueue (hlife.recorded.waiting job hwaiting)
        ⟨.queued, hlife.owned.waiting job hwaiting, not_isSettled_queued⟩
  | @run i _ hrun =>
    have hrecorded := h.reachable.recorded_subset hstep
    rcases hconforms.runThread Addresses.announces hrun with
      ⟨notice, notice', hnotice, htrans, hconforms'⟩
    rcases List.getElem?_eq_some_iff.mp hnotice with ⟨hlt, hget⟩
    have hbefore : notices.Perm (notice :: notices.eraseIdx i) := by
      rw [← hget]
      exact (List.getElem_cons_eraseIdx_perm hlt).symm
    have hroom : ∀ uuid, notice = .recorded uuid → ∀ row,
        system.state.db.jobs.find? uuid = some row →
          system.state.queue.jobs.length < system.state.queue.capacity
            ∨ system.state.db.deliveryInfo row.tokenId = [] := by
      rintro uuid rfl row hrow
      rcases hconforms.getElem? hnotice with ⟨thread, hthread, haddresses, _⟩
      apply hheeds thread hthread haddresses.right row
      rw [haddresses.left]
      exact hrow
    rcases (htells.perm hbefore).thread htrans hrecorded hmoves
      (fun job hjob row => h.reachable.tokenId_eq hjob) hwatches hroom with ⟨new', htells'⟩
    exact ⟨_, new', hconforms', htells'.perm (List.set_perm_cons_eraseIdx hlt notice').symm⟩
  | changeFiles =>
    exact ⟨notices, new, hconforms, htells.deliveries, htells.nodup, htells.holds, htells.sound,
      htells.complete, htells.lasting⟩
  | restart => exact absurd rfl (hrestart _)

def IsKept (crates : Crates) (settings : Settings) (system₀ : System) (actions : List Action)
    (id : String) (webhook : String × String) : Prop :=
  ∀ t action t',
    (t, action, t') ∈ Machine.transitions (System.step crates settings) system₀ actions →
      t.state.Watches id webhook

/--
The `new` deliveries of the run: each job that comes to its end while some webhook is active is
announced once, as soon as its worker has returned, and nothing else is announced.
-/
structure Announced (crates : Crates) (settings : Settings) (system₀ : System)
    (actions : List Action) (system : System) (new : List Delivery) : Prop where
  deliveries : system.state.deliveries = new ++ system₀.state.deliveries
  once : ∀ t action t',
    (t, action, t') ∈ Machine.transitions (System.step crates settings) system₀ actions →
    ∀ id status, status.IsSettled → t.state.core.statusOf id ≠ some status →
      t'.state.core.statusOf id = some status →
    (∀ thread ∈ system.threads, ∀ job, thread.label = .worker job → job.id = id →
      thread.prog.isDone) →
    (∃ webhook, IsKept crates settings system₀ actions id webhook) →
      ∃ delivery, deliveriesOf id new = [delivery]
        ∧ delivery.fst.status = status
        ∧ ∀ webhook, IsKept crates settings system₀ actions id webhook → webhook ∈ delivery.snd
  only : ∀ delivery ∈ new, ∃ t action t',
    (t, action, t') ∈ Machine.transitions (System.step crates settings) system₀ actions
      ∧ delivery.fst.status.IsSettled
      ∧ t.state.core.statusOf delivery.fst.jobId ≠ some delivery.fst.status
      ∧ t'.state.core.statusOf delivery.fst.jobId = some delivery.fst.status

theorem isTelling_init (h : system₀.Reachable crates settings) (hthreads : system₀.threads = [])
    (kept : String → String × String → Prop)
    : IsTelling crates settings kept system₀.state system₀ := by
  rcases h.exists_lives with ⟨phases, _, hlife⟩
  refine ⟨h, [], [], ?_, rfl, ?_, ?_, ?_, ?_, ?_⟩
  . rw [hthreads]
    exact Pool.conforms_nil
  . rw [List.filterMap_nil, List.append_nil]
    exact (List.nodup_append.mp hlife.owned.nodup).left
  . intro notice hnotice
    contradiction
  . intro delivery hdelivery
    contradiction
  . intro id status _ hstatus
    exact .inl hstatus
  . intro id status _ hstatus
    exact hstatus

theorem IsTelling.announced {actions : List Action} (h : system₀.Reachable crates settings)
    (hrun : Machine.run (System.step crates settings) system₀ actions = some system)
    (htelling : IsTelling crates settings (IsKept crates settings system₀ actions) system₀.state
      system)
    : ∃ new, Announced crates settings system₀ actions system new := by
  rcases htelling.telling with ⟨notices, new, hconforms, htells⟩
  refine ⟨new, htells.deliveries, ?_, ?_⟩
  . rintro t action t' hmem id status hsettled hbefore hafter hended ⟨webhook, hkept⟩
    rcases Machine.mem_transitions_iff.mp hmem with ⟨before, after, rfl, hrunBefore, hstep⟩
    rw [Machine.run_append_eq_some_iff] at hrun
    rcases hrun with ⟨_, hrunBefore', hrunAfter⟩
    rw [hrunBefore] at hrunBefore'
    injection hrunBefore' with heq
    rw [← heq, Machine.run_cons hstep] at hrunAfter
    have hreachable := (h.run hrunBefore).step hstep
    have hstatus := hreachable.statusOf_of_run hrunAfter hsettled hafter
    rcases htells.complete id status hsettled hstatus with hstart | ⟨notice, hnotice, hends⟩
    . exact absurd (h.statusOf_of_run hrunBefore hsettled hstart) hbefore
    . have hholds := htells.holds notice hnotice
      cases notice with
      | refused uuid =>
        have hid : uuid = id := hends
        rw [← hid] at hkept
        exact absurd hkept (hholds webhook)
      | due job status' webhooks =>
        rcases hconforms.getThread? hnotice with ⟨thread, hthread, haddresses, hfollows⟩
        have hdone : thread.prog.isDone := by
          cases hlabel : thread.label with
          | handler request ambient =>
            rw [hlabel] at haddresses
            exact absurd haddresses.right Bool.false_ne_true
          | worker job' =>
            rw [hlabel] at haddresses
            exact hended thread hthread job' hlabel (haddresses.left.trans hends)
        cases hprog : thread.prog with
        | ret answer =>
          rw [hprog] at hfollows
          have hdue : true = false := hfollows haddresses.right
          contradiction
        | act effect next =>
          rw [hprog] at hdone
          contradiction
      | told job =>
        have hid : job.id = id := hends
        rw [← hid] at hkept hstatus ⊢
        rcases hholds with hnone | ⟨delivery, hdelivery, _, hstatus', hkept'⟩
        . exact absurd hkept (hnone webhook)
        . refine ⟨delivery, hdelivery, ?_, hkept'⟩
          exact Option.some.inj (hstatus'.symm.trans hstatus)
      | _ => contradiction
  . intro delivery hdelivery
    have ⟨hsettled, hstatus, hstart⟩ := htells.sound delivery hdelivery
    rcases Machine.exists_transition
        (P := fun system : System =>
          system.state.core.statusOf delivery.fst.jobId = some delivery.fst.status)
        hrun hstart hstatus with
      ⟨t, action, t', hmem, hbefore, hafter⟩
    exact ⟨t, action, t', hmem, hsettled, hbefore, hafter⟩

/--
In a run without failing statements: if the queue refuses no job whose token has an active webhook,
then every job that comes to its end is announced once, and nothing else is.
-/
theorem System.Reachable.announces_once {actions : List Action}
    (h : system₀.Reachable crates settings) (hthreads : system₀.threads = [])
    (hrun : Machine.run (System.step crates settings) system₀ actions = some system)
    (hrestart : ∀ boot, .restart boot ∉ actions)
    (hfaults : ∀ externals, .recv externals ∈ actions → ∀ scope, externals.faults scope = .none)
    (hheeds : ∀ t action t',
      (t, action, t') ∈ Machine.transitions (System.step crates settings) system₀ actions →
        t.Heeds action)
    : ∃ new, Announced crates settings system₀ actions system new := by
  apply IsTelling.announced h hrun
  apply Machine.invariant_of_transitions _ (isTelling_init h hthreads _) hrun
  intro t action t' hmem htelling
  have hstep := Machine.step_of_mem_transitions hmem
  rcases Machine.mem_transitions_iff.mp hmem with ⟨before, after, hactions, _, _⟩
  have haction : action ∈ actions := by
    rw [hactions]
    exact List.mem_append_right _ List.mem_cons_self
  apply htelling.step hstep _ _ (hheeds t action t' hmem)
  . intro id webhook hkept
    exact hkept t action t' hmem
  . rintro boot rfl
    exact hrestart boot haction
  . rintro externals rfl
    exact hfaults externals haction

namespace Samples

def webhook : WebhookRequest := ⟨"https://ci.example.org/koval", "7f0c3a"⟩

def listening : List Action := submitted 0 (.registerWebhook webhook) "1e6b" 2

def announced : List Action :=
  listening ++ submitted 1 (.build request) "4c1e" 4 ++ processed 2 externals 11

def refused : List Action :=
  listening
    ++ (List.range 10).flatMap (fun i => submitted (i + 1) (.build request) (toString i) 4)
    ++ submitted 11 (.build request) "4c1e" 5

theorem ambient_of_submitted {i steps : Nat} {request request' : Request} {uuid : String}
    {ambient' : Ambient} (h : .request request' ambient' ∈ submitted i request uuid steps)
    : ambient' = ambient uuid := by
  rw [submitted, List.mem_cons, List.mem_replicate] at h
  rcases h with h | ⟨_, h⟩
  . injection h
  . contradiction

theorem exists_of_refused {action : Action} (h : action ∈ refused)
    : ∃ i request uuid steps, action ∈ submitted i request uuid steps := by
  rw [refused, List.mem_append, List.mem_append, List.mem_flatMap] at h
  rcases h with (h | ⟨i, _, h⟩) | h
  . exact ⟨_, _, _, _, h⟩
  . exact ⟨_, _, _, _, h⟩
  . exact ⟨_, _, _, _, h⟩

end Samples

theorem System.Reachable.announces_once_built
    : ∃ system : System, ∃ delivery,
        deliveriesOf "4c1e" system.state.deliveries = [delivery]
          ∧ delivery.fst.status = .done
          ∧ (Samples.webhook.url, Samples.webhook.secret) ∈ delivery.snd := by
  rcases Samples.exists_of_steps Samples.announced
      (fun system action => system.Heeds action
        ∧ system.state.Watches "4c1e" (Samples.webhook.url, Samples.webhook.secret))
      (fun system => system.state.core.statusOf "4c1e" = some .done
        ∧ ∀ thread ∈ system.threads, thread.prog.isDone) (by decide +kernel) with
    ⟨system₀, system, hmain, hrun, hsteps, hdone, hended⟩
  have ⟨hthreads, hcore⟩ := main_eq_some hmain
  have hnew : system₀.state.core.statusOf "4c1e" = none := by
    rw [hcore]
    rfl
  have hreachable : system₀.Reachable Samples.github.crates Samples.settings :=
    ⟨Samples.boot, system₀, [], hmain, rfl⟩
  rcases hreachable.announces_once hthreads hrun
      (by
        intro boot hmem
        simp [Samples.announced, Samples.listening, Samples.submitted, Samples.processed] at hmem)
      (by
        intro externals hmem
        simp only [Samples.announced, Samples.listening, Samples.submitted, Samples.processed,
          List.mem_append, List.mem_cons, List.mem_replicate, Action.recv.injEq, reduceCtorEq,
          and_false, or_false, false_or] at hmem
        rw [hmem]
        intro scope
        rfl)
      fun t action t' hmem => (hsteps t action t' hmem).left with
    ⟨new, hannounced⟩
  rcases Machine.exists_transition
      (P := fun system : System => system.state.core.statusOf "4c1e" = some .done) hrun
      (by simp [hnew]) hdone with
    ⟨t, action, t', hmem, hbefore, hafter⟩
  rcases hannounced.once t action t' hmem "4c1e" .done (.inl rfl) hbefore hafter
      (fun thread hthread _ _ _ => hended thread hthread)
      ⟨_, fun t action t' hmem => (hsteps t action t' hmem).right⟩ with
    ⟨delivery, hdelivery, hstatus, hkept⟩
  refine ⟨system, delivery, ?_, hstatus, hkept _ fun t action t' hmem => (hsteps t action t' hmem).right⟩
  rw [hannounced.deliveries, (boots_main hmain).right]
  exact (congrArg (deliveriesOf "4c1e") (List.append_nil new)).trans hdelivery

/-- A job that the full queue refuses fails, and no webhook hears of it. -/
theorem refuses_silently
    : ¬ ∀ (crates : Crates) (settings : Settings) (system₀ : System) (actions : List Action)
        (system : System),
        system₀.Reachable crates settings → system₀.threads = [] →
        Machine.run (System.step crates settings) system₀ actions = some system →
        (∀ boot, .restart boot ∉ actions) →
        (∀ request ambient, .request request ambient ∈ actions →
          ∀ scope, ambient.faults scope = .none) →
        (∀ externals, .recv externals ∈ actions → ∀ scope, externals.faults scope = .none) →
          ∃ new, Announced crates settings system₀ actions system new := by
  intro hall
  rcases Samples.exists_of_steps Samples.refused
      (fun system _ =>
        system.state.Watches "4c1e" (Samples.webhook.url, Samples.webhook.secret))
      (fun system => system.state.core.statusOf "4c1e" = some .failed
        ∧ system.state.deliveries.isEmpty
        ∧ ∀ thread ∈ system.threads, thread.prog.isDone) (by decide +kernel) with
    ⟨system₀, system, hmain, hrun, hkept, hfailed, hempty, hended⟩
  have ⟨hthreads, hcore⟩ := main_eq_some hmain
  have hnew : system₀.state.core.statusOf "4c1e" = none := by
    rw [hcore]
    rfl
  rcases hall _ _ system₀ _ system ⟨Samples.boot, system₀, [], hmain, rfl⟩ hthreads hrun
      (by
        intro boot hmem
        rcases Samples.exists_of_refused hmem with ⟨_, _, _, _, hmem⟩
        simp [Samples.submitted] at hmem)
      (by
        intro request ambient hmem
        rcases Samples.exists_of_refused hmem with ⟨_, _, _, _, hmem⟩
        rw [Samples.ambient_of_submitted hmem]
        intro scope
        rfl)
      (by
        intro externals hmem
        rcases Samples.exists_of_refused hmem with ⟨_, _, _, _, hmem⟩
        simp [Samples.submitted] at hmem) with
    ⟨new, hannounced⟩
  rcases Machine.exists_transition
      (P := fun system : System => system.state.core.statusOf "4c1e" = some .failed) hrun
      (by simp [hnew]) hfailed with
    ⟨t, action, t', hmem, hbefore, hafter⟩
  rcases hannounced.once t action t' hmem "4c1e" .failed (.inr rfl) hbefore hafter
      (fun thread hthread _ _ _ => hended thread hthread) ⟨_, hkept⟩ with
    ⟨delivery, hdelivery, _⟩
  have hnil := hannounced.deliveries.symm.trans (List.isEmpty_iff.mp hempty)
  rw [(List.append_eq_nil_iff.mp hnil).left] at hdelivery
  contradiction

end Koval
