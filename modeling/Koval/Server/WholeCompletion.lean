import Koval.Server.JobLife
import Koval.Server.Samples
import Koval.Server.SystemFrames

/-!
This module contains when the three statements that complete a job come to one.
-/

namespace Koval

open Prog

variable {crates : Crates} {settings : Settings} {externals : Externals} {job : Job}

structure Core.IsWhole (c : Core) : Prop where
  artifacts : ∀ row ∈ c.artifacts.rows, c.statusOf row.jobId = some .done
  buildCache : ∀ row ∈ c.buildCache.rows, c.statusOf row.jobId = some .done

/-- After the first of the three statements, none of the others fails. -/
def Externals.CompletesWhole (externals : Externals) : Prop :=
  externals.faults 3 .insertArtifact ≠ none
    ∨ (externals.faults 3 .insertCacheEntry = none ∧ externals.faults 3 .updateJobStatus = none)

structure StoresDone (s s' : State) : Prop where
  artifacts : ∀ row ∈ s'.db.artifacts.rows,
    row ∈ s.db.artifacts.rows ∨ s'.core.statusOf row.jobId = some .done
  buildCache : ∀ row ∈ s'.db.buildCache.rows,
    row ∈ s.db.buildCache.rows ∨ s'.core.statusOf row.jobId = some .done

theorem storesDone_of_eq {s s' : State} (hartifacts : s'.db.artifacts = s.db.artifacts)
    (hcache : s'.db.buildCache = s.db.buildCache)
    : StoresDone s s' where
  artifacts := by
    rw [hartifacts]
    intro row hrow
    exact .inl hrow
  buildCache := by
    rw [hcache]
    intro row hrow
    exact .inl hrow

namespace processJob.complete

theorem storesDone_go (hwhole : externals.CompletesWhole) {finishedStr sha256 : String}
    {fileSize : Nat} {s s' : State}
    (h : s'.db = ((go crates settings job finishedStr fileSize sha256).run (externals.faults 3)
      s.db).snd)
    : StoresDone s s' := by
  unfold go at h
  rw [Sql.run_bind] at h
  unfold Db.insertArtifact Db.insertCacheEntry Db.updateJobStatus Sql.run Sql.execute at h
  dsimp only [Bind.bind] at h
  cases hfault : externals.faults 3 .insertArtifact with
  | some msg =>
    simp only [hfault] at h
    exact storesDone_of_eq (congrArg Db.artifacts h) (congrArg Db.buildCache h)
  | none =>
    rcases hwhole with hwhole | ⟨hcacheFault, hstatusFault⟩
    . contradiction
    cases hcontains : s.db.jobs.contains job.id with
    | false =>
      simp only [hfault, hcontains, Bool.false_eq_true, ite_false] at h
      exact storesDone_of_eq (congrArg Db.artifacts h) (congrArg Db.buildCache h)
    | true =>
      simp only [hfault, hcontains, hcacheFault, hstatusFault, ite_true] at h
      have hdone : s'.core.statusOf job.id = some .done := by
        unfold Table.contains at hcontains
        rw [Option.isSome_iff_exists] at hcontains
        rcases hcontains with ⟨row, hrow⟩
        simp only [Core.statusOf, State.core, h, Table.find?_updateKey, hrow]
        rfl
      constructor
      . intro row hrow
        rw [h] at hrow
        rcases Table.mem_or_eq_of_mem_replace hrow with hold | rfl
        . exact .inl hold
        . exact .inr hdone
      . intro row hrow
        rw [h] at hrow
        rcases Table.mem_or_eq_of_mem_replace hrow with hold | rfl
        . exact .inl hold
        . exact .inr hdone

end processJob.complete

theorem always_storesDone_handler (request : Request) (ambient : Ambient)
    : Always StoresDone (route crates settings request ambient).run :=
  (deed_route request).mono fun _ _ h => storesDone_of_eq (h.artifacts rfl) (h.buildCache rfl)

theorem always_storesDone_processJob (hwhole : externals.CompletesWhole) (job : Job)
    : Always StoresDone (processJob crates settings externals job) := by
  apply processJob.always_processJob
  . intro s s' h
    exact storesDone_of_eq h.artifacts h.buildCache
  . intro s s' fileSize sha256 h
    exact processJob.complete.storesDone_go hwhole h

theorem Core.IsWhole.step {s s' : State} (h : s.core.IsWhole) (hstores : StoresDone s s')
    (hdone : ∀ id, s.core.statusOf id = some .done → s'.core.statusOf id = some .done)
    : s'.core.IsWhole where
  artifacts := by
    intro row hrow
    rcases hstores.artifacts row hrow with hold | hnew
    . exact hdone _ (h.artifacts row hold)
    . exact hnew
  buildCache := by
    intro row hrow
    rcases hstores.buildCache row hrow with hold | hnew
    . exact hdone _ (h.buildCache row hold)
    . exact hnew

/-- What a handler has found so far: a job with an archive. -/
def Finds (found : Option String) (s : State) (found' : Option String) (_ : State) : Prop :=
  found' = found ∨ ∃ row ∈ s.db.artifacts.rows, found' = some row.jobId

def Delivers (label : Label) (found : Option String) (answer : Answer) : Prop :=
  ∀ jobId ambient response, label = .handler (.binary jobId) ambient →
    answer = .response response → response.status = .ok → found = some jobId

structure IsSound (crates : Crates) (settings : Settings) (system : System) : Prop where
  reachable : system.Reachable crates settings
  storing : Pool.AllAlways (fun _ => StoresDone) system.threads
  whole : system.state.core.IsWhole
  finding : ∃ found, Pool.Conforms Finds (fun _ _ => True) Delivers system.threads found
    ∧ ∀ jobId, some jobId ∈ found → system.state.core.statusOf jobId = some .done

theorem follows_binaryHandler (jobId : String) (ambient : Ambient)
    : Follows Finds
        (Until (fun found _ => found = some jobId) fun _ response => response.status ≠ .ok)
        (binaryHandler crates settings ambient jobId).run none := by
  unfold binaryHandler
  apply Follows.bindExcept (follows_authenticate _ _ _)
  . rintro _ _ rfl
    apply Follows.bindExcept
      (m := fun found (res : Except SqlError (Option (String × Nat × String))) =>
        ∀ row, res = .ok (some row) → found = some jobId)
    . apply Follows.liftExcept
      apply follows_atomic
      intro s
      cases hfind : s.db.artifacts.find? jobId with
      | some row =>
        refine ⟨some jobId, .inr ⟨row, Table.mem_of_find? hfind, ?_⟩, fun _ _ => rfl⟩
        exact congrArg some (Table.key_of_find? hfind).symm
      | none =>
        refine ⟨none, .inl rfl, ?_⟩
        intro row hrow
        rw [Db.getArtifact, fst_runDb_query, hfind] at hrow
        split at hrow
        . contradiction
        . injection hrow with hrow
          contradiction
    . intro res found hfound
      split
      . exact follows_pure StatusCode.noConfusion
      . exact follows_pure StatusCode.noConfusion
      . next row =>
        have hfound := hfound _ rfl
        rw [hfound]
        apply Follows.bindExcept (m := fun found _ => found = some jobId)
        . apply Follows.liftExcept
          exact (still_exists? _).follows fun _ _ _ => .inl rfl
        . rintro doesExist _ rfl
          split
          . exact follows_pure StatusCode.noConfusion
          . apply Follows.bindExcept (m := fun found _ => found = some jobId)
            . apply Follows.liftExcept
              exact (still_readFile _).follows fun _ _ _ => .inl rfl
            . rintro content _ rfl
              split
              . exact follows_pure StatusCode.noConfusion
              . exact follows_pure (by rfl)
  . intro _ _ _
    exact .inl rfl
  . exact StatusCode.noConfusion
  . intro err
    cases err <;> exact StatusCode.noConfusion

theorem follows_delivers (request : Request) (ambient : Ambient)
    : Follows Finds (Delivers (.handler request ambient))
        (do let response ← (route crates settings request ambient).respond
            pure (Answer.response response))
        none := by
  by_cases hbinary : ∃ jobId, request = .binary jobId
  . rcases hbinary with ⟨jobId, rfl⟩
    apply Follows.bind (m := fun found response => response.status = .ok → found = some jobId)
    . apply Follows.bind (follows_binaryHandler jobId ambient)
      intro res found hfound
      cases res with
      | ok response => exact follows_pure fun _ => hfound
      | error response => exact follows_pure fun hok => absurd hok hfound
    . intro response found hfound
      apply follows_pure
      intro jobId' ambient' response' hlabel hanswer hok
      injection hlabel with hrequest
      injection hrequest with hid
      injection hanswer with hresponse
      rw [← hid]
      rw [← hresponse] at hok
      exact hfound hok
  . apply follows_of_forall
    . intro _ _
      exact .inl rfl
    . intro _ jobId _ _ hlabel
      injection hlabel with hrequest
      exact absurd ⟨jobId, hrequest⟩ hbinary

variable {system system' : System}

theorem IsSound.step {action : Action} (h : IsSound crates settings system)
    (hstep : system.step crates settings action = some system')
    (hwhole : ∀ externals, action = .recv externals → externals.CompletesWhole)
    : IsSound crates settings system' := by
  have hdone : ∀ id, system.state.core.statusOf id = some .done →
      system'.state.core.statusOf id = some .done := by
    intro id hid
    exact (h.reachable.statusMoves hstep id).lasts (.inl rfl) hid
  have hreachable := h.reachable.step hstep
  rcases h.finding with ⟨found, hconforms, hfound⟩
  cases System.stepsTo hstep with
  | request =>
    refine ⟨hreachable, h.storing.spawn (always_handler (always_storesDone_handler _ _)), h.whole,
      found ++ [none], hconforms.spawn trivial (follows_delivers _ _), ?_⟩
    intro jobId hjobId
    rw [List.mem_append, List.mem_singleton] at hjobId
    rcases hjobId with hjobId | hnone
    . exact hfound jobId hjobId
    . contradiction
  | @recv externals job queue _ _ =>
    refine ⟨hreachable, ?_, ⟨h.whole.artifacts, h.whole.buildCache⟩, found ++ [none], ?_, ?_⟩
    . apply Pool.AllAlways.spawn h.storing
      apply Always.bind (always_storesDone_processJob (hwhole externals rfl) job)
      intro _
      exact always_pure _
    . apply Pool.Conforms.spawn hconforms trivial
      apply follows_of_forall
      . intro _ _
        exact .inl rfl
      . intro _ _ _ _ hlabel
        contradiction
    . intro jobId hjobId
      rw [List.mem_append, List.mem_singleton] at hjobId
      rcases hjobId with hjobId | hnone
      . exact hfound jobId hjobId
      . contradiction
  | run hrun =>
    rcases h.storing.runThread hrun with ⟨_, _, _, hstores, hstoring⟩
    rcases hconforms.runThread (fun _ _ _ _ _ _ _ => trivial) hrun with
      ⟨phase, phase', hphase, hfinds, hconforms'⟩
    refine ⟨hreachable, hstoring, h.whole.step hstores hdone, _, hconforms', ?_⟩
    intro jobId hjobId
    rcases List.mem_or_eq_of_mem_set hjobId with hold | rfl
    . exact hdone jobId (hfound jobId hold)
    . rcases hfinds with heq | ⟨row, hrow, heq⟩
      . rw [← heq] at hphase
        exact hdone jobId (hfound jobId (List.mem_of_getElem? hphase))
      . injection heq with heq
        rw [heq]
        exact hdone _ (h.whole.artifacts row hrow)
  | changeFiles => exact ⟨hreachable, h.storing, h.whole, found, hconforms, hfound⟩
  | restart hthreads hcore =>
    refine ⟨hreachable, ?_, ?_, [], ?_, ?_⟩
    . rw [hthreads]
      intro thread hthread
      contradiction
    . rw [hcore]
      exact ⟨h.whole.artifacts, h.whole.buildCache⟩
    . rw [hthreads]
      exact Pool.conforms_nil
    . intro jobId hjobId
      contradiction

/--
If no completion is broken off after its first statement, then an archive or an entry of the build
cache is there for jobs that are done only, and only these are delivered.
-/
theorem System.completes_whole {boot : Boot} {system₀ : System}
    (hmain : main crates settings boot (.empty settings) = some system₀) {actions : List Action}
    (hrun : Machine.run (System.step crates settings) system₀ actions = some system)
    (hwhole : ∀ externals, .recv externals ∈ actions → externals.CompletesWhole)
    : system.state.core.IsWhole
        ∧
      ∀ thread ∈ system.threads, ∀ jobId ambient response,
        thread.label = .handler (.binary jobId) ambient →
        thread.prog = .ret (.response response) → response.status = .ok →
          system.state.core.statusOf jobId = some .done := by
  have hinit : IsSound crates settings system₀ := by
    have ⟨hthreads, hcore⟩ := main_eq_some hmain
    refine ⟨⟨boot, system₀, [], hmain, rfl⟩, ?_, ?_, [], ?_, ?_⟩
    . rw [hthreads]
      intro thread hthread
      contradiction
    . rw [hcore]
      constructor
      . intro row hrow
        contradiction
      . intro row hrow
        contradiction
    . rw [hthreads]
      exact Pool.conforms_nil
    . intro jobId hjobId
      contradiction
  have hsound : IsSound crates settings system := by
    apply Machine.invariant_of_run _ hinit hrun
    rintro action hmem system system' h hstep
    apply h.step hstep
    rintro externals rfl
    exact hwhole externals hmem
  refine ⟨hsound.whole, ?_⟩
  intro thread hthread jobId ambient response hlabel hprog hok
  rcases hsound.finding with ⟨found, hconforms, hfound⟩
  rcases hconforms.exists_phase hthread with ⟨phase, hphase, _, hfollows⟩
  rw [hprog] at hfollows
  apply hfound
  rw [← hfollows jobId ambient response hlabel rfl hok]
  exact hphase

def Samples.downloaded (externals : Externals) (steps : Nat) : List Action :=
  submitted 0 (.build request) "4c1e" 4
    ++ processed 1 externals steps
    ++ submitted 2 (.binary "4c1e") "9b7d" 4

theorem System.completes_whole_built
    : ∃ system : System,
        system.state.db.artifacts.contains "4c1e"
          ∧ system.state.core.IsWhole
          ∧ system.state.core.statusOf "4c1e" = some .done := by
  rcases Samples.exists_of_runs (Samples.downloaded Samples.externals 10)
      (fun system => system.state.db.artifacts.contains "4c1e") (by decide +kernel) with
    ⟨system₀, system, hmain, hrun, hcontains⟩
  have ⟨hwhole, _⟩ := System.completes_whole hmain hrun (by
    intro externals hmem
    simp only [Samples.downloaded, Samples.submitted, Samples.processed, List.mem_append,
      List.mem_cons, List.mem_replicate, Action.recv.injEq, reduceCtorEq, and_false, or_false,
      false_or] at hmem
    rw [hmem]
    exact .inr ⟨rfl, rfl⟩)
  refine ⟨system, hcontains, hwhole, ?_⟩
  unfold Table.contains at hcontains
  rw [Option.isSome_iff_exists] at hcontains
  rcases hcontains with ⟨row, hrow⟩
  have hdone := hwhole.artifacts row (Table.mem_of_find? hrow)
  have hid : row.jobId = "4c1e" := Table.key_of_find? hrow
  rw [hid] at hdone
  exact hdone

-- The cache entry fails after the archive has been stored.
def Samples.brokenOff : Externals :=
  { Samples.externals with faults := fun _ stmt =>
      if stmt = .insertCacheEntry then some "disk I/O error" else none }

def Samples.delivers (jobId : String) (thread : Thread Label State Answer) : Bool :=
  match thread with
  | ⟨.handler (.binary id) _, .ret (.response response)⟩ => id = jobId && response.status = .ok
  | _ => false

/-- The archive of a job that is still building is delivered. -/
theorem delivers_unfinished
    : ¬ ∀ crates settings boot system₀ actions system,
        main crates settings boot (.empty settings) = some system₀ →
        Machine.run (System.step crates settings) system₀ actions = some system →
          system.state.core.IsWhole
            ∧
          ∀ thread ∈ system.threads, ∀ jobId ambient response,
            thread.label = .handler (.binary jobId) ambient →
            thread.prog = .ret (.response response) → response.status = .ok →
              system.state.core.statusOf jobId = some .done := by
  intro hall
  rcases Samples.exists_of_runs (Samples.downloaded Samples.brokenOff 9)
      (fun system =>
        system.state.core.statusOf "4c1e" = some .building
          ∧ system.threads.any (Samples.delivers "4c1e"))
      (by decide +kernel) with
    ⟨system₀, system, hmain, hrun, hbuilding, hany⟩
  rcases List.any_eq_true.mp hany with ⟨thread, hthread, hdelivers⟩
  have ⟨_, hdone⟩ := hall _ _ _ _ _ system hmain hrun
  unfold Samples.delivers at hdelivers
  split at hdelivers
  . next id ambient response =>
    rw [Bool.and_eq_true, decide_eq_true_eq, decide_eq_true_eq] at hdelivers
    have hdone := hdone _ hthread id ambient response rfl rfl hdelivers.right
    rw [hdelivers.left, hbuilding] at hdone
    contradiction
  . contradiction

end Koval
