import Koval.Server.Routes.RouteFrames
import Koval.Server.SystemLemmas
import Koval.Server.Worker.WorkerFrames

/-!
This module contains what each step of the whole server may change in the tables that few steps
change.
-/

namespace Koval

open Prog

variable {crates : Crates} {settings : Settings}

-- Only the archives and the build cache change otherwise.
def Db.SparesRest (db db' : Db) : Prop :=
  db.Spares { db' with artifacts := db.artifacts, buildCache := db.buildCache }

namespace Db

theorem SparesRest.trans (db db' db'' : Db) (h : db.SparesRest db') (h' : db'.SparesRest db'')
    : db.SparesRest db'' := by
  apply Spares.trans _ _ _ h
  exact { h' with artifacts := rfl, buildCache := rfl }

theorem Spares.rest {db db' : Db} (h : db.Spares db') : db.SparesRest db' :=
  { h with artifacts := rfl, buildCache := rfl }

theorem sparesRest_refl (db : Db) : db.SparesRest db := db.spares_refl

theorem moves_insertArtifact (jobId filePath : String) (fileSize : Nat) (sha256 : String)
    : Sql.Moves SparesRest (insertArtifact jobId filePath fileSize sha256) := by
  apply Sql.moves_execute sparesRest_refl
  intro db db' h
  split at h
  . injection h with h
    rw [← h]
    exact { db.spares_refl with }
  . contradiction

theorem moves_insertCacheEntry (cacheKey jobId createdAt : String)
    : Sql.Moves SparesRest (insertCacheEntry cacheKey jobId createdAt) := by
  apply Sql.moves_execute sparesRest_refl
  intro db db' h
  split at h
  . injection h with h
    rw [← h]
    exact { db.spares_refl with }
  . contradiction

theorem moves_go (job : Job) (finishedStr : String) (fileSize : Nat) (sha256 : String)
    : Sql.Moves SparesRest
        (processJob.complete.go crates settings job finishedStr fileSize sha256) := by
  apply Sql.Moves.bind SparesRest.trans (moves_insertArtifact _ _ _ _)
  intro _
  apply Sql.Moves.bind SparesRest.trans (moves_insertCacheEntry _ _ _)
  intro _ faults db
  exact (moves_updateJobStatus _ _ _ _ _ faults db).rest

end Db

theorem Db.SparesRest.deed {s s' : State} (h : s.db.SparesRest s'.db) (job : Job)
    : Deed crates (.worker job) s s' where
  tokens := .stay h.tokens h.lastTokenId
  rates := h.rates
  pgoProfiles := by
    have hprofiles : s'.db.pgoProfiles = s.db.pgoProfiles := h.pgoProfiles
    rw [hprofiles]
    exact grow_refl _
  optimizes _ := h.optimizes
  artifacts := Bool.noConfusion
  buildCache := Bool.noConfusion
  deliveries := Bool.noConfusion
  counts := h.counts

theorem deed_processJob (externals : Externals) (job : Job)
    : Always (Deed crates (.worker job)) (processJob crates settings externals job) := by
  apply processJob.always_processJob
  . intro s s' h
    exact h.rest.deed job
  . intro s s' fileSize sha256 hdb
    apply Db.SparesRest.deed
    rw [hdb]
    exact Db.moves_go _ _ _ _ _ _

/-- How the start of the server may change the tokens. -/
inductive Boots (crates : Crates) (boot : Boot) : Db → Db → Prop where
  | stay {db : Db} {token : Token} (hmem : token ∈ db.tokens.rows) (hactive : token.isActive) :
    Boots crates boot db db
  | insert {db : Db} {tokenHash : String} {tokens : Table Token.id}
    (hnone : ∀ token ∈ db.tokens.rows, token.isActive = false)
    (hhash : crates.bcryptHash boot.salt (boot.adminToken.getD boot.uuid) = .ok tokenHash)
    (hinsert : db.tokens.insert?
      ⟨db.lastTokenId + 1, tokenHash, "Default Admin Token", boot.now.toRfc3339, true⟩
        = some tokens) :
    Boots crates boot db { db with tokens, lastTokenId := db.lastTokenId + 1 }

theorem boots_bootstrapAdminToken {boot : Boot} {faults : Faults Stmt} {db db' : Db}
    {plaintext : Option String}
    (h : (bootstrapAdminToken crates boot).run faults db = (.ok (.ok plaintext), db'))
    : Boots crates boot db db'
        ∧
      plaintext =
        if db.tokens.rows.any (·.isActive) then none else some (boot.adminToken.getD boot.uuid) := by
  rcases Sql.run_bind_eq_ok h with ⟨activeTokens, mid, hquery, hrest⟩
  have ⟨hactive, hmid⟩ := Sql.run_query_eq_ok hquery
  rw [hmid] at hrest
  dsimp only at hactive hrest
  split at hrest
  . next hnil =>
    rw [hnil, eq_comm, List.filter_eq_nil_iff] at hactive
    have hnone : db.tokens.rows.any (·.isActive) = false := by
      rw [List.any_eq_false]
      exact hactive
    rw [hnone]
    split at hrest
    . have ⟨herr, _⟩ := Sql.run_pure_eq_ok hrest
      contradiction
    . next hashed hhash =>
      rcases Sql.run_bind_eq_ok hrest with ⟨_, mid', hinsert, hpure⟩
      have ⟨hplaintext, hdb⟩ := Sql.run_pure_eq_ok hpure
      injection hplaintext with hplaintext
      rcases Db.run_insertToken_cases hinsert with ⟨tokens, hinsert, hmid'⟩ | ⟨err, herr, _⟩
      . rw [hdb, hmid']
        refine ⟨.insert ?_ hhash hinsert, hplaintext⟩
        intro token htoken
        exact Bool.eq_false_iff.mpr (hactive token htoken)
      . contradiction
  . next hne =>
    have ⟨hplaintext, hdb⟩ := Sql.run_pure_eq_ok hrest
    injection hplaintext with hplaintext
    rcases List.exists_mem_of_ne_nil _ hne with ⟨token, htoken⟩
    rw [hactive, List.mem_filter] at htoken
    have hsome : db.tokens.rows.any (·.isActive) = true := List.any_eq_true.mpr ⟨token, htoken⟩
    rw [hdb, hsome]
    exact ⟨.stay htoken.left htoken.right, hplaintext⟩

theorem boots_main {boot : Boot} {s : State} {system : System}
    (h : main crates settings boot s = some system)
    : Boots crates boot s.db system.state.db ∧ system.state.deliveries = s.deliveries := by
  unfold main at h
  split at h
  . next s₁ hrun =>
    have ⟨hdb, hs⟩ := run_of_runDb hrun
    split at h
    . contradiction
    . injection h with h
      rw [← h]
      refine ⟨(boots_bootstrapAdminToken hdb).left, ?_⟩
      rw [hs]
      rfl
  . contradiction

/-- What one step of the server may change. -/
inductive Turn (crates : Crates) (system system' : System) : Action → Prop where
  | run {i : Nat} {thread : Thread Label State Answer} (hthread : system.threads[i]? = some thread)
    (hdone : thread.prog.isDone = false)
    (hdeed : Deed crates thread.label system.state system'.state) : Turn crates system system' (.run i)
  | restart {boot : Boot} (hboots : Boots crates boot system.state.db system'.state.db)
    (hdeliveries : system'.state.deliveries = system.state.deliveries) :
    Turn crates system system' (.restart boot)
  | quiet {action : Action} (hdb : system'.state.db = system.state.db)
    (hdeliveries : system'.state.deliveries = system.state.deliveries) :
    Turn crates system system' action

theorem turn_of_step {action : Action} {system system' : System}
    (h : Pool.AllAlways (Deed crates) system.threads)
    (hstep : system.step crates settings action = some system')
    : Turn crates system system' action ∧ Pool.AllAlways (Deed crates) system'.threads := by
  cases System.stepsTo hstep with
  | @request request ambient _ => exact ⟨.quiet rfl rfl, h.spawn (always_handler (deed_route request))⟩
  | @recv externals job queue _ _ =>
    refine ⟨.quiet rfl rfl, ?_⟩
    apply Pool.AllAlways.spawn h
    apply Always.bind (deed_processJob externals job)
    intro outcome
    exact always_pure _
  | run hrun =>
    rcases h.runThread hrun with ⟨thread, _, hthread, hdeed, hnext⟩
    exact ⟨.run hthread (Pool.not_isDone_of_runThread hrun hthread) hdeed, hnext⟩
  | changeFiles => exact ⟨.quiet rfl rfl, h⟩
  | restart hthreads _ =>
    rcases boots_main hstep with ⟨hboots, hdeliveries⟩
    refine ⟨.restart hboots hdeliveries, ?_⟩
    rw [hthreads]
    intro thread hthread
    contradiction

/-- What holds after the start, and stays when the server takes its turns, holds in all its states. -/
theorem System.Reachable.of_turns {I : System → Prop}
    (hstart : ∀ boot system₀,
      main crates settings boot (.empty settings) = some system₀ → I system₀)
    (hturn : ∀ system system' action, Turn crates system system' action → I system → I system')
    {system : System} (h : system.Reachable crates settings)
    : Pool.AllAlways (Deed crates) system.threads ∧ I system := by
  rcases h with ⟨boot, system₀, actions, hmain, hrun⟩
  apply Machine.invariant_of_run
    (I := fun system => Pool.AllAlways (Deed crates) system.threads ∧ I system) _ _ hrun
  . rintro action _ system system' ⟨hdeeds, hI⟩ hstep
    have ⟨hturned, hdeeds'⟩ := turn_of_step hdeeds hstep
    exact ⟨hdeeds', hturn _ _ _ hturned hI⟩
  . refine ⟨?_, hstart boot system₀ hmain⟩
    rw [(main_eq_some hmain).left]
    intro thread hthread
    contradiction

theorem System.Reachable.allAlways {system : System} (h : system.Reachable crates settings)
    : Pool.AllAlways (Deed crates) system.threads :=
  (h.of_turns (fun _ _ _ => trivial) fun _ _ _ _ => id).left

theorem System.exists_of_step {action : Action} {system system' : System}
    (hstep : system.step crates settings action = some system') {thread' : Thread Label State Answer}
    (hthread' : thread' ∈ system'.threads)
    : (∃ thread ∈ system.threads,
          thread'.label = thread.label ∧ (thread.prog.isDone → thread' = thread))
        ∨
      (∃ request ambient,
          action = .request request ambient ∧ thread'.label = .handler request ambient)
        ∨
      (∃ job, thread'.label = .worker job) := by
  cases System.stepsTo hstep with
  | @request request ambient _ =>
    rw [Pool.spawn, List.mem_append, List.mem_singleton] at hthread'
    rcases hthread' with hthread' | rfl
    . exact .inl ⟨thread', hthread', rfl, fun _ => rfl⟩
    . exact .inr (.inl ⟨request, ambient, rfl, rfl⟩)
  | @recv _ job _ _ _ =>
    rw [Pool.spawn, List.mem_append, List.mem_singleton] at hthread'
    rcases hthread' with hthread' | rfl
    . exact .inl ⟨thread', hthread', rfl, fun _ => rfl⟩
    . exact .inr (.inr ⟨job, rfl⟩)
  | run hrun =>
    rcases List.getElem?_of_mem hthread' with ⟨j, hj⟩
    rcases Pool.exists_of_runThread hrun hj with ⟨thread, hthread, hlabel, hdone⟩
    exact .inl ⟨thread, List.mem_of_getElem? hthread, hlabel, hdone⟩
  | changeFiles => exact .inl ⟨thread', hthread', rfl, fun _ => rfl⟩
  | restart hthreads _ =>
    rw [hthreads] at hthread'
    contradiction

theorem System.Reachable.buildCache_of_request {system system' : System} {n : Nat}
    {request : Request} {ambient : Ambient} (h : system.Reachable crates settings)
    (hrun : Machine.run (System.step crates settings) system
      (.request request ambient :: List.replicate n (.run system.threads.length)) = some system')
    : system'.state.db.buildCache = system.state.db.buildCache := by
  have hinv : Pool.AllAlways (Deed crates) system'.threads
      ∧ (∀ thread, system'.threads[system.threads.length]? = some thread →
          thread.label.isWorker = false)
      ∧ system'.state.db.buildCache = system.state.db.buildCache := by
    apply Machine.invariant_of_run
      (I := fun t => Pool.AllAlways (Deed crates) t.threads
        ∧ (∀ thread, t.threads[system.threads.length]? = some thread → thread.label.isWorker = false)
        ∧ t.state.db.buildCache = system.state.db.buildCache)
      _ _ hrun
    . rintro action haction t t' ⟨hdeeds, hhandler, hcache⟩ hstep
      have ⟨hturn, hdeeds'⟩ := turn_of_step hdeeds hstep
      refine ⟨hdeeds', ?_⟩
      rw [List.mem_cons, List.mem_replicate] at haction
      rcases haction with rfl | ⟨_, rfl⟩
      . cases System.stepsTo hstep with
        | request =>
          refine ⟨?_, hcache⟩
          intro thread hthread
          rcases Pool.getElem?_spawn_cases hthread with hthread | ⟨_, rfl⟩
          . exact hhandler thread hthread
          . rfl
      . cases System.stepsTo hstep with
        | run hpool =>
          constructor
          . intro thread' hthread'
            rcases Pool.exists_of_runThread hpool hthread' with ⟨thread, hthread, hlabel, _⟩
            rw [hlabel]
            exact hhandler thread hthread
          . cases hturn with
            | run hthread _ hdeed =>
              exact (hdeed.buildCache (hhandler _ hthread)).trans hcache
            | quiet hdb =>
              rw [hdb]
              exact hcache
    . refine ⟨h.allAlways, ?_, rfl⟩
      intro thread hthread
      simp at hthread
  exact hinv.right.right

end Koval
