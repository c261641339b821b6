import Koval.Server.CacheAnswers
import Koval.Server.CacheLemmas
import Mathlib.Data.List.Find

/-!
This module contains which jobs the build cache answers with, over whole runs of the server.
-/

namespace Koval

variable {crates : Crates} {settings : Settings} {system system' : System}

def Event.tuple? (event : Event) : Option BuildTuple :=
  match event with
  | recorded job => some job.tuple
  | answered tuple _ => some tuple
  | _ => none

namespace Core

def tuples (c : Core) : List BuildTuple := c.history.filterMap Event.tuple?

def lastBuilt (c : Core) (tuple : BuildTuple) : Option Job :=
  c.completed.find? fun job => job.tuple.normalized = tuple.normalized

def lastStandard (c : Core) (tuple : BuildTuple) : Option Job :=
  c.completed.find? fun job =>
    job.jobType = .standard ∧ job.tuple.normalized = tuple.normalized

end Core

-- SHA-256 is not injective, but different builds of a run are taken to have different keys.
def KeysSeparate (crates : Crates) (tuples : List BuildTuple) : Prop :=
  ∀ a ∈ tuples, ∀ b ∈ tuples, a.cacheKey crates = b.cacheKey crates → a.normalized = b.normalized

/-- The job `id` is the right answer to a request for `tuple`. -/
def State.AnswersWith (s : State) (tuple : BuildTuple) (id : String) : Prop :=
  ∃ job ∈ s.core.recorded,
    job.id = id
      ∧
    job.jobType = .standard
      ∧
    job.tuple.normalized = tuple.normalized
      ∧
    s.core.statusOf id = some .done
      ∧
    s.core.lastStandard tuple = some job
      ∧
    ∃ artifact, s.core.artifacts.find? id = some artifact ∧ s.exists? (.ofString artifact.filePath)

theorem Transition.history_suffix {phase phase' : Phase} {s s' : State}
    (h : Transition crates phase s phase' s')
    : s.core.history <:+ s'.core.history := by
  cases h with
  | quiet _ hcore | read hcore => rw [hcore]
  | setStatus _ hcore | storeArtifact _ hcore | storeCache _ hcore =>
    rw [hcore]
    exact List.suffix_refl _
  | hit _ _ _ _ _ hcore | insert _ _ hcore | complete _ hcore =>
    rw [hcore]
    exact List.suffix_cons _ _
  | enqueue hcore =>
    rw [hcore]
    exact List.suffix_cons _ _

theorem Advance.history_suffix {phases phases' : List Phase} {s s' : State}
    (h : Advance crates s phases s' phases')
    : s.core.history <:+ s'.core.history := by
  cases h with
  | thread htrans => exact htrans.history_suffix
  | spawn hjobs hphases => exact List.suffix_refl _
  | recv hwaiting hcore => rw [hcore]
  | outside hcore => rw [hcore]
  | restart hcore =>
    rw [hcore]
    exact List.suffix_cons _ _

theorem System.Reachable.history_suffix {actions : List Action}
    (h : system.Reachable crates settings)
    (hrun : Machine.run (System.step crates settings) system actions = some system')
    : system.state.history <:+ system'.state.history := by
  have hinv : system'.Reachable crates settings
      ∧ system.state.history <:+ system'.state.history := by
    apply Machine.invariant_of_run
      (I := fun later =>
        System.Reachable crates settings later ∧ system.state.history <:+ later.state.history)
      _ ⟨h, List.suffix_refl _⟩ hrun
    rintro action _ mid mid' ⟨hmid, hsuffix⟩ hstep
    rcases hmid.exists_lives with ⟨phases, hphases, _⟩
    rcases hphases.step hstep with ⟨_, _, _, _, hadvance, _, _⟩
    exact ⟨hmid.step hstep, hsuffix.trans hadvance.history_suffix⟩
  exact hinv.right

theorem Advance.hit_of_answered {phases phases' : List Phase} {s s' : State} {tuple : BuildTuple}
    {id : String} (h : Advance crates s phases s' phases')
    (hanswered : s'.core.history = .answered tuple id :: s.core.history)
    : ∃ cacheRow row artifact,
        s.core.buildCache.find? (tuple.cacheKey crates) = some cacheRow
          ∧
        cacheRow.jobId = id
          ∧
        s.core.jobs.find? id = some row
          ∧
        row.status = .done
          ∧
        s.core.artifacts.find? id = some artifact
          ∧
        s.exists? (.ofString artifact.filePath) := by
  have hgrows : s'.core.history ≠ s.core.history := by
    rw [hanswered]
    exact List.cons_ne_self _ _
  cases h with
  | thread htrans =>
    cases htrans with
    | hit hcache hrow hdone hartifact hexists hcore =>
      rw [hcore] at hanswered
      injection hanswered with hevent
      injection hevent with htuple hid
      rw [← htuple, ← hid]
      exact ⟨_, _, _, hcache, rfl, hrow, hdone, hartifact, hexists⟩
    | quiet _ hcore | read hcore =>
      rw [hcore] at hgrows
      contradiction
    | setStatus _ hcore | storeArtifact _ hcore | storeCache _ hcore =>
      rw [hcore] at hgrows
      contradiction
    | insert _ _ hcore | complete _ hcore =>
      rw [hcore] at hanswered
      injection hanswered with hevent
      contradiction
    | enqueue hcore =>
      rw [hcore] at hanswered
      injection hanswered with hevent
      contradiction
  | spawn hjobs hphases => contradiction
  | recv hwaiting hcore =>
    rw [hcore] at hgrows
    contradiction
  | outside hcore =>
    rw [hcore] at hgrows
    contradiction
  | restart hcore =>
    rw [hcore] at hanswered
    injection hanswered with hevent
    contradiction

theorem mem_tuples_of_recorded {c : Core} {job : Job} (h : job ∈ c.recorded)
    : job.tuple ∈ c.tuples := by
  unfold Core.recorded at h
  unfold Core.tuples
  rw [List.mem_filterMap] at h ⊢
  rcases h with ⟨event, hevent, hjob⟩
  refine ⟨event, hevent, ?_⟩
  cases event with
  | recorded job' =>
    injection hjob with hjob
    rw [hjob]
    rfl
  | _ => contradiction

theorem cacheKey_eq_of_normalized (hlawful : crates.JsonLawful) {a b : BuildTuple}
    (h : a.normalized = b.normalized)
    : a.cacheKey crates = b.cacheKey crates := by
  have hsame := BuildTuple.normalized_eq_iff.mp h
  have hjson := (computeCacheKey.normalizedHwJson_eq_iff hlawful).mpr
    (normalizeProfile_eq_iff.mpr hsame.hardware)
  unfold BuildTuple.cacheKey computeCacheKey computeCacheKey.concatenated
  rw [hjson, hsame.project, hsame.gitRef, hsame.binary, hsame.package, hsame.target]

theorem lastCompleted_eq_lastBuilt (hlawful : crates.JsonLawful) {c : Core} {tuple : BuildTuple}
    (hkeys : ∀ job ∈ c.completed, job.tuple.cacheKey crates = tuple.cacheKey crates →
      job.tuple.normalized = tuple.normalized)
    : c.lastCompleted crates (tuple.cacheKey crates) = c.lastBuilt tuple := by
  apply List.find?_congr
  intro job hjob
  rw [decide_eq_decide]
  constructor
  . exact hkeys job hjob
  . exact cacheKey_eq_of_normalized hlawful

theorem lastStandard_eq_of_lastBuilt {c : Core} {tuple : BuildTuple} {job : Job}
    (h : c.lastBuilt tuple = some job) (hstandard : job.jobType = .standard)
    : c.lastStandard tuple = some job := by
  unfold Core.lastBuilt at h
  rw [List.find?_eq_some_iff_append] at h
  rcases h with ⟨hjob, later, earlier, hcompleted, hlater⟩
  unfold Core.lastStandard
  rw [List.find?_eq_some_iff_append]
  refine ⟨?_, later, earlier, hcompleted, ?_⟩
  . simpa [hstandard] using hjob
  . intro other hother
    have := hlater other hother
    simp only [Bool.not_eq_true', decide_eq_false_iff_not] at this ⊢
    exact fun h => this h.right

theorem State.answersWith_iff (hlawful : crates.JsonLawful) {s : State} {phases : List Phase}
    (hlife : Life crates s.core phases) {tuple : BuildTuple}
    (hkeys : ∀ job ∈ s.core.completed, job.tuple.cacheKey crates = tuple.cacheKey crates →
      job.tuple.normalized = tuple.normalized)
    {cacheRow : CacheRow} {row : JobRow} {artifact : ArtifactRow}
    (hcache : s.core.buildCache.find? (tuple.cacheKey crates) = some cacheRow)
    (hrow : s.core.jobs.find? cacheRow.jobId = some row) (hdone : row.status = .done)
    (hartifact : s.core.artifacts.find? cacheRow.jobId = some artifact)
    (hexists : s.exists? (.ofString artifact.filePath))
    : s.AnswersWith tuple cacheRow.jobId
        ↔
      ∀ job, s.core.lastBuilt tuple = some job → job.jobType = .standard := by
  have hstatus : s.core.statusOf cacheRow.jobId = some .done := by
    unfold Core.statusOf
    rw [hrow, Option.map_some, hdone]
  rcases hlife.cached.latest _ _ hcache hstatus with ⟨job, hlast, hid⟩
  rw [lastCompleted_eq_lastBuilt hlawful hkeys] at hlast
  have hcompleted : job ∈ s.core.completed := List.mem_of_find?_eq_some hlast
  have hrecorded := (hlife.cached.completed job hcompleted).left
  have htuple : job.tuple.normalized = tuple.normalized := by
    simpa using List.find?_some hlast
  constructor
  . rintro ⟨job', hrecorded', hid', hstandard, _⟩ last hlast'
    rw [hlast] at hlast'
    injection hlast' with hlast'
    rw [← hlast', hlife.recorded.inj job hrecorded job' hrecorded' (hid.trans hid'.symm)]
    exact hstandard
  . intro hstandard
    have hstandard := hstandard job hlast
    exact ⟨job, hrecorded, hid, hstandard, htuple, hstatus,
      lastStandard_eq_of_lastBuilt hlast hstandard, artifact, hartifact, hexists⟩

theorem System.Reachable.answersWith_iff (hlawful : crates.JsonLawful)
    (h : system.Reachable crates settings) {action : Action}
    (hstep : system.step crates settings action = some system') {tuple : BuildTuple} {id : String}
    (hanswered : system'.state.history = .answered tuple id :: system.state.history)
    (hkeys : KeysSeparate crates system'.state.core.tuples)
    : system.state.AnswersWith tuple id
        ↔
      ∀ job, system.state.core.lastBuilt tuple = some job → job.jobType = .standard := by
  rcases h.exists_lives with ⟨phases, hphases, hlife⟩
  rcases hphases.step hstep with ⟨phases', _, _, hperm, hadvance, _, _⟩
  rcases hadvance.hit_of_answered hanswered with
    ⟨cacheRow, row, artifact, hcache, rfl, hrow, hdone, hartifact, hexists⟩
  apply State.answersWith_iff hlawful hlife _ hcache hrow hdone hartifact hexists
  intro job hjob hkey
  have htuples : system'.state.core.tuples = tuple :: system.state.core.tuples :=
    congrArg (List.filterMap Event.tuple?) hanswered
  rw [htuples] at hkeys
  apply hkeys _ _ _ List.mem_cons_self hkey
  have := (hlife.cached.completed job hjob).left
  exact List.mem_cons_of_mem _ (mem_tuples_of_recorded this)

theorem KeysSeparate.of_suffix {s s' : State} (hsuffix : s.history <:+ s'.history)
    (h : KeysSeparate crates s'.core.tuples)
    : KeysSeparate crates s.core.tuples := by
  have hsublist := hsuffix.sublist.filterMap Event.tuple?
  intro a ha b hb
  exact h a (hsublist.mem ha) b (hsublist.mem hb)

/--
Over any run from an empty database, with faults and restarts: what a handler answers from the cache
is right if and only if what was built last for such a request is a standard build.
-/
theorem cacheAnswers_right_iff (hlawful : crates.JsonLawful) {boot : Boot} {actions : List Action}
    {system₀ : System} (hmain : main crates settings boot (.empty settings) = some system₀)
    (hrun : Machine.run (System.step crates settings) system₀ actions = some system)
    (hkeys : KeysSeparate crates system.state.core.tuples)
    : ∀ before i after,
        (before, .run i, after) ∈ Machine.transitions (System.step crates settings) system₀ actions →
        ∀ request ambient response,
          after.threads[i]? = some ⟨.handler request ambient, .ret (.response response)⟩ →
          ∀ tuple id, AnswersFromCache ambient request tuple response id →
            (before.state.AnswersWith tuple id
                ↔
              ∀ job, before.state.core.lastBuilt tuple = some job → job.jobType = .standard) := by
  intro before i after hmem request ambient response hthread tuple id hanswers
  rcases Machine.mem_transitions_iff.mp hmem with
    ⟨actions₁, actions₂, hactions, hbefore, hstep⟩
  have hreachable : before.Reachable crates settings := ⟨boot, system₀, actions₁, hmain, hbefore⟩
  have hrest : Machine.run (System.step crates settings) after actions₂ = some system := by
    rw [hactions, Machine.run_append, hbefore, Option.bind_some, Machine.run_cons hstep] at hrun
    exact hrun
  have hsuffix := (hreachable.step hstep).history_suffix hrest
  have hanswered := hreachable.answered_of_response hstep hthread hanswers
  exact hreachable.answersWith_iff hlawful hstep hanswered (hkeys.of_suffix hsuffix)

-- A request whose build is in the cache is answered with its second step.

theorem cacheLookup.run_go_of_done {cacheKey : String} {cacheRow : CacheRow} {row : JobRow}
    {artifact : ArtifactRow} {db : Db} (hcache : db.buildCache.find? cacheKey = some cacheRow)
    (hrow : db.jobs.find? cacheRow.jobId = some row) (hdone : row.status = .done)
    (hartifact : db.artifacts.find? cacheRow.jobId = some artifact)
    : (go cacheKey).run .none db
        =
      (.ok (some (cacheRow.jobId, artifact.filePath, artifact.sha256)), db) := by
  rcases Db.run_getJobStatus cacheRow.jobId db with ⟨found, hrun, hstatus, _⟩
  rw [hrow, Option.map_some, hdone, Option.map_eq_some_iff] at hstatus
  rcases hstatus with ⟨jobStatus, rfl, hstatus⟩
  unfold go Db.getCacheEntry Db.getArtifact
  simp [Sql.run_bind, hcache, hrun, hstatus, hartifact]

theorem exists_cacheLookup_eq {ambient : Ambient} (hfaults : ambient.faults 1 = .none)
    (tuple : BuildTuple)
    : ∃ look,
        cacheLookup crates ambient tuple = .atomic look
          ∧
        ∀ (s : State) {cacheRow row artifact},
          s.core.buildCache.find? (tuple.cacheKey crates) = some cacheRow →
          s.core.jobs.find? cacheRow.jobId = some row → row.status = .done →
          s.core.artifacts.find? cacheRow.jobId = some artifact →
          s.exists? (.ofString artifact.filePath) →
            look s
              = (some (cacheRow.jobId, artifact.sha256), s.note (.answered tuple cacheRow.jobId)) := by
  refine ⟨_, rfl, ?_⟩
  intro s cacheRow row artifact hcache hrow hdone hartifact hexists
  have hgo := cacheLookup.run_go_of_done hcache hrow hdone hartifact
  simp only [State.runDb, hfaults, hgo, hexists]
  rfl

section

variable {payload : JobRequest} {ambient : Ambient} {tokenStr : String} {token : Token}

theorem exists_build_eq (hbearer : bearerToken ambient.authorization = some tokenStr)
    (hvalidate : buildHandler.validate payload = .ok .standard)
    {look : State → Option (String × String) × State}
    (hlook : cacheLookup crates ambient payload.tuple = .atomic look)
    : ∃ next,
        (do let response ← (route crates settings (.build payload) ambient).respond
            pure (Answer.response response))
          =
        .act
          (fun s => { s with
            db := (authenticateAndRateLimit crates tokenStr ambient.now settings.rateLimitLimit
              (ambient.faults 0) s.db).snd })
          next
          ∧
        ∀ s token,
          (authenticateAndRateLimit crates tokenStr ambient.now settings.rateLimitLimit
            (ambient.faults 0) s.db).fst = .ok token →
            ∃ next', next s = .act (fun s => (look s).snd) next'
              ∧ ∀ s id sha256, (look s).fst = some (id, sha256) →
                next' s = .ret (.response ⟨.accepted, .id id, []⟩) := by
  unfold route buildHandler authenticate buildHandler.lookup
  simp only [hbearer, hvalidate, hlook]
  refine ⟨_, rfl, ?_⟩
  intro s token hok
  simp only [hok]
  refine ⟨_, rfl, ?_⟩
  intro s id sha256 hcached
  simp only [hcached]
  rfl

theorem System.exists_answer (hfresh : system.isFresh ambient.uuid)
    (hfaults : ambient.faults 1 = .none)
    (hbearer : bearerToken ambient.authorization = some tokenStr)
    (hvalidate : buildHandler.validate payload = .ok .standard)
    (hauth : (authenticateAndRateLimit crates tokenStr ambient.now settings.rateLimitLimit
      (ambient.faults 0) system.state.db).fst = .ok token)
    {cacheRow : CacheRow} {row : JobRow} {artifact : ArtifactRow}
    (hcache : system.state.core.buildCache.find? (payload.tuple.cacheKey crates) = some cacheRow)
    (hrow : system.state.core.jobs.find? cacheRow.jobId = some row) (hdone : row.status = .done)
    (hartifact : system.state.core.artifacts.find? cacheRow.jobId = some artifact)
    (hexists : system.state.exists? (.ofString artifact.filePath))
    : ∃ before after,
        Machine.run (System.step crates settings) system
            [.request (.build payload) ambient, .run system.threads.length]
          = some before
          ∧
        before.step crates settings (.run system.threads.length) = some after
          ∧
        before.state.core = system.state.core
          ∧
        after.state.core = before.state.core.note (.answered payload.tuple cacheRow.jobId)
          ∧
        after.threads[system.threads.length]?
          = some ⟨.handler (.build payload) ambient,
              .ret (.response ⟨.accepted, .id cacheRow.jobId, []⟩)⟩ := by
  rcases exists_cacheLookup_eq hfaults payload.tuple with ⟨look, hlook, hhit⟩
  rcases @exists_build_eq crates settings _ _ _ hbearer hvalidate look hlook with
    ⟨next, hprog, hnext⟩
  rcases hnext system.state token hauth with ⟨next', hnext, hnext'⟩
  let label := Label.handler (.build payload) ambient
  let authenticated (s : State) := { s with
    db := (authenticateAndRateLimit crates tokenStr ambient.now settings.rateLimitLimit
      (ambient.faults 0) s.db).snd }
  let spawned : System := system.spawn label (.act authenticated next)
  let before : System := {
    state := authenticated system.state
    threads := spawned.threads.set system.threads.length ⟨label, next system.state⟩
  }
  let after : System := {
    state := (look before.state).snd
    threads := before.threads.set system.threads.length ⟨label, next' before.state⟩
  }
  have hcore : before.state.core = system.state.core := by
    have hview := @jobView_authenticateAndRateLimit crates tokenStr ambient.now
      settings.rateLimitLimit (ambient.faults 0) system.state.db
    simp only [Db.jobView, Prod.mk.injEq] at hview
    simp only [State.core, before, authenticated, hview]
  have hspawn : system.step crates settings (.request (.build payload) ambient) = some spawned := by
    unfold System.step
    dsimp only
    rw [if_pos hfresh, hprog]
  have hfirst : spawned.step crates settings (.run system.threads.length) = some before :=
    Pool.runThread_eq (Pool.getElem?_spawn _ _ _)
  have hthread : before.threads[system.threads.length]?
      = some ⟨label, .act (fun s => (look s).snd) next'⟩ := by
    rw [← hnext]
    apply List.getElem?_set_self
    simp [spawned, Pool.spawn]
  have hsecond : before.step crates settings (.run system.threads.length) = some after :=
    Pool.runThread_eq hthread
  rw [← hcore] at hcache hrow hartifact
  have hhit := hhit before.state hcache hrow hdone hartifact hexists
  refine ⟨before, after, ?_, hsecond, hcore, ?_, ?_⟩
  . rw [Machine.run_cons hspawn, Machine.run_cons hfirst]
    rfl
  . exact congrArg (State.core ·.snd) hhit
  . rw [← hnext' before.state _ _ (congrArg Prod.fst hhit)]
    apply List.getElem?_set_self
    exact (List.getElem?_eq_some_iff.mp hthread).choose

end

theorem keysSeparate_of_all_eq {tuples : List BuildTuple} {tuple : BuildTuple}
    (h : ∀ t ∈ tuples, t = tuple)
    : KeysSeparate crates tuples := by
  intro a ha b hb _
  rw [h a ha, h b hb]

namespace Samples

def HasBuilt (jobType : JobType) (system : System) : Prop :=
  system.isFresh "9b7d"
    ∧ (authenticateAndRateLimit github.crates "alice-token" (time 1) 20 .none system.state.db).fst.isOk
    ∧ (∀ tuple ∈ system.state.core.tuples, tuple = request.tuple)
    ∧ (∀ job ∈ system.state.core.recorded, job.jobType = jobType)
    ∧ ∃ cacheRow ∈ system.state.core.buildCache.rows,
        system.state.core.statusOf cacheRow.jobId = some .done
          ∧ ∃ artifact ∈ system.state.core.artifacts.find? cacheRow.jobId,
              system.state.exists? (.ofString artifact.filePath)

instance (jobType : JobType) : DecidablePred (HasBuilt jobType) := by
  unfold HasBuilt
  infer_instance

theorem exists_answer (jobType : JobType) (actions : List Action)
    (h : (runs actions).any fun system => HasBuilt jobType system)
    : ∃ system₀ before after n id response,
        main github.crates Samples.settings boot (.empty Samples.settings) = some system₀
          ∧
        Machine.run (System.step github.crates Samples.settings) system₀
            (actions ++ [.request (.build request) (ambient "9b7d"), .run n] ++ [.run n])
          = some after
          ∧
        (before, .run n, after)
            ∈ Machine.transitions (System.step github.crates Samples.settings) system₀
              (actions ++ [.request (.build request) (ambient "9b7d"), .run n] ++ [.run n])
          ∧
        after.threads[n]?
          = some ⟨.handler (.build request) (ambient "9b7d"), .ret (.response response)⟩
          ∧
        AnswersFromCache (ambient "9b7d") (.build request) request.tuple response id
          ∧
        KeysSeparate github.crates after.state.core.tuples
          ∧
        (∀ job ∈ before.state.core.recorded, job.jobType = jobType)
          ∧
        ∀ job, before.state.core.lastBuilt request.tuple = some job → job.jobType = jobType := by
  rcases exists_of_runs actions (HasBuilt jobType) h with
    ⟨system₀, system, hmain, hrun, hfresh, hauth, htuples, htypes, cacheRow, hmem, hdone, artifact,
      hartifact, hexists⟩
  have hreachable : system.Reachable github.crates Samples.settings :=
    ⟨boot, system₀, actions, hmain, hrun⟩
  rcases hreachable.exists_lives with ⟨phases, _, hlife⟩
  have hcache := Table.find?_of_mem hmem
  rcases hlife.cached.rows _ _ hcache with ⟨job, hjob, hid, hkey⟩
  rw [← hkey, htuples _ (mem_tuples_of_recorded hjob)] at hcache
  rw [Core.statusOf, Option.map_eq_some_iff] at hdone
  rcases hdone with ⟨row, hrow, hdone⟩
  have hbearer : bearerToken (ambient "9b7d").authorization = some "alice-token" := by
    decide +kernel
  -- The id of the request is that of no job.
  have hne : cacheRow.jobId ≠ "9b7d" := by
    intro heq
    have hcontains : system.state.db.jobs.contains "9b7d" := by
      rw [← heq, Table.contains]
      exact Option.isSome_of_eq_some hrow
    simp [System.isFresh, hcontains] at hfresh
  cases hok : (authenticateAndRateLimit github.crates "alice-token" (time 1) 20 .none
      system.state.db).fst with
  | error err =>
    rw [hok] at hauth
    exact Bool.noConfusion hauth
  | ok token =>
    rcases @System.exists_answer _ Samples.settings _ request _ _ _ hfresh rfl hbearer rfl hok
        _ _ _ hcache hrow hdone hartifact hexists with
      ⟨before, after, hbefore, hstep, hcore, hafter, hthread⟩
    have hrun := Machine.run_trans hrun hbefore
    refine ⟨system₀, before, after, system.threads.length, cacheRow.jobId, _, hmain, ?_, ?_, hthread,
      .build hne, ?_, ?_, ?_⟩
    . rw [Machine.run_append, hrun, Option.bind_some, Machine.run_cons hstep]
      rfl
    . exact Machine.mem_transitions_iff.mpr ⟨_, [], rfl, hrun, hstep⟩
    . apply keysSeparate_of_all_eq
      rw [hafter, hcore]
      intro tuple htuple
      have htuple : tuple ∈ request.tuple :: system.state.core.tuples := htuple
      rw [List.mem_cons] at htuple
      exact htuple.elim id (htuples tuple)
    . rw [hcore]
      exact htypes
    . rw [hcore]
      intro job hjob
      have hcompleted : job ∈ system.state.core.completed := List.mem_of_find?_eq_some hjob
      exact htypes job (hlife.cached.completed job hcompleted).left

end Samples

theorem cacheAnswers_right_iff_standard
    : ∃ (before after : System) (i : Nat) (response : Response) (id : String),
        after.threads[i]?
          = some ⟨.handler (.build Samples.request) (Samples.ambient "9b7d"), .ret (.response response)⟩
          ∧
        AnswersFromCache (Samples.ambient "9b7d") (.build Samples.request) Samples.request.tuple
          response id
          ∧
        before.state.AnswersWith Samples.request.tuple id := by
  rcases Samples.exists_answer .standard
      (Samples.submitted 0 (.build Samples.request) "4c1e" 4
        ++ Samples.processed 1 Samples.externals 10)
      (by decide +kernel) with
    ⟨system₀, before, after, n, id, response, hmain, hrun, hmem, hthread, hanswers, hkeys, _,
      hstandard⟩
  have hiff := cacheAnswers_right_iff Samples.github.jsonLawful hmain hrun hkeys before _ after hmem
    _ _ _ hthread _ _ hanswers
  exact ⟨before, after, n, response, id, hthread, hanswers, hiff.mpr hstandard⟩

def Action.Succeeds (action : Action) : Prop :=
  match action with
  | request _ ambient => ambient.faults = fun _ => .none
  | recv externals => externals.faults = fun _ => .none
  | restart boot => boot.faults = .none
  | _ => True

-- An instrumented build is asked for, and then a standard one.
theorem cacheAnswers_instrumented
    : ¬ ∀ (crates : Crates) (settings : Settings) (boot : Boot) (actions : List Action)
        (system₀ system : System),
        crates.JsonLawful → boot.faults = .none → (∀ action ∈ actions, action.Succeeds) →
        main crates settings boot (.empty settings) = some system₀ →
        Machine.run (System.step crates settings) system₀ actions = some system →
        KeysSeparate crates system.state.core.tuples →
        ∀ before i after,
          (before, .run i, after)
              ∈ Machine.transitions (System.step crates settings) system₀ actions →
          ∀ request ambient response,
            after.threads[i]? = some ⟨.handler request ambient, .ret (.response response)⟩ →
            ∀ tuple id, AnswersFromCache ambient request tuple response id →
              before.state.AnswersWith tuple id := by
  intro hall
  rcases Samples.exists_answer .pgoInstrument
      (Samples.submitted 0 (.build { Samples.request with pgoPhase := some "instrument" }) "4c1e" 3
        ++ Samples.processed 1 Samples.externals 10)
      (by decide +kernel) with
    ⟨system₀, before, after, n, id, response, hmain, hrun, hmem, hthread, hanswers, hkeys,
      hinstrument, _⟩
  rcases hall Samples.github.crates Samples.settings Samples.boot _ system₀ after
      Samples.github.jsonLawful rfl
      (by simp [Samples.submitted, Samples.processed, Action.Succeeds, Samples.ambient,
        Samples.externals])
      hmain hrun hkeys before _ after hmem _ _ _ hthread _ _ hanswers with
    ⟨job, hjob, _, hstandard, _⟩
  rw [hinstrument job hjob] at hstandard
  contradiction

end Koval
