import Koval.Server.JobLife

/-!
This module contains what the optimization phase rebuilds of the build that was instrumented.
-/

namespace Koval

variable {crates : Crates} {settings : Settings} {system : System}

def Crates.RoundTrips (crates : Crates) : Prop :=
  ∀ h, crates.profileFromStr (hardwareJson crates h) = .ok h

theorem Job.Optimizes.tuple_eq_iff (hround : crates.RoundTrips) {job source : Job}
    (h : job.Optimizes crates source)
    : job.tuple = source.tuple
        ↔
      source.binary = none ∧ source.package = none ∧ source.target = none := by
  have hhardware : job.hardware = source.hardware := by
    rw [h.hardware, Db.profileOrDefault, hround]
  unfold Job.tuple
  rw [BuildTuple.mk.injEq, hhardware, h.project, h.gitRef, h.binary, h.package, h.target]
  constructor
  . rintro ⟨_, _, _, hbinary, hpackage, htarget⟩
    exact ⟨hbinary.symm, hpackage.symm, htarget.symm⟩
  . rintro ⟨hbinary, hpackage, htarget⟩
    exact ⟨rfl, rfl, rfl, hbinary.symm, hpackage.symm, htarget.symm⟩

/--
In every state that the server reaches: an upload that was answered with 202 has put an optimization
job on the queue that points to the instrumentation job, and that is for the same build if and only
if the instrumentation job named no binary, no package and no target.
-/
theorem System.Reachable.upload_rebuilds_iff (hround : crates.RoundTrips)
    (h : system.Reachable crates settings) {thread : Thread Label State Answer}
    (hthread : thread ∈ system.threads) {id : String} {upload : Upload} {ambient : Ambient}
    (hlabel : thread.label = .handler (.uploadProfiles id upload) ambient) {response : Response}
    (hprog : thread.prog = .ret (.response response)) (hstatus : response.status = .accepted)
    : ∃ job ∈ system.state.core.enqueued, ∃ source ∈ system.state.core.recorded,
        job.id = ambient.uuid
          ∧
        job.jobType = .pgoOptimize
          ∧
        job.pgoSourceJobId = some id
          ∧
        source.id = id
          ∧
        source.jobType = .pgoInstrument
          ∧
        (job.tuple = source.tuple
            ↔
          source.binary = none ∧ source.package = none ∧ source.target = none) := by
  rcases h.exists_lives with ⟨phases, hphases, hlife⟩
  rcases hphases.exists_phase hthread with ⟨phase, hphase, hagrees, hfollows⟩
  rw [hlabel, hprog] at hfollows
  rw [hlabel] at hagrees
  have hanswers : AnswersUpload ambient.faults id phase response := hfollows
  rcases hanswers.right hstatus with ⟨job, rfl, htype, hsourceId, _⟩
  have hrecorded := hlife.recorded.held _ hphase job rfl
  rcases hlife.recorded.optimizes job hrecorded htype with ⟨source, hsource, hoptimizes⟩
  have hid : some id = some source.id := hsourceId.symm.trans hoptimizes.sourceId
  injection hid with hid
  exact ⟨job, hlife.tracked.accepted job hphase, source, hsource, hagrees.left.symm, htype,
    hsourceId, hid.symm, hoptimizes.sourceType, hoptimizes.tuple_eq_iff hround⟩

namespace Samples

theorem roundTrips (samples : Samples) : samples.crates.RoundTrips := by
  intro h
  simp [hardwareJson, crates, HardwareProfile.ofJson_toJson]

def upload : Upload := {
  parts := [⟨some "default.profraw", .ok [255, 108]⟩]
  ending := .ok ()
  createDirAll := none
  write _ := none
  readDir := none
  joinError := none
  profdata _ := .ok ⟨.code 0, [], []⟩
  merged := some [255, 108]
}

def uploaded (binary : Option String) : List Action :=
  submitted 0 (.build { request with binary, pgoPhase := some "instrument" }) "4c1e" 3
    ++ processed 1 externals 10
    ++ submitted 2 (.uploadProfiles "4c1e" upload) "9b7d" 9

def isAnswered (thread : Thread Label State Answer) : Bool :=
  match thread with
  | ⟨.handler (.uploadProfiles id _) ambient, .ret (.response response)⟩ =>
    id = "4c1e" && ambient.uuid = "9b7d" && response.status = .accepted
  | _ => false

theorem exists_of_isAnswered {thread : Thread Label State Answer} (h : isAnswered thread)
    : ∃ upload ambient response,
        thread.label = .handler (.uploadProfiles "4c1e" upload) ambient
          ∧
        ambient.uuid = "9b7d"
          ∧
        thread.prog = .ret (.response response)
          ∧
        response.status = .accepted := by
  unfold isAnswered at h
  split at h
  . next id upload ambient response =>
    simp only [Bool.and_eq_true, decide_eq_true_eq] at h
    exact ⟨upload, ambient, response, by rw [h.left.left], h.left.right, rfl, h.right⟩
  . contradiction

end Samples

theorem System.Reachable.upload_rebuilds_iff_package
    : ∃ system : System,
        ∃ job ∈ system.state.core.enqueued, ∃ source ∈ system.state.core.recorded,
          job.jobType = .pgoOptimize
            ∧
          job.pgoSourceJobId = some source.id
            ∧
          job.tuple = source.tuple := by
  rcases Samples.exists_of_runs (Samples.uploaded none)
      (fun system => (∃ thread ∈ system.threads, Samples.isAnswered thread)
        ∧ ∀ source ∈ system.state.core.recorded,
            source.binary = none ∧ source.package = none ∧ source.target = none)
      (by decide +kernel) with
    ⟨system₀, system, hmain, hrun, ⟨thread, hthread, hanswered⟩, hnone⟩
  rcases Samples.exists_of_isAnswered hanswered with
    ⟨upload, ambient, response, hlabel, _, hprog, hstatus⟩
  have hreachable : system.Reachable Samples.github.crates Samples.settings :=
    ⟨Samples.boot, system₀, _, hmain, hrun⟩
  rcases hreachable.upload_rebuilds_iff (Samples.roundTrips _) hthread hlabel hprog hstatus with
    ⟨job, hjob, source, hsource, _, htype, hsourceId, hid, _, htuple⟩
  exact ⟨system, job, hjob, source, hsource, htype, hid ▸ hsourceId, htuple.mpr (hnone source hsource)⟩

-- The build of one binary is instrumented, and then all binaries are optimized.
theorem upload_rebuilds_other_binaries
    : ¬ ∀ (crates : Crates) (settings : Settings) (system : System),
        crates.RoundTrips → system.Reachable crates settings →
        ∀ thread ∈ system.threads, ∀ id upload ambient response,
          thread.label = .handler (.uploadProfiles id upload) ambient →
          thread.prog = .ret (.response response) → response.status = .accepted →
            ∀ job ∈ system.state.core.enqueued, job.id = ambient.uuid →
              ∀ source ∈ system.state.core.recorded, source.id = id → job.tuple = source.tuple := by
  intro hall
  rcases Samples.exists_of_runs (Samples.uploaded (some "app"))
      (fun system => (∃ thread ∈ system.threads, Samples.isAnswered thread)
        ∧ (∃ job ∈ system.state.core.enqueued, job.id = "9b7d" ∧ job.binary = none)
        ∧ ∃ source ∈ system.state.core.recorded, source.id = "4c1e" ∧ source.binary = some "app")
      (by decide +kernel) with
    ⟨system₀, system, hmain, hrun, ⟨thread, hthread, hanswered⟩, ⟨job, hjob, hid, hnone⟩,
      source, hsource, hsourceId, hsome⟩
  rcases Samples.exists_of_isAnswered hanswered with
    ⟨upload, ambient, response, hlabel, huuid, hprog, hstatus⟩
  have htuple := hall _ _ system (Samples.roundTrips Samples.github)
    ⟨Samples.boot, system₀, _, hmain, hrun⟩ thread hthread _ _ _ _ hlabel hprog hstatus job hjob
    (hid.trans huuid.symm) source hsource hsourceId
  have hbinary : job.binary = source.binary := congrArg BuildTuple.binary htuple
  rw [hnone, hsome] at hbinary
  contradiction

end Koval
