import Koval.Server.ForgeSpec
import Koval.Server.Worker.JobEnds
import Koval.Text.Words

/-!
This module contains which flags cargo gets when it takes the flags of a job apart again.
-/

namespace Koval

-- Flags that survive being joined with spaces and split at them.
def AreWords (flags : List String) : Prop := ∀ flag ∈ flags, flag ≠ "" ∧ ' ' ∉ flag.toList

instance (flags : List String) : Decidable (AreWords flags) :=
  inferInstanceAs (Decidable (∀ flag ∈ flags, _))

theorem words_pushFlags (rustflags : String) (flags : List String)
    : Text.words (pushFlags rustflags flags) = Text.words rustflags ++ flags.flatMap Text.words := by
  unfold pushFlags
  split
  . next hempty =>
    rw [hempty, String.empty_append, Text.words_intercalate]
    rfl
  . rw [Text.words_append_space, Text.words_intercalate]

theorem areWords_instrumentFlags_iff (jobId : String) (baseDir : Path)
    : AreWords (instrumentFlags jobId baseDir)
        ↔
      ' ' ∉ baseDir.display.toList ∧ ' ' ∉ jobId.toList := by
  unfold AreWords instrumentFlags
  simp

theorem areWords_optimizeFlags_iff (profdataPath : Path)
    : AreWords (optimizeFlags profdataPath) ↔ ' ' ∉ profdataPath.display.toList := by
  unfold AreWords optimizeFlags
  simp

namespace processJob

variable {settings : Settings} {externals : Externals} {job : Job}

def mergedPath? (job : Job) (s : State) : Option Path :=
  ((job.pgoSourceJobId.bind s.db.pgoProfiles.find?).bind (·.mergedPath)).map Path.ofString

def jobFlags (settings : Settings) (job : Job) (mergedPath : Option Path) : List String :=
  match job.jobType with
  | .standard => []
  | .pgoInstrument => instrumentFlags job.id settings.artifactsDir
  | .pgoOptimize => (mergedPath.map optimizeFlags).getD []

/-- Neither the directory of the artifacts nor the path of the merged profile has a space in it. -/
def HasPlainPaths (settings : Settings) (job : Job) (mergedPath : Option Path) : Prop :=
  match job.jobType with
  | .standard => True
  | .pgoInstrument => ' ' ∉ settings.artifactsDir.display.toList ∧ ' ' ∉ job.id.toList
  | .pgoOptimize => ∀ path ∈ mergedPath, ' ' ∉ path.display.toList

theorem areWords_jobFlags_iff (mergedPath : Option Path)
    : AreWords (jobFlags settings job mergedPath) ↔ HasPlainPaths settings job mergedPath := by
  unfold jobFlags HasPlainPaths
  cases job.jobType with
  | standard => exact iff_of_true (fun _ h => absurd h List.not_mem_nil) trivial
  | pgoInstrument => exact areWords_instrumentFlags_iff _ _
  | pgoOptimize =>
    cases mergedPath with
    | none => exact iff_of_true (fun _ h => absurd h List.not_mem_nil) (fun _ h => nomatch h)
    | some path =>
      simp only [Option.map_some, Option.getD_some, Option.mem_def, Option.some.injEq, forall_eq']
      exact areWords_optimizeFlags_iff path

def KeepsProfile (job : Job) (s s' : State) : Prop := mergedPath? job s' = mergedPath? job s

theorem keepsProfile_refl (s : State) : KeepsProfile job s s := rfl

theorem not_ends_failJob {errMsg : String} {s s' : State} {a : α}
    (hends : Prog.Ends (KeepsProfile job) (failJob settings externals job errMsg : Worker α).run s
      (.ok a) s')
    : False := by
  have ⟨_, hcontra⟩ := fails_failJob keepsProfile_refl errMsg s _ s' hends
  contradiction

theorem mergedPath?_of_ends {pgoSourceId : String} (hsource : job.pgoSourceJobId = some pgoSourceId)
    {s s' : State} {path : Path}
    (hends : Prog.Ends (KeepsProfile job) (mergedPath settings externals job pgoSourceId).run s
      (.ok path) s')
    : mergedPath? job s = some path := by
  unfold mergedPath at hends
  rcases hends.of_bindExcept keepsProfile_refl with ⟨res, s₁, hget, hrest⟩ | ⟨e, s₁, hget, hres, _⟩
  . rcases hget.of_liftAtomic keepsProfile_refl with ⟨s₂, s₃, hrely, hok, _, _⟩
    injection hok with hgot
    rw [Db.getPgoProfile, fst_runDb_query] at hgot
    split at hrest
    . exact absurd hrest not_ends_failJob
    . exact absurd hrest not_ends_failJob
    . next profile =>
      have hfind : s₂.db.pgoProfiles.find? pgoSourceId = some profile := by
        split at hgot
        . contradiction
        . injection hgot with hgot
          exact hgot.symm
      split at hrest
      . exact absurd hrest not_ends_failJob
      . next merged hmerged =>
        have hpath : mergedPath? job s₂ = some (.ofString merged) := by
          unfold mergedPath?
          rw [hsource, Option.bind_some, hfind, Option.bind_some, hmerged]
          rfl
        rcases hrest.of_bindExcept keepsProfile_refl with
          ⟨doesExist, s₄, _, hrest⟩ | ⟨e, s₄, _, hres, _⟩
        . split at hrest
          . exact absurd hrest not_ends_failJob
          . have hres := (Prog.ends_ret_iff.mp hrest).left
            injection hres with hres
            rw [← hrely, hpath, hres]
        . contradiction
  . contradiction

theorem words_of_ends {config : BuildConfig} {s s' : State} {flags : String}
    (hends : Prog.Ends (KeepsProfile job) (rustflags settings externals job config).run s
      (.ok flags) s')
    : Text.words flags
        =
      Text.words config.rustflags
        ++ (jobFlags settings job (mergedPath? job s)).flatMap Text.words := by
  unfold rustflags at hends
  unfold jobFlags
  cases htype : job.jobType with
  | standard =>
    rw [htype] at hends
    have hres := (Prog.ends_ret_iff.mp hends).left
    injection hres with hres
    rw [hres, List.flatMap_nil, List.append_nil]
  | pgoInstrument =>
    rw [htype] at hends
    have hres := (Prog.ends_ret_iff.mp hends).left
    injection hres with hres
    rw [hres, words_pushFlags]
  | pgoOptimize =>
    rw [htype] at hends
    dsimp only at hends
    split at hends
    . exact absurd hends not_ends_failJob
    . next pgoSourceId hsource =>
      rcases hends.of_bindExcept keepsProfile_refl with
        ⟨path, s₁, hmerged, hrest⟩ | ⟨e, s₁, _, hres, _⟩
      . have hres := (Prog.ends_ret_iff.mp hrest).left
        injection hres with hres
        rw [hres, words_pushFlags, mergedPath?_of_ends hsource hmerged]
        rfl
      . contradiction

end processJob

def KovalToml.AsksForWords (config : KovalToml) : Prop :=
  ∀ rule ∈ config.rules, AreWords (rule.rustflags.getD [])

instance (config : KovalToml) : Decidable config.AsksForWords :=
  inferInstanceAs (Decidable (∀ rule ∈ config.rules, _))

def KovalToml.flags (config : KovalToml) (hardware : HardwareProfile) : List String :=
  (config.matching hardware).flatMap fun rule => rule.rustflags.getD []

theorem words_rustflags {config : KovalToml} (hconfig : config.AsksForWords)
    (hardware : HardwareProfile)
    : Text.words (buildConfig hardware config).rustflags = config.flags hardware := by
  rw [rustflags_eq, Text.words_intercalate]
  apply Text.flatMap_words_eq_self_iff.mpr
  intro flag hflag
  rw [List.mem_flatMap] at hflag
  rcases hflag with ⟨rule, hrule, hflag⟩
  rw [KovalToml.matching_eq] at hrule
  exact hconfig rule (List.mem_of_mem_filter hrule) flag hflag

/--
Cargo gets the flags that the matching rules ask for and those of the profiling, if and only if the
paths in the latter have no spaces.
-/
theorem rustflags_decode_iff {settings : Settings} {externals : Externals} {job : Job}
    {config : KovalToml} (hconfig : config.AsksForWords) {s s' : State} {rustflags : String}
    (hends : Prog.Ends (processJob.KeepsProfile job)
      (processJob.rustflags settings externals job (buildConfig job.hardware config)).run s
      (.ok rustflags) s')
    : Text.words rustflags
          =
        config.flags job.hardware
          ++ processJob.jobFlags settings job (processJob.mergedPath? job s)
        ↔
      processJob.HasPlainPaths settings job (processJob.mergedPath? job s) := by
  rw [processJob.words_of_ends hends, words_rustflags hconfig, List.append_cancel_left_eq,
    Text.flatMap_words_eq_self_iff]
  exact processJob.areWords_jobFlags_iff _

namespace Samples

def instrumented : Job := { job "https://github.com/a/b" with jobType := .pgoInstrument }

-- KOVAL_ARTIFACTS_DIR has a space in it.
def spacious : Settings := { settings with artifactsDir := .ofString "/srv/koval data" }

end Samples

theorem rustflags_decode_iff_instrumented
    : Text.words (pushFlags (buildConfig Samples.hardware Samples.threeRules).rustflags
          (instrumentFlags Samples.instrumented.id Samples.settings.artifactsDir))
          =
        Samples.threeRules.flags Samples.hardware
          ++ processJob.jobFlags Samples.settings Samples.instrumented none
        ↔
      processJob.HasPlainPaths Samples.settings Samples.instrumented none := by
  have hends : Prog.Ends (processJob.KeepsProfile Samples.instrumented)
      (processJob.rustflags Samples.settings Samples.externals Samples.instrumented
        (buildConfig Samples.instrumented.hardware Samples.threeRules)).run
      (Samples.received "https://github.com/a/b")
      (.ok (pushFlags (buildConfig Samples.hardware Samples.threeRules).rustflags
        (instrumentFlags Samples.instrumented.id Samples.settings.artifactsDir)))
      (Samples.received "https://github.com/a/b") := Prog.ends_ret_iff.mpr ⟨rfl, rfl⟩
  exact rustflags_decode_iff (by decide) hends

theorem rustflags_split_paths
    : ¬∀ (settings : Settings) (externals : Externals) (job : Job) (config : KovalToml)
          (s s' : State) (rustflags : String),
        config.AsksForWords →
          Prog.Ends (processJob.KeepsProfile job)
              (processJob.rustflags settings externals job (buildConfig job.hardware config)).run s
              (.ok rustflags) s' →
            Text.words rustflags
              =
            config.flags job.hardware
              ++ processJob.jobFlags settings job (processJob.mergedPath? job s) := by
  intro hall
  have hwords := hall Samples.spacious Samples.externals Samples.instrumented default
    (Samples.received "https://github.com/a/b") (Samples.received "https://github.com/a/b") _
    (by decide) (Prog.ends_ret_iff.mpr ⟨rfl, rfl⟩)
  revert hwords
  decide +kernel

end Koval
