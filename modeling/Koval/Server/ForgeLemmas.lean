import Koval.Server.CacheLemmas

namespace Koval

namespace buildConfig

theorem go_eq_foldl (hardware : HardwareProfile) (rules : List ForgeRule) (acc : Collected)
    : go hardware rules acc
        =
      (rules.filter (·.matched hardware)).foldl (fun acc rule => applyRule rule acc) acc := by
  induction rules generalizing acc with
  | nil => simp [go]
  | cons rule rules ih =>
    unfold go
    split
    . next h => simp [h, ih]
    . next h => simp [h, ih]

theorem foldl_applyRule_features (rules : List ForgeRule) (acc : Collected)
    : (rules.foldl (fun acc rule => applyRule rule acc) acc).features
        =
      acc.features ++ rules.flatMap (fun rule => rule.features.getD []) := by
  induction rules generalizing acc with
  | nil => simp
  | cons rule rules ih =>
    rw [List.foldl_cons, ih]
    simp [applyRule]

end buildConfig

theorem buildConfig_eq_of_filter_eq {h₁ h₂ : HardwareProfile} {config : KovalToml}
    (h : config.rules.filter (·.matched h₁) = config.rules.filter (·.matched h₂))
    : buildConfig h₁ config = buildConfig h₂ config := by
  unfold buildConfig
  rw [buildConfig.go_eq_foldl, buildConfig.go_eq_foldl, h]

theorem buildConfig_features_eq_nil_iff (hardware : HardwareProfile) (config : KovalToml)
    : (buildConfig hardware config).features = []
        ↔
      ∀ rule ∈ config.rules, rule.matched hardware → rule.features.getD [] = [] := by
  unfold buildConfig
  dsimp only
  rw [List.destutter_eq_nil, buildConfig.go_eq_foldl, buildConfig.foldl_applyRule_features]
  rw [← List.length_eq_zero_iff, List.length_insertionSort, List.length_eq_zero_iff]
  simp

namespace ForgeRule

def criteria (rule : ForgeRule) : ForgeRule :=
  { rule with rustflags := none, env := none, features := none }

def benchmarksOk (rule : ForgeRule) (hardware : HardwareProfile) : Bool :=
  rule.bandwidthOk hardware && rule.storageReadOk hardware

def othersOk (rule : ForgeRule) (hardware : HardwareProfile) : Bool :=
  rule.cpuFlagsOk hardware && rule.coresOk hardware && rule.memoryOk hardware
    && rule.ioUringOk hardware && rule.oDirectOk hardware && rule.gpuVramOk hardware
    && rule.cpuBaseFreqOk hardware && rule.cpuMaxFreqOk hardware && rule.numaNodesOk hardware
    && rule.cacheLineSizeOk hardware

theorem matched_eq (rule : ForgeRule) (hardware : HardwareProfile)
    : rule.matched hardware = (rule.othersOk hardware && rule.benchmarksOk hardware) := by
  unfold matched othersOk benchmarksOk
  grind

theorem matched_criteria (rule : ForgeRule) (hardware : HardwareProfile)
    : rule.criteria.matched hardware = rule.matched hardware := by
  rfl

theorem othersOk_normalizeProfile (rule : ForgeRule) (hardware : HardwareProfile)
    : rule.othersOk (normalizeProfile hardware) = rule.othersOk hardware := by
  rfl

theorem othersOk_congr (rule : ForgeRule) {h₁ h₂ : HardwareProfile}
    (h : normalizeProfile h₁ = normalizeProfile h₂)
    : rule.othersOk h₁ = rule.othersOk h₂ := by
  rw [← othersOk_normalizeProfile rule h₁, h, othersOk_normalizeProfile]

theorem matched_eq_matched_iff (rule : ForgeRule) {h₁ h₂ : HardwareProfile}
    (h : normalizeProfile h₁ = normalizeProfile h₂)
    : rule.matched h₁ = rule.matched h₂
        ↔
      (rule.othersOk h₁ → rule.benchmarksOk h₁ = rule.benchmarksOk h₂) := by
  rw [matched_eq, matched_eq, ← othersOk_congr rule h]
  cases rule.othersOk h₁ <;> simp

-- A rule with the criteria of `rule` that says whether they are those of `probe`.
def report (probe rule : ForgeRule) : ForgeRule :=
  { rule.criteria with features := if rule.criteria = probe.criteria then some ["matched"] else none }

end ForgeRule

theorem buildConfig_report_features_eq_nil_iff (hardware : HardwareProfile) (config : KovalToml)
    (probe : ForgeRule) (hprobe : probe ∈ config.rules)
    : (buildConfig hardware ⟨config.rules.map probe.report⟩).features = []
        ↔
      probe.matched hardware = false := by
  rw [buildConfig_features_eq_nil_iff]
  constructor
  . intro h
    have := h (probe.report probe) (List.mem_map_of_mem hprobe)
    rw [← Bool.not_eq_true]
    intro hmatched
    have := this hmatched
    simp [ForgeRule.report] at this
  . intro h rule hrule hmatched
    rw [List.mem_map] at hrule
    rcases hrule with ⟨rule, hrule, rfl⟩
    have hmatched : rule.matched hardware := hmatched
    unfold ForgeRule.report
    split
    . next heq =>
      rw [← ForgeRule.matched_criteria, heq, ForgeRule.matched_criteria, h] at hmatched
      contradiction
    . rfl

/--
On the rules that pass the other ten criteria, the two criteria on measurements come out alike.
-/
def BenchmarksDecideAlike (h₁ h₂ : HardwareProfile) (config : KovalToml) : Prop :=
  ∀ rule ∈ config.rules, rule.othersOk h₁ → rule.benchmarksOk h₁ = rule.benchmarksOk h₂

theorem benchmarksDecideAlike_iff {h₁ h₂ : HardwareProfile} (config : KovalToml)
    (h : normalizeProfile h₁ = normalizeProfile h₂)
    : BenchmarksDecideAlike h₁ h₂ config
        ↔
      ∀ rule ∈ config.rules, rule.matched h₁ = rule.matched h₂ := by
  unfold BenchmarksDecideAlike
  constructor
  . intro halike rule hrule
    exact (rule.matched_eq_matched_iff h).mpr (halike rule hrule)
  . intro hmatched rule hrule
    exact (rule.matched_eq_matched_iff h).mp (hmatched rule hrule)

-- Which rules match is up to the criteria, so `config'` may contribute anything.
theorem buildConfig_eq_of_benchmarksDecideAlike {h₁ h₂ : HardwareProfile}
    {config config' : KovalToml}
    (h : normalizeProfile h₁ = normalizeProfile h₂)
    (hcriteria : config'.rules.map (·.criteria) = config.rules.map (·.criteria))
    (halike : BenchmarksDecideAlike h₁ h₂ config)
    : buildConfig h₁ config' = buildConfig h₂ config' := by
  apply buildConfig_eq_of_filter_eq
  apply List.filter_congr
  intro rule' hrule'
  have hmem : rule'.criteria ∈ config.rules.map (·.criteria) := by
    rw [← hcriteria]
    exact List.mem_map_of_mem hrule'
  rw [List.mem_map] at hmem
  rcases hmem with ⟨rule, hrule, heq⟩
  rw [← rule'.matched_criteria, ← rule'.matched_criteria, ← heq, rule.matched_criteria,
    rule.matched_criteria]
  exact (benchmarksDecideAlike_iff config h).mp halike rule hrule

theorem benchmarksDecideAlike_of_buildConfig_eq {h₁ h₂ : HardwareProfile} {config : KovalToml}
    (h : normalizeProfile h₁ = normalizeProfile h₂)
    (hconfig : ∀ config' : KovalToml,
      config'.rules.map (·.criteria) = config.rules.map (·.criteria) →
        buildConfig h₁ config' = buildConfig h₂ config')
    : BenchmarksDecideAlike h₁ h₂ config := by
  rw [benchmarksDecideAlike_iff config h]
  intro probe hprobe
  have hreport := hconfig ⟨config.rules.map probe.report⟩ (by simp [ForgeRule.report, ForgeRule.criteria])
  have h₁iff := buildConfig_report_features_eq_nil_iff h₁ config probe hprobe
  have h₂iff := buildConfig_report_features_eq_nil_iff h₂ config probe hprobe
  rw [hreport, h₂iff] at h₁iff
  cases hmatched : probe.matched h₁ <;> simp_all

theorem benchmarksDecideAlike_of_eq {h₁ h₂ : HardwareProfile} (config : KovalToml)
    (hbandwidth : h₁.memory.bandwidthMbs = h₂.memory.bandwidthMbs)
    (hread : h₁.storage.readSpeedMbs = h₂.storage.readSpeedMbs)
    : BenchmarksDecideAlike h₁ h₂ config := by
  intro rule _ _
  unfold ForgeRule.benchmarksOk ForgeRule.bandwidthOk ForgeRule.storageReadOk
  rw [hbandwidth, hread]

-- A rule that asks for what the other machine measured fails on the slower one only.
theorem measurements_le_of_benchmarksDecideAlike {h₁ h₂ : HardwareProfile}
    (halike : ∀ config : KovalToml, BenchmarksDecideAlike h₁ h₂ config)
    : h₂.memory.bandwidthMbs ≤ h₁.memory.bandwidthMbs
        ∧ h₂.storage.readSpeedMbs ≤ h₁.storage.readSpeedMbs := by
  let rule : ForgeRule := {
    minMemoryBandwidth := some h₂.memory.bandwidthMbs
    minStorageReadMbs := some h₂.storage.readSpeedMbs
  }
  have hrule := halike ⟨[rule]⟩ rule (by simp) (by rfl)
  have h₂ok : rule.benchmarksOk h₂ := by
    simp [rule, ForgeRule.benchmarksOk, ForgeRule.bandwidthOk, ForgeRule.storageReadOk]
  rw [← hrule] at h₂ok
  simpa [rule, ForgeRule.benchmarksOk, ForgeRule.bandwidthOk, ForgeRule.storageReadOk] using h₂ok

theorem BenchmarksDecideAlike.symm {h₁ h₂ : HardwareProfile} {config : KovalToml}
    (h : normalizeProfile h₁ = normalizeProfile h₂) (halike : BenchmarksDecideAlike h₁ h₂ config)
    : BenchmarksDecideAlike h₂ h₁ config := by
  intro rule hrule hothers
  rw [← rule.othersOk_congr h] at hothers
  exact (halike rule hrule hothers).symm

theorem benchmarksDecideAlike_forall_iff {h₁ h₂ : HardwareProfile}
    (h : normalizeProfile h₁ = normalizeProfile h₂)
    : (∀ config : KovalToml, BenchmarksDecideAlike h₁ h₂ config)
        ↔
      h₁.memory.bandwidthMbs = h₂.memory.bandwidthMbs
        ∧ h₁.storage.readSpeedMbs = h₂.storage.readSpeedMbs := by
  constructor
  . intro halike
    have ⟨hbandwidth₂, hread₂⟩ := measurements_le_of_benchmarksDecideAlike halike
    have ⟨hbandwidth₁, hread₁⟩ :=
      measurements_le_of_benchmarksDecideAlike fun config => (halike config).symm h
    exact ⟨le_antisymm hbandwidth₁ hbandwidth₂, le_antisymm hread₁ hread₂⟩
  . rintro ⟨hbandwidth, hread⟩ config
    exact benchmarksDecideAlike_of_eq config hbandwidth hread

theorem buildConfig_eq_iff_of_criteria {h₁ h₂ : HardwareProfile} (config : KovalToml)
    (h : normalizeProfile h₁ = normalizeProfile h₂)
    : (∀ config' : KovalToml,
        config'.rules.map (·.criteria) = config.rules.map (·.criteria) →
          buildConfig h₁ config' = buildConfig h₂ config')
        ↔
      BenchmarksDecideAlike h₁ h₂ config := by
  constructor
  . intro hconfig
    exact benchmarksDecideAlike_of_buildConfig_eq h hconfig
  . intro halike config' hcriteria
    exact buildConfig_eq_of_benchmarksDecideAlike h hcriteria halike

theorem buildConfig_determined_iff {ext : Crates} (hext : ext.JsonLawful)
    {h₁ h₂ : HardwareProfile}
    (hkey : computeCacheKey.normalizedHwJson ext (hardwareJson ext h₁)
              = computeCacheKey.normalizedHwJson ext (hardwareJson ext h₂))
    : ((∀ config : KovalToml, buildConfig h₁ config = buildConfig h₂ config)
        ↔
      h₁.memory.bandwidthMbs = h₂.memory.bandwidthMbs
        ∧ h₁.storage.readSpeedMbs = h₂.storage.readSpeedMbs)
        ∧
      ∀ config : KovalToml,
        (∀ config' : KovalToml,
          config'.rules.map (·.criteria) = config.rules.map (·.criteria) →
            buildConfig h₁ config' = buildConfig h₂ config')
          ↔
        BenchmarksDecideAlike h₁ h₂ config := by
  have h := (computeCacheKey.normalizedHwJson_eq_iff hext).mp hkey
  refine ⟨?_, fun config => buildConfig_eq_iff_of_criteria config h⟩
  rw [← benchmarksDecideAlike_forall_iff h]
  constructor
  . intro hconfig config
    exact benchmarksDecideAlike_of_buildConfig_eq h fun config' _ => hconfig config'
  . intro halike config
    exact buildConfig_eq_of_benchmarksDecideAlike h rfl (halike config)

theorem buildConfig_determined_iff_busy
    : ((∀ config : KovalToml,
        buildConfig Samples.hardware config = buildConfig Samples.busyHardware config)
        ↔
      Samples.hardware.memory.bandwidthMbs = Samples.busyHardware.memory.bandwidthMbs
        ∧ Samples.hardware.storage.readSpeedMbs = Samples.busyHardware.storage.readSpeedMbs)
        ∧
      ∀ config : KovalToml,
        (∀ config' : KovalToml,
          config'.rules.map (·.criteria) = config.rules.map (·.criteria) →
            buildConfig Samples.hardware config' = buildConfig Samples.busyHardware config')
          ↔
        BenchmarksDecideAlike Samples.hardware Samples.busyHardware config := by
  apply buildConfig_determined_iff Samples.github.jsonLawful
  exact (computeCacheKey.normalizedHwJson_eq_iff Samples.github.jsonLawful).mpr rfl

theorem buildConfig_differs_under_one_key
    : ¬ ∀ (ext : Crates), ext.JsonLawful → ∀ (h₁ h₂ : HardwareProfile),
        computeCacheKey.normalizedHwJson ext (hardwareJson ext h₁)
            = computeCacheKey.normalizedHwJson ext (hardwareJson ext h₂) →
          ∀ config : KovalToml, buildConfig h₁ config = buildConfig h₂ config := by
  intro h
  let config : KovalToml :=
    ⟨[{ minMemoryBandwidth := some 20000, features := some ["fast"] }]⟩
  have hlawful := Samples.github.jsonLawful
  have hsame : normalizeProfile Samples.hardware = normalizeProfile Samples.busyHardware := rfl
  have hkey := (computeCacheKey.normalizedHwJson_eq_iff hlawful).mpr hsame
  have := congrArg BuildConfig.features (h _ hlawful _ _ hkey config)
  exact absurd this (by decide)

end Koval
