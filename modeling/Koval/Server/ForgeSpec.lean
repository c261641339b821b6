import Koval.Server.ForgeLemmas
import Koval.Server.Worker.BuildMode

/-!
This module contains what the rules that match make of a build configuration.
-/

namespace Koval

theorem gigabytes_of_lt {bytes : Nat} (h : bytes < 2 ^ 53)
    : gigabytes bytes = .finite (bytes / gigabyte) := by
  unfold gigabytes
  rw [F64.roundNat_of_lt h]

namespace ForgeRule

/--
Every criterion that the rule has holds of the hardware. A bound that is NaN is above no number, so
every machine is within it, but no device reaches it.
-/
structure Holds (rule : ForgeRule) (hardware : HardwareProfile) : Prop where
  cpuFlags : ∀ flags, rule.cpuFlags = some flags → ∀ f ∈ flags, f ∈ hardware.cpu.flags
  cores : ∀ n, rule.minCores = some n → n ≤ hardware.cpu.coreCount
  memory : ∀ gb, rule.minMemoryGb = some gb → ¬gigabytes hardware.memory.totalBytes < gb
  bandwidth : ∀ bw, rule.minMemoryBandwidth = some bw → ¬(hardware.memory.bandwidthMbs : F64) < bw
  ioUring : ∀ b, rule.requireIoUring = some b → hardware.storage.ioUring = b
  oDirect : ∀ b, rule.requireODirect = some b → hardware.storage.oDirect = b
  storageRead : ∀ mbs, rule.minStorageReadMbs = some mbs → ¬(hardware.storage.readSpeedMbs : F64) < mbs
  gpuVram : ∀ gb, rule.minGpuVramGb = some gb →
    ∃ dev ∈ hardware.gpu.devices, gb ≤ gigabytes dev.vramBytes
  cpuBaseFreq : ∀ mhz, rule.minCpuBaseFreqMhz = some mhz →
    ∃ freq, hardware.cpu.cpuBaseFreqMhz = some freq ∧ mhz ≤ freq
  cpuMaxFreq : ∀ mhz, rule.minCpuMaxFreqMhz = some mhz →
    ∃ freq, hardware.cpu.cpuMaxFreqMhz = some freq ∧ mhz ≤ freq
  numaNodes : ∀ n, rule.minNumaNodes = some n → n ≤ hardware.numa.nodeCount
  cacheLineSize : ∀ n, rule.requireCacheLineSize = some n → hardware.cpu.cacheLineSize = some n

variable {rule : ForgeRule} {hardware : HardwareProfile}

theorem cpuFlagsOk_iff
    : rule.cpuFlagsOk hardware
        ↔
      ∀ flags, rule.cpuFlags = some flags → ∀ f ∈ flags, f ∈ hardware.cpu.flags := by
  unfold cpuFlagsOk
  cases rule.cpuFlags <;> simp

theorem coresOk_iff
    : rule.coresOk hardware ↔ ∀ n, rule.minCores = some n → n ≤ hardware.cpu.coreCount := by
  unfold coresOk
  cases rule.minCores <;> simp

theorem memoryOk_iff
    : rule.memoryOk hardware
        ↔
      ∀ gb, rule.minMemoryGb = some gb → ¬gigabytes hardware.memory.totalBytes < gb := by
  unfold memoryOk
  cases rule.minMemoryGb <;> simp

-- Up to eight pebibytes the comparison is one of exact numbers.
theorem memoryOk_iff_le {gb : Rat} (hrule : rule.minMemoryGb = some (.finite gb))
    (hbytes : hardware.memory.totalBytes < 2 ^ 53)
    : rule.memoryOk hardware ↔ gb ≤ hardware.memory.totalBytes / gigabyte := by
  unfold memoryOk
  rw [hrule, gigabytes_of_lt hbytes]
  simp

theorem bandwidthOk_iff
    : rule.bandwidthOk hardware
        ↔
      ∀ bw, rule.minMemoryBandwidth = some bw → ¬(hardware.memory.bandwidthMbs : F64) < bw := by
  unfold bandwidthOk
  cases rule.minMemoryBandwidth <;> simp

theorem ioUringOk_iff
    : rule.ioUringOk hardware
        ↔
      ∀ b, rule.requireIoUring = some b → hardware.storage.ioUring = b := by
  unfold ioUringOk
  cases rule.requireIoUring <;> simp

theorem oDirectOk_iff
    : rule.oDirectOk hardware
        ↔
      ∀ b, rule.requireODirect = some b → hardware.storage.oDirect = b := by
  unfold oDirectOk
  cases rule.requireODirect <;> simp

theorem storageReadOk_iff
    : rule.storageReadOk hardware
        ↔
      ∀ mbs, rule.minStorageReadMbs = some mbs → ¬(hardware.storage.readSpeedMbs : F64) < mbs := by
  unfold storageReadOk
  cases rule.minStorageReadMbs <;> simp

theorem gpuVramOk_iff
    : rule.gpuVramOk hardware
        ↔
      ∀ gb, rule.minGpuVramGb = some gb →
        ∃ dev ∈ hardware.gpu.devices, gb ≤ gigabytes dev.vramBytes := by
  unfold gpuVramOk
  cases rule.minGpuVramGb <;> simp

theorem cpuBaseFreqOk_iff
    : rule.cpuBaseFreqOk hardware
        ↔
      ∀ mhz, rule.minCpuBaseFreqMhz = some mhz →
        ∃ freq, hardware.cpu.cpuBaseFreqMhz = some freq ∧ mhz ≤ freq := by
  unfold cpuBaseFreqOk
  cases rule.minCpuBaseFreqMhz <;> cases hardware.cpu.cpuBaseFreqMhz <;> simp

theorem cpuMaxFreqOk_iff
    : rule.cpuMaxFreqOk hardware
        ↔
      ∀ mhz, rule.minCpuMaxFreqMhz = some mhz →
        ∃ freq, hardware.cpu.cpuMaxFreqMhz = some freq ∧ mhz ≤ freq := by
  unfold cpuMaxFreqOk
  cases rule.minCpuMaxFreqMhz <;> cases hardware.cpu.cpuMaxFreqMhz <;> simp

theorem numaNodesOk_iff
    : rule.numaNodesOk hardware
        ↔
      ∀ n, rule.minNumaNodes = some n → n ≤ hardware.numa.nodeCount := by
  unfold numaNodesOk
  cases rule.minNumaNodes <;> simp

theorem cacheLineSizeOk_iff
    : rule.cacheLineSizeOk hardware
        ↔
      ∀ n, rule.requireCacheLineSize = some n → hardware.cpu.cacheLineSize = some n := by
  unfold cacheLineSizeOk
  cases rule.requireCacheLineSize <;> cases hardware.cpu.cacheLineSize <;> simp

theorem matched_iff : rule.matched hardware ↔ rule.Holds hardware := by
  unfold matched
  simp only [Bool.and_eq_true, cpuFlagsOk_iff, coresOk_iff, memoryOk_iff, bandwidthOk_iff,
    ioUringOk_iff, oDirectOk_iff, storageReadOk_iff, gpuVramOk_iff, cpuBaseFreqOk_iff,
    cpuMaxFreqOk_iff, numaNodesOk_iff, cacheLineSizeOk_iff]
  constructor
  . rintro ⟨⟨⟨⟨⟨⟨⟨⟨⟨⟨⟨h₁, h₂⟩, h₃⟩, h₄⟩, h₅⟩, h₆⟩, h₇⟩, h₈⟩, h₉⟩, h₁₀⟩, h₁₁⟩, h₁₂⟩
    exact ⟨h₁, h₂, h₃, h₄, h₅, h₆, h₇, h₈, h₉, h₁₀, h₁₁, h₁₂⟩
  . rintro ⟨h₁, h₂, h₃, h₄, h₅, h₆, h₇, h₈, h₉, h₁₀, h₁₁, h₁₂⟩
    exact ⟨⟨⟨⟨⟨⟨⟨⟨⟨⟨⟨h₁, h₂⟩, h₃⟩, h₄⟩, h₅⟩, h₆⟩, h₇⟩, h₈⟩, h₉⟩, h₁₀⟩, h₁₁⟩, h₁₂⟩

instance (rule : ForgeRule) (hardware : HardwareProfile) : Decidable (rule.Holds hardware) :=
  decidable_of_iff _ matched_iff

def Defines (rule : ForgeRule) (k v : String) : Prop := (k, v) ∈ rule.env.getD []

end ForgeRule

def KovalToml.matching (config : KovalToml) (hardware : HardwareProfile) : List ForgeRule :=
  config.rules.filter fun rule => rule.Holds hardware

/-- The entries come from hash maps, which have one entry for a key. -/
def KovalToml.HasMaps (config : KovalToml) : Prop :=
  ∀ rule ∈ config.rules, ((rule.env.getD []).map Prod.fst).Nodup

def LastDefines (rules : List ForgeRule) (k v : String) : Prop :=
  ∃ before rule after,
    rules = before ++ rule :: after ∧ rule.Defines k v ∧ ∀ later ∈ after, ∀ v', ¬later.Defines k v'

theorem KovalToml.matching_eq (config : KovalToml) (hardware : HardwareProfile)
    : config.matching hardware = config.rules.filter (·.matched hardware) := by
  apply List.filter_congr
  intro rule _
  rw [Bool.eq_iff_iff, decide_eq_true_iff, ForgeRule.matched_iff]

namespace buildConfig

theorem foldl_applyRule_flags (rules : List ForgeRule) (acc : Collected)
    : (rules.foldl (fun acc rule => applyRule rule acc) acc).flags
        =
      acc.flags ++ rules.flatMap (fun rule => rule.rustflags.getD []) := by
  induction rules generalizing acc with
  | nil => simp
  | cons rule rules ih =>
    rw [List.foldl_cons, ih]
    simp [applyRule]

theorem get_insertEnv {entries : List (String × String)} (hnodup : (entries.map Prod.fst).Nodup)
    (env : EnvMap) (k v : String)
    : (insertEnv env entries).get k = some v
        ↔
      if k ∈ blocklist then
        env.get k = some v
      else
        (k, v) ∈ entries ∨ (∀ v', (k, v') ∉ entries) ∧ env.get k = some v := by
  induction entries generalizing env with
  | nil => simp [insertEnv]
  | cons entry entries ih =>
    rcases entry with ⟨k₀, v₀⟩
    rw [List.map_cons, List.nodup_cons] at hnodup
    change (insertEnv (if blocklist.contains k₀ then env else env.insert k₀ v₀) entries).get k = _ ↔ _
    rw [ih hnodup.right]
    by_cases hk : k = k₀
    . have hout : ∀ v', (k, v') ∉ entries := by
        intro v' hmem
        rw [hk] at hmem
        exact hnodup.left (List.mem_map.mpr ⟨_, hmem, rfl⟩)
      rw [hk] at hout ⊢
      by_cases hblocked : k₀ ∈ blocklist
      . simp [hblocked]
      . simp [hblocked, hout, EnvMap.get, EnvMap.insert, eq_comm]
    . have hget : (if blocklist.contains k₀ then env else env.insert k₀ v₀).get k = env.get k := by
        split
        . rfl
        . exact if_neg hk
      rw [hget]
      simp [hk]

theorem lastDefines_append_singleton {rules : List ForgeRule} {rule : ForgeRule} {k v : String}
    : LastDefines (rules ++ [rule]) k v
        ↔
      rule.Defines k v ∨ (∀ v', ¬rule.Defines k v') ∧ LastDefines rules k v := by
  constructor
  . rintro ⟨before, rule', after, heq, hdefines, hafter⟩
    rcases List.eq_nil_or_concat after with rfl | ⟨after, last, rfl⟩
    . rw [List.append_cons, List.append_nil] at heq
      have := (List.append_inj' heq rfl).right
      injection this with hrule
      rw [hrule]
      exact .inl hdefines
    . rw [List.concat_eq_append] at heq hafter
      rw [← List.cons_append, ← List.append_assoc] at heq
      have ⟨hrules, hlast⟩ := List.append_inj' heq rfl
      injection hlast with hlast
      rw [hlast]
      refine .inr ⟨hafter last (by simp), before, rule', after, hrules, hdefines, ?_⟩
      intro later hlater
      exact hafter later (by simp [hlater])
  . rintro (hdefines | ⟨hnot, before, rule', after, rfl, hdefines, hafter⟩)
    . exact ⟨rules, rule, [], rfl, hdefines, by simp⟩
    . refine ⟨before, rule', after ++ [rule], by simp, hdefines, ?_⟩
      intro later hlater
      rw [List.mem_append, List.mem_singleton] at hlater
      rcases hlater with hlater | rfl
      . exact hafter later hlater
      . exact hnot

theorem get_env_foldl {rules : List ForgeRule}
    (hmaps : ∀ rule ∈ rules, ((rule.env.getD []).map Prod.fst).Nodup) (k v : String)
    : (rules.foldl (fun acc rule => applyRule rule acc) ⟨[], .empty, []⟩).env.get k = some v
        ↔
      k ∉ blocklist ∧ LastDefines rules k v := by
  induction rules using List.reverseRecOn with
  | nil =>
    simp [EnvMap.get, EnvMap.empty, LastDefines]
  | append_singleton rules rule ih =>
    rw [List.foldl_append, List.foldl_cons, List.foldl_nil, applyRule]
    dsimp only
    rw [get_insertEnv (hmaps rule (by simp)), ih fun rule hrule => hmaps rule (by simp [hrule]),
      lastDefines_append_singleton]
    unfold ForgeRule.Defines
    split
    . next hblocked => simp [hblocked]
    . next hfree => simp [hfree]

end buildConfig

section

variable {α : Type} [LinearOrder α]

theorem mem_destutter'_ne {a b : α} {l : List α}
    : a ∈ l.destutter' (· ≠ ·) b ↔ a = b ∨ a ∈ l := by
  induction l generalizing b with
  | nil => simp
  | cons c l ih =>
    rw [List.destutter'_cons]
    split
    . rw [List.mem_cons, ih, List.mem_cons]
    . next heq =>
      rw [not_not] at heq
      rw [ih, List.mem_cons, heq]
      simp

theorem mem_destutter_ne {a : α} {l : List α} : a ∈ l.destutter (· ≠ ·) ↔ a ∈ l := by
  cases l with
  | nil => rfl
  | cons b l => rw [List.destutter_cons', mem_destutter'_ne, List.mem_cons]

theorem isChain_lt {l : List α} (hle : l.IsChain (· ≤ ·)) (hne : l.IsChain (· ≠ ·))
    : l.IsChain (· < ·) := by
  induction l with
  | nil => exact List.isChain_nil
  | cons a l ih =>
    rw [List.isChain_cons] at hle hne ⊢
    refine ⟨?_, ih hle.right hne.right⟩
    intro b hb
    exact lt_of_le_of_ne (hle.left b hb) (hne.left b hb)

theorem pairwise_lt_destutter_ne {l : List α} (h : l.Pairwise (· ≤ ·))
    : (l.destutter (· ≠ ·)).Pairwise (· < ·) := by
  have hle := h.sublist (List.destutter_sublist (· ≠ ·) l)
  rw [← List.isChain_iff_pairwise] at hle ⊢
  exact isChain_lt hle (List.isChain_destutter (· ≠ ·) l)

end

-- For each supported target, the variable for its linker, and the linker.
def linkers : List (String × String × String) := [
  ("aarch64-unknown-linux-gnu", "CARGO_TARGET_AARCH64_UNKNOWN_LINUX_GNU_LINKER",
    "aarch64-linux-gnu-gcc"),
  ("armv7-unknown-linux-gnueabihf", "CARGO_TARGET_ARMV7_UNKNOWN_LINUX_GNUEABIHF_LINKER",
    "arm-linux-gnueabihf-gcc"),
  ("x86_64-unknown-linux-musl", "CARGO_TARGET_X86_64_UNKNOWN_LINUX_MUSL_LINKER", "musl-gcc"),
  ("i686-unknown-linux-musl", "CARGO_TARGET_I686_UNKNOWN_LINUX_MUSL_LINKER",
    "i686-linux-musl-gcc"),
  ("arm-unknown-linux-gnueabihf", "CARGO_TARGET_ARM_UNKNOWN_LINUX_GNUEABIHF_LINKER",
    "arm-linux-gnueabihf-gcc")
]

theorem map_fst_linkers : linkers.map Prod.fst = supportedTargets := rfl

theorem linkerEnvForTarget_of_mem
    : ∀ entry ∈ linkers, linkerEnvForTarget entry.1 = some entry.2 := by
  decide

theorem isSupported_of_linkerEnvForTarget {triple : String} {entry : String × String}
    (h : linkerEnvForTarget triple = some entry)
    : triple ∈ supportedTargets := by
  unfold linkerEnvForTarget at h
  split at h
  . contradiction
  . next hsupported =>
    rw [Bool.not_eq_true', Bool.not_eq_false] at hsupported
    exact List.contains_iff_mem.mp hsupported

theorem linkerEnvForTarget_eq_some_iff {triple k linker : String}
    : linkerEnvForTarget triple = some (k, linker) ↔ (triple, k, linker) ∈ linkers := by
  constructor
  . intro h
    have hsupported := isSupported_of_linkerEnvForTarget h
    rw [← map_fst_linkers, List.mem_map] at hsupported
    rcases hsupported with ⟨entry, hentry, rfl⟩
    rw [linkerEnvForTarget_of_mem entry hentry, Option.some.injEq] at h
    rw [← h]
    exact hentry
  . exact linkerEnvForTarget_of_mem (triple, k, linker)

theorem ne_rustflags_of_mem_linkers
    : ∀ entry ∈ linkers, entry.2.1 ≠ "RUSTFLAGS" := by
  decide

/-- What the rules that match ask of a configuration, and of the environment that `cargo` gets. -/
structure Configures (rules : List ForgeRule) (target : Option String) (config : BuildConfig)
    (envs : EnvMap) : Prop where
  features_increase : config.features.Pairwise (· < ·)
  features_union : ∀ f, f ∈ config.features ↔ ∃ rule ∈ rules, f ∈ rule.features.getD []
  rustflags : config.rustflags = " ".intercalate (rules.flatMap fun rule => rule.rustflags.getD [])
  env : ∀ k v, config.env.get k = some v ↔ k ∉ blocklist ∧ LastDefines rules k v
  envs_rustflags : config.rustflags ≠ "" → envs.get "RUSTFLAGS" = some config.rustflags
  envs_linker : ∀ triple ∈ target, ∀ k linker, (triple, k, linker) ∈ linkers →
    envs.get k = some linker
  envs_else : ∀ k, (k = "RUSTFLAGS" → config.rustflags = "") →
    (∀ triple ∈ target, ∀ linker, (triple, k, linker) ∉ linkers) → envs.get k = config.env.get k

namespace prepareCargoEnvs

variable {baseEnvs : EnvMap} {rustflags : String} {target : Option String} {k : String}

theorem get_of_linker {triple linker : String} (htarget : triple ∈ target)
    (hlinker : (triple, k, linker) ∈ linkers)
    : (prepareCargoEnvs baseEnvs rustflags target).get k = some linker := by
  rw [← linkerEnvForTarget_eq_some_iff] at hlinker
  unfold prepareCargoEnvs
  rw [Option.mem_def.mp htarget, Option.bind_some, hlinker]
  exact if_pos rfl

theorem get_of_not_linker
    (hlinker : ∀ triple ∈ target, ∀ linker, (triple, k, linker) ∉ linkers)
    : (prepareCargoEnvs baseEnvs rustflags target).get k
        =
      if k = "RUSTFLAGS" ∧ rustflags ≠ "" then some rustflags else baseEnvs.get k := by
  have hbase : (if rustflags = "" then baseEnvs else baseEnvs.insert "RUSTFLAGS" rustflags).get k
      = if k = "RUSTFLAGS" ∧ rustflags ≠ "" then some rustflags else baseEnvs.get k := by
    by_cases hempty : rustflags = ""
    . simp [hempty]
    . simp [hempty, EnvMap.get, EnvMap.insert]
  unfold prepareCargoEnvs
  cases hfound : target.bind linkerEnvForTarget with
  | none => exact hbase
  | some entry =>
    rcases entry with ⟨envVar, linker⟩
    rcases Option.bind_eq_some_iff.mp hfound with ⟨triple, htriple, hentry⟩
    rw [linkerEnvForTarget_eq_some_iff] at hentry
    have hne : k ≠ envVar := by
      rintro rfl
      exact hlinker triple htriple linker hentry
    rw [← hbase]
    exact if_neg hne

end prepareCargoEnvs

theorem buildConfig_eq (hardware : HardwareProfile) (config : KovalToml)
    : buildConfig hardware config
        =
      let collected := (config.matching hardware).foldl
        (fun acc rule => buildConfig.applyRule rule acc) ⟨[], .empty, []⟩
      {
        rustflags := " ".intercalate collected.flags
        env := collected.env
        features := (collected.features.insertionSort (· ≤ ·)).destutter (· ≠ ·)
      } := by
  unfold buildConfig
  rw [buildConfig.go_eq_foldl, ← KovalToml.matching_eq]

theorem mem_features_iff {hardware : HardwareProfile} {config : KovalToml} {f : String}
    : f ∈ (buildConfig hardware config).features
        ↔
      ∃ rule ∈ config.matching hardware, f ∈ rule.features.getD [] := by
  rw [buildConfig_eq]
  dsimp only
  rw [mem_destutter_ne, List.mem_insertionSort, buildConfig.foldl_applyRule_features,
    List.nil_append, List.mem_flatMap]

theorem rustflags_eq (hardware : HardwareProfile) (config : KovalToml)
    : (buildConfig hardware config).rustflags
        =
      " ".intercalate ((config.matching hardware).flatMap fun rule => rule.rustflags.getD []) := by
  rw [buildConfig_eq]
  dsimp only
  rw [buildConfig.foldl_applyRule_flags, List.nil_append]

/--
Whatever the order of the entries of the hash maps, the configuration and the environment are what
the rules that match ask for.
-/
theorem buildConfig_configures (hardware : HardwareProfile) (config : KovalToml)
    (hmaps : config.HasMaps) (target : Option String)
    : let built := buildConfig hardware config
      (∀ rule, rule ∈ config.matching hardware ↔ rule ∈ config.rules ∧ rule.Holds hardware)
        ∧
      Configures (config.matching hardware) target built
        (prepareCargoEnvs built.env built.rustflags target) := by
  dsimp only
  refine ⟨?_, ?_, fun f => mem_features_iff, rustflags_eq hardware config, ?_, ?_, ?_, ?_⟩
  . intro rule
    simp only [KovalToml.matching, List.mem_filter, decide_eq_true_eq]
  . rw [buildConfig_eq]
    exact pairwise_lt_destutter_ne (List.pairwise_insertionSort _ _)
  . intro k v
    rw [buildConfig_eq]
    apply buildConfig.get_env_foldl
    intro rule hrule
    exact hmaps rule (List.mem_of_mem_filter hrule)
  . intro hflags
    rw [prepareCargoEnvs.get_of_not_linker, if_pos ⟨rfl, hflags⟩]
    intro triple _ linker hlinker
    exact ne_rustflags_of_mem_linkers _ hlinker rfl
  . intro triple htriple k linker hlinker
    exact prepareCargoEnvs.get_of_linker htriple hlinker
  . intro k hflags hlinker
    rw [prepareCargoEnvs.get_of_not_linker hlinker, if_neg]
    rintro ⟨hk, hne⟩
    exact hne (hflags hk)

namespace Samples

-- Two rules that match, the second of which has the last word on CC, and one that does not match.
def threeRules : KovalToml := ⟨[
  { minCores := some 4, rustflags := some ["-C", "lto"], features := some ["simd", "fast"]
    env := some [("CC", "gcc"), ("KOVAL_DB", "other.db")] },
  { cpuFlags := some ["avx2"], env := some [("CC", "clang")], features := some ["fast"] },
  { minCores := some 64, features := some ["huge"] }
]⟩

theorem threeRules_hasMaps : threeRules.HasMaps := by
  unfold KovalToml.HasMaps
  decide

end Samples

theorem buildConfig_configures_threeRules
    : let built := buildConfig Samples.hardware Samples.threeRules
      (∀ rule,
        rule ∈ Samples.threeRules.matching Samples.hardware
          ↔
        rule ∈ Samples.threeRules.rules ∧ rule.Holds Samples.hardware)
        ∧
      Configures (Samples.threeRules.matching Samples.hardware) (some "x86_64-unknown-linux-musl") built
        (prepareCargoEnvs built.env built.rustflags (some "x86_64-unknown-linux-musl")) :=
  buildConfig_configures Samples.hardware Samples.threeRules Samples.threeRules_hasMaps
    (some "x86_64-unknown-linux-musl")

end Koval
