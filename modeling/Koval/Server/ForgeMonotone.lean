import Koval.Server.ForgeSpec
import Koval.Text.Words

/-!
This module contains the order of hardware profiles that build configurations keep.
-/

namespace Koval

/-- `hardware'` has everything that `hardware` has, and as much of it. -/
structure HardwareProfile.AtMost (hardware hardware' : HardwareProfile) : Prop where
  flags : ∀ f ∈ hardware.cpu.flags, f ∈ hardware'.cpu.flags
  coreCount : hardware.cpu.coreCount ≤ hardware'.cpu.coreCount
  totalBytes : hardware.memory.totalBytes ≤ hardware'.memory.totalBytes
  bandwidth : hardware.memory.bandwidthMbs ≤ hardware'.memory.bandwidthMbs
  readSpeed : hardware.storage.readSpeedMbs ≤ hardware'.storage.readSpeedMbs
  nodeCount : hardware.numa.nodeCount ≤ hardware'.numa.nodeCount
  baseFreq : ∀ freq, hardware.cpu.cpuBaseFreqMhz = some freq →
    ∃ freq', hardware'.cpu.cpuBaseFreqMhz = some freq' ∧ freq ≤ freq'
  maxFreq : ∀ freq, hardware.cpu.cpuMaxFreqMhz = some freq →
    ∃ freq', hardware'.cpu.cpuMaxFreqMhz = some freq' ∧ freq ≤ freq'
  devices : ∀ dev ∈ hardware.gpu.devices, ∃ dev' ∈ hardware'.gpu.devices,
    dev.vramBytes ≤ dev'.vramBytes
  ioUring : hardware.storage.ioUring = hardware'.storage.ioUring
  oDirect : hardware.storage.oDirect = hardware'.storage.oDirect
  cacheLineSize : hardware.cpu.cacheLineSize = hardware'.cpu.cacheLineSize

variable {hardware hardware' : HardwareProfile}

theorem div_gigabyte_le {m n : Nat} (h : m ≤ n)
    : (F64.roundNat m : Rat) / gigabyte ≤ F64.roundNat n / gigabyte := by
  have hpos : 0 ≤ gigabyte := by
    unfold gigabyte
    norm_num
  exact div_le_div_of_nonneg_right (Nat.cast_le.mpr (F64.roundNat_mono h)) hpos

theorem ForgeRule.Holds.mono {rule : ForgeRule} (h : rule.Holds hardware)
    (hle : hardware.AtMost hardware')
    : rule.Holds hardware' where
  cpuFlags flags hflags f hf := hle.flags f (h.cpuFlags flags hflags f hf)
  cores n hn := (h.cores n hn).trans hle.coreCount
  memory gb hgb := F64.not_lt_of_le (h.memory gb hgb) (div_gigabyte_le hle.totalBytes)
  bandwidth bw hbw := F64.not_lt_of_le (h.bandwidth bw hbw) hle.bandwidth
  ioUring b hb := hle.ioUring ▸ h.ioUring b hb
  oDirect b hb := hle.oDirect ▸ h.oDirect b hb
  storageRead mbs hmbs := F64.not_lt_of_le (h.storageRead mbs hmbs) hle.readSpeed
  gpuVram := by
    intro gb hgb
    rcases h.gpuVram gb hgb with ⟨dev, hdev, hvram⟩
    rcases hle.devices dev hdev with ⟨dev', hdev', hbytes⟩
    exact ⟨dev', hdev', F64.le_of_le hvram (div_gigabyte_le hbytes)⟩
  cpuBaseFreq := by
    intro mhz hmhz
    rcases h.cpuBaseFreq mhz hmhz with ⟨freq, hfreq, hmin⟩
    rcases hle.baseFreq freq hfreq with ⟨freq', hfreq', hbetter⟩
    exact ⟨freq', hfreq', hmin.trans hbetter⟩
  cpuMaxFreq := by
    intro mhz hmhz
    rcases h.cpuMaxFreq mhz hmhz with ⟨freq, hfreq, hmin⟩
    rcases hle.maxFreq freq hfreq with ⟨freq', hfreq', hbetter⟩
    exact ⟨freq', hfreq', hmin.trans hbetter⟩
  numaNodes n hn := (h.numaNodes n hn).trans hle.nodeCount
  cacheLineSize n hn := hle.cacheLineSize ▸ h.cacheLineSize n hn

theorem KovalToml.matching_sublist (config : KovalToml) (hle : hardware.AtMost hardware')
    : (config.matching hardware).Sublist (config.matching hardware') := by
  apply List.monotone_filter_right
  intro rule hrule
  exact decide_eq_true ((of_decide_eq_true hrule).mono hle)

namespace buildConfig

theorem isSome_get_insertEnv {env : EnvMap} {entries : List (String × String)} {k : String}
    : ((insertEnv env entries).get k).isSome
        ↔
      (env.get k).isSome ∨ k ∉ blocklist ∧ ∃ v, (k, v) ∈ entries := by
  induction entries generalizing env with
  | nil => simp [insertEnv]
  | cons entry entries ih =>
    rcases entry with ⟨k₀, v₀⟩
    change ((insertEnv (if blocklist.contains k₀ then env else env.insert k₀ v₀) entries).get k).isSome
      ↔ _
    rw [ih]
    by_cases hblocked : k₀ ∈ blocklist
    . have hkey : k ∉ blocklist → k ≠ k₀ := by
        rintro hfree rfl
        exact hfree hblocked
      simp only [List.contains_iff_mem, hblocked, if_true, List.mem_cons, Prod.mk.injEq]
      grind
    . simp only [List.contains_iff_mem, hblocked, if_false, List.mem_cons, Prod.mk.injEq,
        EnvMap.get, EnvMap.insert]
      by_cases hkey : k = k₀
      . simp [hkey, hblocked]
      . simp [hkey]

theorem isSome_get_env_foldl {rules : List ForgeRule} {acc : Collected} {k : String}
    : ((rules.foldl (fun acc rule => applyRule rule acc) acc).env.get k).isSome
        ↔
      (acc.env.get k).isSome ∨ k ∉ blocklist ∧ ∃ rule ∈ rules, ∃ v, rule.Defines k v := by
  induction rules generalizing acc with
  | nil => simp
  | cons rule rules ih =>
    rw [List.foldl_cons, ih]
    unfold applyRule
    dsimp only
    rw [isSome_get_insertEnv]
    simp only [List.mem_cons, exists_eq_or_imp, ForgeRule.Defines]
    tauto

end buildConfig

/-- A rule that matches on some hardware matches on better hardware, and so what it asks for stays. -/
theorem buildConfig_monotone (hle : hardware.AtMost hardware') (config : KovalToml)
    : (∀ rule ∈ config.rules, rule.matched hardware → rule.matched hardware')
        ∧
      (∀ f ∈ (buildConfig hardware config).features, f ∈ (buildConfig hardware' config).features)
        ∧
      (Text.words (buildConfig hardware config).rustflags).Sublist
        (Text.words (buildConfig hardware' config).rustflags)
        ∧
      ∀ k, ((buildConfig hardware config).env.get k).isSome →
        ((buildConfig hardware' config).env.get k).isSome := by
  have hsub := config.matching_sublist hle
  refine ⟨?_, ?_, ?_, ?_⟩
  . intro rule _ hmatched
    rw [ForgeRule.matched_iff] at hmatched ⊢
    exact hmatched.mono hle
  . intro f hf
    rw [mem_features_iff] at hf ⊢
    rcases hf with ⟨rule, hrule, hf⟩
    exact ⟨rule, hsub.subset hrule, hf⟩
  . rw [rustflags_eq, rustflags_eq, Text.words_intercalate, Text.words_intercalate]
    exact (hsub.flatMap _).flatMap _
  . intro k
    rw [buildConfig_eq, buildConfig_eq]
    dsimp only
    rw [buildConfig.isSome_get_env_foldl, buildConfig.isSome_get_env_foldl]
    rintro (hempty | ⟨hfree, rule, hrule, hdefines⟩)
    . contradiction
    . exact .inr ⟨hfree, rule, hsub.subset hrule, hdefines⟩

theorem Samples.busyHardware_atMost : busyHardware.AtMost Samples.hardware where
  flags _ hf := hf
  coreCount := le_refl _
  totalBytes := le_refl _
  bandwidth := by decide
  readSpeed := le_refl _
  nodeCount := le_refl _
  baseFreq freq hfreq := ⟨freq, hfreq, le_refl _⟩
  maxFreq freq hfreq := ⟨freq, hfreq, le_refl _⟩
  devices dev hdev := ⟨dev, hdev, le_refl _⟩
  ioUring := rfl
  oDirect := rfl
  cacheLineSize := rfl

theorem buildConfig_monotone_busy
    : (∀ rule ∈ Samples.threeRules.rules,
        rule.matched Samples.busyHardware → rule.matched Samples.hardware)
        ∧
      (∀ f ∈ (buildConfig Samples.busyHardware Samples.threeRules).features,
        f ∈ (buildConfig Samples.hardware Samples.threeRules).features)
        ∧
      (Text.words (buildConfig Samples.busyHardware Samples.threeRules).rustflags).Sublist
        (Text.words (buildConfig Samples.hardware Samples.threeRules).rustflags)
        ∧
      ∀ k, ((buildConfig Samples.busyHardware Samples.threeRules).env.get k).isSome →
        ((buildConfig Samples.hardware Samples.threeRules).env.get k).isSome :=
  buildConfig_monotone Samples.busyHardware_atMost Samples.threeRules

end Koval
