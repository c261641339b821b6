import Koval.Probe.ReadBack
import Koval.Server.ForgeMonotone

/-!
This module contains what the rules of a `koval.toml` make of a machine some of whose files the
probe cannot read.
-/

namespace Koval

/-- Every file that can be read here can be read there, and it is the same file. -/
def KernelFiles.Within (read read' : KernelFiles) : Prop :=
  ∀ path content, read path = some content → read' path = some content

namespace KernelFiles.Within

variable {read read' : KernelFiles} (h : read.Within read')
include h

theorem mem_collectCpuFlags {flag : String} (hflag : flag ∈ Cpu.collectCpuFlags read)
    : flag ∈ Cpu.collectCpuFlags read' := by
  unfold Cpu.collectCpuFlags at hflag ⊢
  split at hflag
  . next content hread =>
    rw [h _ _ hread]
    exact hflag
  . contradiction

theorem collectRamSizes_le
    : (Memory.collectRamSizes read).fst ≤ (Memory.collectRamSizes read').fst := by
  unfold Memory.collectRamSizes
  split
  . next content hread => rw [h _ _ hread]
  . exact Nat.zero_le _

-- The number of the nodes does not depend on what can be read of each of them.
theorem nodeCount_le : (Numa.collect read).nodeCount ≤ (Numa.collect read').nodeCount := by
  unfold Numa.collect Numa.collectInternal
  split
  . exact Nat.zero_le _
  . next content hread =>
    rw [h _ _ hread]
    simp only [List.length_map, le_refl]

-- What is found in one file is found there again.
theorem bind_eq_some {path : String} {f : String → Option α} {value : α}
    (hread : (read path).bind f = some value)
    : (read' path).bind f = some value := by
  rcases Option.bind_eq_some_iff.mp hread with ⟨content, hcontent, hvalue⟩
  rw [h _ _ hcontent]
  exact hvalue

theorem readMhz_eq_some {path : String} {mhz : Nat} (hread : Cpu.readMhz read path = some mhz)
    : Cpu.readMhz read' path = some mhz := h.bind_eq_some hread

theorem readCacheLineSize_eq_some {path : String} {size : Nat}
    (hread : Cpu.readCacheLineSize read path = some size)
    : Cpu.readCacheLineSize read' path = some size := h.bind_eq_some hread

-- Where the first file is hidden, the fallback may say another frequency.
theorem readCpuBaseFreq_eq_some {basePath fallbackPath : String} {mhz : Nat}
    (hread : Cpu.readCpuBaseFreq read basePath fallbackPath = some mhz)
    : Cpu.readCpuBaseFreq read' basePath fallbackPath = some mhz
        ∨
      read basePath = none ∧ Cpu.readMhz read fallbackPath = some mhz
        ∧ ∃ mhz', Cpu.readMhz read' basePath = some mhz' := by
  unfold Cpu.readCpuBaseFreq at hread ⊢
  rw [Option.or_eq_some_iff] at hread
  rcases hread with hbase | ⟨hbase, hfallback⟩
  . left
    rw [h.readMhz_eq_some hbase]
    rfl
  . cases hbase' : Cpu.readMhz read' basePath with
    | none => exact .inl (h.readMhz_eq_some hfallback)
    | some mhz' =>
      right
      refine ⟨?_, hfallback, mhz', rfl⟩
      rw [Option.eq_none_iff_forall_ne_some]
      intro content hcontent
      unfold Cpu.readMhz at hbase hbase'
      rw [h _ _ hcontent] at hbase'
      rw [hcontent, hbase'] at hbase
      contradiction

theorem detectIoUringInternal_eq (sysPathExists : String → Bool)
    : Storage.detectIoUringInternal sysPathExists read
          = Storage.detectIoUringInternal sysPathExists read'
        ∨
      read "/proc/sys/kernel/io_uring_disabled" = none
        ∧ Storage.detectIoUringInternal sysPathExists read = true
        ∧ Storage.detectIoUringInternal sysPathExists read' = false := by
  unfold Storage.detectIoUringInternal
  split
  . exact .inl rfl
  . cases hread : read "/proc/sys/kernel/io_uring_disabled" with
    | some content =>
      rw [h _ _ hread]
      exact .inl rfl
    | none =>
      dsimp only
      rw [Bool.eq_iff_iff, ← Bool.not_eq_true]
      tauto

variable (around : Surroundings) {rule : ForgeRule} (hrule : rule.Holds (probe around read))
include hrule

theorem ioUring_or
    : (∀ b, rule.requireIoUring = some b → (probe around read').storage.ioUring = b)
        ∨
      rule.requireIoUring = some true ∧ read "/proc/sys/kernel/io_uring_disabled" = none
        ∧ (probe around read').storage.ioUring = false := by
  rcases h.detectIoUringInternal_eq around.sysPathExists with heq | ⟨hhidden, htrue, hfalse⟩
  . left
    intro b hb
    exact heq.symm.trans (hrule.ioUring b hb)
  . cases hrequire : rule.requireIoUring with
    | none => exact .inl fun b hb => absurd hb (Option.some_ne_none b).symm
    | some b =>
      right
      have hb : Storage.detectIoUringInternal around.sysPathExists read = b :=
        hrule.ioUring b hrequire
      rw [← hb, htrue]
      exact ⟨rfl, hhidden, hfalse⟩

theorem cpuBaseFreq_or
    : (∀ mhz, rule.minCpuBaseFreqMhz = some mhz →
        ∃ freq', (probe around read').cpu.cpuBaseFreqMhz = some freq' ∧ mhz ≤ freq')
        ∨
      ∃ mhz freq freq', rule.minCpuBaseFreqMhz = some mhz
        ∧ read "/sys/devices/system/cpu/cpu0/cpufreq/base_frequency" = none
        ∧ Cpu.readMhz read "/sys/devices/system/cpu/cpu0/cpufreq/cpuinfo_min_freq" = some freq
        ∧ (probe around read').cpu.cpuBaseFreqMhz = some freq'
        ∧ freq' < mhz ∧ mhz ≤ freq := by
  cases hmin : rule.minCpuBaseFreqMhz with
  | none => exact .inl fun mhz hmhz => absurd hmhz (Option.some_ne_none mhz).symm
  | some mhz =>
    rcases hrule.cpuBaseFreq mhz hmin with ⟨freq, hfreq, hle⟩
    rcases h.readCpuBaseFreq_eq_some hfreq with hsame | ⟨hhidden, hfallback, freq', hfreq'⟩
    . left
      rintro _ ⟨⟩
      exact ⟨freq, hsame, hle⟩
    . have hbase : (probe around read').cpu.cpuBaseFreqMhz = some freq' := by
        change (Cpu.readMhz read' _).or _ = some freq'
        rw [hfreq']
        rfl
      by_cases hlt : freq' < mhz
      . exact .inr ⟨mhz, freq, freq', rfl, hhidden, hfallback, hbase, hlt, hle⟩
      . left
        rintro _ ⟨⟩
        exact ⟨freq', hbase, Nat.le_of_not_lt hlt⟩

/--
If all else that the probe meets is the same, a file that it cannot read makes no rule match. There are
two exceptions: the probe takes `io_uring` to be enabled when it cannot see that it is not, and the
lowest frequency to be the base frequency.
-/
theorem holds_or
    : rule.Holds (probe around read')
        ∨
      (rule.requireIoUring = some true ∧ read "/proc/sys/kernel/io_uring_disabled" = none
        ∧ (probe around read').storage.ioUring = false)
        ∨
      ∃ mhz freq freq', rule.minCpuBaseFreqMhz = some mhz
        ∧ read "/sys/devices/system/cpu/cpu0/cpufreq/base_frequency" = none
        ∧ Cpu.readMhz read "/sys/devices/system/cpu/cpu0/cpufreq/cpuinfo_min_freq" = some freq
        ∧ (probe around read').cpu.cpuBaseFreqMhz = some freq'
        ∧ freq' < mhz ∧ mhz ≤ freq := by
  rcases h.ioUring_or around hrule with huring | huring
  . rcases h.cpuBaseFreq_or around hrule with hbase | hbase
    . left
      exact {
        cpuFlags flags hflags f hf := h.mem_collectCpuFlags (hrule.cpuFlags flags hflags f hf)
        cores := hrule.cores
        memory gb hgb := F64.not_lt_of_le (hrule.memory gb hgb) (div_gigabyte_le h.collectRamSizes_le)
        bandwidth := hrule.bandwidth
        ioUring := huring
        oDirect := hrule.oDirect
        storageRead := hrule.storageRead
        gpuVram := hrule.gpuVram
        cpuBaseFreq := hbase
        cpuMaxFreq := by
          intro mhz hmhz
          rcases hrule.cpuMaxFreq mhz hmhz with ⟨freq, hfreq, hle⟩
          exact ⟨freq, h.readMhz_eq_some hfreq, hle⟩
        numaNodes n hn := (hrule.numaNodes n hn).trans h.nodeCount_le
        cacheLineSize n hn := h.readCacheLineSize_eq_some (hrule.cacheLineSize n hn) }
    . exact .inr (.inr hbase)
  . exact .inr (.inl huring)

end KernelFiles.Within

namespace Kernel.Samples

def withoutMeminfo : KernelFiles := fun path => if path = "/proc/meminfo" then none else files path

def rule : ForgeRule where
  cpuFlags := some ["avx2"]
  requireIoUring := some true
  minCpuBaseFreqMhz := some 700

theorem withoutMeminfo_within : withoutMeminfo.Within files := by
  intro path content hcontent
  unfold withoutMeminfo at hcontent
  split at hcontent
  . contradiction
  . exact hcontent

end Kernel.Samples

open Kernel.Samples in
theorem KernelFiles.Within.holds_or_hidden : rule.Holds (probe surroundings files) := by
  have hholds : rule.Holds (probe surroundings withoutMeminfo) := by decide +kernel
  rcases withoutMeminfo_within.holds_or surroundings hholds
    with hrule | ⟨_, _, huring⟩ | ⟨mhz, freq, freq', hmhz, _, _, hfreq', hlt, _⟩
  . exact hrule
  . exact absurd huring (by decide +kernel)
  . have hmin : (probe surroundings files).cpu.cpuBaseFreqMhz = some 800 := by decide +kernel
    rw [hmin] at hfreq'
    injection hmhz with hmhz
    injection hfreq' with hfreq'
    omega

end Koval
