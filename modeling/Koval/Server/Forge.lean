import Mathlib.Data.List.Sort
import Mathlib.Data.List.Destutter
import Mathlib.Data.String.Basic
import Koval.Num.F64
import Koval.Schema

/-!
This module contains the matching of a hardware profile against the rules of a `koval.toml`.
-/

namespace Koval

def EnvMap := String → Option String

namespace EnvMap

def empty : EnvMap := fun _ => none

def get (env : EnvMap) (k : String) : Option String := env k

def insert (env : EnvMap) (k v : String) : EnvMap :=
  fun k' => if k' = k then some v else env k'

end EnvMap

structure ForgeRule where
  cpuFlags : Option (List String) := none
  minCores : Option Nat := none
  minMemoryGb : Option F64 := none
  minMemoryBandwidth : Option F64 := none
  requireIoUring : Option Bool := none
  requireODirect : Option Bool := none
  minStorageReadMbs : Option F64 := none
  minGpuVramGb : Option F64 := none
  minCpuBaseFreqMhz : Option Nat := none
  minCpuMaxFreqMhz : Option Nat := none
  minNumaNodes : Option Nat := none
  requireCacheLineSize : Option Nat := none
  rustflags : Option (List String) := none
  -- the entries in the order in which the hash map yields them
  env : Option (List (String × String)) := none
  features : Option (List String) := none
  deriving DecidableEq, Inhabited, Repr

structure KovalToml where
  rules : List ForgeRule := []
  deriving DecidableEq, Inhabited, Repr

structure BuildConfig where
  rustflags : String -- space-separated
  env : EnvMap
  features : List String

def gigabyte : Rat := 1024 * 1024 * 1024

-- The cast to a double rounds, the division by a power of two does not.
def gigabytes (bytes : Nat) : F64 := .finite (F64.roundNat bytes / gigabyte)

namespace ForgeRule

variable (rule : ForgeRule) (hardware : HardwareProfile)

-- One predicate per criterion; an absent criterion holds of every profile.

def cpuFlagsOk : Bool :=
  match rule.cpuFlags with
  | some reqFlags => reqFlags.all fun f => hardware.cpu.flags.contains f
  | none => true

def coresOk : Bool :=
  match rule.minCores with
  | some minCores => !decide (hardware.cpu.coreCount < minCores)
  | none => true

def memoryOk : Bool :=
  match rule.minMemoryGb with
  | some minMem => !decide (gigabytes hardware.memory.totalBytes < minMem)
  | none => true

def bandwidthOk : Bool :=
  match rule.minMemoryBandwidth with
  | some minBw => !decide ((hardware.memory.bandwidthMbs : F64) < minBw)
  | none => true

def ioUringOk : Bool :=
  match rule.requireIoUring with
  | some reqUring => !(hardware.storage.ioUring != reqUring)
  | none => true

def oDirectOk : Bool :=
  match rule.requireODirect with
  | some reqDirect => !(hardware.storage.oDirect != reqDirect)
  | none => true

def storageReadOk : Bool :=
  match rule.minStorageReadMbs with
  | some minRead => !decide ((hardware.storage.readSpeedMbs : F64) < minRead)
  | none => true

def gpuVramOk : Bool :=
  match rule.minGpuVramGb with
  | some minVram =>
    hardware.gpu.devices.any fun dev => decide (gigabytes dev.vramBytes ≥ minVram)
  | none => true

def cpuBaseFreqOk : Bool :=
  match rule.minCpuBaseFreqMhz with
  | some minBase =>
    match hardware.cpu.cpuBaseFreqMhz with
    | some freq => decide (freq ≥ minBase)
    | none => false
  | none => true

def cpuMaxFreqOk : Bool :=
  match rule.minCpuMaxFreqMhz with
  | some minMax =>
    match hardware.cpu.cpuMaxFreqMhz with
    | some freq => decide (freq ≥ minMax)
    | none => false
  | none => true

def numaNodesOk : Bool :=
  match rule.minNumaNodes with
  | some minNodes => !decide (hardware.numa.nodeCount < minNodes)
  | none => true

def cacheLineSizeOk : Bool :=
  match rule.requireCacheLineSize with
  | some reqLineSize =>
    match hardware.cpu.cacheLineSize with
    | some lineSize => decide (lineSize = reqLineSize)
    | none => false
  | none => true

def matched : Bool :=
  rule.cpuFlagsOk hardware && rule.coresOk hardware && rule.memoryOk hardware
    && rule.bandwidthOk hardware && rule.ioUringOk hardware && rule.oDirectOk hardware
    && rule.storageReadOk hardware && rule.gpuVramOk hardware && rule.cpuBaseFreqOk hardware
    && rule.cpuMaxFreqOk hardware && rule.numaNodesOk hardware && rule.cacheLineSizeOk hardware

end ForgeRule

def blocklist : List String := [
  "KOVAL_DB",
  "KOVAL_ADMIN_TOKEN",
  "KOVAL_WEBHOOK_URL",
  "KOVAL_WEBHOOK_SECRET",
  "KOVAL_RATE_LIMIT",
  "KOVAL_QUEUE_CAPACITY",
  "KOVAL_PORT",
  "KOVAL_BCRYPT_COST"
]

namespace buildConfig

-- What the rules looked at so far have contributed.
structure Collected where
  flags : List String
  env : EnvMap
  features : List String

def insertEnv (env : EnvMap) (entries : List (String × String)) : EnvMap :=
  entries.foldl (fun env (k, v) => if blocklist.contains k then env else env.insert k v) env

def applyRule (rule : ForgeRule) (acc : Collected) : Collected :=
  {
    flags := acc.flags ++ rule.rustflags.getD []
    env := insertEnv acc.env (rule.env.getD [])
    features := acc.features ++ rule.features.getD []
  }

def go (hardware : HardwareProfile) (rules : List ForgeRule) (acc : Collected) : Collected :=
  match rules with
  | [] => acc
  | rule :: rules =>
    if rule.matched hardware then
      go hardware rules (applyRule rule acc)
    else
      go hardware rules acc

end buildConfig

def buildConfig (hardware : HardwareProfile) (config : KovalToml) : BuildConfig :=
  let collected := buildConfig.go hardware config.rules ⟨[], .empty, []⟩
  {
    rustflags := " ".intercalate collected.flags
    env := collected.env
    features := (collected.features.insertionSort (· ≤ ·)).destutter (· ≠ ·)
  }

end Koval
