import Mathlib.Data.Rat.Defs

/-!
This module contains the data definitions shared by the probe and the server. Measured numbers
(`f64` in the source) are exact rationals: a profile arrives as JSON, which has no other numbers.
-/

namespace Koval

structure CpuProfile where
  flags : List String
  cacheTopology : String
  coreCount : Nat
  cacheLineSize : Option Nat := none
  kernelVersion : Option String := none
  cpuBaseFreqMhz : Option Nat := none
  cpuMaxFreqMhz : Option Nat := none
  deriving DecidableEq, Inhabited, Repr

structure MemoryProfile where
  totalBytes : Nat
  availableBytes : Nat
  bandwidthMbs : Rat
  latencyNsL1 : Option Rat := none
  latencyNsL2 : Option Rat := none
  latencyNsL3 : Option Rat := none
  latencyNsRam : Option Rat := none
  deriving DecidableEq, Inhabited, Repr

structure StorageProfile where
  ioUring : Bool
  oDirect : Bool
  readSpeedMbs : Rat
  writeSpeedMbs : Rat
  deriving DecidableEq, Inhabited, Repr

structure VulkanDeviceProfile where
  name : String
  vramBytes : Nat
  pcieInfo : Option String
  deriving DecidableEq, Inhabited, Repr

structure GpuProfile where
  devices : List VulkanDeviceProfile
  deriving DecidableEq, Inhabited, Repr

structure NumaNode where
  id : Nat
  cpuList : String
  memoryMb : Nat
  distances : List Nat
  deriving DecidableEq, Inhabited, Repr

structure NumaProfile where
  nodeCount : Nat
  nodes : List NumaNode
  deriving DecidableEq, Inhabited, Repr

structure HardwareProfile where
  cpu : CpuProfile
  memory : MemoryProfile
  storage : StorageProfile
  gpu : GpuProfile
  numa : NumaProfile := default
  deriving DecidableEq, Inhabited, Repr

structure JobRequest where
  hardware : HardwareProfile
  project : String
  gitRef : String
  binary : Option String
  package : Option String
  target : Option String
  pgoPhase : Option String
  deriving DecidableEq, Inhabited, Repr

structure PgoUploadResponse where
  mergedProfileUrl : String
  optimizationJobId : String
  deriving DecidableEq, Repr

-- The values that the status column admits.
inductive Status where
  | queued
  | building
  | done
  | failed
  deriving DecidableEq, Inhabited, Repr

-- The values that the job_type column admits.
inductive JobType where
  | standard
  | pgoInstrument
  | pgoOptimize
  deriving DecidableEq, Inhabited, Repr

structure JobStatus where
  status : Status
  queuedAt : String
  startedAt : Option String
  finishedAt : Option String
  errorMsg : Option String
  position : Option Nat
  jobType : JobType := .standard
  deriving DecidableEq, Repr

structure Token where
  id : Int
  tokenHash : String
  name : String
  createdAt : String
  isActive : Bool
  deriving DecidableEq, Repr

structure WebhookRequest where
  url : String
  secret : String
  deriving DecidableEq, Repr

structure WebhookRecord where
  id : Int
  url : String
  createdAt : String
  isActive : Bool
  deriving DecidableEq, Repr

structure WebhookPayload where
  jobId : String
  status : Status
  finishedAt : Option String
  project : String
  sha256 : Option String
  deriving DecidableEq, Repr

structure JobSummary where
  id : String
  project : String
  gitRef : String
  status : Status
  queuedAt : String
  startedAt : Option String
  finishedAt : Option String
  deriving DecidableEq, Repr

structure TokenRequest where
  name : String
  deriving DecidableEq, Repr

structure TokenResponse where
  id : Int
  plaintextToken : String
  name : String
  deriving DecidableEq, Repr

structure TokenRecord where
  id : Int
  name : String
  createdAt : String
  deriving DecidableEq, Repr

end Koval
