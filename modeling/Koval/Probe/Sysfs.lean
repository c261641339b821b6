import Koval.Probe.Numa
import Koval.Schema
import Koval.Text.Fields
import Mathlib.Data.List.Infix

/-!
This module contains what the probe makes of the files in which the kernel shows the machine. Of the
benchmarks it has only what they say.
-/

namespace Koval

open Text (splitWhitespace parseU32 parseU64 trim)

def KernelFiles := String → Option String

namespace Numa

-- What the loop returns at a line; without it the loop goes on.
def parseMeminfoTotalMb.returns? (line : String) : Option Nat :=
  if "MemTotal:".toList <:+: line.toList then do
    let parts := splitWhitespace line.toList
    let pos ← parts.idxOf? "MemTotal:".toList
    let part ← parts[pos + 1]?
    let kb ← parseU64 part
    return kb / 1024
  else
    none

def parseMeminfoTotalMb (content : String) : Nat :=
  ((Text.lines content).findSome? parseMeminfoTotalMb.returns?).getD 0

def parseDistances (content : String) : List Nat :=
  (splitWhitespace content.toList).filterMap parseU32

def readNode (read : KernelFiles) (basePath : String) (id : Nat) : NumaNode :=
  let cpulistPath := basePath ++ "/node" ++ toString id ++ "/cpulist"
  let meminfoPath := basePath ++ "/node" ++ toString id ++ "/meminfo"
  let distancePath := basePath ++ "/node" ++ toString id ++ "/distance"
  { id := id
    cpuList := ((read cpulistPath).map fun s => String.ofList (trim s.toList)).getD ""
    memoryMb := ((read meminfoPath).map parseMeminfoTotalMb).getD 0
    distances := ((read distancePath).map parseDistances).getD [] }

def collectInternal (read : KernelFiles) (basePath : String) : NumaProfile :=
  match read (basePath ++ "/online") with
  | none => ⟨0, []⟩
  | some onlineContent =>
    let nodes := (parseRangeList onlineContent).map (readNode read basePath)
    ⟨nodes.length % 2 ^ 32, nodes⟩

def collect (read : KernelFiles) : NumaProfile := collectInternal read "/sys/devices/system/node"

end Numa

namespace Cpu

def collectCpuFlags.go (lines : List String) : List String :=
  match lines with
  | [] => []
  | line :: lines =>
    if "flags".toList <+: line.toList ∨ "Features".toList <+: line.toList then
      if ':' ∈ line.toList then
        (splitWhitespace (line.toList.dropWhile (· ≠ ':')).tail).map String.ofList
      else
        go lines
    else
      go lines

def collectCpuFlags (read : KernelFiles) : List String :=
  match read "/proc/cpuinfo" with
  | some content => collectCpuFlags.go (Text.lines content)
  | none => []

def cacheLabel (read : KernelFiles) (cacheDir : String) : Option String := do
  let level ← read (cacheDir ++ "/level")
  let ty ← read (cacheDir ++ "/type")
  let size ← read (cacheDir ++ "/size")
  let tyShort :=
    match String.ofList (trim ty.toList) with
    | "Data" => "d"
    | "Instruction" => "i"
    | _ => ""
  return "L" ++ String.ofList (trim level.toList) ++ tyShort ++ ":"
    ++ String.ofList (trim size.toList)

def collectCacheTopology (read : KernelFiles) : String :=
  let topology := (List.range 4).filterMap fun index =>
    cacheLabel read ("/sys/devices/system/cpu/cpu0/cache/index" ++ toString index)
  if topology = [] then
    "Unknown"
  else
    ", ".intercalate topology

def readCacheLineSize (read : KernelFiles) (path : String) : Option Nat := do
  let content ← read path
  parseU64 (trim content.toList)

def readKernelVersion (read : KernelFiles) (path : String) : Option String := do
  let content ← read path
  let line ← (Text.lines content).head?
  return String.ofList (trim line.toList)

def readMhz (read : KernelFiles) (path : String) : Option Nat := do
  let content ← read path
  let khz ← parseU64 (trim content.toList)
  return khz / 1000

-- The fallback is read if the first file is missing, and also if it has no number.
def readCpuBaseFreq (read : KernelFiles) (basePath fallbackPath : String) : Option Nat :=
  (readMhz read basePath).or (readMhz read fallbackPath)

def readCpuMaxFreq (read : KernelFiles) (path : String) : Option Nat := readMhz read path

def collect (read : KernelFiles) (availableParallelism : Option Nat) : CpuProfile where
  flags := collectCpuFlags read
  cacheTopology := collectCacheTopology read
  coreCount := availableParallelism.getD 1
  cacheLineSize :=
    readCacheLineSize read "/sys/devices/system/cpu/cpu0/cache/index0/coherency_line_size"
  kernelVersion := readKernelVersion read "/proc/version"
  cpuBaseFreqMhz :=
    readCpuBaseFreq read "/sys/devices/system/cpu/cpu0/cpufreq/base_frequency"
      "/sys/devices/system/cpu/cpu0/cpufreq/cpuinfo_min_freq"
  cpuMaxFreqMhz := readCpuMaxFreq read "/sys/devices/system/cpu/cpu0/cpufreq/cpuinfo_max_freq"

end Cpu

namespace Memory

def parseMeminfoLine (line : List Char) : Nat :=
  match (splitWhitespace line)[1]? with
  | some part =>
    match parseU64 part with
    -- the product wraps in a release build
    | some kb => kb * 1024 % 2 ^ 64
    | none => 0
  | none => 0

-- One iteration: of several lines the last one counts.
def collectRamSizes.step (sizes : Nat × Nat) (line : String) : Nat × Nat :=
  if "MemTotal:".toList <+: line.toList then
    (parseMeminfoLine line.toList, sizes.snd)
  else if "MemAvailable:".toList <+: line.toList then
    (sizes.fst, parseMeminfoLine line.toList)
  else
    sizes

def collectRamSizes (read : KernelFiles) : Nat × Nat :=
  match read "/proc/meminfo" with
  | some content => (Text.lines content).foldl collectRamSizes.step (0, 0)
  | none => (0, 0)

def collect (read : KernelFiles) (bandwidth : Rat) (latency : Nat → Nat → Option Rat)
    : MemoryProfile :=
  let (totalBytes, availableBytes) := collectRamSizes read
  { totalBytes
    availableBytes
    bandwidthMbs := bandwidth
    latencyNsL1 := latency (32 * 1024) 10000
    latencyNsL2 := latency (256 * 1024) 5000
    latencyNsL3 :=
      if availableBytes = 0 ∨ availableBytes > 32 * 1024 * 1024 then
        latency (8 * 1024 * 1024) 1000
      else
        none
    latencyNsRam :=
      if availableBytes = 0 ∨ availableBytes > 384 * 1024 * 1024 then
        latency (256 * 1024 * 1024) 100
      else
        none }

end Memory

namespace Storage

def detectIoUringInternal (sysPathExists : String → Bool) (readProcFile : KernelFiles) : Bool :=
  if !sysPathExists "/sys/module/io_uring" then
    false
  else
    match readProcFile "/proc/sys/kernel/io_uring_disabled" with
    | some content => String.ofList (trim content.toList) == "0"
    | none => true

end Storage

/-- What the probe meets besides the files. -/
structure Surroundings where
  sysPathExists : String → Bool
  availableParallelism : Option Nat
  ramBandwidth : Rat
  latency : Nat → Nat → Option Rat
  oDirect : Bool
  diskBenchmark : Bool → Rat × Rat
  gpu : GpuProfile

def probe (around : Surroundings) (read : KernelFiles) : HardwareProfile where
  cpu := Cpu.collect read around.availableParallelism
  memory := Memory.collect read around.ramBandwidth around.latency
  storage :=
    let (readSpeedMbs, writeSpeedMbs) := around.diskBenchmark around.oDirect
    { ioUring := Storage.detectIoUringInternal around.sysPathExists read
      oDirect := around.oDirect
      readSpeedMbs
      writeSpeedMbs }
  gpu := around.gpu
  numa := Numa.collect read

end Koval
