import Koval.Probe.RangeList
import Koval.Probe.Sysfs
import Koval.Text.Separator

/-!
This module contains what the kernel knows of a machine and how it writes it into the files that the
probe reads.
-/

namespace Koval

open Text (isWhiteSpace trim unlines IsField)

namespace Kernel

structure MeminfoEntry where
  key : List Char
  blanks : Nat
  amount : Nat
  -- whether it is counted in kB
  unit : Bool
  key_plain : ∀ c ∈ key, isWhiteSpace c = false ∧ c ≠ ':'
  blanks_pos : 0 < blanks
  -- the bytes have 64 bits
  amount_lt : amount < 2 ^ 54

def MeminfoEntry.print (entry : MeminfoEntry) : List Char :=
  entry.key ++ ':' :: (List.replicate entry.blanks ' '
    ++ (Nat.toDigits 10 entry.amount ++ if entry.unit then " kB".toList else []))

-- The same line in the listing of a node.
def MeminfoEntry.printOf (id : Nat) (entry : MeminfoEntry) : List Char :=
  "Node ".toList ++ Nat.toDigits 10 id ++ ' ' :: entry.print

structure Meminfo where
  entries : List MeminfoEntry
  nodup : (entries.map (·.key)).Nodup

def Meminfo.amount (meminfo : Meminfo) (key : String) : Nat :=
  ((meminfo.entries.find? (·.key = key.toList)).map (·.amount)).getD 0

def Meminfo.print (meminfo : Meminfo) : String :=
  String.ofList (unlines (meminfo.entries.map (·.print)))

def Meminfo.printOf (id : Nat) (meminfo : Meminfo) : String :=
  String.ofList (unlines (meminfo.entries.map (·.printOf id)))

structure CpuinfoEntry where
  key : List Char
  fields : List (List Char)
  key_plain : ∀ c ∈ key, c ≠ ':' ∧ c ≠ '\n' ∧ c ≠ '\r'
  fields_plain : ∀ field ∈ fields, IsField field

namespace CpuinfoEntry

def print (entry : CpuinfoEntry) : List Char :=
  entry.key ++ ':' :: entry.fields.flatMap (' ' :: ·)

def IsFlags (entry : CpuinfoEntry) : Prop :=
  "flags".toList <+: entry.key ∨ "Features".toList <+: entry.key

instance (entry : CpuinfoEntry) : Decidable entry.IsFlags := by
  unfold IsFlags
  infer_instance

end CpuinfoEntry

-- There is an empty line behind each processor.
def printCpuinfo (processors : List (List CpuinfoEntry)) : String :=
  String.ofList (unlines (processors.flatMap fun entries => entries.map (·.print) ++ [[]]))

inductive CacheType where
  | data
  | instruction
  | unified
  deriving DecidableEq

structure Cache where
  level : Nat
  type : CacheType
  sizeKb : Nat

namespace Cache

def printType (cache : Cache) : String :=
  match cache.type with
  | .data => "Data"
  | .instruction => "Instruction"
  | .unified => "Unified"

def printSize (cache : Cache) : String := toString cache.sizeKb ++ "K"

def label (cache : Cache) : String :=
  let letter :=
    match cache.type with
    | .data => "d"
    | .instruction => "i"
    | .unified => ""
  "L" ++ toString cache.level ++ letter ++ ":" ++ cache.printSize

end Cache

structure Node where
  cpus : Finset Nat
  meminfo : Meminfo
  distances : List Nat
  distances_lt : ∀ distance ∈ distances, distance < 2 ^ 32

def Node.printDistances (node : Node) : String :=
  String.ofList ([' '].intercalate (node.distances.map (Nat.toDigits 10)))

structure Machine where
  processors : List (List CpuinfoEntry)
  caches : Nat → Cache
  lineSize : Nat
  baseKhz : Nat
  minKhz : Nat
  maxKhz : Nat
  version : List Char
  meminfo : Meminfo
  nodes : Finset Nat
  node : Nat → Node
  lineSize_lt : lineSize < 2 ^ 64
  baseKhz_lt : baseKhz < 2 ^ 64
  minKhz_lt : minKhz < 2 ^ 64
  maxKhz_lt : maxKhz < 2 ^ 64
  version_plain : ∀ c ∈ version, c ≠ '\n' ∧ c ≠ '\r'
  version_trim : trim version = version
  nodes_lt : ∀ id ∈ nodes, id < 2 ^ 32

def Shows (read : KernelFiles) (path text : String) : Prop :=
  ∀ content, read path = some content → content = text

instance (read : KernelFiles) (path text : String) : Decidable (Shows read path text) :=
  inferInstanceAs (Decidable (∀ content ∈ read path, content = text))

structure Node.Shown (node : Node) (read : KernelFiles) (id : Nat) (dir : String) : Prop where
  cpulist : Shows read (dir ++ "/cpulist") (parseRangeList.printRangeList node.cpus ++ "\n")
  meminfo : Shows read (dir ++ "/meminfo") (node.meminfo.printOf id)
  distance : Shows read (dir ++ "/distance") (node.printDistances ++ "\n")

structure Cache.Shown (cache : Cache) (read : KernelFiles) (dir : String) : Prop where
  level : Shows read (dir ++ "/level") (toString cache.level ++ "\n")
  type : Shows read (dir ++ "/type") (cache.printType ++ "\n")
  size : Shows read (dir ++ "/size") (cache.printSize ++ "\n")

structure Machine.Shown (machine : Machine) (read : KernelFiles) : Prop where
  cpuinfo : Shows read "/proc/cpuinfo" (printCpuinfo machine.processors)
  cache : ∀ index < 4, (machine.caches index).Shown read
    ("/sys/devices/system/cpu/cpu0/cache/index" ++ toString index)
  lineSize : Shows read "/sys/devices/system/cpu/cpu0/cache/index0/coherency_line_size"
    (toString machine.lineSize ++ "\n")
  baseKhz : Shows read "/sys/devices/system/cpu/cpu0/cpufreq/base_frequency"
    (toString machine.baseKhz ++ "\n")
  minKhz : Shows read "/sys/devices/system/cpu/cpu0/cpufreq/cpuinfo_min_freq"
    (toString machine.minKhz ++ "\n")
  maxKhz : Shows read "/sys/devices/system/cpu/cpu0/cpufreq/cpuinfo_max_freq"
    (toString machine.maxKhz ++ "\n")
  version : Shows read "/proc/version" (String.ofList machine.version ++ "\n")
  meminfo : Shows read "/proc/meminfo" machine.meminfo.print
  online : Shows read "/sys/devices/system/node/online"
    (parseRangeList.printRangeList machine.nodes ++ "\n")
  node : ∀ id ∈ machine.nodes, (machine.node id).Shown read id
    ("/sys/devices/system/node" ++ "/node" ++ toString id)

def seen (read : KernelFiles) (path : String) (value : α) : Option α :=
  (read path).map fun _ => value

-- All three files are needed for a label.
def Cache.seen (cache : Cache) (read : KernelFiles) (dir : String) : Option String :=
  if ["/level", "/type", "/size"].all fun file => (read (dir ++ file)).isSome then
    some cache.label
  else
    none

def Node.seen (node : Node) (read : KernelFiles) (id : Nat) (dir : String) : NumaNode where
  id := id
  cpuList :=
    (Kernel.seen read (dir ++ "/cpulist") (parseRangeList.printRangeList node.cpus)).getD ""
  memoryMb := (Kernel.seen read (dir ++ "/meminfo") (node.meminfo.amount "MemTotal" / 1024)).getD 0
  distances := (Kernel.seen read (dir ++ "/distance") node.distances).getD []

namespace Machine

variable (machine : Machine)

def flags : List String :=
  ((machine.processors.flatten.find? fun entry => entry.IsFlags).map
    fun entry => entry.fields.map String.ofList).getD []

def cacheLabels (read : KernelFiles) : List String :=
  (List.range 4).filterMap fun index =>
    (machine.caches index).seen read
      ("/sys/devices/system/cpu/cpu0/cache/index" ++ toString index)

def numa (read : KernelFiles) : NumaProfile where
  nodeCount := machine.nodes.card % 2 ^ 32
  nodes := machine.nodes.sort.map fun id =>
    (machine.node id).seen read id ("/sys/devices/system/node" ++ "/node" ++ toString id)

/-- The profile has what can be read of the machine, and nothing of a file that cannot be read. -/
structure ReadBack (read : KernelFiles) (profile : HardwareProfile) : Prop where
  flags : profile.cpu.flags = (seen read "/proc/cpuinfo" machine.flags).getD []
  cacheTopology : profile.cpu.cacheTopology
    = if machine.cacheLabels read = [] then
        "Unknown"
      else
        ", ".intercalate (machine.cacheLabels read)
  cacheLineSize : profile.cpu.cacheLineSize
    = seen read "/sys/devices/system/cpu/cpu0/cache/index0/coherency_line_size" machine.lineSize
  kernelVersion : profile.cpu.kernelVersion
    = seen read "/proc/version" (String.ofList machine.version)
  cpuBaseFreqMhz : profile.cpu.cpuBaseFreqMhz
    = (seen read "/sys/devices/system/cpu/cpu0/cpufreq/base_frequency" (machine.baseKhz / 1000)).or
        (seen read "/sys/devices/system/cpu/cpu0/cpufreq/cpuinfo_min_freq" (machine.minKhz / 1000))
  cpuMaxFreqMhz : profile.cpu.cpuMaxFreqMhz
    = seen read "/sys/devices/system/cpu/cpu0/cpufreq/cpuinfo_max_freq" (machine.maxKhz / 1000)
  totalBytes : profile.memory.totalBytes
    = (seen read "/proc/meminfo" (machine.meminfo.amount "MemTotal" * 1024)).getD 0
  availableBytes : profile.memory.availableBytes
    = (seen read "/proc/meminfo" (machine.meminfo.amount "MemAvailable" * 1024)).getD 0
  numa : profile.numa
    = (seen read "/sys/devices/system/node/online" (machine.numa read)).getD ⟨0, []⟩

end Machine

end Kernel

end Koval
