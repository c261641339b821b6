import Koval.Schema
import Koval.Text.Json

/-!
This module contains the text of a hardware profile: compact JSON with the fields in the order of
their declaration.
-/

namespace Koval

open JsonText

namespace CpuProfile

def json : Block CpuProfile :=
  (object "flags" (list string.value string_solid).value
    (field "cache_topology" string.value
      (field "core_count" nat
        (field "cache_line_size" (option nat nat_solid)
          (field "kernel_version" (option string.value string_solid)
            (field "cpu_base_freq_mhz" (option nat nat_solid)
              (field "cpu_max_freq_mhz" (option nat nat_solid) close))))))).map
    (fun (flags, topology, cores, line, kernel, base, max, _) =>
      ⟨flags, topology, cores, line, kernel, base, max⟩)
    (fun p =>
      (p.flags, p.cacheTopology, p.coreCount, p.cacheLineSize, p.kernelVersion, p.cpuBaseFreqMhz,
        p.cpuMaxFreqMhz, ()))
    (by intro p; rfl)

end CpuProfile

namespace MemoryProfile

def json : Block MemoryProfile :=
  (object "total_bytes" nat
    (field "available_bytes" nat
      (field "bandwidth_mbs" rat
        (field "latency_ns_l1" (option rat rat_solid)
          (field "latency_ns_l2" (option rat rat_solid)
            (field "latency_ns_l3" (option rat rat_solid)
              (field "latency_ns_ram" (option rat rat_solid) close))))))).map
    (fun (total, available, bandwidth, l1, l2, l3, ram, _) =>
      ⟨total, available, bandwidth, l1, l2, l3, ram⟩)
    (fun p =>
      (p.totalBytes, p.availableBytes, p.bandwidthMbs, p.latencyNsL1, p.latencyNsL2, p.latencyNsL3,
        p.latencyNsRam, ()))
    (by intro p; rfl)

end MemoryProfile

namespace StorageProfile

def json : Block StorageProfile :=
  (object "io_uring" bool.value
    (field "o_direct" bool.value
      (field "read_speed_mbs" rat
        (field "write_speed_mbs" rat close)))).map
    (fun (uring, direct, read, write, _) => ⟨uring, direct, read, write⟩)
    (fun p => (p.ioUring, p.oDirect, p.readSpeedMbs, p.writeSpeedMbs, ()))
    (by intro p; rfl)

end StorageProfile

namespace VulkanDeviceProfile

def json : Block VulkanDeviceProfile :=
  (object "name" string.value
    (field "vram_bytes" nat
      (field "pcie_info" (option string.value string_solid) close))).map
    (fun (name, vram, pcie, _) => ⟨name, vram, pcie⟩)
    (fun p => (p.name, p.vramBytes, p.pcieInfo, ()))
    (by intro p; rfl)

theorem json_solid : json.Solid := map_solid (object_solid _ _ _)

end VulkanDeviceProfile

namespace GpuProfile

def json : Block GpuProfile :=
  (object "devices"
    (list VulkanDeviceProfile.json.value VulkanDeviceProfile.json_solid).value close).map
    (fun (devices, _) => ⟨devices⟩)
    (fun p => (p.devices, ()))
    (by intro p; rfl)

end GpuProfile

namespace NumaNode

def json : Block NumaNode :=
  (object "id" nat
    (field "cpu_list" string.value
      (field "memory_mb" nat
        (field "distances" (list nat nat_solid).value close)))).map
    (fun (id, cpus, memory, distances, _) => ⟨id, cpus, memory, distances⟩)
    (fun p => (p.id, p.cpuList, p.memoryMb, p.distances, ()))
    (by intro p; rfl)

theorem json_solid : json.Solid := map_solid (object_solid _ _ _)

end NumaNode

namespace NumaProfile

def json : Block NumaProfile :=
  (object "node_count" nat
    (field "nodes" (list NumaNode.json.value NumaNode.json_solid).value close)).map
    (fun (count, nodes, _) => ⟨count, nodes⟩)
    (fun p => (p.nodeCount, p.nodes, ()))
    (by intro p; rfl)

end NumaProfile

namespace HardwareProfile

def json : Block HardwareProfile :=
  (object "cpu" CpuProfile.json.value
    (field "memory" MemoryProfile.json.value
      (field "storage" StorageProfile.json.value
        (field "gpu" GpuProfile.json.value
          (field "numa" NumaProfile.json.value close))))).map
    (fun (cpu, memory, storage, gpu, numa, _) => ⟨cpu, memory, storage, gpu, numa⟩)
    (fun p => (p.cpu, p.memory, p.storage, p.gpu, p.numa, ()))
    (by intro p; rfl)

def toJson (profile : HardwareProfile) : String := String.ofList (json.print profile)

def ofJson (text : String) : Option HardwareProfile :=
  match json.read text.toList with
  | some (profile, []) => some profile
  | _ => none

theorem ofJson_toJson (profile : HardwareProfile) : ofJson (toJson profile) = some profile := by
  have hread := json.read_print profile [] trivial
  rw [List.append_nil] at hread
  simp only [ofJson, toJson, String.toList_ofList, hread]

theorem toJson_append_inj {p q : HardwareProfile} {s t : String} (h : toJson p ++ s = toJson q ++ t)
    : p = q ∧ s = t := by
  have := congrArg String.toList h
  simp only [toJson, String.toList_append, String.toList_ofList] at this
  have ⟨hp, hs⟩ := json.print_append_inj trivial trivial this
  exact ⟨hp, String.toList_inj.mp hs⟩

example : toJson default
    = "\x7b\"cpu\":\x7b\"flags\":[],\"cache_topology\":\"\",\"core_count\":0,"
      ++ "\"cache_line_size\":null,\"kernel_version\":null,\"cpu_base_freq_mhz\":null,"
      ++ "\"cpu_max_freq_mhz\":null\x7d,\"memory\":\x7b\"total_bytes\":0,\"available_bytes\":0,"
      ++ "\"bandwidth_mbs\":0.0,\"latency_ns_l1\":null,\"latency_ns_l2\":null,"
      ++ "\"latency_ns_l3\":null,\"latency_ns_ram\":null\x7d,\"storage\":\x7b\"io_uring\":false,"
      ++ "\"o_direct\":false,\"read_speed_mbs\":0.0,\"write_speed_mbs\":0.0\x7d,"
      ++ "\"gpu\":\x7b\"devices\":[]\x7d,\"numa\":\x7b\"node_count\":0,\"nodes\":[]\x7d\x7d" := by
  unfold toJson
  rw [← String.toList_inj, String.toList_ofList]
  simp only [String.toList_append]
  decide +kernel

end HardwareProfile

end Koval
