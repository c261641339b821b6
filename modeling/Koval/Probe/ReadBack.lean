import Koval.Probe.Kernel

/-!
This module contains that the probe reads back what the kernel writes.
-/

namespace Koval

namespace Kernel

open Text (isWhiteSpace trim unlines IsField splitWhitespace parseU32 parseU64)

theorem notMem_of_blank {text : List Char} (h : ∀ c ∈ text, isWhiteSpace c → c = ' ')
    : '\n' ∉ text ∧ '\r' ∉ text := by
  constructor
  . intro hmem
    have := h _ hmem rfl
    contradiction
  . intro hmem
    have := h _ hmem rfl
    contradiction

theorem blank_of_isField {text : List Char} (h : IsField text)
    : ∀ c ∈ text, isWhiteSpace c → c = ' ' := by
  intro c hc hwhite
  rw [h.plain c hc] at hwhite
  contradiction

-- What a text starts with comes before its first colon.
theorem prefix_append_colon_iff {start key rest : List Char} (hstart : ':' ∉ start)
    : start <+: key ++ ':' :: rest ↔ start <+: key := by
  constructor
  . intro h
    rcases List.prefix_or_prefix_of_prefix h (List.prefix_append key _) with hpre | ⟨more, rfl⟩
    . exact hpre
    . rw [List.prefix_append_right_inj] at h
      cases more with
      | nil => rw [List.append_nil]
      | cons c more =>
        rw [List.cons_prefix_cons] at h
        simp [h.left] at hstart
  . exact fun h => h.trans (List.prefix_append key _)

theorem colon_prefix_iff {start key rest : List Char} (hstart : ':' ∉ start) (hkey : ':' ∉ key)
    : start ++ [':'] <+: key ++ ':' :: rest ↔ key = start := by
  constructor
  . rintro ⟨more, h⟩
    rw [List.append_assoc, List.singleton_append,
      Separator.append_cons_inj_left hstart hkey] at h
    exact h.left.symm
  . rintro rfl
    exact ⟨rest, by rw [List.append_assoc, List.singleton_append]⟩

namespace MeminfoEntry

variable (entry : MeminfoEntry)

theorem colon_notMem_key : ':' ∉ entry.key := fun h => (entry.key_plain _ h).right rfl

theorem isField_key : IsField (entry.key ++ [':']) where
  nonempty := by simp
  plain := by
    rw [List.forall_mem_append]
    exact ⟨fun c hc => (entry.key_plain c hc).left, by simp [isWhiteSpace]⟩

theorem splitWhitespace_print
    : splitWhitespace entry.print
        =
      (entry.key ++ [':']) :: Nat.toDigits 10 entry.amount
        :: if entry.unit then ["kB".toList] else [] := by
  have hkey : entry.print = entry.key ++ [':'] ++ (List.replicate entry.blanks ' '
      ++ (Nat.toDigits 10 entry.amount ++ if entry.unit then " kB".toList else [])) := by
    unfold print
    rw [List.append_assoc, List.singleton_append]
  have hunit : IsField "kB".toList := ⟨by simp, by simp [isWhiteSpace]⟩
  rw [hkey, entry.isField_key.splitWhitespace_blanks _ entry.blanks_pos]
  split
  . have hblank : " kB".toList = ' ' :: "kB".toList := rfl
    rw [hblank, (Text.isField_toDigits _).splitWhitespace_cons, hunit.splitWhitespace_eq]
  . rw [List.append_nil, (Text.isField_toDigits _).splitWhitespace_eq]

theorem blank_of_mem_print : ∀ c ∈ entry.print, isWhiteSpace c → c = ' ' := by
  unfold print
  rw [List.forall_mem_append, List.forall_mem_cons, List.forall_mem_append, List.forall_mem_append]
  refine ⟨?_, ?_, ?_, blank_of_isField (Text.isField_toDigits _), ?_⟩
  . intro c hc hwhite
    rw [(entry.key_plain c hc).left] at hwhite
    contradiction
  . intro hwhite
    contradiction
  . intro c hc _
    exact List.eq_of_mem_replicate hc
  . split
    . simp [isWhiteSpace]
    . simp

theorem parseMeminfoLine_print : Memory.parseMeminfoLine entry.print = entry.amount * 1024 := by
  have hlt := entry.amount_lt
  unfold Memory.parseMeminfoLine
  rw [entry.splitWhitespace_print]
  simp only [List.getElem?_cons_succ, List.getElem?_cons_zero]
  rw [Text.parseU64_toDigits (by omega)]
  dsimp only
  rw [Nat.mod_eq_of_lt (by omega)]

theorem prefix_print_iff {key : List Char} (hkey : ':' ∉ key)
    : key ++ [':'] <+: entry.print ↔ entry.key = key :=
  colon_prefix_iff hkey entry.colon_notMem_key

theorem splitWhitespace_printOf (id : Nat)
    : splitWhitespace (entry.printOf id)
        =
      "Node".toList :: Nat.toDigits 10 id :: splitWhitespace entry.print := by
  have hnode : IsField "Node".toList := ⟨by simp, by simp [isWhiteSpace]⟩
  have hline : entry.printOf id
      = "Node".toList ++ ' ' :: (Nat.toDigits 10 id ++ ' ' :: entry.print) := by
    unfold printOf
    rw [List.append_assoc]
    rfl
  rw [hline, hnode.splitWhitespace_cons, (Text.isField_toDigits id).splitWhitespace_cons]

theorem blank_of_mem_printOf (id : Nat) : ∀ c ∈ entry.printOf id, isWhiteSpace c → c = ' ' := by
  unfold printOf
  rw [List.forall_mem_append, List.forall_mem_append, List.forall_mem_cons]
  exact ⟨⟨by simp [isWhiteSpace], blank_of_isField (Text.isField_toDigits id)⟩, fun _ => rfl,
    entry.blank_of_mem_print⟩

theorem toDigits_ne_total (n : Nat) : Nat.toDigits 10 n ≠ "MemTotal:".toList := by
  intro heq
  have hmem : 'M' ∈ Nat.toDigits 10 n := by
    rw [heq]
    exact List.mem_cons_self
  have hdigit : 'M'.isDigit := Nat.isDigit_of_mem_toDigits (by decide) (by decide) hmem
  contradiction

theorem notMem_splitWhitespace_print {entry : MeminfoEntry} (h : entry.key ≠ "MemTotal".toList)
    : "MemTotal:".toList ∉ splitWhitespace entry.print := by
  have hkey : "MemTotal:".toList ≠ entry.key ++ [':'] := by
    intro heq
    have hsplit : "MemTotal:".toList = "MemTotal".toList ++ [':'] := rfl
    rw [hsplit, List.append_cancel_right_eq] at heq
    exact h heq.symm
  rw [entry.splitWhitespace_print, List.mem_cons, List.mem_cons, not_or, not_or]
  refine ⟨hkey, (toDigits_ne_total _).symm, ?_⟩
  split <;> simp

-- The name is the third word of the line, and no other word is this name.
theorem returns?_printOf (id : Nat)
    : Numa.parseMeminfoTotalMb.returns? (String.ofList (entry.printOf id))
        =
      if entry.key = "MemTotal".toList then some (entry.amount / 1024) else none := by
  have hnode : "Node".toList ≠ "MemTotal:".toList := by decide
  have hline : (String.ofList (entry.printOf id)).toList = entry.printOf id := String.toList_ofList
  have hwords := entry.splitWhitespace_printOf id
  unfold Numa.parseMeminfoTotalMb.returns?
  dsimp only
  rw [hline]
  by_cases htotal : entry.key = "MemTotal".toList
  . have hprint : "MemTotal:".toList <+: entry.print :=
      (@prefix_print_iff entry "MemTotal".toList (by decide)).mpr htotal
    have hwithin : "MemTotal:".toList <:+: entry.printOf id :=
      hprint.isInfix.trans ((List.suffix_cons ' ' _).trans (List.suffix_append _ _)).isInfix
    have hlt := entry.amount_lt
    rw [entry.splitWhitespace_print, htotal] at hwords
    have hpos : (splitWhitespace (entry.printOf id)).idxOf? "MemTotal:".toList = some 2 := by
      rw [hwords, List.idxOf?_cons, List.idxOf?_cons, List.idxOf?_cons, beq_false_of_ne hnode,
        beq_false_of_ne (toDigits_ne_total id)]
      rfl
    have hpart : (splitWhitespace (entry.printOf id))[2 + 1]?
        = some (Nat.toDigits 10 entry.amount) := by
      rw [hwords]
      rfl
    rw [if_pos htotal, if_pos hwithin, hpos, Option.bind_eq_bind, Option.bind_some, hpart,
      Option.bind_eq_bind, Option.bind_some, Text.parseU64_toDigits (by omega)]
    rfl
  . have hnotMem : "MemTotal:".toList ∉ splitWhitespace (entry.printOf id) := by
      rw [hwords, List.mem_cons, List.mem_cons, not_or, not_or]
      exact ⟨hnode.symm, (toDigits_ne_total id).symm, notMem_splitWhitespace_print htotal⟩
    rw [if_neg htotal, List.idxOf?_eq_none_iff.mpr hnotMem, Option.bind_eq_bind, Option.bind_none,
      ite_self]

end MeminfoEntry

namespace Meminfo

variable (meminfo : Meminfo)

theorem lines_print
    : Text.lines meminfo.print = meminfo.entries.map fun entry => String.ofList entry.print := by
  have hblank : ∀ line ∈ meminfo.entries.map (·.print), '\n' ∉ line ∧ '\r' ∉ line := by
    intro line hline
    rcases List.mem_map.mp hline with ⟨entry, _, rfl⟩
    exact notMem_of_blank entry.blank_of_mem_print
  unfold print
  rw [Text.lines_unlines hblank, List.map_map]
  rfl

theorem step_print (entry : MeminfoEntry) (sizes : Nat × Nat)
    : Memory.collectRamSizes.step sizes (String.ofList entry.print)
        =
      if entry.key = "MemTotal".toList then
        (entry.amount * 1024, sizes.snd)
      else if entry.key = "MemAvailable".toList then
        (sizes.fst, entry.amount * 1024)
      else
        sizes := by
  have htotal : "MemTotal:".toList <+: entry.print ↔ entry.key = "MemTotal".toList :=
    @MeminfoEntry.prefix_print_iff entry "MemTotal".toList (by decide)
  have havailable : "MemAvailable:".toList <+: entry.print ↔ entry.key = "MemAvailable".toList :=
    @MeminfoEntry.prefix_print_iff entry "MemAvailable".toList (by decide)
  unfold Memory.collectRamSizes.step
  rw [@String.toList_ofList entry.print, entry.parseMeminfoLine_print]
  simp only [htotal, havailable]

-- No name comes twice, so that the last line with a name is the first one.
theorem foldl_step {entries : List MeminfoEntry} (hnodup : (entries.map (·.key)).Nodup)
    (sizes : Nat × Nat)
    : (entries.map fun entry => String.ofList entry.print).foldl Memory.collectRamSizes.step sizes
        =
      (((entries.find? (·.key = "MemTotal".toList)).map (·.amount * 1024)).getD sizes.fst,
        ((entries.find? (·.key = "MemAvailable".toList)).map (·.amount * 1024)).getD
          sizes.snd) := by
  induction entries generalizing sizes with
  | nil => rfl
  | cons entry entries ih =>
    rw [List.map_cons, List.nodup_cons] at hnodup
    have hnone {key : List Char} (hkey : entry.key = key)
        : entries.find? (·.key = key) = none := by
      rw [List.find?_eq_none]
      intro other hother
      rw [decide_eq_true_eq, ← hkey]
      intro heq
      exact hnodup.left (List.mem_map.mpr ⟨other, hother, heq⟩)
    rw [List.map_cons, List.foldl_cons, ih hnodup.right, step_print, List.find?_cons,
      List.find?_cons]
    by_cases htotal : entry.key = "MemTotal".toList
    . have hother : "MemTotal".toList ≠ "MemAvailable".toList := by decide
      rw [if_pos htotal, decide_eq_true htotal, hnone htotal, htotal, decide_eq_false hother]
      rfl
    . rw [if_neg htotal, decide_eq_false htotal]
      by_cases havailable : entry.key = "MemAvailable".toList
      . rw [if_pos havailable, decide_eq_true havailable, hnone havailable]
        rfl
      . rw [if_neg havailable, decide_eq_false havailable]

theorem amount_eq (key : String)
    : ((meminfo.entries.find? (·.key = key.toList)).map (·.amount * 1024)).getD 0
        =
      meminfo.amount key * 1024 := by
  unfold amount
  cases meminfo.entries.find? (·.key = key.toList) with
  | none => exact (Nat.zero_mul 1024).symm
  | some entry => rfl

theorem collectRamSizes_print
    : (Text.lines meminfo.print).foldl Memory.collectRamSizes.step (0, 0)
        =
      (meminfo.amount "MemTotal" * 1024, meminfo.amount "MemAvailable" * 1024) := by
  rw [meminfo.lines_print, foldl_step meminfo.nodup, meminfo.amount_eq, meminfo.amount_eq]

theorem parseMeminfoTotalMb_printOf (id : Nat)
    : Numa.parseMeminfoTotalMb (meminfo.printOf id) = meminfo.amount "MemTotal" / 1024 := by
  have hblank : ∀ line ∈ meminfo.entries.map (·.printOf id), '\n' ∉ line ∧ '\r' ∉ line := by
    intro line hline
    rcases List.mem_map.mp hline with ⟨entry, _, rfl⟩
    exact notMem_of_blank (entry.blank_of_mem_printOf id)
  unfold Numa.parseMeminfoTotalMb amount printOf
  rw [Text.lines_unlines hblank, List.map_map]
  induction meminfo.entries with
  | nil => rfl
  | cons entry entries ih =>
    rw [List.map_cons, Function.comp_apply, List.findSome?_cons, entry.returns?_printOf,
      List.find?_cons]
    by_cases htotal : entry.key = "MemTotal".toList
    . rw [if_pos htotal, decide_eq_true htotal]
      rfl
    . rw [if_neg htotal, decide_eq_false htotal]
      exact ih

end Meminfo

namespace CpuinfoEntry

variable (entry : CpuinfoEntry)

theorem notMem_print : '\n' ∉ entry.print ∧ '\r' ∉ entry.print := by
  have hfields : ∀ c ∈ entry.fields.flatMap (' ' :: ·), isWhiteSpace c → c = ' ' := by
    intro c hc hwhite
    rw [List.mem_flatMap] at hc
    rcases hc with ⟨field, hfield, hc⟩
    rw [List.mem_cons] at hc
    rcases hc with rfl | hc
    . rfl
    . exact blank_of_isField (entry.fields_plain field hfield) c hc hwhite
  have hrest := notMem_of_blank hfields
  unfold print
  rw [List.mem_append, List.mem_append, not_or, not_or, List.mem_cons, List.mem_cons, not_or,
    not_or]
  exact ⟨⟨fun h => (entry.key_plain _ h).right.left rfl, by decide, hrest.left⟩,
    fun h => (entry.key_plain _ h).right.right rfl, by decide, hrest.right⟩

theorem tail_dropWhile_print
    : (entry.print.dropWhile (· ≠ ':')).tail = entry.fields.flatMap (' ' :: ·) := by
  unfold print
  rw [List.dropWhile_append_of_pos fun c hc => decide_eq_true (entry.key_plain c hc).left]
  rfl

theorem go_print (lines : List String)
    : Cpu.collectCpuFlags.go (String.ofList entry.print :: lines)
        =
      if entry.IsFlags then entry.fields.map String.ofList else Cpu.collectCpuFlags.go lines := by
  have hline : (String.ofList entry.print).toList = entry.print := String.toList_ofList
  have hflags : "flags".toList <+: entry.print ↔ "flags".toList <+: entry.key :=
    prefix_append_colon_iff (by decide)
  have hfeatures : "Features".toList <+: entry.print ↔ "Features".toList <+: entry.key :=
    prefix_append_colon_iff (by decide)
  have hcolon : ':' ∈ entry.print := List.mem_append_right _ List.mem_cons_self
  rw [Cpu.collectCpuFlags.go, hline, if_pos hcolon, entry.tail_dropWhile_print,
    Text.splitWhitespace_flatMap entry.fields_plain]
  simp only [hflags, hfeatures, IsFlags]

end CpuinfoEntry

theorem go_lines (processors : List (List CpuinfoEntry))
    : Cpu.collectCpuFlags.go ((processors.flatMap fun entries => entries.map (·.print) ++ [[]]).map
          String.ofList)
        =
      ((processors.flatten.find? fun entry => entry.IsFlags).map
        fun entry => entry.fields.map String.ofList).getD [] := by
  induction processors with
  | nil => rfl
  | cons entries processors ih =>
    rw [List.flatMap_cons, List.append_assoc, List.map_append, List.flatten_cons]
    induction entries with
    | nil => exact ih
    | cons entry entries ihEntries =>
      rw [List.map_cons, List.map_cons, List.cons_append, List.cons_append, entry.go_print,
        List.cons_append, List.find?_cons]
      by_cases hflags : entry.IsFlags
      . rw [if_pos hflags, decide_eq_true hflags]
        rfl
      . rw [if_neg hflags, decide_eq_false hflags]
        exact ihEntries

theorem Machine.go_printCpuinfo (machine : Machine)
    : Cpu.collectCpuFlags.go (Text.lines (printCpuinfo machine.processors)) = machine.flags := by
  have hplain : ∀ line ∈ machine.processors.flatMap fun entries => entries.map (·.print) ++ [[]],
      '\n' ∉ line ∧ '\r' ∉ line := by
    intro line hline
    rcases List.mem_flatMap.mp hline with ⟨entries, _, hline⟩
    rw [List.mem_append, List.mem_map, List.mem_singleton] at hline
    rcases hline with ⟨entry, _, rfl⟩ | rfl
    . exact entry.notMem_print
    . exact ⟨List.not_mem_nil, List.not_mem_nil⟩
  unfold printCpuinfo flags
  rw [Text.lines_unlines hplain, go_lines]

theorem trim_append_newline {text : List Char} (h : ∀ c ∈ text, isWhiteSpace c = false)
    : trim (text ++ "\n".toList) = text :=
  Text.trim_append_of_isWhiteSpace h (by simp [isWhiteSpace])

theorem toString_toList (n : Nat) : (toString n).toList = Nat.toDigits 10 n := by
  rw [Nat.toString_eq_repr, Nat.repr]
  exact String.toList_ofList

theorem ofList_trim {text : String} (h : ∀ c ∈ text.toList, isWhiteSpace c = false)
    : String.ofList (trim (text ++ "\n").toList) = text := by
  rw [String.toList_append, trim_append_newline h, String.ofList_toList]

theorem trim_toString (n : Nat) : trim (toString n ++ "\n").toList = Nat.toDigits 10 n := by
  rw [String.toList_append, toString_toList]
  exact trim_append_newline (Text.isField_toDigits n).plain

theorem Node.parseDistances_print (node : Node)
    : Numa.parseDistances (node.printDistances ++ "\n") = node.distances := by
  have hfields : ∀ field ∈ node.distances.map (Nat.toDigits 10), IsField field := by
    intro field hfield
    rcases List.mem_map.mp hfield with ⟨distance, _, rfl⟩
    exact Text.isField_toDigits distance
  have hend : "\n".toList = '\n' :: [] := rfl
  unfold Numa.parseDistances printDistances
  rw [String.toList_append, String.toList_ofList, hend, Text.splitWhitespace_append_cons _ _ rfl,
    Text.splitWhitespace_intercalate hfields, List.filterMap_append, List.filterMap_map]
  have hparse : ∀ distance ∈ node.distances,
      (parseU32 ∘ Nat.toDigits 10) distance = some distance :=
    fun distance hdistance => (Text.isDecimal_toDigits (node.distances_lt _ hdistance)).parseU32
  rw [List.filterMap_congr hparse, List.filterMap_some]
  exact List.append_nil _

section

variable {read : KernelFiles} {path text : String} {α : Type}

theorem Shows.map_eq (h : Shows read path text) (f : String → α)
    : (read path).map f = seen read path (f text) := by
  unfold seen
  cases hread : read path with
  | none => rfl
  | some content => rw [h content hread, Option.map_some, Option.map_some]

theorem Shows.bind_eq (h : Shows read path text) {f : String → Option α} {value : α}
    (hvalue : f text = some value)
    : (read path).bind f = seen read path value := by
  unfold seen
  cases hread : read path with
  | none => rfl
  | some content => rw [h content hread, Option.bind_some, hvalue, Option.map_some]

theorem Shows.readMhz_eq {khz : Nat} (h : Shows read path (toString khz ++ "\n"))
    (hlt : khz < 2 ^ 64)
    : Cpu.readMhz read path = seen read path (khz / 1000) := by
  apply h.bind_eq
  rw [trim_toString, Text.parseU64_toDigits hlt]
  rfl

theorem Shows.readCacheLineSize_eq {size : Nat} (h : Shows read path (toString size ++ "\n"))
    (hlt : size < 2 ^ 64)
    : Cpu.readCacheLineSize read path = seen read path size := by
  apply h.bind_eq
  rw [trim_toString, Text.parseU64_toDigits hlt]

theorem Cache.Shown.cacheLabel_eq {cache : Cache} {dir : String} (h : cache.Shown read dir)
    : Cpu.cacheLabel read dir = cache.seen read dir := by
  have hlevel : String.ofList (trim (toString cache.level ++ "\n").toList) = toString cache.level :=
    ofList_trim (by rw [toString_toList]; exact (Text.isField_toDigits _).plain)
  have htype : String.ofList (trim (cache.printType ++ "\n").toList) = cache.printType := by
    apply ofList_trim
    unfold Cache.printType
    cases cache.type <;> simp [isWhiteSpace]
  have hsize : String.ofList (trim (cache.printSize ++ "\n").toList) = cache.printSize := by
    apply ofList_trim
    unfold Cache.printSize
    rw [String.toList_append, toString_toList, List.forall_mem_append]
    exact ⟨(Text.isField_toDigits _).plain, by simp [isWhiteSpace]⟩
  unfold Cpu.cacheLabel Cache.seen
  cases hreadLevel : read (dir ++ "/level") with
  | none => simp [hreadLevel]
  | some level =>
    cases hreadType : read (dir ++ "/type") with
    | none => simp [hreadType]
    | some type =>
      cases hreadSize : read (dir ++ "/size") with
      | none => simp [hreadSize]
      | some size =>
        rw [h.level level hreadLevel, h.type type hreadType, h.size size hreadSize]
        simp only [Option.bind_eq_bind, Option.bind_some, hlevel, htype, hsize]
        rw [if_pos (by simp [hreadLevel, hreadType, hreadSize])]
        unfold Cache.label Cache.printType
        cases cache.type <;> rfl

section

variable {machine : Machine} (h : machine.Shown read)
include h

theorem Machine.Shown.collectCpuFlags_eq
    : Cpu.collectCpuFlags read = (seen read "/proc/cpuinfo" machine.flags).getD [] := by
  unfold Cpu.collectCpuFlags seen
  cases hread : read "/proc/cpuinfo" with
  | none => rfl
  | some content =>
    rw [h.cpuinfo content hread]
    exact machine.go_printCpuinfo

theorem Machine.Shown.collectCacheTopology_eq
    : Cpu.collectCacheTopology read
        =
      if machine.cacheLabels read = [] then
        "Unknown"
      else
        ", ".intercalate (machine.cacheLabels read) := by
  have hlabels : ((List.range 4).filterMap fun index =>
        Cpu.cacheLabel read ("/sys/devices/system/cpu/cpu0/cache/index" ++ toString index))
      = machine.cacheLabels read :=
    List.filterMap_congr fun index hindex =>
      (h.cache index (List.mem_range.mp hindex)).cacheLabel_eq
  unfold Cpu.collectCacheTopology
  dsimp only
  rw [hlabels]

theorem Machine.Shown.readKernelVersion_eq
    : Cpu.readKernelVersion read "/proc/version"
        =
      seen read "/proc/version" (String.ofList machine.version) := by
  have hplain := machine.version_plain
  have hlines : Text.lines (String.ofList machine.version ++ "\n")
      = [String.ofList machine.version] := by
    have hone : String.ofList machine.version ++ "\n"
        = String.ofList (unlines [machine.version]) := by
      rw [← String.toList_inj, String.toList_append, String.toList_ofList, String.toList_ofList]
      simp [unlines]
    have hline : ∀ line ∈ [machine.version], '\n' ∉ line ∧ '\r' ∉ line := by
      rw [List.forall_mem_singleton]
      exact ⟨fun hmem => (hplain _ hmem).left rfl, fun hmem => (hplain _ hmem).right rfl⟩
    rw [hone, Text.lines_unlines hline]
    rfl
  apply h.version.bind_eq
  rw [hlines]
  simp [machine.version_trim]

theorem Machine.Shown.collectRamSizes_eq
    : Memory.collectRamSizes read
        =
      ((seen read "/proc/meminfo" (machine.meminfo.amount "MemTotal" * 1024)).getD 0,
        (seen read "/proc/meminfo" (machine.meminfo.amount "MemAvailable" * 1024)).getD 0) := by
  unfold Memory.collectRamSizes seen
  cases hread : read "/proc/meminfo" with
  | none => rfl
  | some content =>
    rw [h.meminfo content hread]
    exact machine.meminfo.collectRamSizes_print

end

theorem isWhiteSpace_printRangeList (ids : Finset Nat)
    : ∀ c ∈ (parseRangeList.printRangeList ids).toList, isWhiteSpace c = false := by
  unfold parseRangeList.printRangeList
  rw [String.toList_ofList]
  have hrun (run : Nat × Nat) : ∀ c ∈ parseRangeList.printRun run, isWhiteSpace c = false :=
    parseRangeList.forall_mem_printRun (fun _ hc => Text.isWhiteSpace_of_isDigit hc) rfl run
  induction parseRangeList.runs ids.sort with
  | nil => simp
  | cons run rest ih =>
    cases rest with
    | nil => simpa [List.intercalate] using hrun run
    | cons next rest =>
      rw [List.map_cons] at ih ⊢
      rw [List.map_cons, List.intercalate_cons_cons, List.forall_mem_append, List.forall_mem_append]
      exact ⟨⟨hrun run, by simp [isWhiteSpace]⟩, ih⟩

theorem Node.Shown.readNode_eq {node : Node} {id : Nat} {basePath : String}
    (h : node.Shown read id (basePath ++ "/node" ++ toString id))
    : Numa.readNode read basePath id = node.seen read id (basePath ++ "/node" ++ toString id) := by
  unfold Numa.readNode Node.seen
  dsimp only
  rw [h.cpulist.map_eq, h.meminfo.map_eq, h.distance.map_eq,
    ofList_trim (isWhiteSpace_printRangeList node.cpus), node.meminfo.parseMeminfoTotalMb_printOf,
    node.parseDistances_print]

theorem Machine.Shown.collect_eq {machine : Machine} (h : machine.Shown read)
    : Numa.collect read
        =
      (seen read "/sys/devices/system/node/online" (machine.numa read)).getD ⟨0, []⟩ := by
  unfold Numa.collect Numa.collectInternal seen
  have hpath : "/sys/devices/system/node" ++ "/online" = "/sys/devices/system/node/online" := rfl
  rw [hpath]
  cases hread : read "/sys/devices/system/node/online" with
  | none => rfl
  | some content =>
    dsimp only
    rw [h.online content hread,
      parseRangeList.parseRangeList_printRangeList machine.nodes_lt (by simp [isWhiteSpace]),
      List.length_map, Finset.length_sort, Option.map_some, Option.getD_some]
    unfold Machine.numa
    congr 1
    apply List.map_congr_left
    intro id hid
    exact (h.node id ((Finset.mem_sort _).mp hid)).readNode_eq

end

end Kernel

namespace Kernel.Samples

def meminfo : Meminfo where
  entries := [
    ⟨"MemTotal".toList, 7, 16345672, true, by simp [Text.isWhiteSpace], by decide, by decide⟩,
    ⟨"HugePages_Free".toList, 1, 0, false, by simp [Text.isWhiteSpace], by decide, by decide⟩,
    ⟨"MemAvailable".toList, 3, 435672, true, by simp [Text.isWhiteSpace], by decide, by decide⟩]
  nodup := by decide

def node (id : Nat) : Node where
  cpus := if id = 0 then {0, 1, 2, 5} else {3, 4}
  meminfo := meminfo
  distances := [10, 21]
  distances_lt := by decide

def surroundings : Surroundings where
  sysPathExists path := path == "/sys/module/io_uring"
  availableParallelism := some 6
  ramBandwidth := 9000
  latency workingSet _ := some workingSet
  oDirect := true
  diskBenchmark _ := (800, 400)
  gpu := ⟨[]⟩

theorem isField_of_all {text : List Char} (h : text ≠ [] ∧ text.all fun c => !Text.isWhiteSpace c)
    : Text.IsField text where
  nonempty := h.left
  plain c hc := by simpa using List.all_eq_true.mp h.right c hc

def flags : CpuinfoEntry where
  key := "flags\t\t".toList
  fields := ["fpu".toList, "avx2".toList]
  key_plain := by simp
  fields_plain := by
    rw [List.forall_mem_cons, List.forall_mem_singleton]
    exact ⟨isField_of_all (by decide), isField_of_all (by decide)⟩

def machine : Machine where
  processors := [[⟨"cache_alignment\t".toList, [], by simp, by simp⟩, flags], [flags]]
  caches index := ⟨index, .data, 32⟩
  lineSize := 64
  baseKhz := 2400000
  minKhz := 800000
  maxKhz := 4200000
  version := "Linux version 6.1".toList
  meminfo := meminfo
  nodes := {0, 1}
  node := node
  lineSize_lt := by decide
  baseKhz_lt := by decide
  minKhz_lt := by decide
  maxKhz_lt := by decide
  version_plain := by simp
  version_trim := by decide
  nodes_lt := by decide

-- Not every file is there.
def files : KernelFiles := fun path => [
  ("/proc/cpuinfo", printCpuinfo machine.processors),
  ("/proc/meminfo", meminfo.print),
  ("/proc/version", "Linux version 6.1\n"),
  ("/sys/devices/system/cpu/cpu0/cache/index1/level", "1\n"),
  ("/sys/devices/system/cpu/cpu0/cache/index1/type", "Data\n"),
  ("/sys/devices/system/cpu/cpu0/cache/index1/size", "32K\n"),
  ("/sys/devices/system/cpu/cpu0/cpufreq/cpuinfo_min_freq", "800000\n"),
  ("/sys/devices/system/node/online", parseRangeList.printRangeList machine.nodes ++ "\n"),
  ("/sys/devices/system/node/node0/cpulist",
    parseRangeList.printRangeList (node 0).cpus ++ "\n"),
  ("/sys/devices/system/node/node0/meminfo", meminfo.printOf 0),
  ("/sys/devices/system/node/node1/distance", "10 21\n")].lookup path

theorem shows_of_eq {path text : String} (h : files path = some text) : Shows files path text := by
  intro content hcontent
  rw [h] at hcontent
  exact (Option.some.inj hcontent).symm

theorem machine_shown : machine.Shown files where
  cpuinfo := by decide +kernel
  cache index hindex := by
    match index with
    | 0 | 1 | 2 | 3 => exact ⟨by decide +kernel, by decide +kernel, by decide +kernel⟩
  lineSize := by decide +kernel
  baseKhz := by decide +kernel
  minKhz := by decide +kernel
  maxKhz := by decide +kernel
  version := by decide +kernel
  meminfo := by decide +kernel
  online := shows_of_eq rfl
  node := by
    intro id hid
    have hcases : id = 0 ∨ id = 1 := by simpa [machine] using hid
    rcases hcases with rfl | rfl
    . exact ⟨shows_of_eq rfl, by decide +kernel, by decide +kernel⟩
    . exact ⟨by decide +kernel, by decide +kernel, by decide +kernel⟩

end Kernel.Samples

end Koval
