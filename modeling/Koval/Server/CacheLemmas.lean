import Koval.Text.Separator
import Koval.Server.Routes.Basic
import Koval.Server.Samples

namespace Koval

theorem pipe_notMem_of_isValidCargoName {s : String} (h : isValidCargoName s)
    : '|' ∉ s.toList := by
  unfold isValidCargoName at h
  split at h
  . contradiction
  . split at h
    . contradiction
    . intro hmem
      rw [List.all_eq_true] at h
      have := h '|' hmem
      revert this
      decide

theorem pipe_notMem_of_isSupported {s : String} (h : isSupported s)
    : '|' ∉ s.toList := by
  unfold isSupported at h
  rw [List.contains_iff_mem] at h
  have : ∀ t ∈ supportedTargets, '|' ∉ t.toList := by decide
  exact this s h

def OptionNoPipe (value : Option String) : Prop := ∀ s ∈ value, '|' ∉ s.toList

structure BuildTuple.NamesNoPipe (tuple : BuildTuple) : Prop where
  binary : OptionNoPipe tuple.binary
  package : OptionNoPipe tuple.package
  target : OptionNoPipe tuple.target

theorem optionNoPipe_of_any_eq_false {value : Option String} {p : String → Bool}
    (hp : ∀ {s}, p s → '|' ∉ s.toList) (h : ¬ value.any fun s => !p s)
    : OptionNoPipe value := by
  intro s hs
  rw [Option.mem_def] at hs
  apply hp
  simpa [hs] using h

theorem buildHandler.namesNoPipe_of_validate {payload : JobRequest} {jobType : JobType}
    (h : validate payload = .ok jobType)
    : payload.tuple.NamesNoPipe := by
  unfold validate at h
  split at h
  . contradiction
  . next htarget =>
    split at h
    . contradiction
    . next hbinary =>
      split at h
      . contradiction
      . next hpackage =>
        constructor
        . exact optionNoPipe_of_any_eq_false pipe_notMem_of_isValidCargoName hbinary
        . exact optionNoPipe_of_any_eq_false pipe_notMem_of_isValidCargoName hpackage
        . exact optionNoPipe_of_any_eq_false pipe_notMem_of_isSupported htarget

theorem forgeInstallHandler.namesNoPipe_of_validate {params : ForgeInstallParams}
    (hardware : HardwareProfile) (h : validate params = .ok ())
    : (params.tuple hardware).NamesNoPipe := by
  unfold validate at h
  split at h
  . contradiction
  . next hbinary =>
    split at h
    . contradiction
    . next hpackage =>
      constructor
      . exact optionNoPipe_of_any_eq_false pipe_notMem_of_isValidCargoName hbinary
      . exact optionNoPipe_of_any_eq_false pipe_notMem_of_isValidCargoName hpackage
      . intro s hs
        contradiction

theorem append_pipe_inj_right {a b x y : String} (hx : '|' ∉ x.toList) (hy : '|' ∉ y.toList)
    : a ++ "|" ++ x = b ++ "|" ++ y ↔ a = b ∧ x = y := by
  have hpipe : ∀ s t : String, (s ++ "|" ++ t).toList = s.toList ++ '|' :: t.toList := by
    intro s t
    simp
  rw [← String.toList_inj, hpipe, hpipe, Separator.append_cons_inj_right hx hy]
  rw [String.toList_inj, String.toList_inj]

namespace computeCacheKey

theorem pipe_notMem_optionStr {value : Option String} (h : OptionNoPipe value)
    : '|' ∉ (optionStr value).toList := by
  unfold optionStr
  split
  . next b =>
    rw [String.toList_append, List.mem_append, not_or]
    exact ⟨by decide, h b rfl⟩
  . decide

theorem optionStr_some_ne_none (b : String) : optionStr (some b) ≠ optionStr none := by
  intro h
  have := congrArg (fun s => s.toList.head?) h
  simp [optionStr] at this

theorem optionStr_inj {a b : Option String} : optionStr a = optionStr b ↔ a = b := by
  constructor
  . intro h
    cases a with
    | none =>
      cases b with
      | none => rfl
      | some b => exact absurd h.symm (optionStr_some_ne_none b)
    | some a =>
      cases b with
      | none => exact absurd h (optionStr_some_ne_none a)
      | some b => simpa [optionStr] using h
  . intro h
    rw [h]

section

variable {ext : Crates} (hext : ext.JsonLawful)
include hext

theorem exists_normalizedHwJson (hardware : HardwareProfile)
    : ∃ json, ext.profileToString (normalizeProfile hardware) = .ok json
        ∧ normalizedHwJson ext (hardwareJson ext hardware) = json := by
  have ⟨printed, hprinted⟩ := hext.prints hardware
  have ⟨read, hread, hnormalize⟩ := hext.reads hprinted
  have ⟨json, hjson⟩ := hext.prints (normalizeProfile hardware)
  refine ⟨json, hjson, ?_⟩
  unfold normalizedHwJson hardwareJson
  simp only [hprinted, hread, hnormalize, hjson]

theorem normalizedHwJson_append_inj {h₁ h₂ : HardwareProfile} {t₁ t₂ : String}
    (h : normalizedHwJson ext (hardwareJson ext h₁) ++ t₁
          = normalizedHwJson ext (hardwareJson ext h₂) ++ t₂)
    : normalizeProfile h₁ = normalizeProfile h₂ ∧ t₁ = t₂ := by
  have ⟨json₁, hjson₁, heq₁⟩ := exists_normalizedHwJson hext h₁
  have ⟨json₂, hjson₂, heq₂⟩ := exists_normalizedHwJson hext h₂
  rw [heq₁, heq₂] at h
  exact hext.delimits hjson₁ hjson₂ h

theorem normalizedHwJson_eq_iff {h₁ h₂ : HardwareProfile}
    : normalizedHwJson ext (hardwareJson ext h₁) = normalizedHwJson ext (hardwareJson ext h₂)
        ↔
      normalizeProfile h₁ = normalizeProfile h₂ := by
  constructor
  . intro h
    have : normalizedHwJson ext (hardwareJson ext h₁) ++ ""
        = normalizedHwJson ext (hardwareJson ext h₂) ++ "" := by
      rw [h]
    exact (normalizedHwJson_append_inj hext this).left
  . intro h
    have ⟨json₁, hjson₁, heq₁⟩ := exists_normalizedHwJson hext h₁
    have ⟨json₂, hjson₂, heq₂⟩ := exists_normalizedHwJson hext h₂
    rw [h, hjson₂] at hjson₁
    injection hjson₁ with hjson
    rw [heq₁, heq₂, hjson]

end

end computeCacheKey

structure HardwareProfile.AgreeOutsideMeasurements (h₁ h₂ : HardwareProfile) : Prop where
  cpu : h₁.cpu = h₂.cpu
  totalBytes : h₁.memory.totalBytes = h₂.memory.totalBytes
  ioUring : h₁.storage.ioUring = h₂.storage.ioUring
  oDirect : h₁.storage.oDirect = h₂.storage.oDirect
  gpu : h₁.gpu = h₂.gpu
  numa : h₁.numa = h₂.numa

theorem normalizeProfile_eq_iff {h₁ h₂ : HardwareProfile}
    : normalizeProfile h₁ = normalizeProfile h₂ ↔ h₁.AgreeOutsideMeasurements h₂ := by
  unfold normalizeProfile
  constructor
  . intro h
    simp only [HardwareProfile.mk.injEq, MemoryProfile.mk.injEq, StorageProfile.mk.injEq] at h
    constructor <;> simp [h]
  . rintro ⟨hcpu, htotal, huring, hdirect, hgpu, hnuma⟩
    simp [hcpu, htotal, huring, hdirect, hgpu, hnuma]

namespace BuildTuple

structure AgreeOutsideSource (a b : BuildTuple) : Prop where
  hardware : a.hardware.AgreeOutsideMeasurements b.hardware
  binary : a.binary = b.binary
  package : a.package = b.package
  target : a.target = b.target

structure SameBuild (a b : BuildTuple) : Prop extends AgreeOutsideSource a b where
  project : a.project = b.project
  gitRef : a.gitRef = b.gitRef

-- The part of the hashed text that belongs to neither a validated name nor the hardware.
def sourceText (tuple : BuildTuple) : String := tuple.project ++ "|" ++ tuple.gitRef

theorem normalized_eq_iff {a b : BuildTuple} : a.normalized = b.normalized ↔ a.SameBuild b := by
  unfold normalized
  rw [BuildTuple.mk.injEq, normalizeProfile_eq_iff]
  constructor
  . rintro ⟨hhardware, hproject, hgitRef, hbinary, hpackage, htarget⟩
    exact ⟨⟨hhardware, hbinary, hpackage, htarget⟩, hproject, hgitRef⟩
  . rintro ⟨⟨hhardware, hbinary, hpackage, htarget⟩, hproject, hgitRef⟩
    exact ⟨hhardware, hproject, hgitRef, hbinary, hpackage, htarget⟩

theorem cacheKey_eq_iff {ext : Crates} (hext : ext.JsonLawful)
    (hsha : Function.Injective ext.sha256) {a b : BuildTuple}
    (ha : a.NamesNoPipe) (hb : b.NamesNoPipe)
    : a.cacheKey ext = b.cacheKey ext
        ↔
      a.AgreeOutsideSource b ∧ a.sourceText = b.sourceText := by
  unfold cacheKey computeCacheKey computeCacheKey.concatenated
  rw [hsha.eq_iff, Utf8.encode_inj]
  rw [append_pipe_inj_right (computeCacheKey.pipe_notMem_optionStr ha.target)
    (computeCacheKey.pipe_notMem_optionStr hb.target)]
  rw [append_pipe_inj_right (computeCacheKey.pipe_notMem_optionStr ha.package)
    (computeCacheKey.pipe_notMem_optionStr hb.package)]
  rw [append_pipe_inj_right (computeCacheKey.pipe_notMem_optionStr ha.binary)
    (computeCacheKey.pipe_notMem_optionStr hb.binary)]
  rw [computeCacheKey.optionStr_inj, computeCacheKey.optionStr_inj, computeCacheKey.optionStr_inj]
  have hassoc : ∀ json project gitRef : String,
      json ++ "|" ++ project ++ "|" ++ gitRef = json ++ ("|" ++ (project ++ "|" ++ gitRef)) := by
    intros
    simp only [String.append_assoc]
  rw [hassoc, hassoc]
  constructor
  . rintro ⟨⟨⟨htext, hbinary⟩, hpackage⟩, htarget⟩
    have ⟨hhardware, hsource⟩ := computeCacheKey.normalizedHwJson_append_inj hext htext
    refine ⟨⟨normalizeProfile_eq_iff.mp hhardware, hbinary, hpackage, htarget⟩, ?_⟩
    exact (String.append_right_inj "|").mp hsource
  . rintro ⟨⟨hhardware, hbinary, hpackage, htarget⟩, hsource⟩
    have hjson := (computeCacheKey.normalizedHwJson_eq_iff hext).mpr
      (normalizeProfile_eq_iff.mpr hhardware)
    unfold sourceText at hsource
    rw [hjson, hsource]
    exact ⟨⟨⟨rfl, hbinary⟩, hpackage⟩, htarget⟩

theorem sourceText_eq_iff_of_project_eq {a b : BuildTuple} (h : a.project = b.project)
    : a.sourceText = b.sourceText ↔ a.gitRef = b.gitRef := by
  unfold sourceText
  rw [h, String.append_right_inj]

-- The tuples of the requests that pass the checks made before the key is computed.
inductive ReachesLookup : BuildTuple → Prop where
  | build (payload : JobRequest) (h : buildHandler.validate payload = .ok .standard)
    : ReachesLookup payload.tuple
  | forgeInstall (params : ForgeInstallParams) (hardware : HardwareProfile)
    (h : forgeInstallHandler.validate params = .ok ())
    : ReachesLookup (params.tuple hardware)

theorem ReachesLookup.namesNoPipe {tuple : BuildTuple} (h : tuple.ReachesLookup)
    : tuple.NamesNoPipe := by
  cases h with
  | build payload h => exact buildHandler.namesNoPipe_of_validate h
  | forgeInstall params hardware h => exact forgeInstallHandler.namesNoPipe_of_validate hardware h

theorem cacheKey_separates_iff {ext : Crates} (hext : ext.JsonLawful)
    (hsha : Function.Injective ext.sha256) {a b : BuildTuple}
    (ha : a.ReachesLookup) (hb : b.ReachesLookup)
    : (a.cacheKey ext = b.cacheKey ext ↔ a.SameBuild b)
        ↔
      (a.AgreeOutsideSource b → a.sourceText = b.sourceText → a.project = b.project) := by
  rw [cacheKey_eq_iff hext hsha ha.namesNoPipe hb.namesNoPipe]
  constructor
  . intro h hagree htext
    exact (h.mp ⟨hagree, htext⟩).project
  . intro h
    constructor
    . rintro ⟨hagree, htext⟩
      have hproject := h hagree htext
      exact ⟨hagree, hproject, (sourceText_eq_iff_of_project_eq hproject).mp htext⟩
    . intro hsame
      refine ⟨hsame.toAgreeOutsideSource, ?_⟩
      exact (sourceText_eq_iff_of_project_eq hsame.project).mpr hsame.gitRef

theorem cacheKey_separates_iff_main_dev
    : let ext := Samples.github.crates
      let main : ForgeInstallParams := ⟨"https://github.com/a/b", "main", none, none⟩
      let dev : ForgeInstallParams := ⟨"https://github.com/a/b", "dev", none, none⟩
      let a := main.tuple Samples.hardware
      let b := dev.tuple Samples.hardware
      (a.cacheKey ext = b.cacheKey ext ↔ a.SameBuild b)
        ↔
      (a.AgreeOutsideSource b → a.sourceText = b.sourceText → a.project = b.project) := by
  intro ext main dev a b
  apply cacheKey_separates_iff
  . exact Samples.github.jsonLawful
  . exact Samples.github_sha256_injective
  . exact ReachesLookup.forgeInstall main Samples.hardware rfl
  . exact ReachesLookup.forgeInstall dev Samples.hardware rfl

theorem cacheKey_confuses_project_gitRef
    : ¬ ∀ (ext : Crates), ext.JsonLawful → Function.Injective ext.sha256 →
        ∀ (a b : BuildTuple), a.ReachesLookup → b.ReachesLookup →
          (a.cacheKey ext = b.cacheKey ext ↔ a.SameBuild b) := by
  intro h
  let a : JobRequest := ⟨Samples.hardware, "https://github.com/a|b", "c", none, none, none, none⟩
  let b : JobRequest := ⟨Samples.hardware, "https://github.com/a", "b|c", none, none, none, none⟩
  have ha : a.tuple.ReachesLookup := ReachesLookup.build a rfl
  have hb : b.tuple.ReachesLookup := ReachesLookup.build b rfl
  have hlawful := Samples.github.jsonLawful
  have hsha := Samples.github_sha256_injective
  have hkey : a.tuple.cacheKey Samples.github.crates = b.tuple.cacheKey Samples.github.crates := by
    rw [cacheKey_eq_iff hlawful hsha ha.namesNoPipe hb.namesNoPipe]
    exact ⟨⟨normalizeProfile_eq_iff.mp rfl, rfl, rfl, rfl⟩, by decide⟩
  have hsame := (h _ hlawful hsha _ _ ha hb).mp hkey
  exact absurd hsame.project (by decide)

end BuildTuple

end Koval
