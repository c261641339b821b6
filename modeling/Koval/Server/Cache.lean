import Koval.Server.Crates

/-!
This module contains the computation of the build cache key.
-/

namespace Koval

-- What a build is made from, and what a cache key stands for.
structure BuildTuple where
  hardware : HardwareProfile
  project : String
  gitRef : String
  binary : Option String
  package : Option String
  target : Option String
  deriving DecidableEq, Inhabited

def JobRequest.tuple (req : JobRequest) : BuildTuple :=
  ⟨req.hardware, req.project, req.gitRef, req.binary, req.package, req.target⟩

def normalizeProfile (profile : HardwareProfile) : HardwareProfile :=
  { profile with
    memory := { profile.memory with
      availableBytes := 0
      bandwidthMbs := 0
      latencyNsL1 := none
      latencyNsL2 := none
      latencyNsL3 := none
      latencyNsRam := none }
    storage := { profile.storage with
      readSpeedMbs := 0
      writeSpeedMbs := 0 } }

variable (ext : Crates)

def hardwareJson (hardware : HardwareProfile) : String :=
  match ext.profileToString hardware with
  | .ok json => json
  | .error _ => ""

namespace computeCacheKey

def normalizedHwJson (hardwareJson : String) : String :=
  match ext.profileFromStr hardwareJson with
  | .ok profile =>
    match ext.profileToString (normalizeProfile profile) with
    | .ok json => json
    | .error _ => hardwareJson
  | .error _ => hardwareJson

def optionStr (value : Option String) : String :=
  match value with
  | some b => "some:" ++ b
  | none => "none"

def concatenated (hardwareJson project gitRef : String) (binary package target : Option String) :
    String :=
  normalizedHwJson ext hardwareJson ++ "|" ++ project ++ "|" ++ gitRef ++ "|" ++ optionStr binary
    ++ "|" ++ optionStr package ++ "|" ++ optionStr target

end computeCacheKey

def computeCacheKey (hardwareJson project gitRef : String) (binary package target : Option String) :
    String :=
  ext.sha256
    (asBytes (computeCacheKey.concatenated ext hardwareJson project gitRef binary package target))

def BuildTuple.cacheKey (tuple : BuildTuple) : String :=
  computeCacheKey ext (hardwareJson ext tuple.hardware) tuple.project tuple.gitRef tuple.binary
    tuple.package tuple.target

def BuildTuple.normalized (tuple : BuildTuple) : BuildTuple :=
  { tuple with hardware := normalizeProfile tuple.hardware }

/--
What the server relies on in `serde_json`: a profile is printed, the text says where it ends and
which profile it is, and reading it gives the profile back up to rounding in the measurements.
-/
structure Crates.JsonLawful : Prop where
  prints : ∀ (h : HardwareProfile), ∃ s, ext.profileToString h = .ok s
  delimits : ∀ {h h' : HardwareProfile} {s s' t t' : String},
    ext.profileToString h = .ok s → ext.profileToString h' = .ok s' → s ++ t = s' ++ t' →
      h = h' ∧ t = t'
  reads : ∀ {h : HardwareProfile} {s : String}, ext.profileToString h = .ok s →
    ∃ h', ext.profileFromStr s = .ok h' ∧ normalizeProfile h' = normalizeProfile h

end Koval
