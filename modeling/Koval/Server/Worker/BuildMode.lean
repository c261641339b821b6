import Mathlib.Data.List.Infix
import Koval.Server.Crates
import Koval.Server.Targets
import Koval.Text.Lines

/-!
This module contains the pure parts of a build job: the checks of what it names, the command line of
`cargo`, and the truncation of its errors.
-/

namespace Koval

namespace TomlValue

def get (value : TomlValue) (k : String) : Option TomlValue :=
  match value with
  | table entries => entries.lookup k
  | _ => none

def asStr (value : TomlValue) : Option String :=
  match value with
  | string s => some s
  | _ => none

def asArray (value : TomlValue) : Option (List TomlValue) :=
  match value with
  | array elems => some elems
  | _ => none

end TomlValue

inductive BuildMode where
  | workspace
  | packageInWorkspace (pkgName : String)
  | specificBinary (binName : String)
  | multiBin
  | singlePackage (name : String)
  deriving DecidableEq, Repr

namespace detectBuildMode

def ofValue (value : TomlValue) (package : Option String) : Except String BuildMode :=
  let isWorkspace := (value.get "workspace").isSome
  let isPackage := (value.get "package").isSome
  if isWorkspace && !isPackage then
    match package with
    | some pkgName => .ok (.packageInWorkspace pkgName)
    | none => .ok .workspace
  else if isPackage then
    match ((value.get "package").bind (·.get "name")).bind (·.asStr) with
    | none => .error "Missing name field under [package] in Cargo.toml"
    | some name =>
      let binSections := (value.get "bin").bind (·.asArray)
      let hasMultipleBins := binSections.any fun bins => bins.length ≥ 1
      if hasMultipleBins then .ok .multiBin else .ok (.singlePackage name)
  else
    .error "Cargo.toml has neither a [package] nor a root [workspace] section"

end detectBuildMode

def detectBuildMode (ext : Crates) (cargoTomlContent : String) (binary package : Option String) :
    Except String BuildMode :=
  match binary with
  | some binName => .ok (.specificBinary binName)
  | none =>
    match ext.tomlFromStr cargoTomlContent with
    | .error e => .error ("Failed to parse Cargo.toml: " ++ e)
    | .ok value => detectBuildMode.ofValue value package

def prepareCargoArgs (buildMode : BuildMode) (features : List String) (featuresJoined : String)
    (target : Option String) : List String :=
  let mode :=
    match buildMode with
    | .workspace => ["--workspace"]
    | .packageInWorkspace pkg => ["-p", pkg]
    | .specificBinary name => ["--bin", name]
    | .multiBin | .singlePackage _ => []
  let features := if features = [] then [] else ["--features", featuresJoined]
  let target :=
    match target with
    | some t => ["--target", t]
    | none => []
  ["build", "--release"] ++ mode ++ features ++ target

def prepareCargoEnvs (baseEnvs : EnvMap) (rustflags : String) (target : Option String) : EnvMap :=
  let envs := if rustflags = "" then baseEnvs else baseEnvs.insert "RUSTFLAGS" rustflags
  match target.bind linkerEnvForTarget with
  | some (envVar, linkerBin) => envs.insert envVar linkerBin
  | none => envs

-- Flags that a job adds to those of the configuration.
def pushFlags (rustflags : String) (flags : List String) : String :=
  (if rustflags = "" then "" else rustflags ++ " ") ++ " ".intercalate flags

def truncateStderr (stderr : String) : String :=
  let lines := Text.lines stderr
  let wasTruncatedByLines := lines.length > 100
  let lineTruncatedStr :=
    if wasTruncatedByLines then "\n".intercalate (lines.take 100) else stderr
  let wasTruncatedByChars := lineTruncatedStr.length > 4096
  let finalStr :=
    if wasTruncatedByChars then
      String.ofList (lineTruncatedStr.toList.take 4096)
    else
      lineTruncatedStr
  if wasTruncatedByLines ∨ wasTruncatedByChars then
    (if finalStr.toList.getLast? = some '\n' then finalStr else finalStr ++ "\n")
      ++ "[... stderr truncated due to size limits ...]\n"
  else
    finalStr

def validateGitRef (gitRef : String) : Except String Unit :=
  if gitRef = "" then
    .error "Invalid git_ref: empty"
  else if gitRef.utf8ByteSize > 256 then
    .error "Invalid git_ref: too long"
  else if gitRef.toList.head? = some '-' then
    .error "Invalid git_ref: starts with '-'"
  else if ['.', '.'] <:+: gitRef.toList then
    .error "Invalid git_ref: contains '..'"
  else if gitRef.toList.contains '\x00' then
    .error "Invalid git_ref: contains null bytes"
  else
    let isAllowed c := c.isAlphanum || c = '-' || c = '.' || c = '_' || c = '/'
    match gitRef.toList.find? fun c => !isAllowed c with
    | some c => .error ("Invalid git_ref: character '" ++ String.singleton c ++ "' not allowed")
    | none => .ok ()

/-- Slicing a text within a character panics, which is the `none`. -/
def validateProjectUrl (url : String) : Option (Except String Unit) :=
  let refused := .error "Only https:// project URLs are permitted"
  if url.utf8ByteSize ≥ 8 then
    match Text.sliceTo url.toList 8 with
    | none => none
    | some start =>
      if start.map Char.toLower = "https://".toList then some (.ok ()) else some refused
  else
    some refused

end Koval
