import Koval.Server.Samples

/-!
This module contains when the package that a request asks for is the one that cargo is told to build.
-/

namespace Koval

namespace cargoOptions

-- The options among those of the server that take the next argument as their value.
def takesValue (arg : String) : Bool := ["-p", "--bin", "--features", "--target"].contains arg

end cargoOptions

/-- How cargo reads its arguments: as options, some of which have values. -/
def cargoOptions (args : List String) : List (String × Option String) :=
  match args with
  | [] => []
  | [arg] => [(arg, none)]
  | arg :: value :: args =>
    if cargoOptions.takesValue arg then
      (arg, some value) :: cargoOptions args
    else
      (arg, none) :: cargoOptions (value :: args)

/-- The arguments select the package, and nothing selects all of them. -/
structure SelectsPackage (package : String) (args : List String) : Prop where
  pair : ["-p", package] <:+: args
  selects : ("-p", some package) ∈ cargoOptions args
  restricts : ("--workspace", none) ∉ cargoOptions args

-- The arguments for the features and the target, which come last.
def trailingArgs (features : List String) (featuresJoined : String) (target : Option String) :
    List String :=
  (if features = [] then [] else ["--features", featuresJoined])
    ++ match target with
      | some t => ["--target", t]
      | none => []

theorem fst_of_mem_cargoOptions_trailingArgs {features : List String} {featuresJoined : String}
    {target : Option String} {option : String × Option String}
    (h : option ∈ cargoOptions (trailingArgs features featuresJoined target))
    : option.fst = "--features" ∨ option.fst = "--target" := by
  have hfeatures : cargoOptions.takesValue "--features" := rfl
  have htarget : cargoOptions.takesValue "--target" := rfl
  unfold trailingArgs at h
  split at h <;> cases target <;> simp [cargoOptions, hfeatures, htarget] at h
  . simp [h]
  . simp [h]
  . rcases h with h | h <;> simp [h]

theorem prepareCargoArgs_packageInWorkspace (pkg : String) (features : List String)
    (featuresJoined : String) (target : Option String)
    : prepareCargoArgs (.packageInWorkspace pkg) features featuresJoined target
        =
      "build" :: "--release" :: "-p" :: pkg :: trailingArgs features featuresJoined target := by
  unfold prepareCargoArgs trailingArgs
  cases target <;> simp

theorem prepareCargoArgs_default {mode : BuildMode}
    (hmode : mode = .multiBin ∨ ∃ name, mode = .singlePackage name) (features : List String)
    (featuresJoined : String) (target : Option String)
    : prepareCargoArgs mode features featuresJoined target
        =
      "build" :: "--release" :: trailingArgs features featuresJoined target := by
  unfold prepareCargoArgs trailingArgs
  rcases hmode with rfl | ⟨name, rfl⟩ <;> cases target <;> simp

theorem cargoOptions_cons {arg : String} (h : cargoOptions.takesValue arg = false)
    (args : List String)
    : cargoOptions (arg :: args) = (arg, none) :: cargoOptions args := by
  cases args with
  | nil => rfl
  | cons value args =>
    rw [cargoOptions, h]
    rfl

theorem cargoOptions_cons_cons {arg : String} (h : cargoOptions.takesValue arg) (value : String)
    (args : List String)
    : cargoOptions (arg :: value :: args) = (arg, some value) :: cargoOptions args := by
  rw [cargoOptions, if_pos h]

theorem cargoOptions_build (args : List String)
    : cargoOptions ("build" :: "--release" :: args)
        =
      ("build", none) :: ("--release", none) :: cargoOptions args := by
  rw [cargoOptions_cons rfl, cargoOptions_cons rfl]

theorem selectsPackage_packageInWorkspace (pkg : String) (features : List String)
    (featuresJoined : String) (target : Option String)
    : SelectsPackage pkg
        (prepareCargoArgs (.packageInWorkspace pkg) features featuresJoined target) := by
  rw [prepareCargoArgs_packageInWorkspace]
  constructor
  . exact ⟨["build", "--release"], trailingArgs features featuresJoined target, rfl⟩
  . rw [cargoOptions_build, cargoOptions_cons_cons rfl]
    simp
  . rw [cargoOptions_build, cargoOptions_cons_cons rfl]
    intro h
    simp only [List.mem_cons, Prod.mk.injEq, reduceCtorEq, and_false, String.reduceEq, false_and,
      false_or] at h
    rcases fst_of_mem_cargoOptions_trailingArgs h with h | h <;> contradiction

theorem not_selectsPackage_default {mode : BuildMode}
    (hmode : mode = .multiBin ∨ ∃ name, mode = .singlePackage name) (package : String)
    (features : List String) (featuresJoined : String) (target : Option String)
    : ¬SelectsPackage package (prepareCargoArgs mode features featuresJoined target) := by
  intro hselects
  have h := hselects.selects
  rw [prepareCargoArgs_default hmode, cargoOptions_build] at h
  simp only [List.mem_cons, Prod.mk.injEq, reduceCtorEq, and_false, false_or] at h
  rcases fst_of_mem_cargoOptions_trailingArgs h with h | h <;> simp at h

theorem detectBuildMode_of_package {value : TomlValue} {package : Option String} {mode : BuildMode}
    (hpackage : (value.get "package").isSome)
    (hmode : detectBuildMode.ofValue value package = .ok mode)
    : mode = .multiBin ∨ ∃ name, mode = .singlePackage name := by
  unfold detectBuildMode.ofValue at hmode
  simp only [hpackage, Bool.not_true, Bool.and_false, Bool.false_eq_true, if_false, if_true]
    at hmode
  split at hmode
  . contradiction
  . next name _ =>
    split at hmode
    . injection hmode with hmode
      exact .inl hmode.symm
    . injection hmode with hmode
      exact .inr ⟨name, hmode.symm⟩

/--
Of the build of a workspace, the package that is asked for is what cargo is told to build, if and only
if the manifest is not one of a package as well.
-/
theorem package_built_iff {crates : Crates} {content package : String} {value : TomlValue}
    {mode : BuildMode} (hparse : crates.tomlFromStr content = .ok value)
    (hworkspace : (value.get "workspace").isSome)
    (hmode : detectBuildMode crates content none (some package) = .ok mode)
    (features : List String) (featuresJoined : String) (target : Option String)
    : SelectsPackage package (prepareCargoArgs mode features featuresJoined target)
        ↔
      value.get "package" = none := by
  unfold detectBuildMode at hmode
  rw [hparse] at hmode
  dsimp only at hmode
  cases hpackage : value.get "package" with
  | none =>
    unfold detectBuildMode.ofValue at hmode
    simp only [hworkspace, hpackage, Option.isSome_none, Bool.not_false, Bool.and_self, if_true,
      Except.ok.injEq] at hmode
    rw [← hmode]
    exact iff_of_true (selectsPackage_packageInWorkspace _ _ _ _) rfl
  | some entry =>
    have hdefault := detectBuildMode_of_package (by rw [hpackage]; rfl) hmode
    exact iff_of_false (not_selectsPackage_default hdefault _ _ _ _) (by simp)

namespace Samples

def workspaceToml : String := "[workspace]\nmembers = [\"app\"]"

-- The root is a package of the workspace as well.
def rootToml : String := "[workspace]\nmembers = [\"app\"]\n\n[package]\nname = \"root\""

def workspaces : Samples where
  cargoTomls := [
    (workspaceToml, .table [("workspace", .table [("members", .array [.string "app"])])]),
    (rootToml, .table [("workspace", .table [("members", .array [.string "app"])]),
      ("package", .table [("name", .string "root")])])
  ]

end Samples

theorem package_built_iff_workspace
    : SelectsPackage "app"
          (prepareCargoArgs (.packageInWorkspace "app") ["simd"] "simd"
            (some "x86_64-unknown-linux-musl"))
        ↔
      (TomlValue.table [("workspace", .table [("members", .array [.string "app"])])]).get "package"
        = none :=
  @package_built_iff Samples.workspaces.crates Samples.workspaceToml "app" _ _ rfl rfl rfl _ _ _

/-- The package of the root is built instead. -/
theorem package_ignored
    : ¬∀ (crates : Crates) (content package : String) (value : TomlValue) (mode : BuildMode)
          (features : List String) (featuresJoined : String) (target : Option String),
        crates.tomlFromStr content = .ok value →
          (value.get "workspace").isSome →
            detectBuildMode crates content none (some package) = .ok mode →
              SelectsPackage package (prepareCargoArgs mode features featuresJoined target) := by
  intro hall
  have hselects := hall Samples.workspaces.crates Samples.rootToml "app" _ (.singlePackage "root") []
    "" none rfl rfl rfl
  have hargs := hselects.pair
  revert hargs
  decide

end Koval
