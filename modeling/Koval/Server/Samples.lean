import Koval.SchemaJson
import Koval.Server.Lifecycle
import Koval.Server.System

/-!
This module contains an instance of the third-party functions that agrees with them on given samples,
and a server that runs with it.
-/

namespace Koval

structure Samples where
  digests : List (Bytes × String) := []
  -- raw tokens with their hashes
  hashes : List (String × String) := []
  kovalTomls : List (String × KovalToml) := []
  cargoTomls : List (String × TomlValue) := []

namespace Samples

def sha256 (samples : Samples) (content : Bytes) : String :=
  match samples.digests.lookup content with
  | some digest => digest
  -- the mark keeps these apart from all digests
  | none => String.ofList ('=' :: content.map byteChar)
where
  byteChar (b : UInt8) : Char := Char.ofNat b.toNat

def crates (samples : Samples) : Crates where
  profileToString profile := .ok profile.toJson
  profileFromStr text :=
    match HardwareProfile.ofJson text with
    | some profile => .ok profile
    | none => .error "expected value"
  sha256 := samples.sha256
  bcryptVerify raw hash := .ok (samples.hashes.contains (raw, hash))
  bcryptHash _ raw :=
    match samples.hashes.lookup raw with
    | some hash => .ok hash
    | none => .error "no sample"
  kovalTomlFromStr text :=
    match samples.kovalTomls.lookup text with
    | some config => .ok config
    | none => .error "expected a koval.toml"
  tomlFromStr text :=
    match samples.cargoTomls.lookup text with
    | some value => .ok value
    | none => .error "expected a table"

theorem jsonLawful (samples : Samples) : samples.crates.JsonLawful where
  prints profile := ⟨_, rfl⟩
  delimits := by
    intro h h' s s' t t' hs hs' heq
    injection hs with hs
    injection hs' with hs'
    rw [← hs, ← hs'] at heq
    exact HardwareProfile.toJson_append_inj heq
  reads := by
    intro h s hs
    injection hs with hs
    refine ⟨h, ?_, rfl⟩
    simp [crates, ← hs, HardwareProfile.ofJson_toJson]

theorem mem_of_lookup_eq_some {entries : List (Bytes × String)} {content : Bytes} {digest : String}
    (h : entries.lookup content = some digest)
    : (content, digest) ∈ entries := by
  rw [List.lookup_eq_some_iff] at h
  rcases h with ⟨pre, post, hentries, _⟩
  simp [hentries]

theorem byteChar_injective : Function.Injective sha256.byteChar := by
  have htoNat : ∀ b, (sha256.byteChar b).toNat = b.toNat := by
    intro b
    have hlt := b.toNat_lt
    have hvalid : b.toNat.isValidChar := by
      left
      omega
    unfold sha256.byteChar Char.ofNat
    rw [dif_pos hvalid]
    rfl
  intro a b h
  apply UInt8.toNat_inj.mp
  rw [← htoNat, ← htoNat, h]

theorem sha256_injective (samples : Samples) (hnodup : (samples.digests.map Prod.snd).Nodup)
    (hmark : ∀ digest ∈ samples.digests.map Prod.snd, digest.toList.head? ≠ some '=')
    : Function.Injective samples.crates.sha256 := by
  intro a b h
  change samples.sha256 a = samples.sha256 b at h
  unfold sha256 at h
  split at h
  . next digest ha =>
    have ha := mem_of_lookup_eq_some ha
    split at h
    . next hb =>
      have hb := mem_of_lookup_eq_some hb
      rw [← h] at hb
      have := List.inj_on_of_nodup_map hnodup ha hb rfl
      exact congrArg Prod.fst this
    . apply absurd _ (hmark digest (List.mem_map_of_mem ha))
      simp [h]
  . split at h
    . next digest hb =>
      have hb := mem_of_lookup_eq_some hb
      apply absurd _ (hmark digest (List.mem_map_of_mem hb))
      simp [← h]
    . have := congrArg String.toList h
      simp only [String.toList_ofList, List.cons.injEq, true_and] at this
      exact List.map_injective_iff.mpr byteChar_injective this

def keyText (hardware : HardwareProfile) (source : String) : Bytes :=
  asBytes ((normalizeProfile hardware).toJson ++ "|" ++ source ++ "|none|none|none")

def hardware : HardwareProfile := {
  cpu := { flags := ["avx2"], cacheTopology := "L1 32K", coreCount := 8 }
  memory := { totalBytes := 17179869184, availableBytes := 8589934592, bandwidthMbs := 30000 }
  storage := { ioUring := true, oDirect := true, readSpeedMbs := 500, writeSpeedMbs := 400 }
  gpu := { devices := [] }
}

def busyHardware : HardwareProfile :=
  { hardware with memory := { hardware.memory with bandwidthMbs := 1000 } }

def archive : Bytes := [31, 139]

def cargoToml : String := "[package]\nname = \"app\"\nversion = \"0.1.0\"\n"

def github : Samples := {
  digests := [
    (keyText hardware "https://github.com/a/b|main",
      "d34858bd9c1f1ae855292d10fd2a77c58be16d0c1b6a20051f78532e8e7c2eda"),
    (keyText hardware "https://github.com/a/b|dev",
      "7efbeb8b46362655dc52d8f479fbf6837922bd66b90b26862966d751b573af0d"),
    (keyText hardware "https://github.com/a|b|c",
      "514a1236bf792f818e4aa7b6dde0d74a2bba328fbdaf5559f16491ed7d8b62b1"),
    (archive, "ee98dc6af27a9f1c8cc4aaa2fd05b5f6e7c98f51390253a5263b0d096c3510fe")
  ]
  hashes := [
    ("alice-token", "$2b$04$abcdefghijklmnopqrstuuArP79ZimpZdq6gzc6nBv1/CtF9GW0Ua"),
    ("bob-token", "$2b$04$abcdefghijklmnopqrstuuX.0K476TiQWtszti49XtOqvAx871FAO")
  ]
  cargoTomls := [
    (cargoToml,
      .table [("package", .table [("name", .string "app"), ("version", .string "0.1.0")])])
  ]
}

def aliceAndBob : Db := {
  tokens := ⟨[
    ⟨1, "$2b$04$abcdefghijklmnopqrstuuArP79ZimpZdq6gzc6nBv1/CtF9GW0Ua", "alice",
      "2026-05-17T16:00:00+00:00", true⟩,
    ⟨2, "$2b$04$abcdefghijklmnopqrstuuX.0K476TiQWtszti49XtOqvAx871FAO", "bob",
      "2026-05-17T16:00:00+00:00", true⟩
  ], by decide⟩
  lastTokenId := 2
}

-- Seconds after 2026-05-17T16:53:00Z.
def time (seconds : Int) : DateTime := ⟨(63946255980 + seconds) * 1000000000⟩

theorem github_sha256_injective : Function.Injective github.crates.sha256 := by
  apply sha256_injective
  . decide
  . decide

def settings : Settings := {
  artifactsDir := .ofString "artifacts"
  tempDir := .ofString "/tmp"
  rateLimitLimit := 20
  queueCapacity := 10
}

def boot : Boot := {
  adminToken := some "alice-token"
  uuid := "0a3b1f1e-6f55-4a39-9c57-3d1a2f6f7b01"
  salt := "abcdefghijklmnopqrstuu"
  now := time 0
  faults := .none
}

def ambient (uuid : String) : Ambient := {
  authorization := some (asBytes "Bearer alice-token")
  now := time 1
  laterNow := time 1
  finishedNow := time 1
  uuid
  salt := "abcdefghijklmnopqrstuu"
  faults := fun _ => .none
  readFault := none
}

def request : JobRequest := {
  hardware
  project := "https://github.com/a/b"
  gitRef := "main"
  binary := none
  package := none
  target := none
  pgoPhase := none
}

def externals : Externals := {
  now := time 2
  finished := time 3
  exists? path :=
    path.fileName = some (.ofString "Cargo.toml") || path.fileName = some (.ofString "app")
  readToString _ := .ok cargoToml
  readDir _ := .ok []
  status _ := .ok (.code 0)
  runCargoBuild _ _ := .ok ⟨.code 0, [], []⟩
  buildTimeoutSecs := none
  archive := some archive
  openFault := none
  readFault := none
  metadataFault := none
  faults _ := .none
}

def job (project : String) : Job := {
  id := "8b7a3c52-1f60-4b0e-9a41-5d2f3f9e6c10"
  tokenId := 1
  project
  gitRef := "main"
  hardware
  binary := none
  package := none
  target := none
  jobType := .standard
  pgoSourceJobId := none
}

def received (project : String) : State := {
  db := { aliceAndBob with
    jobs := ⟨[.ofJob github.crates (job project) "2026-05-17T16:53:01+00:00"], by simp⟩ }
  queue := .new 10
}

def runs (actions : List Action) : Option System :=
  (main github.crates settings boot (.empty settings)).bind fun system =>
    Machine.run (System.step github.crates settings) system actions

-- The request with the steps of its handler, which is the thread `i`.
def submitted (i : Nat) (request : Request) (uuid : String) (steps : Nat) : List Action :=
  .request request (ambient uuid) :: List.replicate steps (.run i)

-- The next job with the steps of its worker, which is the thread `i`.
def processed (i : Nat) (externals : Externals) (steps : Nat) : List Action :=
  .recv externals :: List.replicate steps (.run i)

theorem exists_of_runs (actions : List Action) (P : System → Prop) [DecidablePred P]
    (h : (runs actions).any fun system => P system)
    : ∃ system₀ system,
        main github.crates settings boot (.empty settings) = some system₀
          ∧
        Machine.run (System.step github.crates settings) system₀ actions = some system
          ∧
        P system := by
  cases hruns : runs actions with
  | none =>
    rw [hruns] at h
    contradiction
  | some system =>
    rw [hruns, Option.any_some, decide_eq_true_eq] at h
    rw [runs, Option.bind_eq_some_iff] at hruns
    rcases hruns with ⟨system₀, hmain, hrun⟩
    exact ⟨system₀, system, hmain, hrun, h⟩

theorem exists_of_steps (actions : List Action) (C : System → Action → Prop)
    [∀ system action, Decidable (C system action)] (P : System → Prop) [DecidablePred P]
    (h : (main github.crates settings boot (.empty settings)).any fun system₀ =>
      (Machine.transitions (System.step github.crates settings) system₀ actions).all
          (fun (t, action, _) => C t action)
        && (Machine.run (System.step github.crates settings) system₀ actions).any
          fun system => P system)
    : ∃ system₀ system,
        main github.crates settings boot (.empty settings) = some system₀
          ∧
        Machine.run (System.step github.crates settings) system₀ actions = some system
          ∧
        (∀ t action t',
          (t, action, t') ∈ Machine.transitions (System.step github.crates settings) system₀ actions →
            C t action)
          ∧
        P system := by
  rw [Option.any_eq_true] at h
  rcases h with ⟨system₀, hmain, h⟩
  rw [Bool.and_eq_true, Option.any_eq_true, List.all_eq_true] at h
  rcases h with ⟨hsteps, system, hrun, hP⟩
  refine ⟨system₀, system, hmain, hrun, ?_, of_decide_eq_true hP⟩
  intro t action t' hmem
  exact of_decide_eq_true (hsteps _ hmem)

end Samples

end Koval
