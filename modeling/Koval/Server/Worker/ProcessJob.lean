import Koval.Server.Pgo
import Koval.Server.Worker.BuildMode
import Koval.Server.Worker.RunCargoBuild
import Koval.Time.DateTime

/-!
This module contains the processing of one job by a worker.
-/

namespace Koval

structure DirEntry where
  name : Path
  isFile : Bool
  mode : Option Nat

-- What the processing of a job meets outside the shared state.
structure Externals where
  now : DateTime
  finished : DateTime
  exists? : Path → Bool
  readToString : Path → Except IoError String
  -- an entry that cannot be read is `none`
  readDir : Path → Except IoError (List (Option DirEntry))
  status : Command → Except IoError ExitStatus
  runCargoBuild : Command → Nat → Except IoError Output
  -- the value of KOVAL_BUILD_TIMEOUT_SECS
  buildTimeoutSecs : Option Nat
  -- what `tar` leaves as its output
  archive : Option Bytes
  openFault : Option IoError
  readFault : Option IoError
  metadataFault : Option IoError
  -- for each locked scope
  faults : Nat → Faults Stmt

inductive Outcome where
  | ok
  | err (msg : String)
  | panicked
  deriving DecidableEq, Repr

-- A program that may return from the processing of the job.
abbrev Worker := ExceptT Outcome (Prog State)

namespace processJob

variable (ext : Crates) (settings : Settings) (externals : Externals) (job : Job)

def buildDir : Path := settings.tempDir.join (.ofString ("koval_build_" ++ job.id))

def archivePath : Path := settings.artifactsDir.join (.ofString (job.id ++ ".tar.gz"))

def releaseDir : Path :=
  let targetDir := (buildDir settings job).join (.ofString "target")
  match job.target with
  | some t => (targetDir.join (.ofString t)).join (.ofString "release")
  | none => targetDir.join (.ofString "release")

def deliver (payload : WebhookPayload) (webhooks : List (String × String)) : Prog State Unit :=
  if webhooks = [] then pure () else perform (.deliver payload webhooks)

-- `?` on the result of statements.
def tryDb {α : Type} (res : Except SqlError α) : Worker α :=
  match res with
  | .ok a => pure a
  | .error err => throw (.err err.toString)

def failJob {α : Type} (errMsg : String) : Worker α := do
  let finishedStr := externals.finished.toRfc3339
  let webhooks ←
    ExceptT.lift (lockDb (externals.faults 4) (Db.getWebhooksDeliveryInfo job.tokenId))
  let res ← ExceptT.lift <| lockDb (externals.faults 5) <|
    Db.updateJobStatus job.id .failed none (some finishedStr) (some errMsg)
  tryDb res
  ExceptT.lift (perform (.removeDirAll (buildDir settings job)))
  ExceptT.lift (deliver ⟨job.id, .failed, some finishedStr, job.project, none⟩
    (webhooks.toOption.getD []))
  throw .ok

-- Step 1
def start : Worker Unit := do
  let res ← ExceptT.lift <| lockDb (externals.faults 0) <|
    Db.updateJobStatus job.id .building (some externals.now.toRfc3339) none none
  tryDb res
  if externals.exists? (buildDir settings job) then
    ExceptT.lift (perform (.removeDirAll (buildDir settings job)))

def expectSuccess (command : Command) (errMsg : String) : Worker Unit := do
  ExceptT.lift (perform (.run command))
  match externals.status command with
  | .ok status =>
    if status.success then pure () else failJob settings externals job errMsg
  | .error _ => failJob settings externals job errMsg

def cloneCommand : Command := {
  program := "git"
  args := ["clone", "--depth=1", job.project, (buildDir settings job).display].map Path.ofString
}

def checkoutCommand : Command := {
  program := "git"
  args :=
    ["-C", (buildDir settings job).display, "checkout", "--", job.gitRef].map Path.ofString
}

-- Steps 1.5 to 3
def fetchSource : Worker Unit := do
  match validateProjectUrl job.project with
  | none => throw .panicked
  | some (.error err) => failJob settings externals job err
  | some (.ok ()) =>
    expectSuccess settings externals job (cloneCommand settings job)
      "Failed to git clone project repository"
    match validateGitRef job.gitRef with
    | .error err => failJob settings externals job err
    | .ok () =>
      expectSuccess settings externals job (checkoutCommand settings job)
        ("Failed to checkout git ref: " ++ job.gitRef)

-- Step 4
def loadConfig : Worker BuildConfig := do
  let kovalTomlPath := (buildDir settings job).join (.ofString "koval.toml")
  if externals.exists? kovalTomlPath then
    match externals.readToString kovalTomlPath with
    | .error err => failJob settings externals job ("Failed to read koval.toml: " ++ err.toString)
    | .ok content =>
      match ext.kovalTomlFromStr content with
      | .error err => failJob settings externals job ("Failed to parse koval.toml: " ++ err)
      | .ok config => pure (buildConfig job.hardware config)
  else
    pure (buildConfig job.hardware default)

-- Step 5
def loadMode : Worker BuildMode := do
  let cargoTomlPath := (buildDir settings job).join (.ofString "Cargo.toml")
  if !externals.exists? cargoTomlPath then
    failJob settings externals job "Cargo.toml not found in project repository root"
  else
    match externals.readToString cargoTomlPath with
    | .error err => failJob settings externals job ("Failed to read Cargo.toml: " ++ err.toString)
    | .ok content =>
      match detectBuildMode ext content job.binary job.package with
      | .error err => failJob settings externals job err
      | .ok mode => pure mode

def mergedPath (pgoSourceId : String) : Worker Path := do
  match ← ExceptT.lift (lockDb (externals.faults 1) (Db.getPgoProfile pgoSourceId)) with
  | .error err =>
    failJob settings externals job ("Database error querying PGO profile: " ++ err.toString)
  | .ok none =>
    failJob settings externals job
      ("No PGO profile record found for source job ID: " ++ pgoSourceId)
  | .ok (some profile) =>
    match profile.mergedPath with
    | none =>
      failJob settings externals job
        ("PGO source job " ++ pgoSourceId ++ " profile data has not been merged")
    | some path =>
      let mergedPath := Path.ofString path
      if !(← ExceptT.lift (Prog.atomic fun s => (s.exists? mergedPath, s))) then
        failJob settings externals job
          ("Merged profile data at " ++ mergedPath.display ++ " does not exist")
      else
        pure mergedPath

-- Step 6, up to the flags
def rustflags (config : BuildConfig) : Worker String := do
  match job.jobType with
  | .standard => pure config.rustflags
  | .pgoInstrument => pure (pushFlags config.rustflags (instrumentFlags job.id settings.artifactsDir))
  | .pgoOptimize =>
    match job.pgoSourceJobId with
    | none =>
      failJob settings externals job "PGO optimize job missing source instrumentation job ID"
    | some pgoSourceId =>
      let mergedPath ← mergedPath settings externals job pgoSourceId
      pure (pushFlags config.rustflags (optimizeFlags mergedPath))

def cargoCommand (config : BuildConfig) (mode : BuildMode) (rustflags : String) : Command :=
  let featuresJoined := ",".intercalate config.features
  {
    program := "cargo"
    args := (prepareCargoArgs mode config.features featuresJoined job.target).map Path.ofString
    envs := prepareCargoEnvs config.env rustflags job.target
    currentDir := some (buildDir settings job)
  }

def compile (command : Command) : Worker Unit := do
  ExceptT.lift (perform (.run command))
  match externals.runCargoBuild command (externals.buildTimeoutSecs.getD 3600) with
  | .ok output =>
    if output.status.success then
      pure ()
    else
      failJob settings externals job
        ("Cargo compilation failed:\n" ++ truncateStderr (Utf8.toStringLossy output.stderr))
  | .error err =>
    failJob settings externals job ("Cargo system execution failed: " ++ err.toString)

def isBinary (entry : DirEntry) : Bool :=
  let path := (releaseDir settings job).join entry.name
  entry.isFile
    && (path.fileName.bind Utf8.toStr).any (fun name =>
      name.toList.head? != some '.' && name != "build")
    && path.extension.isNone
    && entry.mode.any fun mode => mode &&& 0o111 != 0

def binaries (entries : List (Option DirEntry)) : List Path :=
  ((entries.filterMap id).filter (isBinary settings job)).map fun entry =>
    (releaseDir settings job).join entry.name

def expectTar (args : List String) (errMsg : String) : Worker Unit := do
  let command := { program := "tar", args := args.map Path.ofString }
  ExceptT.lift <| Prog.atomic fun s =>
    let s := s.perform (.run command)
    match externals.archive with
    | some content => ((), s.write (archivePath settings job) content)
    | none => ((), s)
  match externals.status command with
  | .ok status =>
    if status.success then pure () else failJob settings externals job errMsg
  | .error _ => failJob settings externals job errMsg

-- `ok_or` with `?`
def orErr {α : Type} (value : Option α) (msg : String) : Worker α :=
  match value with
  | some a => pure a
  | none => throw (.err msg)

def packBinaries : Worker Unit := do
  let releaseDir := releaseDir settings job
  match externals.readDir releaseDir with
  | .error err =>
    failJob settings externals job
      ("Failed to read target/release/ directory: " ++ err.toString)
  | .ok entries =>
    let binaries := binaries settings job entries
    if binaries = [] then
      failJob settings externals job
        ("Build succeeded but no executable binaries found in release directory: "
          ++ releaseDir.display)
    else
      let archiveStr ← orErr (Utf8.toStr (archivePath settings job)) "Invalid archive path: non-UTF8"
      let releaseStr ← orErr (Utf8.toStr releaseDir) "Invalid release dir: non-UTF8"
      let names ← orErr (binaries.mapM fun bin => bin.fileName.bind Utf8.toStr)
        "Invalid binary filename: non-UTF8"
      expectTar settings externals job (["-czf", archiveStr, "-C", releaseStr] ++ names)
        "Failed to compress and package target compilation binaries"

def packBinary (name : String) : Worker Unit := do
  let releaseDir := releaseDir settings job
  let binaryPath := releaseDir.join (.ofString name)
  if !externals.exists? binaryPath then
    failJob settings externals job
      ("Cargo succeeded but binary not found at " ++ binaryPath.display)
  else
    expectTar settings externals job
      ["-czf", (archivePath settings job).display, "-C", releaseDir.display, name]
      "Failed to compress and package target compilation binary"

-- Step 7
def pack (mode : BuildMode) : Worker Unit :=
  match mode with
  | .workspace | .packageInWorkspace _ | .multiBin => packBinaries settings externals job
  | .specificBinary name | .singlePackage name => packBinary settings externals job name

def tryIo (fault : Option IoError) (path : Path) : Worker FileRow :=
  ExceptT.mk <| .atomic fun s =>
    match fault, s.files.find? path with
    | some err, _ => (.error (.err err.toString), s)
    | none, some file => (.ok file, s)
    | none, none => (.error (.err "No such file or directory (os error 2)"), s)

-- Step 8; the size and the digest of the archive. An open file stays readable.
def measure : Worker (Nat × String) := do
  let file ← tryIo externals.openFault (archivePath settings job)
  match externals.readFault with
  | some err => throw (.err err.toString)
  | none =>
    let stat ← tryIo externals.metadataFault (archivePath settings job)
    pure (stat.content.length, ext.sha256 file.content)

namespace complete

def go (finishedStr : String) (fileSize : Nat) (sha256 : String) : DbM Unit := do
  Db.insertArtifact job.id (archivePath settings job).display fileSize sha256
  Db.insertCacheEntry (job.tuple.cacheKey ext) job.id finishedStr
  Db.updateJobStatus job.id .done none (some finishedStr) none

end complete

-- Step 9
def complete (fileSize : Nat) (sha256 : String) : Worker Unit := do
  let finishedStr := externals.finished.toRfc3339
  let webhooks ←
    ExceptT.lift (lockDb (externals.faults 2) (Db.getWebhooksDeliveryInfo job.tokenId))
  let res ← ExceptT.lift <| Prog.atomic fun s =>
    let (res, s) :=
      s.runDb (externals.faults 3) (complete.go ext settings job finishedStr fileSize sha256)
    match res with
    | .ok () => (.ok (), s.note (.completed job))
    | .error err => (.error err, s)
  tryDb res
  ExceptT.lift (deliver ⟨job.id, .done, some finishedStr, job.project, some sha256⟩
    (webhooks.toOption.getD []))

def go : Worker Unit := do
  start settings externals job
  fetchSource settings externals job
  let config ← loadConfig ext settings externals job
  let mode ← loadMode ext settings externals job
  let rustflags ← rustflags settings externals job config
  compile settings externals job (cargoCommand settings job config mode rustflags)
  pack settings externals job mode
  let (fileSize, sha256) ← measure ext settings externals job
  complete ext settings externals job fileSize sha256
  -- Step 10
  ExceptT.lift (perform (.removeDirAll (buildDir settings job)))

end processJob

def processJob (ext : Crates) (settings : Settings) (externals : Externals) (job : Job) :
    Prog State Outcome := do
  match ← (processJob.go ext settings externals job).run with
  | .ok () => pure .ok
  | .error outcome => pure outcome

end Koval
