import Koval.Server.Pgo
import Koval.Server.Routes.Status

/-!
This module contains the handlers that take raw profiles and deliver merged ones.
-/

namespace Koval

inductive MultipartError where
  | malformed (msg : String)
  | tooLarge (msg : String)
  | other (msg : String)
  deriving DecidableEq, Repr

def MultipartError.intoResponse (err : MultipartError) : Response :=
  match err with
  | malformed msg => .text .badRequest msg
  | tooLarge msg => .text .payloadTooLarge msg
  | other msg => .text .internalServerError msg

structure Part where
  fileName : Option String
  bytes : Except MultipartError Bytes

-- The body of an upload, and what the upload meets in the file system and in `llvm-profdata`.
structure Upload where
  parts : List Part
  -- the stream may break off after the parts
  ending : Except MultipartError Unit
  createDirAll : Option IoError
  -- for each file saved so far
  write : Nat → Option IoError
  readDir : Option IoError
  joinError : Option String
  profdata : Command → Except IoError Output
  -- what `llvm-profdata` leaves as its output
  merged : Option Bytes

def endsWith (s suf : String) : Bool := suf.toList.isSuffixOf s.toList

variable (ext : Crates) (settings : Settings) (ambient : Ambient)

namespace uploadProfilesHandler

-- Step 3
def verify (jobDetails : Db.JobDetails) (token : Token) : Except Response Unit :=
  if jobDetails.tokenId ≠ token.id then
    .error (.text .notFound "Job not found")
  else if jobDetails.jobType ≠ .pgoInstrument then
    .error (.text .badRequest "Job is not a PGO instrumentation job")
  else if jobDetails.status ≠ .done then
    .error (.text .badRequest "Instrumentation job is not in 'done' state")
  else
    .ok ()

variable (upload : Upload)

-- Step 4; the connection stays locked
def profilesDir (instrumentJobId : String) : Handler Path :=
  ExceptT.mk <| .atomic fun s =>
    match s.runDb (ambient.faults 2) (Db.getPgoProfile instrumentJobId) with
    | (.error err, s) => (.error (databaseError err), s)
    | (.ok (some p), s) => (.ok (.ofString p.profilesDir), s)
    | (.ok none, s) =>
      let dir := (settings.artifactsDir.join (.ofString "pgo_profiles")).join (.ofString instrumentJobId)
      match upload.createDirAll with
      | some err =>
        (.error
          (.text .internalServerError
            ("Failed to create profiles directory: " ++ err.toString)), s)
      | none =>
        let insert := Db.insertPgoProfile instrumentJobId dir.display ambient.now.toRfc3339
        match (s.perform (.createDirAll dir)).runDb (ambient.faults 2) insert with
        | (.ok (), s) => (.ok dir, s)
        | (.error err, s) =>
          (.error
            (.text .internalServerError ("Failed to insert profile record: " ++ err.toString)), s)

def writeFile (fault : Option IoError) (path : Path) (data : Bytes) : Handler Unit :=
  ExceptT.mk <| .atomic fun s =>
    match fault with
    | some err =>
      (.error (.text .internalServerError ("Failed to save profile file: " ++ err.toString)), s)
    | none => (.ok (), s.write path data)

-- Step 5; the number of files saved
def saveParts (profilesDir : Path) (parts : List Part) (filesSaved : Nat) : Handler Nat :=
  match parts with
  | [] => pure filesSaved
  | part :: parts =>
    if filesSaved ≥ 32 then
      throw (.text .badRequest "Maximum of 32 profile files is allowed")
    else
      match part.fileName with
      | none => saveParts profilesDir parts filesSaved
      | some fileName =>
        if !endsWith fileName ".profraw" then
          throw (.text .badRequest "Only files with .profraw extension are accepted")
        else
          match part.bytes with
          | .error e => throw e.intoResponse
          | .ok data =>
            match (Path.ofString fileName).fileName with
            | none => saveParts profilesDir parts filesSaved
            | some cleanName => do
              writeFile (upload.write filesSaved) (profilesDir.join cleanName) data
              saveParts profilesDir parts (filesSaved + 1)

def buildMergeCommand (profilesDir mergedPath : Path) : Handler Command :=
  ExceptT.mk <| .atomic fun s =>
    let failed err :=
      .error (.text .internalServerError ("Failed to build merge command: " ++ err))
    match upload.readDir with
    | some err => (failed err.toString, s)
    | none =>
      match mergeCommand profilesDir mergedPath s.files.rows with
      | some cmd => (.ok cmd, s)
      | none => (failed "No .profraw files found in directory", s)

def runMerge (cmd : Command) (mergedPath : Path) : Prog State Unit :=
  .atomic fun s =>
    let s := s.perform (.run cmd)
    match upload.merged with
    | some content => ((), s.write mergedPath content)
    | none => ((), s)

-- Step 6
def merge (profilesDir mergedPath : Path) : Handler Unit := do
  let cmd ← buildMergeCommand upload profilesDir mergedPath
  ExceptT.lift (runMerge upload cmd mergedPath)
  match upload.joinError, upload.profdata cmd with
  | some err, _ => throw (.text .internalServerError ("Internal task join error: " ++ err))
  | none, .error err =>
    throw (.text .internalServerError ("Failed to execute llvm-profdata: " ++ err.toString))
  | none, .ok output =>
    if !output.status.success then
      throw
        (.text .internalServerError
          ("llvm-profdata merge failed: " ++ Utf8.toStringLossy output.stderr))

def optJob (jobDetails : Db.JobDetails) (id : String) (tokenId : Int) (instrumentJobId : String) :
    Job :=
  {
    id
    tokenId
    project := jobDetails.project
    gitRef := jobDetails.gitRef
    hardware := jobDetails.hardware
    binary := none
    package := none
    target := none
    jobType := .pgoOptimize
    pgoSourceJobId := some instrumentJobId
  }

def accepted (instrumentJobId id : String) : Response :=
  ⟨.accepted, .pgoUpload ⟨"/pgo/profiles/" ++ instrumentJobId ++ "/merged.profdata", id⟩, []⟩

-- Steps 4 to 8
def mergeAndSubmit (instrumentJobId : String) (jobDetails : Db.JobDetails) (tokenId : Int) :
    Handler Response := do
  let profilesDir ← profilesDir settings ambient upload instrumentJobId
  let filesSaved ← saveParts upload profilesDir upload.parts 0
  if filesSaved = 0 then
    throw (.text .badRequest "No files uploaded")
  else
    let mergedPath := profilesDir.join (.ofString "merged.profdata")
    merge upload profilesDir mergedPath
    let update := Db.updatePgoMergedPath instrumentJobId mergedPath.display
    match ← ExceptT.lift (lockDb (ambient.faults 3) update) with
    | .error err =>
      throw (.text .internalServerError ("Failed to update merged path: " ++ err.toString))
    | .ok () =>
      submit ext ambient 4 (optJob jobDetails ambient.uuid tokenId instrumentJobId)
        ambient.laterNow "Failed to insert optimization job: " (accepted instrumentJobId)

end uploadProfilesHandler

def uploadProfilesHandler (instrumentJobId : String) (upload : Upload) : Handler Response := do
  let (_, token) ← authenticate ext settings ambient refuseByCause
  match ← ExceptT.lift (lockDb (ambient.faults 1) (Db.getJobDetails ext instrumentJobId)) with
  | .error err => throw (databaseError err)
  | .ok none => throw (.text .notFound "Job not found")
  | .ok (some jobDetails) =>
    match uploadProfilesHandler.verify jobDetails token with
    | .error response => throw response
    | .ok () =>
      uploadProfilesHandler.mergeAndSubmit ext settings ambient upload instrumentJobId jobDetails
        token.id

def getMergedProfileHandler (instrumentJobId : String) : Handler Response := do
  let (_, token) ← authenticate ext settings ambient refuseAll
  match ← ExceptT.lift (lockDb (ambient.faults 1) (Db.getPgoProfile instrumentJobId)) with
  | .ok (some profile) =>
    match ← ExceptT.lift (lockDb (ambient.faults 2) (Db.getJobDetails ext instrumentJobId)) with
    | .ok (some jobDetails) =>
      if jobDetails.tokenId ≠ token.id then
        throw (.text .notFound "Profile not found")
      else
        match profile.mergedPath with
        | none => throw (.text .notFound "Merged profile data not generated yet")
        | some path =>
          if !(← ExceptT.lift (exists? (.ofString path))) then
            throw (.text .notFound "Merged profile file does not exist on disk")
          else
            match ← ExceptT.lift (readFile ambient (.ofString path)) with
            | .ok content => pure ⟨.ok, .bytes content, [octetStream]⟩
            | .error err =>
              throw (.text .internalServerError ("Failed to read profile: " ++ err.toString))
    | _ => throw (.text .notFound "Job not found")
  | _ => throw (.text .notFound "Profile not found")

end Koval
