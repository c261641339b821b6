import Koval.Server.Routes.Handler

/-!
This module contains the handlers that report on jobs and deliver their artifacts.
-/

namespace Koval

variable (ext : Crates) (settings : Settings) (ambient : Ambient)

def statusHandler (jobId : String) : Handler Response := do
  let _ ← authenticate ext settings ambient refuseByCause
  match ← ExceptT.lift (lockDb (ambient.faults 1) (Db.getJobStatus jobId)) with
  | .ok (some status) =>
    if status.status = .done then
      match ← ExceptT.lift (lockDb (ambient.faults 2) (Db.getArtifact jobId)) with
      | .ok (some (_, _, sha256)) => pure ⟨.ok, .jobStatus status (some sha256), []⟩
      | _ => pure ⟨.ok, .jobStatus status none, []⟩
    else
      pure ⟨.ok, .jobStatus status none, []⟩
  | .ok none => throw (.text .notFound "Job not found")
  | .error err => throw (.text .internalServerError ("Database query error: " ++ err.toString))

def exists? (path : Path) : Prog State Bool := .atomic fun s => (s.exists? path, s)

def readFile (path : Path) : Prog State (Except IoError Bytes) :=
  .atomic fun s =>
    match ambient.readFault, s.files.find? path with
    | some err, _ => (.error err, s)
    | none, some file => (.ok file.content, s)
    | none, none => (.error (.other "No such file or directory (os error 2)"), s)

def octetStream : String × String := ("content-type", "application/octet-stream")

def binaryHandler (jobId : String) : Handler Response := do
  let _ ← authenticate ext settings ambient refuseByCause
  match ← ExceptT.lift (lockDb (ambient.faults 1) (Db.getArtifact jobId)) with
  | .ok none => throw (.text .notFound "Artifact not found for this build job")
  | .error err => throw (.text .internalServerError ("Database query error: " ++ err.toString))
  | .ok (some (filePath, _, sha256)) =>
    if !(← ExceptT.lift (exists? (.ofString filePath))) then
      throw (.text .notFound "Artifact archive file missing from storage")
    else
      match ← ExceptT.lift (readFile ambient (.ofString filePath)) with
      | .error err =>
        throw (.text .internalServerError ("Failed to read archive from disk: " ++ err.toString))
      | .ok content =>
        pure ⟨.ok, .bytes content, [
          octetStream,
          ("content-disposition", "attachment; filename=\"" ++ jobId ++ ".tar.gz\""),
          ("x-sha256", sha256)
        ]⟩

def listJobsHandler : Handler Response := do
  let (_, token) ← authenticate ext settings ambient refuseByText
  match ← ExceptT.lift (lockDb (ambient.faults 1) (Db.getRecentJobs token.id 50)) with
  | .ok list => pure ⟨.ok, .jobs list, []⟩
  | .error err => throw (databaseError err)

end Koval
