import Koval.Server.Auth
import Koval.Server.Routes.Basic
import Koval.Server.State
import Koval.Server.Worker.RunCargoBuild

/-!
This module contains what the handlers have in common: authentication, the lookup in the build
cache, and the submission of a job.
-/

namespace Koval

-- What a request brings with it, and what it meets outside the shared state.
structure Ambient where
  authorization : Option Bytes
  -- `Utc::now` at its first, second and last call
  now : DateTime
  laterNow : DateTime
  finishedNow : DateTime
  uuid : String
  salt : String
  -- for each locked scope of the handler
  faults : Nat → Faults Stmt
  readFault : Option IoError

abbrev Handler := ExceptT Response (Prog State)

def Handler.respond (handler : Handler Response) : Prog State Response := do
  match ← handler.run with
  | .ok response => pure response
  | .error response => pure response

-- A header value is text if all of it is visible.
def headerToStr (value : Bytes) : Option String :=
  if value.all fun b => (32 ≤ b && b < 127) || b = 9 then Utf8.toStr value else none

def stripPrefix (pre s : String) : Option String :=
  if pre.toList.isPrefixOf s.toList then
    some (String.ofList (s.toList.drop pre.length))
  else
    none

def bearerToken (authorization : Option Bytes) : Option String :=
  (authorization.bind headerToStr).bind (stripPrefix "Bearer ")

variable (ext : Crates) (settings : Settings) (ambient : Ambient)

def authenticate (refuse : AuthError → Response) : Handler (String × Token) := do
  match bearerToken ambient.authorization with
  | none => throw (.text .unauthorized "Missing or invalid authorization header")
  | some tokenStr =>
    let res ← ExceptT.lift <| Prog.atomic fun s =>
      let (res, db) :=
        authenticateAndRateLimit ext tokenStr ambient.now settings.rateLimitLimit (ambient.faults 0)
          s.db
      (res, { s with db })
    match res with
    | .ok token => pure (tokenStr, token)
    | .error err => throw (refuse err)

def databaseError (err : SqlError) : Response :=
  .text .internalServerError ("Database error: " ++ err.toString)

-- How the routes for builds and profile uploads answer.
def refuseByCause (err : AuthError) : Response :=
  match err with
  | .invalidToken => .text .unauthorized "Invalid token"
  | .inactiveToken => .text .unauthorized "Token is inactive"
  | .rateLimitExceeded => .text .tooManyRequests "Rate limit exceeded"
  | .databaseError e => .text .internalServerError ("Database error: " ++ e)

-- How the routes for jobs, tokens and webhooks answer.
def refuseByText (err : AuthError) : Response := .text .unauthorized err.toString

-- How the route for merged profiles answers.
def refuseAll (_ : AuthError) : Response := .text .unauthorized "Invalid or unauthorized token"

namespace cacheLookup

-- The finished job that the key names, and its archive.
def go (cacheKey : String) : DbM (Option (String × String × String)) := do
  match ← Db.getCacheEntry cacheKey with
  | none => pure none
  | some jobId =>
    match ← Db.getJobStatus jobId with
    | none => pure none
    | some jobStatus =>
      if jobStatus.status = .done then
        match ← Db.getArtifact jobId with
        | none => pure none
        | some (filePath, _, sha256) => pure (some (jobId, filePath, sha256))
      else
        pure none

end cacheLookup

def cacheLookup (tuple : BuildTuple) : Prog State (Option (String × String)) :=
  .atomic fun s =>
    match s.runDb (ambient.faults 1) (cacheLookup.go (tuple.cacheKey ext)) with
    | (.ok (some (id, filePath, sha256)), s) =>
      if s.exists? (.ofString filePath) then
        (some (id, sha256), s.note (.answered tuple id))
      else
        (none, s)
    | (_, s) => (none, s)

/-- Stores the job and puts it on the queue; the scopes are numbered from `scope` on. -/
def submit (scope : Nat) (job : Job) (queuedAt : DateTime) (insertError : String)
    (accept : String → Response) : Handler Response := do
  match ← ExceptT.lift (recordJob ext (ambient.faults scope) job queuedAt.toRfc3339) with
  | .error err => throw (.text .internalServerError (insertError ++ err.toString))
  | .ok () =>
    match ← ExceptT.lift (enqueue job) with
    | .ok id => pure (accept id)
    | .error .queueFull =>
      let _ ← ExceptT.lift <| lockDb (ambient.faults (scope + 1)) <|
        Db.updateJobStatus job.id .failed none (some ambient.finishedNow.toRfc3339)
          (some "Build queue is full. Service temporarily unavailable.")
      throw (.text .serviceUnavailable "Build queue is full. Try again later.")
    | .error (.sendError e) => throw (.text .internalServerError ("Job dispatch failed: " ++ e))

end Koval
