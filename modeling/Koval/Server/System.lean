import Koval.Conc.Machine
import Koval.Conc.Pool
import Koval.Server.Routes.Admin
import Koval.Server.Routes.Build
import Koval.Server.Routes.Pgo
import Koval.Server.Worker.ProcessJob

/-!
This module contains the whole server: handlers and workers that run interleaved, the worker loop,
and the start on a database that may have been used before.
-/

namespace Koval

inductive Request where
  | build (payload : JobRequest)
  | forgeInstall (params : ForgeInstallParams) (hardware : HardwareProfile)
  | uploadProfiles (instrumentJobId : String) (upload : Upload)
  | getMergedProfile (instrumentJobId : String)
  | status (jobId : String)
  | binary (jobId : String)
  | listJobs
  | registerWebhook (payload : WebhookRequest)
  | listWebhooks
  | deleteWebhook (id : Int)
  | createToken (payload : TokenRequest)
  | listTokens
  | deleteToken (id : Int)

inductive Label where
  | handler (request : Request) (ambient : Ambient)
  | worker (job : Job)

-- The id of the job that the thread may insert or process.
def Label.jobId (label : Label) : String :=
  match label with
  | handler _ ambient => ambient.uuid
  | worker job => job.id

def Label.isWorker (label : Label) : Bool :=
  match label with
  | handler .. => false
  | worker _ => true

inductive Answer where
  | response (response : Response)
  | outcome (outcome : Outcome)
  deriving DecidableEq, Repr

abbrev System := Pool Label State Answer

-- What the start of the server meets outside the database.
structure Boot where
  -- the value of KOVAL_ADMIN_TOKEN
  adminToken : Option String
  uuid : String
  salt : String
  now : DateTime
  faults : Faults Stmt

inductive Action where
  | request (request : Request) (ambient : Ambient)
  | recv (externals : Externals)
  | run (i : Nat)
  -- by anyone but the server
  | changeFiles (files : Table FileRow.path)
  | restart (boot : Boot)

variable (ext : Crates) (settings : Settings)

def route (request : Request) (ambient : Ambient) : Handler Response :=
  match request with
  | .build payload => buildHandler ext settings ambient payload
  | .forgeInstall params hardware => forgeInstallHandler ext settings ambient params hardware
  | .uploadProfiles id upload => uploadProfilesHandler ext settings ambient id upload
  | .getMergedProfile id => getMergedProfileHandler ext settings ambient id
  | .status jobId => statusHandler ext settings ambient jobId
  | .binary jobId => binaryHandler ext settings ambient jobId
  | .listJobs => listJobsHandler ext settings ambient
  | .registerWebhook payload => registerWebhookHandler ext settings ambient payload
  | .listWebhooks => listWebhooksHandler ext settings ambient
  | .deleteWebhook id => deleteWebhookHandler ext settings ambient id
  | .createToken payload => createTokenHandler ext settings ambient payload
  | .listTokens => listTokensHandler ext settings ambient
  | .deleteToken id => deleteTokenHandler ext settings ambient id

def bootstrapAdminToken (boot : Boot) : DbM (Except String (Option String)) := do
  let activeTokens ← Db.getActiveTokens
  if activeTokens = [] then
    let adminToken := boot.adminToken.getD boot.uuid
    match ext.bcryptHash boot.salt adminToken with
    | .error e => pure (.error e)
    | .ok hashed =>
      let _ ← Db.insertToken hashed "Default Admin Token" boot.now.toRfc3339
      pure (.ok (some adminToken))
  else
    pure (.ok none)

-- The start on what an earlier process has left, which may be nothing. A failure ends the process.
def main (boot : Boot) (s : State) : Option System :=
  match s.runDb boot.faults (bootstrapAdminToken ext boot) with
  | (.ok (.ok _), s) =>
    if settings.queueCapacity = 0 then
      none
    else
      some { state := { s with queue := .new settings.queueCapacity }.note .started }
  | _ => none

-- Version 4 UUIDs are taken not to repeat.
def System.isFresh (system : System) (uuid : String) : Bool :=
  !system.state.db.jobs.contains uuid
    && system.threads.all fun thread => thread.label.jobId != uuid

def System.step (action : Action) (system : System) : Option System :=
  match action with
  | .request request ambient =>
    if system.isFresh ambient.uuid then
      some <| system.spawn (.handler request ambient) do
        let response ← (route ext settings request ambient).respond
        pure (.response response)
    else
      none
  | .recv externals =>
    match system.state.queue.recv with
    | none => none
    | some (job, queue) =>
      some <| Pool.spawn { system with state := { system.state with queue } } (.worker job) do
        let outcome ← processJob ext settings externals job
        pure (.outcome outcome)
  | .run i => system.runThread i
  | .changeFiles files => some { system with state := { system.state with files } }
  | .restart boot => main ext settings boot system.state

-- Before the first start.
def State.empty : State := { db := {}, queue := .new settings.queueCapacity }

/-- What runs from an empty database lead to. -/
def System.Reachable (system : System) : Prop :=
  ∃ boot system₀ actions,
    main ext settings boot (.empty settings) = some system₀
      ∧
    Machine.run (System.step ext settings) system₀ actions = some system

end Koval
