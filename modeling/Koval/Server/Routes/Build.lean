import Koval.Server.Routes.Handler

/-!
This module contains the handlers that accept builds.
-/

namespace Koval

variable (ext : Crates) (settings : Settings) (ambient : Ambient)

def JobRequest.job (req : JobRequest) (id : String) (tokenId : Int) (jobType : JobType) : Job :=
  {
    id
    tokenId
    project := req.project
    gitRef := req.gitRef
    hardware := req.hardware
    binary := req.binary
    package := req.package
    target := req.target
    jobType
    pgoSourceJobId := none
  }

namespace buildHandler

-- Step 3, which is bypassed for PGO
def lookup (payload : JobRequest) (jobType : JobType) : Handler (Option (String × String)) :=
  if jobType = .standard then
    ExceptT.lift (cacheLookup ext ambient payload.tuple)
  else
    pure none

def accepted (id : String) : Response := ⟨.accepted, .id id, []⟩

end buildHandler

def buildHandler (payload : JobRequest) : Handler Response := do
  let (_, token) ← authenticate ext settings ambient refuseByCause
  match buildHandler.validate payload with
  | .error response => throw response
  | .ok jobType =>
    match ← buildHandler.lookup ext ambient payload jobType with
    | some (cachedId, _) => pure (buildHandler.accepted cachedId)
    | none =>
      submit ext ambient 2 (payload.job ambient.uuid token.id jobType) ambient.now
        "Failed to record job in database: " buildHandler.accepted

def ForgeInstallParams.job (params : ForgeInstallParams) (hardware : HardwareProfile) (id : String)
    (tokenId : Int) : Job :=
  {
    id
    tokenId
    project := params.project
    gitRef := params.gitRef
    hardware
    binary := params.binary
    package := params.package
    target := none
    jobType := .standard
    pgoSourceJobId := none
  }

def forgeInstallHandler (params : ForgeInstallParams) (hardware : HardwareProfile) :
    Handler Response := do
  let (_, token) ← authenticate ext settings ambient refuseByCause
  match forgeInstallHandler.validate params with
  | .error response => throw response
  | .ok () =>
    match ← ExceptT.lift (cacheLookup ext ambient (params.tuple hardware)) with
    | some (cachedId, cachedSha) =>
      pure ⟨.ok, .cached ("/build/" ++ cachedId ++ "/binary") cachedSha, []⟩
    | none =>
      submit ext ambient 2 (params.job hardware ambient.uuid token.id) ambient.now
        "Failed to record job in database: " fun id => ⟨.ok, .building id, []⟩

end Koval
