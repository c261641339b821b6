import Koval.Server.Cache
import Koval.Server.Targets

/-!
This module contains the responses of the HTTP API and the checks that the handlers make on their
parameters.
-/

namespace Koval

inductive StatusCode where
  | ok
  | created
  | accepted
  | noContent
  | badRequest
  | unauthorized
  | forbidden
  | notFound
  | payloadTooLarge
  | tooManyRequests
  | internalServerError
  | serviceUnavailable
  deriving DecidableEq, Repr

inductive Body where
  | empty
  | text (msg : String)
  | bytes (content : Bytes)
  | id (id : String)
  | cached (downloadUrl sha256 : String)
  | building (jobId : String)
  | jobStatus (status : JobStatus) (artifactSha256 : Option String)
  | pgoUpload (response : PgoUploadResponse)
  | jobs (list : List JobSummary)
  | webhookId (id : Int)
  | webhooks (list : List WebhookRecord)
  | token (response : TokenResponse)
  | tokens (list : List TokenRecord)
  deriving DecidableEq, Repr

structure Response where
  status : StatusCode
  body : Body
  headers : List (String × String) := []
  deriving DecidableEq, Repr

def Response.text (status : StatusCode) (msg : String) : Response := ⟨status, .text msg, []⟩

structure ForgeInstallParams where
  project : String
  gitRef : String
  binary : Option String
  package : Option String
  deriving DecidableEq, Inhabited, Repr

def ForgeInstallParams.tuple (params : ForgeInstallParams) (hardware : HardwareProfile) :
    BuildTuple :=
  ⟨hardware, params.project, params.gitRef, params.binary, params.package, none⟩

def isValidCargoName (s : String) : Bool :=
  if s.isEmpty || s.utf8ByteSize > 64 then
    false
  else if s.toList.head? == some '-' then
    false
  else
    s.toList.all fun c => !(!c.isAlphanum && c != '-' && c != '_')

namespace buildHandler

-- Steps 1.5 and 1.6
def validate (payload : JobRequest) : Except Response JobType :=
  if payload.target.any fun t => !isSupported t then
    .error (.text .badRequest "Unsupported compilation target")
  else if payload.binary.any fun b => !isValidCargoName b then
    .error (.text .badRequest "Invalid binary name")
  else if payload.package.any fun p => !isValidCargoName p then
    .error (.text .badRequest "Invalid package name")
  else
    match payload.pgoPhase with
    | none => .ok .standard
    | some "instrument" => .ok .pgoInstrument
    | some _ =>
      .error
        (.text .badRequest
          "Invalid pgo_phase. Only 'instrument' is permitted on build request")

end buildHandler

namespace forgeInstallHandler

-- Step 1.5
def validate (params : ForgeInstallParams) : Except Response Unit :=
  if params.binary.any fun b => !isValidCargoName b then
    .error (.text .badRequest "Invalid binary name")
  else if params.package.any fun p => !isValidCargoName p then
    .error (.text .badRequest "Invalid package name")
  else
    .ok ()

end forgeInstallHandler

end Koval
