import Koval.Server.Routes.Handler

/-!
This module contains the handlers for webhooks and tokens.
-/

namespace Koval

variable (ext : Crates) (settings : Settings) (ambient : Ambient)

def registerWebhookHandler (payload : WebhookRequest) : Handler Response := do
  let (_, token) ← authenticate ext settings ambient refuseByText
  let insert := Db.insertWebhook token.id payload.url payload.secret ambient.now.toRfc3339
  match ← ExceptT.lift (lockDb (ambient.faults 1) insert) with
  | .ok id => pure ⟨.created, .webhookId id, []⟩
  | .error err => throw (databaseError err)

def listWebhooksHandler : Handler Response := do
  let (_, token) ← authenticate ext settings ambient refuseByText
  match ← ExceptT.lift (lockDb (ambient.faults 1) (Db.getWebhooksForToken token.id)) with
  | .ok list => pure ⟨.ok, .webhooks list, []⟩
  | .error err => throw (databaseError err)

def deleteWebhookHandler (id : Int) : Handler Response := do
  let (_, token) ← authenticate ext settings ambient refuseByText
  match ← ExceptT.lift (lockDb (ambient.faults 1) (Db.deactivateWebhook id token.id)) with
  | .ok () => pure ⟨.noContent, .empty, []⟩
  | .error .queryReturnedNoRows =>
    throw (.text .notFound "Webhook not found or does not belong to token")
  | .error err => throw (databaseError err)

-- The one token that the routes for tokens are open to.
def adminToken : String := "koval_tkn_default_admin"

def authenticateAdmin : Handler Unit := do
  let (tokenStr, _) ← authenticate ext settings ambient refuseByText
  if tokenStr ≠ adminToken then
    throw (.text .forbidden "Access denied: Admin privileges required")

def createTokenHandler (payload : TokenRequest) : Handler Response := do
  authenticateAdmin ext settings ambient
  let plaintextToken := ambient.uuid
  match ext.bcryptHash ambient.salt plaintextToken with
  | .error e => throw (.text .internalServerError ("Failed to hash token: " ++ e))
  | .ok hashedToken =>
    let insert := Db.insertToken hashedToken payload.name ambient.now.toRfc3339
    match ← ExceptT.lift (lockDb (ambient.faults 1) insert) with
    | .ok id => pure ⟨.created, .token ⟨id, plaintextToken, payload.name⟩, []⟩
    | .error err => throw (databaseError err)

def listTokensHandler : Handler Response := do
  authenticateAdmin ext settings ambient
  match ← ExceptT.lift (lockDb (ambient.faults 1) Db.getActiveTokenRecords) with
  | .ok list => pure ⟨.ok, .tokens list, []⟩
  | .error err => throw (databaseError err)

def deleteTokenHandler (id : Int) : Handler Response := do
  authenticateAdmin ext settings ambient
  match ← ExceptT.lift (lockDb (ambient.faults 1) (Db.revokeToken id)) with
  | .ok () => pure ⟨.noContent, .empty, []⟩
  | .error err => throw (databaseError err)

end Koval
