import Koval.Server.Db
import Koval.Time.DateTime

/-!
This module contains the authentication of requests and the rate limit.
-/

namespace Koval

inductive AuthError where
  | invalidToken
  | inactiveToken
  | rateLimitExceeded
  | databaseError (msg : String)
  deriving DecidableEq, Repr

namespace AuthError

def toString (err : AuthError) : String :=
  match err with
  | invalidToken => "Invalid token"
  | inactiveToken => "Inactive token"
  | rateLimitExceeded => "Rate limit exceeded"
  | databaseError msg => "Database error: " ++ msg

end AuthError

variable (ext : Crates)

def verify (rawToken tokenHash : String) : Bool :=
  match ext.bcryptVerify rawToken tokenHash with
  | .ok verified => verified
  | .error _ => false

namespace authenticateAndRateLimit

def matchedToken (rawToken : String) (activeTokens : List Token) : Option Token :=
  activeTokens.find? fun t => verify ext rawToken t.tokenHash

def go (rawToken : String) (now : DateTime) (limit : Nat) : DbM (Except AuthError Token) := do
  let activeTokens ← Db.getActiveTokens
  match matchedToken ext rawToken activeTokens with
  | none => pure (.error .invalidToken)
  | some token =>
    if !token.isActive then
      pure (.error .inactiveToken)
    else
      let sinceStr := (now.minusSeconds 60).toRfc3339
      Db.pruneRateLimits sinceStr
      let currentRequests ← Db.getSlidingWindowCount token.id sinceStr
      if currentRequests ≥ limit then
        pure (.error .rateLimitExceeded)
      else
        Db.incrementRateLimit token.id now.toRfc3339Millis
        pure (.ok token)

end authenticateAndRateLimit

def authenticateAndRateLimit (rawToken : String) (now : DateTime) (limit : Nat)
    (faults : Faults Stmt) (db : Db) : Except AuthError Token × Db :=
  match (authenticateAndRateLimit.go ext rawToken now limit).run faults db with
  | (.ok res, db) => (res, db)
  | (.error err, db) => (.error (.databaseError err.toString), db)

end Koval
