import Koval.Conc.Errand
import Koval.Schema
import Koval.Text.Utf8

/-!
This module contains the delivery of payloads to webhooks: what is posted, how it is signed, and when
it is tried again.
-/

namespace Koval
namespace Webhook

structure Crates where
  -- `Hmac<Sha256>` of the key and the text, if the key is taken
  hmacSha256 : List UInt8 → List UInt8 → Option (List UInt8)
  payloadToVec : WebhookPayload → Except String (List UInt8)

structure Post where
  url : String
  headers : List (String × String)
  body : List UInt8
  deriving DecidableEq

inductive Reply where
  | status (code : Nat)
  | error
  deriving DecidableEq

def Reply.isSuccess (reply : Reply) : Bool :=
  match reply with
  | status code => 200 ≤ code && code < 300
  | error => false

-- As `{:02x}` prints it.
def hexByte (b : UInt8) : List Char := [Nat.digitChar (b.toNat / 16), Nat.digitChar (b.toNat % 16)]

variable (ext : Crates)

def generateSignature (secret : String) (body : List UInt8) : String :=
  match ext.hmacSha256 (Utf8.encode secret) body with
  | some code => String.ofList (code.flatMap hexByte)
  | none => ""

def post (url secret : String) (body : List UInt8) : Post := {
  url
  headers := [
    ("Content-Type", "application/json"),
    ("X-Koval-Signature", "sha256=" ++ generateSignature ext secret body)
  ]
  body
}

-- In milliseconds.
def backoffs : List Nat := [0, 2000, 5000]

-- The loop of one task, with the attempts that are left.
def attempt (post : Post) (left attempts : Nat) : Errand Post Reply :=
  match left with
  | 0 => .done
  | left + 1 =>
    let send := .send post fun reply =>
      if reply.isSuccess then .done else attempt post left (attempts + 1)
    if 0 < attempts then
      .sleep (backoffs.getD attempts 0) send
    else
      send

structure Sender where
  payload : WebhookPayload
  webhook : String × String
  body : List UInt8
  run : Errand.Run Post Reply

def deliver (clientBuilds : Bool) (now : Nat) (payload : WebhookPayload)
    (webhooks : List (String × String)) : List Sender :=
  if webhooks = [] then
    []
  else
    match ext.payloadToVec payload with
    | .error _ => []
    | .ok body =>
      if clientBuilds then
        webhooks.map fun webhook => {
          payload
          webhook
          body
          run := Errand.start (attempt (post ext webhook.fst webhook.snd body) 3 0) now
        }
      else
        []

theorem attempt_eq_retry (post : Post)
    : attempt post 3 0 = .retry Reply.isSuccess post [2000, 5000] := rfl

end Webhook
end Koval
