import Splitforge.Raceday.Course

/-!
# Sending to RaceDay Connect

What a write came to. An answer is classified by its status, and a failure without a status is for
a retry.
-/

namespace Splitforge.Raceday

/-- What to do with a sent message. A server may name the seconds to wait before a retry. -/
inductive Outcome where
  | delivered
  | retry (after : Option Nat)
  | unpaired
  | refused
deriving DecidableEq

/-- `classify`: what an HTTP status means for the message. -/
def classify (status : UInt16) (retryAfterSecs : Option Nat) : Outcome :=
  if 200 ≤ status ∧ status ≤ 299 then .delivered
  else if status = 401 then .unpaired
  else if (300 ≤ status ∧ status ≤ 399) ∨ status = 408 ∨ status = 429 ∨
      (500 ≤ status ∧ status ≤ 599) then .retry retryAfterSecs
  else .refused

/-- What the agent returns: a response with its status, the seconds it asks to wait and its body,
or the error of the transport. -/
inductive Reply where
  | response (status : UInt16) (retryAfter : Option Nat) (text : String)
  | failed (error : String)
deriving DecidableEq

/-- What a write came to, and what to tell the operator about it. -/
structure Sent where
  outcome : Outcome
  detail : String
deriving DecidableEq

/-- `str::trim_end`. -/
def trimEnd (text : String) : String :=
  String.ofList (text.toList.reverse.dropWhile isWhitespace).reverse

/-- `Client::write`, from what the agent returned. -/
def Reply.sent : Reply → Sent
  | .response status retryAfter text =>
      ⟨classify status retryAfter, trimEnd ("HTTP " ++ toString status.toNat ++ " " ++ text)⟩
  | .failed error => ⟨.retry none, error⟩

/-- Whether `Client::new` sends a token to an address: over TLS, or to this machine. -/
def isAllowed (baseUrl : String) : Bool :=
  let base := (baseUrl.toList.reverse.dropWhile (· = '/')).reverse
  "https://".toList.isPrefixOf base ||
    ["http://127.0.0.1", "http://localhost", "http://[::1]"].any fun address =>
      let rest := base.drop address.length
      address.toList.isPrefixOf base &&
        (rest = [] || rest.head? = some ':' || rest.head? = some '/')

end Splitforge.Raceday
