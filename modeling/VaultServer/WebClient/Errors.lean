import VaultServer.Lib.Checked
import VaultServer.Lib.Json
import VaultServer.Lib.Text

/-!
# Values and errors of the web client

The JavaScript values that callers hand in, as far as the client tells them apart, and
`api-errors.js`. A number that may fail `Number.isFinite` is an option.
-/

namespace VaultServer.WebClient

open Lib

/-! ## Values -/

inductive JsValue where
  | undefined
  | null
  | string (s : String)
  | number (n : Option Int)
  /-- Any other value, by its identity. -/
  | other (id : Nat)
deriving DecidableEq

/-- The length of a string in UTF-16 code units. -/
def jsLength (s : String) : Nat := (s.toList.map fun c => if c.toNat < 0x10000 then 1 else 2).sum

/-! ## Errors -/

structure GoreeVaultApiError where
  message : String
  status : Nat
  code : String
  retryable : Bool
deriving DecidableEq

inductive JsError where
  | typeError (message : String)
  | rangeError (message : String)
  | error (message : String)
deriving DecidableEq

/-- What a request throws: an error of the checks in front of it, or one made of the answer. -/
inductive Thrown where
  | js (e : JsError)
  | api (e : GoreeVaultApiError)
deriving DecidableEq

/-- `String.prototype.trim`: its white space has the byte order mark and not the next line. -/
def trimString (s : String) : String :=
  String.ofList (trimBy (fun c => c = '\ufeff' || isWhitespace c && c ≠ '\u0085') s.toList)

/-- The first of the message fields with a text that is not blank, cut at 240 characters. -/
def safeMessage (payload : Option Value) (fallback : String) : String :=
  let texts := ["message", "Message", "error_description", "error"].filterMap fun key =>
    match payload.bind (Value.get? key) with
    | some (.string s) => if (trimString s).isEmpty then none else some (trimString s)
    | _ => none
  match texts with
  | text :: _ => String.ofList (text.toList.take 240)
  | [] => fallback

def normalizeApiFailure (status : Nat) (payload : Option Value) (aborted : Bool) :
    GoreeVaultApiError :=
  if aborted then
    ⟨"The request was cancelled.", 0, "request_cancelled", false⟩
  else if status = 0 then
    ⟨"GoreeVault Server could not be reached.", 0, "network_unavailable", true⟩
  else
    let retryable := status = 408 || status = 425 || status = 429 || status ≥ 500
    let fallback :=
      if status = 401 ∨ status = 403 then "The server rejected this authentication state."
      else "GoreeVault Server returned HTTP " ++ toString status ++ "."
    ⟨safeMessage payload fallback, status,
      if status = 401 then "authentication_required" else "http_" ++ toString status, retryable⟩

end VaultServer.WebClient
