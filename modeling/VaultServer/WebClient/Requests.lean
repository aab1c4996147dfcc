import VaultServer.Lib.Url.Parse
import VaultServer.WebClient.TokenState

/-!
# Requests of the web client

`runtime-config.js`, `api-client.js` and `authenticated-api.js`. Strings are sequences of code
points. A request either stops with an error or hands exactly one request to `fetch`, whose answer
is a parameter.
-/

namespace VaultServer.WebClient

open Lib

/-! ## The server's origin -/

/-- What the page gives the client: the browser's domain tables and `location.origin`. -/
structure Page where
  idna : Url.Idna
  location : Option String := none
  toUpperCase : String → String := asciiUppercase

def productionOrigin : String := "https://vault.goreecloud.com"

def developmentOrigins : List String := ["http://127.0.0.1:8080", "http://localhost:8080"]

variable (page : Page)

def defaultLocationOrigin : String := page.location.getD productionOrigin

/-- `new URL(input, base)`. -/
def newUrl (input : String) (base : Option Url) : Except JsError Url :=
  match Url.parse page.idna base input.toList with
  | some url => .ok url
  | none => .error (.typeError "Invalid URL")

/-- The property `origin` of a URL. -/
def urlOrigin (url : Url) : String := String.ofList (Url.serializeOrigin (url.origin page.idna))

def normalizeOrigin (value : String) : Except JsError String := do
  let url ← newUrl page value none
  return urlOrigin page url

def resolveServerOrigin (locationOrigin : String) : Except JsError String := do
  let current ← normalizeOrigin page locationOrigin
  if current = productionOrigin then return productionOrigin
  if developmentOrigins.contains current then return current
  return productionOrigin

/-- `text.startsWith(start)`. -/
def startsWith (text start : String) : Bool := start.toList.isPrefixOf text.toList

/-- `text.includes(part)`. -/
def includes (text part : String) : Bool := text.toList.tails.any part.toList.isPrefixOf

def isApplicationPath (path : String) : Bool := startsWith path "/" && !startsWith path "//"

def buildApiUrl (path : String) (locationOrigin : Option String) : Except JsError Url := do
  if !isApplicationPath path then
    throw (.typeError "API paths must be absolute application paths.")
  let origin ← resolveServerOrigin page (locationOrigin.getD (defaultLocationOrigin page))
  let base ← newUrl page (origin ++ "/") none
  newUrl page path (some base)

/-! ## Requests -/

/-- Header names are kept in lower case. -/
abbrev Headers := List (String × String)

def isHttpWhitespace (c : Char) : Bool := c = ' ' || c = '\t' || c = '\n' || c = '\r'

def isHeaderChar (c : Char) : Bool := c.toNat ≤ 0xff && !(c.toNat = 0 || c = '\n' || c = '\r')

/-- `headers.set(name, value)` for a valid name. -/
def setHeader (headers : Headers) (name value : String) : Except JsError Headers :=
  let text := ((value.toList.dropWhile isHttpWhitespace).reverse.dropWhile isHttpWhitespace).reverse
  if text.all isHeaderChar then
    .ok (headers.filter (fun h => h.1 ≠ toLowercase name) ++ [(toLowercase name, String.ofList text)])
  else .error (.typeError "Invalid header value.")

structure FetchRequest where
  url : Url
  method : String
  headers : Headers
  body : Option String
  credentials : String := "same-origin"
  cache : String := "no-store"
  redirect : String := "error"
  referrerPolicy : String := "same-origin"

/-- What `fetch` answers; it fails without the network, on a redirect and when aborted. -/
inductive FetchOutcome where
  | response (status : Nat) (contentType : String) (json : Option Value)
  | failed (aborted : Bool)

structure ApiResponse where
  status : Nat
  payload : Option Value

def parseResponseBody (status : Nat) (contentType : String) (json : Option Value) : Option Value :=
  if status = 204 then none
  else if includes contentType "application/json" then json
  else none

structure ApiOptions where
  method : String := "GET"
  body : Option Value := none
  headers : Headers := []
  timeoutMs : Option Int := some 15000
  locationOrigin : Option String := none
  /-- `none` when no fetch implementation is at hand. -/
  fetchImpl : Option (FetchRequest → FetchOutcome)

def allowedMethods : List String := ["GET", "POST", "PUT", "PATCH", "DELETE"]

/-- The request that was handed to `fetch`, and how the call ended. -/
structure Exchange where
  sent : Option FetchRequest
  result : Except Thrown ApiResponse

/-- The checks of `requestApi` and the request it makes. -/
def prepareRequest (path : String) (options : ApiOptions) :
    Except JsError (FetchRequest × (FetchRequest → FetchOutcome)) := do
  let normalizedMethod := page.toUpperCase options.method
  if !allowedMethods.contains normalizedMethod then throw (.typeError "Unsupported API method.")
  if !options.timeoutMs.any fun t => 1000 ≤ t && t ≤ 60000 then
    throw (.rangeError "API timeout must be between 1000 and 60000 milliseconds.")
  match options.fetchImpl with
  | none => throw (.typeError "A fetch implementation is required.")
  | some fetchImpl =>
    let url ← buildApiUrl page path (options.locationOrigin <|> page.location)
    let headers ← setHeader options.headers "Accept" "application/json"
    let headers ← match options.body with
      | some _ => setHeader headers "Content-Type" "application/json"
      | none => pure headers
    return ({ url, method := normalizedMethod, headers, body := options.body.map Value.render },
      fetchImpl)

/-- What `requestApi` makes of the answer of `fetch`. -/
def receive : FetchOutcome → Except Thrown ApiResponse
  | .failed aborted => .error (.api (normalizeApiFailure 0 none aborted))
  | .response status contentType json =>
    let payload := parseResponseBody status contentType json
    if 200 ≤ status ∧ status ≤ 299 then .ok ⟨status, payload⟩
    else .error (.api (normalizeApiFailure status payload false))

def requestApi (path : String) (options : ApiOptions) : Exchange :=
  match prepareRequest page path options with
  | .error e => ⟨none, .error (.js e)⟩
  | .ok (request, fetchImpl) => ⟨some request, receive (fetchImpl request)⟩

/-! ## Requests with the access token -/

structure AuthenticatedOptions extends ApiOptions where
  accountId : JsValue
  now : Option Int
  clockSkewMs : Option Int := some 30000

/-- The checks in front of the request, and the headers with the token. -/
def authorize (tokens : TokenState) (options : AuthenticatedOptions) : Except JsError Headers := do
  let selectedAccount ← requireAccountId options.accountId
  if !isAccessTokenUsable tokens selectedAccount options.now options.clockSkewMs then
    throw (.error "No usable access token exists for the selected account.")
  let token ← readAccessTokenForAccount tokens (.string selectedAccount)
  setHeader options.headers "Authorization" ("Bearer " ++ token)

/-- A rejected session is forgotten. -/
def rejectsSession : Except Thrown ApiResponse → Bool
  | .error (.api e) => e.code = "authentication_required" || e.status = 401
  | _ => false

def requestAuthenticatedApi (tokens : TokenState) (path : String)
    (options : AuthenticatedOptions) : Exchange × TokenState :=
  match authorize tokens options with
  | .error e => (⟨none, .error (.js e)⟩, tokens)
  | .ok headers =>
    let exchange := requestApi page path { options.toApiOptions with headers }
    (exchange, if rejectsSession exchange.result then clearTokenState tokens else tokens)

end VaultServer.WebClient
