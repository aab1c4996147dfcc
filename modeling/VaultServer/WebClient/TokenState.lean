import VaultServer.WebClient.Errors

/-!
# The token state of the web client

`token-state.js`: one session at a time, kept in memory. Every accepted token set and every clear
counts up a generation; a refresh remembers the generation it was started in and is refused when it
has moved on.
-/

namespace VaultServer.WebClient

structure TokenState where
  accountId : Option String := none
  accessToken : Option String := none
  refreshToken : Option String := none
  tokenType : JsValue := .null
  scope : JsValue := .null
  accessExpiresAt : Option Int := none
  generation : Nat := 0
deriving DecidableEq

def requireAccountId : JsValue → Except JsError String
  | .string s => if s = "" then .error (.typeError "Account identifier is required.") else .ok s
  | _ => .error (.typeError "Account identifier is required.")

def requireToken (value : JsValue) (field : String) : Except JsError String :=
  match value with
  | .string s =>
    if s = "" ∨ 16384 < jsLength s then .error (.typeError ("Invalid " ++ field ++ ".")) else .ok s
  | _ => .error (.typeError ("Invalid " ++ field ++ "."))

structure Snapshot where
  accountId : Option String
  authenticated : Bool
  tokenType : JsValue
  scope : JsValue
  accessExpiresAt : Option Int
  generation : Nat
  storage : String := "memory-only"

variable (tokens : TokenState)

/-- A token that is present and not empty. -/
def TokenState.access : Option String := tokens.accessToken.filter (· ≠ "")

def TokenState.refresh : Option String := tokens.refreshToken.filter (· ≠ "")

/-- The account as a value, `null` without one. -/
def TokenState.account : JsValue :=
  match tokens.accountId with
  | some a => .string a
  | none => .null

def TokenState.snapshot : Snapshot where
  accountId := tokens.accountId
  authenticated := tokens.access.isSome && tokens.refresh.isSome
  tokenType := tokens.tokenType
  scope := tokens.scope
  accessExpiresAt := tokens.accessExpiresAt
  generation := tokens.generation

def clearTokenState : TokenState := { generation := tokens.generation + 1 }

/-- An object with the fields of a token set, whatever they hold. -/
structure TokenSet where
  kind : JsValue
  accessToken : JsValue
  refreshToken : JsValue
  tokenType : JsValue
  scope : JsValue
  /-- The value as a number, if it is finite. -/
  expiresIn : Option Int

def requireTokenSet : Option TokenSet → Except JsError TokenSet
  | some tokenSet =>
    if tokenSet.kind = .string "authenticated" then .ok tokenSet
    else .error (.typeError "Validated authenticated token set is required.")
  | none => .error (.typeError "Validated authenticated token set is required.")

def requireNow : Option Int → Except JsError Int
  | some now => .ok now
  | none => .error (.typeError "Current time is required.")

/-- The new state is built before it replaces the old one, so an invalid token changes nothing. -/
def acceptInitialTokenSet (accountId : JsValue) (tokenSet : Option TokenSet)
    (now : Option Int) : Except JsError TokenState := do
  let normalizedAccountId ← requireAccountId accountId
  let tokenSet ← requireTokenSet tokenSet
  let now ← requireNow now
  let accessToken ← requireToken tokenSet.accessToken "access token"
  let refreshToken ← requireToken tokenSet.refreshToken "refresh token"
  return {
    accountId := some normalizedAccountId
    accessToken := some accessToken
    refreshToken := some refreshToken
    tokenType := tokenSet.tokenType
    scope := tokenSet.scope
    accessExpiresAt := tokenSet.expiresIn.map fun expiresIn => now + expiresIn * 1000
    generation := tokens.generation + 1 }

/-- The context of a refresh, to be handed back with its answer. -/
structure RefreshRequest where
  accountId : Option String
  refreshToken : Option String
  expectedGeneration : Nat
  requestedAt : Int
deriving DecidableEq

def beginRefresh (accountId : JsValue) (now : Option Int) : Except JsError RefreshRequest := do
  let normalizedAccountId ← requireAccountId accountId
  if some normalizedAccountId ≠ tokens.accountId ∨ tokens.refresh.isNone then
    throw (.error "No refresh token exists for the selected account.")
  let now ← requireNow now
  return ⟨tokens.accountId, tokens.refreshToken, tokens.generation, now⟩

/-- What the call throws or accepts, and the state it leaves: a refresh token that did not rotate
ends the session. -/
def acceptRotatedTokenSet (refreshRequest : Option RefreshRequest)
    (tokenSet : Option TokenSet) (now : Option Int) : Except JsError Unit × TokenState :=
  match refreshRequest with
  | none => (.error (.typeError "Refresh request context is required."), tokens)
  | some context =>
    match requireTokenSet tokenSet with
    | .error e => (.error e, tokens)
    | .ok set =>
      if context.accountId ≠ tokens.accountId ∨ context.expectedGeneration ≠ tokens.generation then
        (.error (.error "Stale refresh response rejected."), tokens)
      else if context.refreshToken ≠ tokens.refreshToken then
        (.error (.error "Refresh-token replay rejected."), tokens)
      else
        match requireToken set.refreshToken "refresh token" with
        | .error e => (.error e, tokens)
        | .ok nextRefreshToken =>
          if some nextRefreshToken = tokens.refreshToken then
            (.error (.error "Refresh token did not rotate; session invalidated."),
              clearTokenState tokens)
          else
            match acceptInitialTokenSet tokens tokens.account tokenSet now with
            | .error e => (.error e, tokens)
            | .ok accepted => (.ok (), accepted)

def isAccessTokenUsable (accountId : String) (now clockSkewMs : Option Int) : Bool :=
  tokens.accountId = some accountId && tokens.access.isSome &&
    match tokens.accessExpiresAt, now, clockSkewMs with
    | some expires, some now, some skew => 0 ≤ skew && now + skew < expires
    | _, _, _ => false

def readAccessTokenForAccount (accountId : JsValue) : Except JsError String :=
  match tokens.access with
  | some token =>
    if accountId = tokens.account then .ok token
    else .error (.error "No access token exists for the selected account.")
  | none => .error (.error "No access token exists for the selected account.")

end VaultServer.WebClient
