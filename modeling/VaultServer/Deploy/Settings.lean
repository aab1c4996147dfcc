import VaultServer.Lib.Checked
import VaultServer.Lib.Split
import VaultServer.Lib.Text

/-!
# The server's settings

How the server makes its configuration from the environment it is started in, when there is no
`config.json`: the environment file that fills in missing variables, a variable or the file its
`_FILE` twin names, the defaults, and the checks. Of all options only those on registration and on
the admin page are kept; whether the others load and pass their checks is a parameter.
-/

namespace VaultServer.Deploy

open Lib

/-! ## The environment -/

/-- A set of `NAME=value` pairs. -/
structure Environ where
  vars : List (String × String)
  nodup : (vars.map Prod.fst).Nodup
  names : ∀ v ∈ vars, '=' ∉ v.1.toList

def Environ.var (environ : Environ) (name : String) : Option String := environ.vars.lookup name

/-- How `dotenvy::from_path` ends. -/
inductive Dotenv where
  | loaded (vars : List (String × String))
  | notFound
  | failed

/-- What the server finds when it starts. -/
structure Host where
  environ : Environ
  readToString : String → Option String := fun _ => none
  dotenv : String → Dotenv := fun _ => .notFound
  /-- `PasswordHash::new` accepts the text. -/
  isPhc : String → Bool := fun _ => true
  /-- The options that are left out load and pass their checks. -/
  othersValid : Bool := true

inductive StartFailure where
  | panic (message : String)
  | exit
  | err (message : String)
deriving DecidableEq

section
variable (host : Host) (vars : String → Option String)

def getEnvStrValue (key : String) : Except StartFailure (Option String) :=
  match vars key, vars (key ++ "_FILE") with
  | some _, some _ =>
    .error (.panic ("You should not define both " ++ key ++ " and " ++ key ++ "_FILE!"))
  | some value, none => .ok (some value)
  | none, some file =>
    match host.readToString file with
    | some content => .ok (some (trimText content))
    | none => .error (.panic ("Failed to load " ++ key))
  | none, none => .ok none

def trueValues : List String := ["true", "t", "yes", "y", "1"]

def falseValues : List String := ["false", "f", "no", "n", "0"]

def parseBool (value : String) : Option Bool :=
  if toLowercase value ∈ trueValues then some true
  else if toLowercase value ∈ falseValues then some false
  else none

def getEnvBool (key : String) : Except StartFailure (Option Bool) := do
  let value ← getEnvStrValue host vars key
  return value.bind parseBool

end

/-! ## The configuration -/

structure ConfigBuilder where
  signupsAllowed : Option Bool
  signupsDomainsWhitelist : Option String
  adminToken : Option String
  disableAdminToken : Option Bool

/-- The variables once the environment file has filled in what was missing. -/
def loadEnvFile (host : Host) : Except StartFailure (String → Option String) := do
  let envFile ← getEnvStrValue host host.environ.var "ENV_FILE"
  match host.dotenv (envFile.getD ".env") with
  | .loaded vars => return fun name => host.environ.var name <|> vars.lookup name
  | .notFound => if envFile.isSome then throw .exit else return host.environ.var
  | .failed => throw .exit

def ConfigBuilder.fromEnv (host : Host) : Except StartFailure ConfigBuilder := do
  let vars ← loadEnvFile host
  let signupsAllowed ← getEnvBool host vars "SIGNUPS_ALLOWED"
  let signupsDomainsWhitelist ← getEnvStrValue host vars "SIGNUPS_DOMAINS_WHITELIST"
  let adminToken ← getEnvStrValue host vars "ADMIN_TOKEN"
  let disableAdminToken ← getEnvBool host vars "DISABLE_ADMIN_TOKEN"
  return { signupsAllowed, signupsDomainsWhitelist, adminToken, disableAdminToken }

structure ConfigItems where
  signupsAllowed : Bool
  signupsDomainsWhitelist : String
  adminToken : Option String
  disableAdminToken : Bool

def ConfigBuilder.build (builder : ConfigBuilder) : ConfigItems where
  signupsAllowed := builder.signupsAllowed.getD true
  signupsDomainsWhitelist := toLowercase (trimText (builder.signupsDomainsWhitelist.getD ""))
  adminToken := builder.adminToken
  disableAdminToken := builder.disableAdminToken.getD false

/-- `text.split(',')`, each part trimmed. -/
def tokens (text : String) : List String :=
  (text.toList.splitOn ',').map fun part => String.ofList (trimBy isWhitespace part)

def validateConfig (host : Host) (cfg : ConfigItems) : Except StartFailure Unit := do
  if cfg.signupsDomainsWhitelist ≠ "" ∧ "" ∈ tokens cfg.signupsDomainsWhitelist then
    throw (.err "`SIGNUPS_DOMAINS_WHITELIST` contains empty tokens")
  if !cfg.disableAdminToken then
    match cfg.adminToken with
    | some t =>
      if "$argon2".toList.isPrefixOf t.toList && !host.isPhc t then
        throw (.err "The configured Argon2 PHC in `ADMIN_TOKEN` is invalid")
    | none => pure ()
  if !host.othersValid then throw (.err "Error loading config")

/-- `Config::load` without a `config.json`. -/
def Host.load (host : Host) : Except StartFailure ConfigItems := do
  let builder ← ConfigBuilder.fromEnv host
  let config := builder.build
  validateConfig host config
  return config

namespace ConfigItems

def isEmailDomainAllowed (config : ConfigItems) (email : String) : Bool :=
  match rsplitOnce '@' email.toList with
  | some (name, domain) =>
    if domain.isEmpty || name.isEmpty then false
    else
      let emailDomain := toLowercase (String.ofList domain)
      config.signupsDomainsWhitelist = "" || emailDomain ∈ tokens config.signupsDomainsWhitelist
  | none => false

def isSignupAllowed (config : ConfigItems) (email : String) : Bool :=
  if config.signupsDomainsWhitelist = "" then config.signupsAllowed
  else config.isEmailDomainAllowed email

def isAdminTokenSet (config : ConfigItems) : Bool :=
  match config.adminToken with
  | some token => trimText token ≠ ""
  | none => false

end ConfigItems

/-! ## The routes under `/admin` -/

inductive AdminRoute where
  | adminDisabled
  | getUsersJson | getUserJson | getUserByMailJson | postAdminLogin | adminPage | adminPageLogin
  | inviteUser | logout | deleteUser | deleteSsoUser | deauthUser | disableUser | enableUser
  | remove2fa | updateMembershipType | updateRevisionUsers | postConfig | deleteConfig | backupDb
  | testSmtp | usersOverview | organizationsOverview | deleteOrganization | diagnostics
  | getDiagnosticsConfig | resendUserInvite | getDiagnosticsHttp
deriving DecidableEq

def ConfigItems.routes (config : ConfigItems) : List AdminRoute :=
  if !config.disableAdminToken && !config.isAdminTokenSet then [.adminDisabled]
  else
    [.getUsersJson, .getUserJson, .getUserByMailJson, .postAdminLogin, .adminPage, .adminPageLogin,
      .inviteUser, .logout, .deleteUser, .deleteSsoUser, .deauthUser, .disableUser, .enableUser,
      .remove2fa, .updateMembershipType, .updateRevisionUsers, .postConfig, .deleteConfig,
      .backupDb, .testSmtp, .usersOverview, .organizationsOverview, .deleteOrganization,
      .diagnostics, .getDiagnosticsConfig, .resendUserInvite, .getDiagnosticsHttp]

end VaultServer.Deploy
