import VaultServer.Db.Organization

/-!
# Request guards

`auth.rs`: what an access token has to show before a handler runs. `Headers` looks up the device
and the account of the token and compares the stamp; the organization guards add the membership of
the account in the organization named by the request. A guard that refuses ends the request.
-/

namespace VaultServer

open Lib

/-! ## Tokens -/

/-- The claims of a login token that the server reads back. -/
structure LoginJwtClaims where
  nbf : Time
  exp : Time
  sub : UserId
  sstamp : Secret
  device : DeviceId
  deriving DecidableEq

/-- A token as it comes in; `genuine` stands for the signature and the issuer. -/
structure AccessToken where
  claims : LoginJwtClaims
  genuine : Bool
  deriving DecidableEq

variable (env : Env) (caller : Caller) (org : OrganizationId)

/-- `decode_jwt`: signature, then validity with a leeway of 30 seconds. -/
def validAt (nbf exp : Time) : Bool := nbf ≤ env.now + 30 ∧ env.now - 30 ≤ exp

/-- The other tokens the server hands out, with what they carry. -/
structure Signed (α : Type) where
  genuine : Bool
  nbf : Time
  exp : Time
  claims : α

def decodeJwt {α : Type} (env : Env) (token : Signed α) : Cmd α :=
  if !token.genuine then err "Token is invalid"
  else if token.exp < env.now - 30 then err "Token has expired"
  else if env.now + 30 < token.nbf then err "Error decoding JWT: Error(ImmatureSignature)"
  else pure token.claims

def decodeLogin (token : AccessToken) : Option LoginJwtClaims :=
  if token.genuine ∧ validAt env token.claims.nbf token.claims.exp then some token.claims else none

theorem decodeLogin_eq_some {env token claims} (h : decodeLogin env token = some claims) :
    claims = token.claims := by
  unfold decodeLogin at h
  split at h
  · exact (Option.some.inj h).symm
  · cases h

/-! ## The account behind a token -/

namespace User

def resetStampException (u : User) : User := { u with stampException := none }

end User

/-- `Device::find_by_uuid_and_user`. -/
def Device.findByUuidAndUser (db : Db) (uuid : DeviceId) (user : UserId) : Option Device :=
  db.devices.find? fun d => d.uuid = uuid ∧ d.userUuid = user

structure Headers where
  device : Device
  user : User

/-- What the token and the route of a request are. -/
structure Caller where
  token : AccessToken
  route : Option String

/-- The stored exception is judged by its age first, then by the route, then by the stamp. An
expired one is removed, and whether that succeeds is only logged. -/
def checkStampException (user : User) (route : Option String) (sstamp : Secret) : Cmd Unit :=
  match user.stampException, route with
  | none, _ => err "Invalid security stamp"
  | some _, none => err "Error getting current route for stamp exception"
  | some e, some route =>
    if env.now > e.expire then do
      let _ ← (user.resetStampException.save env).attempt
      err "Stamp exception is expired"
    else do
      ensure (e.routes.contains route)
        "Invalid security stamp: Current route and exception route do not match"
      ensure (e.securityStamp = sstamp) "Invalid security stamp for matched stamp exception"

def Headers.fromRequest : Cmd Headers := do
  match decodeLogin env caller.token with
  | none => err "Invalid claim"
  | some claims =>
    match ← query (Device.findByUuidAndUser · claims.device claims.sub) with
    | none => err "Invalid device id"
    | some device =>
      match ← loadUser (User.findByUuid · claims.sub) with
      | none => err "Device has no user associated"
      | some user => do
        Prog.when (user.securityStamp ≠ claims.sstamp)
          (checkStampException env user caller.route claims.sstamp)
        pure ⟨device, user⟩

/-! ## Members of an organization -/

/-- `MembershipStatus::from_i32`: revoked rows hold other numbers and have no status. -/
def MembershipStatus.fromI32 (status : Int) : Option MembershipStatus :=
  if status = 0 then some .invited else if status = 1 then some .accepted
  else if status = 2 then some .confirmed else none

structure OrgHeaders where
  device : Device
  user : User
  membershipType : MembershipType
  membershipStatus : MembershipStatus
  membership : Membership

namespace OrgHeaders

def isMember (h : OrgHeaders) : Bool :=
  h.membershipStatus ≠ .revoked ∧ MembershipType.user ≤ h.membershipType

/-- Confirmed, and of a role at least `role`. -/
def isConfirmedAnd (h : OrgHeaders) (role : MembershipType) : Bool :=
  h.membershipStatus = .confirmed ∧ role ≤ h.membershipType

def fromRequest : Cmd OrgHeaders := do
  let headers ← Headers.fromRequest env caller
  match ← query (Membership.findByUserAndOrg · headers.user.uuid org) with
  | none => err "The current user isn't member of the organization"
  | some membership =>
    match MembershipStatus.fromI32 membership.status with
    | none => err "User status is either revoked or invalid."
    | some status => pure ⟨headers.device, headers.user, membership.atype, status, membership⟩

def isConfirmedAndAdmin (h : OrgHeaders) : Bool := h.isConfirmedAnd .admin

def isConfirmedAndManager (h : OrgHeaders) : Bool := h.isConfirmedAnd .manager

/-- Nothing is above an owner, so this is an equality. -/
def isConfirmedAndOwner (h : OrgHeaders) : Bool := h.isConfirmedAnd .owner

/-- The organization guards: membership, then a condition on it. -/
def requiring (ok : OrgHeaders → Bool) (message : String) : Cmd OrgHeaders := do
  let headers ← fromRequest env caller org
  ensure (ok headers) message
  pure headers

end OrgHeaders

def AdminHeaders.fromRequest : Cmd OrgHeaders :=
  OrgHeaders.requiring env caller org OrgHeaders.isConfirmedAndAdmin
    "You need to be Admin or Owner to call this endpoint"

def OwnerHeaders.fromRequest : Cmd OrgHeaders :=
  OrgHeaders.requiring env caller org OrgHeaders.isConfirmedAndOwner
    "You need to be Owner to call this endpoint"

def OrgMemberHeaders.fromRequest : Cmd OrgHeaders :=
  OrgHeaders.requiring env caller org OrgHeaders.isMember
    "You need to be a Member of the Organization to call this endpoint"

def ManagerHeadersLoose.fromRequest : Cmd OrgHeaders :=
  OrgHeaders.requiring env caller org OrgHeaders.isConfirmedAndManager
    "You need to be a Manager, Admin or Owner to call this endpoint"

namespace ManagerHeaders

/-- The collection is read from the fourth segment of the path, and from the query values where
that is no identifier. -/
def getColId (path queryValue : Option CollectionId) : Option CollectionId := path.or queryValue

def fromRequest (path queryValue : Option CollectionId) : Cmd OrgHeaders := do
  let headers ← ManagerHeadersLoose.fromRequest env caller org
  match getColId path queryValue with
  | none => err "Error getting the collection id"
  | some collection =>
    let manageable ← query
      (Collection.isCollManageableByUser · collection headers.membership.userUuid)
    ensure manageable "The current user isn't a manager for this collection"
    pure headers

/-- Checks every collection named in the body. -/
def fromLoose (headers : OrgHeaders) (collections : List CollectionId) : Cmd Unit :=
  Prog.each collections fun k => do
    let manageable ← query (Collection.isCollManageableByUser · k headers.membership.userUuid)
    ensure manageable "Collection not found"

end ManagerHeaders

end VaultServer
