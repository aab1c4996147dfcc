import VaultServer.Lib.Collect
import VaultServer.Db.Membership

/-!
# Who may read a cipher

The read side of `db/models/cipher.rs` with the group queries it uses and `CipherSyncData::new` of
`api/core/ciphers.rs`. Two independent computations decide access: `getAccessRestrictions`
answers for one cipher, `findByUser` lists the vault. Each query is the chain of joins of the
source over a `JoinRow`, which has one optional column group per table.
-/

namespace VaultServer

open Lib

/-- What a query has joined so far; `none` is an outer join without a match. -/
structure JoinRow where
  ciphers : Option Cipher := none
  ciphersCollections : Option CollectionCipher := none
  collections : Option Collection := none
  usersOrganizations : Option Membership := none
  usersCollections : Option CollectionUser := none
  groupsUsers : Option GroupUser := none
  groups : Option Group := none
  collectionsGroups : Option CollectionGroup := none

/-- `(read_only, hide_passwords, manage)`. -/
abbrev Flags := Bool × Bool × Bool

def CollectionUser.flags (r : CollectionUser) : Flags := (r.readOnly, r.hidePasswords, r.manage)

def CollectionGroup.flags (r : CollectionGroup) : Flags := (r.readOnly, r.hidePasswords, r.manage)

/-! ## The joins that several queries share -/

variable (cfg : Config) (db : Db) (c : Cipher) (user : UserId)

namespace JoinRow

/-- The links with their collections. -/
def ofLinks (links : List CollectionCipher) : List JoinRow :=
  innerJoin (links.map fun cc => ({ ciphersCollections := some cc } : JoinRow)) db.collections.rows
    (fun r k => r.ciphersCollections.any fun cc => k.uuid = cc.collectionUuid)
    fun r k => { r with collections := some k }

def withUsersCollections (rows : List JoinRow) : List JoinRow :=
  leftJoin rows db.usersCollections.rows
    (fun r cu => (r.ciphersCollections.any fun cc => cu.collectionUuid = cc.collectionUuid) ∧
      cu.userUuid = user)
    fun r o => { r with usersCollections := o }

def withGroupsUsers (rows : List JoinRow) : List JoinRow :=
  leftJoin rows db.groupsUsers.rows
    (fun r gu => r.usersOrganizations.any fun m => gu.usersOrganizationsUuid = m.uuid)
    fun r o => { r with groupsUsers := o }

/-- Only groups of the membership's own organization. -/
def withGroups (rows : List JoinRow) : List JoinRow :=
  leftJoin rows db.groups.rows
    (fun r g => (r.groupsUsers.any fun gu => g.uuid = gu.groupsUuid) ∧
      r.usersOrganizations.any fun m => g.organizationsUuid = m.orgUuid)
    fun r o => { r with groups := o }

def withCollectionsGroups (rows : List JoinRow) : List JoinRow :=
  leftJoin rows db.collectionsGroups.rows
    (fun r cg => (r.ciphersCollections.any fun cc => cg.collectionsUuid = cc.collectionUuid) ∧
      r.groups.any fun g => cg.groupsUuid = g.uuid)
    fun r o => { r with collectionsGroups := o }

/-- The three joins that lead from a membership and a link to the group's rights. -/
def withGroupRights (rows : List JoinRow) : List JoinRow :=
  withCollectionsGroups db (withGroups db (withGroupsUsers db rows))

end JoinRow

/-! ## Groups -/

namespace Group

/-- The rows `groups ⋈ groups_users ⋈ users_organizations` of one organization each. -/
def memberRows : List (Group × GroupUser × Membership) :=
  innerJoin (innerJoin db.groups.rows db.groupsUsers.rows
      (fun g gu => gu.groupsUuid = g.uuid) fun g gu => (g, gu)) db.usersOrganizations.rows
    (fun r m => m.uuid = r.2.usersOrganizationsUuid ∧ m.orgUuid = r.1.organizationsUuid)
    fun r m => (r.1, r.2, m)

def isInFullAccessGroup (org : OrganizationId) : Bool :=
  (memberRows db).any fun (g, _, m) =>
    m.userUuid = user ∧ g.organizationsUuid = org ∧ g.accessAll

def getOrgsByUserWithFullAccess : List OrganizationId :=
  selectDistinct
    (innerJoin (innerJoin db.groupsUsers.rows db.usersOrganizations.rows
        (fun gu m => m.uuid = gu.usersOrganizationsUuid) fun gu m => (gu, m)) db.groups.rows
      (fun r g => g.uuid = r.1.groupsUuid ∧ g.organizationsUuid = r.2.orgUuid)
      fun r g => (r.2, g))
    (fun (m, g) => m.userUuid = user ∧ g.accessAll) fun (_, g) => g.organizationsUuid

end Group

/-- `CollectionGroup::find_by_user`. -/
def CollectionGroup.findByUser : List CollectionGroup :=
  let rows := innerJoin db.collectionsGroups.rows db.groupsUsers.rows
    (fun cg gu => gu.groupsUuid = cg.groupsUuid) fun cg gu => (cg, gu)
  let rows := innerJoin rows db.usersOrganizations.rows
    (fun r m => m.uuid = r.2.usersOrganizationsUuid) fun r m => (r.1, m)
  let rows := innerJoin rows db.groups.rows
    (fun r g => g.uuid = r.1.groupsUuid ∧ g.organizationsUuid = r.2.orgUuid)
    fun r g => (r.1, r.2, g)
  let rows := innerJoin rows db.collections.rows
    (fun r k => k.uuid = r.1.collectionsUuid ∧ k.orgUuid = r.2.2.organizationsUuid)
    fun r _ => (r.1, r.2.1)
  (rows.filter fun r => r.2.userUuid = user).map fun r => r.1

/-! ## The data a full sync loads once -/

/-- The part of `CipherSyncData` that the access check reads; the hash maps are functions. -/
structure CipherSyncData where
  cipherCollections : CipherId → Option (List CollectionId)
  members : OrganizationId → Option Membership
  userCollections : CollectionId → Option CollectionUser
  userCollectionsGroups : CollectionId → Option CollectionGroup
  userGroupFullAccessForOrganizations : List OrganizationId

namespace Cipher

/-- `uuid` is the freshly drawn identifier. -/
def new (uuid : Nat) (now : Time) (atype : Int) (name : String) : Cipher where
  uuid := ⟨uuid⟩
  updatedAt := now
  userUuid := none
  organizationUuid := none
  key := none
  atype := atype
  name := name
  notes := none
  fields := none
  data := ""
  passwordHistory := none
  deletedAt := none
  reprompt := none

/-- The links of the collections of the user's organizations, with the membership. -/
def memberLinkRows : List JoinRow :=
  innerJoin (JoinRow.ofLinks db db.ciphersCollections.rows) db.usersOrganizations.rows
    (fun r m => (r.collections.any fun k => m.orgUuid = k.orgUuid) ∧ m.userUuid = user)
    fun r m => { r with usersOrganizations := some m }

/-- Every link of the user's organizations that some right of the user covers. -/
def getCollectionsWithCipherByUser : List CollectionCipher :=
  let rows := JoinRow.withUsersCollections db user (memberLinkRows db user)
  let rows := JoinRow.withGroupRights db rows
  let rows := rows.filter fun r =>
    (r.usersCollections.any fun cu => cu.userUuid = user)
      ∨ (r.usersOrganizations.any fun m => m.accessAll)
      ∨ (r.usersOrganizations.any fun m => m.atype.toI32 ≤ MembershipType.admin.toI32)
      ∨ (r.groups.any fun g => g.accessAll)
      ∨ r.collectionsGroups.isSome
  (rows.filterMap fun r => r.ciphersCollections).dedup

end Cipher

/-- The entry of two rows of one collection: the most permissive of both. -/
def CollectionGroup.combine (existing : Option CollectionGroup) (cg : CollectionGroup) :
    CollectionGroup :=
  match existing with
  | some e =>
    { e with
      readOnly := e.readOnly && cg.readOnly
      hidePasswords := e.hidePasswords && cg.hidePasswords
      manage := e.manage || cg.manage }
  | none => cg

def CollectionUser.findByUser : List CollectionUser :=
  db.usersCollections.rows.filter fun cu => cu.userUuid = user

def CipherSyncData.new : CipherSyncData where
  cipherCollections :=
    collectMap (Cipher.getCollectionsWithCipherByUser db user) (fun cc => cc.cipherUuid)
      fun o cc => o.getD [] ++ [cc.collectionUuid]
  members := collectMap (Membership.findConfirmedByUser db user) (fun m => m.orgUuid) fun _ m => m
  userCollections :=
    collectMap (CollectionUser.findByUser db user) (fun cu => cu.collectionUuid) fun _ cu => cu
  userCollectionsGroups :=
    if cfg.orgGroupsEnabled then
      collectMap (CollectionGroup.findByUser db user) (fun cg => cg.collectionsUuid)
        CollectionGroup.combine
    else fun _ => none
  userGroupFullAccessForOrganizations :=
    if cfg.orgGroupsEnabled then Group.getOrgsByUserWithFullAccess db user else []

/-! ## The check for one cipher -/

namespace Cipher

def isOwnedByUser : Bool := c.userUuid = some user

def isInFullAccessOrg (sync : Option CipherSyncData) : Bool :=
  match c.organizationUuid with
  | none => false
  | some org =>
    match sync with
    | some s => (s.members org).any fun m => m.hasFullAccess
    | none => (Membership.findConfirmedByUserAndOrg db user org).any fun m => m.hasFullAccess

def isInFullAccessGroup (sync : Option CipherSyncData) : Bool :=
  if cfg.orgGroupsEnabled then
    match c.organizationUuid with
    | none => false
    | some org =>
      match sync with
      | some s => s.userGroupFullAccessForOrganizations.contains org
      | none => Group.isInFullAccessGroup db user org
  else false

/-- No join with the membership here, so no look at its status. -/
def getUserCollectionsAccessFlags : List Flags :=
  let rows := db.ciphers.rows.filter fun x => x.uuid = c.uuid
  let rows := innerJoin rows db.ciphersCollections.rows
    (fun x cc => x.uuid = cc.cipherUuid) fun _ cc => cc
  innerJoin rows db.usersCollections.rows
    (fun cc cu => cc.collectionUuid = cu.collectionUuid ∧ cu.userUuid = user) fun _ cu => cu.flags

def getGroupCollectionsAccessFlags : List Flags :=
  if cfg.orgGroupsEnabled then
    let rows := db.ciphers.rows.filter fun x => x.uuid = c.uuid
    let rows := innerJoin rows db.ciphersCollections.rows
      (fun x cc => x.uuid = cc.cipherUuid) fun _ cc => cc
    let rows := innerJoin rows db.collectionsGroups.rows
      (fun cc cg => cg.collectionsUuid = cc.collectionUuid) fun _ cg => cg
    let rows := innerJoin rows db.groupsUsers.rows
      (fun cg gu => gu.groupsUuid = cg.groupsUuid) fun cg gu => (cg, gu)
    let rows := innerJoin rows db.usersOrganizations.rows
      (fun r m => m.uuid = r.2.usersOrganizationsUuid) fun r m => (r.1, m)
    let rows := innerJoin rows db.groups.rows
      (fun r g => g.uuid = r.1.groupsUuid ∧ g.organizationsUuid = r.2.orgUuid) fun r _ => r
    (rows.filter fun r => r.2.userUuid = user).map fun r => r.1.flags
  else []

/-- The rows of the preloaded maps: a direct assignment hides the groups of the same collection. -/
def syncFlags (s : CipherSyncData) (c : Cipher) : List Flags :=
  ((s.cipherCollections c.uuid).getD []).filterMap fun k =>
    match s.userCollections k with
    | some cu => some cu.flags
    | none => (s.userCollectionsGroups k).map CollectionGroup.flags

/-- The rows of the live queries: one direct assignment hides every group. -/
def liveFlags : List Flags :=
  let userPermissions := getUserCollectionsAccessFlags db c user
  if userPermissions.isEmpty then getGroupCollectionsAccessFlags cfg db c user
  else userPermissions

/-- A restriction holds when every row has it, `manage` when some row has it. -/
def combineFlags (rows : List Flags) : Flags :=
  rows.foldl (fun f r => (f.1 && r.1, f.2.1 && r.2.1, f.2.2 || r.2.2)) (true, true, false)

def hasFullAccess (sync : Option CipherSyncData) : Bool :=
  c.isOwnedByUser user || c.isInFullAccessOrg db user sync || c.isInFullAccessGroup cfg db user sync

def getAccessRestrictions (sync : Option CipherSyncData) : Option Flags :=
  if hasFullAccess cfg db c user sync then some (false, false, true)
  else
    let rows := match sync with
      | some s => syncFlags s c
      | none => liveFlags cfg db c user
    if rows.isEmpty then none else some (combineFlags rows)

def isWriteAccessibleToUser : Bool :=
  (getAccessRestrictions cfg db c user none).any fun (readOnly, _, manage) => !readOnly || manage

def isInEditableCollectionByUser : Bool :=
  (getAccessRestrictions cfg db c user none).any fun (readOnly, hidePasswords, manage) =>
    (!readOnly && !hidePasswords) || manage

def isAccessibleToUser : Bool := (getAccessRestrictions cfg db c user none).isSome

/-! ## The vault listing -/

/-- The joins both variants of the query share. The membership has to be confirmed, and the
assignment has to be of the member, so it is missing for everybody else. -/
def vaultRows : List JoinRow :=
  let rows := db.ciphers.rows.map fun c => ({ ciphers := some c } : JoinRow)
  let rows := leftJoin rows db.ciphersCollections.rows
    (fun r cc => r.ciphers.any fun c => c.uuid = cc.cipherUuid)
    fun r o => { r with ciphersCollections := o }
  let rows := leftJoin rows db.usersOrganizations.rows
    (fun r m => (r.ciphers.any fun c => c.organizationUuid = some m.orgUuid) ∧
      m.userUuid = user ∧ m.hasStatus .confirmed)
    fun r o => { r with usersOrganizations := o }
  leftJoin rows db.usersCollections.rows
    (fun r cu => (r.ciphersCollections.any fun cc => cc.collectionUuid = cu.collectionUuid) ∧
      r.usersOrganizations.any fun m => m.userUuid = cu.userUuid)
    fun r o => { r with usersCollections := o }

def vaultFilter (visibleOnly : Bool) (r : JoinRow) : Bool :=
  (r.ciphers.any fun c => c.userUuid = some user)
    || (r.usersOrganizations.any fun m => m.accessAll)
    || (r.usersCollections.any fun cu => cu.userUuid = user)
    || (r.groups.any fun g => g.accessAll)
    || r.collectionsGroups.isSome
    || (!visibleOnly && r.usersOrganizations.any fun m =>
      m.atype.toI32 ≤ MembershipType.admin.toI32)

/-- Without groups the two group columns stay empty, so their filters never apply. -/
def findByUser (visibleOnly : Bool) (cipherUuids : List CipherId) : List Cipher :=
  let rows := if cfg.orgGroupsEnabled then JoinRow.withGroupRights db (vaultRows db user)
    else vaultRows db user
  let rows := rows.filter fun r => vaultFilter user visibleOnly r &&
    (cipherUuids.isEmpty || r.ciphers.any fun c => cipherUuids.contains c.uuid)
  (rows.filterMap fun r => r.ciphers).dedup

def findByUserVisible : List Cipher := findByUser cfg db user true []

def findByUserAndCiphers (cipherUuids : List CipherId) : List Cipher :=
  findByUser cfg db user true cipherUuids

end Cipher

end VaultServer
