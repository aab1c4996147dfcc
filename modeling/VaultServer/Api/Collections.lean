import VaultServer.Api.Ciphers

/-!
# Organization and collection requests

The handlers of `api/core/organizations.rs` for organizations, their collections, and the vault
items of an organization. Each takes what its guard has established: the account, or the headers
with the membership in the organization of the request.
-/

namespace VaultServer

open Lib Prog

def orgIdMessage : String := "Organization not found"

/-! ## Organizations -/

structure OrgKeyData where
  encryptedPrivateKey : String
  publicKey : String

structure OrgData where
  billingEmail : String
  collectionName : String
  key : String
  name : String
  keys : Option OrgKeyData

/-- `Organization::new`; `uuid` is freshly drawn. -/
def Organization.new (uuid : Nat) (name billingEmail : String)
    (privateKey publicKey : Option String) : Organization :=
  ⟨⟨uuid⟩, name, toLowercase billingEmail, privateKey, publicKey⟩

variable (env : Env) (org : OrganizationId) (collection : CollectionId)

/-- The organization, its owner and its first collection. -/
def createOrganization (data : OrgData) (user : User) : Cmd Unit := do
  ensure (env.isOrgCreationAllowed user.email) "User not allowed to create organizations"
  let forbidden ← query (OrgPolicy.isApplicableToUser · user.uuid .singleOrg none)
  ensure (!forbidden) <| "You may not create an organization. You belong to an organization which "
    ++ "has a policy that prohibits you from being a member of any other organization."
  let orgUuid ← getUuid
  let org := Organization.new orgUuid data.name data.billingEmail
    (data.keys.map fun k => k.encryptedPrivateKey) (data.keys.map fun k => k.publicKey)
  let memberUuid ← getUuid
  let collectionUuid ← getUuid
  org.save env
  Membership.save env { Membership.new memberUuid user.uuid org.uuid none with
    akey := data.key
    accessAll := true
    atype := .owner
    status := MembershipStatus.confirmed.toI32 }
  Collection.save env (Collection.new collectionUuid org.uuid data.collectionName none)

def deleteOrganization (data : PasswordOrOtpData) (headers : OrgHeaders) : Cmd Unit := do
  ensure (org = headers.membership.orgUuid) orgIdMessage
  data.validate env headers.user true
  match ← query (Organization.findByUuid · org) with
  | none => err "Organization not found"
  | some o => o.delete env

def leaveOrganization (headers : OrgHeaders) : Cmd Unit := do
  ensure (headers.membership.hasStatus .confirmed)
    "You need to be a Member of the Organization to call this endpoint"
  let owners ← query (Membership.countConfirmedByOrgAndType · org .owner)
  ensure (headers.membership.atype ≠ .owner ∨ owners > 1) "The last owner can't leave"
  headers.membership.delete env

def postOrganization (name billingEmail : String) (headers : OrgHeaders) : Cmd Unit := do
  ensure (org = headers.membership.orgUuid) orgIdMessage
  match ← query (Organization.findByUuid · org) with
  | none => err "Organization not found"
  | some o => Organization.save env { o with name := name, billingEmail := toLowercase billingEmail }

/-! ## Collections -/

structure CollectionGroupData where
  id : GroupId
  readOnly : Bool
  hidePasswords : Bool
  manage : Bool

structure CollectionMembershipData where
  id : MembershipId
  readOnly : Bool
  hidePasswords : Bool
  manage : Bool

structure FullCollectionData where
  name : String
  groups : List CollectionGroupData
  users : List CollectionMembershipData
  id : Option CollectionId
  externalId : Option String

/-- Every named group belongs to the organization. -/
def validateGroups (groups : List CollectionGroupData) : Cmd Unit := do
  let orgGroups ← query (Group.findByOrganization · org)
  ensure (groups.all fun g => orgGroups.any fun x => x.uuid = g.id) "Invalid group"

/-- Every named member belongs to the organization. -/
def validateMembers (users : List CollectionMembershipData) : Cmd Unit := do
  let members ← query (Membership.findByOrg · org)
  ensure (users.all fun u => members.any fun m => m.uuid = u.id) "Invalid member"

def FullCollectionData.validate (data : FullCollectionData) (org : OrganizationId) : Cmd Unit := do
  validateGroups org data.groups
  validateMembers org data.users

/-- Assigns the collection to the groups as they are; the caller has checked them. -/
def assignGroups (groups : List CollectionGroupData) : Cmd Unit :=
  each groups fun g =>
    CollectionGroup.save env ⟨collection, g.id, g.readOnly, g.hidePasswords, g.manage⟩ org

/-- Members that see everything need no assignment. -/
def assignMember (user : CollectionMembershipData) : Cmd Unit := do
  match ← query (Membership.findByUuidAndOrg · user.id org) with
  | none => err "User is not part of organization"
  | some m =>
    if m.accessAll then pure ()
    else CollectionUser.save env m.userUuid collection user.readOnly user.hidePasswords user.manage

def assignMembers (users : List CollectionMembershipData) : Cmd Unit :=
  each users (assignMember env org collection)

/-- Replaces who the collection is assigned to. -/
def reassign
    (groups : List CollectionGroupData) (users : List CollectionMembershipData) : Cmd Unit := do
  CollectionGroup.deleteAllByCollection env collection org
  assignGroups env org collection groups
  CollectionUser.deleteAllByCollection env collection
  assignMembers env org collection users

def postOrganizationCollections (data : FullCollectionData) (headers : OrgHeaders) : Cmd Unit := do
  ensure (org = headers.membership.orgUuid) orgIdMessage
  data.validate org
  ensure (headers.membership.atype ≠ .manager ∨ headers.membership.accessAll)
    "You don't have permission to create collections"
  let uuid ← getUuid
  let collection := Collection.new uuid org data.name data.externalId
  collection.save env
  assignGroups env org collection.uuid data.groups
  assignMembers env org collection.uuid data.users

structure BulkCollectionAccessData where
  collectionIds : List CollectionId
  groups : List CollectionGroupData
  users : List CollectionMembershipData

def bulkAccess (data : BulkCollectionAccessData) (me : UserId)
    (collection : CollectionId) : Cmd Unit := do
  match ← query (Collection.findByUuidAndOrg · collection org) with
  | none => err "Collection not found"
  | some k =>
    let manageable ← query (Collection.isCollManageableByUser · k.uuid me)
    ensure manageable "Collection not found"
    k.save env
    reassign env org collection data.groups data.users

/-- The groups are checked once, the collections and members in the loop. -/
def postBulkAccessCollections (data : BulkCollectionAccessData)
    (headers : OrgHeaders) : Cmd Unit := do
  ensure (org = headers.membership.orgUuid) orgIdMessage
  let found ← query (Organization.findByUuid · org)
  ensure found.isSome "Can't find organization details"
  validateGroups org data.groups
  each data.collectionIds (bulkAccess env org data headers.membership.userUuid)

def postOrganizationCollectionUpdate
    (data : FullCollectionData) (headers : OrgHeaders) : Cmd Unit := do
  ensure (org = headers.membership.orgUuid) orgIdMessage
  data.validate org
  let found ← query (Organization.findByUuid · org)
  ensure found.isSome "Can't find organization details"
  match ← query (Collection.findByUuidAndOrg · collection org) with
  | none => err "Collection not found"
  | some k =>
    Collection.save env { k with
      name := data.name
      externalId := data.externalId.filter fun s => !(trimText s).isEmpty }
    reassign env org collection data.groups data.users

def deleteOrganizationCollectionImpl (headers : OrgHeaders)
    (collection : CollectionId) : Cmd Unit := do
  ensure (org = headers.membership.orgUuid) orgIdMessage
  match ← query (Collection.findByUuidAndOrg · collection org) with
  | none => err "Collection not found"
  | some k => k.delete env

def bulkDeleteOrganizationCollections (ids : List CollectionId)
    (headers : OrgHeaders) : Cmd Unit := do
  ensure (org = headers.membership.orgUuid) orgIdMessage
  ManagerHeaders.fromLoose headers ids
  each ids (deleteOrganizationCollectionImpl env org headers)

/-! ## Items of an organization -/

structure OrgImportData where
  ciphers : List CipherData
  collections : List FullCollectionData
  collectionRelationships : List RelationsData

/-- Takes an existing collection of the organization or creates one. -/
def importCollection (member : Membership)
    (existing : List Collection) (collections : List CollectionId) (data : FullCollectionData) :
    Cmd (List CollectionId) :=
  match data.id.bind fun id => existing.find? fun k => k.uuid = id with
  | some k => do
    let writable ← query (k.isWritableByUser env.toConfig · member.userUuid)
    ensure (MembershipType.admin ≤ member.atype ∨ writable)
      "The current user isn't allowed to manage this collection"
    pure (collections ++ [k.uuid])
  | none => do
    ensure (MembershipType.manager < member.atype ∨ member.hasFullAccess)
      "The current user isn't allowed to create new collections"
    let uuid ← getUuid
    let k := Collection.new uuid org data.name data.externalId
    k.save env
    pure (collections ++ [k.uuid])

/-- A cipher that cannot be stored is skipped, but keeps its place in the list. -/
def importOrgCipher (me : UserId)
    (collections : List CollectionId) (ciphers : List CipherId) (data : CipherData) :
    Cmd (List CipherId) := do
  let data := { data with folderId := none, organizationId := some org }
  let uuid ← getUuid
  let _ ← catchErr (updateCipherFromData env (Cipher.new uuid env.now data.type data.name) data me
    (some collections) .none)
  pure (ciphers ++ [⟨uuid⟩])

def importLink (ciphers : List CipherId) (collections : List CollectionId)
    (relation : RelationsData) : Cmd Unit :=
  match ciphers[relation.key]?, collections[relation.value]? with
  | some c, some k => CollectionCipher.save env c k
  | _, _ => err "Invalid collection relationship"

def postOrgImport (data : OrgImportData) (headers : OrgHeaders) : Cmd Unit := do
  ensure (org = headers.membership.orgUuid) orgIdMessage
  validateCipherData env.toConfig data.ciphers
  let existing ← query (Collection.findByOrganization · org)
  let collections ← Prog.foldl data.collections []
    (importCollection env org headers.membership existing)
  let ciphers ← Prog.foldl data.ciphers [] (importOrgCipher env org headers.user.uuid collections)
  each data.collectionRelationships (importLink env ciphers collections)
  User.updateRevision env headers.user.uuid

structure BulkCollectionsData where
  organizationId : OrganizationId
  cipherIds : List CipherId
  /-- A set: the walk is over its elements without repetition. -/
  collectionIds : List CollectionId
  removeCollections : Bool

/-- Every named collection is listed for the user and writable by them. -/
def checkBulkCollections (data : BulkCollectionsData) (me : UserId) : Cmd Unit := do
  let listed ← query (Collection.findByOrganizationAndUserUuid env.toConfig · data.organizationId me)
  each (env.walk.order data.collectionIds.dedup) fun id =>
    match listed.find? fun k => k.uuid = id with
    | none => err "Resource not found"
    | some k => do
      let writable ← query (k.isWritableByUser env.toConfig · me)
      ensure writable "Resource not found"

/-- Ciphers that are gone or not writable are passed over. -/
def bulkCipher (data : BulkCollectionsData) (me : UserId) (cipherId : CipherId) : Cmd Unit := do
  match ← query (Cipher.findByUuidAndOrg · cipherId data.organizationId) with
  | none => pure ()
  | some c =>
    let writable ← query (Cipher.isWriteAccessibleToUser env.toConfig · c me)
    if writable then
      each (env.walk.order data.collectionIds.dedup) fun k =>
        if data.removeCollections then CollectionCipher.delete env c.uuid k
        else CollectionCipher.save env c.uuid k

def postBulkCollections (data : BulkCollectionsData) (me : UserId) : Cmd Unit := do
  let member ← query (Membership.findConfirmedByUserAndOrg · me data.organizationId)
  ensure member.isSome "You need to be a Member of the Organization to call this endpoint"
  checkBulkCollections env data me
  each data.cipherIds (bulkCipher env data me)

end VaultServer
