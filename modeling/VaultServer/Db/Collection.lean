import VaultServer.Db.Group

/-!
# Collections: queries and statements

`db/models/collection.rs`. The queries about one collection start from the collection and join the
membership of the user in its organization; `isWritableByUser` and the manage queries take the
membership in any state, `findByUserUuid` only a confirmed one. The group right is joined by the
group of `groups_users`, not by the joined `groups` row.
-/

namespace VaultServer

open Lib Prog

variable (db : Db) (env : Env) (collection : CollectionId) (org : OrganizationId) (user : UserId)

namespace JoinRow

def ofCollections (ks : List Collection) : List JoinRow := ks.map fun k => { collections := some k }

/-- The user's own assignment of the collection. -/
def withAssignment (rows : List JoinRow) : List JoinRow :=
  leftJoin rows db.usersCollections.rows
    (fun r cu => (r.collections.any fun k => cu.collectionUuid = k.uuid) ∧ cu.userUuid = user)
    fun r o => { r with usersCollections := o }

/-- The membership of the user in the collection's organization. -/
def memberOn (r : JoinRow) (m : Membership) : Bool :=
  (r.collections.any fun k => k.orgUuid = m.orgUuid) ∧ m.userUuid = user

def withMember (rows : List JoinRow) : List JoinRow :=
  leftJoin rows db.usersOrganizations.rows (memberOn user)
    fun r o => { r with usersOrganizations := o }

def withCollectionRights (rows : List JoinRow) : List JoinRow :=
  leftJoin rows db.collectionsGroups.rows
    (fun r cg => (r.groupsUsers.any fun gu => cg.groupsUuid = gu.groupsUuid) ∧
      r.collections.any fun k => cg.collectionsUuid = k.uuid)
    fun r o => { r with collectionsGroups := o }

/-- From the membership to its groups and their rights on the collection. -/
def withMemberGroups (rows : List JoinRow) : List JoinRow :=
  withCollectionRights db (withGroups db (withGroupsUsers db rows))

end JoinRow

namespace Collection

/-- `uuid` is the freshly drawn identifier; an empty external identifier is not stored. -/
def new (uuid : Nat) (org : OrganizationId) (name : String) (externalId : Option String) :
    Collection where
  uuid := ⟨uuid⟩
  orgUuid := org
  name := name
  externalId := externalId.filter fun s => s ≠ ""

/-! ## Queries -/

def findByUuid (uuid : CollectionId) : Option Collection :=
  db.collections.find? fun k => k.uuid = uuid

def findByUuidAndOrg (uuid : CollectionId) (org : OrganizationId) : Option Collection :=
  db.collections.find? fun k => k.uuid = uuid ∧ k.orgUuid = org

def findByOrganization : List Collection := db.collections.rows.filter fun k => k.orgUuid = org

def findByUserUuid (cfg : Config) (db : Db) (user : UserId) : List Collection :=
  let rows := JoinRow.ofCollections db.collections.rows
  let rows := JoinRow.withMember db user (JoinRow.withAssignment db user rows)
  let rows := if cfg.orgGroupsEnabled then JoinRow.withMemberGroups db rows else rows
  let rows := rows.filter fun r =>
    (r.usersOrganizations.any fun m => m.hasStatus .confirmed) ∧
      ((r.usersCollections.any fun cu => cu.userUuid = user)
        ∨ (r.usersOrganizations.any fun m => m.accessAll)
        ∨ (r.groups.any fun g => g.accessAll)
        ∨ r.collectionsGroups.isSome)
  (rows.filterMap fun r => r.collections).dedup

def findByOrganizationAndUserUuid (cfg : Config) (db : Db) (org : OrganizationId) (user : UserId) :
    List Collection :=
  (findByUserUuid cfg db user).filter fun k => k.orgUuid = org

def isWritableByUser (cfg : Config) (db : Db) (k : Collection) (user : UserId) : Bool :=
  let rows := JoinRow.ofCollections (db.collections.rows.filter fun x => x.uuid = k.uuid)
  let rows := innerJoin rows db.usersOrganizations.rows (JoinRow.memberOn user)
    fun r m => { r with usersOrganizations := some m }
  let rows := JoinRow.withAssignment db user rows
  let rows := if cfg.orgGroupsEnabled then JoinRow.withMemberGroups db rows else rows
  rows.any fun r =>
    (r.usersOrganizations.any fun m => m.atype.toI32 ≤ MembershipType.admin.toI32)
      ∨ (r.usersOrganizations.any fun m => m.accessAll)
      ∨ (r.usersCollections.any fun cu => cu.collectionUuid = k.uuid ∧ !cu.readOnly)
      ∨ (r.groups.any fun g => g.accessAll)
      ∨ (r.collectionsGroups.any fun cg => !cg.readOnly)

def isCollManageableByUser (uuid : CollectionId) (user : UserId) : Bool :=
  let rows := JoinRow.ofCollections (db.collections.rows.filter fun x => x.uuid = uuid)
  let rows := JoinRow.withMember db user (JoinRow.withAssignment db user rows)
  (JoinRow.withMemberGroups db rows).any fun r =>
    (r.usersCollections.any fun cu => cu.collectionUuid = uuid ∧ cu.manage)
      ∨ (r.usersOrganizations.any fun m => m.accessAll)
      ∨ (r.usersOrganizations.any fun m => m.atype.toI32 ≤ MembershipType.admin.toI32)
      ∨ (r.groups.any fun g => g.accessAll)
      ∨ (r.collectionsGroups.any fun cg => cg.manage)

end Collection

/-- `Membership::find_by_collection_and_org`: the members whose revision a change touches. -/
def Membership.findByCollectionAndOrg : List Membership :=
  (leftJoin (db.usersOrganizations.rows.filter fun m => m.orgUuid = org) db.usersCollections.rows
    (fun m cu => cu.userUuid = m.userUuid) fun m o => (m, o)).filter
      (fun (m, o) => m.accessAll ∨ o.any fun cu => cu.collectionUuid = collection) |>.map
      fun (m, _) => m

/-! ## Assignments -/

namespace CollectionUser

def findByOrganizationAndUserUuid : List CollectionUser :=
  (innerJoin (db.usersCollections.rows.filter fun cu => cu.userUuid = user) db.collections.rows
    (fun cu k => k.uuid = cu.collectionUuid) fun cu k => (cu, k)).filter
      (fun (_, k) => k.orgUuid = org) |>.map fun (cu, _) => cu

def findByCollection : List CollectionUser :=
  db.usersCollections.rows.filter fun cu => cu.collectionUuid = collection

def saveStmt (cu : CollectionUser) (db : Db) : Option Db :=
  Db.guarded (db.hasUser cu.userUuid && db.hasCollection cu.collectionUuid)
    { db with usersCollections := db.usersCollections.upsert cu }

def save (collection : CollectionId) (readOnly hidePasswords manage : Bool) : Cmd Unit := do
  User.updateUuidRevision env user
  exec (saveStmt ⟨user, collection, readOnly, hidePasswords, manage⟩)
    "Error adding user to collection" .write

def deleteWhere (p : CollectionUser → Bool) (db : Db) : Db :=
  { db with usersCollections := db.usersCollections.deleteWhere p }

def delete (cu : CollectionUser) : Cmd Unit := do
  User.updateUuidRevision env cu.userUuid
  execTotal (deleteWhere fun x => x.userUuid = cu.userUuid ∧ x.collectionUuid = cu.collectionUuid)
    "Error removing user from collection"

def deleteAllByCollection : Cmd Unit := do
  let users ← query (findByCollection · collection)
  each users fun cu => User.updateUuidRevision env cu.userUuid
  execTotal (deleteWhere fun cu => cu.collectionUuid = collection)
    "Error deleting users from collection"

def deleteAllByUserAndOrg (org : OrganizationId) : Cmd Unit := do
  let collectionUsers ← query (findByOrganizationAndUserUuid · org user)
  each collectionUsers fun cu =>
    execTotal (deleteWhere fun x => x.userUuid = user ∧ x.collectionUuid = cu.collectionUuid)
      "Error removing user from collections"

end CollectionUser

/-! ## Collections and their links -/

namespace Collection

def updateUsersRevision (k : Collection) : Cmd Unit := do
  let members ← query (Membership.findByCollectionAndOrg · k.uuid k.orgUuid)
  each members fun m => User.updateUuidRevision env m.userUuid

end Collection

namespace CollectionCipher

def updateUsersRevision : Cmd Unit := do
  match ← query (Collection.findByUuid · collection) with
  | some k => k.updateUsersRevision env
  | none => pure ()

def saveStmt (cc : CollectionCipher) (db : Db) : Option Db :=
  Db.guarded (db.hasCipher cc.cipherUuid && db.hasCollection cc.collectionUuid)
    { db with ciphersCollections := db.ciphersCollections.upsert cc }

def save (cipher : CipherId) (collection : CollectionId) : Cmd Unit := do
  updateUsersRevision env collection
  exec (saveStmt ⟨cipher, collection⟩) "Error adding cipher to collection" .write

def deleteWhere (p : CollectionCipher → Bool) (db : Db) : Db :=
  { db with ciphersCollections := db.ciphersCollections.deleteWhere p }

def delete (cipher : CipherId) (collection : CollectionId) : Cmd Unit := do
  updateUsersRevision env collection
  execTotal (deleteWhere fun cc => cc.cipherUuid = cipher ∧ cc.collectionUuid = collection)
    "Error deleting cipher from collection"

def deleteAllByCipher (cipher : CipherId) : Cmd Unit :=
  execTotal (deleteWhere fun cc => cc.cipherUuid = cipher) "Error removing cipher from collections"

def deleteAllByCollection : Cmd Unit :=
  execTotal (deleteWhere fun cc => cc.collectionUuid = collection)
    "Error removing ciphers from collection"

end CollectionCipher

namespace Collection

def saveStmt (k : Collection) (db : Db) : Option Db :=
  Db.guarded (db.hasOrganization k.orgUuid) { db with collections := db.collections.upsert k }

def save (k : Collection) : Cmd Unit := do
  k.updateUsersRevision env
  exec k.saveStmt "Error saving collection" .write

/-- Refused while a link or an assignment still refers to the collection. -/
def deleteStmt (uuid : CollectionId) (db : Db) : Option Db :=
  Db.guarded (db.ciphersCollections.rows.all (fun cc => cc.collectionUuid ≠ uuid) &&
      db.usersCollections.rows.all (fun cu => cu.collectionUuid ≠ uuid) &&
      db.collectionsGroups.rows.all fun cg => cg.collectionsUuid ≠ uuid)
    { db with collections := db.collections.deleteWhere fun k => k.uuid = uuid }

def delete (k : Collection) : Cmd Unit := do
  k.updateUsersRevision env
  CollectionCipher.deleteAllByCollection k.uuid
  CollectionUser.deleteAllByCollection env k.uuid
  CollectionGroup.deleteAllByCollection env k.uuid k.orgUuid
  exec (deleteStmt k.uuid) "Error deleting collection" .write

def deleteAllByOrganization : Cmd Unit := do
  let collections ← query (findByOrganization · org)
  each collections fun k => k.delete env

end Collection

end VaultServer
