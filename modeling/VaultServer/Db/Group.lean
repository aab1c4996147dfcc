import VaultServer.Db.CipherAccess

/-!
# Groups and collection assignments: statements

The write side of `db/models/group.rs`. Before a write the revision of the affected users is
bumped, which never fails the write itself.
-/

namespace VaultServer

open Lib Prog

variable (db : Db) (env : Env) (group : GroupId) (org : OrganizationId) (member : MembershipId)

namespace GroupUser

def findByGroup : List GroupUser :=
  ((Group.memberRows db).filter fun (g, _, _) => g.uuid = group ∧ g.organizationsUuid = org).map
    fun (_, gu, _) => gu

/-- Nothing happens when the membership is gone. -/
def updateMemberRevision : Cmd Unit := do
  match ← query (Membership.findByUuid · member) with
  | some m => User.updateUuidRevision env m.userUuid
  | none => pure ()

def updateUserRevision (gu : GroupUser) : Cmd Unit :=
  updateMemberRevision env gu.usersOrganizationsUuid

def saveStmt (gu : GroupUser) (db : Db) : Option Db :=
  Db.guarded (db.hasGroup gu.groupsUuid && db.hasMembership gu.usersOrganizationsUuid)
    { db with groupsUsers := db.groupsUsers.upsert gu }

def save (gu : GroupUser) : Cmd Unit := do
  gu.updateUserRevision env
  exec gu.saveStmt "Error adding user to group" .write

def deleteWhere (p : GroupUser → Bool) (db : Db) : Db :=
  { db with groupsUsers := db.groupsUsers.deleteWhere p }

def deleteByGroupAndMember : Cmd Unit := do
  updateMemberRevision env member
  execTotal (deleteWhere fun gu => gu.groupsUuid = group ∧ gu.usersOrganizationsUuid = member)
    "Error deleting group users"

def deleteAllByGroup : Cmd Unit := do
  let groupUsers ← query (findByGroup · group org)
  each groupUsers fun gu => gu.updateUserRevision env
  execTotal (deleteWhere fun gu => gu.groupsUuid = group) "Error deleting group users"

def deleteAllByMember : Cmd Unit := do
  updateMemberRevision env member
  execTotal (deleteWhere fun gu => gu.usersOrganizationsUuid = member) "Error deleting user groups"

end GroupUser

namespace CollectionGroup

def findByCollection (collection : CollectionId) : List CollectionGroup :=
  let rows := innerJoin (db.collectionsGroups.rows.filter fun cg => cg.collectionsUuid = collection)
    db.collections.rows (fun cg k => k.uuid = cg.collectionsUuid) fun cg k => (cg, k)
  innerJoin rows db.groups.rows
    (fun r g => g.uuid = r.1.groupsUuid ∧ g.organizationsUuid = r.2.orgUuid) fun r _ => r.1

/-- Bumps the revision of everybody in the group. -/
def updateGroupRevision : Cmd Unit := do
  let groupUsers ← query (GroupUser.findByGroup · group org)
  each groupUsers fun gu => gu.updateUserRevision env

def saveStmt (cg : CollectionGroup) (db : Db) : Option Db :=
  Db.guarded (db.hasCollection cg.collectionsUuid && db.hasGroup cg.groupsUuid)
    { db with collectionsGroups := db.collectionsGroups.upsert cg }

def save (cg : CollectionGroup) (org : OrganizationId) : Cmd Unit := do
  updateGroupRevision env cg.groupsUuid org
  exec cg.saveStmt "Error adding group to collection" .write

def deleteWhere (p : CollectionGroup → Bool) (db : Db) : Db :=
  { db with collectionsGroups := db.collectionsGroups.deleteWhere p }

def delete (cg : CollectionGroup) (org : OrganizationId) : Cmd Unit := do
  updateGroupRevision env cg.groupsUuid org
  execTotal (deleteWhere fun x =>
      x.collectionsUuid = cg.collectionsUuid ∧ x.groupsUuid = cg.groupsUuid)
    "Error deleting collection group"

def deleteAllByGroup : Cmd Unit := do
  updateGroupRevision env group org
  execTotal (deleteWhere fun cg => cg.groupsUuid = group) "Error deleting collection group"

def deleteAllByCollection (collection : CollectionId) (org : OrganizationId) : Cmd Unit := do
  let assigned ← query (findByCollection · collection)
  each assigned fun cg => updateGroupRevision env cg.groupsUuid org
  execTotal (deleteWhere fun cg => cg.collectionsUuid = collection) "Error deleting collection group"

end CollectionGroup

namespace Group

/-- `uuid` is the freshly drawn identifier; a blank external identifier is not stored. -/
def new (uuid : Nat) (org : OrganizationId) (name : String) (accessAll : Bool)
    (externalId : Option String) : Group where
  uuid := ⟨uuid⟩
  organizationsUuid := org
  name := name
  accessAll := accessAll
  externalId := externalId.filter fun s => !(trimText s).isEmpty

def findByUuidAndOrg (uuid : GroupId) (org : OrganizationId) : Option Group :=
  db.groups.find? fun g => g.uuid = uuid ∧ g.organizationsUuid = org

def findByOrganization : List Group := db.groups.rows.filter fun g => g.organizationsUuid = org

def findByExternalIdAndOrg (externalId : String) (org : OrganizationId) : Option Group :=
  db.groups.find? fun g => g.externalId = some externalId ∧ g.organizationsUuid = org

def saveStmt (g : Group) (db : Db) : Option Db :=
  Db.guarded (db.hasOrganization g.organizationsUuid) { db with groups := db.groups.upsert g }

def save (g : Group) : Cmd Unit := exec g.saveStmt "Error saving group" .write

/-- Refused while an assignment still refers to the group. -/
def deleteStmt (uuid : GroupId) (db : Db) : Option Db :=
  Db.guarded (db.collectionsGroups.rows.all (fun cg => cg.groupsUuid ≠ uuid) &&
      db.groupsUsers.rows.all fun gu => gu.groupsUuid ≠ uuid)
    { db with groups := db.groups.deleteWhere fun g => g.uuid = uuid }

def delete (g : Group) (org : OrganizationId) : Cmd Unit := do
  CollectionGroup.deleteAllByGroup env g.uuid org
  GroupUser.deleteAllByGroup env g.uuid org
  exec (deleteStmt g.uuid) "Error deleting group" .write

def deleteAllByOrganization : Cmd Unit := do
  let groups ← query (findByOrganization · org)
  each groups fun g => g.delete env org

end Group

end VaultServer
