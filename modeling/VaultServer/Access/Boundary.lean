import VaultServer.Access.Paths

/-!
# The organization boundary

The three assignment tables connect rows of one organization only.
-/

namespace VaultServer

open Lib

/-- No assignment crosses organizations: a collection is assigned to members of its organization
and to groups of its organization, and a group has members of its organization. -/
structure OrgBoundary (db : Db) : Prop where
  usersCollections : ∀ cu ∈ db.usersCollections.rows, ∃ k ∈ db.collections.rows,
    k.uuid = cu.collectionUuid ∧
      ∃ m ∈ db.usersOrganizations.rows, m.userUuid = cu.userUuid ∧ m.orgUuid = k.orgUuid
  collectionsGroups : ∀ cg ∈ db.collectionsGroups.rows, ∃ k ∈ db.collections.rows,
    k.uuid = cg.collectionsUuid ∧
      ∃ g ∈ db.groups.rows, g.uuid = cg.groupsUuid ∧ g.organizationsUuid = k.orgUuid
  groupsUsers : ∀ gu ∈ db.groupsUsers.rows, ∃ g ∈ db.groups.rows, g.uuid = gu.groupsUuid ∧
    ∃ m ∈ db.usersOrganizations.rows, m.uuid = gu.usersOrganizationsUuid ∧
      m.orgUuid = g.organizationsUuid

end VaultServer
