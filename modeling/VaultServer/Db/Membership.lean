import VaultServer.Db.User

/-!
# Memberships

`db/models/organization.rs`: the role order, the status arithmetic of revoking, and the queries
over `users_organizations`. Roles have two orders. The Rust comparison goes by access level
(owner, admin, manager, user); the queries compare the stored number, under which owner and admin
are the two smallest.
-/

namespace VaultServer

open Lib Table

/-! ## Roles and states -/

namespace MembershipType

def toI32 : MembershipType → Int
  | owner => 0
  | admin => 1
  | user => 2
  | manager => 3

def accessLevel : MembershipType → Nat
  | owner => 3
  | admin => 2
  | user => 0
  | manager => 1

instance : LE MembershipType := ⟨fun a b => a.accessLevel ≤ b.accessLevel⟩

instance : LT MembershipType := ⟨fun a b => a.accessLevel < b.accessLevel⟩

instance (a b : MembershipType) : Decidable (a ≤ b) :=
  inferInstanceAs (Decidable (a.accessLevel ≤ b.accessLevel))

instance (a b : MembershipType) : Decidable (a < b) :=
  inferInstanceAs (Decidable (a.accessLevel < b.accessLevel))

def fromStr : String → Option MembershipType
  | "0" | "Owner" => some owner
  | "1" | "Admin" => some admin
  | "2" | "User" => some user
  | "3" | "Manager" => some manager
  -- the custom role is turned into a manager
  | "4" | "Custom" => some manager
  | _ => none

/-- `atype <= 1` in a query selects what `>= Admin` selects in the code. -/
theorem toI32_le_admin : a.toI32 ≤ admin.toI32 ↔ admin ≤ a := by
  cases a <;> decide

end MembershipType

def MembershipStatus.toI32 : MembershipStatus → Int
  | revoked => -1
  | invited => 0
  | accepted => 1
  | confirmed => 2

variable (db : Db) (user : UserId) (org : OrganizationId) (m : Membership)

namespace Membership

def activateRevokeDiff : Int := 128

/-- `uuid` is the freshly drawn identifier. -/
def new (uuid : Nat) (user : UserId) (org : OrganizationId) (invitedByEmail : Option String) :
    Membership where
  uuid := ⟨uuid⟩
  userUuid := user
  orgUuid := org
  invitedByEmail := invitedByEmail
  accessAll := false
  akey := ""
  status := MembershipStatus.accepted.toI32
  atype := .user
  resetPasswordKey := none
  externalId := none

/-- The restored row, or `none` when it was not revoked. -/
def restore : Option Membership :=
  if m.status < MembershipStatus.invited.toI32 then
    some { m with status := m.status + activateRevokeDiff }
  else none

def revoke : Option Membership :=
  if m.status > MembershipStatus.revoked.toI32 then
    some { m with status := m.status - activateRevokeDiff }
  else none

/-- The changed row, or `none` when the identifier is the stored one. -/
def setExternalId (externalId : Option String) : Option Membership :=
  if m.externalId = externalId then none
  else some { m with externalId := externalId.filter fun s => s ≠ "" }

def hasStatus (s : MembershipStatus) : Bool := m.status = s.toI32

def hasFullAccess : Bool :=
  (m.accessAll || MembershipType.admin ≤ m.atype) && m.hasStatus .confirmed

/-! ## Queries -/

def findByUuid (uuid : MembershipId) : Option Membership :=
  db.usersOrganizations.find? fun m => m.uuid = uuid

def findByUuidAndOrg (uuid : MembershipId) (org : OrganizationId) : Option Membership :=
  db.usersOrganizations.find? fun m => m.uuid = uuid ∧ m.orgUuid = org

def findByUserAndOrg : Option Membership :=
  db.usersOrganizations.find? fun m => m.userUuid = user ∧ m.orgUuid = org

def findConfirmedByUserAndOrg : Option Membership :=
  db.usersOrganizations.find? fun m => m.userUuid = user ∧ m.orgUuid = org ∧ m.hasStatus .confirmed

def findByEmailAndOrg (email : String) (org : OrganizationId) : Option Membership :=
  (User.findByMail db email).bind fun u => findByUserAndOrg db u.uuid org

def findByExternalIdAndOrg (externalId : String) (org : OrganizationId) : Option Membership :=
  db.usersOrganizations.find? fun m => m.externalId = some externalId ∧ m.orgUuid = org

def findConfirmedByUser : List Membership :=
  db.usersOrganizations.rows.filter fun m => m.userUuid = user ∧ m.hasStatus .confirmed

def findAnyStateByUser : List Membership :=
  db.usersOrganizations.rows.filter fun m => m.userUuid = user

/-- The source has this query under two names. -/
def findByUser : List Membership := findAnyStateByUser db user

def findByOrg : List Membership := db.usersOrganizations.rows.filter fun m => m.orgUuid = org

def countConfirmedByOrgAndType (atype : MembershipType) : Nat :=
  (db.usersOrganizations.rows.filter fun m =>
    m.orgUuid = org ∧ m.atype = atype ∧ m.hasStatus .confirmed).length

def countAcceptedAndConfirmedByUser (excludedOrg : OrganizationId) : Nat :=
  (db.usersOrganizations.rows.filter fun m =>
    m.userUuid = user ∧ m.orgUuid ≠ excludedOrg ∧
      (m.hasStatus .accepted ∨ m.hasStatus .confirmed)).length

theorem findByUuidAndOrg_eq_some {db uuid org m} (h : findByUuidAndOrg db uuid org = some m) :
    m ∈ db.usersOrganizations.rows ∧ m.uuid = uuid ∧ m.orgUuid = org := by
  obtain ⟨hm, hp⟩ := mem_of_find? h
  exact ⟨hm, by simpa using hp⟩

theorem findByUserAndOrg_eq_some {db user org m} (h : findByUserAndOrg db user org = some m) :
    m ∈ db.usersOrganizations.rows ∧ m.userUuid = user ∧ m.orgUuid = org := by
  obtain ⟨hm, hp⟩ := mem_of_find? h
  exact ⟨hm, by simpa using hp⟩

/-- A user has at most one membership in an organization, so the search is a membership test. -/
theorem findConfirmedByUserAndOrg_eq_some {db user org m} :
    findConfirmedByUserAndOrg db user org = some m ↔
      m ∈ db.usersOrganizations.rows ∧ m.userUuid = user ∧ m.orgUuid = org ∧
        m.hasStatus .confirmed = true := by
  constructor
  · intro h
    obtain ⟨hm, hp⟩ := mem_of_find? h
    exact ⟨hm, by simpa using hp⟩
  · rintro ⟨hm, hu, ho, hs⟩
    refine find?_eq_some_of_unique hm (by simp [hu, ho, hs]) ?_
    intro x hx hp
    have hp : x.userUuid = user ∧ x.orgUuid = org ∧ x.hasStatus .confirmed = true := by
      simpa using hp
    refine eq_of_uniq hx hm ?_
    rw [Membership.userOrg, Membership.userOrg, hp.1, hp.2.1, hu, ho]

end Membership

end VaultServer
