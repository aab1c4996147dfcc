import VaultServer.Api.Requests

/-!
# The organization of a user

Three queries pick an organization by the memberships of a user and mean to pass over the revoked
ones. They compare the status with the number of `Revoked`, which no revoked row carries.
-/

namespace VaultServer

open Lib List

/-! ## The queries -/

/-- `ORDER BY atype`. -/
def Membership.orderByType (rows : List Membership) : List Membership :=
  [MembershipType.owner, .admin, .user, .manager].flatMap fun t => rows.filter fun m => m.atype = t

variable (db : Db) (user : UserId)

def Membership.findMainUserOrg : Option Membership :=
  (orderByType (db.usersOrganizations.rows.filter fun m =>
    m.userUuid = user ∧ ¬ m.hasStatus .revoked)).head?

namespace Organization

def findOrgUserEmail (userEmail : String) : List Organization :=
  (Membership.orderByType (db.usersOrganizations.rows.filter fun m =>
    ¬ m.hasStatus .revoked ∧
      db.users.rows.any fun u => u.uuid = m.userUuid ∧ u.email = toLowercase userEmail)).flatMap
    fun m => db.organizations.rows.filter fun o => o.uuid = m.orgUuid

def findMainOrgUserEmail (userEmail : String) : Option Organization :=
  (findOrgUserEmail db userEmail).head?

end Organization

theorem Membership.mem_orderByType : m ∈ orderByType rows ↔ m ∈ rows := by
  cases h : m.atype <;> simp [orderByType, h]

/-! ## Revoked memberships -/

/-- One of the revoke paths has written the row. -/
def Membership.WasRevoked (m : Membership) : Prop :=
  ∃ before : Membership, (∃ s ≠ MembershipStatus.revoked, before.status = s.toI32) ∧
    before.revoke = some m

/-- The user is in the organization through a revoked membership. -/
def Db.RevokedIn (org : OrganizationId) : Prop :=
  ∃ m ∈ db.usersOrganizations.rows, m.userUuid = user ∧ m.orgUuid = org ∧ m.WasRevoked

theorem Membership.WasRevoked.status_lt {m : Membership} (h : m.WasRevoked) : m.status < -1 := by
  obtain ⟨before, ⟨s, hs, hb⟩, hm⟩ := h
  unfold Membership.revoke at hm
  split at hm
  · cases hm
    cases s with
    | revoked => exact absurd rfl hs
    | invited | accepted | confirmed => simp only [hb]; decide
  · cases hm

theorem Organization.mem_findOrgUserEmail {db : Db}
    (hu : u ∈ db.users.rows) (hmail : u.email = toLowercase mail)
    (hm : m ∈ db.usersOrganizations.rows) (huser : m.userUuid = u.uuid)
    (hstatus : m.status < -1) (ho : o ∈ db.organizations.rows)
    (horg : o.uuid = m.orgUuid) : o ∈ findOrgUserEmail db mail := by
  refine mem_flatMap.2 ⟨m, Membership.mem_orderByType.2 ?_, by simpa [horg] using ho⟩
  have hjoin : ∃ x ∈ db.users.rows, x.uuid = m.userUuid ∧ x.email = toLowercase mail :=
    ⟨u, hu, huser.symm, hmail⟩
  have hne : m.hasStatus .revoked = false := decide_eq_false (Int.ne_of_lt hstatus)
  simpa [hm, hne] using hjoin

/-- None of the three queries answers with a revoked membership or an organization through one. -/
def Db.PassesOverRevoked (mail : String) : Prop :=
  (∀ m, Membership.findMainUserOrg db user = some m → ¬ m.WasRevoked) ∧
  (∀ o, Organization.findMainOrgUserEmail db mail = some o → ¬ db.RevokedIn user o.uuid) ∧
  ∀ o ∈ Organization.findOrgUserEmail db mail, ¬ db.RevokedIn user o.uuid

/-- In the order of the types every revoked membership of the user stands behind another one. -/
def Db.RevokedBehind : Prop :=
  ∀ before m after,
    Membership.orderByType (db.usersOrganizations.rows.filter fun m =>
      m.userUuid = user ∧ ¬ m.hasStatus .revoked) = before ++ m :: after →
    m.WasRevoked → ∃ m' ∈ before, ¬ m'.WasRevoked

theorem findMainUserOrg_passesOver_iff {db : Db} {user : UserId} :
    (∀ m, Membership.findMainUserOrg db user = some m → ¬ m.WasRevoked) ↔
      db.RevokedBehind user := by
  unfold Membership.findMainUserOrg Db.RevokedBehind
  constructor
  · intro h before m after hrows hrevoked
    rw [hrows] at h
    cases before with
    | nil => exact absurd hrevoked (h m rfl)
    | cons first before => exact ⟨first, mem_cons_self, h first rfl⟩
  · intro h m hm hrevoked
    obtain ⟨after, hrows⟩ := head?_eq_some_iff.mp hm
    obtain ⟨m', hm', -⟩ := h [] m after hrows hrevoked
    cases hm'

/-- **The queries pass over the revoked memberships of a user exactly if there are none**, and the
one that does not look at the address, exactly if another membership comes before them.  The
organizations of the memberships are stored: the schema has them as a foreign key. -/
theorem passesOverRevoked_iff {db : Db} {u : User} {mail : String} (hu : u ∈ db.users.rows)
    (hstored : ∀ m ∈ db.usersOrganizations.rows, db.hasOrganization m.orgUuid = true) :
    (u.email = toLowercase mail → (db.PassesOverRevoked u.uuid mail ↔
      ∀ m ∈ db.usersOrganizations.rows, m.userUuid = u.uuid → ¬ m.WasRevoked)) ∧
    ((∀ m, Membership.findMainUserOrg db u.uuid = some m → ¬ m.WasRevoked) ↔
      db.RevokedBehind u.uuid) := by
  refine ⟨fun hmail => ⟨?_, ?_⟩, findMainUserOrg_passesOver_iff⟩
  · rintro ⟨-, -, hall⟩ m hm huser hrevoked
    obtain ⟨o, ho, horg⟩ := any_eq_true.1 (hstored m hm)
    have horg : o.uuid = m.orgUuid := of_decide_eq_true horg
    exact hall o (Organization.mem_findOrgUserEmail hu hmail hm huser hrevoked.status_lt ho horg)
      ⟨m, hm, huser, horg.symm, hrevoked⟩
  · intro hnone
    have hin : ∀ o, ¬ db.RevokedIn u.uuid o := fun o ⟨m, hm, huser, _, h⟩ => hnone m hm huser h
    refine ⟨fun m hm => ?_, fun o _ => hin o.uuid, fun o _ => hin o.uuid⟩
    have hmem := mem_filter.1 (Membership.mem_orderByType.1 (mem_of_mem_head? hm))
    exact hnone m hmem.1 (of_decide_eq_true hmem.2).1

/-- The account `a` makes an organization, takes `b` into it and revokes the membership. -/
def revokedMember : List Event := Client.signedIn ++
  [⟨{}, Client.signUp "b@example.com"⟩,
    ⟨{}, .account Client.session (.createOrganization
      { name := "o", billingEmail := "a@example.com", collectionName := "k", key := "key",
        keys := none })⟩,
    ⟨{}, .organization Client.session ⟨10⟩ (.sendInvite ⟨["b@example.com"], [], "2", none, []⟩)⟩,
    ⟨{}, .organization Client.session ⟨10⟩ (.revokeMember ⟨13⟩)⟩]

/-- The owner keeps the organization. -/
theorem passesOverRevoked_owner :
    ∃ u, ((World.initial []).after revokedMember).db.PassesOverRevoked u "a@example.com" := by
  obtain ⟨u, hu, hmail, hown⟩ : ∃ u ∈ ((World.initial []).after revokedMember).db.users.rows,
      u.email = toLowercase "a@example.com" ∧
      ∀ m ∈ ((World.initial []).after revokedMember).db.usersOrganizations.rows,
        m.userUuid = u.uuid → ¬ m.status < -1 := by decide +kernel
  refine ⟨u.uuid, ((passesOverRevoked_iff hu (by decide +kernel)).1 hmail).2 ?_⟩
  exact fun m hm huser h => hown m hm huser h.status_lt

/-- The revoked member still has its main organization. -/
theorem findMainUserOrg_revoked :
    ∃ m, Membership.findMainUserOrg ((World.initial []).after revokedMember).db ⟨6⟩ = some m ∧
      m.WasRevoked :=
  ⟨{ Membership.new 13 ⟨6⟩ ⟨10⟩ (some "a@example.com") with status := -127 }, by decide +kernel,
    Membership.new 13 ⟨6⟩ ⟨10⟩ (some "a@example.com"), ⟨.accepted, by decide, rfl⟩, by decide⟩

end VaultServer
