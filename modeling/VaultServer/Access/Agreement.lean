import VaultServer.Access.Paths

/-!
# The access check against the vault listing

The listing joins the assignments and groups of a user through the confirmed membership in the
cipher's organization. The single-cipher check joins them by user alone. The two agree on
everything a confirmed member reaches through that membership, and part where rows are left over
from a membership that is not confirmed, or come in through a group of another organization.
-/

namespace VaultServer

open Lib

namespace Access

variable {cfg : Config} {db : Db} {c : Cipher} {u : UserId}

/-- Rows that would open `c` to `u` if the membership were confirmed: an assignment of a collection
of `c`, a group right on one, or a full-access group of the organization. -/
def LeftoverRow (cfg : Config) (db : Db) (c : Cipher) (u : UserId) : Prop :=
  RowPath cfg db c u ∨ cfg.orgGroupsEnabled = true ∧
    ∃ m g, MemberOf db u m ∧ c.organizationUuid = some m.orgUuid ∧ GroupOf db m g ∧
      g.accessAll = true

/-- The confirmed membership `m` opens nothing, but a collection of `c` is assigned to a group of
another organization that `u` is in. -/
def OnlyForeignGroup (cfg : Config) (db : Db) (c : Cipher) (u : UserId) (m : Membership) : Prop :=
  ¬ Path cfg db c u m ∧ ¬ MembershipType.admin ≤ m.atype ∧ cfg.orgGroupsEnabled = true ∧
    ∃ n k cg, MemberOf db u n ∧ n.orgUuid ≠ m.orgUuid ∧ Linked db c k ∧ ByGroup db n k cg

/-- Everything in the listing passes the check. -/
theorem isSome_of_mem_findByUser (h : c ∈ Cipher.findByUser cfg db u false []) :
    (Cipher.getAccessRestrictions cfg db c u none).isSome = true := by
  obtain ⟨hc, howned | ⟨m, hm, hp | ⟨-, hadmin⟩⟩⟩ := mem_findByUser.1 h
  · exact (isSome_getAccessRestrictions hc).2 (.inl (hasFullAccess_iff.2 (.inl howned)))
  · rw [isSome_getAccessRestrictions hc, hasFullAccess_iff]
    cases hp with
    | accessAll ha => exact .inl (.inr (.inl ⟨m, hm, .inl ha⟩))
    | direct hl hd => exact .inr (.inl ⟨_, _, hl, hd⟩)
    | fullGroup he hg ha => exact .inl (.inr (.inr ⟨he, m, _, hm.1, hm.2.1, hg, ha⟩))
    | group he hl hg => exact .inr (.inr ⟨he, m, _, _, hm.1, hl, hg⟩)
  · exact (isSome_getAccessRestrictions hc).2
      (.inl (hasFullAccess_iff.2 (.inr (.inl ⟨m, hm, .inr hadmin⟩))))

/-- Without a confirmed membership the listing has only the user's own ciphers. -/
theorem not_mem_findByUser_of_unconfirmed (howned : c.userUuid ≠ some u)
    (hno : ¬ ∃ m, ConfirmedIn db u c m) : c ∉ Cipher.findByUser cfg db u false [] := by
  intro h
  obtain ⟨-, h | ⟨m, hm, -⟩⟩ := mem_findByUser.1 h
  · exact howned h
  · exact hno ⟨m, hm⟩

/-- Without one the check goes by the leftover rows alone. -/
theorem isSome_of_unconfirmed (hc : c ∈ db.ciphers.rows) (howned : c.userUuid ≠ some u)
    (hno : ¬ ∃ m, ConfirmedIn db u c m) :
    (Cipher.getAccessRestrictions cfg db c u none).isSome = true ↔ LeftoverRow cfg db c u := by
  rw [isSome_getAccessRestrictions hc, hasFullAccess_iff, LeftoverRow]
  constructor
  · rintro ((h | ⟨m, hm, -⟩ | h) | h)
    · exact absurd h howned
    · exact absurd ⟨m, hm⟩ hno
    · exact .inr h
    · exact .inl h
  · rintro (h | h)
    · exact .inr h
    · exact .inl (.inr (.inr h))

/-- With a confirmed membership every path of the check is a path of the listing, except the ones
through another organization's group. -/
theorem listed_or_foreign (hc : c ∈ db.ciphers.rows) (hm : ConfirmedIn db u c m)
    (h : (Cipher.getAccessRestrictions cfg db c u none).isSome = true) :
    c ∈ Cipher.findByUser cfg db u false [] ∨ OnlyForeignGroup cfg db c u m := by
  by_cases hlist : c ∈ Cipher.findByUser cfg db u false []
  · exact .inl hlist
  have hpath : ¬ Path cfg db c u m := fun hp =>
    hlist (mem_findByUser.2 ⟨hc, .inr ⟨m, hm, .inl hp⟩⟩)
  have hadmin : ¬ MembershipType.admin ≤ m.atype := fun ha =>
    hlist (mem_findByUser.2 ⟨hc, .inr ⟨m, hm, .inr ⟨rfl, ha⟩⟩⟩)
  -- the membership in the cipher's organization is unique, so a path through it would be listed
  have hsame : ∀ n, MemberOf db u n → c.organizationUuid = some n.orgUuid → n = m := by
    intro n hn ho
    exact hn.unique hm.1 (Option.some.inj (ho.symm.trans hm.2.1))
  rw [isSome_getAccessRestrictions hc, hasFullAccess_iff] at h
  rcases h with (howned | ⟨n, hn, hfull⟩ | ⟨he, n, g, hn, ho, hg, ha⟩) |
    (⟨k, cu, hl, hd⟩ | ⟨he, n, k, cg, hn, hl, hb⟩)
  · exact absurd (mem_findByUser.2 ⟨hc, .inl howned⟩) hlist
  · obtain rfl := hsame n hn.1 hn.2.1
    rcases hfull with ha | ha
    · exact absurd (.accessAll ha) hpath
    · exact absurd ha hadmin
  · obtain rfl := hsame n hn ho
    exact absurd (.fullGroup he hg ha) hpath
  · exact absurd (.direct hl hd) hpath
  · refine .inr ⟨hpath, hadmin, he, n, k, cg, hn, ?_, hl, hb⟩
    intro ho
    obtain rfl := hn.unique hm.1 ho
    exact hpath (.group he hl hb)

/-- **When the check and the listing agree.**  They agree for the owner of the cipher, for a
confirmed member unless only a group of another organization opens it, and for anybody else exactly
when no assignment or group row is left over. -/
theorem getAccessRestrictions_agrees_iff (hc : c ∈ db.ciphers.rows) :
    ((Cipher.getAccessRestrictions cfg db c u none).isSome = true ↔
        c ∈ Cipher.findByUser cfg db u false []) ↔
      c.userUuid = some u ∨
      (∃ m, ConfirmedIn db u c m ∧ ¬ OnlyForeignGroup cfg db c u m) ∨
      (¬ ∃ m, ConfirmedIn db u c m) ∧ ¬ LeftoverRow cfg db c u := by
  by_cases howned : c.userUuid = some u
  · have hlist : c ∈ Cipher.findByUser cfg db u false [] := mem_findByUser.2 ⟨hc, .inl howned⟩
    simp [howned, hlist, isSome_of_mem_findByUser hlist]
  by_cases hconf : ∃ m, ConfirmedIn db u c m
  · obtain ⟨m, hm⟩ := hconf
    constructor
    · intro hagree
      refine .inr (.inl ⟨m, hm, ?_⟩)
      -- a foreign group passes the check, but nothing lists the cipher
      rintro ⟨hpath, hadmin, he, n, k, cg, hn, -, hl, hb⟩
      have hsome := (isSome_getAccessRestrictions hc).2 (.inr (.inr ⟨he, n, k, cg, hn, hl, hb⟩))
      obtain ⟨-, h | ⟨m', hm', h⟩⟩ := mem_findByUser.1 (hagree.1 hsome)
      · exact howned h
      · obtain rfl := hm'.1.unique hm.1 (Option.some.inj (hm'.2.1.symm.trans hm.2.1))
        rcases h with h | h
        · exact hpath h
        · exact hadmin h.2
    · rintro (h | ⟨m', hm', hno⟩ | ⟨h, -⟩)
      · exact absurd h howned
      · exact ⟨fun h => (listed_or_foreign hc hm' h).resolve_right hno, isSome_of_mem_findByUser⟩
      · exact absurd ⟨m, hm⟩ h
  · have hlist : c ∉ Cipher.findByUser cfg db u false [] :=
      not_mem_findByUser_of_unconfirmed howned hconf
    rw [isSome_of_unconfirmed hc howned hconf]
    constructor
    · intro h
      exact .inr (.inr ⟨hconf, fun hl => hlist (h.1 hl)⟩)
    · rintro (h | ⟨m, hm, -⟩ | ⟨-, h⟩)
      · exact absurd h howned
      · exact absurd ⟨m, hm⟩ hconf
      · exact ⟨fun hl => absurd hl h, fun hl => absurd hl hlist⟩

/-! ## A revoked member

`revoke` only changes the status; the collection assignments of the member stay. -/

def revokedMember : Membership :=
  { Membership.new 3 ⟨1⟩ ⟨2⟩ none with status := MembershipStatus.confirmed.toI32 - 128 }

def sharedCipher : Cipher := { Cipher.new 5 0 1 "login" with organizationUuid := some ⟨2⟩ }

/-- User 1 was revoked in organization 2 and keeps the assignment of its collection 4, which holds
cipher 5. -/
def revokedDb : Db :=
  { Db.empty with
    users := .ofRows [User.new {} 1 6 7 "member@example.com" none]
    organizations := .ofRows [⟨⟨2⟩, "org", "owner@example.com", none, none⟩]
    usersOrganizations := .ofRows [revokedMember]
    collections := .ofRows [⟨⟨4⟩, ⟨2⟩, "collection", none⟩]
    usersCollections := .ofRows [⟨⟨1⟩, ⟨4⟩, false, false, false⟩]
    ciphers := .ofRows [sharedCipher]
    ciphersCollections := .ofRows [⟨⟨5⟩, ⟨4⟩⟩] }

/-- The check lets the revoked member read and write a cipher the listing no longer shows. -/
theorem getAccessRestrictions_of_revokedMember :
    sharedCipher ∈ revokedDb.ciphers.rows ∧
    Cipher.getAccessRestrictions {} revokedDb sharedCipher ⟨1⟩ none = some (false, false, false) ∧
    sharedCipher ∉ Cipher.findByUser {} revokedDb ⟨1⟩ false [] := by
  decide

theorem getAccessRestrictions_agrees_iff_revokedDb :
    sharedCipher ∈ revokedDb.ciphers.rows ∧
    (((Cipher.getAccessRestrictions {} revokedDb sharedCipher ⟨1⟩ none).isSome = true ↔
        sharedCipher ∈ Cipher.findByUser {} revokedDb ⟨1⟩ false []) ↔
      sharedCipher.userUuid = some ⟨1⟩ ∨
      (∃ m, ConfirmedIn revokedDb ⟨1⟩ sharedCipher m ∧
        ¬ OnlyForeignGroup {} revokedDb sharedCipher ⟨1⟩ m) ∨
      (¬ ∃ m, ConfirmedIn revokedDb ⟨1⟩ sharedCipher m) ∧
        ¬ LeftoverRow {} revokedDb sharedCipher ⟨1⟩) :=
  ⟨by decide, getAccessRestrictions_agrees_iff (by decide)⟩

end Access

end VaultServer
