import VaultServer.Access.Boundary
import VaultServer.Db.Organization

/-!
# What a request pledges

The invariants that hold between requests, and how far one request may move the database. Rows
refer to each other by identifier, so what matters of a row is which identifier it carries and
which organization it is in. A pledge says which rows a piece of a handler leaves in place; a
handler that deletes pledges less.
-/

namespace VaultServer

open Lib

variable {o : OrganizationId} {a b : Db}

/-! ## Where a row is -/

namespace Db

def IsMember (db : Db) (u : UserId) (o : OrganizationId) : Prop :=
  ∃ m ∈ db.usersOrganizations.rows, m.userUuid = u ∧ m.orgUuid = o

def MembershipIn (db : Db) (m : MembershipId) (o : OrganizationId) : Prop :=
  ∃ r ∈ db.usersOrganizations.rows, r.uuid = m ∧ r.orgUuid = o

def CollectionIn (db : Db) (k : CollectionId) (o : OrganizationId) : Prop :=
  ∃ r ∈ db.collections.rows, r.uuid = k ∧ r.orgUuid = o

def GroupIn (db : Db) (g : GroupId) (o : OrganizationId) : Prop :=
  ∃ r ∈ db.groups.rows, r.uuid = g ∧ r.organizationsUuid = o

def CipherIn (db : Db) (c : CipherId) (o : OrganizationId) : Prop :=
  ∃ r ∈ db.ciphers.rows, r.uuid = c ∧ r.organizationUuid = some o

theorem CollectionIn.unique {db : Db}
    (h : db.CollectionIn k o) (h' : db.CollectionIn k o') : o = o' := by
  obtain ⟨r, hr, hu, rfl⟩ := h
  obtain ⟨r', hr', hu', rfl⟩ := h'
  rw [Table.eq_of_key hr hr' (hu.trans hu'.symm)]

end Db

theorem orgBoundary_iff {db} : OrgBoundary db ↔
      (∀ cu ∈ db.usersCollections.rows, ∃ o, db.CollectionIn cu.collectionUuid o ∧
        db.IsMember cu.userUuid o) ∧
      (∀ cg ∈ db.collectionsGroups.rows, ∃ o, db.CollectionIn cg.collectionsUuid o ∧
        db.GroupIn cg.groupsUuid o) ∧
      ∀ gu ∈ db.groupsUsers.rows, ∃ o, db.GroupIn gu.groupsUuid o ∧
        db.MembershipIn gu.usersOrganizationsUuid o := by
  constructor
  · intro h
    refine ⟨?_, ?_, ?_⟩
    · intro cu hcu
      obtain ⟨k, hk, hku, m, hm, hmu, hmo⟩ := h.usersCollections cu hcu
      exact ⟨k.orgUuid, ⟨k, hk, hku, rfl⟩, m, hm, hmu, hmo⟩
    · intro cg hcg
      obtain ⟨k, hk, hku, g, hg, hgu, hgo⟩ := h.collectionsGroups cg hcg
      exact ⟨k.orgUuid, ⟨k, hk, hku, rfl⟩, g, hg, hgu, hgo⟩
    · intro gu hgu
      obtain ⟨g, hg, hgu, m, hm, hmu, hmo⟩ := h.groupsUsers gu hgu
      exact ⟨g.organizationsUuid, ⟨g, hg, hgu, rfl⟩, m, hm, hmu, hmo⟩
  · rintro ⟨hcu, hcg, hgu⟩
    refine ⟨?_, ?_, ?_⟩
    · intro cu h
      obtain ⟨o, ⟨k, hk, hku, rfl⟩, m, hm, hmu, hmo⟩ := hcu cu h
      exact ⟨k, hk, hku, m, hm, hmu, hmo⟩
    · intro cg h
      obtain ⟨o, ⟨k, hk, hku, rfl⟩, g, hg, hgu, hgo⟩ := hcg cg h
      exact ⟨k, hk, hku, g, hg, hgu, hgo⟩
    · intro gu h
      obtain ⟨o, ⟨g, hg, hgu, rfl⟩, m, hm, hmu, hmo⟩ := hgu gu h
      exact ⟨g, hg, hgu, m, hm, hmu, hmo⟩

/-- Every link goes to a collection, and the cipher is in its organization unless the pair is
exempt. -/
def LinksKept (exempt : CipherId → OrganizationId → Prop) (db : Db) : Prop :=
  ∀ cc ∈ db.ciphersCollections.rows, ∃ o, db.CollectionIn cc.collectionUuid o ∧
    (db.CipherIn cc.cipherUuid o ∨ exempt cc.cipherUuid o)

def Cipher.OneOwner (c : Cipher) : Prop := c.userUuid = none ∨ c.organizationUuid = none

/-- No identifier from `n` on is in use; a cipher belongs to an account or to an organization. -/
structure Fresh (n : Nat) (db : Db) : Prop where
  users : ∀ r ∈ db.users.rows, r.uuid.val < n
  members : ∀ r ∈ db.usersOrganizations.rows, r.uuid.val < n
  collections : ∀ r ∈ db.collections.rows, r.uuid.val < n
  groups : ∀ r ∈ db.groups.rows, r.uuid.val < n
  ciphers : ∀ r ∈ db.ciphers.rows, r.uuid.val < n ∧ r.OneOwner

theorem Fresh.mono {n n' db} (h : Fresh n db) (hn : n ≤ n') : Fresh n' db where
  users r hr := Nat.lt_of_lt_of_le (h.users r hr) hn
  members r hr := Nat.lt_of_lt_of_le (h.members r hr) hn
  collections r hr := Nat.lt_of_lt_of_le (h.collections r hr) hn
  groups r hr := Nat.lt_of_lt_of_le (h.groups r hr) hn
  ciphers r hr := (h.ciphers r hr).imp_left (Nat.lt_of_lt_of_le · hn)

/-! ## How the database moves -/

/-- Rows may only leave the assignment tables and the links. -/
structure Shrinks (db db' : Db) : Prop where
  usersCollections : ∀ r ∈ db'.usersCollections.rows, r ∈ db.usersCollections.rows
  collectionsGroups : ∀ r ∈ db'.collectionsGroups.rows, r ∈ db.collectionsGroups.rows
  groupsUsers : ∀ r ∈ db'.groupsUsers.rows, r ∈ db.groupsUsers.rows
  ciphersCollections : ∀ r ∈ db'.ciphersCollections.rows, r ∈ db.ciphersCollections.rows

theorem Shrinks.of_same {db db'} (hu : db'.usersCollections = db.usersCollections)
    (hk : db'.collectionsGroups = db.collectionsGroups) (hg : db'.groupsUsers = db.groupsUsers)
    (hc : db'.ciphersCollections = db.ciphersCollections) : Shrinks db db' :=
  ⟨fun _ h => hu ▸ h, fun _ h => hk ▸ h, fun _ h => hg ▸ h, fun _ h => hc ▸ h⟩

/-- No identifier comes up, and none changes hands: the row that carries it carried it before. -/
structure Stable (db db' : Db) : Prop where
  members : ∀ r' ∈ db'.usersOrganizations.rows, ∃ r ∈ db.usersOrganizations.rows,
    r.uuid = r'.uuid ∧ r.userUuid = r'.userUuid ∧ r.orgUuid = r'.orgUuid
  collections : ∀ r' ∈ db'.collections.rows, ∃ r ∈ db.collections.rows,
    r.uuid = r'.uuid ∧ r.orgUuid = r'.orgUuid
  groups : ∀ r' ∈ db'.groups.rows, ∃ r ∈ db.groups.rows,
    r.uuid = r'.uuid ∧ r.organizationsUuid = r'.organizationsUuid

/-- What an account's row says about its sessions. -/
def RowKept (r r' : User) : Prop :=
  r'.enabled = r.enabled ∧ r'.securityStamp = r.securityStamp ∧ r'.stampException = r.stampException

theorem RowKept.refl (r : User) : RowKept r r := ⟨rfl, rfl, rfl⟩

theorem RowKept.symm {a b} (h : RowKept a b) : RowKept b a := ⟨h.1.symm, h.2.1.symm, h.2.2.symm⟩

theorem RowKept.trans {a b c} (h : RowKept a b) (h' : RowKept b c) : RowKept a c :=
  ⟨h'.1.trans h.1, h'.2.1.trans h.2.1, h'.2.2.trans h.2.2⟩

/-- A device can only appear for an enabled account, for one that has a device already, or for one
from `n` on. -/
def DevicesKept (n : Nat) (db db' : Db) : Prop :=
  ∀ d' ∈ db'.devices.rows, (∃ d ∈ db.devices.rows, d.userUuid = d'.userUuid) ∨
    (∃ r ∈ db.users.rows, r.uuid = d'.userUuid ∧ r.enabled = true) ∨ n ≤ d'.userUuid.val

/-- Sessions of the accounts from before `n` stay as they are. Where new accounts are expected they
have identifiers from `n` on. -/
structure AccountsKept (inserts : Bool) (n : Nat) (db db' : Db) : Prop where
  users : ∀ r' ∈ db'.users.rows, (∃ r ∈ db.users.rows, r.uuid = r'.uuid ∧ RowKept r r') ∨
    (inserts = true ∧ n ≤ r'.uuid.val ∧ r'.stampException = none)
  devices : DevicesKept n db db'

/-- Rows that others may refer to stay in their organization. -/
structure Extends (db db' : Db) : Prop where
  members : ∀ r ∈ db.usersOrganizations.rows, ∃ r' ∈ db'.usersOrganizations.rows,
    r'.uuid = r.uuid ∧ r'.userUuid = r.userUuid ∧ r'.orgUuid = r.orgUuid
  collections : ∀ r ∈ db.collections.rows, ∃ r' ∈ db'.collections.rows,
    r'.uuid = r.uuid ∧ r'.orgUuid = r.orgUuid
  groups : ∀ r ∈ db.groups.rows, ∃ r' ∈ db'.groups.rows,
    r'.uuid = r.uuid ∧ r'.organizationsUuid = r.organizationsUuid
  ciphers : ∀ c o, db.CipherIn c o → db'.CipherIn c o

theorem Shrinks.refl (db : Db) : Shrinks db db :=
  ⟨fun _ h => h, fun _ h => h, fun _ h => h, fun _ h => h⟩

theorem Shrinks.trans (h : Shrinks a b) (h' : Shrinks b c) : Shrinks a c :=
  ⟨fun r hr => h.usersCollections r (h'.usersCollections r hr),
    fun r hr => h.collectionsGroups r (h'.collectionsGroups r hr),
    fun r hr => h.groupsUsers r (h'.groupsUsers r hr),
    fun r hr => h.ciphersCollections r (h'.ciphersCollections r hr)⟩

theorem Stable.refl (db : Db) : Stable db db where
  members r hr := ⟨r, hr, rfl, rfl, rfl⟩
  collections r hr := ⟨r, hr, rfl, rfl⟩
  groups r hr := ⟨r, hr, rfl, rfl⟩

theorem Stable.trans (h : Stable a b) (h' : Stable b c) : Stable a c where
  members r hr := by
    obtain ⟨s, hs, h1, h2, h3⟩ := h'.members r hr
    obtain ⟨t, ht, h4, h5, h6⟩ := h.members s hs
    exact ⟨t, ht, h4.trans h1, h5.trans h2, h6.trans h3⟩
  collections r hr := by
    obtain ⟨s, hs, h1, h2⟩ := h'.collections r hr
    obtain ⟨t, ht, h3, h4⟩ := h.collections s hs
    exact ⟨t, ht, h3.trans h1, h4.trans h2⟩
  groups r hr := by
    obtain ⟨s, hs, h1, h2⟩ := h'.groups r hr
    obtain ⟨t, ht, h3, h4⟩ := h.groups s hs
    exact ⟨t, ht, h3.trans h1, h4.trans h2⟩

theorem AccountsKept.refl (inserts : Bool) (n : Nat) (db : Db) : AccountsKept inserts n db db where
  users r hr := .inl ⟨r, hr, rfl, .refl r⟩
  devices d hd := .inl ⟨d, hd, rfl⟩

theorem DevicesKept.trans (h : DevicesKept n a b) (h' : DevicesKept n b c)
    (hon : ∀ r' ∈ b.users.rows, r'.enabled = true →
      (∃ r ∈ a.users.rows, r.uuid = r'.uuid ∧ r.enabled = true) ∨ n ≤ r'.uuid.val) :
    DevicesKept n a c := by
  intro d'' hd''
  obtain ⟨d', hd', hu⟩ | ⟨r', hr', hu, hr⟩ | hn := h' d'' hd''
  · rw [← hu]; exact h d' hd'
  · rw [← hu]; exact .inr (hon r' hr' hr)
  · exact .inr (.inr hn)

/-- An enabled account was enabled before, or is new. -/
theorem AccountsKept.enabled (h : AccountsKept inserts n a b) {r' : User} (hr' : r' ∈ b.users.rows)
    (hon : r'.enabled = true) :
    (∃ r ∈ a.users.rows, r.uuid = r'.uuid ∧ r.enabled = true) ∨ n ≤ r'.uuid.val := by
  obtain ⟨r, hr, hu, hk⟩ | ⟨-, hn, -⟩ := h.users r' hr'
  · exact .inl ⟨r, hr, hu, hk.1.symm.trans hon⟩
  · exact .inr hn

theorem AccountsKept.trans (h : AccountsKept inserts n a b)
    (h' : AccountsKept inserts n b c) : AccountsKept inserts n a c where
  users r'' hr'' := by
    obtain ⟨r', hr', hu, hk⟩ | hnew := h'.users r'' hr''
    · obtain ⟨r, hr, hu', hk'⟩ | ⟨hi, hn, he⟩ := h.users r' hr'
      · exact .inl ⟨r, hr, hu'.trans hu, hk'.trans hk⟩
      · exact .inr ⟨hi, hu ▸ hn, hk.2.2.trans he⟩
    · exact .inr hnew
  devices := h.devices.trans h'.devices fun _ => h.enabled

theorem AccountsKept.weaken (h : AccountsKept i n a b) (hi : i = true → i' = true) :
    AccountsKept i' n a b where
  users r hr := (h.users r hr).imp_right fun h => ⟨hi h.1, h.2⟩
  devices := h.devices

theorem Extends.refl (db : Db) : Extends db db where
  members r hr := ⟨r, hr, rfl, rfl, rfl⟩
  collections r hr := ⟨r, hr, rfl, rfl⟩
  groups r hr := ⟨r, hr, rfl, rfl⟩
  ciphers _ _ h := h

/-- Seen from the later database. -/
theorem Extends.stable (h : Extends a b) : Stable b a := ⟨h.members, h.collections, h.groups⟩

theorem Extends.trans (h : Extends a b) (h' : Extends b c) : Extends a c := by
  have hs := h'.stable.trans h.stable
  exact ⟨hs.members, hs.collections, hs.groups, fun c o hc => h'.ciphers c o (h.ciphers c o hc)⟩

section
variable {db db' : Db} (h : Extends db db')
include h

theorem Db.IsMember.mono (hm : db.IsMember u o) : db'.IsMember u o := by
  obtain ⟨r, hr, hu, ho⟩ := hm
  obtain ⟨r', hr', -, hu', ho'⟩ := h.members r hr
  exact ⟨r', hr', hu'.trans hu, ho'.trans ho⟩

theorem Db.MembershipIn.mono (hm : db.MembershipIn m o) : db'.MembershipIn m o := by
  obtain ⟨r, hr, hu, ho⟩ := hm
  obtain ⟨r', hr', hu', -, ho'⟩ := h.members r hr
  exact ⟨r', hr', hu'.trans hu, ho'.trans ho⟩

theorem Db.CollectionIn.mono (hk : db.CollectionIn k o) : db'.CollectionIn k o := by
  obtain ⟨r, hr, hu, ho⟩ := hk
  obtain ⟨r', hr', hu', ho'⟩ := h.collections r hr
  exact ⟨r', hr', hu'.trans hu, ho'.trans ho⟩

theorem Db.GroupIn.mono (hg : db.GroupIn g o) : db'.GroupIn g o := by
  obtain ⟨r, hr, hu, ho⟩ := hg
  obtain ⟨r', hr', hu', ho'⟩ := h.groups r hr
  exact ⟨r', hr', hu'.trans hu, ho'.trans ho⟩

end

/-! ## Pledges -/

/-- What a piece of a handler may do; what it may not do, it pledges. -/
structure Pledge where
  /-- Identifiers below were drawn before the request. -/
  base : Nat
  /-- Pairs of a cipher and an organization a link may rest on although the cipher is not in it. -/
  exempt : CipherId → OrganizationId → Prop
  /-- The ciphers it may store. -/
  stores : Cipher → Prop := fun _ => False
  /-- Write assignments and links. -/
  grants : Bool := false
  /-- Store rows under identifiers that are not in use. -/
  inserts : Bool := false
  /-- Take members, collections, groups or ciphers away. -/
  deletes : Bool := false
  dropsUsers : Bool := false
  dropsDevices : Bool := false

namespace Pledge

/-- The invariants between requests. -/
structure Inv (p : Pledge) (w : World) : Prop where
  boundary : OrgBoundary w.db
  links : LinksKept p.exempt w.db
  fresh : Fresh w.nextUuid w.db
  base : p.base ≤ w.nextUuid

/-- How far the database has moved. -/
structure Moves (p : Pledge) (db db' : Db) : Prop where
  shrinks : p.grants = false → Shrinks db db'
  ciphers : ∀ c ∈ db'.ciphers.rows, c ∈ db.ciphers.rows ∨ p.stores c
  stable : p.inserts = false → Stable db db'
  keeps : p.deletes = false → Extends db db'
  accounts : AccountsKept p.inserts p.base db db'
  users : p.dropsUsers = false → ∀ r ∈ db.users.rows, ∃ r' ∈ db'.users.rows, r'.uuid = r.uuid
  devices : p.dropsDevices = false →
    ∀ d ∈ db.devices.rows, ∃ d' ∈ db'.devices.rows, d'.userUuid = d.userUuid

theorem Moves.refl (p : Pledge) (db : Db) : p.Moves db db where
  shrinks _ := .refl _
  ciphers _ h := .inl h
  stable _ := .refl _
  keeps _ := .refl _
  accounts := .refl _ _ _
  users _ r hr := ⟨r, hr, rfl⟩
  devices _ d hd := ⟨d, hd, rfl⟩

theorem Moves.trans {p : Pledge} (h : p.Moves a b) (h' : p.Moves b c) : p.Moves a c where
  shrinks hp := (h.shrinks hp).trans (h'.shrinks hp)
  ciphers x hx := (h'.ciphers x hx).elim (h.ciphers x) .inr
  stable hp := (h.stable hp).trans (h'.stable hp)
  keeps hp := (h.keeps hp).trans (h'.keeps hp)
  accounts := h.accounts.trans h'.accounts
  users hp r hr := by
    obtain ⟨s, hs, h1⟩ := h.users hp r hr
    obtain ⟨t, ht, h2⟩ := h'.users hp s hs
    exact ⟨t, ht, h2.trans h1⟩
  devices hp d hd := by
    obtain ⟨s, hs, h1⟩ := h.devices hp d hd
    obtain ⟨t, ht, h2⟩ := h'.devices hp s hs
    exact ⟨t, ht, h2.trans h1⟩

def Rel (p : Pledge) (w w' : World) : Prop := w.nextUuid ≤ w'.nextUuid ∧ p.Moves w.db w'.db

def guarantee (p : Pledge) : Guarantee World where
  inv := p.Inv
  rel := p.Rel
  refl w := ⟨Nat.le_refl _, .refl p w.db⟩
  trans h h' := ⟨Nat.le_trans h.1 h'.1, h.2.trans h'.2⟩

/-- `q` allows whatever `p` allows. -/
structure Le (p q : Pledge) : Prop where
  base : p.base = q.base
  exempt : p.exempt = q.exempt
  stores : ∀ c, p.stores c → q.stores c
  grants : p.grants = true → q.grants = true
  inserts : p.inserts = true → q.inserts = true
  deletes : p.deletes = true → q.deletes = true
  dropsUsers : p.dropsUsers = true → q.dropsUsers = true
  dropsDevices : p.dropsDevices = true → q.dropsDevices = true

section
variable {p q : Pledge} (h : p.Le q)
include h

theorem Le.inv : p.Inv w ↔ q.Inv w := by
  constructor
  · intro hw
    exact ⟨hw.boundary, h.exempt ▸ hw.links, hw.fresh, h.base ▸ hw.base⟩
  · intro hw
    exact ⟨hw.boundary, h.exempt ▸ hw.links, hw.fresh, h.base ▸ hw.base⟩

theorem Le.moves {db db'} (hm : p.Moves db db') : q.Moves db db' := by
  -- what `q` does not allow, `p` does not allow either
  have no : ∀ {a b : Bool}, (a = true → b = true) → b = false → a = false := by decide
  exact
    { shrinks := fun hq => hm.shrinks (no h.grants hq)
      ciphers := fun c hc => (hm.ciphers c hc).imp_right (h.stores c)
      stable := fun hq => hm.stable (no h.inserts hq)
      keeps := fun hq => hm.keeps (no h.deletes hq)
      accounts := h.base ▸ hm.accounts.weaken h.inserts
      users := fun hq => hm.users (no h.dropsUsers hq)
      devices := fun hq => hm.devices (no h.dropsDevices hq) }

theorem Le.rel (hr : p.Rel w w') : q.Rel w w' := ⟨hr.1, h.moves hr.2⟩

end

/-- The pledge to leave everything in place. -/
def calm (p : Pledge) : Pledge := { base := p.base, exempt := p.exempt }

theorem calm_le (p : Pledge) : p.calm.Le p where
  base := rfl
  exempt := rfl
  stores _ h := h.elim
  grants h := nomatch h
  inserts h := nomatch h
  deletes h := nomatch h
  dropsUsers h := nomatch h
  dropsDevices h := nomatch h

/-- New rows, assignments and links are allowed. -/
structure Grows (p : Pledge) : Prop where
  stores : ∀ c, p.stores c
  grants : p.grants = true
  inserts : p.inserts = true

/-- Everything is allowed. -/
structure Free (p : Pledge) : Prop extends Grows p where
  deletes : p.deletes = true
  dropsUsers : p.dropsUsers = true
  dropsDevices : p.dropsDevices = true

/-- The pledge to add only. -/
def growing (p : Pledge) : Pledge :=
  { p.calm with stores := fun _ => True, grants := true, inserts := true }

theorem growing_grows (p : Pledge) : p.growing.Grows := ⟨fun _ => trivial, rfl, rfl⟩

theorem growing_le (p : Pledge) (hp : p.Grows) : p.growing.Le p where
  base := rfl
  exempt := rfl
  stores c _ := hp.stores c
  grants _ := hp.grants
  inserts _ := hp.inserts
  deletes h := nomatch h
  dropsUsers h := nomatch h
  dropsDevices h := nomatch h

end Pledge

end VaultServer
