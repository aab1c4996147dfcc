import VaultServer.Api.Requests

/-!
# Which parts of the world a program writes

`Writes S c` says that no call of `c`, in whatever state it is made, changes a part of the world
outside `S`. It is a property of the program text, so it holds for a whole run, for a run that
stops early and for one step of an interleaving alike. The revision date of an account is no part:
nearly everything bumps it and nothing decides by it. The sessions are the refresh secrets of the
devices: they are written by a call that gives a device a secret it did not have, not by one that
removes a device. The identifiers of the accounts are written by a call that removes an account,
not by one that adds or changes one.
-/

namespace VaultServer

open Lib List

variable {message : String}

/-- The tables of the database, and what is kept besides. -/
inductive Part where
  | users
  | userIds
  | devices
  | sessions
  | invitations
  | twofactor
  | twofactorIncomplete
  | ssoUsers
  | ssoAuth
  | emergencyAccess
  | authRequests
  | sends
  | organizations
  | usersOrganizations
  | orgPolicies
  | organizationApiKey
  | collections
  | usersCollections
  | ciphersCollections
  | groups
  | collectionsGroups
  | groupsUsers
  | ciphers
  | folders
  | foldersCiphers
  | favorites
  | archives
  | attachments
  | hub
  | mailed
  deriving DecidableEq

/-- The accounts without the date of their last revision. -/
def Db.accounts (db : Db) : List User := db.users.rows.map fun u => { u with updatedAt := 0 }

def Db.userIds (db : Db) : List UserId := db.users.rows.map User.uuid

theorem Db.exists_of_accounts {db db' : Db} (h : db'.accounts = db.accounts)
    (hu : u ∈ db'.users.rows) :
    ∃ v ∈ db.users.rows, { v with updatedAt := 0 } = { u with updatedAt := 0 } := by
  have hmem : { u with updatedAt := 0 } ∈ db'.accounts := mem_map_of_mem hu
  rw [h] at hmem
  exact mem_map.1 hmem

theorem Db.userIds_of_accounts {db db' : Db} (h : db'.accounts = db.accounts) :
    db'.userIds = db.userIds := by
  have hids : ∀ db : Db, db.userIds = db.accounts.map User.uuid := by
    intro db
    rw [Db.accounts, map_map]
    rfl
  rw [hids, hids, h]

/-- Which device holds which refresh secret. -/
def Db.sessions (db : Db) : List ((DeviceId × UserId) × Secret) :=
  db.devices.rows.map fun d => (d.key, d.refreshToken)

/-- The database with the tables of `S` emptied. -/
def Db.without (db : Db) (S : List Part) : Db where
  users := if .users ∈ S ∧ .userIds ∈ S then .empty else db.users
  devices := if .devices ∈ S ∧ .sessions ∈ S then .empty else db.devices
  invitations := if .invitations ∈ S then .empty else db.invitations
  twofactor := if .twofactor ∈ S then .empty else db.twofactor
  twofactorIncomplete := if .twofactorIncomplete ∈ S then .empty else db.twofactorIncomplete
  ssoUsers := if .ssoUsers ∈ S then .empty else db.ssoUsers
  ssoAuth := if .ssoAuth ∈ S then .empty else db.ssoAuth
  emergencyAccess := if .emergencyAccess ∈ S then .empty else db.emergencyAccess
  authRequests := if .authRequests ∈ S then .empty else db.authRequests
  sends := if .sends ∈ S then .empty else db.sends
  organizations := if .organizations ∈ S then .empty else db.organizations
  usersOrganizations := if .usersOrganizations ∈ S then .empty else db.usersOrganizations
  orgPolicies := if .orgPolicies ∈ S then .empty else db.orgPolicies
  organizationApiKey := if .organizationApiKey ∈ S then .empty else db.organizationApiKey
  collections := if .collections ∈ S then .empty else db.collections
  usersCollections := if .usersCollections ∈ S then .empty else db.usersCollections
  ciphersCollections := if .ciphersCollections ∈ S then .empty else db.ciphersCollections
  groups := if .groups ∈ S then .empty else db.groups
  collectionsGroups := if .collectionsGroups ∈ S then .empty else db.collectionsGroups
  groupsUsers := if .groupsUsers ∈ S then .empty else db.groupsUsers
  ciphers := if .ciphers ∈ S then .empty else db.ciphers
  folders := if .folders ∈ S then .empty else db.folders
  foldersCiphers := if .foldersCiphers ∈ S then .empty else db.foldersCiphers
  favorites := if .favorites ∈ S then .empty else db.favorites
  archives := if .archives ∈ S then .empty else db.archives
  attachments := if .attachments ∈ S then .empty else db.attachments

namespace World

/-- What it means that a part was not written: the accounts are equal up to the dates of their
revisions, no identifier of an account is lost, no session is added, and the rest is equal. -/
def Same (w w' : World) : Part → Prop
  | .users => w'.db.accounts = w.db.accounts
  | .userIds => w.db.userIds ⊆ w'.db.userIds
  | .devices => w'.db.devices = w.db.devices
  | .sessions => w'.db.sessions ⊆ w.db.sessions
  | .invitations => w'.db.invitations = w.db.invitations
  | .twofactor => w'.db.twofactor = w.db.twofactor
  | .twofactorIncomplete => w'.db.twofactorIncomplete = w.db.twofactorIncomplete
  | .ssoUsers => w'.db.ssoUsers = w.db.ssoUsers
  | .ssoAuth => w'.db.ssoAuth = w.db.ssoAuth
  | .emergencyAccess => w'.db.emergencyAccess = w.db.emergencyAccess
  | .authRequests => w'.db.authRequests = w.db.authRequests
  | .sends => w'.db.sends = w.db.sends
  | .organizations => w'.db.organizations = w.db.organizations
  | .usersOrganizations => w'.db.usersOrganizations = w.db.usersOrganizations
  | .orgPolicies => w'.db.orgPolicies = w.db.orgPolicies
  | .organizationApiKey => w'.db.organizationApiKey = w.db.organizationApiKey
  | .collections => w'.db.collections = w.db.collections
  | .usersCollections => w'.db.usersCollections = w.db.usersCollections
  | .ciphersCollections => w'.db.ciphersCollections = w.db.ciphersCollections
  | .groups => w'.db.groups = w.db.groups
  | .collectionsGroups => w'.db.collectionsGroups = w.db.collectionsGroups
  | .groupsUsers => w'.db.groupsUsers = w.db.groupsUsers
  | .ciphers => w'.db.ciphers = w.db.ciphers
  | .folders => w'.db.folders = w.db.folders
  | .foldersCiphers => w'.db.foldersCiphers = w.db.foldersCiphers
  | .favorites => w'.db.favorites = w.db.favorites
  | .archives => w'.db.archives = w.db.archives
  | .attachments => w'.db.attachments = w.db.attachments
  | .hub => w'.hub = w.hub
  | .mailed => w'.mailed = w.mailed

theorem Same.refl (w : World) (t : Part) : w.Same w t := by
  cases t <;> first | rfl | exact List.Subset.refl _

theorem Same.trans {a b c : World} (h : a.Same b t) (h' : b.Same c t) : a.Same c t := by
  cases t <;> first
    | exact Eq.trans h' h | exact List.Subset.trans h' h | exact List.Subset.trans h h'

/-- A database that is the same once the tables of `S` are emptied. -/
theorem Same.of_without {S : List Part} {w : World} {db : Db}
    (h : db.without S = w.db.without S) (ht : t ∉ S) : w.Same { w with db := db } t := by
  simp only [Db.without, Db.mk.injEq] at h
  cases t <;> simp [Same, Db.accounts, Db.userIds, Db.sessions, ht] at h ⊢ <;>
    simp only [h, List.Subset.refl]

/-- The faults and the next identifier are no parts. -/
theorem Same.of_eq {w w' : World} (hdb : w'.db = w.db) (hhub : w'.hub = w.hub)
    (hmailed : w'.mailed = w.mailed) (t : Part) : w.Same w' t := by
  cases t <;> simp [Same, hdb, hhub, hmailed]

/-! ## References resolve as before -/

section
variable {w w' : World}

theorem Same.hasUser (h : w.Same w' .users) : w'.db.hasUser u = w.db.hasUser u := by
  have hany : ∀ db : Db, db.hasUser u = db.accounts.any fun r => r.uuid = u := by
    intro db
    rw [Db.accounts, any_map]
    rfl
  rw [hany, hany, show w'.db.accounts = w.db.accounts from h]

theorem Same.hasOrganization (h : w.Same w' .organizations) :
    w'.db.hasOrganization o = w.db.hasOrganization o := by
  rw [Db.hasOrganization, show w'.db.organizations = w.db.organizations from h]
  rfl

theorem Same.hasCollection (h : w.Same w' .collections) :
    w'.db.hasCollection k = w.db.hasCollection k := by
  rw [Db.hasCollection, show w'.db.collections = w.db.collections from h]
  rfl

theorem Same.hasCipher {c} (h : w.Same w' .ciphers) : w'.db.hasCipher c = w.db.hasCipher c := by
  rw [Db.hasCipher, show w'.db.ciphers = w.db.ciphers from h]
  rfl

end

end World

/-- Outcomes of the outside are used up, in order; parts outside `S` stay. -/
def World.Keeps (S : List Part) (w w' : World) : Prop :=
  w'.faults <:+ w.faults ∧ ∀ t, t ∉ S → w.Same w' t

/-- The part whose rows the call is about, where that is told apart. -/
def Call.part : Call → Option Part
  | loadUser | saveUser _ => some .users
  | loadDevice | loadDevices _ | saveDevice _ | rotateIfMatches _ _ _ _ => some .sessions
  | loadTwofactor _ _ | saveTwofactor _ | checkOtp _ _ _ => some .twofactor
  | loadSsoAuth _ | saveSsoAuth _ | redeemSsoAuth _ => some .ssoAuth
  | timeoutEmergencyAccess _ => some .emergencyAccess
  | loadCipher _ | saveCipher _ => some .ciphers
  | saveSend _ | registerAccess _ => some .sends
  | fresh | external | read | write => none

/-- The number of fresh identifiers a call takes. -/
def Call.draws : Call → Nat
  | fresh => 1
  | _ => 0

/-- A call that stays within the parts `S`. -/
structure Call.Within (S : List Part) (l : Call) (update : World → World) : Prop where
  part : ∀ t ∈ l.part, t ∈ S
  keeps : ∀ w : World, w.Keeps S (update w)
  nextUuid : ∀ w : World, (update w).nextUuid = w.nextUuid + l.draws

theorem Call.Within.nextUuid_le {S l update} (h : Call.Within S l update) (w : World) :
    w.nextUuid ≤ (update w).nextUuid := by
  rw [h.nextUuid]
  exact Nat.le_add_right _ _

/-- A statement that changes nothing outside `S`. -/
theorem Call.Within.exec {S : List Part}
    (h : ∀ (w : World) db', stmt w.db = some db' → ∀ t, t ∉ S → w.Same { w with db := db' } t)
    (hl : (label.part.all fun t => S.contains t) = true) (hd : label.draws = 0) :
    Call.Within S label (World.exec stmt) := by
  refine ⟨fun t ht => ?_, fun w => ?_, fun w => ?_⟩
  · rw [Option.mem_def.1 ht] at hl
    exact contains_iff_mem.1 hl
  · obtain ⟨-, hx⟩ | ⟨db', -, hs, hx⟩ := w.exec_cases stmt
    · rw [hx]
      exact ⟨tail_suffix w.faults, fun t _ => .of_eq rfl rfl rfl t⟩
    · rw [hx]
      exact ⟨tail_suffix w.faults, fun t ht => (h w db' hs t ht).trans (.of_eq rfl rfl rfl t)⟩
  · obtain ⟨-, hx⟩ | ⟨db', -, -, hx⟩ := w.exec_cases stmt <;> rw [hx, hd] <;> rfl

/-- `S` holds every part that `c` may write. -/
def Writes {α : Type} (S : List Part) (c : Cmd α) : Prop := c.Each (Call.Within S)

namespace Writes

variable {α β : Type} {S T : List Part} {c : Cmd α} {w : World} {f : Db → α}

theorem keeps (h : Writes S c) (w : World) : w.Keeps S (c.after w) := by
  have hkeeps : Prog.Keeps (fun w' => w.Keeps S w') c := by
    refine (Prog.Each.mono (fun _ _ hu w' hw => ?_) h).keeps
    exact ⟨(hu.keeps w').1.trans hw.1, fun t ht => (hw.2 t ht).trans ((hu.keeps w').2 t ht)⟩
  exact hkeeps w ⟨suffix_rfl, fun t _ => .refl w t⟩

theorem after (h : Writes S c) (ht : t ∉ S) (w : World) : w.Same (c.after w) t := (h.keeps w).2 t ht

theorem nextUuid_le (h : Writes S c) (w : World) : w.nextUuid ≤ (c.after w).nextUuid := by
  have hkeeps : Prog.Keeps (fun w' => w.nextUuid ≤ w'.nextUuid) c := by
    exact (Prog.Each.mono (fun _ _ hu w' hw => Nat.le_trans hw (hu.nextUuid_le w')) h).keeps
  exact hkeeps w (Nat.le_refl _)

/-- A program that writes no part leaves every part alone. -/
theorem still (h : Writes [] c) (w : World) (t : Part) : w.Same (c.after w) t :=
  h.after not_mem_nil w

theorem subset (h : Writes S c) (hs : ∀ t ∈ S, t ∈ T) : Writes T c := by
  refine Prog.Each.mono (fun l u hu => ⟨fun t ht => hs t (hu.part t ht), fun w => ?_, hu.nextUuid⟩) h
  exact ⟨(hu.keeps w).1, fun t ht => (hu.keeps w).2 t fun h => ht (hs t h)⟩

theorem mono (h : Writes S c) (hs : (S.all fun t => T.contains t) = true) : Writes T c :=
  h.subset fun t ht => contains_iff_mem.1 (all_eq_true.1 hs t ht)

theorem cons (h : Writes S c) : Writes (t :: S) c := h.subset fun _ ht => mem_cons_of_mem _ ht

/-! ## Rules -/

theorem ret : Writes S (pure a : Cmd α) := trivial

theorem fail : Writes S (Prog.fail e : Cmd α) := trivial

theorem err : Writes S (VaultServer.err message : Cmd α) := trivial

theorem bind {k : α → Cmd β} (hc : Writes S c) (hk : ∀ a, Writes S (k a)) : Writes S (c >>= k) :=
  Prog.Each.bind hc hk

theorem seq {k : α → Cmd β} (hc : Writes S c) (hk : ∀ {a}, Writes S (k a)) : Writes S (c >>= k) :=
  bind hc fun _ => hk

theorem past {k : α → Cmd β} (hc : Writes T c) (hs : (T.all fun t => S.contains t) = true)
    (hk : ∀ {a}, Writes S (k a)) : Writes S (c >>= k) :=
  seq (hc.mono hs) hk

/-- A row that is looked up, and may be missing. -/
theorem maybe {k : Option α → Cmd β} (ho : Writes S o)
    (hnone : Writes S (k none)) (hsome : ∀ {x}, Writes S (k (some x))) : Writes S (o >>= k) := by
  refine bind ho fun found => ?_
  cases found with
  | none => exact hnone
  | some => exact hsome

theorem read {l f} (hd : l.draws = 0) (hl : ∀ t ∈ l.part, t ∈ S) :
    Writes S (Prog.read l f : Cmd α) :=
  ⟨⟨hl, fun w => ⟨suffix_rfl, fun t _ => .refl w t⟩, fun w => by rw [hd]; rfl⟩, fun _ => trivial⟩

theorem query : Writes S (VaultServer.query f) := read rfl nofun

theorem loadUser (h : S.contains .users = true) : Writes S (VaultServer.loadUser f) :=
  read rfl fun _ ht => Option.some.inj ht ▸ contains_iff_mem.1 h

theorem loadDevice (h : S.contains .sessions = true) : Writes S (VaultServer.loadDevice f) :=
  read rfl fun _ ht => Option.some.inj ht ▸ contains_iff_mem.1 h

theorem ite {b : Prop} [Decidable b] (hc : Writes S c) (hd : Writes S d) :
    Writes S (if b then c else d) := by
  split
  · exact hc
  · exact hd

theorem ensure : Writes S (VaultServer.ensure b message) := ite ret err

theorem check {k : Unit → Cmd β} (h : Writes S (k ())) :
    Writes S (VaultServer.ensure b message >>= k) :=
  bind ensure fun _ => h

theorem unwrap {o : Option α} : Writes S (VaultServer.unwrap o) := by cases o <;> trivial

theorem lift {r : Except Failure α} : Writes S (VaultServer.lift r) := by cases r <;> trivial

theorem getUuid : Writes S VaultServer.getUuid :=
  ⟨⟨nofun, fun _ => ⟨suffix_rfl, fun t _ => .of_eq rfl rfl rfl t⟩, fun _ => rfl⟩, fun _ => trivial⟩

theorem external : Writes S (VaultServer.external message) :=
  ⟨⟨nofun, fun w => ⟨tail_suffix w.faults, fun t _ => .of_eq rfl rfl rfl t⟩, fun _ => rfl⟩,
    fun _ => ite err ret⟩

theorem mailToken (h : .mailed ∈ S) : Writes S (VaultServer.mailToken env email token) := by
  refine ⟨⟨nofun, fun w => ⟨tail_suffix w.faults, fun t ht => ?_⟩, fun _ => rfl⟩,
    fun _ => ite err ret⟩
  cases t <;> first | rfl | exact (ht h).elim | exact List.Subset.refl _

theorem attempt (h : Writes S c) : Writes S c.attempt := Prog.Each.attempt h

theorem catchErr (h : Writes S c) : Writes S (VaultServer.catchErr c) := by
  refine bind h.attempt fun r => ?_
  split
  · exact fail
  · exact ret

theorem expectOk (h : Writes S c) : Writes S (VaultServer.expectOk c message) := by
  refine bind h.catchErr fun r => ?_
  split
  · exact ret
  · exact fail

theorem when {b c} (h : Writes S c) : Writes S (Prog.when b c) := ite h ret

theorem each {f : α → Cmd Unit} (h : ∀ x, Writes S (f x)) : Writes S (Prog.each xs f) :=
  Prog.Each.each fun x _ => h x

theorem foldl {f : β → α → Cmd β} (h : ∀ b x, Writes S (f b x)) : Writes S (Prog.foldl xs b f) :=
  Prog.Each.foldl fun b x _ => h b x

/-- A statement on rows that are told apart. -/
theorem execAs (hl : (label.part.all fun t => S.contains t) = true) (hd : label.draws = 0)
    (h : ∀ (w : World) db', stmt w.db = some db' → ∀ t, t ∉ S → w.Same { w with db := db' } t) :
    Writes S (VaultServer.exec stmt message label) :=
  ⟨.exec h hl hd, fun _ => ite err ret⟩

theorem execTotal (h : ∀ (w : World) t, t ∉ S → w.Same { w with db := stmt w.db } t) :
    Writes S (VaultServer.execTotal stmt message) := by
  refine execAs rfl rfl fun w db' hs t ht => ?_
  rw [← Option.some.inj hs]
  exact h w t ht

theorem totalAs {stmt : Db → Db}
    (hl : (label.part.all fun t => S.contains t) = true) (hd : label.draws = 0)
    (h : ∀ db, (stmt db).without S = db.without S) :
    Writes S (VaultServer.exec (fun db => some (stmt db)) message label) := by
  refine execAs hl hd fun w db' hs t ht => ?_
  rw [← Option.some.inj hs]
  exact .of_without (h w.db) ht

theorem total (h : ∀ db, (stmt db).without S = db.without S) :
    Writes S (VaultServer.execTotal stmt message) :=
  totalAs rfl rfl h

theorem guardedAs {ok : Db → Bool} {stmt : Db → Db}
    (hl : (label.part.all fun t => S.contains t) = true) (hd : label.draws = 0)
    (h : ∀ db, (stmt db).without S = db.without S) :
    Writes S (VaultServer.exec (fun db => Db.guarded (ok db) (stmt db)) message label) := by
  refine execAs hl hd fun w db' hs t ht => ?_
  obtain ⟨-, rfl⟩ := Db.guarded_eq_some hs
  exact .of_without (h w.db) ht

theorem guarded {ok : Db → Bool} {stmt : Db → Db} (h : ∀ db, (stmt db).without S = db.without S) :
    Writes S (VaultServer.exec (fun db => Db.guarded (ok db) (stmt db)) message .write) :=
  guardedAs rfl rfl h

end Writes

end VaultServer
