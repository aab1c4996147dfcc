import VaultServer.Invariants.Pledge

/-!
# One statement under a pledge

`Pledge.Step` is what one accepted statement has to show, `Pledge.Safe` what a program keeps. Most
of a handler writes tables that no invariant speaks about, or only takes rows out of the assignment
tables; such a program is `Quiet` and keeps every pledge.
-/

namespace VaultServer

open Lib

variable {db' db : Db} {message : String} {b : Bool} {n : Nat} {p : Pledge}

namespace Pledge

/-- `n` is the next identifier to be drawn. -/
structure Step (p : Pledge) (n : Nat) (db db' : Db) : Prop where
  boundary : OrgBoundary db → OrgBoundary db'
  links : LinksKept p.exempt db → LinksKept p.exempt db'
  fresh : Fresh n db → Fresh n db'
  moves : p.Moves db db'

theorem Step.refl (p : Pledge) (n : Nat) (db : Db) : p.Step n db db := ⟨id, id, id, .refl p db⟩

theorem Step.world {w : World} (h : p.Step w.nextUuid w.db db')
    (faults : List Bool) (hw : p.Inv w) :
    p.Inv { w with db := db', faults := faults } ∧ p.Rel w { w with db := db', faults := faults } :=
  ⟨⟨h.boundary hw.boundary, h.links hw.links, h.fresh hw.fresh, hw.base⟩, Nat.le_refl _, h.moves⟩

/-- `c` keeps the pledge from `w` on, and `Q` holds when it returns. -/
abbrev Safe {α : Type} (p : Pledge) (w : World) (c : Cmd α) (Q : α → World → Prop) : Prop :=
  Prog.Safe p.guarantee w c Q

section
variable {α β : Type} {p : Pledge} {w : World} {Q : α → World → Prop} {R : β → World → Prop}
  {k : α → Cmd β} {f : Db → α}

theorem Safe.err : p.Safe w (VaultServer.err message : Cmd α) Q := Prog.Safe.fail

theorem Safe.query (h : p.Safe w (k (f w.db)) R) :
    p.Safe w (VaultServer.query f >>= k) R := ⟨h.post⟩

theorem Safe.loadUser (h : p.Safe w (k (f w.db)) R) :
    p.Safe w (VaultServer.loadUser f >>= k) R := ⟨h.post⟩

theorem Safe.loadDevice (h : p.Safe w (k (f w.db)) R) :
    p.Safe w (VaultServer.loadDevice f >>= k) R := ⟨h.post⟩

theorem Safe.ensure {k} (h : b = true → p.Safe w (k ()) R) :
    p.Safe w (VaultServer.ensure b message >>= k) R := by
  cases b with
  | false => exact .fail
  | true => exact h rfl

/-- A row that is looked up, and may be missing. -/
theorem Safe.found {f : World → Option α} {k : Option α → Cmd β} (hnone : p.Safe w (k none) R)
    (hsome : ∀ a, f w = some a → p.Safe w (k (some a)) R) : p.Safe w (Prog.read l f >>= k) R := by
  refine ⟨?_⟩
  cases ha : f w with
  | none => simpa [Prog.run_bind, ha] using hnone.post
  | some a => simpa [Prog.run_bind, ha] using (hsome a ha).post

theorem Safe.check {k} (h : p.Safe w (k ()) R) :
    p.Safe w (VaultServer.ensure b message >>= k) R := .ensure fun _ => h

theorem Safe.ensure_last {Q} (h : b = true → Q () w) :
    p.Safe w (VaultServer.ensure b message) Q := by
  cases b with
  | false => exact .fail
  | true => exact .ret (h rfl)

theorem Safe.unwrap (h : ∀ a, o = some a → p.Safe w (k a) R) :
    p.Safe w (VaultServer.unwrap o >>= k) R := by
  cases o with
  | none => exact .fail
  | some a => exact h a rfl

theorem Safe.lift (h : ∀ a, r = .ok a → p.Safe w (k a) R) :
    p.Safe w (VaultServer.lift r >>= k) R := by
  cases r with
  | error => exact .fail
  | ok a => exact h a rfl

theorem Safe.when {c} (h : b = true → p.Safe w c ⊤) : p.Safe w (Prog.when b c) ⊤ := by
  cases b with
  | false => exact .ret trivial
  | true => exact h rfl

/-- The rest of a program, whatever the first part reports. -/
theorem Safe.andThen {c k} (hc : p.Safe w c Q)
    (hk : ∀ a w', p.Inv w' → p.Rel w w' → p.Safe w' (k a) R) : p.Safe w (c >>= k) R :=
  Prog.Safe.bind hc fun a w' hw' hrel _ => hk a w' hw' hrel

theorem Safe.seq {c k} (hc : p.Safe w c Q) (hk : ∀ {a w'}, p.Safe w' (k a) R) :
    p.Safe w (c >>= k) R := hc.andThen fun _ _ _ _ => hk

/-- Forgets what the program reports. -/
theorem Safe.forget {c} (h : p.Safe w c Q) : p.Safe w c ⊤ := h.mono fun _ _ _ => trivial

/-- A stronger pledge will do, and says more about where the program ends. -/
theorem Safe.weaken {q c} (h : p.Safe w c Q) (hpq : p.Le q) :
    q.Safe w c fun a w' => Q a w' ∧ p.Rel w w' := by
  refine ⟨fun hw => (h.post (hpq.inv.2 hw)).mono (fun _ _ h => ?_) fun _ h => ?_⟩
  · exact ⟨⟨hpq.inv.1 h.1.1, hpq.rel h.1.2⟩, h.2, h.1.2⟩
  · exact ⟨hpq.inv.1 h.1, hpq.rel h.2⟩

/-- A handler that takes nothing away keeps the facts it has established. -/
theorem Safe.of_growing {c} (hp : p.Grows) (h : p.growing.Safe w c Q) : p.Safe w c Q :=
  (h.weaken (p.growing_le hp)).mono fun _ _ h => h.1

theorem Safe.catchErr {c} (h : p.Safe w c Q) :
    p.Safe w (VaultServer.catchErr c) fun r w' => ∀ a, r = .ok a → Q a w' := by
  refine .bind h.attempt ?_
  intro r w' _ _ hr
  match r with
  | .ok a => exact .ret hr
  | .error (.panic _) => exact .fail
  | .error (.err _) => exact .ret hr
  | .error (.invalid _) => exact .ret hr

/-- Faults and connections are outside every pledge. -/
theorem Safe.external : p.Safe w (VaultServer.external message) ⊤ := by
  refine Prog.Safe.call (fun hw => (Step.refl p w.nextUuid w.db).world _ hw) ?_
  cases w.faults.headD false with
  | false => exact .ret trivial
  | true => exact .fail

/-- A drawn identifier is new, and everything later stays clear of it. -/
theorem Safe.getUuid {k} (h : p.Inv w → p.Inv { w with nextUuid := w.nextUuid + 1 } →
      p.Safe { w with nextUuid := w.nextUuid + 1 } (k w.nextUuid) R) :
    p.Safe w (VaultServer.getUuid >>= k) R := by
  refine Prog.Ends.of_inv fun hw => ?_
  have hw' : p.Inv { w with nextUuid := w.nextUuid + 1 } :=
    ⟨hw.boundary, hw.links, hw.fresh.mono (Nat.le_succ _), Nat.le_trans hw.base (Nat.le_succ _)⟩
  have hrel : p.Rel w { w with nextUuid := w.nextUuid + 1 } := ⟨Nat.le_succ _, .refl p w.db⟩
  exact Prog.Safe.call (fun _ => ⟨hw', hrel⟩) (h hw hw')

theorem Safe.exec (h : p.Inv w → ∀ db', stmt w.db = some db' → p.Step w.nextUuid w.db db') :
    p.Safe w (VaultServer.exec stmt message label)
      fun _ w' => stmt w.db = some w'.db ∧ w'.nextUuid = w.nextUuid := by
  have hx := w.exec_cases stmt
  refine Prog.Safe.call (fun hw => ?_) ?_
  · obtain ⟨-, hx⟩ | ⟨db', -, hs, hx⟩ := hx
    · rw [hx]; exact (Step.refl p w.nextUuid w.db).world _ hw
    · rw [hx]; exact (h hw db' hs).world _ hw
  · obtain ⟨hr, -⟩ | ⟨db', hr, hs, hx⟩ := hx
    · rw [hr]; exact .fail
    · rw [hr, hx]; exact .ret ⟨hs, rfl⟩

theorem Safe.execTotal (h : p.Inv w → p.Step w.nextUuid w.db (stmt w.db)) :
    p.Safe w (VaultServer.execTotal stmt message)
      fun _ w' => w'.db = stmt w.db ∧ w'.nextUuid = w.nextUuid := by
  refine (Safe.exec fun hw db' hs => ?_).mono fun _ w' h => ⟨(Option.some.inj h.1).symm, h.2⟩
  obtain rfl := Option.some.inj hs
  exact h hw

end

end Pledge

/-! ## Invariants of a database that has grown -/

/-- The boundary survives rows that stay in place, assignments that were there already, and
assignments that are inside one organization. -/
theorem OrgBoundary.extend (hb : OrgBoundary db) (he : Extends db db')
    (hcu : ∀ cu ∈ db'.usersCollections.rows, cu ∈ db.usersCollections.rows ∨
      ∃ o, db'.CollectionIn cu.collectionUuid o ∧ db'.IsMember cu.userUuid o)
    (hcg : ∀ cg ∈ db'.collectionsGroups.rows, cg ∈ db.collectionsGroups.rows ∨
      ∃ o, db'.CollectionIn cg.collectionsUuid o ∧ db'.GroupIn cg.groupsUuid o)
    (hgu : ∀ gu ∈ db'.groupsUsers.rows, gu ∈ db.groupsUsers.rows ∨
      ∃ o, db'.GroupIn gu.groupsUuid o ∧ db'.MembershipIn gu.usersOrganizationsUuid o) :
    OrgBoundary db' := by
  obtain ⟨h1, h2, h3⟩ := orgBoundary_iff.1 hb
  refine orgBoundary_iff.2 ⟨?_, ?_, ?_⟩
  · intro cu h
    obtain h | h := hcu cu h
    · obtain ⟨o, hk, hm⟩ := h1 cu h
      exact ⟨o, hk.mono he, hm.mono he⟩
    · exact h
  · intro cg h
    obtain h | h := hcg cg h
    · obtain ⟨o, hk, hg⟩ := h2 cg h
      exact ⟨o, hk.mono he, hg.mono he⟩
    · exact h
  · intro gu h
    obtain h | h := hgu gu h
    · obtain ⟨o, hg, hm⟩ := h3 gu h
      exact ⟨o, hg.mono he, hm.mono he⟩
    · exact h

theorem OrgBoundary.shrink (hb : OrgBoundary db) (he : Extends db db')
    (hs : Shrinks db db') : OrgBoundary db' :=
  hb.extend he (fun r hr => .inl (hs.usersCollections r hr))
    (fun r hr => .inl (hs.collectionsGroups r hr)) fun r hr => .inl (hs.groupsUsers r hr)

theorem LinksKept.extend (hl : LinksKept exempt db) (he : Extends db db')
    (hcc : ∀ cc ∈ db'.ciphersCollections.rows, cc ∈ db.ciphersCollections.rows ∨
      ∃ o, db'.CollectionIn cc.collectionUuid o ∧
        (db'.CipherIn cc.cipherUuid o ∨ exempt cc.cipherUuid o)) : LinksKept exempt db' := by
  intro cc h
  obtain h | h := hcc cc h
  · obtain ⟨o, hk, hc⟩ := hl cc h
    exact ⟨o, hk.mono he, hc.imp_left (he.ciphers _ _)⟩
  · exact h

theorem LinksKept.shrink
    (hl : LinksKept exempt db) (he : Extends db db') (hs : Shrinks db db') : LinksKept exempt db' :=
  hl.extend he fun r hr => .inl (hs.ciphersCollections r hr)

/-! ## Statements that keep every row in place -/

/-- Everything that sits in an organization is as before. -/
structure SameOrg (db db' : Db) : Prop where
  members : db'.usersOrganizations = db.usersOrganizations
  collections : db'.collections = db.collections
  groups : db'.groups = db.groups
  ciphers : db'.ciphers = db.ciphers

theorem SameOrg.extends (h : SameOrg db db') : Extends db db' where
  members r hr := ⟨r, h.members ▸ hr, rfl, rfl, rfl⟩
  collections r hr := ⟨r, h.collections ▸ hr, rfl, rfl⟩
  groups r hr := ⟨r, h.groups ▸ hr, rfl, rfl⟩
  ciphers c o hc := by unfold Db.CipherIn; rw [h.ciphers]; exact hc

theorem SameOrg.stable (h : SameOrg db db') : Stable db db' where
  members r hr := ⟨r, h.members ▸ hr, rfl, rfl, rfl⟩
  collections r hr := ⟨r, h.collections ▸ hr, rfl, rfl⟩
  groups r hr := ⟨r, h.groups ▸ hr, rfl, rfl⟩

theorem SameOrg.fresh (h : SameOrg db db')
    (hu : (∀ r ∈ db.users.rows, r.uuid.val < n) → ∀ r ∈ db'.users.rows, r.uuid.val < n)
    (hf : Fresh n db) : Fresh n db' where
  users := hu hf.users
  members r hr := hf.members r (h.members ▸ hr)
  collections r hr := hf.collections r (h.collections ▸ hr)
  groups r hr := hf.groups r (h.groups ▸ hr)
  ciphers r hr := hf.ciphers r (h.ciphers ▸ hr)

/-- The accounts and devices are as before. -/
structure SameAccounts (db db' : Db) : Prop where
  users : db'.users = db.users
  devices : db'.devices = db.devices

theorem SameAccounts.kept (h : SameAccounts db db') (inserts : Bool) (n : Nat) :
    AccountsKept inserts n db db' where
  users r hr := .inl ⟨r, h.users ▸ hr, rfl, .refl r⟩
  devices d hd := .inl ⟨d, h.devices ▸ hd, rfl⟩

/-- A statement about accounts and devices. -/
theorem Pledge.Step.of_accounts (ho : SameOrg db db') (hs : Shrinks db db')
    (hf : (∀ r ∈ db.users.rows, r.uuid.val < n) → ∀ r ∈ db'.users.rows, r.uuid.val < n)
    (ha : AccountsKept p.inserts p.base db db')
    (hu : p.dropsUsers = false → ∀ r ∈ db.users.rows, ∃ r' ∈ db'.users.rows, r'.uuid = r.uuid)
    (hd : p.dropsDevices = false →
      ∀ d ∈ db.devices.rows, ∃ d' ∈ db'.devices.rows, d'.userUuid = d.userUuid) :
    p.Step n db db' where
  boundary hb := hb.shrink ho.extends hs
  links hl := hl.shrink ho.extends hs
  fresh := ho.fresh hf
  moves :=
    { shrinks := fun _ => hs
      ciphers := fun _ hc => .inl (ho.ciphers ▸ hc)
      stable := fun _ => ho.stable
      keeps := fun _ => ho.extends
      accounts := ha
      users := hu
      devices := hd }

/-- Only the accounts are written. -/
theorem Pledge.Step.of_users {t}
    (hf : (∀ r ∈ db.users.rows, r.uuid.val < n) → ∀ r ∈ t.rows, r.uuid.val < n)
    (ha : ∀ r' ∈ t.rows, (∃ r ∈ db.users.rows, r.uuid = r'.uuid ∧ RowKept r r') ∨
      (p.inserts = true ∧ p.base ≤ r'.uuid.val ∧ r'.stampException = none))
    (hu : p.dropsUsers = false → ∀ r ∈ db.users.rows, ∃ r' ∈ t.rows, r'.uuid = r.uuid) :
    p.Step n db { db with users := t } :=
  .of_accounts ⟨rfl, rfl, rfl, rfl⟩ (.of_same rfl rfl rfl rfl) hf
    ⟨ha, fun d hd => .inl ⟨d, hd, rfl⟩⟩ hu fun _ d hd => ⟨d, hd, rfl⟩

/-- Only the devices are written. -/
theorem Pledge.Step.of_devices {t}
    (ha : DevicesKept p.base db { db with devices := t })
    (hd : p.dropsDevices = false →
      ∀ d ∈ db.devices.rows, ∃ d' ∈ t.rows, d'.userUuid = d.userUuid) :
    p.Step n db { db with devices := t } :=
  .of_accounts ⟨rfl, rfl, rfl, rfl⟩ (.of_same rfl rfl rfl rfl) id
    ⟨fun r hr => .inl ⟨r, hr, rfl, .refl r⟩, ha⟩ (fun _ r hr => ⟨r, hr, rfl⟩) hd

/-- A statement that writes none of the tables the invariants speak about, or only takes rows out
of the assignment tables and the links. -/
theorem Pledge.Step.of_quiet (ho : SameOrg db db')
    (ha : SameAccounts db db') (hs : Shrinks db db') : p.Step n db db' :=
  .of_accounts ho hs (fun h r hr => h r (ha.users ▸ hr)) (ha.kept _ _)
    (fun _ r hr => ⟨r, ha.users ▸ hr, rfl⟩) fun _ d hd => ⟨d, ha.devices ▸ hd, rfl⟩

/-- The tables the invariants speak about. -/
def Db.watched (db : Db) :=
  ((db.usersOrganizations, db.collections, db.groups, db.ciphers), (db.users, db.devices),
    db.usersCollections, db.collectionsGroups, db.groupsUsers, db.ciphersCollections)

/-- A statement about other tables. -/
theorem Pledge.Step.of_unwatched (h : db'.watched = db.watched) : p.Step n db db' := by
  simp only [Db.watched, Prod.mk.injEq] at h
  obtain ⟨⟨hm, hk, hg, hc⟩, ⟨hu, hd⟩, huk, hgk, hgu, hck⟩ := h
  exact .of_quiet ⟨hm, hk, hg, hc⟩ ⟨hu, hd⟩ (.of_same huk hgk hgu hck)

/-- Assignments or links are written, and nothing else. -/
theorem Pledge.Step.of_grant (hp : p.grants = true)
    (ho : SameOrg db db') (ha : SameAccounts db db')
    (hb : Extends db db' → OrgBoundary db → OrgBoundary db')
    (hl : Extends db db' → LinksKept p.exempt db → LinksKept p.exempt db') : p.Step n db db' where
  boundary := hb ho.extends
  links := hl ho.extends
  fresh := ho.fresh fun h r hr => h r (ha.users ▸ hr)
  moves :=
    { shrinks := fun h => by rw [hp] at h; cases h
      ciphers := fun _ hc => .inl (ho.ciphers ▸ hc)
      stable := fun _ => ho.stable
      keeps := fun _ => ho.extends
      accounts := ha.kept _ _
      users := fun _ r hr => ⟨r, ha.users ▸ hr, rfl⟩
      devices := fun _ d hd => ⟨d, ha.devices ▸ hd, rfl⟩ }

/-- Rows of an organization are written, and none that others refer to leaves its place. -/
theorem Pledge.Step.of_rows (ha : SameAccounts db db')
    (hs : Shrinks db db') (he : Extends db db') (hf : Fresh n db → Fresh n db')
    (hst : p.inserts = false → Stable db db')
    (hc : ∀ c ∈ db'.ciphers.rows, c ∈ db.ciphers.rows ∨ p.stores c) : p.Step n db db' where
  boundary hb := hb.shrink he hs
  links hl := hl.shrink he hs
  fresh := hf
  moves :=
    { shrinks := fun _ => hs
      ciphers := hc
      stable := hst
      keeps := fun _ => he
      accounts := ha.kept _ _
      users := fun _ r hr => ⟨r, ha.users ▸ hr, rfl⟩
      devices := fun _ d hd => ⟨d, ha.devices ▸ hd, rfl⟩ }

/-- Rows of an organization are taken away. -/
theorem Pledge.Step.of_delete (hp : p.deletes = true)
    (ha : SameAccounts db db') (hs : Shrinks db db') (hst : Stable db db')
    (hc : ∀ c ∈ db'.ciphers.rows, c ∈ db.ciphers.rows) (hb : OrgBoundary db → OrgBoundary db')
    (hl : LinksKept p.exempt db → LinksKept p.exempt db') : p.Step n db db' where
  boundary := hb
  links := hl
  fresh hf :=
    { users := fun r hr => hf.users r (ha.users ▸ hr)
      members := fun r' hr' => by
        obtain ⟨r, hr, hu, -⟩ := hst.members r' hr'
        rw [← hu]; exact hf.members r hr
      collections := fun r' hr' => by
        obtain ⟨r, hr, hu, -⟩ := hst.collections r' hr'
        rw [← hu]; exact hf.collections r hr
      groups := fun r' hr' => by
        obtain ⟨r, hr, hu, -⟩ := hst.groups r' hr'
        rw [← hu]; exact hf.groups r hr
      ciphers := fun c h => hf.ciphers c (hc c h) }
  moves :=
    { shrinks := fun _ => hs
      ciphers := fun c h => .inl (hc c h)
      stable := fun _ => hst
      keeps := fun h => by rw [hp] at h; cases h
      accounts := ha.kept _ _
      users := fun _ r hr => ⟨r, ha.users ▸ hr, rfl⟩
      devices := fun _ d hd => ⟨d, ha.devices ▸ hd, rfl⟩ }

/-! ## Quiet programs -/

/-- The program keeps every pledge. -/
def Quiet {α : Type} (c : Cmd α) : Prop := ∀ (p : Pledge) (w : World), p.Safe w c fun _ _ => True

namespace Quiet

variable {α β : Type} {c : Cmd α}

theorem calm (h : Quiet c) {p : Pledge} {w} : p.Safe w c fun _ w' => p.calm.Rel w w' :=
  ((h p.calm w).weaken p.calm_le).mono fun _ _ h => h.2

theorem safe (h : Quiet c) {p : Pledge} {w} : p.Safe w c ⊤ := h p w

/-- It is enough to keep the strongest pledge. -/
theorem of_calm (h : ∀ (p : Pledge) (w : World), p.calm.Safe w c ⊤) : Quiet c :=
  fun p w => ((h p w).weaken p.calm_le).forget

theorem ret : Quiet (pure a : Cmd α) := fun _ _ => .ret trivial

theorem fail : Quiet (Prog.fail e : Cmd α) := fun _ _ => .fail

theorem err : Quiet (VaultServer.err message : Cmd α) := fail

theorem bind {k : α → Cmd β} (hc : Quiet c) (hk : ∀ a, Quiet (k a)) : Quiet (c >>= k) :=
  fun p w => (hc p w).andThen fun a w' _ _ => hk a p w'

theorem query {f : Db → α} : Quiet (VaultServer.query f) := fun _ _ =>
  Pledge.Safe.query (k := pure) (.ret trivial)

theorem ensure : Quiet (VaultServer.ensure b message) := fun _ _ =>
  Pledge.Safe.ensure_last fun _ => trivial

theorem unwrap {o : Option α} : Quiet (VaultServer.unwrap o) := by
  cases o with
  | none => exact fail
  | some => exact ret

theorem lift {r : Except Failure α} : Quiet (VaultServer.lift r) := by
  cases r with
  | error => exact fail
  | ok => exact ret

theorem getUuid : Quiet VaultServer.getUuid := fun _ _ =>
  Pledge.Safe.getUuid (k := pure) fun _ _ => .ret trivial

theorem external : Quiet (VaultServer.external message) := fun _ _ =>
  Pledge.Safe.external

theorem attempt (h : Quiet c) : Quiet c.attempt := fun p w => (h p w).attempt.mono fun _ _ _ => trivial

theorem catchErr (h : Quiet c) : Quiet (VaultServer.catchErr c) := fun p w =>
  (Pledge.Safe.catchErr (h p w)).forget

theorem when {c} (h : Quiet c) : Quiet (Prog.when b c) := fun p w =>
  Pledge.Safe.when fun _ => h p w

theorem each {f : α → Cmd Unit} (h : ∀ x ∈ xs, Quiet (f x)) :
    Quiet (Prog.each xs f) := fun p _ => .each fun x hx w' _ _ => h x hx p w'

theorem foldl {xs b} {f : β → α → Cmd β} (h : ∀ b x, Quiet (f b x)) :
    Quiet (Prog.foldl xs b f) := fun p _ =>
  Prog.Safe.foldl (J := ⊤) trivial fun b x _ w' _ _ _ => h b x p w'

theorem ite {b : Prop} [Decidable b] (hc : Quiet c) (hd : Quiet d) :
    Quiet (if b then c else d) := by
  split
  · exact hc
  · exact hd

theorem exec {stmt label} (h : ∀ (p : Pledge) n db db', stmt db = some db' → p.Step n db db') :
    Quiet (VaultServer.exec stmt message label) := fun p _ =>
  (Pledge.Safe.exec fun _ db' hs => h p _ _ db' hs).forget

theorem execTotal (h : ∀ (p : Pledge) n db, p.Step n db (stmt db)) :
    Quiet (VaultServer.execTotal stmt message) := fun p _ =>
  (Pledge.Safe.execTotal fun _ => h p _ _).forget

/-- A guarded statement on a table outside the invariants. -/
theorem execGuarded {ok : Db → Bool} {stmt : Db → Db}
    (h : ∀ (p : Pledge) n db, p.Step n db (stmt db)) :
    Quiet (VaultServer.exec (fun db => Db.guarded (ok db) (stmt db)) message label) := by
  refine exec fun p n db db' hs => ?_
  obtain ⟨-, rfl⟩ := Db.guarded_eq_some hs
  exact h p n db

end Quiet

end VaultServer
