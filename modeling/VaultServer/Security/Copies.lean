import VaultServer.Security.Secrets
import VaultServer.Invariants.Copies

/-!
# What a request writes into an account row

`User::save` stores every column of a copy. Most requests change other columns than those that
decide who may come in: what they store there is what they have read, except that a login may hash
the password it was shown again, with the one hash function of the server. This holds for each
request by itself; whether what was read is still current when it is stored is another matter.
-/

namespace VaultServer

open Lib List

variable {u : User} {hash : String → Secret → Nat → String}

/-! ## Credentials -/

/-- The columns that decide who may come in. -/
structure Credentials where
  passwordHash : String
  salt : Secret
  passwordIterations : Nat
  securityStamp : Secret
  enabled : Bool
  deriving DecidableEq

def User.credentials (u : User) : Credentials :=
  ⟨u.passwordHash, u.salt, u.passwordIterations, u.securityStamp, u.enabled⟩

def Db.credentialsOf (u : UserId) (db : Db) : Option Credentials :=
  (User.findByUuid db u).map User.credentials

/-- The same credentials, with the hash made again any number of times from a password that it
accepts. This is what `kdf_upgrade` does. -/
inductive Upgraded (hash : String → Secret → Nat → String) : Credentials → Credentials → Prop where
  | refl (c : Credentials) : Upgraded hash c c
  | rehash {c c' : Credentials} (password : String) (iterations : Nat) (h : Upgraded hash c c')
      (hp : c'.passwordHash = hash password c'.salt c'.passwordIterations) :
      Upgraded hash c { c' with
        passwordHash := hash password c'.salt iterations
        passwordIterations := iterations }

namespace Upgraded

variable {a b c : Credentials}

theorem trans (h : Upgraded hash a b) (h' : Upgraded hash b c) : Upgraded hash a c := by
  induction h' with
  | refl => exact h
  | rehash password iterations _ hp ih => exact .rehash password iterations ih hp

theorem securityStamp (h : Upgraded hash a b) : b.securityStamp = a.securityStamp := by
  induction h with
  | refl => rfl
  | rehash _ _ _ _ ih => exact ih

theorem enabled (h : Upgraded hash a b) : b.enabled = a.enabled := by
  induction h with
  | refl => rfl
  | rehash _ _ _ _ ih => exact ih

end Upgraded

/-- The credentials only depend on the accounts without their revision dates. -/
theorem Db.credentialsOf_accounts {db db' : Db} (h : db'.accounts = db.accounts) (u : UserId) :
    db'.credentialsOf u = db.credentialsOf u := by
  have hfind : ∀ db : Db, db.credentialsOf u =
      (db.accounts.find? fun r => r.uuid = u).map User.credentials := by
    intro db
    rw [Db.accounts, find?_map, Option.map_map]
    rfl
  rw [hfind, hfind, h]

theorem Db.credentialsOf_of_mem {db : Db} {r : User} (h : r ∈ db.users.rows) :
    db.credentialsOf r.uuid = some r.credentials := by
  have hfind : User.findByUuid db r.uuid = some r := Table.find?_key h
  rw [Db.credentialsOf, hfind]
  rfl

/-! ## Copies -/

def loadsUser (a : DbAccess) : Bool :=
  match a.label with
  | .loadUser => true
  | _ => false

/-- The account as the request has last read it. -/
def lastRead (u : UserId) (before : List DbAccess) : Option (Option Credentials) :=
  looked (fun w : World => w.db.credentialsOf u) loadsUser before

/-- The copy has the credentials of the account as it was read, up to upgrades. -/
def Copied (hash : String → Secret → Nat → String) (before : List DbAccess) (u : User) : Prop :=
  ∃ c, lastRead u.uuid before = some (some c) ∧ Upgraded hash c u.credentials

/-- The request has drawn the identifier of the account. -/
def Drawn (before : List DbAccess) (u : User) : Prop :=
  ∃ a ∈ before, a.label = .fresh ∧ a.pre.nextUuid = u.uuid.val

/-- A call as far as credentials are concerned: what it stores was read or is a new account. -/
def Call.Faithful (hash : String → Secret → Nat → String) (before : List DbAccess) (l : Call)
    (update : World → World) : Prop :=
  (∀ w, (update w).nextUuid = w.nextUuid + l.draws) ∧
    match l with
    | .saveUser row =>
        update = World.exec row.saveStmt ∧ (Copied hash before row ∨ Drawn before row)
    | _ => ∀ w, (update w).db.accounts = w.db.accounts

/-- Every call of the program is faithful, and `Q` holds when it returns. -/
def Follows {α : Type} (hash : String → Secret → Nat → String) (before : List DbAccess) (c : Cmd α)
    (Q : List DbAccess → α → Prop) : Prop :=
  Prog.Traced (Call.Faithful hash) Q (fun _ => True) before c

/-- No account was read since. -/
def Unread (before after : List DbAccess) : Prop :=
  ∃ new, after = new ++ before ∧ ∀ a ∈ new, loadsUser a = false

namespace Unread

variable {before after : List DbAccess}

theorem refl (before : List DbAccess) : Unread before before := ⟨[], rfl, fun _ h => nomatch h⟩

theorem trans {a b c} (h : Unread a b) (h' : Unread b c) : Unread a c := by
  obtain ⟨new, rfl, hn⟩ := h
  obtain ⟨new', rfl, hn'⟩ := h'
  refine ⟨new' ++ new, (append_assoc _ _ _).symm, fun x hx => ?_⟩
  rcases mem_append.1 hx with hx | hx
  · exact hn' x hx
  · exact hn x hx

theorem cons {a} (h : loadsUser a = false) : Unread before (a :: before) :=
  ⟨[a], rfl, fun _ hx => mem_singleton.1 hx ▸ h⟩

theorem lastRead (h : Unread before after) (u : UserId) :
    VaultServer.lastRead u after = VaultServer.lastRead u before := by
  obtain ⟨new, rfl, hn⟩ := h
  induction new with
  | nil => rfl
  | cons a new ih =>
    have ha := hn a mem_cons_self
    rw [cons_append, VaultServer.lastRead, looked, ha]
    exact ih fun x hx => hn x (mem_cons_of_mem _ hx)

theorem copied (h : Unread before after) (hu : Copied hash before u) :
    Copied hash after u := by
  obtain ⟨c, hc, hup⟩ := hu
  exact ⟨c, (h.lastRead u.uuid).trans hc, hup⟩

theorem drawn (h : Unread before after) (hu : Drawn before u) : Drawn after u := by
  obtain ⟨new, rfl, -⟩ := h
  obtain ⟨a, ha, hd⟩ := hu
  exact ⟨a, mem_append_right _ ha, hd⟩

end Unread

/-- The row may be stored: it was read, or the account is new. -/
def Owned (hash : String → Secret → Nat → String) (before : List DbAccess) (u : User) : Prop :=
  Copied hash before u ∨ Drawn before u

theorem Owned.later {before after} (h : Owned hash before u) (hr : Unread before after) :
    Owned hash after u :=
  h.imp hr.copied hr.drawn

/-- Another copy of the same account with the same credentials. -/
theorem Owned.copy {before u'} (h : Owned hash before u)
    (hid : u'.uuid = u.uuid) (hc : u'.credentials = u.credentials) : Owned hash before u' := by
  rcases h with ⟨c, hread, hup⟩ | hnew
  · exact .inl ⟨c, by rw [hid]; exact hread, by rw [hc]; exact hup⟩
  · refine .inr ?_
    rw [Drawn, hid]
    exact hnew

/-! ## Rules -/

variable {env : Env} {before : List DbAccess}

/-- A program that leaves the accounts alone. -/
theorem Follows.quiet {c : Cmd α} (h : Writes S c)
    (hs : .users ∉ S) : Follows hash before c fun s _ => Unread before s := by
  induction c generalizing before with
  | ret => exact Unread.refl before
  | fail => trivial
  | call l u n ih =>
    have hl : l.part ≠ some .users := fun hp => hs (h.1.part _ hp)
    have hkeep : ∀ w, (u w).db.accounts = w.db.accounts := fun w => (h.1.keeps w).2 .users hs
    refine ⟨⟨h.1.nextUuid, ?_⟩, fun w => (ih w (h.2 w)).mono (fun s a hsa => ?_) fun _ h => h⟩
    · cases l with
      | saveUser => exact absurd rfl hl
      | _ => exact hkeep
    · refine Unread.trans (.cons ?_) hsa
      unfold loadsUser
      cases l with
      | loadUser => exact absurd rfl hl
      | _ => rfl

/-- Nothing is read by a save, whether it succeeds or not. -/
theorem User.save_traced (h : Owned hash before u) :
    Prog.Traced (Call.Faithful hash) (fun s u' => Unread before s ∧ u'.uuid = u.uuid ∧
      u'.credentials = u.credentials) (Unread before) before (u.save env) := by
  unfold User.save ensure
  cases env.isValidEmail u.email with
  | false => exact Unread.refl before
  | true =>
    refine ⟨⟨fun w => World.exec_nextUuid, rfl, h.copy rfl rfl⟩, fun w => ?_⟩
    dsimp only
    split
    · exact .cons rfl
    · exact ⟨.cons rfl, rfl, rfl⟩

theorem User.save_follows (h : Owned hash before u) :
    Follows hash before (u.save env) fun s u' => Owned hash s u' := by
  refine (User.save_traced h).mono (fun s u' hs => ?_) fun _ _ => trivial
  exact (h.later hs.1).copy hs.2.1 hs.2.2

/-- A save whose outcome is looked at, or ignored. -/
theorem User.saveAttempt_follows (h : Owned hash before u) :
    Follows hash before (u.save env).attempt fun s r =>
      Unread before s ∧ ∀ u', r = .ok u' → Owned hash s u' := by
  refine (Prog.Traced.attempt (User.save_traced h)).mono (fun s r hr => ?_) fun _ h => h
  cases r with
  | error => exact ⟨hr, fun _ he => nomatch he⟩
  | ok =>
    refine ⟨hr.1, fun u'' he => ?_⟩
    obtain rfl := Except.ok.inj he
    exact (h.later hr.1).copy hr.2.1 hr.2.2

/-- Faithful calls as rules for copies. -/
def faithful (hash : String → Secret → Nat → String) : AccountLogic where
  Knowledge := List DbAccess
  Holds before c Q := Follows hash before c Q
  Mine := Owned hash
  ret h := h
  fail := trivial
  mono h hQ := h.mono hQ fun _ h => h
  bind h hf := h.bind hf
  quiet h hs := (Follows.quiet h (by simpa using hs)).mono
    (fun _ _ hk _ hu => hu.later hk) fun _ h => h
  save h := User.save_follows h
  attempt h := (User.saveAttempt_follows h).mono (fun _ _ hk _ hu => hu.later hk.1) fun _ h => h
  copy h hid hs he := by
    obtain ⟨hu, -, hh, hsalt, hi⟩ : _ ∧ _ ∧ _ ∧ _ ∧ _ := by simpa [User.identity] using hid
    exact h.copy hu (by rw [User.credentials, User.credentials, hh, hsalt, hi, hs, he])
  loads h := by
    refine ⟨⟨fun _ => rfl, fun _ => rfl⟩, fun w => h _ w.db fun u hu => .inl ?_⟩
    refine ⟨u.credentials, ?_, .refl _⟩
    rw [lastRead, looked]
    exact congrArg some (Db.credentialsOf_of_mem hu)

theorem faithful_admitsNew : (faithful hash).AdmitsNew := by
  intro before env email name
  refine ⟨⟨fun _ => rfl, fun _ => rfl⟩, fun w => ?_⟩
  show (faithful hash).Holds _ (do
    let salt ← getUuid
    let stamp ← getUuid
    pure (User.new env w.nextUuid salt stamp email name)) _
  refine .still .getUuid fun s1 salt h1 => .still .getUuid fun s2 stamp h2 => (faithful hash).ret ?_
  exact h2 _ (h1 _ (.inr ⟨_, mem_cons_self, rfl, rfl⟩))

/-! ## Hashing again -/

/-- The copy a login goes on with has the new hash, whether it could be stored or not. -/
theorem kdfUpgrade_follows (hh : env.hashPassword = hash) (h : Owned hash before u)
    (hp : u.checkValidPassword env password = true) :
    Follows hash before (kdfUpgrade env u password) fun s u' => Owned hash s u' := by
  refine CopyLogic.Holds.ite (L := (faithful hash).toCopyLogic) ?_ ((faithful hash).ret h)
  subst hh
  have hvalid : u.passwordHash = env.hashPassword password u.salt u.passwordIterations :=
    (of_decide_eq_true hp).symm
  have hcopy : Owned env.hashPassword before (User.withPassword env
      { u with passwordIterations := env.passwordIterations } password none none) := by
    rcases h with ⟨c, hc, hup⟩ | hnew
    · exact .inl ⟨c, hc, hup.rehash password env.passwordIterations hvalid⟩
    · exact .inr hnew
  refine Prog.Traced.bind (Q := fun s u' => Owned env.hashPassword s u') hcopy fun s0 u' hu' => ?_
  refine Prog.Traced.bind
    (Q := fun s r => Unread s0 s ∧ ∀ u', r = .ok u' → Owned env.hashPassword s u')
    ((User.saveAttempt_follows hu').bind fun s' r hr => ?_) fun s' r hr => ?_
  · match r with
    | .error (.panic m) => exact trivial
    | .error (.err m) => exact hr
    | .error (.invalid m) => exact hr
    | .ok u' => exact hr
  · cases r with
    | ok saved => exact hr.2 saved rfl
    | error => exact hu'.later hr.1

/-! ## Requests -/

/-- **What these requests store in an account row they have read there.** -/
theorem Event.prog_follows {e : Event} (hh : e.env.hashPassword = hash)
    (he : e.request.keepsCredentials = true) : Follows hash before e.prog ⊤ := by
  by_cases hm : e.request.isMild = true
  · exact (faithful hash).prog faithful_admitsNew hm
  · have hm : e.request.isMild = false := by simpa using hm
    obtain ⟨env, request⟩ := e
    cases request with
    | account caller request =>
      cases request with
      | verifyPassword =>
        refine (faithful hash).bind (faithful hash).headers fun s headers h => ?_
        refine (faithful hash).bind (Q := ⊤) (.ensure fun hp => ?_) fun _ _ _ =>
          (faithful hash).ret trivial
        exact (faithful hash).bind (kdfUpgrade_follows hh h hp) fun _ _ _ =>
          (faithful hash).ret trivial
      | postSetPassword _ | postPassword _ | postKdf _ | postRotatekey _ | postSstamp _ | postEmail _
      | deleteAccount => cases he
      | _ => cases hm
    | login =>
      refine (faithful hash).bind ((faithful hash).login faithful_admitsNew fun _ _ => ?_) fun _ _ _ =>
        (faithful hash).ret trivial
      exact (faithful hash).passwordLogin fun _ _ _ h hp => kdfUpgrade_follows hh h hp
    | organization caller org request =>
      cases request with
      | sendInvite _ | recoverAccount _ _ => cases he
      | _ => cases hm
    | emergency caller request =>
      cases request with
      | passwordEmergencyAccess => cases he
      | _ => cases hm
    | admin request =>
      cases request with
      | deleteUser _ | deauthUser _ | disableUser _ | enableUser _ => cases he
      | _ => cases hm
    | anyone request =>
      cases request with
      | register _ _ | postDeleteRecoverToken _ _ => cases he
      | _ => cases hm
    | directory => cases he
    | _ => cases hm

end VaultServer
