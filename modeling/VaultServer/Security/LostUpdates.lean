import VaultServer.Security.Copies
import VaultServer.Security.Refresh

/-!
# Lost updates on account rows

A new password or the lock of an account is one row that is read, changed and written back. Any
request that has read the account before and saves its copy after writes the old hash, the old stamp
and the old lock over it. Where no other request does that, the change stays, whatever order the
calls are made in.
-/

namespace VaultServer

open Lib List Table

variable {change : SecurityChange} {hash : String → Secret → Nat → String}

/-! ## Changes of an account -/

/-- The requests that are to shut others out of an account. -/
inductive SecurityChange where
  | password (caller : Caller) (data : ChangePassData)
  | disable (user : UserId)

namespace SecurityChange

def request : SecurityChange → Request
  | password caller data => .account caller (.postPassword data)
  | disable user => .admin (.disableUser user)

def user : SecurityChange → UserId
  | password caller _ => caller.token.claims.sub
  | disable user => user

/-- What the request is to bring about: the hash is the one of the new password, up to upgrades, or
the account is locked. -/
def Holds (env : Env) (c : Credentials) : SecurityChange → Prop
  | password _ data => ∃ new, new.passwordHash =
      env.hashPassword data.newMasterPasswordHash new.salt new.passwordIterations ∧
      Upgraded env.hashPassword new c
  | disable _ => c.enabled = false

theorem Holds.upgraded {env c c'} (h : change.Holds env c)
    (hup : Upgraded env.hashPassword c c') : change.Holds env c' := by
  cases change with
  | password =>
    obtain ⟨new, hnew, hc⟩ := h
    exact ⟨new, hnew, hc.trans hup⟩
  | disable => exact hup.enabled.trans h

end SecurityChange

/-- The change is the first request of the pool, the others are the rest. -/
def race (w : World) (change : Event) (others : List Event) (schedule : List Nat) :
    Pool World Call Failure (Option TokenResponse) :=
  (Pool.start ((change :: others).map Event.prog) w).run schedule

/-- The turn stores a row of the account. -/
def stores (u : UserId) (t : DbTurn) : Bool :=
  match t.label with
  | .saveUser row => row.uuid = u && !t.pre.refuses row.saveStmt
  | _ => false

/-- The turn by which the change comes into force. -/
def inForce (u : UserId) (t : DbTurn) : Bool := t.thread = 0 && stores u t

/-- Another request stores a copy it has read before the change came into force. -/
def lateSave (u : UserId) (before : List DbTurn) (t : DbTurn) : Bool :=
  t.thread ≠ 0 && stores u t && outdated loadsUser (inForce u) t.thread before

/-! ## What the change does -/

/-- The accounts were left alone since. -/
def Untouched (before after : List DbAccess) : Prop :=
  ∃ new, after = new ++ before ∧ ∀ a ∈ new, a.post.db.accounts = a.pre.db.accounts

theorem Untouched.refl (before : List DbAccess) : Untouched before before :=
  ⟨[], rfl, fun _ h => nomatch h⟩

theorem Untouched.trans (h : Untouched a b) (h' : Untouched b c) : Untouched a c := by
  obtain ⟨new, rfl, hn⟩ := h
  obtain ⟨new', rfl, hn'⟩ := h'
  refine ⟨new' ++ new, (append_assoc _ _ _).symm, fun x hx => ?_⟩
  rcases mem_append.1 hx with hx | hx
  · exact hn' x hx
  · exact hn x hx

theorem Untouched.mem {before after} (h : Untouched before after) (ha : a ∈ before) :
    a ∈ after := by
  obtain ⟨new, rfl, -⟩ := h
  exact mem_append_right _ ha

section
variable {α : Type} {env : Env} {before : List DbAccess} {S : List Part}

theorem untouched_leaves {c : Cmd α} (h : Writes S c) (hs : S.contains .users = false) :
    Leaves before c fun s _ => Untouched before s := by
  have hs : .users ∉ S := by simpa using hs
  induction c generalizing before with
  | ret => exact .refl before
  | fail => trivial
  | call l u n ih =>
    refine ⟨trivial, fun w => (ih w (h.2 w)).mono (fun s a hsa => .trans ?_ hsa) fun _ h => h⟩
    refine ⟨[_], rfl, fun a ha => ?_⟩
    obtain rfl := mem_singleton.1 ha
    exact (h.1.keeps w).2 .users hs

/-- The guard only lets a request through that it has not written anything for. -/
theorem Headers.fromRequest_untouched :
    Leaves before (Headers.fromRequest env caller) fun s headers =>
      Untouched before s ∧ headers.user.uuid = caller.token.claims.sub := by
  unfold Headers.fromRequest
  split
  · exact trivial
  · next claims hdecode =>
    obtain rfl := decodeLogin_eq_some hdecode
    refine (untouched_leaves (S := []) .query rfl).bind fun s0 found h₀ => ?_
    cases found with
    | none => exact trivial
    | some =>
      refine .read trivial fun w => ?_
      have h1 : Untouched before (⟨.loadUser, w, w⟩ :: s0) := h₀.trans ⟨[_], rfl, fun a ha => by
        obtain rfl := mem_singleton.1 ha; rfl⟩
      split
      · exact trivial
      · next user huser =>
        have hid : user.uuid = caller.token.claims.sub := of_decide_eq_true (mem_of_find? huser).2
        refine Prog.Traced.bind (Q := fun s _ => Untouched before s) ?_ fun s _ hs => ⟨hs, hid⟩
        unfold Prog.when
        split
        · unfold checkStampException
          split
          · exact trivial
          · exact trivial
          · split
            · -- an expired exception is removed, and the request ends
              exact Leaves.last fun _ _ => trivial
            · exact (untouched_leaves (S := []) (.bind .ensure fun _ => .ensure) rfl).mono
                (fun _ _ h => h1.trans h) fun _ h => h
        · exact h1

/-- The stamp was drawn by one of the accesses. -/
def StampDrawn (stamp : Secret) (accesses : List DbAccess) : Prop :=
  ∃ a ∈ accesses, a.label = .fresh ∧ a.pre.nextUuid = stamp

theorem User.resetSecurityStamp_leaves {u : User} :
    Leaves before (u.resetSecurityStamp env) fun s u' =>
      Untouched before s ∧ ∃ stamp, u' = { u with securityStamp := stamp } ∧ StampDrawn stamp s := by
  refine ⟨trivial, fun w => ?_⟩
  refine (untouched_leaves Device.rotateRefreshTokensByUser_writes rfl).bind fun s _ hs => ?_
  refine ⟨.trans ⟨[_], rfl, fun a ha => ?_⟩ hs, w.nextUuid, rfl, _, hs.mem mem_cons_self, rfl, rfl⟩
  obtain rfl := mem_singleton.1 ha
  rfl

/-- Of the accesses one has stored the row, and the others have left the accounts alone. -/
def StoredOnce (row : User) (accesses : List DbAccess) : Prop :=
  ∃ later a earlier, accesses = later ++ a :: earlier ∧ a.label = .saveUser row ∧
    a.post = a.pre.exec row.saveStmt ∧ a.pre.refuses row.saveStmt = false ∧
    ∀ x ∈ later ++ earlier, x.post.db.accounts = x.pre.db.accounts

theorem User.save_leaves {u : User} (h : Untouched [] before) :
    Leaves before (u.save env) fun s u' => u' = { u with updatedAt := env.now } ∧ StoredOnce u' s ∧
      ∀ a ∈ before, a ∈ s := by
  unfold User.save ensure
  cases env.isValidEmail u.email with
  | false => exact trivial
  | true =>
    refine ⟨trivial, fun w => ?_⟩
    dsimp only
    split
    · exact trivial
    · next hr =>
      obtain ⟨new, rfl, hn⟩ := h
      rw [append_nil]
      refine ⟨rfl, ⟨[], _, new, rfl, rfl, rfl, by simpa using hr, hn⟩, fun a ha => ?_⟩
      exact mem_cons_of_mem _ ha

theorem StoredOnce.untouched (h : StoredOnce row before) (hs : Untouched before s) :
    StoredOnce row s := by
  obtain ⟨later, a, earlier, rfl, hl, hp, hr, hx⟩ := h
  obtain ⟨new, rfl, hn⟩ := hs
  refine ⟨new ++ later, a, earlier, (append_assoc _ _ _).symm, hl, hp, hr, fun x hm => ?_⟩
  rw [append_assoc] at hm
  rcases mem_append.1 hm with hm | hm
  · exact hn x hm
  · exact hx x hm

/-- The change, when it has returned: it has stored one row, which is as it is to be and has a new
stamp. -/
def Effected (env : Env) (change : SecurityChange) (accesses : List DbAccess) : Prop :=
  ∃ row : User, row.uuid = change.user ∧ StoredOnce row accesses ∧
    change.Holds env row.credentials ∧ StampDrawn row.securityStamp accesses

theorem StampDrawn.mono (hd : StampDrawn stamp before) (h : ∀ a ∈ before, a ∈ s) :
    StampDrawn stamp s := by
  obtain ⟨a, ha, hl⟩ := hd
  exact ⟨a, h a ha, hl⟩

/-- The row is given the new stamp and stored. -/
theorem effected_leaves (change : SecurityChange) {u : User}
    (hu : u.uuid = change.user) (hb : Untouched [] before) (hs : u.securityStamp = stamp)
    (hd : StampDrawn stamp before) (hc : change.Holds env u.credentials) :
    Leaves before (u.save env) fun s _ => Effected env change s := by
  refine (User.save_leaves hb).mono (fun s u' hs' => ?_) fun _ h => h
  obtain ⟨rfl, hstored, hmem⟩ := hs'
  refine ⟨{ u with updatedAt := env.now }, hu, hstored, hc, ?_⟩
  subst hs
  exact hd.mono hmem

theorem Effected.untouched (h : Effected env change before) (hs : Untouched before s) :
    Effected env change s := by
  obtain ⟨row, hid, hstored, hc, hd⟩ := h
  exact ⟨row, hid, hstored.untouched hs, hc, hd.mono fun _ ha => hs.mem ha⟩

theorem postPassword_leaves {caller : Caller} {data : ChangePassData} {headers : Headers}
    (hu : headers.user.uuid = caller.token.claims.sub) (hb : Untouched [] before) :
    Leaves before (postPassword env data headers) fun s _ =>
      Effected env (.password caller data) s := by
  refine (untouched_leaves (S := []) .ensure rfl).bind fun s0 _ h₀ => ?_
  refine (untouched_leaves (S := []) .ensure rfl).bind fun s1 _ h1 => ?_
  refine User.resetSecurityStamp_leaves.bind fun s2 u hu2 => ?_
  obtain ⟨h2, stamp, rfl, hd⟩ := hu2
  have hall : Untouched [] s2 := ((hb.trans h₀).trans h1).trans h2
  refine Prog.Traced.bind (Q := fun s _ => Effected env (.password caller data) s) ?_ fun _ _ h => h
  exact effected_leaves (.password caller data) hu hall rfl hd ⟨_, rfl, .refl _⟩

theorem Admin.getUserOr404_leaves :
    Leaves before (Admin.getUserOr404 user) fun s u => Untouched before s ∧ u.uuid = user := by
  refine .read trivial fun w => ?_
  dsimp only
  cases huser : User.findByUuid w.db user with
  | none => exact trivial
  | some =>
    refine ⟨⟨[_], rfl, fun a ha => ?_⟩, of_decide_eq_true (mem_of_find? huser).2⟩
    obtain rfl := mem_singleton.1 ha
    rfl

theorem disableUser_leaves {user : UserId} :
    Leaves [] (Admin.disableUser env user) fun s _ => Effected env (.disable user) s := by
  refine Admin.getUserOr404_leaves.bind fun s0 u hu0 => ?_
  obtain ⟨h₀, hid⟩ := hu0
  refine User.resetSecurityStamp_leaves.bind fun s1 u1 hu1 => ?_
  obtain ⟨h1, stamp, rfl, hd⟩ := hu1
  have hsave : Leaves s1 (User.save env { u with securityStamp := stamp, enabled := false })
      fun s _ => Effected env (.disable user) s :=
    effected_leaves (.disable user) hid (h₀.trans h1) rfl hd rfl
  refine (traced_catchErr hsave).bind fun s2 r hr => ?_
  refine (untouched_leaves Device.deleteAllByUser_writes rfl).bind fun s3 _ h3 => ?_
  cases r with
  | error => exact trivial
  | ok u' => exact Effected.untouched (hr u' rfl) h3

theorem SecurityChange.leaves :
    Leaves [] (change.request.serve env) fun s _ => Effected env change s := by
  cases change with
  | password =>
    refine Headers.fromRequest_untouched.bind fun s headers hs => ?_
    exact (postPassword_leaves hs.2 hs.1).bind fun _ _ h => h
  | disable => exact disableUser_leaves.bind fun _ _ h => h

end

/-! ## What the others do -/

/-- An account that is there stays, with the same credentials up to upgrades. -/
def Survives (hash : String → Secret → Nat → String) (a b : Option Credentials) : Prop :=
  ∀ c, a = some c → ∃ c', b = some c' ∧ Upgraded hash c c'

theorem Survives.refl (a : Option Credentials) : Survives hash a a := fun c h => ⟨c, h, .refl c⟩

theorem Survives.trans (a b c : Option Credentials) (h : Survives hash a b)
    (h' : Survives hash b c) : Survives hash a c := by
  intro x hx
  obtain ⟨y, hy, hxy⟩ := h x hx
  obtain ⟨z, hz, hyz⟩ := h' y hy
  exact ⟨z, hz, hxy.trans hyz⟩

theorem Call.Faithful.accounts {before l update}
    (h : Call.Faithful hash before l update) (hl : ∀ row, l ≠ .saveUser row) (w : World) :
    (update w).db.accounts = w.db.accounts := by
  cases l with
  | saveUser row => exact absurd rfl (hl row)
  | _ => exact h.2 w

/-- A saved row is the account from then on, and the others keep theirs. -/
theorem Db.credentialsOf_save {db db' : Db} {row : User} (h : row.saveStmt db = some db')
    (u : UserId) :
    db'.credentialsOf u = if row.uuid = u then some row.credentials else db.credentialsOf u := by
  obtain ⟨t, ht, rfl⟩ := Option.map_eq_some_iff.1 h
  obtain ⟨hc, rfl⟩ := upsert?_eq_some ht
  split
  · next hu =>
    subst hu
    exact Db.credentialsOf_of_mem (mem_putRows.2 (.inl rfl))
  · next hu =>
    rw [Db.credentialsOf, Db.credentialsOf, User.findByUuid, User.findByUuid]
    congr 1
    exact find?_put_of_other hc fun r hr => decide_eq_false (hr ▸ hu)

/-- A turn of another request keeps the credentials, or stores a copy that was read after the
change came into force. -/
theorem descends_of_faithful {u : UserId} {before} {t : DbTurn}
    (hne : t.thread ≠ 0) (hpost : t.post = update t.pre)
    (hcall : Call.Faithful hash (own t.thread before) t.label update)
    (hold : ∀ x ∈ before, u.val < x.pre.nextUuid) (hlate : lateSave u before t = false) :
    Descends (fun w : World => w.db.credentialsOf u) loadsUser (inForce u) (Survives hash) 0
      before t := by
  by_cases hsave : ∃ row, t.label = .saveUser row
  case neg =>
    have hkeep := hcall.accounts (fun row hr => hsave ⟨row, hr⟩) t.pre
    rw [← hpost] at hkeep
    exact .inl (Db.credentialsOf_accounts hkeep u)
  case pos =>
    obtain ⟨row, hrow⟩ := hsave
    rw [hrow] at hcall
    obtain ⟨-, rfl, hread⟩ := hcall
    obtain ⟨-, hx⟩ | ⟨db', hr, hdb, hx⟩ := t.pre.exec_cases row.saveStmt
    · rw [hx] at hpost
      exact .inl (by rw [hpost])
    · rw [hx] at hpost
      have hview := Db.credentialsOf_save hdb u
      have hdb' : db' = t.post.db := by rw [hpost]
      rw [hdb'] at hview
      by_cases hu : row.uuid = u
      · subst hu
        rw [if_pos rfl] at hview
        -- the save stores this account, so that it is not the save of an outdated copy
        have hcur : outdated loadsUser (inForce row.uuid) t.thread before = false := by
          simpa [lateSave, stores, hne, hrow, hr] using hlate
        rcases hread with ⟨c, hc, hup⟩ | ⟨a, ha, hfresh, hid⟩
        · refine .inr ⟨hne, hcur, some c, hc, fun c' hc' => ?_⟩
          obtain rfl := Option.some.inj hc'
          exact ⟨_, hview, hup⟩
        · obtain ⟨x, hxm, -, rfl⟩ := mem_own.1 ha
          exact absurd hid (Nat.ne_of_gt (hold x hxm))
      · rw [if_neg hu] at hview
        exact .inl hview

/-! ## The race -/

section
variable {w : World} {e : Event} {others : List Event} {schedule : List Nat}

/-- What a program of the race promises: it counts its draws, and the others are faithful. -/
def RacePromise (hash : String → Secret → Nat → String) (i : Nat) (before : List DbAccess)
    (l : Call) (update : World → World) : Prop :=
  (∀ w, (update w).nextUuid = w.nextUuid + l.draws) ∧ (i ≠ 0 → Call.Faithful hash before l update)

theorem race_keeps (w : World) (e : Event) (schedule : List Nat)
    (hhash : ∀ e ∈ others, e.env.hashPassword = hash)
    (hothers : ∀ e ∈ others, e.request.keepsCredentials = true) :
    (race w e others schedule).Keeps (RacePromise hash) (fun _ _ _ => True) w := by
  refine Pool.run_traced schedule fun i c hc => ?_
  cases i with
  | zero =>
    obtain rfl := Option.some.inj hc
    have hcalls : Writes e.request.parts e.prog := Request.serve_writes
    exact .of_each hcalls fun _ _ _ h => ⟨h.nextUuid, fun h0 => absurd rfl h0⟩
  | succ =>
    rw [map_cons, getElem?_cons_succ, getElem?_map] at hc
    obtain ⟨e', he', rfl⟩ := Option.map_eq_some_iff.1 hc
    have hmem := mem_of_getElem? he'
    have hmodest : Follows hash [] e'.prog _ :=
      Event.prog_follows (hhash e' hmem) (hothers e' hmem)
    exact hmodest.promise fun _ _ _ h => ⟨h.1, fun _ => h⟩

theorem race_nextUuid (hl : Chained w w' past) (hm : Along (Pool.Made (RacePromise hash)) past) :
    w.nextUuid ≤ w'.nextUuid ∧ ∀ t ∈ past, w.nextUuid ≤ t.pre.nextUuid := by
  refine Pool.always (I := fun x => w.nextUuid ≤ x.nextUuid) le_rfl hl hm fun _ _ _ u hu x hx => ?_
  rw [hu.1]
  exact Nat.le_trans hx (Nat.le_add_right _ _)

theorem race_effected {env answer}
    (hdone : (race w ⟨env, change.request⟩ others schedule).threads[0]? = some (.ret answer)) :
    Effected env change (own 0 (race w ⟨env, change.request⟩ others schedule).past) := by
  have hkeeps : (race w ⟨env, change.request⟩ others schedule).Keeps (fun _ _ _ _ => True)
      (fun j seen _ => j = 0 → Effected env change seen) w := by
    refine Pool.run_traced schedule fun j c hc => ?_
    cases j with
    | zero =>
      obtain rfl := Option.some.inj hc
      exact SecurityChange.leaves.mono (fun _ _ h _ => h) fun _ h => h
    | succ => exact .of_forall (fun _ _ _ => trivial) (fun _ _ h => nomatch h) fun _ => trivial
  exact hkeeps.threads 0 _ hdone rfl

theorem stored_credentials {t : DbTurn} {row : User} (hp : t.post = t.pre.exec row.saveStmt)
    (hr : t.pre.refuses row.saveStmt = false) :
    t.post.db.credentialsOf row.uuid = some row.credentials := by
  obtain ⟨hx, -⟩ | ⟨db', -, hdb, hx⟩ := t.pre.exec_cases row.saveStmt
  · rw [hr] at hx
    cases hx
  · rw [hp, hx]
    exact (Db.credentialsOf_save hdb row.uuid).trans (if_pos rfl)

/-- What the change has stored is the account from then on, up to upgrades. -/
theorem race_survives {env answer} (hbound : change.user.val < w.nextUuid)
    (hhash : ∀ e ∈ others, e.env.hashPassword = env.hashPassword)
    (hothers : ∀ e ∈ others, e.request.keepsCredentials = true)
    (hlate : Along (fun before t => lateSave change.user before t = false)
      (race w ⟨env, change.request⟩ others schedule).past)
    (hdone : (race w ⟨env, change.request⟩ others schedule).threads[0]? = some (.ret answer)) :
    ∃ row : User, change.Holds env row.credentials ∧
      StampDrawn row.securityStamp (own 0 (race w ⟨env, change.request⟩ others schedule).past) ∧
      Survives env.hashPassword (some row.credentials)
        ((race w ⟨env, change.request⟩ others schedule).state.db.credentialsOf change.user) := by
  obtain ⟨hchain, hmade, -⟩ := race_keeps w ⟨env, change.request⟩ schedule hhash hothers
  have hdraws := (race_nextUuid hchain hmade).2
  obtain ⟨row, hid, ⟨later, a, earlier, hown, hlabel, hpost, hrefuses, hrest⟩, hholds, hdrawn⟩ :=
    race_effected hdone
  refine ⟨row, hholds, hdrawn, ?_⟩
  obtain ⟨l, m, e, hpast, hm, rfl, rfl, rfl⟩ := own_eq_append_cons hown
  rw [hpast] at hchain hmade hlate hdraws
  have hstored : m.post.db.credentialsOf change.user = some row.credentials :=
    hid ▸ stored_credentials hpost hrefuses
  rw [← hstored]
  have hmark : inForce change.user m = true := by
    simp [inForce, stores, hm, hlabel, hid, hrefuses]
  have hturns : ∀ l1 t l2, l = l1 ++ t :: l2 →
      Descends (fun w : World => w.db.credentialsOf change.user) loadsUser (inForce change.user)
        (Survives env.hashPassword) m.thread (l2 ++ m :: e) t := by
    intro l1 t l2 hl
    subst hl
    rw [append_assoc] at hmade hlate
    rw [hm]
    by_cases ht : t.thread = 0
    · -- the change itself leaves the accounts alone after its save
      have hmem : t.toAccess ∈ own 0 (l1 ++ t :: l2) := mem_own.2 ⟨t, by simp, ht, rfl⟩
      exact .inl (Db.credentialsOf_accounts (hrest _ (mem_append_left _ hmem)) _)
    · obtain ⟨update, hupdate, -, hfaithful⟩ := hmade.suffix.1
      refine descends_of_faithful ht hupdate (hfaithful ht) (fun x hx => ?_) hlate.suffix.1
      have hx' : x ∈ l1 ++ t :: l2 ++ m :: e := by
        rw [append_assoc]
        exact mem_append_right _ (mem_cons_of_mem _ hx)
      exact Nat.lt_of_lt_of_le hbound (hdraws x hx')
  exact descends_of_marked Survives.refl Survives.trans hchain hmark hturns

/-- **A new password or a lock is not lost where no outdated copy is stored.**  From any state that
a run reaches, the change of an account is interleaved call by call with requests that do not change
credentials themselves and hash with the same function, and none of them stores a copy of the
account that it has read before the change came into force. If the change has returned, then from
then on, whatever else is run, the account has the stamp that the change has drawn, and the new
password or the lock. -/
theorem security_change_survives (faults : List Bool) (run : List Event) (env : Env)
    (change : SecurityChange) (others : List Event) (schedule : List Nat)
    (answer : Option TokenResponse)
    (hexists : ((World.initial faults).after run).db.hasUser change.user = true)
    (hhash : ∀ e ∈ others, e.env.hashPassword = env.hashPassword)
    (hothers : ∀ e ∈ others, e.request.keepsCredentials = true)
    (hlate : Along (fun before t => lateSave change.user before t = false)
      (race ((World.initial faults).after run) ⟨env, change.request⟩ others schedule).past)
    (hdone : (race ((World.initial faults).after run) ⟨env, change.request⟩ others
      schedule).threads[0]? = some (.ret answer)) :
    ∃ c, (race ((World.initial faults).after run) ⟨env, change.request⟩ others
        schedule).state.db.credentialsOf change.user = some c ∧
      (∃ t ∈ (race ((World.initial faults).after run) ⟨env, change.request⟩ others schedule).past,
        t.thread = 0 ∧ t.label = .fresh ∧ c.securityStamp = t.pre.nextUuid) ∧
      change.Holds env c := by
  have hbound : change.user.val < ((World.initial faults).after run).nextUuid := by
    obtain ⟨r, hr, hu⟩ := any_eq_true.1 hexists
    exact of_decide_eq_true hu ▸ (World.sound_initial.run run).fresh.users r hr
  obtain ⟨row, hholds, ⟨a, ha, hfresh, hstamp⟩, hsurvives⟩ :=
    race_survives hbound hhash hothers hlate hdone
  obtain ⟨c, hc, hup⟩ := hsurvives _ rfl
  obtain ⟨t, ht, hthread, rfl⟩ := mem_own.1 ha
  exact ⟨c, hc, ⟨t, ht, hthread, hfresh, hup.securityStamp.trans hstamp.symm⟩, hholds.upgraded hup⟩

end

/-- **No interleaving writes what none of its requests may write**, whichever calls fail: the part
is equal to what it was, or, for the accounts, equal up to their revisions; for their identifiers,
none is lost; for the sessions, none is added. -/
theorem interleaved_same (w : World) (events : List Event) (schedule : List Nat) (t : Part) :
    (∃ e ∈ events, t ∈ e.request.parts) ∨
      w.Same ((Pool.start (events.map Event.prog) w).run schedule).state t := by
  by_cases h : ∃ e ∈ events, t ∈ e.request.parts
  · exact .inl h
  have hkeeps : ((Pool.start (events.map Event.prog) w).run schedule).Keeps
      (fun _ _ _ u => ∀ x : World, x.Same (u x) t) ⊤ w := by
    refine Pool.run_traced schedule fun i c hc => ?_
    rw [getElem?_map] at hc
    obtain ⟨e, he, rfl⟩ := Option.map_eq_some_iff.1 hc
    refine .of_each Request.serve_writes fun _ _ _ hu x => (hu.keeps x).2 t fun ht => ?_
    exact h ⟨e, mem_of_getElem? he, ht⟩
  exact .inr (Pool.always (I := fun x => w.Same x t) (.refl w t) hkeeps.linked hkeeps.made
    fun _ _ _ _ hu x hx => hx.trans (hu x)).1

/-! ## A lost password and a lost lock -/

namespace Races

/-- The owner of the account changes the name on it. -/
def rename : Event := ⟨{}, .account ⟨Stamps.token 3, some "post_profile"⟩ (.postProfile "b")⟩

def newPassword : SecurityChange :=
  .password ⟨Stamps.token 3, some "post_password"⟩ ⟨"hash", "hash2", none, "key2"⟩

def lock : SecurityChange := .disable ⟨0⟩

/-- The new name is read and stored while the change has only read. -/
def renameFirst : List Nat := [0, 1, 1, 1] ++ List.replicate 6 0

/-- The account is read for the new name, the change is carried out, and the new name is stored. -/
def renameAround : List Nat := [1, 1] ++ List.replicate 7 0 ++ [1]

end Races

open Races Client in
/-- The change comes after the new name is stored. -/
theorem security_change_survives_renameFirst :
    ∃ c, (race ((World.initial []).after signedIn) ⟨{}, newPassword.request⟩ [rename]
        renameFirst).state.db.credentialsOf newPassword.user = some c ∧
      (∃ t ∈ (race ((World.initial []).after signedIn) ⟨{}, newPassword.request⟩ [rename]
          renameFirst).past,
        t.thread = 0 ∧ t.label = .fresh ∧ c.securityStamp = t.pre.nextUuid) ∧
      newPassword.Holds {} c :=
  security_change_survives [] signedIn {} newPassword [rename] renameFirst none (by decide)
    (by simp [rename]) (by decide) (by decide +kernel) rfl

open Races Client in
/-- **The save of an older copy undoes a new password and a lock.**  The name is stored after the
change, and all requests have returned: the account has its old hash and stamp, or is not locked. -/
theorem security_change_undone :
    ([newPassword, lock].all fun change =>
      (race ((World.initial []).after signedIn) ⟨{}, change.request⟩ [rename]
        renameAround).hasReturned 0 = true ∧
      (race ((World.initial []).after signedIn) ⟨{}, change.request⟩ [rename]
        renameAround).hasReturned 1 = true ∧
      (race ((World.initial []).after signedIn) ⟨{}, change.request⟩ [rename]
        renameAround).state.db.credentialsOf ⟨0⟩ = some ⟨"hash", 1, 600000, 3, true⟩) =
      true := by
  decide +kernel

end VaultServer
