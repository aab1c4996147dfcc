import VaultServer.Invariants.AccountLogic
import VaultServer.Invariants.Runs

/-!
# Identities of the provider and their accounts

The table `sso_users` links an identity of the provider to an account. A login by the provider's
word looks the identity up, then its address; only an account without a link, whose address the
provider vouches for, is linked anew. Once there, a link goes when an administrator removes it or
the account is deleted.
-/

namespace VaultServer

open Lib PartInvariant List Table

variable {db db' : Db} {u : User} {d : Device} {link : Option SsoUser}
  {info : OIDCAuthenticatedUser} {data : ConnectData} {ip identifier : String}
  {answer : ProviderAnswer}

variable {env : Env} {w : World}

/-! ## Links refer to accounts -/

theorem hasUser_iff {u} : db.hasUser u = true ↔ u ∈ db.userIds := by
  simp [Db.hasUser, Db.userIds]

def linked : PartInvariant where
  parts := [.ssoUsers, .userIds]
  holds w := ∀ s ∈ w.db.ssoUsers.rows, s.userUuid ∈ w.db.userIds
  of_same {w w'} h _ hw s hs := by
    have hlinks : w'.db.ssoUsers = w.db.ssoUsers := h .ssoUsers (by decide)
    have hids : w.db.userIds ⊆ w'.db.userIds := h .userIds (by decide)
    exact hids (hw s (hlinks ▸ hs))

theorem SsoUser.save_linked {s : SsoUser} : linked.Keeps s.save ⊤ := by
  refine .exec fun w db' hw hs x hx => ?_
  obtain ⟨hguard, rfl⟩ := Db.guarded_eq_some hs
  rcases mem_replace.1 hx with rfl | ⟨⟨hx, -⟩, -⟩
  · exact hasUser_iff.1 hguard
  · exact hw x hx

theorem redeem_linked {s} : linked.Keeps (redeem env d u link s info) ⊤ := by
  refine .past (SsoAuth.delete_writes rfl rfl) rfl ?_
  exact (Keeps.when SsoUser.save_linked).bind fun _ _ => .idle createAuthTokens_writes

theorem ssoLogin_linked : linked.Keeps (ssoLogin env data ip answer) ⊤ := by
  refine .skip AuthMethod.checkScope_writes <| .skip .external ?_
  split
  · exact .err
  · exact .err
  · refine .past exchangeCode_writes rfl <| .pass ssoAccount_writes rfl fun found => ?_
    split
    · refine .past ssoSignup_writes rfl <| .past getDevice_writes rfl ?_
      exact redeem_linked.bind fun _ _ => .of_writes authenticatedResponse_writes rfl
    · refine .check <| .past getDevice_writes rfl ?_
      refine .past twofactorAuth_writes rfl <| .past ssoFillStub_writes rfl ?_
      refine .skip (.when .external) <| redeem_linked.bind fun _ _ => ?_
      exact .of_writes authenticatedResponse_writes rfl

theorem User.deleteStmt_linked {u} (hw : linked.holds w) (hs : User.deleteStmt u w.db = some db') :
    ∀ s ∈ db'.ssoUsers.rows, s.userUuid ∈ db'.userIds := by
  obtain ⟨-, rfl⟩ := Db.guarded_eq_some hs
  intro s hs
  obtain ⟨hs, hne⟩ := mem_deleteWhere.1 hs
  obtain ⟨v, hv, hvs⟩ := mem_map.1 (hw s hs)
  refine mem_map.2 ⟨v, mem_deleteWhere.2 ⟨hv, ?_⟩, hvs⟩
  rw [hvs]
  exact hne

/-- The requests that do not remove accounts and are not about links leave both alone. -/
theorem Request.leaves_links {request : Request} (hr : request.removesAccounts = false) :
    [Part.ssoUsers, .userIds].any request.parts.contains = false ∨
      (∃ u, request = .admin (.deleteSsoUser u)) ∨
      ∃ grantType data ip, request = .login grantType data ip := by
  cases request with
  | organization caller org request =>
    cases request with
    | sendInvite => cases hr
    | _ => exact .inl rfl
  | account caller request =>
    cases request with
    | deleteAccount => cases hr
    | _ => exact .inl rfl
  | emergency caller request => cases request <;> exact .inl rfl
  | admin request =>
    cases request with
    | deleteUser => cases hr
    | deleteSsoUser u => exact .inr (.inl ⟨u, rfl⟩)
    | _ => exact .inl rfl
  | directory => cases hr
  | login grantType data ip => exact .inr (.inr ⟨grantType, data, ip, rfl⟩)
  | anyone request =>
    cases request with
    | postDeleteRecoverToken => cases hr
    | _ => exact .inl rfl
  | job task => cases task <;> exact .inl rfl
  | _ => exact .inl rfl

/-- **No request leaves a link without its account.** -/
theorem Request.serve_linked {request : Request} (hw : linked.holds w) :
    linked.holds ((request.serve env).after w) := by
  cases hr : request.removesAccounts with
  | true =>
    refine Request.serve_removing (fun _ h => h) (.of_apart rfl rfl)
      (fun u => User.delete_post rfl ?_) hr hw
    exact fun w db' hw hs _ => User.deleteStmt_linked hw hs
  | false =>
    refine PartInvariant.Keeps.after (Q := ⊤) ?_ hw
    obtain hleaves | ⟨u, rfl⟩ | ⟨grantType, data, ip, rfl⟩ := Request.leaves_links hr
    · exact .of_writes Request.serve_writes hleaves
    · refine (Keeps.execTotal fun w hw s hs => ?_).bind fun _ _ => .ret trivial
      exact hw s (mem_deleteWhere.1 hs).1
    · exact (Keeps.login rfl fun _ => ssoLogin_linked).bind fun _ _ => .ret trivial

theorem linked_after : linked.holds ((World.initial faults).after run) := by
  have hall : (World.initial faults).Each ⊤ run := World.each_of_forall (fun _ _ => trivial) _
  exact World.after_induction (fun w e hw _ => Request.serve_linked hw) hall
    nofun

/-! ## Whose login it is -/

/-- The word of the provider that a login with the code goes by: what is kept of an earlier
exchange, or the answer. -/
def vouched (env : Env) (db : Db) (answer : ProviderAnswer) (code : String) :
    Option OIDCAuthenticatedUser :=
  (SsoAuth.findByCode env db code).bind fun s => s.authResponse.or
    ((answer.idClaims.email.or answer.userInfo.email).map answer.authenticatedUser)

theorem exchangeCode_yields : Yields w (exchangeCode env answer code codeVerifier) fun r _ =>
      vouched env w.db answer code = some r.2 := by
  refine Prog.Yields.read ?_
  unfold vouched
  cases SsoAuth.findByCode env w.db code with
  | none => exact Yields.err
  | some =>
    dsimp only [Option.bind_some]
    split
    · next info hinfo =>
      rw [hinfo]
      exact Prog.Yields.ret rfl
    · next hnone =>
      rw [hnone]
      split
      · exact Yields.pass (SsoAuth.delete_writes rfl rfl) fun _ _ _ => Yields.err
      · exact Yields.pass (SsoAuth.delete_writes rfl rfl) fun _ _ _ => Yields.err
      · refine Yields.pass (S := []) .external fun _ _ _ => Yields.pass (S := []) ?_ fun _ _ _ => ?_
        · exact .bind .ensure fun _ => .bind .external fun _ => .ensure
        · refine Yields.pass (S := []) .external fun _ _ _ => ?_
          cases answer.idClaims.email.or answer.userInfo.email with
          | none => exact Yields.err
          | some =>
            exact Yields.pass SsoAuth.save_writes fun _ _ _ => Prog.Yields.ret rfl

/-- An account that may be linked to the identity. -/
structure Linkable (env : Env) (db : Db) (info : OIDCAuthenticatedUser) (u : UserId) : Prop where
  account : ∃ v ∈ db.users.rows, v.uuid = u ∧ v.email = toLowercase info.email ∧
    (v.privateKey = none ∨ env.ssoSignupsMatchEmail = true)
  unlinked : ∀ s ∈ db.ssoUsers.rows, s.userUuid ≠ u
  unknown : ∀ s ∈ db.ssoUsers.rows, s.identifier ≠ info.identifier
  verified : info.emailVerified = some true ∨
    info.emailVerified = none ∧ env.ssoAllowUnknownEmailVerification = true

theorem Linkable.of_same {u} (h : Linkable env db' info u) (hu : db'.accounts = db.accounts)
    (hl : db'.ssoUsers = db.ssoUsers) : Linkable env db info u := by
  obtain ⟨v, hv, hid, hmail, hkey⟩ := h.account
  obtain ⟨v', hv', heq⟩ := Db.exists_of_accounts hu hv
  refine ⟨⟨v', hv', ?_, ?_, ?_⟩, hl ▸ h.unlinked, hl ▸ h.unknown, h.verified⟩
  · exact (congrArg User.uuid heq).trans hid
  · exact (congrArg User.email heq).trans hmail
  · exact hkey.imp_left (congrArg User.privateKey heq).trans

/-- What the lookup of the identity tells. -/
def Identified (env : Env) (db : Db) (info : OIDCAuthenticatedUser) :
    Option (User × Option SsoUser) → Prop
  | none => ∀ s ∈ db.ssoUsers.rows, s.identifier ≠ info.identifier
  | some (u, none) => Linkable env db info u.uuid
  | some (u, some _) => ⟨u.uuid, info.identifier⟩ ∈ db.ssoUsers.rows

theorem SsoUser.link_of_findByIdentifier
    (h : SsoUser.findByIdentifier db identifier = some (u, s)) :
    ⟨u.uuid, identifier⟩ ∈ db.ssoUsers.rows := by
  have hmem := mem_of_find?_eq_some h
  have hid := find?_some h
  obtain ⟨v, -, t, ht, hon, hpair⟩ := mem_innerJoin.1 hmem
  obtain ⟨rfl, rfl⟩ := Prod.mk.inj hpair
  have hrow : s = ⟨u.uuid, identifier⟩ := by
    cases s
    simp only [decide_eq_true_eq] at hid hon
    rw [← hid, ← hon]
  exact hrow ▸ ht

/-- The lookup joins with the accounts, and every link has one. -/
theorem SsoUser.unknown_of_findByIdentifier (hl : linked.holds w)
    (h : SsoUser.findByIdentifier w.db identifier = none) :
    ∀ s ∈ w.db.ssoUsers.rows, s.identifier ≠ identifier := by
  intro s hs hid
  obtain ⟨u, hu, hus⟩ := mem_map.1 (hl s hs)
  have hpair := find?_eq_none.1 h (u, s)
    (mem_innerJoin.2 ⟨u, hu, s, hs, decide_eq_true hus.symm, rfl⟩)
  exact hpair (decide_eq_true hid)

theorem ssoAccount_yields (hl : linked.holds w) :
    Yields w (ssoAccount env info) fun r _ => Identified env w.db info r := by
  refine .loadUser ?_
  split
  · next u s hfound => exact .ret (SsoUser.link_of_findByIdentifier hfound)
  · next hnone =>
    have hunknown := SsoUser.unknown_of_findByIdentifier hl hnone
    refine .loadUser ?_
    split
    · exact .ret hunknown
    · exact .err
    · next u hmail =>
      obtain ⟨v, hv, hpair⟩ := Option.map_eq_some_iff.1 hmail
      obtain ⟨rfl, hlink⟩ := Prod.mk.inj hpair
      obtain ⟨hmem, haddress⟩ := mem_of_find? hv
      refine .ensure fun hallowed => .ensure fun hknown => .ensure fun hnot => ?_
      refine .ret ⟨⟨v, hmem, rfl, by simpa using haddress, ?_⟩, ?_, hunknown, ?_⟩
      · simpa using hallowed
      · intro s hs hus
        exact of_decide_eq_false (find?_eq_none.1 hlink s hs) hus
      · simp only [decide_eq_true_eq] at hknown hnot
        cases hv : info.emailVerified with
        | none =>
          rw [hv] at hknown
          exact .inr ⟨rfl, by simpa using hknown⟩
        | some b =>
          cases b with
          | true => exact .inl rfl
          | false => exact absurd hv hnot

/-! ## The accounts a login goes on with -/

theorem User.save_uuid : nothing.Keeps (User.save env u) fun u' => u'.uuid = u.uuid :=
  .check <| (Keeps.exec fun _ _ _ _ => trivial).bind fun _ _ => .ret rfl

/-- Copies of one account. -/
def sameAccount (id : UserId) : CopyLogic where
  Knowledge := Unit
  Holds _ c Q := nothing.Keeps c (Q ())
  Mine _ v := v.uuid = id
  ret h := h
  fail := trivial
  mono h hQ := Keeps.mono h fun a ha => hQ () a ha
  bind h hf := Keeps.bind h fun a ha => hf () a ha
  quiet h _ := (Keeps.of_writes h rfl).mono fun _ _ _ hv => hv
  save h := User.save_uuid.mono fun _ hv => hv.trans h
  attempt _ := User.save_uuid.attempt.mono fun _ _ _ hv => hv
  copy h hid _ _ := (congrArg Prod.fst hid).trans h

theorem twofactorAuth_uuid :
    nothing.Keeps (twofactorAuth env u data d ip) fun r => r.1.uuid = u.uuid :=
  CopyLogic.twofactorAuth (L := sameAccount u.uuid) (k := ()) rfl

theorem ssoFillStub_uuid : nothing.Keeps (ssoFillStub env u info) fun u' => u'.uuid = u.uuid :=
  .ite User.save_uuid (.ret rfl)

/-- An account that signs up has a number that no account had. -/
theorem ssoSignup_yields : Yields w (ssoSignup env info) fun u _ => w.nextUuid ≤ u.uuid.val := by
  refine .ensure fun _ => .ensure fun _ => .ensure fun _ => ?_
  refine Prog.Yields.bind (Q := fun u _ => u.uuid.val = w.nextUuid) ?_ fun u hu => ?_
  · exact Yields.getUuid (Yields.getUuid (Yields.getUuid (Prog.Yields.ret rfl)))
  · refine (User.save_uuid.yields trivial).mono fun u' _ hu' => ?_
    rw [hu'.2]
    exact Nat.le_of_eq hu.symm

theorem createAuthTokens_sub :
    nothing.Keeps (createAuthTokens env d u p) fun tokens => tokens.accessClaims.sub = u.uuid := by
  refine .ite (.ret rfl) ?_
  split
  · exact .ret rfl
  · exact .ret rfl
  · exact .err

theorem authenticatedResponse_sub : nothing.Keeps (authenticatedResponse env d tokens note) fun r =>
      ∀ claims refresh note, r = .session claims refresh note → claims = tokens.accessClaims := by
  refine .pass sendNewDeviceLoggedIn_writes (S := []) rfl fun _ => ?_
  refine .pass (.ite .ret registerPushDevice_writes) rfl fun d' => .pass Device.save_writes rfl
    fun _ => .ret fun claims refresh note hr => ?_
  cases hr
  rfl

/-! ## Links are added, never replaced -/

/-- The links of before are there, and numbers only go up. -/
def linksGrow : Guarantee World where
  inv _ := True
  rel w w' := w.nextUuid ≤ w'.nextUuid ∧ w.db.ssoUsers.rows ⊆ w'.db.ssoUsers.rows
  refl _ := ⟨Nat.le_refl _, List.Subset.refl _⟩
  trans h h' := ⟨Nat.le_trans h.1 h'.1, List.Subset.trans h.2 h'.2⟩

/-- The program adds to the links at most, and what it returns satisfies `Q`. -/
abbrev Grows {α : Type} (w : World) (c : Cmd α) (Q : α → World → Prop) : Prop :=
  c.Safe linksGrow w Q

namespace Grows

variable {α β : Type} {S : List Part} {Q : α → World → Prop} {R : β → World → Prop}

theorem err : Grows w (VaultServer.err message : Cmd α) Q := .fail

theorem ensure (h : Grows w (k ()) R) : Grows w (VaultServer.ensure b message >>= k) R := by
  cases b with
  | false => exact .fail
  | true => exact ⟨h.post⟩

/-- Links are left alone. -/
theorem of_yields (hw : Writes S c) (hs : Part.ssoUsers ∉ S) (hy : Yields w c Q) :
    Grows w c fun a w' => Q a w' ∧ ∀ t, t ∉ S → w.Same w' t := by
  have hsame : (c.after w).db.ssoUsers = w.db.ssoUsers := hw.after hs w
  have hends : Grows w c ⊤ := .of_after fun _ => ⟨trivial, hw.nextUuid_le w, fun s hs => hsame ▸ hs⟩
  refine ⟨fun _ => ?_⟩
  have hpost := hends.post trivial
  cases hr : c.run w with
  | mk r w' =>
    rw [hr] at hpost
    cases r with
    | error => exact hpost
    | ok a =>
      have hafter : c.after w = w' := congrArg Prod.snd hr
      exact ⟨hpost.1, hafter ▸ hy a (congrArg Prod.fst hr), hafter ▸ fun t ht => hw.after ht w⟩

theorem andThen (hw : Writes S c) (hs : Part.ssoUsers ∉ S) (hy : Yields w c Q)
    (hk : ∀ a w', Q a w' → w.nextUuid ≤ w'.nextUuid → (∀ t, t ∉ S → w.Same w' t) →
      Grows w' (k a) R) : Grows w (c >>= k) R :=
  Prog.Safe.bind (of_yields hw hs hy) fun a w' _ hrel hq => hk a w' hq.1 hrel.1 hq.2

theorem pass {k : α → Cmd β} (hw : Writes S c) (hs : Part.ssoUsers ∉ S)
    (hk : ∀ a w', (∀ t, t ∉ S → w.Same w' t) → Grows w' (k a) R) : Grows w (c >>= k) R :=
  andThen (Q := ⊤) hw hs (fun _ _ => trivial) fun a w' _ _ h => hk a w' h

end Grows

/-- The account of the tokens had the link or could be given it, unless it is new; and has it. -/
structure LoggedIn (env : Env) (db : Db) (info : OIDCAuthenticatedUser) (sub : UserId)
    (db' : Db) : Prop where
  entitled : db.hasUser sub = true → ⟨sub, info.identifier⟩ ∈ db.ssoUsers.rows ∨
    Linkable env db info sub
  link : ⟨sub, info.identifier⟩ ∈ db'.ssoUsers.rows

theorem SsoUser.save_grows {u}
    (hnew : ∀ s ∈ w.db.ssoUsers.rows, s.identifier ≠ identifier ∧ s.userUuid ≠ u) :
    Grows w (SsoUser.save ⟨u, identifier⟩) fun _ w' => ⟨u, identifier⟩ ∈ w'.db.ssoUsers.rows := by
  have hrows : ∀ db', SsoUser.saveStmt ⟨u, identifier⟩ w.db = some db' →
      w.db.ssoUsers.rows ⊆ db'.ssoUsers.rows ∧ ⟨u, identifier⟩ ∈ db'.ssoUsers.rows := by
    intro db' hs
    obtain ⟨-, rfl⟩ := Db.guarded_eq_some hs
    refine ⟨fun s hs => mem_replace.2 (.inr ⟨⟨hs, ?_⟩, ?_⟩), mem_replace.2 (.inl rfl)⟩
    · exact (hnew s hs).1
    · exact (hnew s hs).2
  have hx := w.exec_cases (SsoUser.saveStmt ⟨u, identifier⟩)
  refine .call (fun _ => ?_) ?_
  · obtain ⟨-, hx⟩ | ⟨db', -, hs, hx⟩ := hx
    · rw [hx]
      exact ⟨trivial, Nat.le_refl _, List.Subset.refl _⟩
    · rw [hx]
      exact ⟨trivial, Nat.le_refl _, (hrows db' hs).1⟩
  · obtain ⟨hr, -⟩ | ⟨db', hr, hs, hx⟩ := hx
    · rw [hr]
      exact .fail
    · rw [hr, hx]
      exact .ret (hrows db' hs).2

/-- The account has the link, or there is none for either of them. -/
def Bound (db : Db) (u : UserId) (identifier : String) : Option SsoUser → Prop
  | some _ => ⟨u, identifier⟩ ∈ db.ssoUsers.rows
  | none => ∀ s ∈ db.ssoUsers.rows, s.identifier ≠ identifier ∧ s.userUuid ≠ u

theorem Bound.of_same {u} (h : Bound db u identifier link) (hl : db'.ssoUsers = db.ssoUsers) :
    Bound db' u identifier link := by
  cases link with
  | some => exact show _ ∈ db'.ssoUsers.rows from hl ▸ h
  | none =>
    intro s hs
    exact h s (hl ▸ hs)

theorem redeem_grows (hb : Bound w.db u.uuid info.identifier link) :
    Grows w (redeem env d u link a info) fun tokens w' =>
      tokens.accessClaims.sub = u.uuid ∧ ⟨u.uuid, info.identifier⟩ ∈ w'.db.ssoUsers.rows := by
  refine .pass (SsoAuth.delete_writes rfl rfl) (by decide) fun _ w1 h1 => ?_
  have hb1 := hb.of_same (h1 .ssoUsers (by decide))
  have hsave : Grows w1 (Prog.when link.isNone (SsoUser.save ⟨u.uuid, info.identifier⟩))
      fun _ w' => ⟨u.uuid, info.identifier⟩ ∈ w'.db.ssoUsers.rows := by
    cases link with
    | some => exact .ret hb1
    | none => exact SsoUser.save_grows hb1
  refine .bind hsave fun _ w2 _ _ h2 => ?_
  refine (Grows.of_yields createAuthTokens_writes not_mem_nil
    (createAuthTokens_sub.yields trivial)).mono fun tokens w3 h3 => ⟨h3.1.2, ?_⟩
  have hsame : w3.db.ssoUsers = w2.db.ssoUsers := h3.2 .ssoUsers not_mem_nil
  exact hsame ▸ h2

/-- The end of a login: the link, the tokens, the device. -/
theorem redeem_respond_grows (hb : Bound w.db u.uuid info.identifier link) :
    Grows w (redeem env d u link a info >>= fun tokens => authenticatedResponse env d tokens note)
      fun r w' => ∀ claims refresh note, r = .session claims refresh note →
        claims.sub = u.uuid ∧ ⟨u.uuid, info.identifier⟩ ∈ w'.db.ssoUsers.rows := by
  refine .bind (redeem_grows hb) fun tokens w1 _ _ ⟨hsub, hlink⟩ => ?_
  refine (Grows.of_yields authenticatedResponse_writes (by decide)
    (authenticatedResponse_sub.yields trivial)).mono fun r w2 h2 claims refresh note hr => ?_
  have hsame : w2.db.ssoUsers = w1.db.ssoUsers := h2.2 .ssoUsers (by decide)
  rw [h2.1.2 claims refresh note hr, hsame]
  exact ⟨hsub, hlink⟩

/-- The login of an account that was there. -/
theorem Identified.bound
    (h : Identified env db info (some (u, link))) : Bound db u.uuid info.identifier link := by
  cases link with
  | some => exact h
  | none => exact fun s hs => ⟨h.unknown s hs, h.unlinked s hs⟩

theorem Identified.entitled (h : Identified env db info (some (u, link))) :
    ⟨u.uuid, info.identifier⟩ ∈ db.ssoUsers.rows ∨ Linkable env db info u.uuid := by
  cases link with
  | some => exact .inl h
  | none => exact .inr h

theorem ssoLoginAs_grows (hl : linked.holds w) (hfresh : ∀ u ∈ w.db.userIds, u.val < w.nextUuid) :
    Grows w (ssoLoginAs env data ip a info) fun r w' =>
      ∀ claims refresh note, r = .session claims refresh note →
        LoggedIn env w.db info claims.sub w'.db := by
  refine .andThen ssoAccount_writes (by decide) (ssoAccount_yields hl) fun found w1 hfound hn h1 => ?_
  have hlinks1 : w.Same w1 .ssoUsers := h1 .ssoUsers (by decide)
  match found with
  | none =>
    refine .andThen ssoSignup_writes (by decide) ssoSignup_yields fun u w2 hu _ h2 => ?_
    refine .pass getDevice_writes (by decide) fun d w3 h3 => ?_
    have hlinks3 : w3.db.ssoUsers = w.db.ssoUsers :=
      hlinks1.trans ((h2 .ssoUsers (by decide)).trans (h3 .ssoUsers (by decide)))
    have hnew : u.uuid ∉ w.db.userIds := fun hmem =>
      absurd (hfresh _ hmem) (Nat.not_lt.2 (Nat.le_trans hn hu))
    have hb : Bound w3.db u.uuid info.identifier none := by
      intro s hs
      rw [hlinks3] at hs
      exact ⟨hfound s hs, fun hsu => hnew (hsu ▸ hl s hs)⟩
    refine (redeem_respond_grows hb).mono fun r w4 h4 claims refresh note hr => ?_
    obtain ⟨hsub, hlink⟩ := h4 claims refresh note hr
    rw [hsub]
    exact ⟨fun hold => absurd (hasUser_iff.1 hold) hnew, hlink⟩
  | some (u, link) =>
    refine Grows.ensure (.pass getDevice_writes (by decide) fun d w2 h2 => ?_)
    refine .andThen twofactorAuth_writes (by decide) (twofactorAuth_uuid.yields trivial)
      fun r w3 hr _ h3 => ?_
    refine .andThen ssoFillStub_writes (by decide) (ssoFillStub_uuid.yields trivial)
      fun u' w4 hu' _ h4 => .pass (S := []) (.when .external) (by decide) fun _ w5 h5 => ?_
    have hlinks5 : w5.db.ssoUsers = w.db.ssoUsers :=
      hlinks1.trans (((h2 .ssoUsers (by decide)).trans (h3 .ssoUsers (by decide))).trans
        ((h4 .ssoUsers (by decide)).trans (h5 .ssoUsers (by decide))))
    have hid : u'.uuid = u.uuid := hu'.2.trans hr.2
    have hb : Bound w5.db u'.uuid info.identifier link := hid ▸ hfound.bound.of_same hlinks5
    refine (redeem_respond_grows hb).mono fun r w6 h6 claims refresh note hr => ?_
    obtain ⟨hsub, hlink⟩ := h6 claims refresh note hr
    rw [hsub, hid]
    exact ⟨fun _ => hfound.entitled, hid ▸ hlink⟩

/-- Every link has its account, and the numbers of the accounts are used up. -/
structure Settled (w : World) : Prop where
  linked : linked.holds w
  fresh : ∀ u ∈ w.db.userIds, u.val < w.nextUuid

theorem Settled.later (h : Settled w) (hu : w.Same w' .users)
    (hl : w.Same w' .ssoUsers) (hn : w.nextUuid ≤ w'.nextUuid) : Settled w' := by
  have hids : w'.db.userIds = w.db.userIds := Db.userIds_of_accounts hu
  refine ⟨fun s hs => ?_, fun u hmem => Nat.lt_of_lt_of_le (h.fresh u (hids ▸ hmem)) hn⟩
  have hlinks : w'.db.ssoUsers = w.db.ssoUsers := hl
  rw [hids]
  exact h.linked s (hlinks ▸ hs)

theorem LoggedIn.of_same (h : LoggedIn env db info sub db') (hu : db.accounts = db0.accounts)
    (hl : db.ssoUsers = db0.ssoUsers) : LoggedIn env db0 info sub db' := by
  refine ⟨fun hold => ?_, h.link⟩
  have hold' : db.hasUser sub = true := by
    rw [hasUser_iff, Db.userIds_of_accounts hu]
    exact hasUser_iff.1 hold
  obtain hlink | hlinkable := h.entitled hold'
  · exact .inl (hl ▸ hlink)
  · exact .inr (hlinkable.of_same hu hl)

/-- What tokens from the provider's word tell. -/
def Vouched (env : Env) (db : Db) (answer : ProviderAnswer) (data : ConnectData)
    (r : TokenResponse) (db' : Db) : Prop :=
  ∀ claims refresh note, r = .session claims refresh note →
    ∃ code info, data.code = some code ∧ vouched env db answer code = some info ∧
      LoggedIn env db info claims.sub db'

theorem Vouched.of_same (hsame : ∀ t, w.Same w' t)
    (h : Vouched env w'.db answer data r db') : Vouched env w.db answer data r db' := by
  intro claims refresh note hr
  obtain ⟨code, info, hcode, hinfo, hin⟩ := h claims refresh note hr
  refine ⟨code, info, hcode, ?_, hin.of_same (hsame .users) (hsame .ssoUsers)⟩
  have hauth : w'.db.ssoAuth = w.db.ssoAuth := hsame .ssoAuth
  unfold vouched SsoAuth.findByCode at hinfo ⊢
  rw [← hauth]
  exact hinfo

/-- A part that writes nothing. -/
theorem Grows.idle {c} {k : α → Cmd TokenResponse} (hc : Writes [] c) (hw : Settled w)
    (hk : ∀ a w', Settled w' → Grows w' (k a) fun r w'' => Vouched env w'.db answer data r w''.db) :
    Grows w (c >>= k) fun r w' => Vouched env w.db answer data r w'.db := by
  refine .andThen (Q := ⊤) hc not_mem_nil (fun _ _ => trivial) fun a w1 _ hn h1 => ?_
  have hsame : ∀ t, w.Same w1 t := fun t => h1 t not_mem_nil
  exact (hk a w1 (hw.later (hsame _) (hsame _) hn)).mono fun r w2 h => h.of_same hsame

theorem ssoLogin_grows (hw : Settled w) :
    Grows w (ssoLogin env data ip answer) fun r w' => Vouched env w.db answer data r w'.db := by
  refine .idle AuthMethod.checkScope_writes hw fun _ w1 hw1 => .idle .external hw1 fun _ w2 hw2 => ?_
  split
  · exact Grows.err
  · exact Grows.err
  · next code codeVerifier hcode _ =>
    refine .andThen exchangeCode_writes (by decide) exchangeCode_yields fun found w3 hinfo hn h3 => ?_
    have husers : w2.Same w3 .users := h3 .users (by decide)
    have hlinks : w2.Same w3 .ssoUsers := h3 .ssoUsers (by decide)
    have hw3 := hw2.later husers hlinks hn
    refine (ssoLoginAs_grows hw3.linked hw3.fresh).mono fun r w4 h4 claims refresh note hr => ?_
    exact ⟨code, found.2, hcode, hinfo, (h4 claims refresh note hr).of_same husers hlinks⟩

theorem login_grows (hw : Settled w) :
    Grows w (login env (.authorizationCode answer) data ip) fun r w' =>
      Vouched env w.db answer data r w'.db := by
  refine Grows.ensure (Grows.ensure (Grows.ensure (Grows.ensure ?_)))
  exact .idle checkDevice_writes hw fun _ w1 hw1 => ssoLogin_grows hw1

/-! ## Links that go -/

def keptLink (s : SsoUser) : PartInvariant where
  parts := [.ssoUsers]
  holds w := s ∈ w.db.ssoUsers.rows
  of_same {w w'} h _ hw := by
    have hlinks : w'.db.ssoUsers = w.db.ssoUsers := h .ssoUsers mem_cons_self
    exact hlinks ▸ hw

theorem User.deleteStmt_keptLink {s u}
    (hs : s ∈ db.ssoUsers.rows) (h : User.deleteStmt u db = some db') :
    s ∈ db'.ssoUsers.rows ∨ db'.hasUser s.userUuid = false := by
  obtain ⟨-, rfl⟩ := Db.guarded_eq_some h
  by_cases hu : s.userUuid = u
  · right
    rw [Bool.eq_false_iff, ne_eq, hasUser_iff]
    intro hmem
    obtain ⟨v, hv, hvs⟩ := mem_map.1 hmem
    have hne := (mem_deleteWhere.1 hv).2
    simp [hvs, hu] at hne
  · exact .inl (mem_deleteWhere.2 ⟨hs, decide_eq_false hu⟩)

theorem login_keptLink (hw : Settled w) (hs : s ∈ w.db.ssoUsers.rows) :
    s ∈ ((login env grantType data ip).after w).db.ssoUsers.rows := by
  cases grantType with
  | authorizationCode => exact ((login_grows hw).after trivial).2.2 hs
  | refreshToken =>
    exact Keeps.after (I := keptLink s) (.check <| .of_writes refreshLogin_writes rfl) hs
  | password =>
    refine Keeps.after (I := keptLink s) (Q := ⊤) ?_ hs
    refine .check <| .check <| .check <| .check <| .check ?_
    exact .skip checkDevice_writes <| .of_writes passwordLogin_writes rfl
  | clientCredentials =>
    refine Keeps.after (I := keptLink s) (Q := ⊤) ?_ hs
    refine .check <| .check <| .check <| .skip checkDevice_writes ?_
    exact .of_writes apiKeyLogin_writes rfl
  | other => exact hs

/-- **A link goes when an administrator removes it or its account is deleted.** -/
theorem Request.serve_keptLink {request : Request} {s : SsoUser} (hw : Settled w)
    (hs : s ∈ w.db.ssoUsers.rows) : s ∈ ((request.serve env).after w).db.ssoUsers.rows ∨
      request = .admin (.deleteSsoUser s.userUuid) ∨
      ((request.serve env).after w).db.hasUser s.userUuid = false := by
  cases hr : request.removesAccounts with
  | true =>
    refine Or.imp_right .inr ?_
    refine Request.serve_removing (I := keptLink s)
      (E := fun w => s ∈ w.db.ssoUsers.rows ∨ w.db.hasUser s.userUuid = false)
      (fun _ h => .inl h) (.of_apart rfl rfl) (fun u => User.delete_post rfl ?_) hr hs
    exact fun w db' hs h _ => User.deleteStmt_keptLink hs h
  | false =>
    obtain hleaves | ⟨u, rfl⟩ | ⟨grantType, data, ip, rfl⟩ := Request.leaves_links hr
    · refine .inl (PartInvariant.Keeps.after (I := keptLink s) (.of_writes Request.serve_writes ?_) hs)
      simp only [List.any_cons, Bool.or_eq_false_iff] at hleaves
      rw [keptLink, List.any_cons, hleaves.1]
      rfl
    · by_cases hu : u = s.userUuid
      · exact .inr (.inl (by rw [hu]))
      · refine .inl (PartInvariant.Keeps.after (I := keptLink s) (Q := ⊤) ?_ hs)
        refine (Keeps.execTotal fun w hs => ?_).bind fun _ _ => .ret trivial
        exact mem_deleteWhere.2 ⟨hs, decide_eq_false fun h => hu h.symm⟩
    · refine .inl ?_
      have hafter : ((Request.login grantType data ip).serve env).after w =
          (VaultServer.login env grantType data ip).after w := Prog.after_bind_pure
      rw [hafter]
      exact login_keptLink hw hs

/-! ## Every run -/

/-- What ties the identities of the provider to the accounts in a state. -/
structure IdentityBinding (w : World) : Prop where
  /-- tokens go to an account that had the link or could be given it, or that is new -/
  tokens : ∀ env answer data ip r,
    ((login env (.authorizationCode answer) data ip).run w).1 = .ok r →
    Vouched env w.db answer data r ((login env (.authorizationCode answer) data ip).after w).db
  oneIdentifier : ∀ s ∈ w.db.ssoUsers.rows, ∀ t ∈ w.db.ssoUsers.rows, s.userUuid = t.userUuid →
    s.identifier = t.identifier
  oneUser : ∀ s ∈ w.db.ssoUsers.rows, ∀ t ∈ w.db.ssoUsers.rows, s.identifier = t.identifier →
    s.userUuid = t.userUuid
  /-- a link goes with its account, or when an administrator removes it -/
  kept : ∀ e : Event, ∀ s ∈ w.db.ssoUsers.rows, w.db.hasUser s.userUuid = true ∧
    (s ∈ (e.prog.after w).db.ssoUsers.rows ∨ e.request = .admin (.deleteSsoUser s.userUuid) ∨
      (e.prog.after w).db.hasUser s.userUuid = false)

theorem settled_after : Settled ((World.initial faults).after run) := by
  refine ⟨linked_after, fun u hu => ?_⟩
  obtain ⟨v, hv, rfl⟩ := mem_map.1 hu
  exact (World.sound_initial.run run).fresh.users v hv

/-- **Logins by the provider's word are bound to the links, and links stay.** -/
theorem identityBinding_after (faults : List Bool) (run : List Event) :
    IdentityBinding ((World.initial faults).after run) := by
  have hw : Settled ((World.initial faults).after run) := settled_after
  refine ⟨fun env answer data ip r hr => ?_, fun s hs t ht h => ?_, fun s hs t ht h => ?_,
    fun e s hs => ⟨hasUser_iff.2 (hw.linked s hs), ?_⟩⟩
  · exact ((login_grows hw).of_ok trivial hr).2
  · rw [eq_of_key hs ht h]
  · rw [eq_of_uniq hs ht h]
  · exact Request.serve_keptLink hw hs

end VaultServer
