import VaultServer.Lib.Invariant
import VaultServer.Effects.Requests
import VaultServer.Effects.Faults

/-!
# Invariants of some parts of the world

An invariant that looks at a few parts is kept by whatever writes other parts, which the effect
lemmas already tell. What is left are the statements on those parts. `Keeps` says of a program that
each of its calls keeps the invariant, and which values it returns: a handler reads a row while the
invariant holds, changes its copy, and stores it. Nothing is assumed between two calls but the
invariant, so a program may be interleaved with others that keep it.
-/

namespace VaultServer

open Lib

variable {message : String} {w : World}

structure PartInvariant where
  parts : List Part
  holds : World → Prop
  of_same : ∀ {w w' : World}, (∀ t ∈ parts, w.Same w' t) → w.nextUuid ≤ w'.nextUuid → holds w →
    holds w'

namespace PartInvariant

/-- Nothing is asked of the state: what is returned is all that matters. -/
def nothing : PartInvariant := ⟨[], fun _ => True, fun _ _ _ => trivial⟩

/-- Every call keeps the invariant, given that it holds when the call is made, and what is returned
satisfies `Q`. -/
def Keeps {α : Type} (I : PartInvariant) (c : Cmd α) (Q : α → Prop) : Prop :=
  c.Under I.holds (fun _ w' => I.holds w') Q

namespace Keeps

variable {I : PartInvariant} {α β : Type} {S : List Part} {c : Cmd α} {Q Q' : α → Prop}
  {R : β → Prop} {k : α → Cmd β}

theorem ret (h : Q a) : I.Keeps (pure a : Cmd α) Q := h

theorem fail : I.Keeps (Prog.fail e : Cmd α) Q := trivial

theorem err : I.Keeps (VaultServer.err message : Cmd α) Q := trivial

theorem mono (h : I.Keeps c Q) (hQ : ∀ a, Q a → Q' a) : I.Keeps c Q' := Prog.Under.mono h hQ

theorem bind {k} (hc : I.Keeps c Q) (hk : ∀ a, Q a → I.Keeps (k a) R) :
    I.Keeps (c >>= k) R := Prog.Under.bind hc hk

theorem ite {b : Prop} [Decidable b] (hc : I.Keeps c Q) (hd : I.Keeps d Q) :
    I.Keeps (if b then c else d) Q := by
  split
  · exact hc
  · exact hd

theorem when {b c} (h : I.Keeps c ⊤) : I.Keeps (Prog.when b c) ⊤ := ite h (ret trivial)

theorem ensure {b k} (hk : b = true → I.Keeps (k ()) R) :
    I.Keeps (VaultServer.ensure b message >>= k) R := by
  cases b with
  | false => exact trivial
  | true => exact hk rfl

theorem check {b k} (hk : I.Keeps (k ()) R) :
    I.Keeps (VaultServer.ensure b message >>= k) R := ensure fun _ => hk

/-- The last check of a function is known to its caller. -/
theorem ensured : I.Keeps (VaultServer.ensure b message) fun _ => b = true := by
  cases b with
  | false => exact trivial
  | true => exact ret rfl

theorem lift (hk : ∀ a, r = .ok a → I.Keeps (k a) R) : I.Keeps (VaultServer.lift r >>= k) R := by
  cases r with
  | error => exact trivial
  | ok a => exact hk a rfl

theorem unwrap (hk : ∀ a, o = some a → I.Keeps (k a) R) :
    I.Keeps (VaultServer.unwrap o >>= k) R := by
  cases o with
  | none => exact trivial
  | some a => exact hk a rfl

theorem attempt (h : I.Keeps c Q) : I.Keeps c.attempt fun r => ∀ a, r = .ok a → Q a :=
  Prog.Under.attempt h

theorem catchErr (h : I.Keeps c Q) :
    I.Keeps (VaultServer.catchErr c) fun r => ∀ a, r = .ok a → Q a := by
  refine h.attempt.bind fun r hr => ?_
  match r with
  | .error (.panic m) => exact fail
  | .error (.err m) => exact ret hr
  | .error (.invalid m) => exact ret hr
  | .ok a => exact ret hr

theorem expectOk (h : I.Keeps c Q) : I.Keeps (VaultServer.expectOk c message) Q := by
  refine h.catchErr.bind fun r hr => ?_
  cases r with
  | ok a => exact ret (hr a rfl)
  | error => exact fail

theorem each {f : α → Cmd Unit} (h : ∀ x ∈ xs, I.Keeps (f x) ⊤) :
    I.Keeps (Prog.each xs f) ⊤ := Prog.Under.each h

theorem eachAll {P : α → Prop} {f : α → Cmd Unit} (h : ∀ x ∈ xs, I.Keeps (f x) fun _ => P x) :
    I.Keeps (Prog.each xs f) fun _ => ∀ x ∈ xs, P x := Prog.Under.eachAll h

theorem foldl {f : β → α → Cmd β} (hb : R b) (h : ∀ b, ∀ x ∈ xs, R b → I.Keeps (f b x) R) :
    I.Keeps (Prog.foldl xs b f) R :=
  Prog.Under.foldl hb h

/-- A program that leaves the parts alone. -/
theorem of_writes (h : Writes S c) (hs : I.parts.any S.contains = false) : I.Keeps c ⊤ := by
  refine Prog.Under.of_each h fun l u hu w hw => I.of_same (fun t ht => ?_) (hu.nextUuid_le w) hw
  refine (hu.keeps w).2 t fun hmem => ?_
  have hany : I.parts.any S.contains = true :=
    List.any_eq_true.2 ⟨t, ht, List.contains_iff_mem.2 hmem⟩
  rw [hs] at hany
  cases hany

theorem pass {k} (h : Writes S c) (hs : I.parts.any S.contains = false)
    (hk : ∀ a, I.Keeps (k a) R) : I.Keeps (c >>= k) R :=
  (of_writes h hs).bind fun a _ => hk a

theorem still {k} (h : Writes [] c) (hk : ∀ a, I.Keeps (k a) R) :
    I.Keeps (c >>= k) R := pass h (by simp) hk

theorem past {k} (h : Writes S c) (hs : I.parts.any S.contains = false)
    (hk : ∀ {a}, I.Keeps (k a) R) : I.Keeps (c >>= k) R := pass h hs fun _ => hk

theorem skip {k} (h : Writes [] c) (hk : ∀ {a}, I.Keeps (k a) R) :
    I.Keeps (c >>= k) R := still h fun _ => hk

theorem idle (h : Writes [] c) : I.Keeps c ⊤ := of_writes h (by simp)

/-- What is read is read under the invariant. -/
theorem read {f : World → α} (h : ∀ w, I.holds w → I.Keeps (k (f w)) R) :
    I.Keeps (Prog.read l f >>= k) R :=
  fun w hw => ⟨hw, h w hw⟩

theorem query {f : Db → α} (h : ∀ w, I.holds w → I.Keeps (k (f w.db)) R) :
    I.Keeps (VaultServer.query f >>= k) R := read h

/-- A row that is looked up, and may be missing. -/
theorem found {f : World → Option α} {k : Option α → Cmd β} (hnone : I.Keeps (k none) R)
    (hsome : ∀ w a, I.holds w → f w = some a → I.Keeps (k (some a)) R) :
    I.Keeps (Prog.read l f >>= k) R := by
  refine read fun w hw => ?_
  cases ha : f w with
  | none => exact hnone
  | some a => exact hsome w a hw ha

theorem loadUser {f : Db → α} (h : ∀ w, I.holds w → I.Keeps (k (f w.db)) R) :
    I.Keeps (VaultServer.loadUser f >>= k) R := read h

/-- A number is drawn under the invariant. -/
theorem getUuid {k} (h : ∀ w, I.holds w → I.Keeps (k w.nextUuid) R) :
    I.Keeps (VaultServer.getUuid >>= k) R := by
  refine fun w hw => ⟨I.of_same (fun t _ => ?_) (Nat.le_succ _) hw, h w hw⟩
  have hsame : ∀ t, w.Same { w with nextUuid := w.nextUuid + 1 } t := .of_eq rfl rfl rfl
  exact hsame t

theorem exec {stmt label}
    (h : ∀ (w : World) db', I.holds w → stmt w.db = some db' → I.holds { w with db := db' }) :
    I.Keeps (VaultServer.exec stmt message label) ⊤ := by
  refine fun w hw => ⟨?_, ?_⟩
  · obtain ⟨-, hx⟩ | ⟨db', -, hs, hx⟩ := w.exec_cases stmt
    · rw [hx]
      have hsame : ∀ t, w.Same { w with faults := w.faults.tail } t := .of_eq rfl rfl rfl
      exact I.of_same (fun t _ => hsame t) (Nat.le_refl _) hw
    · rw [hx]
      have hsame : ∀ t, ({ w with db := db' } : World).Same
          { w with db := db', faults := w.faults.tail } t := .of_eq rfl rfl rfl
      exact I.of_same (fun t _ => hsame t) (Nat.le_refl _) (h w db' hw hs)
  · dsimp only
    split
    · exact trivial
    · exact trivial

theorem execTotal (h : ∀ w : World, I.holds w → I.holds { w with db := stmt w.db }) :
    I.Keeps (VaultServer.execTotal stmt message) ⊤ := by
  refine exec fun w db' hw hs => ?_
  rw [← Option.some.inj hs]
  exact h w hw

/-- A run of the program keeps the invariant, and its answer satisfies `Q`. -/
theorem after (h : I.Keeps c Q) (hw : I.holds w) : I.holds (c.after w) := Prog.Under.after h hw

theorem yields (h : I.Keeps c Q) (hw : I.holds w) : Yields w c fun a w' => I.holds w' ∧ Q a := by
  intro a ha
  have h := Prog.Under.run h hw
  rw [Prog.run_eq_of_ok ha] at h
  exact h

/-- The rest of a program may leave the invariant for `E`. -/
theorem handOver {E : World → Prop} (h : I.Keeps c Q) (hE : ∀ w, I.holds w → E w) (hw : I.holds w)
    (hk : ∀ a, Q a → ∀ w', I.holds w' → E ((k a).after w')) :
    E ((c >>= k).after w) :=
  Prog.Yields.after_bind (h.yields hw) (hE _ (h.after hw)) fun a ha => hk a ha.2 _ ha.1

/-- The account of a session is the one that its token names. -/
theorem headers {env} (hs : I.parts.any [Part.users].contains = false) :
    I.Keeps (Headers.fromRequest env caller) fun h => h.user.uuid = caller.token.claims.sub := by
  unfold Headers.fromRequest
  split
  · exact err
  · next claims hclaims =>
    obtain rfl := decodeLogin_eq_some hclaims
    refine still .query fun found => ?_
    split
    · exact err
    · refine loadUser fun w _ => ?_
      split
      · exact err
      · next user huser =>
        refine pass (.when checkStampException_writes) hs fun _ => ret ?_
        exact of_decide_eq_true (Table.mem_of_find? huser).2

/-- The guard of an organization hands on the membership that it has found, and its condition. -/
theorem orgHeaders {env} {ok : OrgHeaders → Bool} (hs : I.parts.any [Part.users].contains = false) :
    I.Keeps (OrgHeaders.requiring env caller o ok message) fun h =>
      h.user.uuid = caller.token.claims.sub ∧
      (∃ w, I.holds w ∧ Membership.findByUserAndOrg w.db h.user.uuid o = some h.membership) ∧
      h.membershipType = h.membership.atype ∧
      MembershipStatus.fromI32 h.membership.status = some h.membershipStatus ∧ ok h = true := by
  have hfound : I.Keeps (OrgHeaders.fromRequest env caller o) fun h =>
      h.user.uuid = caller.token.claims.sub ∧
      (∃ w, I.holds w ∧ Membership.findByUserAndOrg w.db h.user.uuid o = some h.membership) ∧
      h.membershipType = h.membership.atype ∧
      MembershipStatus.fromI32 h.membership.status = some h.membershipStatus := by
    refine (headers hs).bind fun headers hid => query fun w hw => ?_
    split
    · exact err
    · next m hm =>
      split
      · exact err
      · next status hstatus => exact ret ⟨hid, ⟨w, hw, hm⟩, rfl, hstatus⟩
  exact hfound.bind fun h ⟨hid, hm, htype, hstatus⟩ => ensure fun hok =>
    ret ⟨hid, hm, htype, hstatus, hok⟩

/-- Of the grants only single sign-on is looked into. -/
theorem login {env grantType data ip} (hs : I.parts.any passwordParts.contains = false)
    (hsso : ∀ answer, I.Keeps (ssoLogin env data ip answer) ⊤) :
    I.Keeps (VaultServer.login env grantType data ip) ⊤ := by
  cases grantType with
  | refreshToken => exact ensure fun _ => of_writes (refreshLogin_writes.mono rfl) hs
  | password =>
    refine ensure fun _ => ensure fun _ => ensure fun _ => ensure fun _ => ensure fun _ => ?_
    exact still checkDevice_writes fun _ => of_writes passwordLogin_writes hs
  | clientCredentials =>
    refine ensure fun _ => ensure fun _ => ensure fun _ => still checkDevice_writes fun _ => ?_
    exact of_writes (apiKeyLogin_writes.mono rfl) hs
  | authorizationCode answer =>
    refine ensure fun _ => ensure fun _ => ensure fun _ => ensure fun _ => ?_
    exact still checkDevice_writes fun _ => hsso answer
  | other => exact err

end Keeps

end PartInvariant

/-! ## Requests that may remove an account -/

/-- The parts that an invitation and a directory import write besides the accounts. -/
def joiningParts : List Part := [.invitations, .twofactor] ++ memberParts ++ groupParts

/-- An invitation and a directory import that take no account back keep the invariant. -/
structure PartInvariant.Joins (I : PartInvariant) (env : Env) : Prop where
  parts : I.parts.any joiningParts.contains = false
  headers : ∀ {caller}, I.Keeps (Headers.fromRequest env caller) ⊤
  guard : ∀ {caller org} {request : OrgRequest}, I.Keeps (request.guard env caller org) ⊤
  createUser : ∀ {email}, I.Keeps (createUser env email) ⊤

namespace PartInvariant.Joins

variable {I : PartInvariant} {env : Env}

theorem of_apart (h : I.parts.any joiningParts.contains = false)
    (hu : I.parts.any [Part.users].contains = false) : I.Joins env :=
  ⟨h, .of_writes Headers.fromRequest_writes hu, .of_writes OrgRequest.guard_writes hu,
    .of_writes createUser_writes hu⟩

variable (h : I.Joins env)
include h

theorem of_writes {c : Cmd α} (hc : Writes joiningParts c) : I.Keeps c ⊤ := .of_writes hc h.parts

theorem invitedUser {org} : I.Keeps (VaultServer.invitedUser env org email) ⊤ := by
  refine .still .query fun found => ?_
  split
  · refine .check <| .check <| (h.of_writes (.when (Invitation.save_writes.mono rfl))).bind ?_
    exact fun _ _ => h.createUser.bind fun _ _ => .ret trivial
  · refine .skip .query <| .check <| .ite (.ret trivial) (.ite ?_ (.ret trivial))
    exact (h.of_writes (Invitation.save_writes.mono rfl)).bind fun _ _ => .ret trivial

theorem importUser : I.Keeps (VaultServer.importUser env email) ⊤ := by
  refine .still .query fun found => ?_
  split
  · exact .ret trivial
  · refine h.createUser.bind fun _ _ => (h.of_writes ?_).bind fun _ _ => .ret trivial
    exact .when (Invitation.save_writes.mono rfl)

end PartInvariant.Joins

/-- The requests that may remove an account. -/
def Request.removesAccounts : Request → Bool
  | organization _ _ (.sendInvite _) => true
  | account _ (.deleteAccount _) => true
  | admin (.deleteUser _) => true
  | directory _ _ => true
  | anyone (.postDeleteRecoverToken _ _) => true
  | _ => false

/-- What the purges do not touch is left to the last statement. -/
theorem User.delete_post {I : PartInvariant} {E env}
    (hpurge : I.parts.any purgeParts.contains = false) {u : User}
    (hlast : ∀ (w : World) db', I.holds w → User.deleteStmt u.uuid w.db = some db' →
      ∀ faults, E { w with db := db', faults := faults }) (w : World) (hw : I.holds w) :
    Prog.Post (fun _ => E) I.holds ((u.delete env).run w) := by
  have hpurged : (u.purge env).Until I.holds I.holds :=
    .of_under (fun _ h => h) (PartInvariant.Keeps.of_writes User.purge_writes hpurge)
  rw [User.delete_eq]
  refine Prog.Until.post_bind hpurged (fun _ w hw => ?_) w hw
  show Prog.Post _ _ ((if w.refuses _ then (VaultServer.err _ : Cmd Unit) else pure ()).run _)
  obtain ⟨hr, hx⟩ | ⟨db', hr, hs, hx⟩ := w.exec_cases (User.deleteStmt u.uuid)
  · rw [hr, hx]
    have hsame : ∀ t, w.Same { w with faults := w.faults.tail } t := .of_eq rfl rfl rfl
    exact I.of_same (fun t _ => hsame t) (Nat.le_refl _) hw
  · rw [hr, hx]
    exact hlast w db' hw hs _

/-! Such a request ends with the removal: a request that goes on after a failed mail would have to
be looked at again. -/

section
variable {I : PartInvariant} {E : World → Prop} {env : Env} {org : OrganizationId}
  (hE : ∀ w, I.holds w → E w) (hjoin : I.Joins env)
  (hdelete : ∀ (u : User) w, I.holds w → Prog.Post (fun _ => E) I.holds ((u.delete env).run w))

include hE hjoin in
theorem Until.of_joining {c : Cmd α} (h : Writes joiningParts c) : c.Until I.holds E :=
  .of_under hE (hjoin.of_writes h)

include hE in
theorem Until.of_still {c : Cmd α} (h : Writes [] c) : c.Until I.holds E :=
  .of_under hE (PartInvariant.Keeps.of_writes (I := I) h (by simp))

include hE hjoin hdelete

theorem mailInvite_until {u m created} : (mailInvite env u m created).Until I.holds E := by
  refine .bind (Until.of_still hE (.catchErr .external)) fun r => ?_
  split
  · exact Until.of_still hE .ret
  · cases created with
    | false =>
      exact .bind (Until.of_joining hE hjoin (Membership.delete_writes.mono rfl)) fun _ =>
        Until.of_still hE .err
    | true =>
      exact fun w hw => (hdelete u w hw).bind (fun _ _ h => h) hE

theorem inviteOne_until :
    (inviteOne env org data newType accessAll invitedBy created email).Until I.holds E := by
  refine .bind (.of_under hE hjoin.invitedUser) fun _ => ?_
  refine .bind (Until.of_still hE .getUuid) fun _ => ?_
  refine .bind (Until.of_joining hE hjoin (Membership.save_writes.mono rfl)) fun _ => ?_
  refine .bind (.bind (.ite ?_ (Until.of_still hE .ret)) fun _ => ?_) fun _ => Until.of_still hE .ret
  · refine .bind (Until.of_still hE .query) fun _ => .bind (Until.of_still hE .ensure) fun _ => ?_
    exact mailInvite_until hE hjoin hdelete
  · refine Until.of_joining hE hjoin ?_
    refine .bind (.when (.each fun _ => grantCollection_writes.mono rfl)) fun _ => ?_
    exact .each fun _ => joinGroup_writes.mono rfl

theorem sendInvite_until : (sendInvite env org data headers).Until I.holds E := by
  refine .bind (Until.of_still hE .ensure) fun _ => .bind (Until.of_still hE ?_) fun _ => ?_
  · exact .bind .query fun _ => .bind .ensure fun _ => .bind .query fun _ => .ensure
  · split
    · exact Until.of_still hE .err
    · refine .bind (Until.of_still hE .ensure) fun _ => .bind (.foldl fun _ _ _ => ?_) fun _ =>
        Until.of_still hE .ret
      exact inviteOne_until hE hjoin hdelete

theorem importMember_until : (importMember env org data).Until I.holds E := by
  refine .bind (Until.of_still hE .query) fun found => ?_
  split
  · refine .ite (Until.of_joining hE hjoin ?_) (Until.of_joining hE hjoin ?_)
    · exact importRevoke_writes.mono rfl
    · exact importRestore_writes.mono rfl
  · refine .ite (Until.of_still hE .ret) ?_
    refine .bind (.of_under hE hjoin.importUser) fun _ => ?_
    refine .bind (Until.of_still hE .query) fun found => ?_
    split
    · exact Until.of_still hE .err
    · refine .bind (Until.of_still hE .getUuid) fun _ => ?_
      refine .bind (Until.of_joining hE hjoin (Membership.save_writes.mono rfl)) fun _ => ?_
      exact .ite (mailInvite_until hE hjoin hdelete) (Until.of_still hE .ret)

theorem ldapImport_until : (ldapImport env org data).Until I.holds E := by
  refine .bind (.each fun _ _ => importMember_until hE hjoin hdelete) fun _ => ?_
  refine .bind (Until.of_joining hE hjoin ?_) fun _ => Until.of_joining hE hjoin ?_
  · exact .when (.each fun _ => importGroup_writes.mono rfl)
  · exact .when (.bind .query fun _ => .each fun _ => importRemove_writes.mono rfl)

omit hjoin in
theorem User.after_delete {u : User} (hw : I.holds w) : E ((u.delete env).after w) :=
  (hdelete u w hw).after (fun _ _ h => h) hE

/-- **A request that may remove an account leaves what the removal leaves.** -/
theorem Request.serve_removing {request : Request} (h : request.removesAccounts = true)
    (hw : I.holds w) : E ((request.serve env).after w) := by
  have hlast : ∀ (u : User) (w : World), I.holds w → E ((u.delete env).after w) := fun _ _ hw =>
    User.after_delete hE hdelete hw
  unfold Request.removesAccounts at h
  split at h
  · refine Prog.Until.after (.bind ?_ fun _ => .bind ?_ fun _ => Until.of_still hE .ret) hE hw
    · exact .of_under hE hjoin.guard
    · exact sendInvite_until hE hjoin hdelete
  · refine Prog.Until.andThen (.of_under hE hjoin.headers) (fun headers w hw => ?_) hw
    rw [Prog.after_bind_pure]
    refine Prog.Until.andThen ?_ (fun _ w hw => hlast _ w hw) hw
    exact Until.of_joining hE hjoin (PasswordOrOtpData.validate_writes.mono rfl)
  · show E (((AdminRequest.deleteUser _).handle env >>= fun _ => pure none : Cmd _).after w)
    rw [Prog.after_bind_pure]
    refine Prog.Until.andThen (.of_under (Q := ⊤) hE ?_) (fun _ w hw => hlast _ w hw) hw
    refine PartInvariant.Keeps.loadUser fun _ _ => ?_
    split
    · exact .ret trivial
    · exact .err
  · refine Prog.Until.after (.bind ?_ fun _ => .bind ?_ fun _ => Until.of_still hE .ret) hE hw
    · exact Until.of_still hE PublicToken.fromRequest_writes
    · exact ldapImport_until hE hjoin hdelete
  · show E (((OpenRequest.postDeleteRecoverToken _ _).handle env >>= fun _ => pure none :
      Cmd _).after w)
    rw [Prog.after_bind_pure]
    refine Prog.Until.andThen (Until.of_still hE (.catchErr decodeJwt_writes)) (fun r w hw => ?_) hw
    split
    · exact (Until.of_still (I := I) hE .err).after hE hw
    · refine Prog.Until.andThen (Until.of_still hE .query) (fun found w hw => ?_) hw
      split
      · exact (Until.of_still (I := I) hE .err).after hE hw
      · refine Prog.Until.andThen (Until.of_still hE .ensure) (fun _ w hw => hlast _ w hw) hw
  · exact nomatch h

end

end VaultServer
