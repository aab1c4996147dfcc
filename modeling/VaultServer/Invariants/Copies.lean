import VaultServer.Invariants.AccountLogic

/-!
# Invariants of account rows

A handler that changes an account saves a whole copy of its row. Most of them leave the address and
the password of the copy alone, and such a handler keeps every invariant that says of each row
something about these columns only. What is left to be looked at are the requests that are made to
set a password.
-/

namespace VaultServer

open Lib PartInvariant

variable {u : User} {data : ConnectData} {email : String}

/-- The invariant says `P` of every account row and nothing else, and `P` looks at the identity of
the row. -/
structure PartInvariant.OfAccounts (I : PartInvariant) (P : User → Prop) : Prop where
  parts : I.parts = [.users]
  read : ∀ {w : World}, I.holds w → ∀ u ∈ w.db.users.rows, P u
  store : ∀ {w : World} {u : User} {db' : Db}, I.holds w → P u → u.saveStmt w.db = some db' →
    I.holds { w with db := db' }
  remove : ∀ {w : World} {id : UserId} {db' : Db}, I.holds w → User.deleteStmt id w.db = some db' →
    I.holds { w with db := db' }
  copy : ∀ {u u' : User}, P u → u'.identity = u.identity → P u'

/-- A new account satisfies `P`. -/
def PartInvariant.AdmitsNew (I : PartInvariant) (P : User → Prop) : Prop :=
  ∀ {env : Env} {w : World} {salt stamp : Nat} {email : String} {name : Option String},
    I.holds w → P (User.new env w.nextUuid salt stamp email name)

namespace PartInvariant.OfAccounts

variable {I : PartInvariant} {P : User → Prop} {env : Env} {α β : Type}
  {S : List Part}

section
variable (hI : I.OfAccounts P)
include hI

theorem apart (hs : S.contains .users = false) : I.parts.any S.contains = false := by
  rw [hI.parts, List.any_cons, hs]
  rfl

theorem pass {k : α → Cmd β} {R : β → Prop} (h : Writes S c)
    (hs : S.contains .users = false) (hk : ∀ a, I.Keeps (k a) R) : I.Keeps (c >>= k) R :=
  .pass h (hI.apart hs) hk

theorem of_writes {c : Cmd α} (h : Writes S c) (hs : S.contains .users = false) : I.Keeps c ⊤ :=
  .of_writes h (hI.apart hs)

/-! ## Accounts -/

theorem save (h : P u) : I.Keeps (u.save env) P := by
  have hstored : P { u with updatedAt := env.now } := hI.copy h rfl
  exact .check <| (Keeps.exec fun _ _ hw hs => hI.store hw hstored hs).bind fun _ _ =>
    .ret hstored

/-- The copy is saved last, and the outcome handed on. -/
theorem saveLast (h : P u) : I.Keeps (do let _ ← u.save env) ⊤ :=
  (hI.save h).bind fun _ _ => .ret trivial

theorem resetSecurityStamp (h : P u) : I.Keeps (u.resetSecurityStamp env) P :=
  .skip .getUuid <| hI.pass Device.rotateRefreshTokensByUser_writes rfl fun _ =>
    .ret (hI.copy h rfl)

theorem delete : I.Keeps (u.delete env) ⊤ := by
  rw [User.delete_eq]
  exact hI.pass User.purge_writes rfl fun _ => .exec fun _ _ hw hs => hI.remove hw hs

/-! ## The walk -/

/-- The invariant as rules for copies. -/
def logic : AccountLogic where
  Knowledge := Unit
  Holds _ c Q := I.Keeps c (Q ())
  Mine _ u := P u
  ret h := h
  fail := trivial
  mono h hQ := Keeps.mono h fun a ha => hQ () a ha
  bind h hf := Keeps.bind h fun a ha => hf () a ha
  quiet h hs := (hI.of_writes h hs).mono fun _ _ _ hu => hu
  save h := hI.save h
  attempt h := (hI.save h).attempt.mono fun _ _ _ hv => hv
  copy h hid _ _ := hI.copy h hid
  loads h := .loadUser fun w hw => h () w.db fun u hu => hI.read hw u hu

theorem headers : I.Keeps (Headers.fromRequest env caller) fun h => P h.user :=
  hI.logic.headers (k := ())

theorem orgHeaders {caller org} : I.Keeps (OrgHeaders.fromRequest env caller org) ⊤ :=
  hI.logic.orgHeaders (k := ())

theorem orgGuard {caller org} {request : OrgRequest} : I.Keeps (request.guard env caller org) ⊤ :=
  hI.logic.orgGuard (k := ())

theorem remindToVerify (h : P u) : I.Keeps (VaultServer.remindToVerify env u) ⊤ :=
  (CopyLogic.remindToVerify (L := hI.logic.toCopyLogic) (k := ()) h : I.Keeps _ _).mono
    fun _ _ => trivial

theorem twofactorAuth (h : P u) :
    I.Keeps (VaultServer.twofactorAuth env u data d ip) fun r => P r.1 :=
  CopyLogic.twofactorAuth (L := hI.logic.toCopyLogic) (k := ()) h

/-! ## Requests of the account -/

section
variable {headers : Headers} (h : P headers.user)
include h

theorem postSstamp {data} : I.Keeps (VaultServer.postSstamp env data headers) ⊤ := by
  refine hI.pass PasswordOrOtpData.validate_writes rfl fun _ => ?_
  refine (hI.resetSecurityStamp h).bind fun u hu => (hI.save hu).catchErr.bind fun _ _ => ?_
  exact hI.pass Device.deleteAllByUser_writes rfl fun _ => .still .lift fun _ => .ret trivial

end

end

/-! ## New accounts -/

section
variable (hI : I.OfAccounts P) (hnew : I.AdmitsNew P)

include hnew in
theorem fresh : I.Keeps (User.fresh env email name) P :=
  .getUuid fun _ hw => .skip .getUuid <| .skip .getUuid <| .ret (hnew hw)

include hI hnew

theorem logic_admitsNew : hI.logic.AdmitsNew := fresh hnew

theorem createUser : I.Keeps (VaultServer.createUser env email) P :=
  (fresh hnew).bind fun _ hu => hI.save hu

theorem joins : I.Joins env where
  parts := hI.apart rfl
  headers := hI.headers.mono fun _ _ => trivial
  guard := hI.orgGuard
  createUser := (hI.createUser hnew).mono fun _ _ => trivial

/-! ## Requests -/

omit hnew in
theorem adminRequest (hr : (Request.admin request).removesAccounts = false)
    (hm : (Request.admin request).isMild = false) : I.Keeps (request.handle env) ⊤ := by
  have hfound : ∀ {id}, I.Keeps (Admin.getUserOr404 id) P := hI.logic.getUserOr404 (k := ())
  cases request with
  | deauthUser =>
    refine hfound.bind fun u hu => .skip (.ite ?_ .ret) ?_
    · exact .bind .query fun _ => .each fun _ => .bind (.attempt .external) fun _ => .ret
    · exact hI.pass Device.deleteAllByUser_writes rfl fun _ =>
        (hI.resetSecurityStamp hu).bind fun _ hu' => hI.saveLast hu'
  | disableUser =>
    refine hfound.bind fun u hu => (hI.resetSecurityStamp hu).bind fun u' hu' => ?_
    have hcopy : P { u' with enabled := false } := hI.copy hu' rfl
    refine (hI.save hcopy).catchErr.bind fun _ _ => ?_
    exact hI.pass Device.deleteAllByUser_writes rfl fun _ => .still .lift fun _ => .ret trivial
  | enableUser =>
    refine hfound.bind fun u hu => ?_
    have hcopy : P { u with enabled := true } := hI.copy hu rfl
    exact hI.saveLast hcopy
  | deleteUser => cases hr
  | _ => cases hm

/-- **A request that sets no password leaves the invariant alone.** -/
theorem serve {request : Request} (hset : request.setsPassword = false) (hw : I.holds w) :
    I.holds ((request.serve env).after w) := by
  cases hr : request.removesAccounts with
  | true =>
    exact Request.serve_removing (fun _ h => h) (hI.joins hnew)
      (fun _ => Prog.Until.of_under (fun _ h => h) hI.delete) hr hw
  | false =>
    refine Keeps.after (Q := ⊤) ?_ hw
    cases hm : request.isMild with
    | true => exact hI.logic.prog (k := ()) (e := ⟨env, request⟩) (hI.logic_admitsNew hnew) hm
    | false =>
      cases request with
      | account caller request =>
        refine hI.headers.bind fun _ hu => Keeps.bind (Q := ⊤) ?_ fun _ _ => .ret trivial
        cases request with
        | postSstamp => exact hI.postSstamp hu
        | deleteAccount => cases hr
        | postSetPassword _ | postPassword _ | postKdf _ | verifyPassword _ | postRotatekey _
        | postEmail => cases hset
        | _ => cases hm
      | admin => exact (hI.adminRequest hr hm).bind fun _ _ => .ret trivial
      | directory => cases hr
      | organization caller org request =>
        cases request with
        | sendInvite => cases hr
        | recoverAccount => cases hset
        | _ => cases hm
      | emergency caller request =>
        cases request with
        | passwordEmergencyAccess => cases hset
        | _ => cases hm
      | login grantType =>
        cases grantType with
        | password => cases hset
        | _ => cases hm
      | anyone request =>
        cases request with
        | register => cases hset
        | postDeleteRecoverToken => cases hr
        | _ => cases hm
      | _ => cases hm

end

end PartInvariant.OfAccounts

end VaultServer
