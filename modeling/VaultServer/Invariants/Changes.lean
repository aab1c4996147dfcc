import VaultServer.Invariants.Sessions

/-!
# Requests that change an account's sessions

Some requests are about the sessions themselves: they set a password, reset the stamp, or switch an
account off or on. Such a request moves the row of one account, which can be told from the request
and the database it meets, and moves it in one way. `Pledge.Changes` is what it keeps: everything
before and after the one save is under the pledge.
-/

namespace VaultServer

open Lib

/-! ## The account and the change -/

inductive StampChange where
  /-- A new stamp; the exception stays whatever it is. -/
  | reset
  /-- The stamp stays, and becomes the exception for the routes. -/
  | allow (routes : List String)
  /-- A new stamp, the old one becomes the exception for the routes. -/
  | resetAllow (routes : List String)
  | disable
  | enable
  deriving DecidableEq

def StampChange.Moves (env : Env) (r r' : User) : StampChange → Prop
  | reset => r'.enabled = r.enabled ∧ r'.stampException = r.stampException
  | allow routes => r'.enabled = r.enabled ∧ r'.securityStamp = r.securityStamp ∧
      r'.stampException = some ⟨routes, r.securityStamp, env.now + 120⟩
  | resetAllow routes => r'.enabled = r.enabled ∧
      r'.stampException = some ⟨routes, r.securityStamp, env.now + 120⟩
  | disable => r'.enabled = false ∧ r'.stampException = r.stampException
  | enable => r'.securityStamp = r.securityStamp ∧ r'.stampException = r.stampException

def AccountRequest.change : AccountRequest → Option StampChange
  | postSetPassword _ => some (.allow ["revision_date"])
  | postPassword _ => some (.resetAllow passwordRoutes)
  | postKdf _ | postRotatekey _ | postSstamp _ | postEmail _ => some .reset
  | _ => none

/-- The account whose sessions the request is about, and what becomes of them. -/
def Request.change (db : Db) : Request → Option (UserId × StampChange)
  | account caller request => request.change.map fun c => (caller.token.claims.sub, c)
  | organization _ org (.recoverAccount member _) =>
    (Membership.findByUuidAndOrg db member org).map fun m => (m.userUuid, .reset)
  | emergency caller (.passwordEmergencyAccess id _) =>
    (EmergencyAccess.findByUuidAndGranteeUuid db id caller.token.claims.sub).map
      fun ea => (ea.grantorUuid, .reset)
  | admin (.deauthUser user) => some (user, .reset)
  | admin (.disableUser user) => some (user, .disable)
  | admin (.enableUser user) => some (user, .enable)
  | anyone (.register data _) =>
    (User.findByMail db (toLowercase data.email)).map fun u => (u.uuid, .reset)
  | _ => none

/-- Where a change of a stamp comes from. -/
theorem Request.change_cases {request : Request} (h : request.change db = some (u, c)) :
    (∃ caller a, request = .account caller a ∧ a.change = some c ∧ caller.token.claims.sub = u) ∨
      request = .admin (.enableUser u) ∧ c = .enable ∨ c = .reset ∨ c = .disable := by
  unfold Request.change at h
  split at h
  · simp only [Option.map_eq_some_iff, Prod.mk.injEq] at h
    obtain ⟨c, ha, rfl, rfl⟩ := h
    exact .inl ⟨_, _, rfl, ha, rfl⟩
  all_goals grind [Option.map_eq_some_iff]

/-! ## Rows and databases that moved -/

/-- The row is as it was, or an exception has been cleared, or it is the account of the change. -/
def RowMoved (env : Env) (change : Option (UserId × StampChange)) (r r' : User) : Prop :=
  RowKept r r' ∨
    (r'.enabled = r.enabled ∧ r'.securityStamp = r.securityStamp ∧ r'.stampException = none) ∨
    ∃ c, change = some (r.uuid, c) ∧ c.Moves env r r'

section
variable {env : Env} {change : Option (UserId × StampChange)} {a b c : User}

theorem StampChange.Moves.of_kept {k : StampChange} (h : RowKept a b) (hm : k.Moves env b c) :
    k.Moves env a c := by
  obtain ⟨h1, h2, h3⟩ := h
  cases k <;> simp only [StampChange.Moves, h1, h2, h3] at hm ⊢ <;> exact hm

theorem StampChange.Moves.kept {k : StampChange} (hm : k.Moves env a b) (h : RowKept b c) :
    k.Moves env a c := by
  obtain ⟨h1, h2, h3⟩ := h
  cases k <;> simp only [StampChange.Moves, h1, h2, h3] at hm ⊢ <;> exact hm

theorem RowMoved.of_kept (h : RowKept a b) (hu : a.uuid = b.uuid)
    (hm : RowMoved env change b c) : RowMoved env change a c := by
  obtain hk | ⟨h1, h2, h3⟩ | ⟨k, hc, hm⟩ := hm
  · exact .inl (h.trans hk)
  · exact .inr (.inl ⟨h1.trans h.1, h2.trans h.2.1, h3⟩)
  · exact .inr (.inr ⟨k, hu ▸ hc, hm.of_kept h⟩)

theorem RowMoved.kept (hm : RowMoved env change a b) (h : RowKept b c) :
    RowMoved env change a c := by
  obtain hk | ⟨h1, h2, h3⟩ | ⟨k, hc, hm⟩ := hm
  · exact .inl (hk.trans h)
  · exact .inr (.inl ⟨h.1.trans h1, h.2.1.trans h2, h.2.2.trans h3⟩)
  · exact .inr (.inr ⟨k, hc, hm.kept h⟩)

/-- Only the one change switches an account on. -/
theorem RowMoved.enabled (hm : RowMoved env change a b) (hno : change ≠ some (a.uuid, .enable))
    (hb : b.enabled = true) : a.enabled = true := by
  obtain hk | ⟨h1, -⟩ | ⟨k, hc, hm⟩ := hm
  · rw [← hk.1]; exact hb
  · rw [← h1]; exact hb
  · cases k with
    | enable => exact absurd hc hno
    | disable => rw [hm.1] at hb; cases hb
    | reset | allow | resetAllow => rw [← hm.1]; exact hb

end

structure AccountsMoved (env : Env) (change : Option (UserId × StampChange)) (n : Nat)
    (db db' : Db) : Prop where
  users : ∀ r' ∈ db'.users.rows, (∃ r ∈ db.users.rows, r.uuid = r'.uuid ∧ RowMoved env change r r') ∨
    (n ≤ r'.uuid.val ∧ r'.stampException = none)
  devices : DevicesKept n db db'

section
variable {env : Env} {change : Option (UserId × StampChange)} {i : Bool} {n : Nat} {a b c : Db}

theorem AccountsMoved.of_kept (h : AccountsKept i n a b) : AccountsMoved env change n a b where
  users r hr := (h.users r hr).imp (fun ⟨s, hs, hu, hk⟩ => ⟨s, hs, hu, .inl hk⟩) fun h => h.2
  devices := h.devices

/-- Rows that are new in between would be out of reach, so there are none. -/
theorem AccountsMoved.after_kept (h : AccountsKept false n a b)
    (h' : AccountsMoved env change n b c) : AccountsMoved env change n a c where
  users r'' hr'' := by
    obtain ⟨r', hr', hu, hm⟩ | hnew := h'.users r'' hr''
    · obtain ⟨r, hr, hu', hk⟩ | ⟨hi, -⟩ := h.users r' hr'
      · exact .inl ⟨r, hr, hu'.trans hu, hm.of_kept hk hu'⟩
      · cases hi
    · exact .inr hnew
  devices := h.devices.trans h'.devices fun _ => h.enabled

theorem AccountsMoved.kept (h : AccountsMoved env change n a b) (h' : AccountsKept i n b c)
    (hno : ∀ u, change ≠ some (u, .enable)) : AccountsMoved env change n a c where
  users r'' hr'' := by
    obtain ⟨r', hr', hu, hk⟩ | ⟨-, hnew⟩ := h'.users r'' hr''
    · obtain ⟨r, hr, hu', hm⟩ | ⟨hn, he⟩ := h.users r' hr'
      · exact .inl ⟨r, hr, hu'.trans hu, hm.kept hk⟩
      · exact .inr ⟨hu ▸ hn, hk.2.2.trans he⟩
    · exact .inr hnew
  devices := by
    refine h.devices.trans h'.devices fun r' hr' hon => ?_
    obtain ⟨r, hr, hu, hm⟩ | ⟨hn, -⟩ := h.users r' hr'
    · exact .inl ⟨r, hr, hu, hm.enabled (hno _) hon⟩
    · exact .inr hn

end

/-! ## Programs -/

namespace Pledge

def MovesBy (p : Pledge) (env : Env) (change : Option (UserId × StampChange)) (w w' : World) :
    Prop :=
  w.nextUuid ≤ w'.nextUuid ∧ AccountsMoved env change p.base w.db w'.db

/-- `c` keeps the invariants from `w` on and moves no account but as the change says. -/
abbrev Changes {α : Type} (p : Pledge) (env : Env) (change : Option (UserId × StampChange))
    (w : World) (c : Cmd α) (Q : α → World → Prop) : Prop :=
  Prog.Ends p.Inv (p.MovesBy env change) w c Q

section
variable {α β : Type} {p q : Pledge} {env : Env} {change : Option (UserId × StampChange)}
  {w w' : World} {Q : α → World → Prop} {R : β → World → Prop} {k : α → Cmd β}

theorem MovesBy.refl : p.MovesBy env change w w :=
  ⟨Nat.le_refl _, .of_kept (.refl true p.base w.db)⟩

theorem Rel.movesBy (h : p.Rel w w') : p.MovesBy env change w w' := ⟨h.1, .of_kept h.2.accounts⟩

theorem Changes.of_safe {c} (h : p.Safe w c Q) : p.Changes env change w c Q :=
  h.conseq (fun _ h => h.movesBy) fun _ _ h _ => h

theorem Changes.ret {a} (h : Q a w) : p.Changes env change w (pure a : Cmd α) Q :=
  Prog.Ends.ret .refl h

theorem Changes.err : p.Changes env change w (VaultServer.err message : Cmd α) Q :=
  Prog.Ends.fail .refl

theorem Changes.query {f : Db → α} (h : p.Changes env change w (k (f w.db)) R) :
    p.Changes env change w (VaultServer.query f >>= k) R := ⟨h.post⟩

theorem Changes.found {f : World → Option α} {k : Option α → Cmd β}
    (hnone : p.Changes env change w (k none) R)
    (hsome : ∀ a, f w = some a → p.Changes env change w (k (some a)) R) :
    p.Changes env change w (Prog.read l f >>= k) R := by
  refine ⟨?_⟩
  cases ha : f w with
  | none => simpa [Prog.run_bind, ha] using hnone.post
  | some a => simpa [Prog.run_bind, ha] using (hsome a ha).post

theorem Changes.ensure {b message k} (h : b = true → p.Changes env change w (k ()) R) :
    p.Changes env change w (VaultServer.ensure b message >>= k) R := by
  cases b with
  | false => exact .err
  | true => exact h rfl

theorem Changes.check {b message k} (h : p.Changes env change w (k ()) R) :
    p.Changes env change w (VaultServer.ensure b message >>= k) R := .ensure fun _ => h

theorem Changes.ensure_last {b message Q} (h : b = true → Q () w) :
    p.Changes env change w (VaultServer.ensure b message) Q := by
  cases b with
  | false => exact .err
  | true => exact .ret (h rfl)

/-- A guard has only read when it lets the request through. -/
theorem Changes.guard {P : α → Prop} {c} (hc : p.Changes env change w c fun a w' => w' = w ∧ P a)
    (hk : ∀ a, P a → p.Changes env change w (k a) R) : p.Changes env change w (c >>= k) R :=
  Prog.Ends.guard hc hk

/-- What comes before the change stores no account. -/
theorem Changes.after_safe {c k} (hc : q.Safe w c Q) (hq : q.Le p) (hi : q.inserts = false)
    (hk : ∀ a w', p.Inv w' → q.Rel w w' → Q a w' → p.Changes env change w' (k a) R) :
    p.Changes env change w (c >>= k) R := by
  have hc : Prog.Ends p.Inv q.Rel w c Q :=
    ⟨fun hw => (hc.post (hq.inv.2 hw)).mono (fun _ _ h => ⟨⟨hq.inv.1 h.1.1, h.1.2⟩, h.2⟩)
      fun _ h => ⟨hq.inv.1 h.1, h.2⟩⟩
  have hkept : ∀ {w'}, q.Rel w w' → AccountsKept false p.base w.db w'.db := by
    intro w' h
    have h := h.2.accounts
    rw [hi, hq.base] at h
    exact h
  refine Prog.Ends.bind hc (fun w' h => ⟨h.1, .of_kept (hkept h)⟩) ?_ hk
  intro w' w'' h h'
  exact ⟨Nat.le_trans h.1 h'.1, h'.2.after_kept (hkept h)⟩

theorem Changes.after_quiet {c} (hc : Quiet c)
    (hk : ∀ a w', p.Inv w' → p.calm.Rel w w' → p.Changes env change w' (k a) R) :
    p.Changes env change w (c >>= k) R :=
  .after_safe (hc.safe (p := p.calm)) p.calm_le rfl fun a w' hw' hrel _ => hk a w' hw' hrel

theorem Changes.andThen {c k} (hc : p.Changes env change w c Q)
    (hno : ∀ u, change ≠ some (u, .enable))
    (hk : ∀ a w', p.Inv w' → p.MovesBy env change w w' → Q a w' → p.Safe w' (k a) R) :
    p.Changes env change w (c >>= k) R :=
  Prog.Ends.bind hc (fun _ h => h)
    (fun _ _ h h' => ⟨Nat.le_trans h.1 h'.1, h.2.kept h'.2.accounts hno⟩) hk

theorem Changes.answer {c} {f : α → β} (h : p.Changes env change w c Q)
    (hR : ∀ a w', Q a w' → R (f a) w') : p.Changes env change w (c >>= fun a => pure (f a)) R :=
  Prog.Ends.finish h fun a w' hq => Prog.Ends.ret rfl (hR a w' hq)

theorem Changes.discard {c} (h : p.Changes env change w c Q) :
    p.Changes env change w (c >>= fun _ => pure ()) ⊤ :=
  h.answer fun _ _ _ => trivial

theorem Changes.catchErr {c} (h : p.Changes env change w c Q) :
    p.Changes env change w (VaultServer.catchErr c) fun r w' => ∀ a, r = .ok a → Q a w' := by
  refine Prog.Ends.finish h.attempt fun r w' hr => ?_
  match r with
  | .ok a => exact Prog.Ends.ret rfl hr
  | .error (.panic _) => exact Prog.Ends.fail rfl
  | .error (.err _) => exact Prog.Ends.ret rfl hr
  | .error (.invalid _) => exact Prog.Ends.ret rfl hr

end

end Pledge

end VaultServer
