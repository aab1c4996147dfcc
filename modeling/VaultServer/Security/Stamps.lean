import VaultServer.Invariants.Runs

/-!
# Which old stamps are tolerated

Setting a password with a list of routes keeps the old stamp good for those routes for two minutes.
The exception is a column of its own: a later reset of the stamp leaves it in place, so that a stamp
from before the last but one change is still let through. As long as no request puts a new stamp
in place without a list while an exception is alive, the only stamp that is tolerated is the one
before the last change.
-/

namespace VaultServer

open Lib List Option

/-- The account has the stamp. -/
def StampAt (w : World) (u : UserId) (stamp : Secret) : Prop :=
  ∃ r ∈ w.db.users.rows, r.uuid = u ∧ r.securityStamp = stamp

/-- A new password set at `time` was the last change of the account's stamp in the run: `old` was
the stamp just before, and it has been `new` ever since. Only `post_password` sets a password with
a list of routes and resets the stamp. -/
def LastChangedByPassword (start : World) (run : List Event) (u : UserId) (old new : Secret)
    (time : Time) : Prop :=
  ∃ before e rest, run = before ++ e :: rest ∧ e.env.now = time ∧
    (∃ caller data, e.request = .account caller (.postPassword data) ∧
      caller.token.claims.sub = u) ∧
    StampAt (start.after before) u old ∧
    ∀ mid, mid <+: rest → StampAt (start.after (before ++ e :: mid)) u new

section
variable {start : World} {run : List Event} {u : UserId} {old new : Secret} {time : Time}

theorem LastChangedByPassword.of_last {e caller data}
    (he : e.request = .account caller (.postPassword data)) (hu : caller.token.claims.sub = u)
    (hold : StampAt (start.after run) u old)
    (hnew : StampAt (e.prog.after (start.after run)) u new) :
    LastChangedByPassword start (run ++ [e]) u old new e.env.now := by
  refine ⟨run, e, [], rfl, rfl, ⟨caller, data, he, hu⟩, hold, fun mid hmid => ?_⟩
  rw [prefix_nil.1 hmid, World.after_append]
  exact hnew

/-- A request that leaves the stamp as it is. -/
theorem LastChangedByPassword.snoc (h : LastChangedByPassword start run u old new time) {e}
    (hnew : StampAt (e.prog.after (start.after run)) u new) :
    LastChangedByPassword start (run ++ [e]) u old new time := by
  obtain ⟨before, e0, rest, rfl, ht, hreq, hold, hsince⟩ := h
  refine ⟨before, e0, rest ++ [e], by simp, ht, hreq, hold, fun mid hmid => ?_⟩
  rcases prefix_concat_iff.1 hmid with rfl | hmid
  · rw [← cons_append, ← append_assoc, World.after_append]
    exact hnew
  · exact hsince mid hmid

end

/-- A new stamp that goes with no list of routes. -/
def StampChange.resetsAlone : StampChange → Bool
  | reset | disable => true
  | allow _ | resetAllow _ | enable => false

/-- A request that resets a stamp without a list meets no exception that is still alive. One that
is refused, or ends before the stamp is stored, may meet any. -/
def Event.meetsNoException (w : World) (e : Event) : Bool :=
  match e.request.change w.db with
  | none => true
  | some (u, c) => !c.resetsAlone || w.db.users.rows.all fun r => r.uuid ≠ u ||
      (r.stampException.all fun x => x.expire < e.env.now) ||
      (e.prog.after w).db.users.rows.all fun r' =>
        r'.uuid ≠ u || r'.securityStamp = r.securityStamp

theorem Event.expired_of_meetsNoException {e : Event} (h : e.meetsNoException w = true)
    (hc : e.request.change w.db = some (r.uuid, c)) (hreset : c.resetsAlone = true)
    (hr : r ∈ w.db.users.rows) (hx : r.stampException = some x)
    (hr' : r' ∈ (e.prog.after w).db.users.rows) (hu : r'.uuid = r.uuid) :
    x.expire < e.env.now ∨ r'.securityStamp = r.securityStamp := by
  rw [Event.meetsNoException, hc] at h
  simp only [hreset, Bool.not_true, Bool.false_or, List.all_eq_true] at h
  have hrow := h r hr
  simp only [ne_eq, not_true_eq_false, decide_false, Bool.false_or, Bool.or_eq_true, hx,
    Option.all_some, decide_eq_true_eq, List.all_eq_true] at hrow
  exact hrow.imp_right fun hkept => by simpa [hu] using hkept r' hr'

/-- An exception that is alive at `now` is for the stamp the account has, or for the one it had
before its last change. -/
def ExceptionsFollow (start : World) (now : Time) (run : List Event) (w : World) : Prop :=
  ∀ r ∈ w.db.users.rows, ∀ x, r.stampException = some x → now ≤ x.expire →
    x.securityStamp = r.securityStamp ∨
      (x.routes = passwordRoutes ∧
        LastChangedByPassword start run r.uuid x.securityStamp r.securityStamp (x.expire - 120))

theorem Request.change_eq_resetAllow {request : Request} {db u routes}
    (h : request.change db = some (u, .resetAllow routes)) :
    routes = passwordRoutes ∧ ∃ caller data, request = .account caller (.postPassword data) ∧
      caller.token.claims.sub = u := by
  obtain ⟨caller, a, rfl, ha, hu⟩ | ⟨-, hc⟩ | hc | hc := Request.change_cases h
  · cases a with
    | postPassword data =>
      have hroutes := StampChange.resetAllow.inj (Option.some.inj ha)
      exact ⟨hroutes.symm, caller, data, rfl, hu⟩
    | _ => cases ha
  · cases hc
  · cases hc
  · cases hc

section
variable {start : World} {run : List Event} {now : Time} {e : Event}

theorem ExceptionsFollow.step (h : ExceptionsFollow start now run (start.after run))
    (hs : (start.after run).Sound anyLink) (hclock : e.env.now ≤ now)
    (hmeets : e.meetsNoException (start.after run) = true) :
    ExceptionsFollow start now (run ++ [e]) (e.prog.after (start.after run)) := by
  intro r' hr' x hx halive
  obtain ⟨-, -, hm⟩ := hs.step e fun _ _ _ => trivial
  obtain ⟨r, hr, hu, hmoved⟩ | ⟨-, hnone⟩ := hm.users r' hr'
  case inr => rw [hnone] at hx; cases hx
  have hnew : StampAt (e.prog.after (start.after run)) r'.uuid r'.securityStamp :=
    ⟨r', hr', rfl, rfl⟩
  -- a row whose stamp and exception are as before
  have hsame : r'.securityStamp = r.securityStamp → r'.stampException = r.stampException →
      x.securityStamp = r'.securityStamp ∨ (x.routes = passwordRoutes ∧
        LastChangedByPassword start (run ++ [e]) r'.uuid x.securityStamp r'.securityStamp
          (x.expire - 120)) := by
    intro hstamp hexc
    rw [hexc] at hx
    rw [hstamp, ← hu] at hnew ⊢
    exact (h r hr x hx halive).imp_right fun ⟨hroutes, hlast⟩ => ⟨hroutes, hlast.snoc hnew⟩
  obtain hkept | ⟨-, -, hnone⟩ | ⟨c, hc, hmoves⟩ := hmoved
  · exact hsame hkept.2.1 hkept.2.2
  · rw [hnone] at hx; cases hx
  -- an exception that a reset leaves behind has expired
  have hdead : c.resetsAlone = true → r'.stampException = r.stampException →
      r'.securityStamp = r.securityStamp := by
    intro hreset hexc
    rw [hexc] at hx
    obtain hlt | hstamp := Event.expired_of_meetsNoException hmeets hc hreset hr hx hr' hu.symm
    · exact absurd halive (Int.not_le.2 (Int.lt_of_lt_of_le hlt hclock))
    · exact hstamp
  cases c with
  | reset => exact hsame (hdead rfl hmoves.2) hmoves.2
  | disable => exact hsame (hdead rfl hmoves.2) hmoves.2
  | enable => exact hsame hmoves.1 hmoves.2
  | allow =>
    rw [hmoves.2.2] at hx
    rw [← Option.some.inj hx]
    exact .inl hmoves.2.1.symm
  | resetAllow =>
    obtain ⟨rfl, caller, data, hreq, hsub⟩ := Request.change_eq_resetAllow hc
    rw [hmoves.2] at hx
    rw [← Option.some.inj hx]
    refine .inr ⟨rfl, ?_⟩
    have hlast := LastChangedByPassword.of_last hreq (hsub.trans hu) ⟨r, hr, hu, rfl⟩ hnew
    simpa using hlast

end

/-- What the guard may rest on when it lets a stamp through that is not the current one: the stamp
was the one before the last change, a password set at most two minutes ago made that change, and the
route is one that was allowed with it. -/
def ToleratesPrevious (start : World) (run : List Event) (env : Env) (caller : Caller)
    (headers : Headers) : Prop :=
  ∃ time route,
    LastChangedByPassword start run caller.token.claims.sub caller.token.claims.sstamp
      headers.user.securityStamp time ∧
    caller.route = some route ∧ route ∈ passwordRoutes ∧ env.now ≤ time + 120

/-- **Only the previous stamp is tolerated** in a run in which no stamp is reset without a list of
routes while an exception is alive. -/
theorem fromRequest_toleratesPrevious (faults : List Bool) (run : List Event) (env : Env)
    (caller : Caller) (headers : Headers)
    (hmeets : (World.initial faults).Each
      (fun w e => e.env.now ≤ env.now ∧ e.meetsNoException w = true) run)
    (hok : ((Headers.fromRequest env caller).run ((World.initial faults).after run)).1 = .ok headers)
    (hne : caller.token.claims.sstamp ≠ headers.user.securityStamp) :
    ToleratesPrevious (World.initial faults) run env caller headers := by
  have hs : ∀ run, ((World.initial faults).after run).Sound anyLink := World.sound_initial.run
  have hfollow : ExceptionsFollow (World.initial faults) env.now run
      ((World.initial faults).after run) :=
    World.after_history (fun before e h hok => h.step (hs before) hok.1 hok.2) hmeets
      fun _ hr => (nomatch hr)
  have hf := (hs run).found hok
  obtain hsame | ⟨x, route, hx, hroute, halive, hmem, hstamp⟩ := hf.stamp
  · exact absurd hsame.symm hne
  obtain hcur | ⟨hroutes, hlast⟩ := hfollow headers.user hf.user x hx halive
  · exact absurd (hstamp.symm.trans hcur) hne
  rw [hstamp, hf.sub] at hlast
  refine ⟨_, route, hlast, hroute, hroutes ▸ hmem, ?_⟩
  rw [Int.sub_add_cancel]
  exact halive

/-! ## A run that breaks it -/

namespace Stamps

/-- The tokens of the account that signed in, by the stamp they were issued with. -/
def token (stamp : Secret) : AccessToken := ⟨⟨0, 7200, ⟨0⟩, stamp, ⟨7⟩⟩, true⟩

def changePassword : Request :=
  .account ⟨token 3, some "post_password"⟩ (.postPassword ⟨"hash", "hash2", none, "key2"⟩)

def changeKdf : Request :=
  .account ⟨token 6, some "post_kdf"⟩ (.postKdf
    ⟨⟨⟨0, 700000, none, none⟩, "a@example.com", "hash3"⟩,
      ⟨⟨0, 700000, none, none⟩, "a@example.com", "key3"⟩, "hash2"⟩)

/-- Sign up, sign in, and a new password. -/
def newPassword : List Event := Client.signedIn ++ [⟨{}, changePassword⟩]

/-- A minute later the key derivation is changed too. -/
def newPasswordAndKdf : List Event := newPassword ++ [⟨{ now := 60 }, changeKdf⟩]

/-- The first token on a route of the password change. -/
def firstToken : Caller := ⟨token 3, some "get_contacts"⟩

theorem accepted_firstToken_newPassword :
    ∃ headers, ((Headers.fromRequest { now := 60 } firstToken).run
        ((World.initial []).after newPassword)).1 = .ok headers ∧
      headers.user.securityStamp = 6 :=
  Prog.exists_ok_of_map (by decide)

theorem accepted_firstToken_newPasswordAndKdf :
    ∃ headers, ((Headers.fromRequest { now := 61 } firstToken).run
        ((World.initial []).after newPasswordAndKdf)).1 = .ok headers ∧
      headers.user.securityStamp = 8 :=
  Prog.exists_ok_of_map (by decide)

theorem stampAt_newPassword
    (h : StampAt ((World.initial []).after newPassword) ⟨0⟩ stamp) : stamp = 6 := by
  have hrows : ∀ r ∈ ((World.initial []).after newPassword).db.users.rows, r.securityStamp = 6 := by
    decide
  obtain ⟨r, hr, -, rfl⟩ := h
  exact hrows r hr

end Stamps

open Stamps in
/-- Within the two minutes the first token is still good where the list says so. -/
theorem fromRequest_toleratesPrevious_newPassword :
    ∃ headers, headers.user.securityStamp = 6 ∧
      ToleratesPrevious (World.initial []) newPassword { now := 60 } firstToken headers := by
  obtain ⟨headers, hok, hstamp⟩ := accepted_firstToken_newPassword
  refine ⟨headers, hstamp, ?_⟩
  refine fromRequest_toleratesPrevious [] newPassword { now := 60 } firstToken headers ?_ hok ?_
  · exact ⟨by decide, by decide, by decide, trivial⟩
  · rw [hstamp]; decide

open Stamps in
/-- **The exception of a password change outlives the next change.**  A minute after the password,
the key derivation is changed with a new stamp and no list; the guard still lets the first token
through, whose stamp is neither the current one nor the one before. -/
theorem fromRequest_tolerates_older :
    ∃ headers, ((Headers.fromRequest { now := 61 } firstToken).run
        ((World.initial []).after newPasswordAndKdf)).1 = .ok headers ∧
      firstToken.token.claims.sstamp ≠ headers.user.securityStamp ∧
      ¬ ToleratesPrevious (World.initial []) newPasswordAndKdf { now := 61 } firstToken headers := by
  obtain ⟨headers, hok, hstamp⟩ := accepted_firstToken_newPasswordAndKdf
  refine ⟨headers, hok, by rw [hstamp]; decide, ?_⟩
  rw [ToleratesPrevious, hstamp]
  rintro ⟨time, -, ⟨before, e, rest, hrun, -, ⟨caller, data, hreq, -⟩, -, hsince⟩, -⟩
  -- the one password change is the third request, and the stamp is not yet the last one there
  match before with
  | [] =>
    obtain ⟨rfl, -⟩ := List.cons.inj hrun
    cases hreq
  | [_] =>
    obtain ⟨-, hrun⟩ := List.cons.inj hrun
    obtain ⟨rfl, -⟩ := List.cons.inj hrun
    cases hreq
  | [a, b] =>
    obtain ⟨ha, hrun⟩ := List.cons.inj hrun
    obtain ⟨hb, hrun⟩ := List.cons.inj hrun
    obtain ⟨he, -⟩ := List.cons.inj hrun
    have h := hsince [] nil_prefix
    rw [← ha, ← hb, ← he] at h
    exact absurd (stampAt_newPassword h) (by decide)
  | [_, _, _] =>
    obtain ⟨-, hrun⟩ := List.cons.inj hrun
    obtain ⟨-, hrun⟩ := List.cons.inj hrun
    obtain ⟨-, hrun⟩ := List.cons.inj hrun
    obtain ⟨rfl, -⟩ := List.cons.inj hrun
    cases hreq
  | _ :: _ :: _ :: _ :: _ =>
    have hlen := congrArg List.length hrun
    simp [newPasswordAndKdf, newPassword, Client.signedIn] at hlen

end VaultServer
