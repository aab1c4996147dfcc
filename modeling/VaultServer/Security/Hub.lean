import VaultServer.Security.Lockout
import VaultServer.Security.Stamps

/-!
# Live connections of a session that has ended

The guard of the other routes looks up the device and the account of a token and compares the stamp.
A live connection is opened on the token alone: it is registered as soon as the token decodes, and
then gets every update of the account. So the token of a session that has been logged out opens one
until its times are over.
-/

namespace VaultServer

open Lib List Option

section
variable {env : Env} {query header : Option AccessToken} {w : World} {claims : LoginJwtClaims}

def connecting (env : Env) (query header : Option AccessToken) : Event :=
  ⟨env, .anyone (.websocketsHub query header)⟩

/-- A request whose token does not decode leaves everything as it is. -/
theorem connecting_after_of_none (h : (query.or header).bind (decodeLogin env) = none) :
    (connecting env query header).prog.after w = w := by
  refine Prog.after_bind_pure.trans ?_
  show (websocketsHub env query header).after w = w
  unfold websocketsHub
  cases htoken : query.or header with
  | none => rfl
  | some token =>
    rw [htoken, bind_some] at h
    simp only [h]
    rfl

/-- Any other one adds a channel for the account of the token. -/
theorem connecting_hub_of_some (h : (query.or header).bind (decodeLogin env) = some claims) :
    ((connecting env query header).prog.after w).hub = w.hub ++ [⟨claims.sub, w.nextUuid⟩] := by
  obtain ⟨token, htoken, hclaims⟩ := bind_eq_some_iff.1 h
  refine (congrArg World.hub Prog.after_bind_pure).trans ?_
  show ((websocketsHub env query header).after w).hub = _
  unfold websocketsHub
  simp only [htoken, hclaims]
  rfl

end

/-! ## Sessions that were issued and have ended -/

/-- The run has answered a login with a session of these claims. -/
def Issued (start : World) (run : List Event) (claims : LoginJwtClaims) : Prop :=
  ∃ before e rest refresh note, run = before ++ e :: rest ∧
    (e.prog.run (start.after before)).1 = .ok (some (.session claims refresh note))

/-- The account has another stamp or is disabled, or the device of the session is gone. -/
def SessionOver (claims : LoginJwtClaims) (db : Db) : Prop :=
  (∃ r ∈ db.users.rows, r.uuid = claims.sub ∧
    (r.securityStamp ≠ claims.sstamp ∨ r.enabled = false)) ∨
  Device.findByUuidAndUser db claims.device claims.sub = none

/-- The run has issued the session, and at some time after that it was over. -/
def LoggedOut (start : World) (run : List Event) (claims : LoginJwtClaims) : Prop :=
  ∃ before between since, run = before ++ between ++ since ∧ Issued start before claims ∧
    SessionOver claims (start.after (before ++ between)).db

/-- A connection that a run asks for, with the token of a session that was logged out before. -/
structure LateConnection (start : World) (run : List Event) where
  before : List Event
  env : Env
  query : Option AccessToken
  header : Option AccessToken
  rest : List Event
  claims : LoginJwtClaims
  asked : run = before ++ connecting env query header :: rest
  shown : query.or header = some ⟨claims, true⟩
  loggedOut : LoggedOut start before claims

/-- What is sent for the account is what would be sent had the connection not been asked for, at
once and in every later state of the run. -/
def LateConnection.Silent {start run} (c : LateConnection start run) : Prop :=
  ∀ later, later <+: c.rest →
    sendUpdate (start.after (c.before ++ connecting c.env c.query c.header :: later)).hub
        c.claims.sub =
      sendUpdate (start.after (c.before ++ later)).hub c.claims.sub

/-- **A logged-out session gets no updates exactly when its token has run out.**  In every run, a
connection that is asked for with the token of such a session changes nothing of what is sent for
the account, then or later, if and only if the times of the token are over when it is asked for.
The stamp, the `enabled` column and the devices play no part. -/
theorem lateConnection_silent_iff (faults : List Bool) (run : List Event)
    (c : LateConnection (World.initial faults) run) :
    c.Silent ↔ validAt c.env c.claims.nbf c.claims.exp = false := by
  constructor
  · intro h
    by_contra hvalid
    have hdecode : (c.query.or c.header).bind (decodeLogin c.env) = some c.claims := by
      simpa [c.shown, decodeLogin] using hvalid
    -- the new channel is there as soon as the request has ended
    have hnow := h [] nil_prefix
    rw [World.after_append, World.after_cons, World.after_nil, append_nil,
      connecting_hub_of_some hdecode] at hnow
    simp [sendUpdate] at hnow
  · intro hvalid later _
    have hdecode : (c.query.or c.header).bind (decodeLogin c.env) = none := by
      simp [c.shown, decodeLogin, hvalid]
    rw [World.after_append, World.after_cons, connecting_after_of_none hdecode,
      World.after_append]

namespace Stamps

/-- A user signs up and in and is disabled, and then a connection is opened with their token. -/
def disabledConnects : List Event :=
  Client.signedIn ++ [disabling {} ⟨0⟩, connecting { now := 60 } (some (token 3)) none]

end Stamps

open Stamps in
/-- **A live connection of a disabled account.**  Disabling has reset the stamp and deleted the
device, so that the guard refuses the token, and the connection gets the updates of the account. -/
theorem disabledConnects_not_silent :
    ((Headers.fromRequest { now := 60 } firstToken).run
      ((World.initial []).after (disabledConnects.take 3))).1.toOption.isNone ∧
    sendUpdate ((World.initial []).after disabledConnects).hub ⟨0⟩ = [8] ∧
    ∃ c : LateConnection (World.initial []) disabledConnects, ¬ c.Silent := by
  refine ⟨by decide, by decide, ?_⟩
  have hout : LoggedOut (World.initial []) (disabledConnects.take 3) (token 3).claims := by
    refine ⟨disabledConnects.take 2, [disabling {} ⟨0⟩], [], rfl, ?_, .inr (by decide)⟩
    exact ⟨[_], _, [], _, _, rfl, rfl⟩
  refine ⟨⟨_, { now := 60 }, some (token 3), none, [], (token 3).claims, rfl, rfl, hout⟩, fun h => ?_⟩
  have hsent : sendUpdate ((World.initial []).after disabledConnects).hub ⟨0⟩ =
      sendUpdate ((World.initial []).after (disabledConnects.take 3)).hub ⟨0⟩ := h [] nil_prefix
  exact absurd hsent (by decide)

end VaultServer
