import VaultServer.Invariants.Runs

/-!
# A disabled account

Neither the guard nor a refresh looks at the `enabled` column. What keeps a disabled account out is
that it has no device: disabling deletes them all, and afterwards none is stored for it, because a
device is only stored for an account that has one or has been seen to be enabled.
-/

namespace VaultServer

open Lib Option

/-- The account is switched off and has no device. -/
structure Locked (u : UserId) (w : World) : Prop where
  disabled : ∀ r ∈ w.db.users.rows, r.uuid = u → r.enabled = false
  noDevice : ¬ w.db.HasDevice u
  drawn : u.val < w.nextUuid

section
variable {u : UserId} {w w' : World} {env : Env}

theorem Locked.moved (h : Locked u w)
    (hno : change ≠ some (u, .enable)) (hn : w.nextUuid ≤ w'.nextUuid)
    (hm : AccountsMoved env change w.nextUuid w.db w'.db) : Locked u w' where
  disabled r' hr' hru := by
    obtain ⟨r, hr, hu, hmoved⟩ | ⟨hnew, -⟩ := hm.users r' hr'
    · have hoff := h.disabled r hr (hu.trans hru)
      rw [← hu.trans hru] at hno
      cases hon : r'.enabled with
      | false => rfl
      | true => rw [hmoved.enabled hno hon] at hoff; cases hoff
    · rw [hru] at hnew
      exact absurd h.drawn (Nat.not_lt.2 hnew)
  noDevice := by
    intro ⟨d', hd', hdu⟩
    obtain ⟨d, hd, hu⟩ | ⟨r, hr, hu, hon⟩ | hnew := hm.devices d' hd'
    · exact h.noDevice ⟨d, hd, hu.trans hdu⟩
    · rw [h.disabled r hr (hu.trans hdu)] at hon; cases hon
    · rw [hdu] at hnew
      exact absurd h.drawn (Nat.not_lt.2 hnew)
  drawn := Nat.lt_of_lt_of_le h.drawn hn

/-- Only one request switches an account on. -/
theorem Request.change_ne_enable {request : Request} (h : request ≠ .admin (.enableUser u)) :
    request.change db ≠ some (u, .enable) := by
  intro hc
  obtain ⟨_, a, -, ha, -⟩ | ⟨he, -⟩ | hc | hc := Request.change_cases hc
  · cases a <;> cases ha
  · exact h he
  · cases hc
  · cases hc

theorem Locked.step (h : Locked u w) (hs : w.Sound anyLink) (e : Event)
    (hno : e.request ≠ .admin (.enableUser u)) : Locked u (e.prog.after w) := by
  obtain ⟨-, hn, hm⟩ := hs.step e fun _ _ _ => trivial
  exact h.moved (Request.change_ne_enable hno) hn hm

theorem Locked.run {run} (h : Locked u w) (hs : w.Sound anyLink)
    (hno : ∀ e ∈ run, e.request ≠ .admin (.enableUser u)) : Locked u (w.after run) := by
  have hstep : ∀ (w : World) (e : Event), Locked u w ∧ w.Sound anyLink →
      e.request ≠ .admin (.enableUser u) →
      Locked u (e.prog.after w) ∧ (e.prog.after w).Sound anyLink := by
    intro w e ⟨hl, hs⟩ hno
    exact ⟨hl.step hs e hno, (hs.step e fun _ _ _ => trivial).1⟩
  exact (World.after_induction hstep (World.each_of_forall hno w) ⟨h, hs⟩).1

/-- Disabling that succeeds locks the account. -/
theorem Locked.of_disableUser (hs : w.Sound anyLink)
    (hr : (((Request.admin (.disableUser u)).serve env).run w).1 = .ok r) :
    Locked u (((Request.admin (.disableUser u)).serve env).after w) := by
  have hserve : (Pledge.any anyLink w.nextUuid).Changes env (some (u, .disable)) w
      ((Request.admin (.disableUser u)).serve env) fun _ w' =>
        (∃ r ∈ w'.db.users.rows, r.uuid = u ∧ r.enabled = false) ∧ ¬ w'.db.HasDevice u :=
    (Admin.disableUser_changes rfl rfl).answer fun _ _ h => h
  obtain ⟨⟨hinv, -⟩, ⟨row, hrow, hru, hoff⟩, hdev⟩ := hserve.of_ok hs.inv hr
  refine ⟨fun r hr hu => ?_, hdev, hru ▸ hinv.fresh.users row hrow⟩
  rw [Table.eq_of_key hr hrow (hu.trans hru.symm)]
  exact hoff

/-- No answer of the token endpoint is a session of the account. -/
theorem Locked.no_session (h : Locked u w) (hs : w.Sound anyLink)
    (hr : ((login env grantType data ip).run w).1 = .ok (.session claims refresh note)) :
    claims.sub ≠ u := by
  intro hsub
  let q : Pledge := { base := w.nextUuid, exempt := anyLink, inserts := true }
  have hlogin : q.Safe w (login env grantType data ip) _ := login_safe rfl rfl
  obtain ⟨⟨-, hn, hm⟩, hback⟩ := hlogin.of_ok ⟨hs.boundary, hs.links, hs.fresh, Nat.le_refl _⟩ hr
  have hmoved : AccountsMoved env none w.nextUuid w.db _ := .of_kept hm.accounts
  have hlocked : Locked u _ := h.moved (by simp) hn hmoved
  rw [← hsub] at hlocked
  exact hlocked.noDevice hback

theorem Locked.no_headers (h : Locked u w) (hs : w.Sound anyLink)
    (hr : ((Headers.fromRequest env caller).run w).1 = .ok headers) :
    caller.token.claims.sub ≠ u := by
  intro hsub
  have hf := hs.found hr
  exact h.noDevice ⟨headers.device, hf.device, hf.owner.trans hsub⟩

end

/-- No grant answers with a session of the account, and the guard lets none of its tokens through,
whatever the settings and the clock are. -/
def LockedOut (u : UserId) (w : World) : Prop :=
  (∀ env grantType data ip claims refresh note,
    ((login env grantType data ip).run w).1 = .ok (.session claims refresh note) → claims.sub ≠ u) ∧
  ∀ env caller headers,
    ((Headers.fromRequest env caller).run w).1 = .ok headers → caller.token.claims.sub ≠ u

def disabling (env : Env) (u : UserId) : Event := ⟨env, .admin (.disableUser u)⟩

/-- **A disabled account is locked out** as long as nobody switches it on again, whatever else the
run does. -/
theorem disableUser_locks_out (faults : List Bool) (before after : List Event) (env : Env)
    (u : UserId)
    (hdisable : ∃ r, ((disabling env u).prog.run ((World.initial faults).after before)).1 = .ok r)
    (hno : ∀ e ∈ after, e.request ≠ .admin (.enableUser u)) :
    LockedOut u ((World.initial faults).after (before ++ disabling env u :: after)) := by
  have hs : ((World.initial faults).after before).Sound anyLink := World.sound_initial.run before
  obtain ⟨r, hr⟩ := hdisable
  have hlocked : Locked u ((disabling env u).prog.after ((World.initial faults).after before)) :=
    Locked.of_disableUser hs hr
  have hs' := (hs.step (disabling env u) fun _ _ _ => trivial).1
  have hend := hlocked.run hs' hno
  have hsend := hs'.run after
  rw [World.after_append, World.after_cons]
  refine ⟨?_, ?_⟩
  · intro env grantType data ip claims refresh note h
    exact hend.no_session hsend h
  · intro env caller headers h
    exact hend.no_headers hsend h

/-- A stub is invited and disabled, and what happens to other accounts does not matter. -/
theorem disableUser_locks_out_stub :
    LockedOut ⟨0⟩ ((World.initial []).after
      ([⟨{}, .admin (.inviteUser "a@example.com")⟩] ++
        disabling {} ⟨0⟩ :: [⟨{}, .admin (.enableUser ⟨1⟩)⟩])) :=
  disableUser_locks_out [] _ _ {} ⟨0⟩ ⟨none, rfl⟩ (by simp)

end VaultServer
