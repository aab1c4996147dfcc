import VaultServer.Invariants.Requests

/-!
# Runs

The invariants hold in every state that a run of requests reaches from an empty database, and so
does whatever a request cannot undo.
-/

namespace VaultServer

open Lib

/-- What a request may do when nothing about it is known. -/
def Pledge.any (exempt : CipherId → OrganizationId → Prop) (base : Nat) : Pledge where
  base := base
  exempt := exempt
  stores _ := True
  grants := true
  inserts := true
  deletes := true
  dropsUsers := true
  dropsDevices := true

theorem Pledge.any_free {exempt base} : (Pledge.any exempt base).Free :=
  ⟨⟨fun _ => trivial, rfl, rfl⟩, rfl, rfl, rfl⟩

/-- The invariants between requests. -/
structure World.Sound (exempt : CipherId → OrganizationId → Prop) (w : World) : Prop where
  boundary : OrgBoundary w.db
  links : LinksKept exempt w.db
  fresh : Fresh w.nextUuid w.db

theorem World.sound_initial {exempt faults} : (World.initial faults).Sound exempt where
  boundary := ⟨fun _ h => (nomatch h), fun _ h => (nomatch h), fun _ h => (nomatch h)⟩
  links _ h := nomatch h
  fresh := ⟨fun _ h => (nomatch h), fun _ h => (nomatch h), fun _ h => (nomatch h),
    fun _ h => (nomatch h), fun _ h => (nomatch h)⟩

section
variable {exempt : CipherId → OrganizationId → Prop} {w : World}

theorem World.Sound.inv (h : w.Sound exempt) : (Pledge.any exempt w.nextUuid).Inv w :=
  ⟨h.boundary, h.links, h.fresh, Nat.le_refl _⟩

theorem World.Sound.of_safe {c : Cmd α} {Q} (h : w.Sound exempt)
    (hc : (Pledge.any exempt w.nextUuid).Safe w c Q) : (c.after w).Sound exempt := by
  obtain ⟨hinv, -⟩ := hc.after h.inv
  exact ⟨hinv.boundary, hinv.links, hinv.fresh⟩

/-- What a request leaves of the state it met. -/
theorem World.Sound.step (h : w.Sound exempt) (e : Event)
    (hx : e.request.linksFirst = true → ∀ c o, exempt c o) :
    (e.prog.after w).Sound exempt ∧ w.nextUuid ≤ (e.prog.after w).nextUuid ∧
      AccountsMoved e.env (e.request.change w.db) w.nextUuid w.db (e.prog.after w).db := by
  have hserve : (Pledge.any exempt w.nextUuid).Changes e.env (e.request.change w.db) w e.prog _ :=
    Request.serve_changes Pledge.any_free hx
  obtain ⟨hinv, hn, hm⟩ := hserve.after h.inv
  exact ⟨⟨hinv.boundary, hinv.links, hinv.fresh⟩, hn, hm⟩

/-- What the guard has found when it lets a request through. -/
theorem World.Sound.found (h : w.Sound exempt)
    (hr : ((Headers.fromRequest env caller).run w).1 = .ok headers) :
    headers.Found env w caller := by
  have hguard : (Pledge.any exempt w.nextUuid).Changes env none w
      (Headers.fromRequest env caller) _ := Headers.fromRequest_changes
  exact (hguard.of_ok h.inv hr).2.2

/-- Any link may be out of place. -/
def anyLink : CipherId → OrganizationId → Prop := fun _ _ => True

theorem World.Sound.run (h : w.Sound anyLink) (run : List Event) : (w.after run).Sound anyLink :=
  World.after_induction (fun _ e hw (_ : True) => (hw.step e fun _ _ _ => trivial).1)
    (World.each_of_forall (fun _ _ => trivial) w) h

end

/-- **The organization boundary holds in every state a run reaches**, whatever the requests are and
however each of them ends. -/
theorem orgBoundary_after (faults : List Bool) (run : List Event) :
    OrgBoundary ((World.initial faults).after run).db :=
  (World.sound_initial.run run).boundary

/-- The request leaves the stamp and the lock of every account alone that it is not about. -/
def SparesOthers (w : World) (e : Event) : Prop :=
  ∀ r ∈ w.db.users.rows, ∀ r' ∈ (e.prog.after w).db.users.rows, r'.uuid = r.uuid →
    (r'.securityStamp = r.securityStamp ∧ r'.enabled = r.enabled) ∨
      ∃ c, e.request.change w.db = some (r.uuid, c)

theorem World.Sound.sparesOthers {w : World} (h : w.Sound anyLink) (e : Event) :
    SparesOthers w e := by
  intro r hr r' hr' hu
  obtain ⟨-, -, hmoved⟩ := h.step e fun _ _ _ => trivial
  obtain ⟨x, hx, hxu, hk | ⟨hon, hstamp, -⟩ | ⟨c, hc, -⟩⟩ | ⟨hnew, -⟩ := hmoved.users r' hr'
  · obtain rfl := Table.eq_of_key hx hr (hxu.trans hu)
    exact .inl ⟨hk.2.1, hk.1⟩
  · obtain rfl := Table.eq_of_key hx hr (hxu.trans hu)
    exact .inl ⟨hstamp, hon⟩
  · exact .inr ⟨c, hu ▸ hxu ▸ hc⟩
  · rw [hu] at hnew
    exact absurd (h.fresh.users r hr) (Nat.not_lt.2 hnew)

/-- **A request ends the sessions of no account but the one it is about**, along every run. -/
theorem sparesOthers_along (faults : List Bool) (run : List Event) :
    (World.initial faults).Each SparesOthers run := by
  induction run using List.reverseRecOn with
  | nil => trivial
  | append_singleton run e ih =>
    exact World.each_append_singleton.2 ⟨ih, (World.sound_initial.run run).sparesOthers e⟩

end VaultServer
