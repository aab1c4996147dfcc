import VaultServer.Security.Passwords

/-!
# Addresses

Accounts are looked up by the lower-cased address, so an account is found by its address only if the
address was stored in lower case. A new account is made with the lower-cased address, and a handler
that saves a copy leaves the address of the copy alone; the one handler that stores an address as it
was sent is the change of the address.
-/

namespace VaultServer

open Lib Table List

variable {u : User}

/-- The address is its own lower-casing. -/
def User.Lower (u : User) : Prop := toLowercase u.email = u.email

def Lowercased (w : World) : Prop := ∀ u ∈ w.db.users.rows, u.Lower

theorem User.Lower.copy {u' : User} (h : u.Lower) (he : u'.email = u.email) : u'.Lower := by
  unfold User.Lower
  rw [he]
  exact h

/-! ## What lower-case addresses are good for -/

/-- **An account is found under every spelling of its address.** -/
theorem Lowercased.findByMail (hw : Lowercased w) (hu : u ∈ w.db.users.rows)
    (hm : toLowercase mail = toLowercase u.email) : User.findByMail w.db mail = some u := by
  have hmail : toLowercase mail = u.email := hm.trans (hw u hu)
  refine find?_eq_some_of_unique hu (by simp [hmail]) fun v hv hvm => ?_
  have he : v.email = u.email := (of_decide_eq_true hvm).trans hmail
  exact eq_of_uniq hv hu he

/-- No two accounts have addresses that differ only in case. -/
theorem Lowercased.eq_of_email (hw : Lowercased w)
    (hu : u ∈ w.db.users.rows) (hv : v ∈ w.db.users.rows)
    (h : toLowercase u.email = toLowercase v.email) : u = v := by
  have he : u.email = v.email := by rw [← hw u hu, ← hw v hv, h]
  exact eq_of_uniq hu hv he

/-! ## Runs -/

/-- The request does not move an account to an address in mixed case. -/
def Request.lowercase : Request → Bool
  | account _ (.postEmail data) => toLowercase data.newEmail = data.newEmail
  | _ => true

/-- **A request that moves no account to an address in mixed case keeps the addresses in lower
case.** -/
theorem Lowercased.step (hw : Lowercased w) (hfresh : ∀ u ∈ w.db.users.rows, u.uuid.val < w.nextUuid)
    {e : Event} (he : e.request.lowercase = true) : Lowercased (e.prog.after w) := by
  have hstored : ∀ {row : User}, (∃ old ∈ w.db.users.rows, old.email = row.email) → row.Lower := by
    rintro row ⟨old, hold, hmail⟩
    exact (hw old hold).copy hmail.symm
  intro u hu
  obtain ⟨env, request⟩ := e
  obtain (⟨old, hold, hid⟩ | ⟨-, -, hlow⟩) | ⟨-, hmail⟩ := (request.serve_leaves hfresh).2 u hu
  · exact (hw old hold).copy (congrArg (fun i => i.2.1) hid).symm
  · exact hlow
  · unfold Request.Addresses at hmail
    split at hmail
    · next data _ =>
      have hlow : u.email = toLowercase data.email := hmail
      rw [User.Lower, hlow, toLowercase_toLowercase]
    · -- the new address is stored as it was sent
      have hsent : u.email = _ := hmail
      rw [User.Lower, hsent]
      exact of_decide_eq_true he
    · exact hstored hmail

/-- Every account is found under its address, however that is spelled. -/
structure ReachableByMail (w : World) : Prop where
  lower : Lowercased w
  found : ∀ u ∈ w.db.users.rows, ∀ mail, toLowercase mail = toLowercase u.email →
    User.findByMail w.db mail = some u
  distinct : ∀ u ∈ w.db.users.rows, ∀ v ∈ w.db.users.rows,
    toLowercase u.email = toLowercase v.email → u = v

/-- **In a run that changes addresses only to lower-case ones, every account stays reachable by
mail**: whatever the requests are and however they end. -/
theorem reachableByMail_after (faults : List Bool) (run : List Event)
    (hlow : ∀ e ∈ run, e.request.lowercase = true) :
    ReachableByMail ((World.initial faults).after run) := by
  have hlower : Lowercased ((World.initial faults).after run) := by
    induction run using reverseRecOn with
    | nil => exact fun _ hu => (nomatch hu)
    | append_singleton run e ih =>
      have hsound : ((World.initial faults).after run).Sound anyLink := World.sound_initial.run run
      rw [World.after_append]
      exact (ih fun x hx => hlow x (mem_append_left _ hx)).step hsound.fresh.users
        (hlow e (mem_append_right _ mem_cons_self))
  exact ⟨hlower, fun u hu mail hm => hlower.findByMail hu hm,
    fun u hu v hv h => hlower.eq_of_email hu hv h⟩

namespace Addresses

/-- An account signs up, signs in and moves to another address. -/
def move (mail : String) : List Event :=
  [⟨{}, Client.signUp "A@example.com"⟩, ⟨{}, Client.signIn "A@example.com" ⟨7⟩⟩,
    ⟨{}, .account Client.session (.postEmailToken ⟨"hash", mail⟩)⟩,
    ⟨{}, .account Client.session (.postEmail ⟨"hash", mail, "key", "hash", ""⟩)⟩]

def moved (mail : String) : World := (World.initial []).after (move mail)

end Addresses

open Addresses in
theorem reachableByMail_after_move :
    ReachableByMail (moved "b@example.com") ∧
      (moved "b@example.com").db.users.rows.map User.email = ["b@example.com"] :=
  ⟨reachableByMail_after [] (move "b@example.com") (by decide), by decide⟩

open Addresses in
/-- **An address is stored as it was sent.**  Its account is not found by it any more, and somebody
else can register the address in lower case. -/
theorem moved_to_mixed_case :
    (moved "B@example.com").db.users.rows.map User.email = ["B@example.com"] ∧
      (User.findByMail (moved "B@example.com").db "B@example.com").isNone = true ∧
      ((moved "B@example.com").after [⟨{}, Client.signUp "B@example.com"⟩]).db.users.rows.map
        User.email = ["B@example.com", "b@example.com"] ∧
      ¬ ReachableByMail (moved "B@example.com") := by
  have hnone : (User.findByMail (moved "B@example.com").db "B@example.com").isNone = true := by
    decide
  refine ⟨by decide, hnone, by decide, fun h => ?_⟩
  have hmem : ∃ u ∈ (moved "B@example.com").db.users.rows, u.email = "B@example.com" := by decide
  obtain ⟨u, hu, he⟩ := hmem
  rw [h.found u hu "B@example.com" (by rw [he])] at hnone
  cases hnone

end VaultServer
