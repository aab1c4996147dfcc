import VaultServer.Effects.Faults
import VaultServer.Effects.Requests

/-!
# The providers of a second factor

What is stored of a provider against what its owner was told. Enrolling an authenticator checks the
code against the new secret and then writes back the row that was there.
-/

namespace VaultServer

open Lib Table

variable {env : Env} {w : World} {u : UserId}

theorem TwoFactorType.toI32_inj {s t : TwoFactorType} : s.toI32 = t.toI32 ↔ s = t := by
  cases s <;> cases t <;> decide

/-- A user has one row of each type. -/
theorem TwoFactor.findByUserAndType_eq_some {db : Db} {t : TwoFactorType} {tf : TwoFactor} :
    findByUserAndType db u t.toI32 = some tf ↔
      tf ∈ db.twofactor.rows ∧ tf.userUuid = u ∧ tf.atype = t := by
  constructor
  · intro h
    obtain ⟨hmem, hp⟩ := mem_of_find? h
    exact ⟨hmem, by simpa [TwoFactorType.toI32_inj] using hp⟩
  · rintro ⟨hmem, rfl, rfl⟩
    refine find?_eq_some_of_unique hmem (by simp) fun x hx hp => ?_
    obtain ⟨hu, ht⟩ := of_decide_eq_true hp
    exact eq_of_uniq hx hmem (Prod.ext hu (TwoFactorType.toI32_inj.1 ht))

/-! ## The authenticator -/

/-- What the authenticator of the user is checked against. -/
def storedSecret (db : Db) (u : UserId) : Option TwoFactorData :=
  (TwoFactor.findByUserAndType db u TwoFactorType.authenticator.toI32).map fun tf => tf.data

theorem storedSecret_eq_some : storedSecret db u = some d ↔
    ∃ tf ∈ db.twofactor.rows, tf.userUuid = u ∧ tf.atype = .authenticator ∧ tf.data = d := by
  simp only [storedSecret, Option.map_eq_some_iff, TwoFactor.findByUserAndType_eq_some, and_assoc]

/-- A confirmation may use up its code, and touches no other row. -/
theorem PasswordOrOtpData.validate_yields {data : PasswordOrOtpData} {user : User} :
    Yields w (data.validate env user b) fun _ w' => storedSecret w'.db u = storedSecret w.db u := by
  have hstop : ∀ {c : Cmd Unit} {message Q}, Yields w (c >>= fun _ => (err message : Cmd Unit)) Q :=
    Prog.Yields.bind (Q := ⊤) (fun _ _ => trivial) fun _ _ => Yields.err
  unfold PasswordOrOtpData.validate
  split
  · exact .ensure_last fun _ => rfl
  · refine .found .err fun pa hpa => .lift fun _ _ => .ensure fun _ => ?_
    obtain ⟨hmem, -, htype⟩ := TwoFactor.findByUserAndType_eq_some.1 hpa
    split
    · exact hstop
    · split
      · exact hstop
      · cases b with
        | false => exact .ret rfl
        | true =>
          refine Yields.exec.mono fun _ w' hs => Option.ext fun d => ?_
          rw [storedSecret_eq_some, storedSecret_eq_some, ← Option.some.inj hs]
          refine exists_congr fun tf => ?_
          rw [mem_deleteWhere, and_assoc]
          refine and_congr_right fun htf => and_iff_right_of_imp fun h => decide_eq_false ?_
          -- the row that goes is of another type
          intro hid
          rw [eq_of_key htf hmem hid, htype] at h
          cases h.2.1
  · exact .err

/-- The secret is stored only where there was none. -/
theorem validateTotpCode_yields : Yields w (validateTotpCode env u code secret ip) fun _ w' =>
      storedSecret w'.db u = some ((storedSecret w.db u).getD (.text secret)) := by
  have hrow : Yields w (authenticatorRow u secret) fun tf _ =>
      tf.userUuid = u ∧ tf.atype = .authenticator ∧
        tf.data = (storedSecret w.db u).getD (.text secret) := by
    refine .read ?_
    unfold storedSecret
    cases h : TwoFactor.findByUserAndType w.db u TwoFactorType.authenticator.toI32 with
    | none => exact Yields.getUuid (.ret ⟨rfl, rfl, rfl⟩)
    | some => exact .ret ⟨(TwoFactor.findByUserAndType_eq_some.1 h).2.1,
        (TwoFactor.findByUserAndType_eq_some.1 h).2.2, rfl⟩
  unfold validateTotpCode
  split
  · exact .err
  · refine hrow.bind fun tf ⟨hu, ht, hdata⟩ => ?_
    split
    · exact Yields.err
    · split
      · refine Yields.exec.mono fun _ w' hs => storedSecret_eq_some.2 ?_
        obtain ⟨-, hw'⟩ := Db.guarded_eq_some hs
        rw [hw']
        exact ⟨_, mem_replace.2 (.inl rfl), hu, ht, hdata⟩
      · exact Yields.err

/-- **The secret that was confirmed is the one that is stored exactly if there was no other.** -/
theorem activateAuthenticator_stores_iff {data : EnableAuthenticatorData} {ip : String}
    {headers : Headers} (hok : ((activateAuthenticator env data ip headers).run w).1 = .ok ()) :
    storedSecret ((activateAuthenticator env data ip headers).after w).db headers.user.uuid =
      some (.text (env.toUppercase data.key)) ↔
    ∀ d, storedSecret w.db headers.user.uuid = some d → d = .text (env.toUppercase data.key) := by
  have hyields : Yields w (activateAuthenticator env data ip headers) fun _ w' =>
      storedSecret w'.db headers.user.uuid =
        some ((storedSecret w.db headers.user.uuid).getD (.text (env.toUppercase data.key))) := by
    refine Prog.Yields.bind (PasswordOrOtpData.validate_yields (u := headers.user.uuid)) ?_
    intro _ hsame
    rw [← hsame]
    split
    · exact Yields.err
    · refine Yields.ensure fun _ => validateTotpCode_yields.bind fun _ h => fun _ _ => ?_
      generalize (validateTotpCode env _ _ _ _).after _ = w2 at h ⊢
      have htable : ((generateRecoverCode env headers.user).after w2).db.twofactor =
          w2.db.twofactor := generateRecoverCode_writes.after (t := .twofactor) (by decide) w2
      rw [storedSecret, TwoFactor.findByUserAndType, htable]
      exact h
  rw [hyields () hok]
  cases storedSecret w.db headers.user.uuid <;> simp

namespace Providers

def user : User := { User.new {} 1 6 7 "a@example.com" none with passwordHash := "hash" }

/-- User 1 with these second factors. -/
def world (rows : Table TwoFactor.uuid TwoFactor.userType) : World :=
  ⟨{ Db.empty with users := .ofRows [user], twofactor := rows }, 9, [], [], []⟩

def oldKey : String := "JBSWY3DPEHPK3PXPJBSWY3DPEHPK3PXP"

def newKey : String := "GEZDGNBVGY3TQOJQGEZDGNBVGY3TQOJQ"

/-- The codes of the first half minutes for the new key. -/
def clock : Env :=
  { now := 59, totpCustom := fun _ time => ["755224", "287082", "359152"].getD (time.toNat / 30) "" }

def enrol : Cmd Unit := activateAuthenticator clock ⟨newKey, "287082", ⟨some "hash", none⟩⟩ "ip"
  ⟨⟨⟨8⟩, ⟨1⟩, 0, 0, "browser", 9, none, none, 10, none⟩, user⟩

end Providers

open Providers in
theorem activateAuthenticator_stores_iff_first :
    (enrol.run (world .empty)).1 = .ok () ∧
      storedSecret (enrol.after (world .empty)).db ⟨1⟩ = some (.text newKey) := by
  have hok : (enrol.run (world .empty)).1 = .ok () := by decide +kernel
  have hupper : clock.toUppercase newKey = newKey := by decide +kernel
  refine ⟨hok, ?_⟩
  rw [← hupper]
  exact (activateAuthenticator_stores_iff hok).2 nofun

open Providers in
/-- **The secret that was confirmed is not the one that codes are checked against.** -/
theorem activateAuthenticator_keeps_old :
    let before := world ⟨[.new 3 ⟨1⟩ .authenticator (.text oldKey)], by decide, by decide⟩
    (enrol.run before).1 = .ok () ∧
      storedSecret (enrol.after before).db ⟨1⟩ = some (.text oldKey) ∧ oldKey ≠ newKey := by
  decide +kernel

end VaultServer
