import VaultServer.Invariants.Accounts

/-!
# Second factors under a pledge

The rows of the second factors are outside the invariants; what the handlers write besides is the
recovery code, in the copy of the account they were given, and the memberships that the policy takes
away.
-/

namespace VaultServer

open Lib

variable {env : Env} {p : Pledge} {w w' : World}

/-! ## Programs that use a copy of an account -/

/-- The program keeps every pledge where the account is stored as the copy shows it. -/
def Holding {α : Type} (u : User) (c : Cmd α) : Prop :=
  ∀ (p : Pledge) (w : World), w.db.HoldsUser u → p.Safe w c fun _ _ => True

section
variable {α β : Type} {u : User} {c : Cmd α} {k : α → Cmd β}

theorem Quiet.holding (h : Quiet c) : Holding u c := fun p w _ => h p w

theorem Holding.after (hc : Quiet c) (hk : ∀ a, Holding u (k a)) : Holding u (c >>= k) :=
  fun p _ hu => .bind hc.calm fun a w' _ _ h => hk a p w' (hu.later h.2 rfl rfl)

end

/-! ## The policy and the recovery code -/

theorem enforce2faPolicy_quiet {u} : Quiet (enforce2faPolicy env u) := by
  refine .of_calm fun p w => .query (.each fun m hm w1 _ h1 => ?_)
  have hm : m ∈ w.db.usersOrganizations.rows := by
    obtain ⟨m', hm', _, -, -, rfl⟩ := mem_innerJoin.1 (List.mem_filter.1 hm).1
    exact hm'
  split
  · refine .bind (Quiet.calm (Quiet.when (.bind .query fun _ => .bind .unwrap
      fun _ => .external))) fun _ w2 _ _ h2 => ?_
    exact Membership.save_safe_of_sameRow
      (((Db.MembershipOf.of_mem hm).mono (h1.2.keeps rfl)).mono (h2.2.keeps rfl))
      Membership.sameRow_revoke_getD
  · exact .ret trivial

theorem enforceIfNoneLeft_quiet {u} : Quiet (enforceIfNoneLeft env u) :=
  .bind .query fun _ => .when enforce2faPolicy_quiet

theorem generateRecoverCode_holding {u} : Holding u (generateRecoverCode env u) := by
  unfold generateRecoverCode
  split
  · refine .after .getUuid fun code p w hu => ?_
    refine .andThen (Prog.Ends.attempt (User.save_safe ?_)) fun _ _ _ _ =>
      Prog.Safe.ret trivial
    exact hu.copy rfl ⟨rfl, rfl, rfl⟩
  · exact Quiet.ret.holding

/-! ## The checks of a login -/

/-! ## Enrolling and removing -/

section
variable {headers : Headers} {data : PasswordOrOtpData}

theorem disableTwofactor_quiet : Quiet (disableTwofactor env data type headers) := by
  refine .bind (PasswordOrOtpData.validate_writes.quiet rfl) fun _ => .bind .query fun found => ?_
  split
  · exact .bind (TwoFactor.delete_writes.quiet rfl) fun _ => enforceIfNoneLeft_quiet
  · exact enforceIfNoneLeft_quiet

theorem verifyEmail_holding : Holding headers.user (verifyEmail env token data headers) := by
  refine .after (PasswordOrOtpData.validate_writes.quiet rfl) fun _ => .after .query fun found => ?_
  split
  · exact Quiet.err.holding
  · refine .after .lift fun _ => .after .ensure fun _ => .after .ensure fun _ => ?_
    exact .after (TwoFactor.save_writes.quiet rfl) fun _ => generateRecoverCode_holding

theorem activateAuthenticator_holding {data ip} :
    Holding headers.user (activateAuthenticator env data ip headers) := by
  refine .after (PasswordOrOtpData.validate_writes.quiet rfl) fun _ => ?_
  split
  · exact Quiet.err.holding
  · refine .after .ensure fun _ => .after (validateTotpCode_writes.quiet rfl) fun _ => ?_
    exact generateRecoverCode_holding

theorem disableAuthenticator_quiet {data} : Quiet (disableAuthenticator env data headers) := by
  refine .bind .ensure fun _ => .bind .query fun found => ?_
  split
  · exact enforceIfNoneLeft_quiet
  · refine .bind .ensure fun _ => .bind (TwoFactor.delete_writes.quiet rfl) fun _ => ?_
    exact enforceIfNoneLeft_quiet

theorem activateYubikey_holding {data} :
    Holding headers.user (activateYubikey env data headers) := by
  have hrow : Quiet (yubikeyRow headers.user.uuid) := by
    refine .bind .query fun found => ?_
    split
    · exact .ret
    · exact .bind .getUuid fun _ => .ret
  refine .after (PasswordOrOtpData.validate_writes.quiet rfl) fun _ => .after hrow fun tf => ?_
  refine .after .ensure fun _ => ?_
  refine .after (.each fun _ _ => .when verifyYubikeyOtp_writes.silent) fun _ => ?_
  exact .after (TwoFactor.save_writes.quiet rfl) fun _ => generateRecoverCode_holding

theorem activateDuo_holding {data} : Holding headers.user (activateDuo env data headers) := by
  refine .after (PasswordOrOtpData.validate_writes.quiet rfl) fun _ => .after ?_ fun stored => ?_
  · exact .ite (.bind .external fun _ => .ret) .ret
  · refine .after .getUuid fun _ => .after (TwoFactor.save_writes.quiet rfl) fun _ => ?_
    exact generateRecoverCode_holding

theorem activateWebauthn_holding {data} :
    Holding headers.user (activateWebauthn env data headers) := by
  refine .after (PasswordOrOtpData.validate_writes.quiet rfl) fun _ => ?_
  refine .after (takeChallenge_writes.quiet rfl) fun state => ?_
  split
  · exact Quiet.err.holding
  · refine .after getWebauthnRegistrations_writes.silent fun _ => ?_
    exact .after (saveRegistrations_writes.quiet rfl) fun _ => generateRecoverCode_holding

theorem TwoFactorRequest.handle_holding {request : TwoFactorRequest} :
    Holding headers.user (request.handle env headers) := by
  cases request with
  | disableTwofactor => exact disableTwofactor_quiet.holding
  | sendEmail => exact (sendEmail_writes.quiet rfl).holding
  | verifyEmail => exact verifyEmail_holding
  | activateAuthenticator => exact activateAuthenticator_holding
  | disableAuthenticator => exact disableAuthenticator_quiet.holding
  | activateYubikey => exact activateYubikey_holding
  | activateDuo => exact activateDuo_holding
  | generateWebauthnChallenge => exact (generateWebauthnChallenge_writes.quiet rfl).holding
  | activateWebauthn => exact activateWebauthn_holding
  | deleteWebauthn => exact (deleteWebauthn_writes.quiet rfl).holding
  | showSettings => exact (SettingsPage.show_writes.quiet rfl).holding
  | requestOtp => exact (requestOtp_writes.quiet rfl).holding
  | verifyOtp => exact (verifyOtp_writes.quiet rfl).holding

end

end VaultServer
