import VaultServer.Effects.Statements

/-!
# What the vault requests write

No request on vault items touches an account, a membership or a policy. Emptying a vault may be
confirmed with a code, which is kept among the second factors.
-/

namespace VaultServer

open Lib

variable {data : CipherData} {c : CipherId}

variable {env : Env} {S : List Part} {me : UserId} {request : VaultRequest}

/-! ## Checks -/

/-- A guess at a code touches the row of the code. -/
theorem validateProtectedActionOtp_writes :
    Writes [.twofactor] (validateProtectedActionOtp env otp u b) := by
  refine .bind (.read rfl fun _ ht => Option.some.inj ht ▸ List.mem_cons_self) fun found => ?_
  split
  · exact .err
  · refine .seq .lift <| .check ?_
    refine .ite (.seq TwoFactor.delete_writes .err) (.ite ?_ (.when TwoFactor.delete_writes))
    exact .seq TwoFactor.save_writes .err

theorem PasswordOrOtpData.validate_writes {data : PasswordOrOtpData} :
    Writes [.twofactor] (data.validate env u b) := by
  unfold PasswordOrOtpData.validate
  split
  · exact .ensure
  · exact validateProtectedActionOtp_writes
  · exact .err

theorem validateCipherData_writes : Writes S (validateCipherData cfg ciphers) := by
  unfold validateCipherData
  split
  · exact .ret
  · exact .fail

theorem enforcePersonalOwnershipPolicy_writes {data} :
    Writes S (enforcePersonalOwnershipPolicy data me) :=
  .ite (.seq .query .ensure) .ret

theorem checkUpdate_writes {c ut} : Writes S (checkUpdate env c data me ut) :=
  .seq enforcePersonalOwnershipPolicy_writes <| .check <| .check .ensure

theorem chooseOwner_writes {c o cols} : Writes S (chooseOwner env c o me cols) := by
  unfold chooseOwner
  split
  · exact .ret
  · refine .maybe .query .err ?_
    exact .seq .query <| .check .ret

theorem checkFolder_writes : Writes S (checkFolder f me) := by
  cases f with
  | none => exact .ret
  | some => exact .seq .query .ensure

theorem Cipher.toJson_writes {c : Cipher} : Writes S c.toJson :=
  .seq .query <| .seq (.each fun _ => .external) <| .seq .lift .ret

/-! ## Writing a cipher -/

theorem updateAttachments_writes : Writes [.attachments] (updateAttachments c xs) := by
  induction xs with
  | nil => exact .ret
  | cons a xs ih =>
    refine .bind .query fun found => ?_
    cases found with
    | none => exact ih
    | some => exact .ite .ret (.seq Attachment.save_writes ih)

theorem writeUserMarks_writes {c} :
    Writes [.foldersCiphers, .favorites, .archives] (writeUserMarks env c data me) := by
  refine .past Cipher.moveToFolder_writes rfl ?_
  refine .bind (Cipher.setFavorite_writes.mono rfl) fun _ => ?_
  cases data.archivedDate.bind env.parseDate with
  | none => exact .ret
  | some => exact Archive.save_writes.mono rfl

/-- The tables an update of a cipher writes: not its links. -/
def updateParts : List Part := [.ciphers, .foldersCiphers, .favorites, .archives, .attachments]

theorem updateCipherFromData_writes {c cols ut} :
    Writes updateParts (updateCipherFromData env c data me cols ut) := by
  refine .seq checkUpdate_writes <| .seq chooseOwner_writes ?_
  refine .seq checkFolder_writes <| .past updateAttachments_writes rfl ?_
  refine .seq .lift <| .past Cipher.save_writes rfl ?_
  refine .past writeUserMarks_writes rfl ?_
  exact .seq (.when Cipher.updateUsersRevision_writes) .ret

/-! ## Requests -/

theorem linkShared_writes : Writes [.ciphersCollections] (linkShared env c o me shared k) := by
  refine .maybe .query .err ?_
  exact .seq .query <| .check <| .seq CollectionCipher.save_writes .ret

theorem linkAllShared_writes {data} :
    Writes [.ciphersCollections] (linkAllShared env c me data) := by
  unfold linkAllShared
  split
  · exact .ret
  · exact .foldl fun _ _ => linkShared_writes

/-- The tables sharing a cipher writes. -/
def vaultParts : List Part := .folders :: .twofactor :: cipherParts

theorem shareCipherByUuid_writes {data ut} :
    Writes cipherParts (shareCipherByUuid env c data me ut) := by
  refine .maybe .query .err ?_
  refine .seq .query <| .check <| .check ?_
  refine .past linkAllShared_writes rfl ?_
  exact .past updateCipherFromData_writes rfl Cipher.toJson_writes

theorem postCiphersCreate_writes {data} : Writes cipherParts (postCiphersCreate env data me) := by
  refine .seq enforcePersonalOwnershipPolicy_writes <| .seq .getUuid ?_
  refine .past Cipher.save_writes rfl ?_
  refine .bind (.catchErr shareCipherByUuid_writes) fun r => ?_
  split
  · exact .ret
  · exact .seq Cipher.delete_writes .fail

theorem importFolder_writes : Writes [.folders] (importFolder env existing me folders f) := by
  unfold importFolder
  split
  · exact .ret
  · exact .seq .getUuid <| .seq Folder.save_writes .ret

theorem postCiphersImport_writes {data} : Writes vaultParts (postCiphersImport env data me) := by
  refine .seq enforcePersonalOwnershipPolicy_writes ?_
  refine .seq validateCipherData_writes <| .seq .query ?_
  refine .seq (.foldl fun _ _ => (importFolder_writes.mono rfl)) ?_
  refine .seq (.each fun item => .seq .getUuid ?_) ?_
  · exact .past updateCipherFromData_writes rfl .ret
  · exact User.updateRevision_writes.mono rfl

theorem putCipher_writes : Writes updateParts (putCipher env c data me) := by
  refine .maybe (.read rfl fun _ h => Option.some.inj h ▸ .head _) .err ?_
  refine .seq .query <| .check ?_
  exact .seq updateCipherFromData_writes Cipher.toJson_writes

theorem putCipherPartial_writes :
    Writes [.foldersCiphers, .favorites] (putCipherPartial env c f b me) := by
  refine .maybe .query .err ?_
  refine .seq .query <| .check <| .seq checkFolder_writes ?_
  refine .past Cipher.moveToFolder_writes rfl ?_
  exact .past Cipher.setFavorite_writes rfl Cipher.toJson_writes

theorem updateCollections_writes :
    Writes [.ciphersCollections] (updateCollections env c posted me current) := by
  refine .maybe .query .err ?_
  refine .seq .query <| .check ?_
  split
  · exact .err
  · refine .seq .query <| .seq (.each fun k => .bind .query fun found => ?_) <|
      .seq Cipher.updateUsersRevision_writes Cipher.toJson_writes
    split
    · exact .err
    · exact .seq .query <|
        .ite (.ite CollectionCipher.save_writes CollectionCipher.delete_writes) .err

theorem deleteCipherByUuid_writes : Writes cipherParts (deleteCipherByUuid env me options c) := by
  refine .maybe .query .err ?_
  refine .seq .query <| .check <| .ite ?_ ?_
  · exact .past Cipher.save_writes rfl <| .when Cipher.updateUsersRevision_writes
  · exact .seq Cipher.delete_writes <| .when Cipher.updateUsersRevision_writes

theorem restoreCipherByUuid_writes : Writes [.ciphers] (restoreCipherByUuid env me multi c) := by
  refine .maybe .query .err ?_
  refine .seq .query <| .check <| .seq Cipher.save_writes ?_
  exact .seq (.when Cipher.updateUsersRevision_writes) Cipher.toJson_writes

theorem setArchived_writes : Writes [.archives] (setArchived env me archived multi c) := by
  refine .maybe .query .err ?_
  refine .seq .query <| .check ?_
  split
  · exact .seq Archive.save_writes <|
      .seq (.when Cipher.updateUsersRevision_writes) Cipher.toJson_writes
  · exact .seq Archive.deleteByCipher_writes <|
      .seq (.when Cipher.updateUsersRevision_writes) Cipher.toJson_writes

theorem postBulkCollections_writes {data} :
    Writes [.ciphersCollections] (postBulkCollections env data me) := by
  refine .seq .query <| .check <| .seq ?_ <| .each fun c => ?_
  · refine .bind .query fun listed => .each fun k => ?_
    split
    · exact .err
    · exact .seq .query .ensure
  · refine .bind .query fun found => ?_
    split
    · exact .ret
    · refine .seq .query <| .ite (.each fun k => ?_) .ret
      exact .ite CollectionCipher.delete_writes CollectionCipher.save_writes

/-! ## Attachments -/

theorem ownerSizeLimit_writes {S limit used n} : Writes S (ownerSizeLimit limit used n) := by
  unfold ownerSizeLimit
  split
  · exact .ret
  · refine .check <| .bind .query fun _ => ?_
    split
    · exact .err
    · exact .check .ret

theorem attachmentSizeLimit_writes {S c n} : Writes S (attachmentSizeLimit env c n) := by
  unfold attachmentSizeLimit
  split
  · exact ownerSizeLimit_writes
  · exact ownerSizeLimit_writes
  · exact .err

theorem storeAttachment_writes {a data} : Writes [.attachments] (storeAttachment a c data) := by
  unfold storeAttachment
  split
  · unfold adjustAttachment
    split
    · exact .err
    · split
      · exact .err
      · exact .ite (.when (.expectOk Attachment.save_writes))
          (.seq (.catchErr Attachment.delete_writes) .err)
  · refine .bind .getUuid fun _ => ?_
    unfold createAttachment
    split
    · exact .err
    · exact .check <| .expectOk Attachment.save_writes

theorem saveAttachment_writes {a data} :
    Writes [.attachments] (saveAttachment env a c data me) := by
  refine .check <| .check <| .maybe .query .err ?_
  refine .seq .query <| .check <| .seq attachmentSizeLimit_writes ?_
  refine .check <| .seq storeAttachment_writes <| .seq .external ?_
  exact .seq Cipher.updateUsersRevision_writes .ret

theorem postAttachmentV2_writes {data} :
    Writes [.attachments] (postAttachmentV2 env c data me) := by
  refine .maybe .query .err ?_
  refine .seq .query <| .check <| .seq .lift <| .check ?_
  exact .seq .getUuid <| .seq (.expectOk Attachment.save_writes) Cipher.toJson_writes

theorem postAttachmentV2Data_writes {id data} :
    Writes [.attachments] (postAttachmentV2Data env c id data me) := by
  refine .maybe .query .err ?_
  exact .check <| .seq saveAttachment_writes .ret

theorem postAttachment_writes {data} : Writes [.attachments] (postAttachment env c data me) :=
  .seq saveAttachment_writes Cipher.toJson_writes

theorem deleteCipherAttachmentById_writes {id} :
    Writes [.attachments] (deleteCipherAttachmentById env c id me) := by
  refine .maybe .query .err ?_
  refine .check <| .maybe .query .err ?_
  refine .seq .query <| .check <| .seq Attachment.delete_writes ?_
  exact .seq Cipher.updateUsersRevision_writes Cipher.toJson_writes

/-- The requests that write no other table of the model. -/
def VaultRequest.onAttachments : VaultRequest → Bool
  | postAttachmentV2 .. | postAttachmentV2Data .. | postAttachment .. | postAttachmentShare ..
  | deleteAttachment .. => true
  | _ => false

theorem VaultRequest.handle_attachments
    (h : request.onAttachments = true) : Writes [.attachments] (request.handle env u) := by
  cases request with
  | postAttachmentV2 => exact postAttachmentV2_writes
  | postAttachmentV2Data => exact postAttachmentV2Data_writes
  | postAttachment => exact postAttachment_writes
  | postAttachmentShare =>
    exact .seq deleteCipherAttachmentById_writes postAttachment_writes
  | deleteAttachment => exact deleteCipherAttachmentById_writes
  | _ => cases h

theorem VaultRequest.handle_writes : Writes vaultParts (request.handle env u) := by
  cases request with
  | postCipherShare => exact shareCipherByUuid_writes.mono rfl
  | putCipherShareSelected =>
    refine .check <| .check <| .check <| .each fun d => ?_
    unfold shareSelected
    split
    · exact .err
    · exact shareCipherByUuid_writes.mono rfl
  | postCiphersCreate => exact postCiphersCreate_writes.mono rfl
  | postCiphers =>
    exact .seq .getUuid <| .past updateCipherFromData_writes rfl Cipher.toJson_writes
  | postCiphersImport => exact postCiphersImport_writes
  | putCipher => exact putCipher_writes.mono rfl
  | putCipherPartial => exact putCipherPartial_writes.mono rfl
  | postCollectionsUpdate => exact updateCollections_writes.mono rfl
  | postCollectionsAdmin => exact updateCollections_writes.mono rfl
  | deleteCipher => exact deleteCipherByUuid_writes.mono rfl
  | deleteMultipleCiphers => exact .each fun _ => deleteCipherByUuid_writes.mono rfl
  | restoreCipher => exact restoreCipherByUuid_writes.mono rfl
  | restoreMultipleCiphers => exact .each fun _ => restoreCipherByUuid_writes.mono rfl
  | moveCipherSelected =>
    refine .seq checkFolder_writes <| .seq .query ?_
    exact .seq (.each fun _ => (Cipher.moveToFolder_writes.mono rfl)) .ensure
  | setArchived => exact setArchived_writes.mono rfl
  | purgeOrgVault =>
    exact .past PasswordOrOtpData.validate_writes rfl <| .seq .query <|
      .check <| Cipher.deleteAllByOrganization_writes.mono rfl
  | purgePersonalVault =>
    refine .past PasswordOrOtpData.validate_writes rfl <| .seq .query ?_
    refine .seq (.each fun _ => (Cipher.delete_writes.mono rfl)) <| .seq .query ?_
    exact .seq (.each fun _ => (Folder.delete_writes.mono rfl)) <|
      User.updateRevision_writes.mono rfl
  | postBulkCollections => exact postBulkCollections_writes.mono rfl
  | postAttachmentV2 => exact (handle_attachments rfl).mono rfl
  | postAttachmentV2Data => exact (handle_attachments rfl).mono rfl
  | postAttachment => exact (handle_attachments rfl).mono rfl
  | postAttachmentShare => exact (handle_attachments rfl).mono rfl
  | deleteAttachment => exact (handle_attachments rfl).mono rfl

end VaultServer
