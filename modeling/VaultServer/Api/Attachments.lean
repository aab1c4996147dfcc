import VaultServer.Api.Ciphers
import VaultServer.Api.Sends

/-!
# Attachment requests

The handlers of `api/core/ciphers.rs` that store, replace and remove the files of a cipher. In the
newer API the row is made by one request and the file arrives with a second one; in the older API
both come together.
-/

namespace VaultServer

open Lib

structure AttachmentRequestData where
  key : String
  fileName : String
  fileSize : NumberOrString

/-- A file as it comes with a form: its name and its length are read off the upload. -/
structure UploadData where
  key : Option String
  rawName : Option String
  size : Int

variable (env : Env) (cipherId : CipherId)

def postAttachmentV2 (data : AttachmentRequestData) (me : UserId) : Cmd Unit := do
  match ← query (Cipher.findByUuid · cipherId) with
  | none => err "Cipher doesn't exist"
  | some c =>
    let writable ← query (Cipher.isWriteAccessibleToUser env.toConfig · c me)
    ensure writable "Cipher is not write accessible"
    let fileSize ← lift data.fileSize.intoI64
    ensure (0 ≤ fileSize) "Attachment size can't be negative"
    let id ← getUuid
    expectOk (Attachment.save ⟨id, c.uuid, data.fileName, fileSize, some data.key⟩)
      "Error saving attachment"
    c.toJson

/-! ## Limits -/

def checkedI64 (n : Int) : Option Int := some n |>.filter (fitsSigned 64)

/-- What the owner of the cipher may still store. `sizeAdjust` gives back what a row that was made
in advance already takes. -/
def bytesLeft (limitKb alreadyUsed sizeAdjust : Int) : Option Int := do
  let l ← checkedI64 (limitKb * 1024)
  let l ← checkedI64 (l - alreadyUsed)
  checkedI64 (l + sizeAdjust)

def ownerSizeLimit (limit : Option Int) (used : Db → Int) (sizeAdjust : Int) : Cmd (Option Int) :=
  match limit with
  | none => pure none
  | some limitKb => do
    ensure (limitKb ≠ 0) "Attachments are disabled"
    let alreadyUsed ← query used
    match bytesLeft limitKb alreadyUsed sizeAdjust with
    | none => err "Attachment size overflow"
    | some left =>
      ensure (0 < left) "Attachment storage limit reached! Delete some attachments to free up space"
      pure (some left)

def attachmentSizeLimit (c : Cipher) (sizeAdjust : Int) : Cmd (Option Int) :=
  match c.userUuid, c.organizationUuid with
  | some user, _ =>
    ownerSizeLimit env.userAttachmentLimit (Attachment.sizeByUser · user) sizeAdjust
  | none, some org =>
    ownerSizeLimit env.orgAttachmentLimit (Attachment.sizeByOrg · org) sizeAdjust
  | none, none => err "Cipher is neither owned by a user nor an organization"

/-! ## Storing the file -/

/-- 1 MiB. -/
def sizeLeeway : Int := 1024 * 1024

/-- The row was made before; a file of about another size removes it again. -/
def adjustAttachment (a : Attachment) (size : Int) : Cmd Unit :=
  match checkedI64 (a.fileSize + sizeLeeway) with
  | none => err "Invalid attachment size max"
  | some maxSize =>
    match checkedI64 (a.fileSize - sizeLeeway) with
    | none => err "Invalid attachment size min"
    | some minSize =>
      if minSize ≤ size ∧ size ≤ maxSize then
        Prog.when (size ≠ a.fileSize)
          (expectOk (Attachment.save { a with fileSize := size }) "Error updating attachment")
      else do
        let _ ← catchErr a.delete
        err ("Attachment size mismatch (expected within [" ++ toString minSize ++ ", " ++
          toString maxSize ++ "], got " ++ toString size ++ ")")

def createAttachment (id : Nat) (cipherId : CipherId) (data : UploadData) : Cmd Unit :=
  match data.rawName with
  | none => err "No filename provided"
  | some name => do
    ensure data.key.isSome "No attachment key provided"
    expectOk (Attachment.save ⟨id, cipherId, name, data.size, data.key⟩) "Error saving attachment"

/-- Stores the row: the one made before, or a new one. -/
def storeAttachment (attachment : Option Attachment) (cipherId : CipherId) (data : UploadData) :
    Cmd Unit :=
  match attachment with
  | some a => adjustAttachment a data.size
  | none => do
    let id ← getUuid
    createAttachment id cipherId data

/-- `attachment` is the row the newer API has made in advance. -/
def saveAttachment (attachment : Option Attachment) (cipherId : CipherId)
    (data : UploadData) (me : UserId) : Cmd Cipher := do
  ensure (fitsSigned 64 data.size) "Attachment data size overflow"
  ensure (0 ≤ data.size) "Attachment size can't be negative"
  match ← query (Cipher.findByUuid · cipherId) with
  | none => err "Cipher doesn't exist"
  | some c =>
    let writable ← query (Cipher.isWriteAccessibleToUser env.toConfig · c me)
    ensure writable "Cipher is not write accessible"
    let limit ← attachmentSizeLimit env c ((attachment.map fun a => a.fileSize).getD 0)
    ensure (limit.all fun l => data.size ≤ l) "Attachment storage limit exceeded with this file"
    storeAttachment attachment cipherId data
    external "Error saving file"
    c.updateUsersRevision env
    pure c

def postAttachmentV2Data (attachmentId : String) (data : UploadData) (me : UserId) : Cmd Unit := do
  match ← query (Attachment.findById · attachmentId) with
  | none => err "Attachment doesn't exist"
  | some a =>
    ensure (cipherId = a.cipherUuid) "Attachment doesn't belong to cipher"
    let _ ← saveAttachment env (some a) cipherId data me

/-- Also `post_attachment_admin`. -/
def postAttachment (data : UploadData) (me : UserId) : Cmd Unit := do
  let c ← saveAttachment env none cipherId data me
  c.toJson

/-! ## Removing -/

def deleteCipherAttachmentById (attachmentId : String) (me : UserId) : Cmd Unit := do
  match ← query (Attachment.findById · attachmentId) with
  | none => err "Attachment doesn't exist"
  | some a =>
    ensure (a.cipherUuid = cipherId) "Attachment from other cipher"
    match ← query (Cipher.findByUuid · cipherId) with
    | none => err "Cipher doesn't exist"
    | some c =>
      let writable ← query (Cipher.isWriteAccessibleToUser env.toConfig · c me)
      ensure writable "Cipher cannot be deleted by user"
      a.delete
      c.updateUsersRevision env
      c.toJson

/-- The new file takes the place of the old one. -/
def postAttachmentShare (attachmentId : String) (data : UploadData) (me : UserId) : Cmd Unit := do
  deleteCipherAttachmentById env cipherId attachmentId me
  postAttachment env cipherId data me

end VaultServer
