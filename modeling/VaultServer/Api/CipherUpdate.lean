import VaultServer.Auth.Guards

/-!
# Writing a cipher from request data

`update_cipher_from_data` of `api/core/ciphers.rs`, which every request that stores a vault item
goes through. It checks the request, decides the owner, rewrites the attachments, and only then
saves the row; whatever the caller wrote before (links to collections, say) stays when it stops.
-/

namespace VaultServer

open Lib

structure Attachments2Data where
  id : String
  fileName : String
  key : String

/-- The request body; dates are the texts the client sent. -/
structure CipherData where
  id : Option CipherId := none
  folderId : Option FolderId := none
  organizationId : Option OrganizationId := none
  key : Option String := none
  type : Int
  name : String
  notes : Option String := none
  fields : Option Value := none
  login : Option Value := none
  secureNote : Option Value := none
  card : Option Value := none
  identity : Option Value := none
  sshKey : Option Value := none
  favorite : Option Bool := none
  reprompt : Option Int := none
  passwordHistory : Option Value := none
  /-- In the order the map is walked. -/
  attachments2 : Option (List Attachments2Data) := none
  lastKnownRevisionDate : Option String := none
  archivedDate : Option String := none

/-- Which push message an update sends; with `none` the update stays silent. -/
inductive UpdateType where
  | none
  | syncCipherUpdate
  | syncCipherCreate
  deriving DecidableEq

/-! ## The parts of the body -/

/-- Drops the `response` key of every element; an element that is no object is a panic. -/
def cleanCipherData : Value → Option Value
  | .array items => (items.mapM (Value.remove "response")).map .array
  | v => some v

variable (env : Env) (d : CipherData) (c : Cipher)

namespace CipherData

/-- The part of the body the type selects. -/
def typeDataOpt : Except Failure (Option Value) :=
  if d.type = 1 then .ok d.login else if d.type = 2 then .ok d.secureNote
  else if d.type = 3 then .ok d.card else if d.type = 4 then .ok d.identity
  else if d.type = 5 then .ok d.sshKey else .error (.err "Invalid type")

/-- Removes the `response` keys of the object and of its `uris`. -/
def cleanTypeData (v : Value) : Option Value := do
  let v ← v.remove "response"
  match v.get? "uris" with
  | some (.array items) =>
    let uris ← cleanCipherData (.array items)
    pure (v.set "uris" uris)
  | _ => pure v

def typeData : Except Failure Value := do
  match ← d.typeDataOpt with
  | none => .error (.err "Data missing")
  | some v =>
    match cleanTypeData v with
    | none => .error (.panic "called `Option::unwrap()` on a `None` value")
    | some v => .ok v

def cleanFields : Except Failure (Option Value) :=
  match d.fields with
  | none => .ok none
  | some f =>
    match cleanCipherData f with
    | none => .error (.panic "called `Option::unwrap()` on a `None` value")
    | some f => .ok (some f)

/-- The copy to be saved, with the owner already decided. -/
def fill : Except Failure Cipher := do
  let typeData ← d.typeData
  let fields ← d.cleanFields
  pure { c with
    key := d.key
    name := d.name
    notes := d.notes
    fields := fields.map Value.render
    data := typeData.render
    passwordHistory := d.passwordHistory.map Value.render
    reprompt := d.reprompt.filter fun r => r = 0 ∨ r = 1 }

/-- The client's copy is older than the stored row. A date that does not parse is only logged. -/
def isStale (ut : UpdateType) (c : Cipher) : Bool :=
  ut ≠ .none ∧ (d.lastKnownRevisionDate.bind env.parseDate).any fun dt => c.updatedAt - dt > 1

def orgMismatch : Bool := c.organizationUuid.isSome ∧ c.organizationUuid ≠ d.organizationId

def notesTooLong (cfg : Config) (d : CipherData) : Bool :=
  d.notes.any fun note => note.utf8ByteSize > cfg.maxNoteSize

end CipherData

/-! ## Updating -/

def orgMismatchMessage : String :=
  "Organization mismatch. Please resync the client before updating the cipher"

def noteSizeMessage (cfg : Config) : String :=
  "The field Notes exceeds the maximum encrypted value length of " ++ toString cfg.maxNoteSize
    ++ " characters."

/-- Personal items are refused where an organization's policy forbids them. -/
def enforcePersonalOwnershipPolicy (data : Option CipherData) (me : UserId) : Cmd Unit :=
  if (data.bind fun d => d.organizationId).isNone then do
    let applies ← query (OrgPolicy.isApplicableToUser · me .personalOwnership none)
    ensure (!applies)
      "Due to an Enterprise Policy, you are restricted from saving items to your personal vault."
  else pure ()

/-- Who owns the updated cipher. A non-empty list of collections means the caller has already
checked the write access to them. -/
def chooseOwner (org : Option OrganizationId) (me : UserId)
    (sharedToCollections : Option (List CollectionId)) : Cmd Cipher :=
  match org with
  | none => pure { c with userUuid := some me }
  | some org => do
    match ← query (Membership.findConfirmedByUserAndOrg · me org) with
    | none => err "You don't have permission to add item to organization"
    | some member =>
      let writable ← query fun db => (sharedToCollections.any fun cols => !cols.isEmpty)
        || member.hasFullAccess || c.isWriteAccessibleToUser env.toConfig db me
      ensure writable "You don't have permission to add cipher directly to organization"
      pure { c with organizationUuid := some org, userUuid := none }

def checkFolder (folder : Option FolderId) (me : UserId) : Cmd Unit :=
  match folder with
  | none => pure ()
  | some f => do
    let found ← query (Folder.findByUuidAndUser · f me)
    ensure found.isSome "Invalid folder"

/-- New names and keys, up to the first attachment of another cipher; missing ones are skipped. -/
def updateAttachments (c : CipherId) : List Attachments2Data → Cmd Unit
  | [] => pure ()
  | a :: rest => do
    match ← query (Attachment.findById · a.id) with
    | none => updateAttachments c rest
    | some saved =>
      if saved.cipherUuid ≠ c then pure ()
      else do
        Attachment.save { saved with akey := some a.key, fileName := a.fileName }
        updateAttachments c rest

/-- The checks before the owner is decided. -/
def checkUpdate (data : CipherData) (me : UserId) (ut : UpdateType) : Cmd Unit := do
  enforcePersonalOwnershipPolicy (some data) me
  ensure (!data.isStale env ut c)
    "The client copy of this cipher is out of date. Resync the client and try again."
  ensure (!data.orgMismatch c) orgMismatchMessage
  ensure (!data.notesTooLong env.toConfig) (noteSizeMessage env.toConfig)

/-- What is written once the row is saved: the user's folder, favourite and archive marks. -/
def writeUserMarks (data : CipherData) (me : UserId) : Cmd Unit := do
  c.moveToFolder env data.folderId me
  c.setFavorite env data.favorite me
  match data.archivedDate.bind env.parseDate with
  | some dt => Archive.save env me c.uuid dt
  | none => pure ()

/-- Returns the cipher as it was stored. -/
def updateCipherFromData (data : CipherData) (me : UserId)
    (sharedToCollections : Option (List CollectionId)) (ut : UpdateType) : Cmd Cipher := do
  checkUpdate env c data me ut
  let c ← chooseOwner env c data.organizationId me sharedToCollections
  checkFolder data.folderId me
  updateAttachments c.uuid (data.attachments2.getD [])
  let c ← lift (data.fill c)
  let c ← c.save env
  writeUserMarks env c data me
  Prog.when (ut ≠ .none) (c.updateUsersRevision env)
  pure c

end VaultServer
