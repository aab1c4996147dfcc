import VaultServer.Api.CipherUpdate
import VaultServer.Api.ProtectedActions

/-!
# Cipher requests

The handlers of `api/core/ciphers.rs` that write, run by an account the guard has let in. Push
messages and the event log are left out: they write no table of the model and cannot fail a
request.
-/

namespace VaultServer

open Lib Prog

/-- The key that the data stands under in the answer. -/
def Cipher.typeKey (c : Cipher) : Except Failure String :=
  match c.atype with
  | 1 => .ok "login"
  | 2 => .ok "secureNote"
  | 3 => .ok "card"
  | 4 => .ok "identity"
  | 5 => .ok "sshKey"
  | 6 => .ok "bankAccount"
  | 7 => .ok "driversLicense"
  | 8 => .ok "passport"
  | _ => .error (.err ("Cipher " ++ toString c.uuid.val ++ " has an invalid type " ++
      toString c.atype))

/-- Building the answer asks the storage for the address of every attachment, and fails for a type
that it does not know. -/
def Cipher.toJson (c : Cipher) : Cmd Unit := do
  let attachments ← query (Attachment.findByCipher · c.uuid)
  each attachments fun _ => external "Error signing attachment URL"
  let _ ← lift c.typeKey

/-! ## Sharing -/

structure ShareCipherData where
  cipher : CipherData
  collectionIds : List CollectionId

variable (env : Env) (cipherId : CipherId) (c : CipherId) (org : OrganizationId) (me : UserId)

/-- Links the cipher to one collection of the target organization. -/
def linkShared
    (shared : List CollectionId) (collection : CollectionId) : Cmd (List CollectionId) := do
  match ← query (Collection.findByUuidAndOrg · collection org) with
  | none => err "Invalid collection ID provided"
  | some k =>
    let writable ← query (k.isWritableByUser env.toConfig · me)
    ensure writable "No rights to modify the collection"
    CollectionCipher.save env c k.uuid
    pure (shared ++ [k.uuid])

/-- The links are written here, one by one, before `update_cipher_from_data` has accepted the rest
of the request. -/
def linkAllShared (data : ShareCipherData) : Cmd (List CollectionId) :=
  match data.cipher.organizationId with
  | none => pure []
  | some org => Prog.foldl data.collectionIds [] (linkShared env c org me)

/-- Without an override the client's date decides between an update and a creation. -/
def shareUpdateType (data : ShareCipherData) (overrideUt : Option UpdateType) : UpdateType :=
  overrideUt.getD
    (if data.cipher.lastKnownRevisionDate.isSome then .syncCipherUpdate else .syncCipherCreate)

def shareCipherByUuid (data : ShareCipherData) (me : UserId)
    (overrideUt : Option UpdateType) : Cmd Unit := do
  match ← query (Cipher.findByUuid · cipherId) with
  | none => err "Cipher doesn't exist"
  | some c =>
    let writable ← query (Cipher.isWriteAccessibleToUser env.toConfig · c me)
    ensure writable "Cipher is not write accessible"
    ensure (!data.cipher.orgMismatch c) orgMismatchMessage
    let shared ← linkAllShared env c.uuid me data
    let c ← updateCipherFromData env c data.cipher me (some shared)
      (shareUpdateType data overrideUt)
    c.toJson

def postCipherShare (data : ShareCipherData) (me : UserId) : Cmd Unit :=
  shareCipherByUuid env cipherId data me none

structure ShareSelectedCipherData where
  ciphers : List CipherData
  collectionIds : List CollectionId

/-- One round of the loop over the selected ciphers. -/
def shareSelected (collectionIds : List CollectionId) (me : UserId)
    (data : CipherData) : Cmd Unit :=
  match data.id with
  | none => err "Request missing ids field"
  | some id =>
    shareCipherByUuid env id ⟨{ data with id := none }, collectionIds⟩ me (some .none)

/-- The list is consumed from its end. -/
def putCipherShareSelected (data : ShareSelectedCipherData) (me : UserId) : Cmd Unit := do
  ensure (!data.ciphers.isEmpty) "You must select at least one cipher."
  ensure (!data.collectionIds.isEmpty) "You must select at least one collection."
  ensure (data.ciphers.all fun d => d.id.isSome) "Request missing ids field"
  each data.ciphers.reverse (shareSelected env data.collectionIds me)

/-! ## Creating, importing, changing -/

/-- The cipher is stored for the user first and shared next; when that ends in an `Err` it is
deleted again. -/
def postCiphersCreate (data : ShareCipherData) (me : UserId) : Cmd Unit := do
  enforcePersonalOwnershipPolicy (some data.cipher) me
  let uuid ← getUuid
  let c := { Cipher.new uuid env.now data.cipher.type data.cipher.name with userUuid := some me }
  let c ← c.save env
  let data := { data with cipher := { data.cipher with lastKnownRevisionDate := none } }
  match ← catchErr (shareCipherByUuid env c.uuid data me none) with
  | .ok () => pure ()
  | .error e => do
    c.delete env
    .fail e

def postCiphers (data : CipherData) (me : UserId) : Cmd Unit := do
  let uuid ← getUuid
  let data := { data with lastKnownRevisionDate := none }
  let c ← updateCipherFromData env (Cipher.new uuid env.now data.type data.name) data me none
    .syncCipherCreate
  c.toJson

/-- A null in a password history is refused; only arrays of objects are looked into. -/
def badPasswordHistory (d : CipherData) : Bool :=
  match d.passwordHistory with
  | some (.array items) => items.any fun v => (v.get? "password").any fun p => !p.isString
  | _ => false

/-- The complaint about one item. Both checks report under the same field, so the second one
replaces the first. -/
def validationError (cfg : Config) (item : CipherData × Nat) : Option (String × String) :=
  let field := "Ciphers[" ++ toString item.2 ++ "].Notes"
  if badPasswordHistory item.1 then
    some (field, "The password history contains a `null` value. Only strings are allowed.")
  else if item.1.notesTooLong cfg then some (field, noteSizeMessage cfg)
  else none

/-- `Cipher::validate_cipher_data`: nothing is imported when one item is invalid. -/
def validateCipherData (cfg : Config) (ciphers : List CipherData) : Cmd Unit :=
  match ciphers.zipIdx.filterMap (validationError cfg) with
  | [] => pure ()
  | errors => .fail (.invalid errors)

structure FolderData where
  id : Option FolderId
  name : String

structure RelationsData where
  key : Nat
  value : Nat

structure ImportData where
  ciphers : List CipherData
  folders : List FolderData
  folderRelationships : List RelationsData

def importFolder (existing : List FolderId) (me : UserId) (folders : List FolderId)
    (folder : FolderData) : Cmd (List FolderId) := do
  match folder.id.filter existing.contains with
  | some id => pure (folders ++ [id])
  | none =>
    let uuid ← getUuid
    Folder.save env ⟨⟨uuid⟩, me, folder.name⟩
    pure (folders ++ [⟨uuid⟩])

/-- A cipher sits in one folder: the last relation for its index counts. -/
def folderOf (relations : List RelationsData) (folders : List FolderId) (index : Nat) :
    Option FolderId :=
  (relations.reverse.find? fun r => r.key = index).bind fun r => folders[r.value]?

def importCipher (relations : List RelationsData)
    (folders : List FolderId) (item : CipherData × Nat) : Cmd Unit := do
  let data := { item.1 with folderId := folderOf relations folders item.2 }
  let uuid ← getUuid
  let _ ← updateCipherFromData env (Cipher.new uuid env.now data.type data.name) data me none .none

def postCiphersImport (data : ImportData) (me : UserId) : Cmd Unit := do
  enforcePersonalOwnershipPolicy none me
  validateCipherData env.toConfig data.ciphers
  let existing ← query (Folder.findByUser · me)
  let folders ← Prog.foldl data.folders [] (importFolder env (existing.map fun f => f.uuid) me)
  each data.ciphers.zipIdx (importCipher env me data.folderRelationships folders)
  User.updateRevision env me

def putCipher (data : CipherData) (me : UserId) : Cmd Unit := do
  match ← Prog.read (.loadCipher cipherId) fun w => Cipher.findByUuid w.db cipherId with
  | none => err "Cipher doesn't exist"
  | some c =>
    let writable ← query (Cipher.isWriteAccessibleToUser env.toConfig · c me)
    ensure writable "Cipher is not write accessible"
    let c ← updateCipherFromData env c data me none .syncCipherUpdate
    c.toJson

/-- Folder and favourite only. -/
def putCipherPartial (folder : Option FolderId) (favorite : Bool) (me : UserId) : Cmd Unit := do
  match ← query (Cipher.findByUuid · cipherId) with
  | none => err "Cipher does not exist"
  | some c =>
    let accessible ← query (Cipher.isAccessibleToUser env.toConfig · c me)
    ensure accessible "Cipher does not exist"
    checkFolder folder me
    c.moveToFolder env folder me
    c.setFavorite env (some favorite) me
    c.toJson

/-! ## Changing the collections of a cipher -/

/-- The ids that are in one of the two lists only, each once. -/
def symmetricDifference (posted current : List CollectionId) : List CollectionId :=
  (posted.dedup.filter fun k => !current.contains k) ++
    current.dedup.filter fun k => !posted.contains k

/-- Adds or removes one link, after the collection was checked. -/
def changeLink (posted : List CollectionId) (collection : CollectionId) : Cmd Unit := do
  match ← query (Collection.findByUuidAndOrg · collection org) with
  | none => err "Invalid collection ID provided"
  | some k =>
    let writable ← query (k.isWritableByUser env.toConfig · me)
    if writable then
      if posted.contains k.uuid then CollectionCipher.save env c k.uuid
      else CollectionCipher.delete env c k.uuid
    else err "No rights to modify the collection"

/-- `current` is the query for the collections the user is shown. -/
def updateCollections (posted : List CollectionId) (me : UserId)
    (current : Config → Db → Cipher → UserId → List CollectionId) : Cmd Unit := do
  match ← query (Cipher.findByUuid · cipherId) with
  | none => err "Cipher doesn't exist"
  | some c =>
    let editable ← query (Cipher.isInEditableCollectionByUser env.toConfig · c me)
    ensure editable "Collection cannot be changed"
    match c.organizationUuid with
    | none => err "Cipher is not owned by an organization"
    | some org =>
      let current ← query fun db => current env.toConfig db c me
      each (env.walk.order (symmetricDifference posted current))
        (changeLink env c.uuid org me posted)
      c.updateUsersRevision env
      c.toJson

def postCollectionsUpdate (posted : List CollectionId) (me : UserId) : Cmd Unit :=
  updateCollections env cipherId posted me Cipher.getCollections

def postCollectionsAdmin (posted : List CollectionId) (me : UserId) : Cmd Unit :=
  updateCollections env cipherId posted me Cipher.getAdminCollections

/-! ## Deleting, restoring, moving -/

inductive CipherDeleteOptions where
  | softSingle
  | softMulti
  | hardSingle
  | hardMulti
  deriving DecidableEq

def deleteCipherByUuid (options : CipherDeleteOptions) (cipherId : CipherId) : Cmd Unit := do
  match ← query (Cipher.findByUuid · cipherId) with
  | none => err "Cipher doesn't exist"
  | some c =>
    let writable ← query (Cipher.isWriteAccessibleToUser env.toConfig · c me)
    ensure writable "Cipher can't be deleted by user"
    if options = .softSingle ∨ options = .softMulti then do
      let c ← Cipher.save env { c with deletedAt := some env.now }
      when (options = .softSingle) (c.updateUsersRevision env)
    else do
      c.delete env
      when (options = .hardSingle) (c.updateUsersRevision env)

/-- Stops at the first cipher that cannot be deleted. -/
def deleteMultipleCiphers (ids : List CipherId) (me : UserId)
    (options : CipherDeleteOptions) : Cmd Unit :=
  each ids (deleteCipherByUuid env me options)

def restoreCipherByUuid (multiRestore : Bool) (cipherId : CipherId) : Cmd Unit := do
  match ← query (Cipher.findByUuid · cipherId) with
  | none => err "Cipher doesn't exist"
  | some c =>
    let writable ← query (Cipher.isWriteAccessibleToUser env.toConfig · c me)
    ensure writable "Cipher can't be restored by user"
    let c ← Cipher.save env { c with deletedAt := none }
    when (!multiRestore) (c.updateUsersRevision env)
    c.toJson

def restoreMultipleCiphers (ids : List CipherId) (me : UserId) : Cmd Unit :=
  each ids (restoreCipherByUuid env me true)

def moveCipherSelected (folder : Option FolderId) (ids : List CipherId) (me : UserId) :
    Cmd Unit := do
  checkFolder folder me
  let accessible ← query (Cipher.findByUserAndCiphers env.toConfig · me ids)
  each accessible fun c => c.moveToFolder env folder me
  ensure (ids.length = accessible.length) ("Not all ciphers are moved! " ++
    toString accessible.length ++ " of the selected " ++ toString ids.length ++ " were moved.")

/-! ## Archiving -/

/-- `archive_cipher` when `archived`, otherwise `unarchive_cipher`. -/
def setArchived (archived multi : Bool) (cipherId : CipherId) : Cmd Unit := do
  match ← query (Cipher.findByUuid · cipherId) with
  | none => err "Cipher doesn't exist"
  | some c =>
    let accessible ← query (Cipher.isAccessibleToUser env.toConfig · c me)
    ensure accessible "Cipher is not accessible for the current user"
    (if archived then Archive.save env me c.uuid env.now else Archive.deleteByCipher env me c.uuid)
    when (!multi) (c.updateUsersRevision env)
    c.toJson

/-! ## Emptying a vault -/

def purgeOrgVault (data : PasswordOrOtpData) (user : User) : Cmd Unit := do
  data.validate env user true
  let member ← query (Membership.findConfirmedByUserAndOrg · user.uuid org)
  ensure (member.any fun m => m.atype = .owner)
    "You don't have permission to purge the organization vault"
  Cipher.deleteAllByOrganization env org

def purgePersonalVault (data : PasswordOrOtpData) (user : User) : Cmd Unit := do
  data.validate env user true
  let ciphers ← query (Cipher.findOwnedByUser · user.uuid)
  each ciphers fun c => c.delete env
  let folders ← query (Folder.findByUser · user.uuid)
  each folders fun f => f.delete env
  User.updateRevision env user.uuid

end VaultServer
