import VaultServer.Db.Collection

/-!
# Ciphers, folders and favourites: statements

The write side of `db/models/cipher.rs` and of the tables that refer to a cipher. A cipher's own
row and its links are written by different statements.
-/

namespace VaultServer

open Lib Prog

/-! ## Folders -/

variable (db : Db) (env : Env) (c : Cipher) (user : UserId) (cipher : CipherId)

namespace FolderCipher

def findByFolderAndCipher (folder : FolderId) (cipher : CipherId) : Option FolderCipher :=
  db.foldersCiphers.find? fun fc => fc.folderUuid = folder ∧ fc.cipherUuid = cipher

def saveStmt (fc : FolderCipher) (db : Db) : Option Db :=
  Db.guarded (db.hasCipher fc.cipherUuid && db.hasFolder fc.folderUuid)
    { db with foldersCiphers := db.foldersCiphers.upsert fc }

def save (fc : FolderCipher) : Cmd Unit := exec fc.saveStmt "Error adding cipher to folder" .write

def deleteWhere (p : FolderCipher → Bool) (db : Db) : Db :=
  { db with foldersCiphers := db.foldersCiphers.deleteWhere p }

def delete (fc : FolderCipher) : Cmd Unit :=
  execTotal (deleteWhere fun x => x.cipherUuid = fc.cipherUuid ∧ x.folderUuid = fc.folderUuid)
    "Error removing cipher from folder"

def deleteAllByCipher : Cmd Unit :=
  execTotal (deleteWhere fun fc => fc.cipherUuid = cipher) "Error removing cipher from folders"

def deleteAllByFolder (folder : FolderId) : Cmd Unit :=
  execTotal (deleteWhere fun fc => fc.folderUuid = folder) "Error removing ciphers from folder"

end FolderCipher

namespace Folder

def findByUuidAndUser (uuid : FolderId) (user : UserId) : Option Folder :=
  db.folders.find? fun f => f.uuid = uuid ∧ f.userUuid = user

def findByUser : List Folder := db.folders.rows.filter fun f => f.userUuid = user

def saveStmt (f : Folder) (db : Db) : Option Db :=
  Db.guarded (db.hasUser f.userUuid) { db with folders := db.folders.upsert f }

def save (f : Folder) : Cmd Unit := do
  User.updateUuidRevision env f.userUuid
  exec f.saveStmt "Error saving folder" .write

def deleteStmt (uuid : FolderId) (db : Db) : Option Db :=
  Db.guarded (db.foldersCiphers.rows.all fun fc => fc.folderUuid ≠ uuid)
    { db with folders := db.folders.deleteWhere fun f => f.uuid = uuid }

def delete (f : Folder) : Cmd Unit := do
  User.updateUuidRevision env f.userUuid
  FolderCipher.deleteAllByFolder f.uuid
  exec (deleteStmt f.uuid) "Error deleting folder" .write

def deleteAllByUser : Cmd Unit := do
  let folders ← query (findByUser · user)
  each folders fun f => f.delete env

end Folder

/-! ## Favourites, archive marks and attachments -/

namespace Favorite

def isFavorite (user : UserId) : Bool :=
  db.favorites.rows.any fun f => f.cipherUuid = cipher ∧ f.userUuid = user

def saveStmt (f : Favorite) (db : Db) : Option Db :=
  Db.guarded (db.hasUser f.userUuid && db.hasCipher f.cipherUuid)
    { db with favorites := db.favorites.upsert f }

def deleteWhere (p : Favorite → Bool) (db : Db) : Db :=
  { db with favorites := db.favorites.deleteWhere p }

def setFavorite (favorite : Bool) (cipher : CipherId) (user : UserId) : Cmd Unit := do
  match ← query (isFavorite · cipher user), favorite with
  | false, true =>
    User.updateUuidRevision env user
    exec (saveStmt ⟨user, cipher⟩) "Error adding favorite" .write
  | true, false =>
    User.updateUuidRevision env user
    execTotal (deleteWhere fun f => f.userUuid = user ∧ f.cipherUuid = cipher)
      "Error removing favorite"
  | _, _ => pure ()

def deleteAllByCipher : Cmd Unit :=
  execTotal (deleteWhere fun f => f.cipherUuid = cipher) "Error removing favorites by cipher"

def deleteAllByUser : Cmd Unit :=
  execTotal (deleteWhere fun f => f.userUuid = user) "Error removing favorites by user"

end Favorite

namespace Archive

def saveStmt (a : Archive) (db : Db) : Option Db :=
  Db.guarded (db.hasUser a.userUuid && db.hasCipher a.cipherUuid)
    { db with archives := db.archives.upsert a }

def save (archivedAt : Time) : Cmd Unit := do
  User.updateUuidRevision env user
  exec (saveStmt ⟨user, cipher, archivedAt⟩) "Error saving archive" .write

def deleteByCipher : Cmd Unit := do
  User.updateUuidRevision env user
  execTotal (fun db => { db with
    archives := db.archives.deleteWhere fun a => a.userUuid = user ∧ a.cipherUuid = cipher })
    "Error deleting archive"

end Archive

/-- The number of an attachment, from the 20 hexadecimal digits that clients know it by. -/
def attachmentId? (s : String) : Option Nat :=
  let digits := "0123456789abcdef".toList
  if s.length = 20 ∧ s.toList.all digits.contains then
    some (s.toList.foldl (fun n c => 16 * n + digits.idxOf c) 0)
  else none

namespace Attachment

def findById (id : String) : Option Attachment :=
  db.attachments.find? fun a => attachmentId? (toLowercase id) = some a.id

def findByCipher : List Attachment := db.attachments.rows.filter fun a => a.cipherUuid = cipher

def saveStmt (a : Attachment) (db : Db) : Option Db :=
  Db.guarded (db.hasCipher a.cipherUuid) { db with attachments := db.attachments.upsert a }

def save (a : Attachment) : Cmd Unit := exec a.saveStmt "Error saving attachment" .write

/-- The row goes first, then the stored file. -/
def delete (a : Attachment) : Cmd Unit := do
  execTotal (fun db => { db with attachments := db.attachments.deleteWhere fun x => x.id = a.id })
    "Error deleting attachment"
  external "Error deleting attachment file"

def deleteAllByCipher : Cmd Unit := do
  let attachments ← query (findByCipher · cipher)
  each attachments delete

/-- The bytes stored for the ciphers of one owner; a sum that does not fit counts as the largest
number. -/
def sizeWhere (owned : Cipher → Bool) (db : Db) : Int :=
  let rows := leftJoin db.attachments.rows db.ciphers.rows (fun a c => c.uuid = a.cipherUuid)
    fun a c => (a, c)
  let total := ((rows.filter fun r => r.2.any owned).map fun r => r.1.fileSize).sum
  if fitsSigned 64 total then total else 2 ^ 63 - 1

def sizeByUser : Int := sizeWhere (fun c => c.userUuid = some user) db

def sizeByOrg (org : OrganizationId) : Int := sizeWhere (fun c => c.organizationUuid = some org) db

end Attachment

/-! ## Ciphers -/

/-- `Membership::find_by_cipher_and_org`. -/
def Membership.findByCipherAndOrg (org : OrganizationId) : List Membership :=
  let rows := leftJoin (db.usersOrganizations.rows.filter fun m => m.orgUuid = org)
    db.usersCollections.rows (fun m cu => cu.userUuid = m.userUuid) fun m o => (m, o)
  let rows := leftJoin rows db.ciphersCollections.rows
    (fun r cc => (r.2.any fun cu => cc.collectionUuid = cu.collectionUuid) ∧ cc.cipherUuid = cipher)
    fun r o => (r.1, o)
  selectDistinct rows (fun r => r.1.accessAll ∨ r.2.any fun cc => cc.cipherUuid = cipher) fun r => r.1

/-- `Membership::find_by_cipher_and_org_with_group`. -/
def Membership.findByCipherAndOrgWithGroup (org : OrganizationId) : List Membership :=
  let rows := innerJoin (db.usersOrganizations.rows.filter fun m => m.orgUuid = org)
    db.groupsUsers.rows (fun m gu => gu.usersOrganizationsUuid = m.uuid) fun m gu => (m, gu)
  let rows := leftJoin rows db.collectionsGroups.rows (fun r cg => cg.groupsUuid = r.2.groupsUuid)
    fun r o => (r.1, r.2, o)
  let rows := leftJoin rows db.groups.rows
    (fun r g => g.uuid = r.2.1.groupsUuid ∧ g.organizationsUuid = r.1.orgUuid)
    fun r o => (r.1, r.2.2, o)
  let rows := leftJoin rows db.ciphersCollections.rows
    (fun r cc => (r.2.1.any fun cg => cc.collectionUuid = cg.collectionsUuid) ∧
      cc.cipherUuid = cipher)
    fun r o => (r.1, r.2.2, o)
  selectDistinct rows
    (fun r => (r.2.1.any fun g => g.accessAll) ∨ r.2.2.any fun cc => cc.cipherUuid = cipher)
    fun r => r.1

namespace Cipher

def findByUuid (uuid : CipherId) : Option Cipher := db.ciphers.find? fun c => c.uuid = uuid

def findByUuidAndOrg (uuid : CipherId) (org : OrganizationId) : Option Cipher :=
  db.ciphers.find? fun c => c.uuid = uuid ∧ c.organizationUuid = some org

def findOwnedByUser : List Cipher :=
  db.ciphers.rows.filter fun c => c.userUuid = some user ∧ c.organizationUuid = none

def findByOrg (org : OrganizationId) : List Cipher :=
  db.ciphers.rows.filter fun c => c.organizationUuid = some org

def getFolderUuid : Option FolderId :=
  ((innerJoin db.foldersCiphers.rows db.folders.rows (fun fc f => f.uuid = fc.folderUuid)
    fun fc f => (fc, f)).find? fun (fc, f) => f.userUuid = user ∧ fc.cipherUuid = c.uuid).map
      fun (fc, _) => fc.folderUuid

/-- The users whose revision a change of the cipher bumps. -/
def affectedUsers (cfg : Config) (db : Db) (c : Cipher) : List UserId :=
  match c.userUuid, c.organizationUuid with
  | some user, _ => [user]
  | none, some org =>
    let members := Membership.findByCipherAndOrg db c.uuid org
    let members := if cfg.orgGroupsEnabled
      then members ++ Membership.findByCipherAndOrgWithGroup db c.uuid org else members
    members.map fun m => m.userUuid
  | none, none => []

def updateUsersRevision : Cmd Unit := do
  let users ← query (affectedUsers env.toConfig · c)
  each users (User.updateUuidRevision env)

def saveStmt (db : Db) : Option Db :=
  Db.guarded (c.userUuid.all db.hasUser && c.organizationUuid.all db.hasOrganization)
    { db with ciphers := db.ciphers.upsert c }

/-- Returns the copy as it was stored. -/
def save : Cmd Cipher := do
  c.updateUsersRevision env
  let c := { c with updatedAt := env.now }
  exec c.saveStmt "Error saving cipher" (.saveCipher c)
  pure c

/-- Refused while another table refers to the cipher; archive marks go with it. -/
def deleteStmt (uuid : CipherId) (db : Db) : Option Db :=
  Db.guarded (db.foldersCiphers.rows.all (fun fc => fc.cipherUuid ≠ uuid) &&
      db.ciphersCollections.rows.all (fun cc => cc.cipherUuid ≠ uuid) &&
      db.attachments.rows.all (fun a => a.cipherUuid ≠ uuid) &&
      db.favorites.rows.all fun f => f.cipherUuid ≠ uuid)
    { db with
      ciphers := db.ciphers.deleteWhere fun c => c.uuid = uuid
      archives := db.archives.deleteWhere fun a => a.cipherUuid = uuid }

def delete : Cmd Unit := do
  c.updateUsersRevision env
  FolderCipher.deleteAllByCipher c.uuid
  CollectionCipher.deleteAllByCipher c.uuid
  Attachment.deleteAllByCipher c.uuid
  Favorite.deleteAllByCipher c.uuid
  exec (deleteStmt c.uuid) "Error deleting cipher" .write

def deleteAllByOrganization (org : OrganizationId) : Cmd Unit := do
  let ciphers ← query (findByOrg · org)
  each ciphers fun c => c.delete env

def deleteAllByUser : Cmd Unit := do
  let ciphers ← query (findOwnedByUser · user)
  each ciphers fun c => c.delete env

/-- Nothing happens when the cipher is not in the folder. -/
def removeFromFolder (folder : FolderId) (cipher : CipherId) : Cmd Unit := do
  match ← query (FolderCipher.findByFolderAndCipher · folder cipher) with
  | some fc => fc.delete
  | none => pure ()

def moveToFolder (folder : Option FolderId) (user : UserId) : Cmd Unit := do
  User.updateUuidRevision env user
  match ← query (getFolderUuid · c user), folder with
  | none, none => pure ()
  | none, some new => FolderCipher.save ⟨c.uuid, new⟩
  | some old, none =>
    match ← query (FolderCipher.findByFolderAndCipher · old c.uuid) with
    | some fc => fc.delete
    | none => err "Couldn't move from previous folder"
  | some old, some new =>
    if old = new then pure ()
    else do
      removeFromFolder old c.uuid
      FolderCipher.save ⟨c.uuid, new⟩

def setFavorite (favorite : Option Bool) (user : UserId) : Cmd Unit :=
  match favorite with
  | none => pure ()
  | some status => Favorite.setFavorite env status c.uuid user

/-! ## The collections of a cipher that a user may change -/

/-- The links of the cipher joined with the user's membership, assignment and groups. Without
groups the membership is an inner join. -/
def collectionRows (cfg : Config) (db : Db) (c : Cipher) (user : UserId) : List JoinRow :=
  let rows := JoinRow.ofLinks db
    (db.ciphersCollections.rows.filter fun cc => cc.cipherUuid = c.uuid)
  if cfg.orgGroupsEnabled then
    JoinRow.withGroupRights db
      (JoinRow.withUsersCollections db user (JoinRow.withMember db user rows))
  else
    JoinRow.withUsersCollections db user
      (innerJoin rows db.usersOrganizations.rows (JoinRow.memberOn user)
        fun r m => { r with usersOrganizations := some m })

/-- A right to change the collection's content. -/
def writableRow (r : JoinRow) : Bool :=
  (r.usersOrganizations.any fun m => m.accessAll)
    || (r.usersCollections.any fun cu => cu.userUuid = user ∧ !cu.readOnly)
    || (r.groups.any fun g => g.accessAll)
    || (r.collectionsGroups.any fun cg => !cg.readOnly)

def getCollections (cfg : Config) (db : Db) (c : Cipher) (user : UserId) : List CollectionId :=
  ((collectionRows cfg db c user).filter (writableRow user)).filterMap fun r =>
    r.ciphersCollections.map fun cc => cc.collectionUuid

def getAdminCollections (cfg : Config) (db : Db) (c : Cipher) (user : UserId) : List CollectionId :=
  ((collectionRows cfg db c user).filter fun r => writableRow user r ||
    r.usersOrganizations.any fun m => m.atype.toI32 ≤ MembershipType.admin.toI32).filterMap fun r =>
      r.ciphersCollections.map fun cc => cc.collectionUuid

end Cipher

end VaultServer
