import VaultServer.Auth.Session

/-!
# Sends

The requests of `api/core/sends.rs` by which an account makes, changes and removes its sends, and
the anonymous requests that count as an access: the older two, and the tokens of `auth/send.rs`.
-/

namespace VaultServer

open Lib Prog

/-! ## Request data -/

/-- Clients send numbers as numbers or as texts. -/
inductive NumberOrString where
  | number (n : Int)
  | string (s : String)

namespace NumberOrString

def parse (w : Nat) (s : String) : Except Failure Int :=
  match parseInt? s with
  | some n => if fitsSigned w n then .ok n else .error (.err "Can't convert to number")
  | none => .error (.err "Can't convert to number")

def intoI32 : NumberOrString → Except Failure Int
  | number n => if fitsSigned 32 n then .ok n else .error (.err "Number does not fit in i32")
  | string s => parse 32 s

/-- A number was read as one of 64 bits. -/
def intoI64 : NumberOrString → Except Failure Int
  | number n => .ok n
  | string s => parse 64 s

end NumberOrString

structure SendData where
  type : Int
  key : String
  password : Option String
  maxAccessCount : Option NumberOrString
  expirationDate : Option Time
  deletionDate : Time
  disabled : Bool
  hideEmail : Option Bool
  emails : Option String
  name : String
  notes : Option String
  text : Option Value
  file : Option Value
  fileLength : Option NumberOrString
  /-- Only key rotations name the send in the body. -/
  id : Option SendId

def SendData.accessLimit (data : SendData) : Except Failure (Option Int) :=
  match data.maxAccessCount with
  | none => .ok none
  | some m => m.intoI32.map some

/-- The clients' copy of an earlier answer is not stored. -/
def withoutResponse (v : Value) : Value := (v.remove "response").getD v

def farDeletionMessage : String :=
  "You cannot have a Send with a deletion date that far into the future. Adjust the Deletion Date "
    ++ "to a value less than 31 days from now and try again."

/-! ## Policies -/

variable (env : Env) (headers : Headers)

def enforceDisableSendPolicy : Cmd Unit := do
  let applicable ← query (OrgPolicy.isApplicableToUser · headers.user.uuid .disableSend none)
  ensure (env.sendsAllowed && !applicable)
    "Due to an Enterprise Policy, you are only able to delete an existing Send."

def enforceDisableHideEmailPolicy (data : SendData) (headers : Headers) : Cmd Unit :=
  when (data.hideEmail.getD false) do
    let disabled ← query (OrgPolicy.isHideEmailDisabled env · headers.user.uuid)
    ensure (!disabled)
      ("Due to an Enterprise Policy, you are not allowed to hide your email address "
        ++ "from recipients when creating or editing a Send.")

/-! ## Creating -/

/-- The content a new send of the given type is made of. -/
def SendData.content (data : SendData) : Except Failure Value :=
  if data.type ≠ SendType.text ∧ data.type ≠ SendType.file then .error (.err "Invalid Send type")
  else
    match if data.type = SendType.text then data.text else data.file with
    | some v => .ok (withoutResponse v)
    | none => .error (.err "Send data not provided")

def createSend (data : SendData) (user : UserId) : Cmd Send := do
  let content ← lift data.content
  ensure (data.deletionDate ≤ env.now + days 31) farDeletionMessage
  ensure data.emails.isNone "Sends with email verification is not supported"
  let uuid ← getUuid
  let limit ← lift data.accessLimit
  let send := { Send.new env uuid data.type data.name content data.key data.deletionDate with
    userUuid := some user
    notes := data.notes
    maxAccessCount := limit
    expirationDate := data.expirationDate
    disabled := data.disabled
    hideEmail := data.hideEmail }
  send.setPassword env data.password

def postSend (data : SendData) (headers : Headers) : Cmd Unit := do
  enforceDisableSendPolicy env headers
  enforceDisableHideEmailPolicy env data headers
  ensure (data.type ≠ SendType.file) "File sends should use /api/sends/file"
  let send ← createSend env data headers.user.uuid
  let send ← send.save env
  send.updateUsersRevision env

/-! ## Files -/

/-- The size noted in the content of a file send, where it can be read. -/
def Send.fileSize (s : Send) : Option Int :=
  match s.data.get? "size", s.data.get? "Size" with
  | some v, none | none, some v =>
    match v with
    | .other text => (parseInt? text).filter (fitsSigned 64)
    | .string text => (parseInt? text).filter (fitsSigned 64)
    | _ => none
  | _, _ => none

def checkedAdd (a b : Int) : Option Int := some (a + b) |>.filter (fitsSigned 64)

/-- Nothing when the sum does not fit. -/
def Send.sizeByUser (db : Db) (user : UserId) : Option Int :=
  ((Send.findByUser db user).filter fun s => s.atype = SendType.file).foldl
    (fun total s => total.bind fun n => checkedAdd n (s.fileSize.getD 0)) (some 0)

def size525Mb : Int := 550502400

/-- What may still be uploaded. -/
def sendSizeLimit (user : UserId) : Cmd Int :=
  match env.userSendLimit with
  | none => pure size525Mb
  | some limitKb => do
    ensure (limitKb ≠ 0) "File uploads are disabled"
    match ← query (Send.sizeByUser · user) with
    | none => err "Existing sends overflow"
    | some alreadyUsed =>
      ensure (fitsSigned 64 (limitKb * 1024) && fitsSigned 64 (limitKb * 1024 - alreadyUsed))
        "Send size overflow"
      let left := limitKb * 1024 - alreadyUsed
      ensure (0 < left) "Send storage limit reached! Delete some sends to free up space"
      pure (min left size525Mb)

def Send.withFile (s : Send) (fileId : Nat) (size : Int) : Send :=
  { s with data := ((s.data.insert "id" (.string (toString fileId))).insert "size"
      (.other (toString size))).insert "sizeName" (.string (env.getDisplaySize size)) }

/-- The file comes with the request. -/
def postSendFile (model : SendData) (size : Int) (headers : Headers) : Cmd Unit := do
  enforceDisableSendPolicy env headers
  ensure (fitsSigned 64 size) "Invalid send size"
  ensure (0 ≤ size) "Send size can't be negative"
  enforceDisableHideEmailPolicy env model headers
  let limit ← sendSizeLimit env headers.user.uuid
  ensure (size ≤ limit) "Send storage limit exceeded with this file"
  let send ← createSend env model headers.user.uuid
  ensure (send.atype = SendType.file) "Send content is not a file"
  let fileId ← getUuid
  external "Error saving file"
  let send ← (send.withFile env fileId size).save env
  send.updateUsersRevision env

/-- The file is announced with its size and comes later. -/
def postSendFileV2 (data : SendData) (headers : Headers) : Cmd Unit := do
  enforceDisableSendPolicy env headers
  ensure (data.type = SendType.file) "Send content is not a file"
  enforceDisableHideEmailPolicy env data headers
  match data.fileLength with
  | none => err "Invalid send length"
  | some m =>
    let fileLength ← lift m.intoI64
    ensure (0 ≤ fileLength) "Send size can't be negative"
    let limit ← sendSizeLimit env headers.user.uuid
    ensure (fileLength ≤ limit) "Send storage limit exceeded with this file"
    let send ← createSend env data headers.user.uuid
    let fileId ← getUuid
    let _ ← (send.withFile env fileId fileLength).save env

/-! ## Changing and removing -/

/-- Returns the copy as it was stored. The content of a file send stays, and so does a password
that the request does not mention. -/
def updateSendFromData (send : Send) (data : SendData) (headers : Headers) (notify : Bool) :
    Cmd Send := do
  ensure (send.userUuid = some headers.user.uuid) "Send is not owned by user"
  ensure (send.atype = data.type) "Sends can't change type"
  ensure (data.deletionDate ≤ env.now + days 31) farDeletionMessage
  let content ← (if data.type = SendType.text then
      match data.text with
      | some v => pure (withoutResponse v)
      | none => err "Send data not provided"
    else pure send.data)
  let limit ← lift data.accessLimit
  let send := { send with
    data := content
    name := data.name
    akey := data.key
    deletionDate := data.deletionDate
    notes := data.notes
    maxAccessCount := limit
    expirationDate := data.expirationDate
    hideEmail := data.hideEmail
    disabled := data.disabled }
  let send ← (if data.password.isSome then send.setPassword env data.password else pure send)
  let send ← send.save env
  when notify (send.updateUsersRevision env)
  pure send

def putSend (id : SendId) (data : SendData) (headers : Headers) : Cmd Unit := do
  enforceDisableSendPolicy env headers
  enforceDisableHideEmailPolicy env data headers
  match ← query (Send.findByUuidAndUser · id headers.user.uuid) with
  | none => err "Send not found"
  | some send =>
    ensure data.emails.isNone "Sends with email verification is not supported"
    let _ ← updateSendFromData env send data headers true

def deleteSend (id : SendId) (headers : Headers) : Cmd Unit := do
  match ← query (Send.findByUuidAndUser · id headers.user.uuid) with
  | none => err "Send not found"
  | some send => do
    send.delete env
    send.updateUsersRevision env

def putRemovePassword (id : SendId) (headers : Headers) : Cmd Unit := do
  enforceDisableSendPolicy env headers
  match ← query (Send.findByUuidAndUser · id headers.user.uuid) with
  | none => err "Send not found"
  | some send =>
    let send ← send.setPassword env none
    let send ← send.save env
    send.updateUsersRevision env

/-! ## Fetching -/

def sendInaccessibleMsg : String := "Send does not exist or is no longer available"

/-- The access is refused in the words of the request that is made. -/
structure AccessMessages where
  limit : String
  inaccessible : String
  password : String
  noPassword : String

def checkSendAccess (send : Send) (password : Option String)
    (messages : AccessMessages) : Cmd Unit := do
  ensure (send.maxAccessCount.all fun limit => send.accessCount < limit) messages.limit
  ensure (send.isAccessible env) messages.inaccessible
  when send.passwordHash.isSome
    (match password with
    | some p => ensure (send.checkPassword env p) messages.password
    | none => err messages.noPassword)

def accessMessages (send : SendId) (ip : String) : AccessMessages where
  limit := "Send " ++ toString send.val ++ ", max access reached"
  inaccessible := "Send " ++ toString send.val ++ ", not accessible"
  password := "Send " ++ toString send.val ++ ", Invalid password from " ++ ip
  noPassword := "Password required"

/-- `SendTokens::generate_tokens`: the access is counted when the token is made. -/
def generateTokens (accessId : String) (password : Option String) (ip : String) : Cmd SendId :=
  match env.asSendId accessId with
  | none => err ("Can't convert " ++ accessId)
  | some id => do
    match ← query (Send.findByUuid · id) with
    | none => err ("Can't find " ++ toString id.val)
    | some send =>
      checkSendAccess env send password (accessMessages id ip)
      let counted ← send.registerAccess env
      ensure counted (accessMessages id ip).limit
      pure id

/-- The grant `send_access` of the token endpoint. -/
def sendAccessLogin (clientId sendId passwordHash : Option String) (ip : String) : Cmd Unit := do
  external "Too many requests"
  ensure clientId.isSome "client_id cannot be blank"
  match sendId with
  | none => err "send_id cannot be blank"
  | some accessId => do
    let _ ← generateTokens env accessId passwordHash ip

/-- The file sends are counted when the file is fetched; here their row is only written back. -/
def postAccessLegacy (accessId : String) (password : Option String) : Cmd Unit := do
  external "Too many requests"
  match ← query fun db => (env.asSendId accessId).bind (Send.findByUuid db) with
  | none => err sendInaccessibleMsg
  | some send =>
    checkSendAccess env send password
      ⟨sendInaccessibleMsg, sendInaccessibleMsg, "Invalid password", "Password not provided"⟩
    if send.atype = SendType.text then do
      let counted ← send.registerAccess env
      ensure counted sendInaccessibleMsg
      send.updateUsersRevision env
    else do
      let send ← send.save env
      send.updateUsersRevision env

def postAccessFileLegacy (id : SendId) (password : Option String) : Cmd Unit := do
  external "Too many requests"
  match ← query (Send.findByUuid · id) with
  | none => err sendInaccessibleMsg
  | some send =>
    checkSendAccess env send password
      ⟨sendInaccessibleMsg, sendInaccessibleMsg, "Invalid password.", "Password not provided"⟩
    let counted ← send.registerAccess env
    ensure counted sendInaccessibleMsg
    send.updateUsersRevision env
    external "Error generating the download url"

/-! ## Requests -/

inductive SendRequest where
  | postSend (data : SendData)
  | postSendFile (model : SendData) (size : Int)
  | postSendFileV2 (data : SendData)
  | putSend (id : SendId) (data : SendData)
  | deleteSend (id : SendId)
  | putRemovePassword (id : SendId)

def SendRequest.handle : SendRequest → Cmd Unit
  | postSend data => VaultServer.postSend env data headers
  | postSendFile model size => VaultServer.postSendFile env model size headers
  | postSendFileV2 data => VaultServer.postSendFileV2 env data headers
  | putSend id data => VaultServer.putSend env id data headers
  | deleteSend id => VaultServer.deleteSend env id headers
  | putRemovePassword id => VaultServer.putRemovePassword env id headers

end VaultServer
