import VaultServer.Auth.Tokens

/-!
# Kinds of tokens

Fourteen kinds of tokens and thirteen places that take one. Most kinds have an issuer of their own.
Login and refresh tokens share one and differ in the fields of their records; the two tokens of a
send share issuer and record and differ in their subject, which the place that takes the token looks
at. So a token is taken for its own kind only, and the typed tokens of the guards lose nothing.
-/

namespace VaultServer.Jwt

open Lib Option

/-! ## Minted tokens -/

inductive Kind where
  | login
  | refresh
  | invite
  | emergencyAccessInvite
  | delete
  | verifyEmail
  | admin
  | sendAccess
  | sendDownload
  | orgApiKey
  | fileDownload
  | registerVerify
  | twoFactorRemember
  | sso
  deriving DecidableEq

def Kind.issuer : Kind → Issuer
  | login => .login
  | refresh => .login
  | invite => .invite
  | emergencyAccessInvite => .emergencyAccessInvite
  | delete => .delete
  | verifyEmail => .verifyEmail
  | admin => .admin
  | sendAccess => .send
  | sendDownload => .send
  | orgApiKey => .orgApiKey
  | fileDownload => .fileDownload
  | registerVerify => .registerVerify
  | twoFactorRemember => .twoFactorRemember
  | sso => .sso

/-- A call of a generator. -/
inductive Mint where
  | login (device : DeviceText) (user : UserText) (nbf exp : Int) (scope : List String)
      (clientId : Option String)
  | refresh (nbf exp : Int) (sub : AuthMethod) (deviceToken : String) (token : Option TokenWrapper)
  | invite (userId email orgId memberId : String) (invitedByEmail : Option String)
  | emergencyAccessInvite (userId email emerId grantorName grantorEmail : String)
  | delete (uuid : String)
  | verifyEmail (userId : String)
  | admin
  | sendAccess (sendId : BitVec 128)
  | sendDownload (sendId fileId : String)
  | orgApiKey (orgApiKeyUuid orgId : String)
  | fileDownload (cipherId fileId : String)
  | registerVerify (email : String) (name : Option String) (verified : Bool)
  | twoFactorRemember (deviceUuid userUuid : String)
  | sso

def Mint.kind : Mint → Kind
  | login .. => .login
  | refresh .. => .refresh
  | invite .. => .invite
  | emergencyAccessInvite .. => .emergencyAccessInvite
  | delete _ => .delete
  | verifyEmail _ => .verifyEmail
  | admin => .admin
  | sendAccess _ => .sendAccess
  | sendDownload _ _ => .sendDownload
  | orgApiKey _ _ => .orgApiKey
  | fileDownload _ _ => .fileDownload
  | registerVerify .. => .registerVerify
  | twoFactorRemember _ _ => .twoFactorRemember
  | sso => .sso

/-- The object that gets signed. -/
def Mint.token (site : Site) : Mint → Json
  | login device user nbf exp scope clientId =>
    (LoginJwtClaims.new site device user nbf exp scope clientId).write
  | refresh nbf exp sub deviceToken token =>
    (RefreshJwtClaims.new site nbf exp sub deviceToken token).write
  | invite userId email orgId memberId invitedByEmail =>
    (generateInviteClaims site userId email orgId memberId invitedByEmail).write
  | emergencyAccessInvite userId email emerId grantorName grantorEmail =>
    (generateEmergencyAccessInviteClaims site userId email emerId grantorName grantorEmail).write
  | delete uuid => (generateDeleteClaims site uuid).write
  | verifyEmail userId => (generateVerifyEmailClaims site userId).write
  | admin => (generateAdminClaims site).write
  | sendAccess sendId => (generateSendAccessClaims site sendId).write
  | sendDownload sendId fileId => (generateSendClaims site sendId fileId).write
  | orgApiKey orgApiKeyUuid orgId =>
    (generateOrganizationApiKeyLoginClaims site orgApiKeyUuid orgId).write
  | fileDownload cipherId fileId => (generateFileDownloadClaims site cipherId fileId).write
  | registerVerify email name verified =>
    (generateRegisterVerifyClaims site email name verified).write
  | twoFactorRemember deviceUuid userUuid =>
    (generate2faRememberClaims site deviceUuid userUuid).write
  | sso => (encodeSsotokenClaims site).write

/-- Every record shows its issuer. -/
theorem Mint.get?_iss (m : Mint) (site : Site) :
    (m.token site).get? "iss" = some (.string (m.kind.issuer.text site)) := by
  cases m <;> rfl

/-! ## The places that take a token -/

/-- A decoder, with the further look at the subject where decoders are shared. -/
inductive Entry where
  | login
  | refresh
  | invite
  | emergencyAccessInvite
  | delete
  | verifyEmail
  | admin
  | sendContent (draw : Nat → BitVec 128) (db : Db)
  | sendDownload (sendId fileId : String)
  | orgApiKey
  | fileDownload
  | registerVerify
  | twoFactorRemember

def Entry.kind : Entry → Kind
  | login => .login
  | refresh => .refresh
  | invite => .invite
  | emergencyAccessInvite => .emergencyAccessInvite
  | delete => .delete
  | verifyEmail => .verifyEmail
  | admin => .admin
  | sendContent _ _ => .sendAccess
  | sendDownload _ _ => .sendDownload
  | orgApiKey => .orgApiKey
  | fileDownload => .fileDownload
  | registerVerify => .registerVerify
  | twoFactorRemember => .twoFactorRemember

/-- The claims that the decoder of the place returns, written again. -/
def Entry.claims (site : Site) (token : Json) : Entry → Except String Json
  | login => (decodeLogin site token).map (·.write)
  | refresh => (decodeRefresh site token).map (·.write)
  | invite => (decodeInvite site token).map (·.write)
  | emergencyAccessInvite => (decodeEmergencyAccessInvite site token).map (·.write)
  | delete => (decodeDelete site token).map (·.write)
  | verifyEmail => (decodeVerifyEmail site token).map (·.write)
  | admin => (decodeAdmin site token).map (·.write)
  | sendContent _ _ => (decodeSend site token).map (·.write)
  | sendDownload _ _ => (decodeSend site token).map (·.write)
  | orgApiKey => (decodeApiOrg site token).map (·.write)
  | fileDownload => (decodeFileDownload site token).map (·.write)
  | registerVerify => (decodeRegisterVerify site token).map (·.write)
  | twoFactorRemember => (decode2faRemember site token).map (·.write)

/-- The place takes a token that its decoder takes. -/
def Entry.admits (site : Site) (token : Json) : Entry → Bool
  | sendContent draw db => (accessedSend site draw db token).isSome
  | sendDownload sendId fileId => downloadSend site sendId fileId token
  | e => (e.claims site token).isOk

/-! ## The issuer is checked -/

theorem Issuer.text_inj {i i' : Issuer} (h : i.text site = i'.text site') : i = i' := by
  have hbar : ∀ i : Issuer, '|' ∉ i.name.toList := by
    intro i
    cases i <;> decide
  have hname : i.name.toList = i'.name.toList := by
    have h := congrArg String.toList h
    unfold Issuer.text at h
    simp only [String.toList_append] at h
    rw [List.append_assoc, List.append_assoc] at h
    exact after_separator_inj (hbar i) (hbar i') h
  revert hname
  cases i <;> cases i' <;> decide

theorem validate_iss
    (hiss : token.get? "iss" = some (.string iss)) (h : validate site issuer token = .ok ()) :
    iss = issuer.text site := by
  unfold validate at h
  rw [hiss] at h
  split at h
  · split at h
    · cases h
    · split at h
      · cases h
      · split at h
        · cases h
        · dsimp only at h
          split at h
          · assumption
          · cases h
  · cases h

theorem decodeJwt_isOk {α : Type} {read : Json → Option α} {write : α → Json}
    (h : ((decodeJwt read issuer site token).map write).isOk = true) :
    (read token).isSome = true ∧ validate site issuer token = .ok () := by
  unfold decodeJwt at h
  cases hread : read token with
  | none =>
    rw [hread] at h
    cases h
  | some =>
    rw [hread] at h
    refine ⟨rfl, ?_⟩
    cases hv : validate site issuer token with
    | ok => rfl
    | error =>
      rw [hv] at h
      cases h

/-- A token that a decoder takes was minted with its issuer. -/
theorem Mint.issuer_of_decodeJwt {α : Type} {read : Json → Option α} {write : α → Json} {m : Mint}
    (h : ((decodeJwt read issuer reading (m.token minting)).map write).isOk = true) :
    m.kind.issuer = issuer :=
  Issuer.text_inj (validate_iss (m.get?_iss minting) (decodeJwt_isOk h).2)

/-! ## Records that share an issuer -/

theorem LoginJwtClaims.read_eq_none (h : j.get? "premium" = none) :
    LoginJwtClaims.read j = none := by
  unfold LoginJwtClaims.read
  rw [Json.required_eq_none h]
  cases Registered.read j with
  | none => rfl
  | some => cases j.required Json.string? "sub" <;> rfl

theorem RefreshJwtClaims.read_eq_none (h : j.get? "device_token" = none) :
    RefreshJwtClaims.read j = none := by
  unfold RefreshJwtClaims.read
  rw [Json.required_eq_none h]
  cases Registered.read j with
  | none => rfl
  | some => cases j.required authMethod? "sub" <;> rfl

/-- The subject of a record that the decoder of sends returns. -/
theorem decodeSend_sub (h : decodeSend site token = .ok claims) :
    token.get? "sub" = some (.string claims.sub) := by
  unfold decodeSend decodeJwt at h
  cases hread : BasicJwtClaims.read token with
  | none =>
    rw [hread] at h
    cases h
  | some c =>
    rw [hread] at h
    cases hv : validate site .send token with
    | error =>
      rw [hv] at h
      cases h
    | ok =>
      rw [hv] at h
      obtain rfl : c = claims := Except.ok.inj h
      unfold BasicJwtClaims.read at hread
      obtain ⟨r, -, hread⟩ := bind_eq_some_iff.1 hread
      obtain ⟨sub, hsub, hread⟩ := bind_eq_some_iff.1 hread
      rw [← Option.some.inj hread]
      exact Json.required_string_eq_some.1 hsub

/-- The subject tells the two tokens of a send apart. -/
theorem Mint.sub_of_decodeSend {m : Mint} (h : decodeSend reading (m.token minting) = .ok claims) :
    (m.kind = .sendAccess ∧ ∃ id, String.ofList (hyphenated id) = claims.sub) ∨
      m.kind = .sendDownload ∧ '/' ∈ claims.sub.toList := by
  have hok : ((decodeSend reading (m.token minting)).map (·.write)).isOk = true := by
    rw [h]
    rfl
  have hi := Mint.issuer_of_decodeJwt hok
  have hsub := decodeSend_sub h
  cases m with
  | sendAccess id =>
    injection Option.some.inj hsub with hsub
    exact .inl ⟨rfl, id, hsub⟩
  | sendDownload =>
    injection Option.some.inj hsub with hsub
    refine .inr ⟨rfl, ?_⟩
    rw [← hsub]
    simp [generateSendClaims]
  | _ => cases hi

/-- The identifier of a send has no slash, so that the subject of a download finds none. -/
theorem Mint.accessedSend_kind {m : Mint} {draw : Nat → BitVec 128}
    (h : (accessedSend reading draw db (m.token minting)).isSome = true) :
    m.kind = .sendAccess := by
  unfold accessedSend SendHeaders.fromRequest at h
  cases hd : decodeSend reading (m.token minting) with
  | error =>
    rw [hd] at h
    cases h
  | ok =>
    rw [hd] at h
    rcases Mint.sub_of_decodeSend hd with ⟨hkind, -⟩ | ⟨-, hslash⟩
    · exact hkind
    · obtain ⟨s, hs⟩ := isSome_iff_exists.1 h
      have huuid := (Table.mem_of_find? hs).2
      simp only [decide_eq_true_eq] at huuid
      exact absurd hslash (slash_notMem_of_hyphenated huuid)

theorem Mint.downloadSend_kind {m : Mint} {sendId fileId : String}
    (h : downloadSend reading sendId fileId (m.token minting) = true) : m.kind = .sendDownload := by
  unfold downloadSend at h
  cases hd : decodeSend reading (m.token minting) with
  | error =>
    rw [hd] at h
    cases h
  | ok =>
    rw [hd] at h
    rcases Mint.sub_of_decodeSend hd with ⟨-, id, hid⟩ | ⟨hkind, -⟩
    · simp only [decide_eq_true_eq] at h
      refine absurd ?_ (slash_notMem_of_hyphenated hid)
      simp [h]
    · exact hkind

/-! ## Every token is taken in its time -/

/-- The times of a token. -/
def Mint.registered (site : Site) : Mint → Registered
  | login device user nbf exp scope clientId =>
    (LoginJwtClaims.new site device user nbf exp scope clientId).toRegistered
  | refresh nbf exp sub deviceToken token =>
    (RefreshJwtClaims.new site nbf exp sub deviceToken token).toRegistered
  | invite .. => site.registered .invite site.invitationLife
  | emergencyAccessInvite .. => site.registered .emergencyAccessInvite site.invitationLife
  | delete _ => site.registered .delete site.invitationLife
  | verifyEmail _ => site.registered .verifyEmail site.invitationLife
  | admin => site.registered .admin (site.adminSessionLifetime * 60)
  | sendAccess _ => site.registered .send 120
  | sendDownload _ _ => site.registered .send 120
  | orgApiKey _ _ => site.registered .orgApiKey 3600
  | fileDownload _ _ => site.registered .fileDownload 300
  | registerVerify .. => site.registered .registerVerify 1800
  | twoFactorRemember _ _ => site.registered .twoFactorRemember (30 * 86400)
  | sso => site.registered .sso 120

/-- The token can be read at this time. -/
structure Registered.InTime (r : Registered) (site : Site) : Prop where
  fits : r.Fits
  expires : 0 ≤ r.exp ∧ site.now - 30 ≤ r.exp
  starts : r.nbf ≤ site.now + 30

theorem Mint.validate_ok {m : Mint} {minting reading : Site}
    (horigin : reading.domainOrigin = minting.domainOrigin)
    (h : (m.registered minting).InTime reading) :
    validate reading m.kind.issuer (m.token minting) = .ok () := by
  have hexp : (m.token minting).get? "exp" = some (.int (m.registered minting).exp) := by
    cases m <;> rfl
  have hnbf : (m.token minting).get? "nbf" = some (.int (m.registered minting).nbf) := by
    cases m <;> rfl
  have hiss : m.kind.issuer.text minting = m.kind.issuer.text reading := by
    unfold Issuer.text
    rw [horigin]
  have hearly : immature reading (m.token minting) = false := by
    unfold immature
    rw [hnbf]
    exact decide_eq_false (Int.not_lt.2 h.starts)
  unfold validate
  rw [hexp, m.get?_iss minting, hearly]
  simp only [Int.not_lt.2 h.expires.1, Int.not_lt.2 h.expires.2, if_false, hiss, if_true,
    Bool.false_eq_true]

theorem decodeJwt_eq_ok {α : Type} {read : Json → Option α} {write : α → Json} {fits : α → Prop}
    {issuer site claims} (hread : ∀ {c}, fits c → read (write c) = some c) (hfits : fits claims)
    (hv : validate site issuer (write claims) = .ok ()) :
    decodeJwt read issuer site (write claims) = .ok claims := by
  unfold decodeJwt
  rw [hread hfits, hv]
  rfl

/-- What was written is taken and comes back. -/
theorem decodeJwt_returns {α : Type} {read : Json → Option α} {write : α → Json} {fits : α → Prop}
    {issuer site claims} (hread : ∀ {c}, fits c → read (write c) = some c) (hfits : fits claims)
    (hv : validate site issuer (write claims) = .ok ()) :
    ((decodeJwt read issuer site (write claims)).map write).isOk = true ∧
      (decodeJwt read issuer site (write claims)).map write = .ok (write claims) := by
  rw [decodeJwt_eq_ok hread hfits hv]
  exact ⟨rfl, rfl⟩

/-- The place knows the send that the token is for. -/
def Entry.Knows (m : Mint) : Entry → Prop
  | sendContent draw db => ∀ sendId, m = .sendAccess sendId →
    (findSend draw db (String.ofList (hyphenated sendId))).isSome = true
  | sendDownload sendId fileId => m = .sendDownload sendId fileId
  | _ => True

/-- **In its time a token is taken where its kind is asked for**, and with the claims it was minted
with. -/
theorem admits_own_kind (m : Mint) (minting reading : Site) (e : Entry)
    (horigin : reading.domainOrigin = minting.domainOrigin)
    (htime : (m.registered minting).InTime reading) (hkind : e.kind = m.kind) (hknows : e.Knows m) :
    e.admits reading (m.token minting) = true ∧
      e.claims reading (m.token minting) = .ok (m.token minting) := by
  have hv := Mint.validate_ok horigin htime
  have hfits := htime.fits
  cases e with
  | login =>
    cases m with
    | login => exact decodeJwt_returns LoginJwtClaims.read_write hfits hv
    | _ => cases hkind
  | refresh =>
    cases m with
    | refresh => exact decodeJwt_returns RefreshJwtClaims.read_write hfits hv
    | _ => cases hkind
  | invite =>
    cases m with
    | invite => exact decodeJwt_returns InviteJwtClaims.read_write hfits hv
    | _ => cases hkind
  | emergencyAccessInvite =>
    cases m with
    | emergencyAccessInvite =>
      exact decodeJwt_returns EmergencyAccessInviteJwtClaims.read_write hfits hv
    | _ => cases hkind
  | delete =>
    cases m with
    | delete => exact decodeJwt_returns BasicJwtClaims.read_write hfits hv
    | _ => cases hkind
  | verifyEmail =>
    cases m with
    | verifyEmail => exact decodeJwt_returns BasicJwtClaims.read_write hfits hv
    | _ => cases hkind
  | admin =>
    cases m with
    | admin => exact decodeJwt_returns BasicJwtClaims.read_write hfits hv
    | _ => cases hkind
  | orgApiKey =>
    cases m with
    | orgApiKey => exact decodeJwt_returns OrgApiKeyLoginJwtClaims.read_write hfits hv
    | _ => cases hkind
  | fileDownload =>
    cases m with
    | fileDownload => exact decodeJwt_returns FileDownloadClaims.read_write hfits hv
    | _ => cases hkind
  | registerVerify =>
    cases m with
    | registerVerify => exact decodeJwt_returns RegisterVerifyClaims.read_write hfits hv
    | _ => cases hkind
  | twoFactorRemember =>
    cases m with
    | twoFactorRemember => exact decodeJwt_returns TwoFactorRememberClaims.read_write hfits hv
    | _ => cases hkind
  | sendContent =>
    cases m with
    | sendAccess sendId =>
      have hd : decodeSend reading (Mint.token minting (.sendAccess sendId)) = .ok _ :=
        decodeJwt_eq_ok BasicJwtClaims.read_write hfits hv
      unfold Entry.admits Entry.claims accessedSend SendHeaders.fromRequest
      rw [hd]
      exact ⟨hknows sendId rfl, rfl⟩
    | _ => cases hkind
  | sendDownload sendId fileId =>
    obtain rfl : m = .sendDownload sendId fileId := hknows
    have hd : decodeSend reading (Mint.token minting (.sendDownload sendId fileId)) = .ok _ :=
      decodeJwt_eq_ok BasicJwtClaims.read_write hfits hv
    unfold Entry.admits Entry.claims downloadSend
    rw [hd]
    exact ⟨decide_eq_true rfl, rfl⟩

theorem admits_own_kind_verifyEmail :
    let token := (Mint.verifyEmail "user").token ⟨"https://vault", 0, true, 120, 20⟩
    Entry.verifyEmail.admits ⟨"https://vault", 60, true, 120, 20⟩ token = true ∧
      Entry.verifyEmail.claims ⟨"https://vault", 60, true, 120, 20⟩ token = .ok token :=
  admits_own_kind _ _ _ _ rfl ⟨⟨rfl, rfl⟩, by decide, by decide⟩ rfl trivial

/-! ## Every token is taken for its own kind -/

/-- **A token is taken for its own kind only**, whatever the settings it was minted and is read
with. -/
theorem admits_only_own_kind (m : Mint) (minting reading : Site) (e : Entry)
    (h : e.admits reading (m.token minting) = true) : e.kind = m.kind := by
  cases e with
  | login =>
    have hi := Mint.issuer_of_decodeJwt h
    cases m with
    | login => rfl
    | refresh =>
      have hread := (decodeJwt_isOk h).1
      rw [LoginJwtClaims.read_eq_none rfl] at hread
      cases hread
    | _ => cases hi
  | refresh =>
    have hi := Mint.issuer_of_decodeJwt h
    cases m with
    | login =>
      have hread := (decodeJwt_isOk h).1
      rw [RefreshJwtClaims.read_eq_none rfl] at hread
      cases hread
    | refresh => rfl
    | _ => cases hi
  | sendContent draw db => exact (Mint.accessedSend_kind h).symm
  | sendDownload sendId fileId => exact (Mint.downloadSend_kind h).symm
  | _ =>
    have hi := Mint.issuer_of_decodeJwt h
    cases m with
    | _ => first | rfl | cases hi

theorem admits_only_own_kind_delete :
    Entry.delete.admits ⟨"https://vault", 60, true, 120, 20⟩
        ((Mint.delete "user").token ⟨"https://vault", 0, true, 120, 20⟩) = true ∧
      Entry.delete.kind = (Mint.delete "user").kind := by
  have hadmits : Entry.delete.admits ⟨"https://vault", 60, true, 120, 20⟩
      ((Mint.delete "user").token ⟨"https://vault", 0, true, 120, 20⟩) = true := by decide
  exact ⟨hadmits, admits_only_own_kind _ _ _ _ hadmits⟩

end VaultServer.Jwt
