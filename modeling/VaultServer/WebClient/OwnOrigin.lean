import VaultServer.Lib.Url.Authority
import VaultServer.WebClient.Requests

/-!
# Where the web client sends its token

The client turns an application path into a URL of its server and sends the access token there. The
check of the path looks at its first characters, the URL parser at what is left of them: a backslash
counts as a slash, and tabs and newlines are dropped before it looks. A path behind which it finds
a second slash names a host of its own.
-/

namespace VaultServer.WebClient

open Lib Option Bool

/-! ## The server's origins -/

/-- The base URL of an origin, with its authority. -/
structure IsBase (idna : Url.Idna) (origin : String) (base : Url) : Prop where
  parsed : Url.parse idna none (origin ++ "/").toList = some base
  special : base.isSpecial = true
  notFile : Url.isFile base.scheme = false
  path : base.path = .segments [[]]
  scheme : base.scheme = origin.toList.takeWhile (· ≠ ':')
  host : ∃ host, base.host = some host ∧
    Url.serializeOrigin (some ⟨base.scheme, host, base.port⟩) = origin.toList

section
variable {idna : Url.Idna}

/-- A plain lower-case name is parsed as it stands. -/
theorem parseHost_name {name : List Char} (hascii : Url.isAscii name = true)
    (hlabel : Url.hasEncodedLabel name = false) (hlower : name.map Char.toLower = name)
    (hdecode : Url.percentDecode (Url.utf8Encode name) = Url.utf8Encode name)
    (hbracket : name.head? ≠ some '[') : Url.parseHost idna true name =
      if name = [] ∨ name.any Url.isForbiddenDomain then none
      else if Url.endsInNumber name then (Url.parseIpv4 name).map .ipv4
      else some (.domain name) := by
  unfold Url.parseHost
  split
  · simp at hbracket
  · rw [hdecode, idna.ascii name hascii hlabel, hlower]
    rfl

theorem exists_isBase {origin} (h : origin = productionOrigin ∨ origin ∈ developmentOrigins) :
    ∃ base, IsBase idna origin base := by
  have hdev : origin ∈ developmentOrigins → origin = "http://127.0.0.1:8080" ∨
      origin = "http://localhost:8080" := by simp [developmentOrigins]
  rcases h.imp_right hdev with rfl | rfl | rfl
  · have hhost : Url.parseHost idna true "vault.goreecloud.com".toList =
        some (.domain "vault.goreecloud.com".toList) := by
      rw [parseHost_name (by decide) (by decide) (by decide) (by decide) (by decide)]
      decide
    have hparse : Url.parse idna none (productionOrigin ++ "/").toList =
        (Url.parseHost idna true "vault.goreecloud.com".toList).map fun host =>
          { scheme := "https".toList, host := some host, path := .segments [[]] } := rfl
    rw [hhost] at hparse
    exact ⟨_, hparse, by decide, by decide, rfl, by decide, _, rfl, by decide⟩
  · have hhost : Url.parseHost idna true "127.0.0.1".toList = some (.ipv4 ⟨127, 0, 0, 1⟩) := by
      rw [parseHost_name (by decide) (by decide) (by decide) (by decide) (by decide)]
      decide
    have hparse : Url.parse idna none ("http://127.0.0.1:8080" ++ "/").toList =
        (Url.parseHost idna true "127.0.0.1".toList).bind fun host =>
          some { scheme := "http".toList, host := some host, port := some 8080,
                 path := .segments [[]] } := rfl
    rw [hhost] at hparse
    exact ⟨_, hparse, by decide, by decide, rfl, by decide, _, rfl, by decide⟩
  · have hhost : Url.parseHost idna true "localhost".toList = some (.domain "localhost".toList) := by
      rw [parseHost_name (by decide) (by decide) (by decide) (by decide) (by decide)]
      decide
    have hparse : Url.parse idna none ("http://localhost:8080" ++ "/").toList =
        (Url.parseHost idna true "localhost".toList).bind fun host =>
          some { scheme := "http".toList, host := some host, port := some 8080,
                 path := .segments [[]] } := rfl
    rw [hhost] at hparse
    exact ⟨_, hparse, by decide, by decide, rfl, by decide, _, rfl, by decide⟩

end

theorem resolveServerOrigin_cases {page locationOrigin origin}
    (h : resolveServerOrigin page locationOrigin = .ok origin) :
    origin = productionOrigin ∨ origin ∈ developmentOrigins := by
  unfold resolveServerOrigin at h
  cases hcurrent : normalizeOrigin page locationOrigin with
  | error =>
    rw [hcurrent] at h
    cases h
  | ok current =>
    rw [hcurrent] at h
    change (if current = productionOrigin then pure productionOrigin
      else if developmentOrigins.contains current then pure current
      else pure productionOrigin : Except JsError String) = .ok origin at h
    split at h
    · exact .inl (Except.ok.inj h).symm
    · split at h
      · next hdev => exact .inr (Except.ok.inj h ▸ List.contains_iff_mem.1 hdev)
      · exact .inl (Except.ok.inj h).symm

/-! ## Staying on the origin -/

/-- The location that decides, when none is given the page's own. -/
def decidingLocation (page : Page) (locationOrigin : Option String) : String :=
  locationOrigin.getD (defaultLocationOrigin page)

/-- Nothing that is built or sent for the path goes anywhere but to the server's origin. -/
structure StaysOnOrigin (page : Page) (path : String) (locationOrigin : Option String) : Prop where
  build : ∀ url, buildApiUrl page path locationOrigin = .ok url →
    resolveServerOrigin page (decidingLocation page locationOrigin) = .ok (urlOrigin page url)
  request : ∀ (options : ApiOptions) request, options.locationOrigin = locationOrigin →
    (requestApi page path options).sent = some request →
    resolveServerOrigin page (decidingLocation page locationOrigin) =
      .ok (urlOrigin page request.url)
  authenticated : ∀ tokens (options : AuthenticatedOptions) request,
    options.locationOrigin = locationOrigin →
    (requestAuthenticatedApi page tokens path options).1.sent = some request →
    resolveServerOrigin page (decidingLocation page locationOrigin) =
      .ok (urlOrigin page request.url)

/-- What the URL parser finds behind the first slash, without tabs and newlines, starts no authority,
or one that is the origin's own. -/
def NamesNoOther (idna : Url.Idna) (path origin : String) : Prop :=
  ∀ rest, Url.significant path.toList = '/' :: rest → Url.startsAuthority rest = true →
    ∀ host port, Url.namedAuthority idna (origin.toList.takeWhile (· ≠ ':'))
      (rest.dropWhile fun c => c = '/' ∨ c = '\\') = some (host, port) →
    Url.serializeOrigin (some ⟨origin.toList.takeWhile (· ≠ ':'), host, port⟩) = origin.toList

section
variable {page : Page} {path : String} {locationOrigin : Option String} {origin : String} {base : Url}

theorem buildApiUrl_eq (hpath : isApplicationPath path = true)
    (horigin : resolveServerOrigin page (decidingLocation page locationOrigin) = .ok origin)
    (hbase : IsBase page.idna origin base) :
    buildApiUrl page path locationOrigin = newUrl page path (some base) := by
  have hnew : newUrl page (origin ++ "/") none = .ok base := by rw [newUrl, hbase.parsed]
  unfold decidingLocation at horigin
  simp only [buildApiUrl, hpath, horigin, Bool.not_true, Bool.false_eq_true, if_false]
  show (newUrl page (origin ++ "/") none >>= fun base => newUrl page path (some base)) = _
  rw [hnew]
  rfl

/-- A URL is built for an application path and a location that parses. -/
theorem of_buildApiUrl (h : buildApiUrl page path locationOrigin = .ok url) :
    isApplicationPath path = true ∧
      ∃ origin, resolveServerOrigin page (decidingLocation page locationOrigin) = .ok origin := by
  by_cases hpath : isApplicationPath path = true
  · refine ⟨hpath, ?_⟩
    cases hres : resolveServerOrigin page (decidingLocation page locationOrigin) with
    | ok origin => exact ⟨origin, rfl⟩
    | error =>
      unfold decidingLocation at hres
      simp only [buildApiUrl, hpath, hres, Bool.not_true, Bool.false_eq_true, if_false] at h
      cases h
  · rw [not_eq_true] at hpath
    simp only [buildApiUrl, hpath, Bool.not_false, if_true] at h
    cases h

theorem newUrl_eq_ok {input base url} :
    newUrl page input base = .ok url ↔ Url.parse page.idna base input.toList = some url := by
  unfold newUrl
  cases Url.parse page.idna base input.toList <;> simp

theorem significant_of_isApplicationPath (h : isApplicationPath path = true) :
    ∃ rest, Url.significant path.toList = '/' :: rest := by
  have hstart : startsWith path "/" = true := (and_eq_true_iff.1 h).1
  cases hlist : path.toList with
  | nil => simp [startsWith, hlist] at hstart
  | cons c s =>
    obtain rfl : '/' = c := by simpa [startsWith, hlist] using hstart
    exact Url.significant_cons (by decide) s

theorem urlOrigin_of_place
    (hbase : IsBase page.idna origin base) (hplace : url.place = (base.scheme, some host, port)) :
    urlOrigin page url = String.ofList (Url.serializeOrigin (some ⟨base.scheme, host, port⟩)) := by
  simp only [Url.place, Prod.mk.injEq] at hplace
  obtain ⟨hscheme, hhost, hport⟩ := hplace
  have hsp : url.isSpecial = true := by
    rw [Url.isSpecial, hscheme]
    exact hbase.special
  have hfile : Url.isFile url.scheme = false := hscheme ▸ hbase.notFile
  rw [urlOrigin, Url.origin_eq hsp hfile hhost, hscheme, hport]

/-- The path decides: a URL leaves the origin exactly by naming another authority. -/
theorem build_iff : (∀ url, buildApiUrl page path locationOrigin = .ok url →
      resolveServerOrigin page (decidingLocation page locationOrigin) = .ok (urlOrigin page url)) ↔
    (isApplicationPath path = true → ∀ origin,
      resolveServerOrigin page (decidingLocation page locationOrigin) = .ok origin →
      NamesNoOther page.idna path origin) := by
  constructor
  · intro h hpath origin horigin rest hrest hauth host port hnamed
    obtain ⟨base, hbase⟩ : ∃ base, IsBase page.idna origin base :=
      exists_isBase (resolveServerOrigin_cases horigin)
    have hplace : (Url.parse page.idna (some base) path.toList).map Url.place = _ :=
      Url.parse_authority_place hbase.notFile hbase.path hrest hbase.special hauth
    rw [hbase.scheme, hnamed, map_some, ← hbase.scheme] at hplace
    obtain ⟨url, hparse, hplace⟩ := map_eq_some_iff.1 hplace
    have hurl : buildApiUrl page path locationOrigin = .ok url := by
      rw [buildApiUrl_eq hpath horigin hbase]
      exact newUrl_eq_ok.2 hparse
    have hown := Except.ok.inj (horigin.symm.trans (h url hurl))
    rw [urlOrigin_of_place hbase hplace] at hown
    rw [← hbase.scheme]
    conv_rhs => rw [hown, String.toList_ofList]
  · intro h url hurl
    obtain ⟨hpath, origin, horigin⟩ := of_buildApiUrl hurl
    obtain ⟨base, hbase⟩ : ∃ base, IsBase page.idna origin base :=
      exists_isBase (resolveServerOrigin_cases horigin)
    obtain ⟨rest, hrest⟩ := significant_of_isApplicationPath hpath
    rw [buildApiUrl_eq hpath horigin hbase, newUrl_eq_ok] at hurl
    rw [horigin]
    refine congrArg Except.ok ?_
    by_cases hauth : Url.startsAuthority rest = true
    · have hplace : (Url.parse page.idna (some base) path.toList).map Url.place = _ :=
        Url.parse_authority_place hbase.notFile hbase.path hrest hbase.special hauth
      rw [hurl, map_some] at hplace
      obtain ⟨⟨host, port⟩, hnamed, hplace⟩ := map_eq_some_iff.1 hplace.symm
      have hown := h hpath origin horigin rest hrest hauth host port (hbase.scheme ▸ hnamed)
      rw [urlOrigin_of_place hbase hplace.symm, hbase.scheme, hown, String.ofList_toList]
    · rw [not_eq_true] at hauth
      have hplace : (Url.parse page.idna (some base) path.toList).map Url.place = _ :=
        Url.parse_rooted_place hbase.notFile hbase.path hrest hauth
      rw [hurl, map_some] at hplace
      obtain ⟨host, hhost, hown⟩ := hbase.host
      have hplace' : url.place = (base.scheme, some host, base.port) := by
        rw [Option.some.inj hplace, Url.place, hhost]
      rw [urlOrigin_of_place hbase hplace', hown, String.ofList_toList]

/-! ## Requests go where the URL says -/

/-- Leaving the location out is naming the page's own. -/
theorem buildApiUrl_orElse : buildApiUrl page path (locationOrigin <|> page.location) =
      buildApiUrl page path locationOrigin := by
  cases locationOrigin with
  | some => rfl
  | none => cases hl : page.location <;> simp [buildApiUrl, defaultLocationOrigin, hl]

theorem prepareRequest_url (h : prepareRequest page path options = .ok (request, fetchImpl)) :
    buildApiUrl page path options.locationOrigin = .ok request.url := by
  rw [← buildApiUrl_orElse]
  unfold prepareRequest at h
  dsimp only at h
  split at h
  · cases h
  split at h
  · cases h
  split at h
  · cases h
  · obtain ⟨url, hurl, h⟩ := bind_eq_ok h
    obtain ⟨-, -, h⟩ := bind_eq_ok h
    split at h
    · obtain ⟨-, -, h⟩ := bind_eq_ok h
      cases h
      exact hurl
    · cases h
      exact hurl

theorem requestApi_url (h : (requestApi page path options).sent = some request) :
    buildApiUrl page path options.locationOrigin = .ok request.url := by
  unfold requestApi at h
  cases hprep : prepareRequest page path options with
  | error =>
    rw [hprep] at h
    cases h
  | ok =>
    rw [hprep] at h
    obtain rfl := Option.some.inj h
    exact prepareRequest_url hprep

theorem requestAuthenticatedApi_url
    (h : (requestAuthenticatedApi page tokens path options).1.sent = some request) :
    buildApiUrl page path options.locationOrigin = .ok request.url := by
  unfold requestAuthenticatedApi at h
  cases hauth : authorize tokens options with
  | error =>
    rw [hauth] at h
    cases h
  | ok headers =>
    rw [hauth] at h
    have hurl : buildApiUrl page path
        ({ options.toApiOptions with headers } : ApiOptions).locationOrigin = .ok request.url :=
      requestApi_url h
    exact hurl

variable (page path locationOrigin) in
/-- **When the web client stays on its origin.**  For every path and location: the URL that is built
and the requests that are sent, with the access token or without, go to the server's origin exactly
when the path, as the URL parser reads it, names no other authority. -/
theorem staysOnOrigin_iff : StaysOnOrigin page path locationOrigin ↔
    (isApplicationPath path = true → ∀ origin,
      resolveServerOrigin page (decidingLocation page locationOrigin) = .ok origin →
      NamesNoOther page.idna path origin) := by
  rw [← build_iff]
  constructor
  · exact fun h => h.build
  · intro h
    refine ⟨h, fun options request hloc hsent => ?_, fun tokens options request hloc hsent => ?_⟩
    · exact h _ (hloc ▸ requestApi_url hsent)
    · exact h _ (hloc ▸ requestAuthenticatedApi_url hsent)

end

/-! ## A backslash behind the slash -/

/-- A page of the production origin with a signed-in account. -/
def samplePage : Page := { idna := .plain, location := some productionOrigin }

def sampleTokens : TokenState :=
  { accountId := some "acct-a", accessToken := some "secret", refreshToken := some "refresh",
    accessExpiresAt := some 100000 }

def sampleOptions : AuthenticatedOptions :=
  { accountId := .string "acct-a", now := some 0, fetchImpl := some fun _ => .failed false }

/-- The path is accepted, and the token goes to the host it names. -/
theorem backslash_leavesOrigin :
    (requestAuthenticatedApi samplePage sampleTokens "/\\[::1]/api/sync" sampleOptions).1.sent.map
        (fun request => (urlOrigin samplePage request.url, request.headers)) =
      some ("https://[::1]", [("authorization", "Bearer secret"), ("accept", "application/json")]) ∧
    ¬ StaysOnOrigin samplePage "/\\[::1]/api/sync" none := by
  have hsent : (requestAuthenticatedApi samplePage sampleTokens "/\\[::1]/api/sync"
      sampleOptions).1.sent.map (fun request => (urlOrigin samplePage request.url, request.headers)) =
      some ("https://[::1]",
        [("authorization", "Bearer secret"), ("accept", "application/json")]) := by
    decide +kernel
  refine ⟨hsent, fun hstays => ?_⟩
  obtain ⟨request, hrequest, heq⟩ := map_eq_some_iff.1 hsent
  have hown := hstays.authenticated sampleTokens sampleOptions request rfl hrequest
  have hurl : urlOrigin samplePage request.url = "https://[::1]" := congrArg Prod.fst heq
  rw [hurl] at hown
  have horigin : resolveServerOrigin samplePage (decidingLocation samplePage none) =
      .ok productionOrigin := by
    decide +kernel
  rw [horigin] at hown
  exact absurd (Except.ok.inj hown) (by decide)

end VaultServer.WebClient
