import VaultServer.Deploy.Settings

/-!
# Evidence from the environment

`collect-target-evidence.py` reads the variables of the running container and reports whether
registration is closed and the admin page disabled. The server reads the same variables with other
rules: its words for "no" differ, it does not trim them, white space is not the same set of
characters, and a variable can come from a file. For both reports the conditions under which the
server bears them out are exact.
-/

namespace VaultServer.Deploy

open Lib List

/-! ## The collector -/

/-- The part of a `docker inspect` record that is read here, `Config.Env`. -/
structure Inspect where
  env : Option (List String)

/-- An entry without `=` is passed over, a later one of the same name wins. -/
def addEntry (values : String → Option String) (entry : String) : String → Option String :=
  match splitOnce '=' entry.toList with
  | none => values
  | some (key, value) =>
    fun name => if name = String.ofList key then some (String.ofList value) else values name

def envMap (inspect : Inspect) : String → Option String :=
  (inspect.env.getD []).foldl addEntry fun _ => none

def registrationIsClosed (inspect : Inspect) : Bool :=
  toLowercase (strip ((envMap inspect "SIGNUPS_ALLOWED").getD "")) ∈ ["false", "0", "no", "off"]

def adminIsDisabled (inspect : Inspect) : Bool :=
  match envMap inspect "ADMIN_TOKEN" with
  | none => true
  | some value => strip value = ""

/-- The record of a container that was started in the environment. -/
def Environ.inspect (environ : Environ) : Inspect := ⟨some (environ.vars.map fun v => v.1 ++ "=" ++ v.2)⟩

theorem addEntry_pair {key} (h : '=' ∉ key.toList) (values : String → Option String)
    (value name : String) :
    addEntry values (key ++ "=" ++ value) name = if name = key then some value else values name := by
  have hlist : (key ++ "=" ++ value).toList = key.toList ++ '=' :: value.toList := by
    simp [String.toList_append]
  simp only [addEntry, hlist, splitOnce_append h, String.ofList_toList]

/-- The collector sees the variables the server was started with. -/
theorem envMap_inspect (environ : Environ) (name : String) :
    envMap environ.inspect name = environ.var name := by
  have hfold : ∀ (vars : List (String × String)) (values : String → Option String),
      (vars.map Prod.fst).Nodup → (∀ v ∈ vars, '=' ∉ v.1.toList) →
      ((vars.map fun v => v.1 ++ "=" ++ v.2).foldl addEntry values) name =
        (vars.lookup name <|> values name) := by
    intro vars
    induction vars with
    | nil => intro values _ _; rfl
    | cons v vars ih =>
      intro values hnodup hnames
      obtain ⟨hfresh, hnodup⟩ := nodup_cons.mp hnodup
      rw [map_cons, foldl_cons,
        ih _ hnodup fun v' hv' => hnames v' (mem_cons_of_mem _ hv'),
        addEntry_pair (hnames v mem_cons_self)]
      by_cases hname : name = v.1
      · -- no later entry has the name
        subst hname
        have hnone : vars.lookup v.1 = none := by
          refine lookup_eq_none_iff.mpr fun p hp => ?_
          have hne : v.1 ≠ p.1 := fun h => hfresh (h ▸ mem_map_of_mem hp)
          simpa using hne
        simp [List.lookup, hnone]
      · have hbeq : (name == v.1) = false := by simpa using hname
        simp [List.lookup, hname, hbeq]
  have hall := hfold environ.vars (fun _ => none) environ.nodup environ.names
  simpa [envMap, Environ.inspect, Environ.var] using hall

/-! ## What the server reads -/

section
variable (host : Host)

/-- The variable, or the trimmed text of the file its twin names. -/
def settingOf (vars : String → Option String) (key : String) : Option String :=
  vars key <|> (vars (key ++ "_FILE")).bind fun file => (host.readToString file).map trimText

/-- The variables of the environment and, where they are missing there, of the environment file. -/
def Host.vars (name : String) : Option String :=
  host.environ.var name <|>
    match host.dotenv ((settingOf host host.environ.var "ENV_FILE").getD ".env") with
    | .loaded vars => vars.lookup name
    | _ => none

def Host.setting (key : String) : Option String := settingOf host host.vars key

end

section
variable {host : Host} {vars : String → Option String} {key value : String}

theorem getEnvStrValue_ok (h : getEnvStrValue host vars key = .ok r) :
    r = settingOf host vars key := by
  unfold getEnvStrValue at h
  unfold settingOf
  split at h
  · cases h
  · next hkey _ => rw [← Except.ok.inj h, hkey]; rfl
  · next file hkey hfile =>
    split at h
    · next content hread => simp [← Except.ok.inj h, hkey, hfile, hread]
    · cases h
  · next hkey hfile => simp [← Except.ok.inj h, hkey, hfile]

theorem getEnvBool_ok (h : getEnvBool host vars key = .ok r) :
    r = (settingOf host vars key).bind parseBool := by
  obtain ⟨value, hvalue, h⟩ := bind_eq_ok h
  rw [← getEnvStrValue_ok hvalue, ← Except.ok.inj h]

theorem loadEnvFile_ok (h : loadEnvFile host = .ok vars) : vars = host.vars := by
  obtain ⟨envFile, hfile, h⟩ := bind_eq_ok h
  funext name
  unfold Host.vars
  rw [← getEnvStrValue_ok hfile]
  split at h
  · next extra hload => rw [hload, ← Except.ok.inj h]
  · next hload =>
    split at h
    · cases h
    · rw [hload, ← Except.ok.inj h]
      simp
  · cases h

theorem validateConfig_tokens (h : validateConfig host cfg = .ok ()) :
    cfg.signupsDomainsWhitelist ≠ "" → "" ∉ tokens cfg.signupsDomainsWhitelist := by
  intro hne hempty
  unfold validateConfig at h
  dsimp only at h
  rw [if_pos ⟨hne, hempty⟩] at h
  cases h

/-- **What the server is configured with** once it runs. -/
theorem load_ok (h : host.load = .ok config) :
    config.signupsAllowed = ((host.setting "SIGNUPS_ALLOWED").bind parseBool).getD true ∧
    config.signupsDomainsWhitelist =
      toLowercase (trimText ((host.setting "SIGNUPS_DOMAINS_WHITELIST").getD "")) ∧
    config.adminToken = host.setting "ADMIN_TOKEN" ∧
    config.disableAdminToken = ((host.setting "DISABLE_ADMIN_TOKEN").bind parseBool).getD false ∧
    (config.signupsDomainsWhitelist ≠ "" → "" ∉ tokens config.signupsDomainsWhitelist) := by
  obtain ⟨builder, hbuilder, h⟩ := bind_eq_ok h
  obtain ⟨_, hvalid, h⟩ := bind_eq_ok h
  obtain ⟨vars, hvars, hbuilder⟩ := bind_eq_ok hbuilder
  obtain ⟨signups, hsignups, hbuilder⟩ := bind_eq_ok hbuilder
  obtain ⟨whitelist, hwhitelist, hbuilder⟩ := bind_eq_ok hbuilder
  obtain ⟨token, htoken, hbuilder⟩ := bind_eq_ok hbuilder
  obtain ⟨disable, hdisable, hbuilder⟩ := bind_eq_ok hbuilder
  have hsame := loadEnvFile_ok hvars
  have hconfig := Except.ok.inj h
  have hfields := Except.ok.inj hbuilder
  rw [← hconfig]
  refine ⟨?_, ?_, ?_, ?_, validateConfig_tokens hvalid⟩
  · rw [Host.setting, ← hsame, ← getEnvBool_ok hsignups, ← hfields]
    rfl
  · rw [Host.setting, ← hsame, ← getEnvStrValue_ok hwhitelist, ← hfields]
    rfl
  · rw [Host.setting, ← hsame, ← getEnvStrValue_ok htoken, ← hfields]
    rfl
  · rw [Host.setting, ← hsame, ← getEnvBool_ok hdisable, ← hfields]
    rfl

theorem setting_of_var (h : host.environ.var key = some value) : host.setting key = some value := by
  simp [Host.setting, settingOf, Host.vars, h]

end

/-! ## Closed registration -/

section
variable {c : Char} {v : String}

/-- Lower case leaves white space alone. -/
theorem lowerChar_of_isSpace (h : isSpace c = true) : lowerChar c = [c] := by
  let spaces := [9, 10, 11, 12, 13, 0x1c, 0x1d, 0x1e, 0x1f, 0x20, 0x85, 0xa0, 0x1680, 0x2000, 0x2001,
    0x2002, 0x2003, 0x2004, 0x2005, 0x2006, 0x2007, 0x2008, 0x2009, 0x200a, 0x2028, 0x2029, 0x202f,
    0x205f, 0x3000]
  have hall : ∀ n ∈ spaces, lowerChar (Char.ofNat n) = [Char.ofNat n] := by decide +kernel
  have hmem : c.toNat ∈ spaces := by
    simp only [isSpace, isWhitespace, Bool.or_eq_true, Bool.and_eq_true, decide_eq_true_eq] at h
    simp only [spaces, mem_cons, not_mem_nil, or_false]
    omega
  have hc := hall _ hmem
  rwa [Char.ofNat_toNat] at hc

/-- A word in lower case has no white space around it to strip. -/
theorem strip_of_word (h : ∀ c ∈ (toLowercase v).toList, isSpace c = false) : strip v = v := by
  have hv : ∀ c ∈ v.toList, isSpace c = false := by
    intro c hc
    refine Bool.eq_false_iff.mpr fun hspace => ?_
    rw [h c (mem_toLowercase (lowerChar_of_isSpace hspace) hc)] at hspace
    cases hspace
  rw [strip, trimBy_eq_self hv, String.ofList_toList]

end

theorem exists_closed_word {environ : Environ} (h : registrationIsClosed environ.inspect = true) :
    ∃ v, environ.var "SIGNUPS_ALLOWED" = some v ∧
      toLowercase (strip v) ∈ ["false", "0", "no", "off"] := by
  unfold registrationIsClosed at h
  rw [envMap_inspect] at h
  cases hv : environ.var "SIGNUPS_ALLOWED" with
  | none =>
    rw [hv] at h
    revert h
    decide
  | some v =>
    rw [hv] at h
    exact ⟨v, rfl, of_decide_eq_true h⟩

/-- Nobody can sign up: with no list of domains the variable has a word for "no" that the server
knows, written without blanks, and otherwise no domain on the list can be that of an address. -/
def Host.RegistrationShut (host : Host) : Prop :=
  let whitelist := toLowercase (trimText ((host.setting "SIGNUPS_DOMAINS_WHITELIST").getD ""))
  if whitelist = "" then
    ∃ v, host.environ.var "SIGNUPS_ALLOWED" = some v ∧ toLowercase v ∈ ["false", "0", "no"]
  else ∀ domain ∈ tokens whitelist, '@' ∈ domain.toList

theorem parseBool_false {v} (hclosed : toLowercase (strip v) ∈ ["false", "0", "no", "off"]) :
    (parseBool v).getD true = false ↔ toLowercase v ∈ ["false", "0", "no"] := by
  constructor
  · intro h
    have hword : toLowercase v ∈ falseValues := by
      unfold parseBool at h
      split at h
      · cases h
      split at h
      · assumption
      · cases h
    -- a word of the server has no blanks, so the collector has seen it as it is
    have hplain : ∀ w ∈ falseValues, ∀ c ∈ w.toList, isSpace c = false := by
      simp [falseValues, isSpace, isWhitespace]
    rw [strip_of_word (hplain _ hword)] at hclosed
    generalize toLowercase v = w at hword hclosed ⊢
    revert hclosed
    simp only [falseValues, mem_cons, not_mem_nil, or_false] at hword ⊢
    rcases hword with rfl | rfl | rfl | rfl | rfl <;> decide
  · intro h
    unfold parseBool
    generalize toLowercase v = w at h ⊢
    simp only [mem_cons, not_mem_nil, or_false] at h
    rcases h with rfl | rfl | rfl <;> decide

theorem at_of_mem_lowerChar {c} (h : '@' ∈ lowerChar c) : c = '@' := by
  have h64 : '@'.toNat = 64 := rfl
  unfold lowerChar at h
  split at h
  · by_cases hc : c.val ≥ 'A'.val ∧ c.val ≤ 'Z'.val
    · have hlow := (toNat_toLower hc).2.2
      rw [← mem_singleton.mp h] at hlow
      have := (toNat_toLower hc).1
      omega
    · rw [toLower_of_not_upper hc] at h
      exact (mem_singleton.mp h).symm
  split at h
  · exact absurd h (by decide)
  split at h
  · next hfind =>
    have := (run_target hfind (mem_singleton.mp h)).1
    omega
  · exact (mem_singleton.mp h).symm

/-- The domains on the list are in lower case. -/
theorem toLowercase_of_token (h : domain ∈ tokens (toLowercase text)) :
    toLowercase domain = domain := by
  obtain ⟨part, hpart, rfl⟩ := mem_map.mp h
  refine toLowercase_eq_self fun c hc => ?_
  rw [String.toList_ofList] at hc
  exact lowerChar_of_mem_toLowercase (mem_of_mem_splitOn hpart (mem_of_mem_trimBy hc))

/-- With a list of domains nobody can sign up exactly when no domain is that of an address. -/
theorem isEmailDomainAllowed_false_iff {config : ConfigItems}
    (hlist : config.signupsDomainsWhitelist = toLowercase text) (hne : toLowercase text ≠ "")
    (hvalid : "" ∉ tokens (toLowercase text)) :
    (∀ email, config.isEmailDomainAllowed email = false) ↔
      ∀ domain ∈ tokens (toLowercase text), '@' ∈ domain.toList := by
  unfold ConfigItems.isEmailDomainAllowed
  rw [hlist]
  constructor
  · intro h domain hdomain
    refine Classical.byContradiction fun hat => ?_
    -- otherwise an address at the domain may sign up
    have hlast : rsplitOnce '@' (['a'] ++ '@' :: domain.toList) = some (['a'], domain.toList) :=
      rsplitOnce_append hat
    have hsplit : rsplitOnce '@' (String.ofList ('a' :: '@' :: domain.toList)).toList =
        some (['a'], domain.toList) := by
      rw [String.toList_ofList]
      exact hlast
    have hnonempty : domain.toList ≠ [] := by
      intro hnil
      rw [String.toList_eq_nil_iff.mp hnil] at hdomain
      exact hvalid hdomain
    have hallowed := h (String.ofList ('a' :: '@' :: domain.toList))
    rw [hsplit] at hallowed
    simp [hnonempty, toLowercase_of_token hdomain, hdomain] at hallowed
  · intro h email
    cases hsplit : rsplitOnce '@' email.toList with
    | none => rfl
    | some p =>
      obtain ⟨name, domain⟩ := p
      have hat : '@' ∉ (toLowercase (String.ofList domain)).toList := by
        rw [toLowercase, String.toList_ofList, String.toList_ofList]
        intro hmem
        obtain heq | ⟨c, hc, hmem⟩ := mem_lowerAfter hmem
        · exact absurd heq (by decide)
        · exact (rsplitOnce_eq_some hsplit).2 (at_of_mem_lowerChar hmem ▸ hc)
      have hnot : toLowercase (String.ofList domain) ∉ tokens (toLowercase text) :=
        fun hmem => hat (h _ hmem)
      simp [hne, hnot]

/-- **Closed registration, as far as it is true.**  Of a server that runs and that the collector
reports as closed, nobody can sign up if and only if the settings shut the registration. -/
theorem registrationIsClosed_true_iff {host : Host} {config : ConfigItems}
    (hload : host.load = .ok config) (hclosed : registrationIsClosed host.environ.inspect = true) :
    (∀ email, config.isSignupAllowed email = false) ↔ host.RegistrationShut := by
  obtain ⟨hsignups, hlist, -, -, hvalid⟩ := load_ok hload
  obtain ⟨v, hv, hword⟩ := exists_closed_word hclosed
  unfold ConfigItems.isSignupAllowed Host.RegistrationShut
  by_cases hempty : config.signupsDomainsWhitelist = ""
  · have hno : config.signupsAllowed = (parseBool v).getD true := by
      rw [hsignups, setting_of_var hv]
      rfl
    simp only [hempty, ← hlist, if_true, forall_const, hno, parseBool_false hword, hv,
      Option.some.injEq, exists_eq_left']
  · have hvalid := hvalid hempty
    simp only [hempty, ← hlist, if_false]
    rw [hlist] at hempty hvalid ⊢
    exact isEmailDomainAllowed_false_iff hlist hempty hvalid

/-- A server that is started with the variables and finds no files. -/
def hostWith (vars : List (String × String)) (nodup : (vars.map Prod.fst).Nodup)
    (names : ∀ v ∈ vars, '=' ∉ v.1.toList) : Host where
  environ := ⟨vars, nodup, names⟩

def closedHost : Host :=
  hostWith [("SIGNUPS_ALLOWED", "False"), ("ADMIN_TOKEN", "")] (by decide) (by decide)

def closedConfig : ConfigItems := ⟨false, "", some "", false⟩

theorem closedHost_load : closedHost.load = .ok closedConfig := rfl

theorem registrationIsClosed_true_iff_closedHost :
    (∀ email, closedConfig.isSignupAllowed email = false) ↔ closedHost.RegistrationShut :=
  registrationIsClosed_true_iff closedHost_load (by decide +kernel)

def offHost : Host := hostWith [("SIGNUPS_ALLOWED", "off")] (by decide) (by decide)

/-- The collector takes `off` for a "no"; the server does not know the word and stays open. -/
theorem offHost_staysOpen :
    registrationIsClosed offHost.environ.inspect = true ∧
    (offHost.load.toOption.map fun config => config.isSignupAllowed "a@example.com") = some true := by
  decide +kernel

/-! ## The admin page -/

/-- Nobody may come in without a token, and there is none: the variable has no characters that only
the collector takes for white space, and no file brings a text that is not blank. -/
def Host.AdminUnset (host : Host) : Prop :=
  (host.setting "DISABLE_ADMIN_TOKEN").bind parseBool ≠ some true ∧
    match host.environ.var "ADMIN_TOKEN" with
    | some v => ∀ c ∈ v.toList, ¬ (0x1c ≤ c.toNat ∧ c.toNat ≤ 0x1f)
    | none => ∀ t, host.setting "ADMIN_TOKEN" = some t → ∀ c ∈ t.toList, isWhitespace c = true

theorem trimText_eq_empty_iff : trimText t = "" ↔ ∀ c ∈ t.toList, isWhitespace c = true := by
  rw [trimText, ← trimBy_eq_nil_iff, ← String.toList_eq_nil_iff, String.toList_ofList]

/-- A blank text as the collector sees it is blank for the server unless it has separators. -/
theorem blank_iff {v} (h : strip v = "") : (∀ c ∈ v.toList, isWhitespace c = true) ↔
      ∀ c ∈ v.toList, ¬ (0x1c ≤ c.toNat ∧ c.toNat ≤ 0x1f) := by
  have hspace : ∀ c ∈ v.toList, isSpace c = true := by
    rw [strip, ← String.toList_eq_nil_iff, String.toList_ofList] at h
    exact trimBy_eq_nil_iff.mp h
  have hone : ∀ c : Char, isSpace c = true →
      (isWhitespace c = true ↔ ¬ (0x1c ≤ c.toNat ∧ c.toNat ≤ 0x1f)) := by
    intro c hc
    simp only [isSpace, isWhitespace, Bool.or_eq_true, Bool.and_eq_true, decide_eq_true_eq] at hc ⊢
    omega
  constructor
  · exact fun h c hc => (hone c (hspace c hc)).mp (h c hc)
  · exact fun h c hc => (hone c (hspace c hc)).mpr (h c hc)

theorem routes_eq_iff (config : ConfigItems) : config.routes = [.adminDisabled] ↔
      config.disableAdminToken = false ∧
        ∀ t, config.adminToken = some t → ∀ c ∈ t.toList, isWhitespace c = true := by
  have hset : config.isAdminTokenSet = false ↔
      ∀ t, config.adminToken = some t → ∀ c ∈ t.toList, isWhitespace c = true := by
    unfold ConfigItems.isAdminTokenSet
    cases config.adminToken with
    | none => simp
    | some => simp [trimText_eq_empty_iff]
  rw [← hset]
  unfold ConfigItems.routes
  cases config.disableAdminToken <;> cases config.isAdminTokenSet <;> simp

/-- **A disabled admin page, as far as it is true.**  Of a server that runs and that the collector
reports as having no admin page, only `admin_disabled` is mounted if and only if no setting that the
collector does not look at opens the page. -/
theorem adminIsDisabled_true_iff {host : Host} {config : ConfigItems}
    (hload : host.load = .ok config) (hdisabled : adminIsDisabled host.environ.inspect = true) :
    config.routes = [.adminDisabled] ↔ host.AdminUnset := by
  obtain ⟨-, -, htoken, hflag, -⟩ := load_ok hload
  unfold adminIsDisabled at hdisabled
  rw [envMap_inspect] at hdisabled
  have hflag' : config.disableAdminToken = false ↔
      (host.setting "DISABLE_ADMIN_TOKEN").bind parseBool ≠ some true := by
    rw [hflag]
    cases (host.setting "DISABLE_ADMIN_TOKEN").bind parseBool with
    | none => simp
    | some b => cases b <;> simp
  rw [routes_eq_iff, Host.AdminUnset, hflag', htoken]
  refine and_congr_right fun _ => ?_
  cases hv : host.environ.var "ADMIN_TOKEN" with
  | none => rfl
  | some v =>
    rw [hv] at hdisabled
    simp only [setting_of_var hv, Option.some.injEq, forall_eq']
    exact blank_iff (of_decide_eq_true hdisabled)

theorem adminIsDisabled_true_iff_closedHost :
    closedConfig.routes = [.adminDisabled] ↔ closedHost.AdminUnset :=
  adminIsDisabled_true_iff closedHost_load (by decide +kernel)

def openAdminHost : Host :=
  hostWith [("ADMIN_TOKEN", ""), ("DISABLE_ADMIN_TOKEN", "true")] (by decide) (by decide)

/-- The token is blank, and the page is open to everybody. -/
theorem openAdminHost_mountsAdminPage :
    adminIsDisabled openAdminHost.environ.inspect = true ∧
    (openAdminHost.load.toOption.map fun config => decide (.adminPage ∈ config.routes)) =
      some true := by
  decide +kernel

end VaultServer.Deploy
