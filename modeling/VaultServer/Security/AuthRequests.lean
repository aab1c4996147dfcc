import VaultServer.Effects.Invariant

/-!
# Logins that another device approves

A device without a session posts an auth request with an access code; a session of the account
approves or denies it; the login then shows the access code instead of the password. The table of
the requests is written by these two handlers and by the job that removes old requests. A login
reads it and leaves it as it is, so that a request stays good for further logins until its five
minutes are over.
-/

namespace VaultServer

open Lib PartInvariant List Table Bool

variable {a : AuthRequest} {ip : String}

variable {env : Env} {w : World} {e : Event} {r : Nat}

/-! ## Where the rows come from -/

/-- A session of the account approves the request. -/
def Approves (w : World) (e : Event) (r : Nat) (u : UserId) : Prop :=
  ∃ caller data headers, e.request = .account caller (.putAuthRequest r data) ∧
    data.requestApproved = true ∧ ((Headers.fromRequest e.env caller).run w).1 = .ok headers ∧
    headers.user.uuid = u

/-- A session denies the request, and is not refused. -/
def Denies (w : World) (e : Event) (r : Nat) : Prop :=
  ∃ caller data answer, e.request = .account caller (.putAuthRequest r data) ∧
    data.requestApproved = false ∧ (e.prog.run w).1 = .ok answer

/-- The request posts an auth request that gets the number `r`. -/
def Creates (w : World) (e : Event) (r : Nat) (ip : String) : Prop :=
  ∃ data deviceType, e.request = .anyone (.postAuthRequest data deviceType ip) ∧
    ((postAuthRequest e.env data deviceType ip).run w).1 = .ok r

/-- How a row got into the table in one request. -/
inductive Origin (w : World) (e : Event) (a : AuthRequest) : Prop
  | old (hmem : a ∈ w.db.authRequests.rows)
  | posted (data : AuthRequestRequest) (deviceType : Int)
      (hpost : e.request = .anyone (.postAuthRequest data deviceType a.requestIp))
      (hnew : w.nextUuid ≤ a.uuid) (hdate : a.creationDate = e.env.now)
      (hopen : a.approved = none)
  | approved (b : AuthRequest) (hmem : b ∈ w.db.authRequests.rows)
      (hcopy : a = { b with approved := some true }) (happroves : Approves w e b.uuid b.userUuid)

/-- The rows while the request is served: their origin is known, and their numbers are below `n`,
which are used up. -/
def origins (w : World) (e : Event) (n : Nat) : PartInvariant where
  parts := [.authRequests]
  holds w' := n ≤ w'.nextUuid ∧ ∀ a ∈ w'.db.authRequests.rows, Origin w e a ∧ a.uuid < n
  of_same {w1 w2} h hn hw := by
    have hrows : w2.db.authRequests = w1.db.authRequests := h .authRequests mem_cons_self
    exact ⟨Nat.le_trans hw.1 hn, fun a ha => hw.2 a (hrows ▸ ha)⟩

/-- The numbers in the table are used up. -/
def Numbered (w : World) : Prop := ∀ a ∈ w.db.authRequests.rows, a.uuid < w.nextUuid

theorem Numbered.origins (h : Numbered w) (e : Event) : (origins w e w.nextUuid).holds w :=
  ⟨Nat.le_refl _, fun a ha => ⟨.old ha, h a ha⟩⟩

theorem AuthRequest.save_origins (ha : Origin w e a) (hlt : a.uuid < n) :
    (origins w e n).Keeps a.save ⊤ := by
  refine .exec fun w' db' hw' hs => ?_
  obtain ⟨-, rfl⟩ := Db.guarded_eq_some hs
  refine ⟨hw'.1, fun x hx => ?_⟩
  exact forall_putRows hw'.2 ⟨ha, hlt⟩ x hx

theorem AuthRequest.delete_origins : (origins w e n).Keeps a.delete ⊤ :=
  .execTotal fun _ hw' => ⟨hw'.1, fun x hx => hw'.2 x (mem_deleteWhere.1 hx).1⟩

theorem postAuthRequest_origins
    (hw : Numbered w) (hr : e.request = .anyone (.postAuthRequest data deviceType ip)) :
    ∃ n, (origins w e n).holds ((postAuthRequest e.env data deviceType ip).after w) := by
  unfold postAuthRequest
  rw [after_query]
  split
  · exact ⟨_, hw.origins e⟩
  · next user _ =>
    rw [after_query]
    refine after_ensure (P := fun w' => ∃ n, (origins w e n).holds w') ⟨_, hw.origins e⟩ fun _ => ?_
    rw [after_getUuid, Prog.after_bind_pure]
    -- the number that is drawn is the first that is not used up
    refine ⟨w.nextUuid + 1, PartInvariant.Keeps.after (AuthRequest.save_origins ?_ ?_) ?_⟩
    · exact .posted data deviceType hr (Nat.le_refl _) rfl rfl
    · exact Nat.lt_succ_self _
    · exact ⟨Nat.le_refl _, fun a ha => ⟨.old ha, Nat.lt_succ_of_lt (hw a ha)⟩⟩

theorem putAuthRequest_origins
    (happroves : data.requestApproved = true → Approves w e r headers.user.uuid) :
    (origins w e n).Keeps (putAuthRequest r data headers) ⊤ := by
  refine .query fun w' hw' => ?_
  split
  · exact .err
  · next b hfound =>
    obtain ⟨hmem, hkey⟩ := mem_of_find? hfound
    simp only [Bool.decide_and, and_eq_true, decide_eq_true_eq] at hkey
    obtain ⟨rfl, huser⟩ := hkey
    refine .check <| .ensure fun hopen => ?_
    split
    · next happroved =>
      obtain ⟨horigin, hlt⟩ := hw'.2 b hmem
      have hold : b ∈ w.db.authRequests.rows := by
        cases horigin with
        | old hmem => exact hmem
        | posted data' deviceType hpost =>
          obtain ⟨caller, data, headers, hput, -⟩ := happroves happroved
          rw [hput] at hpost
          cases hpost
        | approved b' _ hcopy =>
          rw [hcopy] at hopen
          cases hopen
      exact AuthRequest.save_origins (.approved b hold rfl (huser ▸ happroves happroved)) hlt
    · exact AuthRequest.delete_origins

theorem Event.after_postAuthRequest
    (hr : e.request = .anyone (.postAuthRequest data deviceType ip)) :
    e.prog.after w = (postAuthRequest e.env data deviceType ip).after w := by
  unfold Event.prog
  rw [hr]
  exact Prog.after_bind_pure.trans Prog.after_bind_pure

/-- **What a request does to the table.** -/
theorem Event.origins (hw : Numbered w) : ∃ n, (origins w e n).holds (e.prog.after w) := by
  have hstill : ∀ {S : List Part}, Writes S e.prog →
      [Part.authRequests].any S.contains = false →
      ∃ n, (VaultServer.origins w e n).holds (e.prog.after w) := fun h hs =>
    ⟨_, PartInvariant.Keeps.after (.of_writes h hs) (hw.origins e)⟩
  obtain ⟨env, request⟩ := e
  cases request with
  | organization caller org request => cases request <;> exact hstill Request.serve_writes rfl
  | account caller request =>
    cases request with
    | putAuthRequest r data =>
      refine ⟨w.nextUuid, Prog.after_bind_or ?_ fun headers hr => ?_⟩
      · exact PartInvariant.Keeps.after (.of_writes Headers.fromRequest_writes rfl) (hw.origins _)
      · rw [Prog.after_bind_pure]
        refine PartInvariant.Keeps.after (putAuthRequest_origins fun happroved => ?_) ?_
        · exact ⟨caller, data, headers, rfl, happroved, hr, rfl⟩
        · exact PartInvariant.Keeps.after (.of_writes Headers.fromRequest_writes rfl) (hw.origins _)
    | _ => exact hstill Request.serve_writes rfl
  | emergency caller request => cases request <;> exact hstill Request.serve_writes rfl
  | admin request => cases request <;> exact hstill Request.serve_writes rfl
  | anyone request =>
    cases request with
    | postAuthRequest =>
      rw [Event.after_postAuthRequest rfl]
      exact postAuthRequest_origins hw rfl
    | _ => exact hstill Request.serve_writes rfl
  | job task =>
    cases task with
    | purgeAuthRequests =>
      refine ⟨_, PartInvariant.Keeps.after (Q := ⊤) ?_ (hw.origins _)⟩
      refine Keeps.bind (Q := ⊤) ?_ fun _ _ => .ret trivial
      refine .query fun w' _ => .each fun a _ => ?_
      exact AuthRequest.delete_origins.attempt.bind fun _ _ => .ret trivial
    | _ => exact hstill Request.serve_writes rfl
  | _ => exact hstill Request.serve_writes rfl

theorem Numbered.step (hw : Numbered w) (e : Event) : Numbered (e.prog.after w) := by
  obtain ⟨n, hn, hrows⟩ := e.origins hw
  exact fun a ha => Nat.lt_of_lt_of_le (hrows a ha).2 hn

theorem Numbered.origin (hw : Numbered w)
    (ha : a ∈ (e.prog.after w).db.authRequests.rows) : Origin w e a := by
  obtain ⟨n, -, hrows⟩ := e.origins hw
  exact (hrows a ha).1

theorem Numbered.run (hw : Numbered w) (run : List Event) : Numbered (w.after run) :=
  World.after_induction (fun _ e h _ => h.step e) (World.each_of_forall (fun _ _ => trivial) w) hw

theorem numbered_initial : Numbered (World.initial faults) := nofun

theorem AuthRequest.delete_yields :
    Yields w a.delete fun _ w' => ∀ x ∈ w'.db.authRequests.rows, x.uuid ≠ a.uuid := by
  refine Yields.exec.mono fun _ w' h x hx => ?_
  rw [← Option.some.inj h] at hx
  exact of_decide_eq_false (mem_deleteWhere.1 hx).2

theorem putAuthRequest_yields (hdenied : data.requestApproved = false) :
    Yields w (putAuthRequest r data headers) fun _ w' =>
      ∀ x ∈ w'.db.authRequests.rows, x.uuid ≠ r := by
  refine .found .err fun b hfound => ?_
  have hkey := (mem_of_find? hfound).2
  simp only [Bool.decide_and, and_eq_true, decide_eq_true_eq] at hkey
  refine .ensure fun _ => .ensure fun _ => ?_
  rw [hdenied, ← hkey.1]
  exact AuthRequest.delete_yields

/-- A request that was denied is gone. -/
theorem Denies.gone (h : Denies w e r) :
    ∀ a ∈ (e.prog.after w).db.authRequests.rows, a.uuid ≠ r := by
  obtain ⟨caller, data, answer, hr, hdenied, hok⟩ := h
  obtain ⟨env, request⟩ := e
  obtain rfl := hr
  have hyields : Yields w (Request.serve env (.account caller (.putAuthRequest r data)))
      fun _ w' => ∀ a ∈ w'.db.authRequests.rows, a.uuid ≠ r := by
    refine .pass Headers.fromRequest_writes fun headers w1 _ => ?_
    exact .bind (putAuthRequest_yields hdenied) fun _ h => .ret h
  exact hyields answer hok

/-- A new request has the first number that was not used up. -/
theorem Creates.number (h : Creates w e r ip) : r = w.nextUuid ∧ r < (e.prog.after w).nextUuid := by
  obtain ⟨data, deviceType, hr, hok⟩ := h
  have hyields : Yields w (postAuthRequest e.env data deviceType ip) fun n w' =>
      n = w.nextUuid ∧ n < w'.nextUuid := by
    refine .found .err fun _ _ => ?_
    refine .query (.ensure fun _ => .getUuid ?_)
    refine .bind (Q := fun _ w' => w.nextUuid < w'.nextUuid) (fun _ _ => ?_)
      fun _ hlt => .ret ⟨rfl, hlt⟩
    exact AuthRequest.save_writes.nextUuid_le { w with nextUuid := w.nextUuid + 1 }
  rw [Event.after_postAuthRequest hr]
  exact hyields r hok

/-! ## The credential check -/

/-- The password grant up to and with its credential check. -/
def credentialCheck (env : Env) (data : ConnectData) (ip : String) : Cmd User := do
  ensure (!(env.ssoEnabled && env.ssoOnly)) "SSO sign-in is required"
  ensure data.clientId.isSome "client_id cannot be blank"
  ensure data.password.isSome "password cannot be blank"
  ensure data.scope.isSome "scope cannot be blank"
  ensure data.username.isSome "username cannot be blank"
  checkDevice data
  AuthMethod.password.checkScope data.scope
  external "Too many login requests"
  let username ← unwrap data.username
  match ← loadUser (User.findByMail · (trimText username)) with
  | none => err "Username or password is incorrect. Try again"
  | some user =>
    ensure user.enabled "This user has been disabled"
    let password ← unwrap data.password
    checkLogin env user ip password data.authRequest

/-- What the password grant does past its credential check. -/
def pastCheck (env : Env) (data : ConnectData) (ip : String) (user : User) : Cmd TokenResponse := do
  Prog.when (user.verifiedAt.isNone ∧ env.mailEnabled ∧ env.signupsVerify) (remindToVerify env user)
  let d ← getDevice env data user
  let (user, d, note) ← twofactorAuth env user data d ip
  authenticatedResponse env d (.new env d user .password) note

theorem login_password_eq :
    login env .password data ip = credentialCheck env data ip >>= pastCheck env data ip := by
  unfold credentialCheck login passwordLogin
  simp only [bind_assoc]
  -- the same calls up to the account that is looked up
  refine bind_congr fun _ => bind_congr fun _ => bind_congr fun _ => bind_congr fun _ => ?_
  refine bind_congr fun _ => bind_congr fun _ => bind_congr fun _ => bind_congr fun _ => ?_
  refine bind_congr fun _ => bind_congr fun found => ?_
  cases found with
  | none => rfl
  | some =>
    simp only [bind_assoc]
    rfl

/-- A login from the address `ip` that names the request and gets past the check as `u`. -/
def GetsPast (w : World) (e : Event) (r : Nat) (u : UserId) (ip : String) : Prop :=
  ∃ data user, e.request = .login .password data ip ∧ data.authRequest = some r ∧
    ((credentialCheck e.env data ip).run w).1 = .ok user ∧ user.uuid = u

/-- What the check asks of the request that a login names. -/
structure Shown (w : World) (now : Time) (r : Nat) (u : UserId) (ip : String) (a : AuthRequest) :
    Prop where
  row : a ∈ w.db.authRequests.rows
  number : a.uuid = r
  user : a.userUuid = u
  approved : a.approved = some true
  inTime : now < a.creationDate + 300
  address : ip = a.requestIp

theorem checkAuthRequest_yields : Yields w (checkAuthRequest env user ip password r) fun _ _ =>
      ∃ a, Shown w env.now r user.uuid ip a := by
  refine .found .err fun a hfound => ?_
  obtain ⟨hmem, hkey⟩ := mem_of_find? hfound
  simp only [Bool.decide_and, and_eq_true, decide_eq_true_eq] at hkey
  intro _ hok
  have hcheck := Keeps.ensured.yields (I := nothing) (w := w) trivial _ hok
  simp only [decide_eq_true_eq] at hcheck
  obtain ⟨-, -, happroved, hnow, hip, -⟩ := hcheck
  refine ⟨a, hmem, hkey.1, hkey.2, ?_, hnow, hip⟩
  cases h : a.approved with
  | none =>
    rw [h] at happroved
    cases happroved
  | some =>
    rw [h] at happroved
    exact congrArg some happroved

theorem GetsPast.shown (h : GetsPast w e r u ip) : ∃ a, Shown w e.env.now r u ip a := by
  obtain ⟨data, user, -, hname, hok, rfl⟩ := h
  have hyields : Yields w (credentialCheck e.env data ip) fun user _ =>
      ∃ a, Shown w e.env.now r user.uuid ip a := by
    refine .ensure fun _ => .ensure fun _ => .ensure fun _ => .ensure
      fun _ => .ensure fun _ => .still checkDevice_writes fun _ w1 h1 => ?_
    refine .still AuthMethod.checkScope_writes fun _ w2 h2 => ?_
    refine .still .external fun _ w3 h3 => .unwrap fun name _ => ?_
    have hrows : w3.db.authRequests = w.db.authRequests :=
      ((h1 .authRequests).trans (h2 .authRequests)).trans (h3 .authRequests)
    refine .found .err fun _ _ => ?_
    refine .ensure fun _ => .unwrap fun password _ => ?_
    rw [hname]
    refine .bind checkAuthRequest_yields fun _ ⟨a, ha⟩ => .ret ?_
    exact ⟨a, hrows ▸ ha.row, ha.number, ha.user, ha.approved, ha.inTime, ha.address⟩
  exact hyields user hok

/-! ## The life of a request -/

/-- What is known of the request `r`, posted from `ip` at `time`, after further requests. -/
structure Life (w1 : World) (r : Nat) (time : Time) (ip : String) (run : List Event) (w : World) :
    Prop where
  numbered : Numbered w
  used : r < w.nextUuid
  rows : ∀ a ∈ w.db.authRequests.rows, a.uuid = r → a.requestIp = ip ∧ a.creationDate = time ∧
    (a.approved = some true → w1.Happens (fun w e => Approves w e r a.userUuid) run)
  denied : w1.Happens (fun w e => Denies w e r) run → ∀ a ∈ w.db.authRequests.rows, a.uuid ≠ r

theorem Life.start (hw : Numbered w) (h : Creates w e r ip) :
    Life (e.prog.after w) r e.env.now ip [] (e.prog.after w) := by
  obtain ⟨hr, hnew⟩ := h.number
  obtain ⟨data, deviceType, hpost, -⟩ := h
  refine ⟨hw.step e, hnew, fun a ha hid => ?_, fun hno => hno.elim⟩
  cases hw.origin ha with
  | old hmem => exact absurd (hw a hmem) (by rw [hid, hr]; exact Nat.lt_irrefl _)
  | posted data' deviceType' hpost' _ hdate hopen =>
    rw [hpost] at hpost'
    injection hpost' with hpost'
    injection hpost' with _ _ hip
    refine ⟨hip.symm, hdate, fun happroved => ?_⟩
    rw [hopen] at happroved
    cases happroved
  | approved b hmem hcopy =>
    have hb := hw b hmem
    rw [show b.uuid = r by rw [← hid, hcopy], hr] at hb
    exact absurd hb (Nat.lt_irrefl _)

theorem Life.step (h : Life w1 r time ip run (w1.after run)) (e : Event) :
    Life w1 r time ip (run ++ [e]) (e.prog.after (w1.after run)) := by
  have hused : r < (e.prog.after (w1.after run)).nextUuid :=
    Nat.lt_of_lt_of_le h.used (Request.serve_writes.nextUuid_le _)
  refine ⟨h.numbered.step e, hused, fun a ha hid => ?_, fun hdenied a ha hid => ?_⟩
  · rw [World.happens_append_singleton]
    cases h.numbered.origin ha with
    | old hmem =>
      obtain ⟨hip, hdate, happroved⟩ := h.rows a hmem hid
      exact ⟨hip, hdate, fun ha => .inl (happroved ha)⟩
    | posted _ _ _ hnew => exact absurd h.used (Nat.not_lt.2 (hid ▸ hnew))
    | approved b hmem hcopy happroves =>
      have hbid : b.uuid = r := by rw [← hid, hcopy]
      obtain ⟨hip, hdate, -⟩ := h.rows b hmem hbid
      rw [hcopy]
      exact ⟨hip, hdate, fun _ => .inr (hbid ▸ happroves)⟩
  · rw [World.happens_append_singleton] at hdenied
    rcases hdenied with hdenied | hdenied
    · have hgone := h.denied hdenied
      cases h.numbered.origin ha with
      | old hmem => exact hgone a hmem hid
      | posted _ _ _ hnew => exact absurd h.used (Nat.not_lt.2 (hid ▸ hnew))
      | approved b hmem hcopy => exact hgone b hmem (by rw [← hid, hcopy])
    · exact hdenied.gone a ha hid

theorem Life.run (hw : Numbered w) (h : Creates w e r ip) (run : List Event) :
    Life (e.prog.after w) r e.env.now ip run ((e.prog.after w).after run) :=
  World.after_history (fun _ e h _ => h.step e) (World.each_of_forall (fun _ _ => trivial) _)
    (Life.start hw h)

/-! ## Whole runs -/

/-- The auth request that a login names. -/
def Event.named (e : Event) : Option Nat :=
  match e.request with
  | .login .password data _ => data.authRequest
  | _ => none

theorem GetsPast.named (h : GetsPast w e r u ip) : e.named = some r := by
  obtain ⟨data, user, hr, hname, -⟩ := h
  unfold Event.named
  rw [hr]
  exact hname

/-- A request that has let a login in is named again only when it is gone or its five minutes are
over. -/
def NotNamedAgain (w : World) (run : List Event) : Prop :=
  ∀ before e mid e' after r u ip, run = before ++ e :: (mid ++ e' :: after) →
    GetsPast (w.after before) e r u ip → e'.named = some r →
    ∀ a ∈ (w.after (before ++ e :: mid)).db.authRequests.rows, a.uuid = r →
      a.creationDate + 300 ≤ e'.env.now

/-- One approval, one login. -/
structure OneLogin (w : World) (run : List Event) (r : Nat) : Prop where
  once : ∀ before e mid e' after u ip u' ip', run = before ++ e :: (mid ++ e' :: after) →
    GetsPast (w.after before) e r u ip → ¬ GetsPast (w.after (before ++ e :: mid)) e' r u' ip'
  approved : ∀ before c mid e after ip0 u ip, run = before ++ c :: (mid ++ e :: after) →
    Creates (w.after before) c r ip0 → GetsPast (w.after (before ++ c :: mid)) e r u ip →
    ip = ip0 ∧ e.env.now < c.env.now + 300 ∧
      (w.after (before ++ [c])).Happens (fun w f => Approves w f r u) mid ∧
      ¬ (w.after (before ++ [c])).Happens (fun w f => Denies w f r) mid

/-- **A login that is let in was approved by a session of its account, comes in time and from the
address of the request, and the request was not denied.** -/
theorem GetsPast.approved (hw0 : Numbered w0) (hc : Creates (w0.after before) c r ip0)
    (h : GetsPast (w0.after (before ++ c :: mid)) e r u ip) :
    ip = ip0 ∧ e.env.now < c.env.now + 300 ∧
      (w0.after (before ++ [c])).Happens (fun w f => Approves w f r u) mid ∧
      ¬ (w0.after (before ++ [c])).Happens (fun w f => Denies w f r) mid := by
  have hlife := Life.run (hw0.run before) hc mid
  rw [World.after_append, World.after_cons] at h
  rw [World.after_append, World.after_cons, World.after_nil]
  obtain ⟨a, ha⟩ := h.shown
  obtain ⟨hip, hdate, happroved⟩ := hlife.rows a ha.row ha.number
  refine ⟨ha.address.trans hip, hdate ▸ ha.inTime, ha.user ▸ happroved ha.approved, ?_⟩
  exact fun hdenied => hlife.denied hdenied a ha.row ha.number

theorem oneLogin_of_notNamedAgain (faults : List Bool) (run : List Event)
    (h : NotNamedAgain (World.initial faults) run) (r : Nat) :
    OneLogin (World.initial faults) run r := by
  refine ⟨fun before e mid e' after u ip u' ip' hrun hpast hpast' => ?_,
    fun before c mid e after ip0 u ip _ hc hpast => hpast.approved numbered_initial hc⟩
  obtain ⟨a, ha⟩ := hpast'.shown
  have hover := h before e mid e' after r u ip hrun hpast hpast'.named a ha.row ha.number
  exact absurd ha.inTime (Int.not_lt.2 hover)

namespace Approval

/-- A login that shows the access code. -/
def enter : Event := ⟨{}, .login .password
  { clientId := some (.client "web")
    password := some "code"
    scope := some "api offline_access"
    username := some "a@example.com"
    deviceIdentifier := some ⟨7⟩
    deviceName := some "browser"
    deviceType := some "9"
    authRequest := some 6 } "ip"⟩

/-- The first device asks to be logged in again, and approves it itself. -/
def approved : List Event := Client.signedIn ++
  [⟨{}, .anyone (.postAuthRequest ⟨"code", ⟨7⟩, "a@example.com"⟩ 9 "ip")⟩,
    ⟨{}, .account Client.session (.putAuthRequest 6 ⟨⟨7⟩, true⟩)⟩]

end Approval

theorem notNamedAgain_of_pairwise
    (h : run.Pairwise fun e e' => e.named = none ∨ e.named ≠ e'.named) : NotNamedAgain w run := by
  intro before e mid e' after r u ip hrun hpast he'
  have he := hpast.named
  rw [hrun, pairwise_append, pairwise_cons] at h
  rcases h.2.1.1 e' (by simp) with hnone | hne
  · rw [hnone] at he
    cases he
  · exact absurd (he.trans he'.symm) hne

theorem getsPast_of_isOk
    (hr : e.request = .login .password data ip) (hname : data.authRequest = some r)
    (h : ((credentialCheck e.env data ip).run w).1.isOk = true) : ∃ u, GetsPast w e r u ip := by
  cases hrun : ((credentialCheck e.env data ip).run w).1 with
  | error =>
    rw [hrun] at h
    cases h
  | ok user => exact ⟨user.uuid, data, user, hr, hname, hrun, rfl⟩

open Approval in
theorem oneLogin_of_notNamedAgain_enter :
    (∃ u, GetsPast ((World.initial []).after approved) enter 6 u "ip") ∧
      OneLogin (World.initial []) (approved ++ [enter]) 6 := by
  refine ⟨getsPast_of_isOk rfl rfl (by decide), ?_⟩
  exact oneLogin_of_notNamedAgain [] (approved ++ [enter]) (notNamedAgain_of_pairwise (by decide)) 6

open Approval in
/-- **An approval lets a second login in**: nothing marks the request as used. -/
theorem approval_used_twice : ¬ OneLogin (World.initial []) (approved ++ [enter, enter]) 6 := by
  intro h
  obtain ⟨u, hfirst⟩ : ∃ u, GetsPast ((World.initial []).after approved) enter 6 u "ip" :=
    getsPast_of_isOk rfl rfl (by decide)
  obtain ⟨u', hsecond⟩ :
      ∃ u, GetsPast ((World.initial []).after (approved ++ [enter])) enter 6 u "ip" :=
    getsPast_of_isOk rfl rfl (by decide)
  exact h.once approved enter [] enter [] u "ip" u' "ip" rfl hfirst hsecond

end VaultServer
