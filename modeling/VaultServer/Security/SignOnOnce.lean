import VaultServer.Effects.Accounts
import VaultServer.Effects.Traces

/-!
# One login for one code

The row of a sign-on is found by the provider's code and removed when a login redeems it. The
removal does not look at how many rows went, and the exchange stores its answer by an upsert, so a
login that has found the row while another one was about to redeem it goes through as well. Where
each of these writes finds the row still there, a code is good for one login.
-/

namespace VaultServer

open Lib List Table

variable {env : Env} {code state : String} {before : List (Access World Call)}

/-! ## The calls of a login -/

/-- Every row that holds the code is the row of the sign-on `state`. -/
def OneFlow (code state : String) (w : World) : Prop :=
  ∀ a ∈ w.db.ssoAuth.rows, a.codeResponse = some code → a.state = state

/-- What a request has read so far was read while the code belonged to one sign-on. -/
def SawOneFlow (code state : String) (before : List (Access World Call)) : Prop :=
  ∀ a ∈ before, OneFlow code state a.pre

theorem SawOneFlow.suffix {after} (h : SawOneFlow code state after) (hs : before <:+ after) :
    SawOneFlow code state before :=
  fun a ha => h a (hs.subset ha)

/-- A call as far as sign-ons are concerned: only the row of the code is saved and redeemed, and no
other call adds a row. -/
def Call.OnFlow (code state : String) (before : List (Access World Call)) (l : Call)
    (u : World → World) : Prop :=
  match l with
  | .saveSsoAuth row =>
    u = World.exec row.saveStmt ∧ (SawOneFlow code state before → row.state = state)
  | .redeemSsoAuth s =>
    (u = World.exec fun db => some (SsoAuth.deleteStmt s db)) ∧
      (SawOneFlow code state before → s = state)
  | _ => ∀ w, (u w).db.ssoAuth.rows ⊆ w.db.ssoAuth.rows

theorem onFlow_about : Promise.About (Call.OnFlow code state) .ssoAuth := by
  intro S s l u hs hu
  have hsame : ∀ w : World, (u w).db.ssoAuth = w.db.ssoAuth := fun w => (hu.keeps w).2 _ hs
  have hrows : ∀ w : World, (u w).db.ssoAuth.rows ⊆ w.db.ssoAuth.rows := fun w a ha =>
    hsame w ▸ ha
  cases l with
  | saveSsoAuth => exact absurd (hu.part _ rfl) hs
  | redeemSsoAuth => exact absurd (hu.part _ rfl) hs
  | _ => exact hrows

/-- Every call of the program keeps to the row of the code, and `Q` holds when it returns. -/
abbrev OnFlow {α : Type} (code state : String) (before : List (Access World Call)) (c : Cmd α)
    (Q : List (Access World Call) → α → Prop) : Prop :=
  Traces (Call.OnFlow code state) before c Q

theorem SsoAuth.exec_delete_subset (s : String) (w : World) :
    (w.exec fun db => some (SsoAuth.deleteStmt s db)).db.ssoAuth.rows ⊆ w.db.ssoAuth.rows := by
  obtain ⟨-, hx⟩ | ⟨db', -, hs, hx⟩ := w.exec_cases fun db => some (SsoAuth.deleteStmt s db)
  · rw [hx]
    exact List.Subset.refl _
  · rw [hx]
    obtain rfl := Option.some.inj hs
    exact fun a ha => (mem_deleteWhere.1 ha).1

/-- The row that a login goes on with is the one of the code. -/
theorem exchangeCode_onFlow :
    OnFlow code state before (exchangeCode env answer code codeVerifier) fun s r =>
      SawOneFlow code state s → r.1.state = state := by
  refine Prog.Traced.read (fun w => List.Subset.refl _) fun w => ?_
  dsimp only
  cases hfound : SsoAuth.findByCode env w.db code with
  | none => exact Traces.err
  | some a =>
    obtain ⟨hmem, hkey⟩ := mem_of_find? hfound
    simp only [Bool.decide_and, Bool.and_eq_true, decide_eq_true_eq] at hkey
    have hstate : ∀ {s}, (⟨.loadSsoAuth code, w, w⟩ :: before) <:+ s → SawOneFlow code state s →
        a.state = state := fun hs h => h _ (hs.subset mem_cons_self) a hmem hkey.1
    dsimp only
    split
    · exact fun h => hstate suffix_rfl h
    · have hdelete : ∀ {message : String}, OnFlow (α := SsoAuth × OIDCAuthenticatedUser) code state
          (⟨.loadSsoAuth code, w, w⟩ :: before) (a.delete .write >>= fun _ => err message)
          fun s r => SawOneFlow code state s → r.1.state = state := fun {message} =>
        Prog.Traced.bind (Q := ⊤)
          (Traces.exec (SsoAuth.exec_delete_subset a.state) fun _ _ => trivial) fun _ _ _ => Traces.err
      split
      · exact hdelete
      · exact hdelete
      · refine Traces.still onFlow_about .external fun s1 _ h1 => ?_
        refine Traces.still onFlow_about ?_ fun s2 _ h2 => ?_
        · exact .bind .ensure fun _ => .bind .external fun _ => .ensure
        refine Traces.still onFlow_about .external fun s3 _ h3 => ?_
        have hsaw : SawOneFlow code state s3 → a.state = state := hstate (h1.trans (h2.trans h3))
        split
        · exact Traces.err
        · refine Prog.Traced.bind (Q := fun s _ => SawOneFlow code state s → a.state = state)
            (Traces.exec ⟨rfl, hsaw⟩ fun w' _ h => ?_) fun s _ h => h
          exact hsaw (h.suffix (suffix_cons _ _))

/-- A redemption was carried out. -/
def Redeemed (seen : List (Access World Call)) : Prop :=
  ∃ a ∈ seen, ∃ s, a.label = .redeemSsoAuth s ∧ ∀ x ∈ a.post.db.ssoAuth.rows, x.state ≠ s

theorem Redeemed.later {after} (h : Redeemed before) (hs : before <:+ after) : Redeemed after := by
  obtain ⟨a, ha, hrest⟩ := h
  exact ⟨a, hs.subset ha, hrest⟩

theorem redeem_onFlow (ha : SawOneFlow code state before → a.state = state) :
    OnFlow code state before (redeem env d u link a info) fun s _ => Redeemed s := by
  refine Prog.Traced.bind (Q := fun s _ => Redeemed s) (Traces.exec ⟨rfl, ha⟩ fun w hr => ?_)
    fun s1 _ h1 => ?_
  · refine ⟨_, mem_cons_self, a.state, rfl, ?_⟩
    obtain ⟨hr', -⟩ | ⟨db', -, hs, hx⟩ := w.exec_cases fun db => some (SsoAuth.deleteStmt a.state db)
    · rw [hr] at hr'
      cases hr'
    · dsimp only
      rw [hx]
      obtain rfl := Option.some.inj hs
      exact fun x hx => of_decide_eq_false (mem_deleteWhere.1 hx).2
  · refine Traces.pass onFlow_about (.when SsoUser.save_writes) (by decide) fun s2 _ h2 => ?_
    exact (Traces.of_writes onFlow_about createAuthTokens_writes not_mem_nil).mono
      (fun s _ h => h1.later (h2.trans h)) fun _ h => h

theorem ssoLoginAs_onFlow (ha : SawOneFlow code state before → a.state = state) :
    OnFlow code state before (ssoLoginAs env data ip a info) fun s _ => Redeemed s := by
  have hfinish : ∀ {s d u link note}, before <:+ s → OnFlow code state s
      (redeem env d u link a info >>= fun tokens => authenticatedResponse env d tokens note)
      fun s _ => Redeemed s := fun hs =>
    (redeem_onFlow fun h => ha (h.suffix hs)).bind fun s' _ h' =>
      (Traces.of_writes onFlow_about authenticatedResponse_writes (by decide)).mono
        (fun _ _ h => h'.later h) fun _ h => h
  refine .pass onFlow_about ssoAccount_writes (by decide) fun s1 found h1 => ?_
  match found with
  | none =>
    refine .pass onFlow_about ssoSignup_writes (by decide) fun s2 _ h2 => ?_
    exact .pass onFlow_about getDevice_writes (by decide) fun s3 _ h3 => hfinish (h1.trans (h2.trans h3))
  | some (u, link) =>
    refine .ensure fun _ => .pass onFlow_about getDevice_writes (by decide) fun s2 _ h2 => ?_
    refine .pass onFlow_about twofactorAuth_writes (by decide) fun s3 _ h3 => ?_
    refine .pass onFlow_about ssoFillStub_writes (by decide) fun s4 _ h4 => ?_
    refine Traces.still onFlow_about (.when .external) fun s5 _ h5 => ?_
    exact hfinish (h1.trans (h2.trans (h3.trans (h4.trans h5))))

/-- **Every login that returns tokens has redeemed the row of its code.** -/
theorem login_onFlow (hcode : data.code = some code) :
    OnFlow code state before (login env (.authorizationCode answer) data ip) fun s _ => Redeemed s := by
  refine .ensure fun _ => .ensure fun _ => .ensure fun _ => .ensure fun _ => ?_
  refine .still onFlow_about checkDevice_writes fun s1 _ _ => ?_
  refine .still onFlow_about AuthMethod.checkScope_writes fun s2 _ _ => ?_
  refine Traces.still onFlow_about .external fun s3 _ _ => ?_
  rw [hcode]
  split
  · exact Traces.err
  · exact Traces.err
  · next code' codeVerifier hcode' _ =>
    obtain rfl := Option.some.inj hcode'
    exact exchangeCode_onFlow.bind fun s r hr => ssoLoginAs_onFlow hr

/-! ## Logins that take turns -/

/-- A login by an authorization code, with what the provider answers. -/
structure SsoLogin where
  env : Env
  answer : ProviderAnswer
  data : ConnectData
  ip : String

def SsoLogin.prog (l : SsoLogin) : Cmd TokenResponse :=
  login l.env (.authorizationCode l.answer) l.data l.ip

/-- The logins, one call at a time in the given order. -/
def signOns (logins : List SsoLogin) (w : World) (schedule : List Nat) :
    Pool World Call Failure TokenResponse :=
  (Pool.start (logins.map SsoLogin.prog) w).run schedule

/-- A save or a redemption of a sign-on finds its row still there. -/
def findsRow (t : Turn World Call) : Bool :=
  match t.label with
  | .saveSsoAuth row => t.pre.db.ssoAuth.rows.any fun x => x.state = row.state
  | .redeemSsoAuth s => t.pre.db.ssoAuth.rows.any fun x => x.state = s
  | _ => true

section
variable {past later earlier : List (Turn World Call)} {t : Turn World Call} {w0 w : World}

abbrev MadeOnFlow (code state : String) : List (Turn World Call) → Turn World Call → Prop :=
  Pool.Made fun _ => Call.OnFlow code state

theorem SawOneFlow.own (h : ∀ t ∈ past, OneFlow code state t.pre) (i : Nat) :
    SawOneFlow code state (Lib.own i past) := by
  intro a ha
  obtain ⟨t, ht, -, rfl⟩ := mem_own.1 ha
  exact h t ht

theorem OneFlow.subset (h : OneFlow code state w0)
    (hs : w.db.ssoAuth.rows ⊆ w0.db.ssoAuth.rows) : OneFlow code state w :=
  fun a ha hc => h a (hs ha) hc

/-- A turn leaves no row of the code but the one there was. -/
theorem OneFlow.turn (h : ∀ t ∈ past, OneFlow code state t.pre) (hpre : OneFlow code state t.pre)
    (hm : MadeOnFlow code state past t) : OneFlow code state t.post := by
  obtain ⟨u, hu, hcall⟩ := hm
  rw [hu]
  revert hcall
  cases t.label with
  | saveSsoAuth row =>
    rintro ⟨rfl, hrow⟩
    obtain ⟨-, hx⟩ | ⟨db', -, hs, hx⟩ := t.pre.exec_cases row.saveStmt
    · rw [hx]
      exact hpre
    · rw [hx]
      obtain rfl := Option.some.inj hs
      intro a ha hc
      rcases mem_upsert.1 ha with rfl | ⟨ha, -⟩
      · exact hrow (SawOneFlow.own h _)
      · exact hpre a ha hc
  | redeemSsoAuth s =>
    rintro ⟨rfl, -⟩
    exact hpre.subset (SsoAuth.exec_delete_subset s t.pre)
  | _ => exact fun hsub => hpre.subset (hsub t.pre)

/-- **The code belongs to one sign-on in every state.** -/
theorem oneFlow_along (hl : Chained w0 w past) (hm : Along (MadeOnFlow code state) past)
    (h0 : OneFlow code state w0) : OneFlow code state w ∧ ∀ t ∈ past, OneFlow code state t.pre := by
  induction past generalizing w with
  | nil => exact ⟨hl ▸ h0, fun _ h => nomatch h⟩
  | cons t past ih =>
    obtain ⟨rfl, hl⟩ := hl
    obtain ⟨hpre, hpast⟩ := ih hl hm.2
    refine ⟨.turn hpast hpre hm.1, fun x hx => ?_⟩
    rcases mem_cons.1 hx with rfl | hx
    · exact hpre
    · exact hpast x hx

/-- No row of the sign-on. -/
def FlowGone (state : String) (w : World) : Prop := ∀ a ∈ w.db.ssoAuth.rows, a.state ≠ state

/-- A turn that finds its row does not bring one back. -/
theorem FlowGone.turn (h : ∀ t ∈ past, OneFlow code state t.pre)
    (hm : MadeOnFlow code state past t) (hf : findsRow t = true) (hpre : FlowGone state t.pre) :
    FlowGone state t.post := by
  obtain ⟨u, hu, hcall⟩ := hm
  rw [hu]
  unfold findsRow at hf
  revert hf hcall
  cases t.label with
  | saveSsoAuth =>
    rintro hf ⟨-, hrow⟩
    obtain ⟨x, hx, hstate⟩ := any_eq_true.1 hf
    exact absurd ((of_decide_eq_true hstate).trans (hrow (SawOneFlow.own h _))) (hpre x hx)
  | redeemSsoAuth s =>
    rintro - ⟨rfl, -⟩
    exact fun a ha => hpre a (SsoAuth.exec_delete_subset s t.pre ha)
  | _ => exact fun _ hsub a ha => hpre a (hsub t.pre ha)

theorem flowGone_along (hl : Chained w0 w (later ++ t :: earlier))
    (hm : Along (MadeOnFlow code state) (later ++ t :: earlier))
    (h : ∀ x ∈ later ++ t :: earlier, OneFlow code state x.pre)
    (hf : ∀ x ∈ later ++ t :: earlier, findsRow x = true) (hgone : FlowGone state t.post) :
    FlowGone state w ∧ ∀ x ∈ later, FlowGone state x.pre := by
  refine hl.stays hgone fun l x e hlater => ?_
  rw [hlater, append_assoc, cons_append] at hm h hf
  refine FlowGone.turn (fun y hy => h y ?_) hm.suffix.1 (hf x (by simp))
  exact mem_append_right _ (mem_cons_of_mem _ hy)

/-- A turn that redeems the row of the code, and leaves none. -/
def RedeemsFlow (state : String) (t : Turn World Call) : Prop :=
  t.label = .redeemSsoAuth state ∧ FlowGone state t.post

/-- A row that was redeemed is not there to be redeemed again. -/
theorem not_redeemsFlow_later (hl : Chained w0 w (later ++ t :: earlier))
    (hm : Along (MadeOnFlow code state) (later ++ t :: earlier))
    (h : ∀ x ∈ later ++ t :: earlier, OneFlow code state x.pre)
    (hf : ∀ x ∈ later ++ t :: earlier, findsRow x = true) (ht : RedeemsFlow state t) :
    ∀ x ∈ later, ¬RedeemsFlow state x := by
  intro x hx hredeems
  have hgone : FlowGone state x.pre := (flowGone_along hl hm h hf ht.2).2 x hx
  have hfound := hf x (mem_append_left _ hx)
  unfold findsRow at hfound
  rw [hredeems.1] at hfound
  obtain ⟨a, ha, hstate⟩ := any_eq_true.1 hfound
  exact hgone a ha (of_decide_eq_true hstate)

/-- What a login has redeemed is the row of the code. -/
theorem Redeemed.turn (h : ∀ t ∈ past, OneFlow code state t.pre)
    (hm : Along (MadeOnFlow code state) past) (hr : Redeemed (Lib.own i past)) :
    ∃ t ∈ past, t.thread = i ∧ RedeemsFlow state t := by
  obtain ⟨a, ha, s, hlabel, hgone⟩ := hr
  obtain ⟨t, ht, hi, rfl⟩ := mem_own.1 ha
  obtain ⟨later, earlier, rfl⟩ := append_of_mem ht
  obtain ⟨u, -, hcall⟩ := hm.suffix.1
  rw [hlabel] at hcall
  have hearlier : ∀ x ∈ earlier, OneFlow code state x.pre := fun x hx =>
    h x (mem_append_right _ (mem_cons_of_mem _ hx))
  obtain rfl := hcall.2 (SawOneFlow.own hearlier _)
  exact ⟨t, ht, hi, hlabel, hgone⟩

end

theorem signOns_keeps {logins w schedule} (hcode : ∀ l ∈ logins, l.data.code = some code) :
    (signOns logins w schedule).Keeps (fun _ => Call.OnFlow code state) (fun _ s _ => Redeemed s)
      w := by
  refine Pool.run_traced schedule fun i c hc => ?_
  rw [getElem?_map] at hc
  obtain ⟨l, hl, rfl⟩ := Option.map_eq_some_iff.1 hc
  exact login_onFlow (hcode l (mem_of_getElem? hl))

/-- **A code logs in once, where each write finds its row.**  However the logins with one code take
turns, two of them do not both return tokens, as long as one sign-on holds the code and no login
saves or redeems a row that is gone. -/
theorem oneTokenResponse_of_findsRow {logins : List SsoLogin} {w : World} {schedule : List Nat}
    (hcode : ∀ l ∈ logins, l.data.code = some code) (hflow : OneFlow code state w)
    (hfinds : ∀ t ∈ (signOns logins w schedule).past, findsRow t = true) {i j : Nat}
    (hi : (signOns logins w schedule).hasReturned i = true)
    (hj : (signOns logins w schedule).hasReturned j = true) : i = j := by
  obtain ⟨tokens, hi⟩ := Pool.exists_of_hasReturned hi
  obtain ⟨tokens', hj⟩ := Pool.exists_of_hasReturned hj
  have hkeeps : (signOns logins w schedule).Keeps (fun _ => Call.OnFlow code state)
      (fun _ s _ => Redeemed s) w := signOns_keeps hcode
  obtain ⟨hchain, hmade, hthreads⟩ := hkeeps
  have hone := (oneFlow_along hchain hmade hflow).2
  obtain ⟨t, ht, rfl, hredeems⟩ := Redeemed.turn hone hmade (hthreads i _ hi)
  obtain ⟨x, hx, rfl, hredeems'⟩ := Redeemed.turn hone hmade (hthreads j _ hj)
  obtain ⟨later, earlier, hpast⟩ := append_of_mem ht
  rw [hpast] at hchain hmade hone hfinds hx
  -- the other redemption came after this one, is this one, or came before it
  rcases mem_append.1 hx with hx | hx
  · exact absurd hredeems' (not_redeemsFlow_later hchain hmade hone hfinds hredeems x hx)
  rcases mem_cons.1 hx with rfl | hx
  · rfl
  obtain ⟨later', earlier', rfl⟩ := append_of_mem hx
  rw [← cons_append, ← append_assoc] at hchain hmade hone hfinds
  refine absurd hredeems (not_redeemsFlow_later hchain hmade hone hfinds hredeems' t ?_)
  exact mem_append_right _ mem_cons_self

namespace SignOns

def settings : Env := { ssoEnabled := true }

/-- A browser has started a sign-on and has come back with the provider's code. -/
def comeBack : List Event :=
  [⟨settings, .anyone (.authorize ⟨"web", "", "state", "verifier", "S256"⟩)⟩,
    ⟨settings, .anyone (.oidcsignin "code" "state" (some "0"))⟩]

def signOn : SsoLogin where
  env := settings
  answer := ⟨none, "token", some 3600, "issuer", "subject", 1, ⟨some "a@example.com", some true, none⟩,
    ⟨none, none, none⟩⟩
  data :=
    { clientId := some (.client "web")
      scope := some "api offline_access"
      deviceIdentifier := some ⟨7⟩
      deviceName := some "browser"
      deviceType := some "9"
      code := some "code"
      codeVerifier := some "verifier" }
  ip := "ip"

/-- One login is over before the other one begins. -/
def inTurn : List Nat := List.replicate 19 0 ++ [1, 1]

/-- The second login finds the row when the first one has stored the answer, and goes on when the
first one is over. -/
def bothFindTheRow : List Nat :=
  List.replicate 6 0 ++ [1, 1] ++ List.replicate 13 0 ++ List.replicate 7 1

end SignOns

open SignOns in
theorem oneTokenResponse_of_findsRow_inTurn :
    (signOns [signOn, signOn] ((World.initial []).after comeBack) inTurn).hasReturned 0 = true ∧
      ∀ j, (signOns [signOn, signOn] ((World.initial []).after comeBack) inTurn).hasReturned j = true →
        0 = j := by
  have hreturned : (signOns [signOn, signOn] ((World.initial []).after comeBack) inTurn).hasReturned 0
      = true := by decide +kernel
  have hcode : ∀ l ∈ [signOn, signOn], l.data.code = some "code" := by decide
  have hflow : OneFlow "code" "state" ((World.initial []).after comeBack) := by
    unfold OneFlow
    decide +kernel
  have hfinds : ∀ t ∈ (signOns [signOn, signOn] ((World.initial []).after comeBack) inTurn).past,
      findsRow t = true := by decide +kernel
  exact ⟨hreturned, fun j hj => oneTokenResponse_of_findsRow hcode hflow hfinds hreturned hj⟩

open SignOns in
/-- **One code, two logins**: the second redemption removes no row, and nothing looks at that. -/
theorem code_used_twice :
    (∀ l ∈ [signOn, signOn], l.data.code = some "code") ∧
      (signOns [signOn, signOn] ((World.initial []).after comeBack) bothFindTheRow).hasReturned 0
        = true ∧
      (signOns [signOn, signOn] ((World.initial []).after comeBack) bothFindTheRow).hasReturned 1
        = true := by
  decide +kernel

end VaultServer
