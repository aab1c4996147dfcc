import VaultServer.WebClient.OwnOrigin
import VaultServer.WebClient.Sessions

/-!
# Late replies

An authenticated request reads the session, waits for the network, and then acts on whatever session
there is. Here the two halves of `requestAuthenticatedApi` are separate events, with calls on the
token state and other requests between them. A 401 ends the session that is current when it comes
in, which is the one the request was sent for exactly when nothing renewed it in between.
-/

namespace VaultServer.WebClient

open Lib Bool

/-! ## The two halves of a request -/

/-- `requestAuthenticatedApi` up to the network. -/
def dispatch (page : Page) (tokens : TokenState) (path : String) (options : AuthenticatedOptions) :
    Except JsError (FetchRequest × (FetchRequest → FetchOutcome)) := do
  let headers ← authorize tokens options
  prepareRequest page path { options.toApiOptions with headers }

/-- What the answer makes of the token state. -/
def settle (tokens : TokenState) (outcome : FetchOutcome) : TokenState :=
  if rejectsSession (receive outcome) then clearTokenState tokens else tokens

/-- A request that is answered at once is the two halves one after the other. -/
theorem requestAuthenticatedApi_eq (page : Page) (tokens : TokenState) (path : String)
    (options : AuthenticatedOptions) : requestAuthenticatedApi page tokens path options =
      match dispatch page tokens path options with
      | .error e => (⟨none, .error (.js e)⟩, tokens)
      | .ok (request, fetchImpl) =>
        (⟨some request, receive (fetchImpl request)⟩, settle tokens (fetchImpl request)) := by
  unfold requestAuthenticatedApi dispatch
  cases authorize tokens options with
  | error => rfl
  | ok headers =>
    show (let exchange := requestApi page path { options.toApiOptions with headers };
        (exchange, if rejectsSession exchange.result then clearTokenState tokens else tokens)) =
      match prepareRequest page path { options.toApiOptions with headers } with
      | .error e => (⟨none, .error (.js e)⟩, tokens)
      | .ok (request, fetchImpl) =>
        (⟨some request, receive (fetchImpl request)⟩, settle tokens (fetchImpl request))
    unfold requestApi
    cases prepareRequest page path { options.toApiOptions with headers } with
    | error => rfl
    | ok => rfl

/-! ## Interleaved requests -/

/-- The token state and the requests that wait for an answer, by number. -/
structure Client where
  tokens : TokenState := {}
  sent : Nat := 0
  pending : List (Nat × FetchRequest) := []

inductive Activity where
  | call (c : Call)
  | send (path : String) (options : AuthenticatedOptions)
  | answer (id : Nat) (outcome : FetchOutcome)

def Client.isPending (client : Client) (id : Nat) : Bool := client.pending.any fun p => p.1 = id

def Activity.run (page : Page) (client : Client) : Activity → Client
  | .call c => { client with tokens := (c.run client.tokens).2 }
  | .send path options =>
    match dispatch page client.tokens path options with
    | .error _ => client
    | .ok (request, _) =>
      { client with sent := client.sent + 1, pending := (client.sent, request) :: client.pending }
  | .answer id outcome =>
    if client.isPending id then
      { client with
        tokens := settle client.tokens outcome
        pending := client.pending.filter fun p => p.1 ≠ id }
    else client

/-- An activity with the states around it. -/
structure Move where
  before : Client
  activity : Activity
  after : Client

def Activity.move (page : Page) (client : Client) (a : Activity) : Move := ⟨client, a, a.run page client⟩

/-- What the client does, one activity after the other. -/
def timeline (page : Page) (client : Client) (activities : List Activity) : List Move :=
  history (Activity.move page) Move.after client activities

namespace Move

/-- The request with the number went out for the account. -/
def Sends (m : Move) (id : Nat) (account : String) : Prop :=
  ∃ path options, m.activity = .send path options ∧ options.accountId = .string account ∧
    id = m.before.sent ∧ m.after.sent = id + 1

/-- The server answered 401 to the request with the number. -/
def Rejects (m : Move) (id : Nat) : Prop :=
  m.before.isPending id ∧ ∃ contentType json, m.activity = .answer id (.response 401 contentType json)

/-- The session was started, rotated or ended, by a call or by a rejecting answer. -/
def Renews (m : Move) : Prop :=
  match m.activity with
  | .call c => (c.step m.before.tokens).Renews
  | .send _ _ => False
  | .answer id outcome => m.before.isPending id ∧ rejectsSession (receive outcome)

end Move

/-- A 401 changes the token state only while the session of its request is the current one. -/
def SparesNewerSessions (moves : List Move) : Prop :=
  ∀ l1 m l2 m' l3 id account, moves = l1 ++ m :: (l2 ++ m' :: l3) →
    m.Sends id account → m'.Rejects id → m'.after.tokens ≠ m'.before.tokens →
    m'.before.tokens.accountId = some account ∧
      m'.before.tokens.generation = m.before.tokens.generation

/-- No session is renewed while a request that is answered with 401 is under way. -/
def RejectedInTime (moves : List Move) : Prop :=
  ∀ l1 m l2 m' l3 id account, moves = l1 ++ m :: (l2 ++ m' :: l3) →
    m.Sends id account → m'.Rejects id → ∀ x ∈ l2, ¬ x.Renews

/-! ## One activity -/

theorem rejectsSession_unauthorized (contentType : String) (json : Option Value) :
    rejectsSession (receive (.response 401 contentType json)) = true := by
  simp [receive, rejectsSession, normalizeApiFailure]

/-- A request goes out for the account of the session. -/
theorem authorize_account (h : authorize tokens options = .ok headers)
    (haccount : options.accountId = .string account) : tokens.accountId = some account := by
  unfold authorize at h
  obtain ⟨selected, hselected, h⟩ := bind_eq_ok h
  rw [haccount] at hselected
  obtain rfl := JsValue.string.inj (requireAccountId_ok hselected)
  dsimp only at h
  split at h
  · cases h
  · next husable =>
    simp only [not_eq_true, not_eq_false', isAccessTokenUsable, and_eq_true,
      decide_eq_true_eq] at husable
    exact husable.1.1

section
variable {page : Page} {client : Client} {a : Activity}

theorem sends_account {id account} (h : (a.move page client).Sends id account) :
    client.tokens.accountId = some account ∧ (a.move page client).after.tokens = client.tokens := by
  obtain ⟨path, options, hactivity, haccount, rfl, hsent⟩ := h
  obtain rfl : a = .send path options := hactivity
  simp only [Activity.move, Activity.run] at hsent ⊢
  cases hdispatch : dispatch page client.tokens path options with
  | error =>
    simp [hdispatch] at hsent
  | ok =>
    obtain ⟨headers, hheaders, -⟩ := bind_eq_ok hdispatch
    exact ⟨authorize_account hheaders haccount, rfl⟩

theorem rejects_clears {id} (h : (a.move page client).Rejects id) :
    (a.move page client).after.tokens = clearTokenState client.tokens := by
  obtain ⟨hpending, contentType, json, hactivity⟩ := h
  obtain rfl : a = .answer id (.response 401 contentType json) := hactivity
  have hpending' : client.isPending id := hpending
  simp only [Activity.move, Activity.run, hpending', if_true, settle, rejectsSession_unauthorized]

/-- **One activity.**  It renews the session and moves the generation on, or leaves the state. -/
theorem move_cases (page : Page) (client : Client) (a : Activity) : ((a.move page client).Renews ∧
      client.tokens.generation < (a.move page client).after.tokens.generation) ∨
    (¬ (a.move page client).Renews ∧ (a.move page client).after.tokens = client.tokens) := by
  cases a with
  | call c =>
    by_cases hrenews : (c.step client.tokens).Renews
    · exact .inl ⟨hrenews, (step_generation c client.tokens).2 hrenews⟩
    · refine .inr ⟨hrenews, ?_⟩
      obtain ⟨hsame, -⟩ | ⟨account, access, haccepts, -⟩ | hclear := step_cases c client.tokens
      · exact hsame
      · exact absurd (.inl ⟨account, access, haccepts⟩) hrenews
      · exact absurd (.inr hclear) hrenews
  | send =>
    refine .inr ⟨id, ?_⟩
    simp only [Activity.move, Activity.run]
    split <;> rfl
  | answer id outcome =>
    by_cases hpending : client.isPending id
    · by_cases hrejects : rejectsSession (receive outcome)
      · refine .inl ⟨⟨hpending, hrejects⟩, ?_⟩
        simp [Activity.move, Activity.run, hpending, settle, hrejects, clearTokenState]
      · refine .inr ⟨fun h => hrejects h.2, ?_⟩
        simp [Activity.move, Activity.run, hpending, settle, hrejects]
    · refine .inr ⟨fun h => hpending h.1, ?_⟩
      simp [Activity.move, Activity.run, hpending]

end

/-! ## Runs -/

section
variable {page : Page} {client : Client} {activities : List Activity}

theorem timeline_split (h : timeline page client activities = l ++ m :: l') :
    ∃ (client' : Client) (a : Activity) (rest : List Activity), m = a.move page client' ∧
      timeline page m.after rest = l' := by
  obtain ⟨first, a, rest, -, hm, hrest⟩ := history_split h
  exact ⟨_, a, rest, hm, hrest⟩

/-- The generation stays exactly while no activity renews the session, and with it the state. -/
theorem last_tokens (page : Page) (client : Client) (activities : List Activity) :
    ((∃ x ∈ timeline page client activities, x.Renews) →
      client.tokens.generation <
        (last (Activity.move page) Move.after client activities).tokens.generation) ∧
    ((∀ x ∈ timeline page client activities, ¬ x.Renews) →
      (last (Activity.move page) Move.after client activities).tokens = client.tokens) := by
  constructor
  · have hstep : ∀ (c : Client) (a : Activity),
        c.tokens.generation ≤ (a.move page c).after.tokens.generation ∧
        ((a.move page c).Renews →
          c.tokens.generation < (a.move page c).after.tokens.generation) := by
      intro c a
      obtain ⟨hrenews, hlt⟩ | ⟨hno, hsame⟩ := move_cases page c a
      · exact ⟨Nat.le_of_lt hlt, fun _ => hlt⟩
      · exact ⟨by simp [hsame], fun h => absurd h hno⟩
    exact (last_count hstep client activities).2
  · refine last_kept fun c a hno => ?_
    obtain ⟨hrenews, -⟩ | ⟨-, hsame⟩ := move_cases page c a
    · exact absurd hrenews hno
    · exact hsame

/-- **A late 401 ends a newer session**, and only a late one does: in every run, 401 answers spare
newer sessions if and only if no session is renewed while a request they answer is under way. -/
theorem sparesNewerSessions_iff (page : Page) (activities : List Activity) :
    SparesNewerSessions (timeline page {} activities) ↔
      RejectedInTime (timeline page {} activities) := by
  constructor
  · intro hspares l1 m l2 m' l3 id account hrun hsends hrejects x hx hrenews
    obtain ⟨client, a, rest, rfl, hrest⟩ := timeline_split hrun
    obtain ⟨between, a', after, rfl, rfl, -⟩ := history_split hrest
    -- the answer clears the state, so it is a change the property speaks of
    have hclear := rejects_clears hrejects
    have hchange : ∀ t : TokenState, clearTokenState t ≠ t := fun t h => ne_clearTokenState h.symm
    have hsame := hspares l1 _ _ _ l3 id account hrun hsends hrejects
      (by rw [hclear]; exact hchange _)
    have hlt := (last_tokens page (a.move page client).after between).1 ⟨x, hx, hrenews⟩
    rw [(sends_account hsends).2] at hlt
    exact absurd hsame.2 (Nat.ne_of_gt hlt)
  · intro htime l1 m l2 m' l3 id account hrun hsends hrejects _
    have hquiet := htime l1 m l2 m' l3 id account hrun hsends hrejects
    obtain ⟨client, a, rest, rfl, hrest⟩ := timeline_split hrun
    obtain ⟨between, a', after, rfl, rfl, -⟩ := history_split hrest
    obtain ⟨haccount, hkept⟩ := sends_account hsends
    have hsame := (last_tokens page (a.move page client).after between).2 hquiet
    rw [hkept] at hsame
    have hbefore : (a'.move page (last (Activity.move page) Move.after
        (a.move page client).after between)).before.tokens = client.tokens := hsame
    rw [hbefore]
    exact ⟨haccount, rfl⟩

end

/-- A request of one account is under way while another account signs in; then it is rejected. -/
def lateRejection : List Activity :=
  let tokenSet (access : String) : TokenSet :=
    { kind := .string "authenticated", accessToken := .string access, refreshToken := .string "r",
      tokenType := .string "Bearer", scope := .string "api", expiresIn := some 3600 }
  [.call (.acceptInitialTokenSet (.string "acct-a") (some (tokenSet "a")) (some 0)),
    .send "/api/sync" sampleOptions,
    .call (.acceptInitialTokenSet (.string "acct-b") (some (tokenSet "b")) (some 1)),
    .answer 0 (.response 401 "application/json" none)]

/-- The session of the second account is gone, though its token was never sent. -/
theorem lateRejection_endsNewerSession :
    (timeline samplePage {} lateRejection).map (fun m => m.after.tokens.accountId) =
      [some "acct-a", some "acct-a", some "acct-b", none] ∧
    ¬ SparesNewerSessions (timeline samplePage {} lateRejection) := by
  refine ⟨by decide +kernel, fun hspares => ?_⟩
  have hsame := hspares [_] _ [_] _ [] 0 "acct-a" rfl
    ⟨"/api/sync", sampleOptions, rfl, rfl, by decide +kernel, by decide +kernel⟩
    ⟨by decide +kernel, "application/json", none, rfl⟩ (by decide +kernel)
  exact absurd hsame.1 (by decide +kernel)

end VaultServer.WebClient
