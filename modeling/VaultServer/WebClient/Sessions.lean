import VaultServer.Lib.History
import VaultServer.WebClient.TokenState

/-!
# Sessions of the web client

The calls on the token state in any order and with any arguments. Every session start, accepted
rotation and clear moves the generation on, and nothing else changes the state; a context names the
generation it was created in, so it is good for one rotation and only until the session changes.
-/

namespace VaultServer.WebClient

open Lib List

/-! ## Calls and runs -/

inductive Call where
  | acceptInitialTokenSet (accountId : JsValue) (tokenSet : Option TokenSet) (now : Option Int)
  | beginRefresh (accountId : JsValue) (now : Option Int)
  | acceptRotatedTokenSet (refreshRequest : Option RefreshRequest) (tokenSet : Option TokenSet)
      (now : Option Int)
  | clearTokenState
  | readAccessTokenForAccount (accountId : JsValue)

inductive Reply where
  | snapshot (s : Snapshot)
  | context (c : RefreshRequest)
  | token (t : String)

/-- What the call returns or throws, and the state it leaves. -/
def Call.run (tokens : TokenState) : Call → Except JsError Reply × TokenState
  | acceptInitialTokenSet accountId tokenSet now =>
    match WebClient.acceptInitialTokenSet tokens accountId tokenSet now with
    | .ok accepted => (.ok (.snapshot accepted.snapshot), accepted)
    | .error e => (.error e, tokens)
  | beginRefresh accountId now =>
    ((WebClient.beginRefresh tokens accountId now).map .context, tokens)
  | acceptRotatedTokenSet refreshRequest tokenSet now =>
    let (outcome, state) := WebClient.acceptRotatedTokenSet tokens refreshRequest tokenSet now
    (outcome.map fun _ => .snapshot state.snapshot, state)
  | clearTokenState =>
    let state := WebClient.clearTokenState tokens
    (.ok (.snapshot state.snapshot), state)
  | readAccessTokenForAccount accountId =>
    ((WebClient.readAccessTokenForAccount tokens accountId).map .token, tokens)

/-- A call with the states around it. -/
structure Step where
  before : TokenState
  call : Call
  outcome : Except JsError Reply
  after : TokenState

def Call.step (tokens : TokenState) (c : Call) : Step := ⟨tokens, c, (c.run tokens).1, (c.run tokens).2⟩

/-- The calls one after the other. -/
def trace (tokens : TokenState) (calls : List Call) : List Step :=
  history Call.step Step.after tokens calls

/-- The state after the calls. -/
def final (tokens : TokenState) (calls : List Call) : TokenState :=
  last Call.step Step.after tokens calls

namespace Step

/-- The call accepted a token set for the account. -/
inductive AcceptsSet (s : Step) (account access : String) : Prop where
  | initial {tokenSet : TokenSet} {now : Option Int} {r : Reply} (ok : s.outcome = .ok r)
      (call : s.call = .acceptInitialTokenSet (.string account) (some tokenSet) now)
      (token : tokenSet.accessToken = .string access)
  | rotated {context : RefreshRequest} {tokenSet : TokenSet} {now : Option Int} {r : Reply}
      (ok : s.outcome = .ok r)
      (call : s.call = .acceptRotatedTokenSet (some context) (some tokenSet) now)
      (owner : context.accountId = some account) (token : tokenSet.accessToken = .string access)

/-- The call accepted a rotation for the context. -/
def Rotates (s : Step) (context : RefreshRequest) : Prop :=
  ∃ tokenSet now r, s.call = .acceptRotatedTokenSet (some context) tokenSet now ∧ s.outcome = .ok r

/-- The call cleared the state. -/
def Clears (s : Step) : Prop := s.after = clearTokenState s.before

/-- A session start, an accepted rotation or a clear. -/
def Renews (s : Step) : Prop := (∃ account access, s.AcceptsSet account access) ∨ s.Clears

end Step

/-- The promises of the token state along a sequence of calls. -/
structure TokenProtocol (steps : List Step) : Prop where
  /-- A context leads to at most one accepted rotation. -/
  once : ∀ l1 s l2 s' l3 context, steps = l1 ++ s :: (l2 ++ s' :: l3) →
    s.Rotates context → ¬ s'.Rotates context
  /-- It leads to none once the session changed after its creation. -/
  fresh : ∀ l1 s l2 s' l3 context, steps = l1 ++ s :: (l2 ++ s' :: l3) →
    s.outcome = .ok (.context context) → s'.Rotates context → ∀ x ∈ l2, ¬ x.Renews
  /-- A token that is read is that of the last accepted set, which was accepted for the account. -/
  reads : ∀ l1 s l2 account token, steps = l1 ++ s :: l2 →
    s.call = .readAccessTokenForAccount account → s.outcome = .ok (.token token) →
    ∃ a, account = .string a ∧ ∃ k1 x k2, l1 = k1 ++ x :: k2 ∧ x.AcceptsSet a token ∧
      ∀ y ∈ k2, ¬ y.Renews
  /-- A call that throws leaves the state alone or clears it and moves the generation on. -/
  throws : ∀ s ∈ steps, ∀ e, s.outcome = .error e → s.after = s.before ∨
    s.Clears ∧ s.before.generation < s.after.generation

/-! ## One call -/

theorem requireAccountId_ok (h : requireAccountId v = .ok account) : v = .string account := by
  cases v with
  | string =>
    simp only [requireAccountId] at h
    split at h
    · cases h
    · rw [Except.ok.inj h]
  | _ => cases h

theorem requireToken_ok (h : requireToken v field = .ok token) :
    v = .string token ∧ token ≠ "" := by
  cases v with
  | string =>
    simp only [requireToken] at h
    split at h
    · cases h
    · next hs =>
      obtain rfl := Except.ok.inj h
      exact ⟨rfl, fun hempty => hs (.inl hempty)⟩
  | _ => cases h

theorem requireTokenSet_ok {tokenSet set} (h : requireTokenSet tokenSet = .ok set) :
    tokenSet = some set := by
  cases tokenSet with
  | none => cases h
  | some =>
    simp only [requireTokenSet] at h
    split at h
    · rw [Except.ok.inj h]
    · cases h

theorem beginRefresh_generation {tokens accountId now context}
    (h : beginRefresh tokens accountId now = .ok context) :
    context.expectedGeneration = tokens.generation := by
  unfold beginRefresh at h
  obtain ⟨account, -, h⟩ := bind_eq_ok h
  dsimp only at h
  split at h
  · cases h
  obtain ⟨now, -, h⟩ := bind_eq_ok h
  rw [← Except.ok.inj h]

section
variable {tokens accepted : TokenState} {c : Call}

/-- What an accepted set makes of the state. -/
theorem acceptInitialTokenSet_ok
    (h : acceptInitialTokenSet tokens accountId tokenSet now = .ok accepted) :
    ∃ account access set, accountId = .string account ∧ tokenSet = some set ∧
      set.accessToken = .string access ∧ accepted.accountId = some account ∧
      accepted.accessToken = some access ∧ accepted.generation = tokens.generation + 1 := by
  unfold acceptInitialTokenSet at h
  obtain ⟨account, haccount, h⟩ := bind_eq_ok h
  obtain ⟨set, hset, h⟩ := bind_eq_ok h
  obtain ⟨now, -, h⟩ := bind_eq_ok h
  obtain ⟨access, haccess, h⟩ := bind_eq_ok h
  obtain ⟨refresh, -, h⟩ := bind_eq_ok h
  obtain rfl := Except.ok.inj h
  exact ⟨account, access, set, requireAccountId_ok haccount, requireTokenSet_ok hset,
    (requireToken_ok haccess).1, rfl, rfl, rfl⟩

/-- A rotation is refused, ends the session, or is accepted in the generation of its context. -/
theorem acceptRotatedTokenSet_cases (tokens : TokenState) (refreshRequest : Option RefreshRequest)
    (tokenSet : Option TokenSet) (now : Option Int) :
    (∃ e, acceptRotatedTokenSet tokens refreshRequest tokenSet now = (.error e, tokens)) ∨
    (∃ e, acceptRotatedTokenSet tokens refreshRequest tokenSet now =
      (.error e, clearTokenState tokens)) ∨
    ∃ context accepted, refreshRequest = some context ∧ context.accountId = tokens.accountId ∧
      context.expectedGeneration = tokens.generation ∧
      acceptInitialTokenSet tokens tokens.account tokenSet now = .ok accepted ∧
      acceptRotatedTokenSet tokens refreshRequest tokenSet now = (.ok (), accepted) := by
  unfold acceptRotatedTokenSet
  cases refreshRequest with
  | none => exact .inl ⟨_, rfl⟩
  | some context =>
    dsimp only
    split
    · exact .inl ⟨_, rfl⟩
    split
    · exact .inl ⟨_, rfl⟩
    next hfresh =>
    split
    · exact .inl ⟨_, rfl⟩
    split
    · exact .inl ⟨_, rfl⟩
    split
    · exact .inr (.inl ⟨_, rfl⟩)
    rw [not_or, not_not, not_not] at hfresh
    cases haccept : acceptInitialTokenSet tokens tokens.account tokenSet now with
    | error e => exact .inl ⟨e, rfl⟩
    | ok accepted =>
      exact .inr (.inr ⟨context, accepted, rfl, hfresh.1, hfresh.2, rfl, rfl⟩)

theorem account_eq_string (h : tokens.account = .string a) : tokens.accountId = some a := by
  unfold TokenState.account at h
  split at h
  · next ha => rw [ha, JsValue.string.inj h]
  · cases h

theorem access_eq_some (h : tokens.access = some t) : tokens.accessToken = some t :=
  (Option.filter_eq_some_iff.mp h).1

theorem Step.AcceptsSet.no_error {s : Step}
    (h : s.AcceptsSet account access) (e : JsError) : s.outcome ≠ .error e := by
  obtain ⟨ok, -, -⟩ | ⟨ok, -, -, -⟩ := h
  · simp [ok]
  · simp [ok]

theorem ne_clearTokenState : tokens ≠ clearTokenState tokens := by
  intro h
  have hgen : tokens.generation = tokens.generation + 1 := congrArg TokenState.generation h
  omega

/-- **One call.**  It changes nothing, or it accepts a set, or it clears the state. -/
theorem step_cases (c : Call) (tokens : TokenState) :
    ((c.step tokens).after = tokens ∧ ¬ (c.step tokens).Renews) ∨
    (∃ account access, (c.step tokens).AcceptsSet account access ∧
      (c.step tokens).after.accountId = some account ∧
      (c.step tokens).after.accessToken = some access ∧
      (c.step tokens).after.generation = tokens.generation + 1) ∨
    (c.step tokens).Clears := by
  have hkept : ∀ s : Step, s.before = tokens → s.after = tokens →
      (∀ account access, ¬ s.AcceptsSet account access) → s.after = tokens ∧ ¬ s.Renews := by
    rintro s rfl hafter hno
    refine ⟨hafter, ?_⟩
    rintro (⟨account, access, h⟩ | h)
    · exact hno account access h
    · exact ne_clearTokenState (hafter.symm.trans h)
  cases c with
  | acceptInitialTokenSet accountId tokenSet now =>
    cases h : acceptInitialTokenSet tokens accountId tokenSet now with
    | error =>
      refine .inl (hkept _ rfl (by simp [Call.step, Call.run, h]) ?_)
      rintro account access (⟨ok, -, -⟩ | ⟨-, call, -, -⟩)
      · simp [Call.step, Call.run, h] at ok
      · cases call
    | ok accepted =>
      obtain ⟨account, access, set, rfl, rfl, htoken, ha, ht, hgen⟩ := acceptInitialTokenSet_ok h
      refine .inr (.inl ⟨account, access, .initial (r := .snapshot accepted.snapshot) ?_ rfl htoken,
        ?_, ?_, ?_⟩)
      · simp [Call.step, Call.run, h]
      · simpa [Call.step, Call.run, h] using ha
      · simpa [Call.step, Call.run, h] using ht
      · simpa [Call.step, Call.run, h] using hgen
  | beginRefresh =>
    refine .inl (hkept _ rfl rfl ?_)
    rintro account access (⟨-, call, -⟩ | ⟨-, call, -, -⟩) <;> cases call
  | acceptRotatedTokenSet refreshRequest tokenSet now =>
    obtain ⟨e, h⟩ | ⟨e, h⟩ | ⟨context, accepted, rfl, howner, -, haccept, h⟩ :=
      acceptRotatedTokenSet_cases tokens refreshRequest tokenSet now
    · refine .inl (hkept _ rfl (by simp [Call.step, Call.run, h]) ?_)
      rintro account access (⟨-, call, -⟩ | ⟨ok, -, -, -⟩)
      · cases call
      · simp [Call.step, Call.run, h, Except.map] at ok
    · refine .inr (.inr ?_)
      simp [Step.Clears, Call.step, Call.run, h]
    · obtain ⟨account, access, set, hacc, rfl, htoken, ha, ht, hgen⟩ :=
        acceptInitialTokenSet_ok haccept
      have howner' : context.accountId = some account := howner.trans (account_eq_string hacc)
      refine .inr (.inl ⟨account, access,
        .rotated (r := .snapshot accepted.snapshot) ?_ rfl howner' htoken, ?_, ?_, ?_⟩)
      · simp [Call.step, Call.run, h, Except.map]
      · simpa [Call.step, Call.run, h] using ha
      · simpa [Call.step, Call.run, h] using ht
      · simpa [Call.step, Call.run, h] using hgen
  | clearTokenState => exact .inr (.inr rfl)
  | readAccessTokenForAccount =>
    refine .inl (hkept _ rfl rfl ?_)
    rintro account access (⟨-, call, -⟩ | ⟨-, call, -, -⟩) <;> cases call

/-- A rotation is accepted in the generation its context names. -/
theorem rotates_generation (h : (c.step tokens).Rotates context) :
    context.expectedGeneration = tokens.generation ∧ (c.step tokens).Renews := by
  obtain ⟨tokenSet, now, r, hcall, hok⟩ := h
  have hc : c = .acceptRotatedTokenSet (some context) tokenSet now := hcall
  subst hc
  obtain ⟨e, h⟩ | ⟨e, h⟩ | ⟨_, accepted, heq, howner, hgen, haccept, h⟩ :=
    acceptRotatedTokenSet_cases tokens (some context) tokenSet now
  · simp [Call.step, Call.run, h, Except.map] at hok
  · simp [Call.step, Call.run, h, Except.map] at hok
  · obtain rfl := Option.some.inj heq
    obtain ⟨account, access, set, hacc, rfl, htoken, -⟩ := acceptInitialTokenSet_ok haccept
    exact ⟨hgen, .inl ⟨account, access,
      .rotated hok rfl (howner.trans (account_eq_string hacc)) htoken⟩⟩

/-- A context names the generation it was created in. -/
theorem context_generation (h : (c.step tokens).outcome = .ok (.context context)) :
    context.expectedGeneration = tokens.generation ∧ (c.step tokens).after = tokens := by
  cases c with
  | acceptInitialTokenSet =>
    simp only [Call.step, Call.run] at h
    split at h <;> cases h
  | beginRefresh accountId now =>
    refine ⟨?_, rfl⟩
    simp only [Call.step, Call.run] at h
    cases hbegin : beginRefresh tokens accountId now with
    | error =>
      rw [hbegin] at h
      cases h
    | ok created =>
      rw [hbegin] at h
      obtain rfl : created = context := by simpa [Except.map] using h
      exact beginRefresh_generation hbegin
  | acceptRotatedTokenSet refreshRequest tokenSet now =>
    simp only [Call.step, Call.run] at h
    cases hout : (acceptRotatedTokenSet tokens refreshRequest tokenSet now).1 with
    | error =>
      rw [hout] at h
      cases h
    | ok =>
      rw [hout] at h
      cases h
  | clearTokenState => cases h
  | readAccessTokenForAccount accountId =>
    simp only [Call.step, Call.run] at h
    cases hread : readAccessTokenForAccount tokens accountId with
    | error =>
      rw [hread] at h
      cases h
    | ok =>
      rw [hread] at h
      cases h

theorem readAccessTokenForAccount_ok
    (h : ((Call.readAccessTokenForAccount account).step tokens).outcome = .ok (.token token)) :
    tokens.accessToken = some token ∧ account = tokens.account := by
  simp only [Call.step, Call.run, readAccessTokenForAccount] at h
  split at h
  · next t ht =>
    split at h
    · next haccount =>
      obtain rfl : t = token := by simpa [Except.map] using h
      exact ⟨access_eq_some ht, haccount⟩
    · cases h
  · cases h

theorem step_generation (c : Call) (tokens : TokenState) :
    tokens.generation ≤ (c.step tokens).after.generation ∧
    ((c.step tokens).Renews → tokens.generation < (c.step tokens).after.generation) := by
  obtain ⟨hsame, hno⟩ | ⟨account, access, -, -, -, hgen⟩ | hclear := step_cases c tokens
  · exact ⟨by simp [hsame], fun h => absurd h hno⟩
  · omega
  · have hgen : (c.step tokens).after.generation = tokens.generation + 1 :=
      congrArg TokenState.generation hclear
    omega

end

/-! ## Runs -/

theorem trace_split {tokens calls l l' s} (h : trace tokens calls = l ++ s :: l') :
    ∃ (first : List Call) (c : Call) (rest : List Call), trace tokens first = l ∧
      s = c.step (final tokens first) ∧ trace s.after rest = l' :=
  history_split h

/-- **The generation never goes back**, and a call that renews the session moves it on. -/
theorem final_generation (tokens : TokenState) (calls : List Call) :
    tokens.generation ≤ (final tokens calls).generation ∧
    ((∃ s ∈ trace tokens calls, s.Renews) → tokens.generation < (final tokens calls).generation) :=
  last_count (fun state c => step_generation c state) tokens calls

/-- **The access token has an owner.**  What the state holds was brought by the last accepted set,
and nothing renewed the session since. -/
theorem final_access (calls : List Call) (h : (final {} calls).accessToken = some token) :
    ∃ a, (final {} calls).accountId = some a ∧ ∃ k1 x k2, trace {} calls = k1 ++ x :: k2 ∧
      x.AcceptsSet a token ∧ ∀ y ∈ k2, ¬ y.Renews := by
  induction calls using List.reverseRecOn with
  | nil => cases h
  | append_singleton calls c ih =>
    have hfinal : final {} (calls ++ [c]) = (c.step (final {} calls)).after :=
      last_append_singleton _ calls c
    have htrace : trace {} (calls ++ [c]) = trace {} calls ++ [c.step (final {} calls)] :=
      history_append _ calls [c]
    rw [hfinal] at h ⊢
    rw [htrace]
    obtain ⟨hsame, hno⟩ | ⟨account, access, haccepts, howner, haccess, -⟩ | hclear :=
      step_cases c (final {} calls)
    · rw [hsame] at h ⊢
      obtain ⟨a, ha, k1, x, k2, hk, hx, hk2⟩ := ih h
      refine ⟨a, ha, k1, x, k2 ++ [c.step (final {} calls)], by simp [hk], hx, ?_⟩
      intro y hy
      rcases mem_append.mp hy with hy | hy
      · exact hk2 y hy
      · rwa [mem_singleton.mp hy]
    · obtain rfl : access = token := Option.some.inj (haccess.symm.trans h)
      exact ⟨account, howner, trace {} calls, _, [], rfl, haccepts, fun _ hy => nomatch hy⟩
    · rw [hclear] at h
      cases h

/-- **The token state keeps its protocol** along every sequence of calls, with any arguments. -/
theorem trace_tokenProtocol (calls : List Call) : TokenProtocol (trace {} calls) where
  once := by
    intro l1 s l2 s' l3 context h hs hs'
    obtain ⟨first, c, rest, -, rfl, hrest⟩ := trace_split h
    obtain ⟨second, c', -, -, rfl, -⟩ := trace_split hrest
    obtain ⟨hgen, hrenews⟩ := rotates_generation hs
    obtain ⟨hgen', -⟩ := rotates_generation hs'
    have hlt := (step_generation c (final {} first)).2 hrenews
    have hle := (final_generation (c.step (final {} first)).after second).1
    omega
  fresh := by
    intro l1 s l2 s' l3 context h hs hs' x hx hrenews
    obtain ⟨first, c, rest, -, rfl, hrest⟩ := trace_split h
    obtain ⟨second, c', -, rfl, rfl, -⟩ := trace_split hrest
    obtain ⟨hgen, hsame⟩ := context_generation hs
    obtain ⟨hgen', -⟩ := rotates_generation hs'
    have hlt := (final_generation (c.step (final {} first)).after second).2 ⟨x, hx, hrenews⟩
    rw [hsame] at hlt hgen'
    omega
  reads := by
    intro l1 s l2 account token h hcall hok
    obtain ⟨first, c, rest, rfl, rfl, -⟩ := trace_split h
    obtain rfl : c = .readAccessTokenForAccount account := hcall
    obtain ⟨haccess, haccount⟩ := readAccessTokenForAccount_ok hok
    obtain ⟨a, ha, hset⟩ := final_access first haccess
    exact ⟨a, by rw [haccount, TokenState.account, ha], hset⟩
  throws := by
    intro s hs e he
    obtain ⟨l, l', h⟩ := append_of_mem hs
    obtain ⟨first, c, rest, -, rfl, -⟩ := trace_split h
    obtain ⟨hsame, -⟩ | ⟨account, access, haccepts, -⟩ | hclear := step_cases c (final {} first)
    · exact .inl hsame
    · exact absurd he (haccepts.no_error e)
    · exact .inr ⟨hclear, (step_generation c _).2 (.inr hclear)⟩

end VaultServer.WebClient
