import VaultServer.Effects.Faults
import VaultServer.WebClient.Errors

/-!
# Key-derivation settings on both sides

`set_kdf_data` decides which settings an account may have and `prelogin` reports them;
`auth-kdf.js` and `argon2id-provider.js` of the web client decide whether a key can be derived with
them. A parameter that is reported as `null` is `none`.
-/

namespace VaultServer

open Lib Option

/-- What an account's settings are reported as. -/
structure KdfMetadata where
  kdf : Int
  kdfIterations : Int
  kdfMemory : Option Int
  kdfParallelism : Option Int

def prelogin (db : Db) (email : String) : KdfMetadata :=
  match User.findByMail db email with
  | some u => ⟨u.clientKdfType, u.clientKdfIter, u.clientKdfMemory, u.clientKdfParallelism⟩
  | none => ⟨0, 600000, none, none⟩

/-- The numbers of a request are read as 32-bit integers. -/
def KDFData.Fits (data : KDFData) : Prop :=
  ∀ n ∈ data.kdf :: data.kdfIterations :: data.kdfMemory.toList ++ data.kdfParallelism.toList,
    -2 ^ 31 ≤ n ∧ n < 2 ^ 31

namespace WebClient

def u32Max : Int := 0xFFFFFFFF

def maxSafeInteger : Int := 9007199254740991

def requireU32AtLeast (value : Option Int) (minimum : Int) (field : String) : Except JsError Int :=
  match value with
  | some n =>
    if n < minimum ∨ u32Max < n then .error (.typeError ("Invalid " ++ field ++ " value.")) else .ok n
  | none => .error (.typeError ("Invalid " ++ field ++ " value."))

structure Argon2idParams where
  version : Nat := 0x13
  iterations : Int
  memoryMiB : Int
  memoryKiB : Int
  parallelism : Int
  outputBytes : Nat := 32

def normalizeArgon2idMetadata (metadata : KdfMetadata) : Except JsError Argon2idParams :=
  if metadata.kdf ≠ 1 then .error (.typeError "Argon2id KDF metadata is required.") else do
  let iterations ← requireU32AtLeast (some metadata.kdfIterations) 2 "kdfIterations"
  let memoryMiB ← requireU32AtLeast metadata.kdfMemory 16 "kdfMemory"
  let parallelism ← requireU32AtLeast metadata.kdfParallelism 1 "kdfParallelism"
  let memoryKiB := memoryMiB * 1024
  if maxSafeInteger < memoryKiB ∨ u32Max < memoryKiB then
    .error (.typeError "Invalid kdfMemory value.")
  else .ok { iterations, memoryMiB, memoryKiB, parallelism }

/-- A provider that was made by `createArgon2idProvider`, by its identity. -/
def requireArgon2idProvider : Option Nat → Except JsError Nat
  | some provider => .ok provider
  | none => .error (.error ("Argon2id authentication remains unavailable until a reviewed local " ++
      "provider is explicitly registered."))

def requirePbkdf2Iterations (iterations : Int) : Except JsError Int :=
  if iterations < 5000 then .error (.rangeError "PBKDF2 iterations must be at least 5000.")
  else .ok iterations

inductive SupportedKdf where
  | pbkdf2 (iterations : Int)
  | argon2id (params : Argon2idParams) (provider : Nat)

def assertSupportedKdf (metadata : KdfMetadata) (argon2idProvider : Option Nat) :
    Except JsError SupportedKdf :=
  if metadata.kdf = 0 then do
    let iterations ← requirePbkdf2Iterations metadata.kdfIterations
    pure (.pbkdf2 iterations)
  else if metadata.kdf = 1 then do
    let params ← normalizeArgon2idMetadata metadata
    let provider ← requireArgon2idProvider argon2idProvider
    pure (.argon2id params provider)
  else .error (.error "Unsupported GoreeVault KDF type.")

theorem requireU32AtLeast_eq (h : n ≤ u32Max) : requireU32AtLeast (some n) minimum field =
      if minimum ≤ n then .ok n else .error (.typeError ("Invalid " ++ field ++ " value.")) := by
  unfold requireU32AtLeast
  by_cases hmin : minimum ≤ n
  · simp [hmin, Int.not_lt.2 h, Int.not_lt.2 hmin]
  · simp [hmin, Int.not_le.1 hmin]

theorem normalizeArgon2idMetadata_toBool (hi : iterations < 2 ^ 31)
    (hm : m ≤ 1024) (hp : 1 ≤ p ∧ p ≤ 16) :
    (normalizeArgon2idMetadata ⟨1, iterations, some m, some p⟩).toBool = true ↔
      2 ≤ iterations ∧ 16 ≤ m := by
  have hkib : ¬ (maxSafeInteger < m * 1024 ∨ u32Max < m * 1024) := by
    unfold maxSafeInteger u32Max
    omega
  have hle : iterations ≤ u32Max ∧ m ≤ u32Max ∧ p ≤ u32Max := by
    unfold u32Max
    omega
  unfold normalizeArgon2idMetadata
  rw [if_neg (by simp), requireU32AtLeast_eq hle.1, requireU32AtLeast_eq hle.2.1,
    requireU32AtLeast_eq hle.2.2, if_pos hp.1]
  by_cases h2 : 2 ≤ iterations
  · by_cases h16 : 16 ≤ m
    · rw [if_pos h2, if_pos h16]
      simp [bind, Except.bind, hkib, h2, h16, Except.toBool]
    · rw [if_pos h2, if_neg h16]
      simp [bind, Except.bind, h16, Except.toBool]
  · rw [if_neg h2]
    simp [bind, Except.bind, h2, Except.toBool]

/-- With a registered provider the metadata decides. -/
theorem assertSupportedKdf_argon2id (h : metadata.kdf = 1) :
    (assertSupportedKdf metadata (some provider)).toBool =
      (normalizeArgon2idMetadata metadata).toBool := by
  rw [assertSupportedKdf, if_neg (by simp [h]), if_pos h]
  cases normalizeArgon2idMetadata metadata <;> rfl

end WebClient

open WebClient

variable {w : World} {u : User} {data : KDFData}

/-- What the server has checked of settings that it accepts. -/
theorem setKdfData_yields : Yields w (setKdfData u data) fun u' _ =>
    u'.clientKdfType = data.kdf ∧ u'.clientKdfIter = data.kdfIterations ∧
      (data.kdf = 0 → 100000 ≤ data.kdfIterations) ∧
      (data.kdf = 1 → ∃ m p, u'.clientKdfMemory = some m ∧ data.kdfMemory = some m ∧ m ≤ 1024 ∧
        u'.clientKdfParallelism = some p ∧ 1 ≤ p ∧ p ≤ 16) := by
  refine .ensure fun hiter => ?_
  have hiter : data.kdf = 0 → 100000 ≤ data.kdfIterations := fun h =>
    (of_decide_eq_true hiter).resolve_left (not_not_intro h)
  refine Prog.Yields.bind (Q := fun _ _ => data.kdf = 1 → ∃ m p, data.kdfMemory = some m ∧
    m ≤ 1024 ∧ data.kdfParallelism = some p ∧ 1 ≤ p ∧ p ≤ 16) ?_ fun _ hchecked => .ret
    ⟨rfl, rfl, hiter, fun hargon => ?_⟩
  · unfold Prog.when
    split
    · refine Yields.ensure fun _ => .ensure fun hm => .ensure fun hm' => .ensure fun hp =>
        .ensure_last fun hp' _ => ?_
      obtain ⟨m, hm⟩ := isSome_iff_exists.1 hm
      obtain ⟨p, hp⟩ := isSome_iff_exists.1 hp
      simp only [hm, hp, all_some, decide_eq_true_eq] at hm' hp'
      exact ⟨m, p, hm, hm'.2, hp, hp'⟩
    · next hargon => exact .ret fun h => absurd (decide_eq_true h) hargon
  · obtain ⟨m, p, hm, hmax, hp, hp'⟩ := hchecked hargon
    exact ⟨m, p, by simp [hargon, hm], hm, hmax, by simp [hargon, hp], hp'⟩

/-- **The client can use what the server accepts exactly if the algorithm is one of the two and the
settings of Argon2id reach the client's own minima.** -/
theorem assertSupportedKdf_iff {u' : User} {w' : World} {db : Db} {email : String} (provider : Nat)
    (hfits : data.Fits) (hset : (setKdfData u data).run w = (.ok u', w'))
    (hfound : User.findByMail db email = some u') :
    (data.kdf = 0 ∨ data.kdf = 1) ∧
        (assertSupportedKdf (prelogin db email) (some provider)).toBool = true ↔
      data.kdf = 0 ∨ data.kdf = 1 ∧ 2 ≤ data.kdfIterations ∧ ∀ m ∈ data.kdfMemory, 16 ≤ m := by
  obtain ⟨htype, hiter, hpbkdf2, hargon⟩ := setKdfData_yields u' (congrArg Prod.fst hset)
  have hmax : data.kdfIterations < 2 ^ 31 := (hfits _ (by simp)).2
  by_cases h0 : data.kdf = 0
  · have hmin : ¬ data.kdfIterations < 5000 := by
      have := hpbkdf2 h0
      omega
    simp [h0, assertSupportedKdf, prelogin, hfound, htype, hiter, requirePbkdf2Iterations, hmin]
    rfl
  by_cases h1 : data.kdf = 1
  · obtain ⟨m, p, hm', hm, hmem, hp', hp⟩ := hargon h1
    have hreport : prelogin db email = ⟨1, data.kdfIterations, some m, some p⟩ := by
      simp [prelogin, hfound, htype, hiter, hm', hp', h1]
    rw [hreport, assertSupportedKdf_argon2id rfl, normalizeArgon2idMetadata_toBool hmax hmem hp]
    simp [h1, hm]
  · simp [h0, h1]

namespace KdfRun

def user : User := User.new {} 1 6 7 "a@example.com" none

def stored (u : User) : Db := { Db.empty with users := ⟨[u], by simp, by simp⟩ }

/-- The account after the change. -/
def changed (data : KDFData) : User := { user with
  clientKdfType := data.kdf
  clientKdfIter := data.kdfIterations
  clientKdfMemory := data.kdfMemory
  clientKdfParallelism := data.kdfParallelism }

/-- The outcome of the change, and whether the client then takes what is reported. -/
def change (data : KDFData) : Except Failure User × Bool :=
  (((setKdfData user data).run ⟨stored user, 9, [], [], []⟩).1,
    (assertSupportedKdf (prelogin (stored (changed data)) "a@example.com") (some 0)).toBool)

def usual : KDFData := ⟨1, 3, some 64, some 4⟩

end KdfRun

open KdfRun in
theorem assertSupportedKdf_iff_usual : usual.Fits ∧ (change usual).2 = true := by
  have hfits : usual.Fits := by simp [KDFData.Fits, usual]
  have hset : (setKdfData user usual).run ⟨stored user, 9, [], [], []⟩ =
      (.ok (changed usual), ⟨stored user, 9, [], [], []⟩) := rfl
  have hfound : User.findByMail (stored (changed usual)) "a@example.com" = some (changed usual) := rfl
  exact ⟨hfits, ((assertSupportedKdf_iff 0 hfits hset hfound).2 (.inr (by simp [usual]))).2⟩

open KdfRun in
/-- **Changes that the server accepts and the client does not**: the server's least memory is below
the client's, and the server takes any third algorithm. -/
theorem setKdfData_not_supported :
    change ⟨1, 3, some 15, some 4⟩ = (.ok (changed ⟨1, 3, some 15, some 4⟩), false) ∧
      change ⟨2, 3, none, none⟩ = (.ok (changed ⟨2, 3, none, none⟩), false) := by
  decide

end VaultServer
