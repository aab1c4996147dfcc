import VaultServer.Lib.Split
import VaultServer.WebClient.Errors

/-!
# Encrypted strings

`enc-string.js` and `aes-cbc-hmac.js`: a string of type 2 is decrypted after its code has been
compared with the one computed from the vector and the ciphertext.
-/

namespace VaultServer.WebClient

open Lib List

/-- Web Crypto. -/
structure Crypto where
  hmacSha256 : List UInt8 → List UInt8 → List UInt8
  aesCbc : List UInt8 → List UInt8 → List UInt8 → Option (List UInt8)

structure StretchedKey where
  encKey : List UInt8
  macKey : List UInt8

structure EncString where
  iv : List UInt8
  ciphertext : List UInt8
  mac : List UInt8

inductive Subtle
  | sign | decrypt
  deriving DecidableEq

def requireThat (condition : Bool) (message : String) : Except JsError Unit :=
  if condition then .ok () else .error (.typeError message)

/-- The expression captures no empty part, so the length check never fails. -/
def decodeBase64 (value : List Char) (field : String) : Except JsError (List UInt8) := do
  requireThat (value ≠ []) ("Invalid " ++ field ++ ".")
  match atob value with
  | some bytes => .ok bytes
  | none => .error (.typeError ("Invalid " ++ field ++ " base64."))

/-- The captures of `^2\.([^|]+)\|([^|]+)\|([^|]+)$`. -/
def captures : List Char → Option (List Char × List Char × List Char)
  | '2' :: '.' :: rest => do
    let (a, rest) ← splitOnce '|' rest
    let (b, c) ← splitOnce '|' rest
    if a ≠ [] ∧ b ≠ [] ∧ c ≠ [] ∧ '|' ∉ c then some (a, b, c) else none
  | _ => none

/-- A ciphertext of whole blocks, and at least one. -/
def isBlocks (l : List UInt8) : Bool := l.length ≠ 0 && l.length % 16 = 0

def parseType2EncString (value : String) : Except JsError EncString :=
  match captures value.toList with
  | none => .error (.typeError
      "Only Bitwarden type-2 encrypted strings are supported by this boundary.")
  | some (a, b, c) => do
    let iv ← decodeBase64 a "IV"
    let ciphertext ← decodeBase64 b "ciphertext"
    let mac ← decodeBase64 c "MAC"
    requireThat (iv.length = 16) "Type-2 IV must be exactly 16 bytes."
    requireThat (mac.length = 32) "Type-2 MAC must be exactly 32 bytes."
    requireThat (isBlocks ciphertext) "Type-2 ciphertext must be a non-empty AES-CBC block sequence."
    return ⟨iv, ciphertext, mac⟩

def constantTimeEqual (left right : List UInt8) : Bool :=
  left.length = right.length && (zipWith (· ^^^ ·) left right).foldl (· ||| ·) 0 = 0

def requireBytes (value : List UInt8) (length : Nat) (field : String) : Except JsError Unit :=
  requireThat (value.length = length) s!"{field} must be exactly {length} bytes."

def requireInputs (e : EncString) (key : StretchedKey) : Except JsError Unit := do
  requireBytes e.iv 16 "IV"
  requireBytes e.mac 32 "MAC"
  requireBytes key.encKey 32 "encryption key"
  requireBytes key.macKey 32 "MAC key"
  requireThat (isBlocks e.ciphertext) "Ciphertext must be a non-empty AES-CBC block sequence."

variable (crypto : Crypto)

def calculateMac (e : EncString) (macKey : List UInt8) : List UInt8 :=
  crypto.hmacSha256 macKey (e.iv ++ e.ciphertext)

/-- What the promise comes to, behind the calls of Web Crypto that were made. -/
def decryptAes256CbcHmacSha256 (e : EncString) (key : StretchedKey) :
    List Subtle × Except JsError (List UInt8) :=
  match requireInputs e key with
  | .error error => ([], .error error)
  | .ok _ =>
    if constantTimeEqual (calculateMac crypto e key.macKey) e.mac then
      ([.sign, .decrypt], match crypto.aesCbc key.encKey e.iv e.ciphertext with
        | some plaintext => .ok plaintext
        | none => .error (.error "Encrypted value decryption failed."))
    else ([.sign], .error (.error "Encrypted value integrity check failed."))

def decryptType2EncString (value : String) (key : StretchedKey) :
    List Subtle × Except JsError (List UInt8) :=
  match parseType2EncString value with
  | .error error => ([], .error error)
  | .ok e => decryptAes256CbcHmacSha256 crypto e key

/-! ## The parts -/

variable {crypto}

theorem requireThat_ok {c m u} : requireThat c m = .ok u ↔ c = true := by
  cases c <;> simp [requireThat]

theorem captures_eq_some {l a b c} : captures l = some (a, b, c) ↔
    l = '2' :: '.' :: (a ++ '|' :: (b ++ '|' :: c)) ∧ a ≠ [] ∧ b ≠ [] ∧ c ≠ [] ∧
      '|' ∉ a ∧ '|' ∉ b ∧ '|' ∉ c := by
  constructor
  · intro h
    unfold captures at h
    split at h
    · obtain ⟨⟨a', rest'⟩, ha, hrest⟩ := Option.bind_eq_some_iff.mp h
      obtain ⟨⟨b', c'⟩, hb, hparts⟩ := Option.bind_eq_some_iff.mp hrest
      obtain ⟨hl, hbar⟩ := splitOnce_eq_some ha
      obtain ⟨hl', hbar'⟩ := splitOnce_eq_some hb
      simp only [Option.ite_none_right_eq_some, Option.some.injEq, Prod.mk.injEq] at hparts
      obtain ⟨⟨hna, hnb, hnc, hbar''⟩, rfl, rfl, rfl⟩ := hparts
      exact ⟨by rw [hl, hl'], hna, hnb, hnc, hbar, hbar', hbar''⟩
    · cases h
  · rintro ⟨rfl, ha, hb, hc, hbar, hbar', hbar''⟩
    simp [captures, splitOnce_append hbar, splitOnce_append hbar', ha, hb, hc, hbar'']

theorem foldl_xor {left right : List UInt8} {d : UInt8} (h : left.length = right.length) :
    (zipWith (· ^^^ ·) left right).foldl (· ||| ·) d = 0 ↔ d = 0 ∧ left = right := by
  induction left generalizing right d with
  | nil =>
    cases right with
    | nil => simp
    | cons => cases h
  | cons x left ih =>
    cases right with
    | nil => cases h
    | cons =>
      simp [ih (Nat.succ.inj h), and_assoc]

theorem constantTimeEqual_iff {left right} :
    constantTimeEqual left right = true ↔ left = right := by
  unfold constantTimeEqual
  by_cases h : left.length = right.length
  · simp [h, foldl_xor h]
  · have hne : left ≠ right := fun he => h (congrArg length he)
    simp [h, hne]

theorem decodeBase64_ok {value field bytes} :
    decodeBase64 value field = .ok bytes ↔ value ≠ [] ∧ atob value = some bytes := by
  unfold decodeBase64
  rw [bind_eq_ok_iff]
  cases atob value <;> simp [requireThat_ok]

/-- The string is `2.a|b|c` with parts that decode to a vector, whole blocks and a code. -/
def IsType2 (value : String) (e : EncString) : Prop :=
  ∃ a b c, value.toList = '2' :: '.' :: (a ++ '|' :: (b ++ '|' :: c)) ∧
    atob a = some e.iv ∧ atob b = some e.ciphertext ∧ atob c = some e.mac ∧
    e.iv.length = 16 ∧ e.ciphertext ≠ [] ∧ e.ciphertext.length % 16 = 0 ∧ e.mac.length = 32

/-- A part that decodes to something is one that the expression captures. -/
theorem part_of_atob {l bytes} (h : atob l = some bytes) (hne : bytes ≠ []) :
    l ≠ [] ∧ '|' ∉ l := by
  refine ⟨?_, fun hbar => ?_⟩
  · rintro rfl
    exact hne (Option.some.inj h).symm
  · rw [atob_of_bar hbar] at h
    cases h

theorem parseType2EncString_ok {value e} :
    parseType2EncString value = .ok e ↔ IsType2 value e := by
  constructor
  · intro h
    unfold parseType2EncString at h
    split at h
    · cases h
    · next a b c hcaptures =>
      simp only [bind_eq_ok_iff, decodeBase64_ok, requireThat_ok, pure_eq_ok] at h
      obtain ⟨iv, ⟨-, ha⟩, ciphertext, ⟨-, hb⟩, mac, ⟨-, hc⟩, -, hiv, -, hmac, -, hblocks, rfl⟩ := h
      simp only [isBlocks, ne_eq, length_eq_zero_iff, Bool.and_eq_true, decide_eq_true_eq,
        decide_not, Bool.not_eq_true', decide_eq_false_iff_not] at hiv hmac hblocks
      exact ⟨a, b, c, (captures_eq_some.mp hcaptures).1, ha, hb, hc, hiv, hblocks.1, hblocks.2, hmac⟩
  · rintro ⟨a, b, c, hvalue, ha, hb, hc, hiv, hne, hmod, hmac⟩
    obtain ⟨hna, hbar⟩ := part_of_atob ha (by rintro h; simp [h] at hiv)
    obtain ⟨hnb, hbar'⟩ := part_of_atob hb hne
    obtain ⟨hnc, hbar''⟩ := part_of_atob hc (by rintro h; simp [h] at hmac)
    have hcaptures := captures_eq_some.mpr ⟨hvalue, hna, hnb, hnc, hbar, hbar', hbar''⟩
    simp only [parseType2EncString, hcaptures, bind_eq_ok_iff, decodeBase64_ok, requireThat_ok,
      pure_eq_ok]
    exact ⟨_, ⟨hna, ha⟩, _, ⟨hnb, hb⟩, _, ⟨hnc, hc⟩, (), by simp [hiv], (), by simp [hmac], (),
      by simp [isBlocks, hne, hmod], rfl⟩

/-- The keys of AES-256 and of its code. -/
def StretchedKey.Fits (key : StretchedKey) : Prop :=
  key.encKey.length = 32 ∧ key.macKey.length = 32

/-- What passed the parser passes the checks of the decryption, but for those of the keys. -/
theorem requireInputs_ok {value e key} (h : IsType2 value e) :
    requireInputs e key = .ok () ↔ key.Fits := by
  obtain ⟨-, -, -, -, -, -, -, hiv, hne, hmod, hmac⟩ := h
  simp [requireInputs, requireBytes, bind_eq_ok_iff, requireThat_ok, isBlocks, hiv, hne, hmod, hmac,
    StretchedKey.Fits]

/-- **No unauthenticated decryption.** The promise resolves with a plaintext exactly for a string
of type 2 whose code is that of its vector and ciphertext, decrypted as they are with keys of 32
bytes; AES is not called for any other code. -/
theorem decryptType2EncString_iff (value : String) (key : StretchedKey) :
    (∀ plaintext, (decryptType2EncString crypto value key).2 = .ok plaintext ↔
      ∃ e, IsType2 value e ∧ key.Fits ∧
        e.mac = crypto.hmacSha256 key.macKey (e.iv ++ e.ciphertext) ∧
        crypto.aesCbc key.encKey e.iv e.ciphertext = some plaintext) ∧
    (.decrypt ∈ (decryptType2EncString crypto value key).1 →
      ∃ e, IsType2 value e ∧ e.mac = crypto.hmacSha256 key.macKey (e.iv ++ e.ciphertext)) := by
  cases hparse : parseType2EncString value with
  | error error =>
    have hnot : ∀ e, ¬ IsType2 value e := fun e he => by
      rw [parseType2EncString_ok.mpr he] at hparse
      cases hparse
    simp [decryptType2EncString, hparse, hnot]
  | ok e =>
    have htype := parseType2EncString_ok.mp hparse
    have honly : ∀ e', IsType2 value e' → e' = e := fun e' he' => by
      rw [parseType2EncString_ok.mpr he'] at hparse
      exact Except.ok.inj hparse
    have hex : ∀ P : EncString → Prop, (∃ e', IsType2 value e' ∧ P e') ↔ P e := by
      intro P
      exact ⟨fun ⟨e', he', hP⟩ => honly e' he' ▸ hP, fun hP => ⟨e, htype, hP⟩⟩
    simp only [decryptType2EncString, hparse, decryptAes256CbcHmacSha256, hex]
    cases hinputs : requireInputs e key with
    | error =>
      have hfits : ¬ key.Fits := fun h => by
        rw [(requireInputs_ok htype).mpr h] at hinputs
        cases hinputs
      simp [hfits]
    | ok =>
      have hfits : key.Fits := (requireInputs_ok htype).mp hinputs
      simp only [constantTimeEqual_iff, calculateMac]
      by_cases hmac : crypto.hmacSha256 key.macKey (e.iv ++ e.ciphertext) = e.mac
      · cases crypto.aesCbc key.encKey e.iv e.ciphertext <;> simp [hmac, hfits]
      · simp [hmac, Ne.symm hmac]

/-! ## The vector of the tests -/

def vectorKey : StretchedKey :=
  ⟨(List.range 32).map UInt8.ofNat, (List.range' 32 32).map UInt8.ofNat⟩

/-- The parts of the string in `enc-string.test.js`. -/
def vectorParts : String × String × String :=
  ("2NokAMS6llUxk26oueMqrA==", "6k0QD71SJLy2WEBDkV4esiTrgkP/z7eoSedSesGLGYE=",
    "PE4sb0jpAwZW+tnyPuW43eeWvSxjvdw3xMJlPGbDlYI=")

def vector : EncString :=
  ⟨(atob vectorParts.1.toList).getD [], (atob vectorParts.2.1.toList).getD [],
    (atob vectorParts.2.2.toList).getD []⟩

def vectorPlaintext : List UInt8 :=
  "Bitwarden SDK test vector".toList.map fun c => UInt8.ofNat c.toNat

/-- Web Crypto as far as the vector goes: the code and the plaintext that it has for it. -/
def vectorCrypto : Crypto where
  hmacSha256 key data :=
    if key = vectorKey.macKey ∧ data = vector.iv ++ vector.ciphertext then vector.mac else []
  aesCbc key iv ciphertext :=
    if key = vectorKey.encKey ∧ iv = vector.iv ∧ ciphertext = vector.ciphertext then
      some vectorPlaintext
    else none

theorem decryptType2EncString_vector :
    (decryptType2EncString vectorCrypto
      ("2." ++ vectorParts.1 ++ "|" ++ vectorParts.2.1 ++ "|" ++ vectorParts.2.2) vectorKey).2 =
      .ok vectorPlaintext := by
  have htype : IsType2 ("2." ++ vectorParts.1 ++ "|" ++ vectorParts.2.1 ++ "|" ++ vectorParts.2.2)
      vector :=
    ⟨vectorParts.1.toList, vectorParts.2.1.toList, vectorParts.2.2.toList, by decide +kernel⟩
  refine ((decryptType2EncString_iff _ vectorKey).1 _).mpr ⟨vector, htype, ⟨rfl, rfl⟩, ?_⟩
  decide +kernel

end VaultServer.WebClient
