import Mathlib

/-!
# Hosts of URLs

The host parser of the URL standard, which browsers and URL libraries share: bracketed IPv6
addresses, the many ways to write an IPv4 address in numbers, and domains, which are percent-decoded
and brought to ASCII. The Unicode tables behind the last step are a parameter; on ASCII names they
lower the case.
-/

namespace Lib.Url

open List

structure Ipv4 where
  (a b c d : UInt8)
deriving DecidableEq

structure Ipv6 where
  (s0 s1 s2 s3 s4 s5 s6 s7 : UInt16)
deriving DecidableEq

/-! ## Code points -/

def hexValue (c : Char) : Option Nat :=
  if '0' ≤ c ∧ c ≤ '9' then some (c.toNat - '0'.toNat)
  else if 'a' ≤ c ∧ c ≤ 'f' then some (c.toNat - 'a'.toNat + 10)
  else if 'A' ≤ c ∧ c ≤ 'F' then some (c.toNat - 'A'.toNat + 10)
  else none

def hexDigit (n : Nat) : Char := "0123456789abcdef".toList.getD n '0'

def isC0Control (c : Char) : Bool := c.toNat ≤ 0x1f

def isForbiddenHost (c : Char) : Bool :=
  c = Char.ofNat 0 || c = '\t' || c = '\n' || c = '\r' || "#/:<>?@[\\]^| ".toList.contains c

def isForbiddenDomain (c : Char) : Bool :=
  isForbiddenHost c || isC0Control c || c = '%' || c.toNat = 0x7f

def utf8Encode (s : List Char) : List UInt8 := s.flatMap String.utf8EncodeChar

def hexByte (c : UInt8) : Option Nat := hexValue (Char.ofNat c.toNat)

def percentDecode : List UInt8 → List UInt8
  | 37 :: x :: y :: rest =>
    match hexByte x, hexByte y with
    | some m, some n => UInt8.ofNat (16 * m + n) :: percentDecode rest
    | _, _ => 37 :: percentDecode (x :: y :: rest)
  | x :: rest => x :: percentDecode rest
  | [] => []

/-! ## IPv4 -/

def ofDigits (radix : Nat) (s : List Char) : Option Nat :=
  s.foldlM (fun n c => (hexValue c).bind fun v => if v < radix then some (n * radix + v) else none) 0

/-- Decimal, octal after `0` and hexadecimal after `0x`, which alone stands for 0. -/
def parseIpv4Number : List Char → Option Nat
  | [] => none
  | '0' :: c :: rest => if c = 'x' ∨ c = 'X' then ofDigits 16 rest else ofDigits 8 (c :: rest)
  | s => ofDigits 10 s

/-- The parts between dots, without the empty one after a final dot. -/
def dottedParts (s : List Char) : List (List Char) :=
  let parts := s.splitOn '.'
  if parts.getLast? = some [] ∧ 1 < parts.length then parts.dropLast else parts

/-- Whether a domain is meant as an IPv4 address. -/
def endsInNumber (s : List Char) : Bool :=
  (dottedParts s).getLast?.any fun last =>
    (last ≠ [] ∧ last.all Char.isDigit) ∨ (parseIpv4Number last).isSome

def Ipv4.ofNat (n : Nat) : Ipv4 :=
  ⟨.ofNat (n / 2 ^ 24), .ofNat (n / 2 ^ 16 % 256), .ofNat (n / 2 ^ 8 % 256), .ofNat (n % 256)⟩

/-- Up to four numbers; the last one fills what the others leave. -/
def parseIpv4 (s : List Char) : Option Ipv4 := do
  let parts := dottedParts s
  if 4 < parts.length then none else
  let numbers ← parts.mapM parseIpv4Number
  let last ← numbers.getLast?
  if numbers.dropLast.any (255 < ·) then none else
  if 256 ^ (5 - numbers.length) ≤ last then none else
  let high := numbers.dropLast.zipIdx.foldl (fun n (x, i) => n + x * 256 ^ (3 - i)) 0
  some (Ipv4.ofNat (high + last))

/-! ## IPv6 -/

/-- A decimal number up to 255 without leading zeros. -/
def decimalByte (s : List Char) : Option Nat :=
  if s = [] ∨ (1 < s.length ∧ s.head? = some '0') then none
  else (ofDigits 10 s).filter (· ≤ 255)

/-- Fills the pieces up to eight at the place of `::`. -/
def expandPieces (pieces : List Nat) (compress : Option Nat) : Option Ipv6 :=
  let pieces := match compress with
    | some k => pieces.take k ++ List.replicate (8 - pieces.length) 0 ++ pieces.drop k
    | none => pieces
  match pieces with
  | [a, b, c, d, e, f, g, h] =>
    some ⟨.ofNat a, .ofNat b, .ofNat c, .ofNat d, .ofNat e, .ofNat f, .ofNat g, .ofNat h⟩
  | _ => none

/-- Each round consumes a character, so `fuel` is the length of the text. -/
def parseIpv6Pieces (fuel : Nat) (pieces : List Nat) (compress : Option Nat) (s : List Char) :
    Option Ipv6 :=
  match fuel, s with
  | _, [] => expandPieces pieces compress
  | 0, _ => none
  | fuel + 1, c :: rest =>
    if pieces.length = 8 then none
    else if c = ':' then
      if compress.isSome then none
      else parseIpv6Pieces fuel (pieces ++ [0]) (some (pieces.length + 1)) rest
    else
      let digits := ((c :: rest).take 4).takeWhile fun c => (hexValue c).isSome
      let value := (ofDigits 16 digits).getD 0
      match (c :: rest).drop digits.length with
      | '.' :: _ =>
        if digits = [] ∨ 6 < pieces.length then none
        else match ((c :: rest).splitOn '.').mapM decimalByte with
          | some [a, b, c, d] => expandPieces (pieces ++ [a * 256 + b, c * 256 + d]) compress
          | _ => none
      | ':' :: rest =>
        if rest = [] then none else parseIpv6Pieces fuel (pieces ++ [value]) compress rest
      | [] => expandPieces (pieces ++ [value]) compress
      | _ => none

def parseIpv6 : List Char → Option Ipv6
  | ':' :: ':' :: rest => parseIpv6Pieces rest.length [0] (some 1) rest
  | ':' :: _ => none
  | s => parseIpv6Pieces s.length [] none s

/-! ## Hosts -/

inductive Host where
  | domain (name : List Char)
  | ipv4 (ip : Ipv4)
  | ipv6 (ip : Ipv6)
  /-- The host of a scheme the standard gives no meaning. -/
  | other (name : List Char)
  | empty
deriving DecidableEq

def isAscii (s : List Char) : Bool := s.all fun c => c.toNat < 128

/-- A label that starts with `xn--` is already encoded and is looked at by the tables. -/
def hasEncodedLabel (s : List Char) : Bool :=
  (s.splitOn '.').any fun label => (label.map Char.toLower).take 4 = "xn--".toList

/-- Decoding and bringing to ASCII of a domain, with what the tables do to plain ASCII names. -/
structure Idna where
  toAscii : List UInt8 → Option (List Char)
  ascii : ∀ s, isAscii s = true → hasEncodedLabel s = false →
    toAscii (utf8Encode s) = some (s.map Char.toLower)

theorem utf8Encode_ascii (hs : isAscii s = true) :
    utf8Encode s = s.map fun c => UInt8.ofNat c.toNat := by
  induction s with
  | nil => rfl
  | cons c s ih =>
    simp only [isAscii, all_cons, Bool.and_eq_true, decide_eq_true_eq] at hs
    have hc : String.utf8EncodeChar c = [UInt8.ofNat c.toNat] := by
      unfold String.utf8EncodeChar
      exact if_pos (Nat.le_of_lt_succ hs.1)
    rw [utf8Encode, flatMap_cons, hc, map_cons, ← ih hs.2]
    rfl

/-- Tables that know plain ASCII names only. -/
def Idna.plain : Idna where
  toAscii bytes :=
    if bytes.all (· < 128) then some (bytes.map fun b => (Char.ofNat b.toNat).toLower) else none
  ascii s hs _ := by
    have hbyte : ∀ c ∈ s, (UInt8.ofNat c.toNat).toNat = c.toNat := by
      intro c hc
      have hlt : c.toNat < 128 := of_decide_eq_true (all_eq_true.1 hs c hc)
      rw [UInt8.toNat_ofNat']
      omega
    have hall : (s.map fun c => UInt8.ofNat c.toNat).all (· < 128) = true := by
      rw [all_map, all_eq_true]
      intro c hc
      have hlt : c.toNat < 128 := of_decide_eq_true (all_eq_true.1 hs c hc)
      simp [UInt8.lt_iff_toNat_lt, hbyte c hc, hlt]
    rw [utf8Encode_ascii hs, if_pos hall, map_map]
    refine congrArg some (map_congr_left fun c hc => ?_)
    simp [hbyte c hc]

def isC0Encoded (c : Char) : Bool := isC0Control c || 0x7e < c.toNat

def percentEncodeByte (b : UInt8) : List Char :=
  ['%', (hexDigit (b.toNat / 16)).toUpper, (hexDigit (b.toNat % 16)).toUpper]

/-- UTF-8 percent-encoding of the code points in `set`. -/
def percentEncode (set : Char → Bool) (c : Char) : List Char :=
  if set c then (String.utf8EncodeChar c).flatMap percentEncodeByte else [c]

def parseHost (idna : Idna) (special : Bool) (s : List Char) : Option Host :=
  match s with
  | '[' :: rest => if rest.getLast? = some ']' then (parseIpv6 rest.dropLast).map .ipv6 else none
  | _ =>
    if special then do
      let name ← idna.toAscii (percentDecode (utf8Encode s))
      if name = [] ∨ name.any isForbiddenDomain then none
      else if endsInNumber name then (parseIpv4 name).map .ipv4
      else some (.domain name)
    else if s.any isForbiddenHost then none
    else if s = [] then some .empty
    else some (.other (s.flatMap (percentEncode isC0Encoded)))

/-! ## Back to text -/

def showNat (n : Nat) : List Char := (toString n).toList

def Ipv4.serialize (ip : Ipv4) : List Char :=
  List.intercalate ['.'] ([ip.a, ip.b, ip.c, ip.d].map fun n => showNat n.toNat)

def hexDigits : Nat → Nat → List Char
  | 0, _ => []
  | fuel + 1, n => if n < 16 then [hexDigit n] else hexDigits fuel (n / 16) ++ [hexDigit (n % 16)]

def Ipv6.pieces (ip : Ipv6) : List Nat :=
  [ip.s0, ip.s1, ip.s2, ip.s3, ip.s4, ip.s5, ip.s6, ip.s7].map UInt16.toNat

/-- Start and length of the first longest run of zeros, if it is longer than one. -/
def longestZeros (pieces : List Nat) : Option (Nat × Nat) :=
  let runs := (List.range pieces.length).map fun i => (i, ((pieces.drop i).takeWhile (· = 0)).length)
  let best := runs.foldl (fun best r => if best.2 < r.2 then r else best) (0, 0)
  if 1 < best.2 then some best else none

def Ipv6.serialize (ip : Ipv6) : List Char :=
  let texts := ip.pieces.map (hexDigits 4)
  match longestZeros ip.pieces with
  | none => List.intercalate [':'] texts
  | some (i, n) =>
    List.intercalate [':'] (texts.take i) ++ [':', ':'] ++
      List.intercalate [':'] (texts.drop (i + n))

def Host.serialize : Host → List Char
  | domain name | other name => name
  | ipv4 ip => ip.serialize
  | ipv6 ip => '[' :: ip.serialize ++ [']']
  | empty => []

end Lib.Url
