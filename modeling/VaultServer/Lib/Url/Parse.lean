import VaultServer.Lib.Url.Host

/-!
# The URL parser

The basic URL parser of the URL standard, without a state override. Every state of the standard is
a function on the rest of the input; "decrease the pointer" is handing the same rest on. The states
follow one another in a fixed order, so each of them only recurses on its own input.
-/

namespace Lib

namespace Url

inductive Path where
  | segments (names : List (List Char))
  /-- The path of a URL like `mailto:user@example.com`. -/
  | rootless (text : List Char)
deriving DecidableEq

end Url

structure Url where
  scheme : List Char
  username : List Char := []
  password : List Char := []
  host : Option Url.Host := none
  port : Option Nat := none
  path : Url.Path := .segments []
  query : Option (List Char) := none
  fragment : Option (List Char) := none
deriving DecidableEq

namespace Url

/-! ## Schemes and encode sets -/

/-- The special schemes with their default ports. -/
def specialSchemes : List (List Char × Option Nat) :=
  [("ftp".toList, some 21), ("file".toList, none), ("http".toList, some 80),
    ("https".toList, some 443), ("ws".toList, some 80), ("wss".toList, some 443)]

def isSpecialScheme (scheme : List Char) : Bool := specialSchemes.any fun s => s.1 = scheme

def isSpecial (url : Url) : Bool := isSpecialScheme url.scheme

def defaultPort (scheme : List Char) : Option Nat :=
  (specialSchemes.find? fun s => s.1 = scheme).bind Prod.snd

def isFile (scheme : List Char) : Bool := scheme = "file".toList

def fragmentSet (c : Char) : Bool := isC0Encoded c || " \"<>\x60".toList.contains c

def querySet (special : Bool) (c : Char) : Bool :=
  isC0Encoded c || " \"#<>".toList.contains c || (special && c.toNat = 0x27)

def pathSet (c : Char) : Bool := isC0Encoded c || " \"#<>?^\x60\x7b\x7d".toList.contains c

def userinfoSet (c : Char) : Bool := pathSet c || "/:;=@[\\]|".toList.contains c

/-- A separator after the authority. -/
def endsAuthority (special : Bool) (c : Char) : Bool :=
  c = '/' || c = '?' || c = '#' || (special && c = '\\')

/-! ## Path segments -/

def isWindowsDriveLetter (s : List Char) : Bool :=
  match s with
  | [c, d] => c.isAlpha && (d = ':' || d = '|')
  | _ => false

def isNormalizedWindowsDriveLetter (s : List Char) : Bool :=
  match s with
  | [c, d] => c.isAlpha && d = ':'
  | _ => false

def startsWithWindowsDriveLetter (s : List Char) : Bool :=
  isWindowsDriveLetter (s.take 2) && (s.drop 2).head?.all fun c => "/\\?#".toList.contains c

def isSingleDot (s : List Char) : Bool := [".".toList, "%2e".toList].contains (s.map Char.toLower)

def isDoubleDot (s : List Char) : Bool :=
  ["..".toList, ".%2e".toList, "%2e.".toList, "%2e%2e".toList].contains (s.map Char.toLower)

def shorten (scheme : List Char) (names : List (List Char)) : List (List Char) :=
  match names with
  | [name] => if isFile scheme && isNormalizedWindowsDriveLetter name then [name] else []
  | names => names.dropLast

def mapSegments (f : List (List Char) → List (List Char)) (url : Url) : Url :=
  match url.path with
  | .segments names => { url with path := .segments (f names) }
  | .rootless _ => url

/-- The end of a path segment; `slash` says whether another one follows. -/
def endSegment (slash : Bool) (buffer : List Char) (url : Url) : Url :=
  url.mapSegments fun names =>
    if isDoubleDot buffer then
      let names := shorten url.scheme names
      if slash then names else names ++ [[]]
    else if isSingleDot buffer then
      if slash then names else names ++ [[]]
    else if isFile url.scheme && names.isEmpty && isWindowsDriveLetter buffer then
      names ++ [buffer.take 1 ++ [':']]
    else names ++ [buffer]

/-! ## From the path on -/

def readFragment (url : Url) (s : List Char) : Url :=
  { url with fragment := some (s.flatMap (percentEncode fragmentSet)) }

def readQuery (url : Url) (s : List Char) : Url :=
  let text := s.takeWhile (· ≠ '#')
  let url := { url with query := some (text.flatMap (percentEncode (querySet url.isSpecial))) }
  match s.dropWhile (· ≠ '#') with
  | _ :: rest => readFragment url rest
  | [] => url

def readPath (url : Url) (buffer : List Char) : List Char → Url
  | [] => url.endSegment false buffer
  | c :: rest =>
    if c = '/' ∨ (url.isSpecial ∧ c = '\\') then readPath (url.endSegment true buffer) [] rest
    else if c = '?' then readQuery (url.endSegment false buffer) rest
    else if c = '#' then readFragment (url.endSegment false buffer) rest
    else readPath url (buffer ++ percentEncode pathSet c) rest

def readPathStart (url : Url) (s : List Char) : Url :=
  match s with
  | [] => if url.isSpecial then readPath url [] [] else url
  | c :: rest =>
    if c = '/' ∨ (url.isSpecial ∧ c = '\\') then readPath url [] rest
    else if ¬ url.isSpecial ∧ c = '?' then readQuery url rest
    else if ¬ url.isSpecial ∧ c = '#' then readFragment url rest
    else readPath url [] (c :: rest)

def readRootless (url : Url) (buffer : List Char) : List Char → Url
  | [] => { url with path := .rootless buffer }
  | c :: rest =>
    if c = '?' then readQuery { url with path := .rootless buffer } rest
    else if c = '#' then readFragment { url with path := .rootless buffer } rest
    else if c = ' ' then
      -- a space in front of a query or fragment would be lost
      let encoded := if rest.head? = some '?' ∨ rest.head? = some '#' then "%20".toList else [' ']
      readRootless url (buffer ++ encoded) rest
    else readRootless url (buffer ++ percentEncode isC0Encoded c) rest

/-! ## The authority -/

def withPort (url : Url) (digits : List Char) : Option Url :=
  if digits = [] then some url
  else (ofDigits 10 digits).bind fun n =>
    if 65535 < n then none
    else some { url with port := if defaultPort url.scheme = some n then none else some n }

def readPort (url : Url) (digits : List Char) : List Char → Option Url
  | [] => (url.withPort digits).map (readPathStart · [])
  | c :: rest =>
    if c.isDigit then readPort url (digits ++ [c]) rest
    else if endsAuthority url.isSpecial c then (url.withPort digits).map (readPathStart · (c :: rest))
    else none

section
variable (idna : Idna)

/-- `bracket` is set between `[` and `]`, where a colon does not start the port. -/
def readHost (url : Url) (buffer : List Char) (bracket : Bool) : List Char → Option Url
  | [] =>
    if url.isSpecial ∧ buffer = [] then none
    else (parseHost idna url.isSpecial buffer).map fun host =>
      readPathStart { url with host := some host } []
  | c :: rest =>
    if c = ':' ∧ bracket = false then
      if buffer = [] then none
      else (parseHost idna url.isSpecial buffer).bind fun host =>
        readPort { url with host := some host } [] rest
    else if endsAuthority url.isSpecial c then
      if url.isSpecial ∧ buffer = [] then none
      else (parseHost idna url.isSpecial buffer).map fun host =>
        readPathStart { url with host := some host } (c :: rest)
    else
      readHost url (buffer ++ [c]) (if c = '[' then true else if c = ']' then false else bracket) rest

/-- The text in front of an `@` goes to the user name and, from the first colon on, the password. -/
def addUserinfo (url : Url) (password : Bool) : List Char → Url × Bool
  | [] => (url, password)
  | c :: rest =>
    if c = ':' ∧ password = false then addUserinfo url true rest
    else if password then
      addUserinfo { url with password := url.password ++ percentEncode userinfoSet c } true rest
    else addUserinfo { url with username := url.username ++ percentEncode userinfoSet c } false rest

/-- `start` is where the host begins if no further `@` follows. -/
def readAuthority (url : Url) (start buffer : List Char) (atSign password : Bool) :
    List Char → Option Url
  | [] => if atSign ∧ buffer = [] then none else readHost idna url [] false start
  | c :: rest =>
    if c = '@' then
      let (url, password) := addUserinfo url password (if atSign then "%40".toList ++ buffer else buffer)
      readAuthority url rest [] true password rest
    else if endsAuthority url.isSpecial c then
      if atSign ∧ buffer = [] then none else readHost idna url [] false start
    else readAuthority url start (buffer ++ [c]) atSign password rest

def authority (url : Url) (s : List Char) : Option Url := readAuthority idna url s [] false false s

/-- Any number of slashes and backslashes in front of the authority of a special URL. -/
def ignoreSlashes (url : Url) : List Char → Option Url
  | [] => authority idna url []
  | c :: rest =>
    if c = '/' ∨ c = '\\' then ignoreSlashes url rest else authority idna url (c :: rest)

/-! ## Relative URLs -/

def readRelativeSlash (base url : Url) (s : List Char) : Option Url :=
  let inherited := { url with
    username := base.username, password := base.password, host := base.host, port := base.port }
  match s with
  | [] => some (readPath inherited [] [])
  | c :: rest =>
    if url.isSpecial ∧ (c = '/' ∨ c = '\\') then ignoreSlashes idna url rest
    else if c = '/' then authority idna url rest
    else some (readPath inherited [] (c :: rest))

def readRelative (base : Url) (s : List Char) : Option Url :=
  let url : Url := { scheme := base.scheme }
  let inherited := { base with fragment := none }
  match s with
  | [] => some inherited
  | c :: rest =>
    if c = '/' ∨ (url.isSpecial ∧ c = '\\') then readRelativeSlash idna base url rest
    else if c = '?' then some (readQuery inherited rest)
    else if c = '#' then some (readFragment inherited rest)
    else some (readPath
      ({ inherited with query := none }.mapSegments (shorten base.scheme)) [] (c :: rest))

/-! ## Files -/

def readFileHost (url : Url) (buffer : List Char) : List Char → Option Url
  | [] => finish []
  | c :: rest =>
    if endsAuthority true c then finish (c :: rest) else readFileHost url (buffer ++ [c]) rest
where
  finish (s : List Char) : Option Url :=
    if isWindowsDriveLetter buffer then some (readPath url buffer s)
    else if buffer = [] then some (readPathStart { url with host := some .empty } s)
    else (parseHost idna true buffer).map fun host =>
      let host := if host = .domain "localhost".toList then .empty else host
      readPathStart { url with host := some host } s

def readFileSlash (base : Option Url) (url : Url) (s : List Char) : Option Url :=
  match s with
  | '/' :: rest | '\\' :: rest => readFileHost idna url [] rest
  | s =>
    match base.filter fun b => isFile b.scheme with
    | none => some (readPath url [] s)
    | some b =>
      let url := { url with host := b.host }
      match b.path with
      | .segments (drive :: _) =>
        if !startsWithWindowsDriveLetter s && isNormalizedWindowsDriveLetter drive then
          some (readPath (url.mapSegments (· ++ [drive])) [] s)
        else some (readPath url [] s)
      | _ => some (readPath url [] s)

def readFile (base : Option Url) (s : List Char) : Option Url :=
  let url : Url := { scheme := "file".toList, host := some .empty }
  match s with
  | '/' :: rest | '\\' :: rest => readFileSlash idna base url rest
  | s =>
    match base.filter fun b => isFile b.scheme with
    | none => some (readPath url [] s)
    | some b =>
      let inherited := { url with host := b.host, path := b.path, query := b.query }
      match s with
      | [] => some inherited
      | '?' :: rest => some (readQuery inherited rest)
      | '#' :: rest => some (readFragment inherited rest)
      | s =>
        let url := { inherited with query := none }
        if startsWithWindowsDriveLetter s then some (readPath { url with path := .segments [] } [] s)
        else some (readPath (url.mapSegments (shorten url.scheme)) [] s)

/-! ## The scheme -/

def noScheme (base : Option Url) (s : List Char) : Option Url :=
  base.bind fun b =>
    match b.path, s with
    | .rootless _, '#' :: rest => some (readFragment { b with fragment := none } rest)
    | .rootless _, _ => none
    | .segments _, s => if isFile b.scheme then readFile idna base s else readRelative idna b s

/-- What follows the colon of the scheme. -/
def afterScheme (base : Option Url) (scheme : List Char) (s : List Char) : Option Url :=
  let url : Url := { scheme }
  if isFile scheme then readFile idna base s
  else if isSpecialScheme scheme then
    match base.filter fun b => b.scheme = scheme, s with
    | some _, '/' :: '/' :: rest => ignoreSlashes idna url rest
    | some b, s => readRelative idna b s
    | none, '/' :: '/' :: rest => ignoreSlashes idna url rest
    | none, s => ignoreSlashes idna url s
  else
    match s with
    | '/' :: '/' :: rest => authority idna url rest
    | '/' :: rest => some (readPath url [] rest)
    | s => some (readRootless url [] s)

def isSchemeChar (c : Char) : Bool := c.isAlphanum || c = '+' || c = '-' || c = '.'

/-- `whole` is the input, to which the parser returns when it finds no scheme. -/
def readScheme (base : Option Url) (whole buffer : List Char) : List Char → Option Url
  | [] => noScheme idna base whole
  | c :: rest =>
    if isSchemeChar c then readScheme base whole (buffer ++ [c.toLower]) rest
    else if c = ':' then afterScheme idna base buffer rest
    else noScheme idna base whole

def isStripped (c : Char) : Bool := c.toNat ≤ 0x20

def isTabOrNewline (c : Char) : Bool := c = '\t' || c = '\n' || c = '\r'

/-- Without C0 controls and spaces around the input, and without tabs and newlines in it. -/
def significant (s : List Char) : List Char :=
  ((s.dropWhile isStripped).reverse.dropWhile isStripped).reverse.filter fun c => !isTabOrNewline c

def parse (base : Option Url) (input : List Char) : Option Url :=
  let s := significant input
  match s with
  | [] => noScheme idna base s
  | c :: rest => if c.isAlpha then readScheme idna base s [c.toLower] rest else noScheme idna base s

end

/-! ## Origins -/

def serializePath : Path → List Char
  | .segments names => names.flatMap fun name => '/' :: name
  | .rootless text => text

/-- Scheme, host and port; none for an opaque origin. -/
structure Origin where
  scheme : List Char
  host : Host
  port : Option Nat
deriving DecidableEq

def tupleOrigin (url : Url) : Option Origin :=
  if url.isSpecial && !isFile url.scheme then url.host.map fun host => ⟨url.scheme, host, url.port⟩
  else none

/-- A `blob` URL has the origin of the URL in its path, if that is one of the web. -/
def origin (idna : Idna) (url : Url) : Option Origin :=
  if url.scheme = "blob".toList then
    (parse idna none (serializePath url.path)).bind fun inner =>
      if inner.scheme = "http".toList ∨ inner.scheme = "https".toList then inner.tupleOrigin else none
  else url.tupleOrigin

def serializeHostPort (host : Host) (port : Option Nat) : List Char :=
  host.serialize ++ match port with
    | some n => ':' :: showNat n
    | none => []

def serializeOrigin : Option Origin → List Char
  | some o => o.scheme ++ "://".toList ++ serializeHostPort o.host o.port
  | none => "null".toList

end Url

end Lib
