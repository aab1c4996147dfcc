import VaultServer.Lib.Url.Parse

/-!
# Which authority a URL names

What the parser makes of the text behind the slashes, said without its states: up to the next
separator, without user information, split at the first colon outside brackets. Everything the
parser reads after the authority leaves scheme, host and port alone.
-/

namespace Lib.Url

open List Option

/-! ## What the later states leave alone -/

/-- Scheme, host and port. -/
def place (url : Url) : List Char × Option Host × Option Nat := (url.scheme, url.host, url.port)

section
variable {url : Url}

@[simp] theorem place_mapSegments : (url.mapSegments f).place = url.place := by
  unfold mapSegments
  split <;> rfl

@[simp] theorem place_endSegment :
    (url.endSegment slash buffer).place = url.place := place_mapSegments

@[simp] theorem place_readFragment : (readFragment url s).place = url.place := rfl

@[simp] theorem place_readQuery : (readQuery url s).place = url.place := by
  unfold readQuery
  split <;> rfl

@[simp] theorem place_readPath : (readPath url buffer s).place = url.place := by
  induction s generalizing url buffer with
  | nil => simp [readPath]
  | cons c rest ih =>
    simp only [readPath]
    split
    · simp [ih]
    split
    · simp
    split
    · simp
    · exact ih

@[simp] theorem place_readPathStart : (readPathStart url s).place = url.place := by
  cases s with
  | nil =>
    simp only [readPathStart]
    split <;> simp
  | cons =>
    simp only [readPathStart]
    split
    · simp
    split
    · simp
    split <;> simp

end

/-! ## The text of an authority -/

def authorityText (s : List Char) : List Char := s.takeWhile fun c => !endsAuthority true c

/-- The text behind the last `@` of the authority, and everything after it. -/
def afterUserinfo (start : List Char) : List Char → List Char
  | [] => start
  | c :: rest =>
    if c = '@' then afterUserinfo rest rest
    else if endsAuthority true c then start
    else afterUserinfo start rest

/-- Host and port text, apart at the first colon outside brackets. -/
def splitPort (bracket : Bool) : List Char → List Char × Option (List Char)
  | [] => ([], none)
  | c :: rest =>
    if c = ':' ∧ bracket = false then ([], some rest)
    else
      let (host, port) :=
        splitPort (if c = '[' then true else if c = ']' then false else bracket) rest
      (c :: host, port)

def portOf (scheme : List Char) (text : List Char) : Option (Option Nat) :=
  if text.all Char.isDigit then
    (withPort { scheme } text).map fun url => url.port
  else none

/-- The host and port that the text behind the slashes of a special URL names. -/
def namedAuthority (idna : Idna) (scheme s : List Char) : Option (Host × Option Nat) :=
  let (host, port) := splitPort false (authorityText (afterUserinfo s s))
  (parseHost idna true host).bind fun h => (portOf scheme (port.getD [])).map fun p => (h, p)

/-! ## The parser reads it so -/

section
variable {idna : Idna} {url : Url}

theorem withPort_place (hport : url.port = none) : (url.withPort digits).map place =
      (withPort { scheme := url.scheme } digits).map fun u => (url.scheme, url.host, u.port) := by
  unfold withPort
  split
  · simp [place, hport]
  · cases ofDigits 10 digits with
    | none => rfl
    | some =>
      simp only [bind_some]
      split <;> simp [place]

/-- The path that follows the port leaves it alone. -/
theorem withPort_readPathStart (hport : url.port = none) (hd : digits.all Char.isDigit = true) :
    ((url.withPort digits).map (readPathStart · s)).map place =
      (portOf url.scheme digits).map fun p => (url.scheme, url.host, p) := by
  have hcomp : place ∘ (readPathStart · s) = place := funext fun u => place_readPathStart
  rw [Option.map_map, hcomp, withPort_place hport, portOf, if_pos hd, Option.map_map]
  rfl

theorem endsAuthority_of_isDigit (h : c.isDigit = true) : endsAuthority sp c = false := by
  by_contra hne
  have hc : c = '/' ∨ c = '?' ∨ c = '#' ∨ c = '\\' := by
    simp only [endsAuthority, Bool.not_eq_false, Bool.or_eq_true, decide_eq_true_eq,
      Bool.and_eq_true] at hne
    tauto
  rcases hc with rfl | rfl | rfl | rfl <;> simp at h

theorem readPort_place (hsp : url.isSpecial = true) (hport : url.port = none)
    (hd : digits.all Char.isDigit = true) : (readPort url digits s).map place =
      (portOf url.scheme (digits ++ authorityText s)).map fun p => (url.scheme, url.host, p) := by
  induction s generalizing digits with
  | nil =>
    simp only [readPort, authorityText, takeWhile_nil, append_nil]
    exact withPort_readPathStart hport hd
  | cons c rest ih =>
    simp only [readPort, authorityText, takeWhile_cons]
    by_cases hc : c.isDigit = true
    · rw [if_pos hc, endsAuthority_of_isDigit hc, ih (by simp [hd, hc])]
      simp [authorityText]
    rw [if_neg hc, hsp]
    by_cases he : endsAuthority true c = true
    · simp only [he, if_true, Bool.not_true, Bool.false_eq_true, if_false, append_nil]
      exact withPort_readPathStart hport hd
    · simp [he, portOf, hc]

theorem parseHost_nil : parseHost idna true [] = none := by
  have hnil : idna.toAscii (percentDecode (utf8Encode [])) = some [] :=
    idna.ascii [] rfl (by decide)
  simp [parseHost, hnil]

theorem portOf_nil {scheme} : portOf scheme [] = some none := rfl

/-- The end of a host without a port. -/
theorem hostEnd_place (hsp : url.isSpecial = true) (hport : url.port = none) :
    (if url.isSpecial ∧ buffer = [] then none
      else (parseHost idna url.isSpecial buffer).map fun host =>
        readPathStart { url with host := some host } s).map place =
      (parseHost idna true buffer).map fun h => (url.scheme, some h, none) := by
  by_cases hb : buffer = []
  · simp [hsp, hb, parseHost_nil]
  · simp only [hsp, hb, and_false, if_false, Option.map_map]
    congr 1
    funext h
    show (readPathStart { url with host := some h } s).place = _
    rw [place_readPathStart, place, hport]

theorem readHost_place (hsp : url.isSpecial = true) (hport : url.port = none) {buffer bracket s} :
    (readHost idna url buffer bracket s).map place =
      (parseHost idna true (buffer ++ (splitPort bracket (authorityText s)).1)).bind fun h =>
        (portOf url.scheme ((splitPort bracket (authorityText s)).2.getD [])).map fun p =>
          (url.scheme, some h, p) := by
  induction s generalizing buffer bracket with
  | nil =>
    rw [readHost, hostEnd_place hsp hport]
    simp [authorityText, splitPort, portOf_nil, map_eq_bind]
  | cons c rest ih =>
    rw [readHost]
    by_cases hcolon : c = ':' ∧ bracket = false
    · obtain ⟨rfl, rfl⟩ := hcolon
      -- the colon is no separator, so the port starts behind it
      have htext : authorityText (':' :: rest) = ':' :: authorityText rest := rfl
      simp only [and_self, if_true, htext, splitPort, append_nil, getD_some]
      by_cases hb : buffer = []
      · simp [hb, parseHost_nil]
      · rw [if_neg hb, map_bind, hsp]
        refine bind_congr fun h _ => ?_
        have hsp' : Url.isSpecial { url with host := some h } = true := hsp
        exact readPort_place hsp' hport rfl
    rw [if_neg hcolon]
    by_cases he : endsAuthority url.isSpecial c = true
    · have htext : authorityText (c :: rest) = [] := by simp [authorityText, hsp ▸ he]
      rw [if_pos he, hostEnd_place hsp hport, htext]
      simp [splitPort, portOf_nil, map_eq_bind]
    · have htext : authorityText (c :: rest) = c :: authorityText rest := by
        rw [hsp] at he
        simp [authorityText, he]
      rw [if_neg he, ih, htext, splitPort, if_neg hcolon]
      simp

/-- User information changes neither scheme nor host nor port. -/
theorem addUserinfo_place {password s} : (addUserinfo url password s).1.place = url.place := by
  induction s generalizing url password with
  | nil => rfl
  | cons c rest ih =>
    simp only [addUserinfo]
    split
    · exact ih
    split
    · exact ih
    · exact ih

/-- An empty host fails, with or without user information in front of it. -/
theorem readHost_empty (hsp : url.isSpecial = true)
    (hs : ∀ c ∈ s.head?, endsAuthority true c = true) : readHost idna url [] false s = none := by
  cases s with
  | nil => simp [readHost, hsp]
  | cons c =>
    have he := hs c rfl
    have hcolon : c ≠ ':' := by
      rintro rfl
      exact absurd he (by decide)
    simp [readHost, hsp, he, hcolon]

theorem readAuthority_place (hsp : url.isSpecial = true) (hport : url.port = none)
    {start buffer s atSign password} (hstart : start = buffer ++ s) :
    (readAuthority idna url start buffer atSign password s).map place =
      (readHost idna url [] false (afterUserinfo start s)).map place := by
  induction s generalizing url start buffer atSign password with
  | nil =>
    rw [readAuthority, afterUserinfo]
    by_cases hempty : atSign = true ∧ buffer = []
    · rw [if_pos hempty, hstart, hempty.2, readHost_empty hsp (by simp)]
    · rw [if_neg hempty]
  | cons c rest ih =>
    rw [readAuthority, afterUserinfo]
    by_cases hat : c = '@'
    · rw [if_pos hat, if_pos hat]
      have hplace : (addUserinfo url password
          (if atSign then "%40".toList ++ buffer else buffer)).1.place = url.place :=
        addUserinfo_place
      generalize addUserinfo url password _ = r at hplace ⊢
      obtain ⟨url', password'⟩ := r
      simp only [place, Prod.mk.injEq] at hplace
      obtain ⟨hscheme, -, hport'⟩ := hplace
      have hsp' : url'.isSpecial = true := by rw [isSpecial, hscheme]; exact hsp
      rw [hport] at hport'
      show (readAuthority idna url' rest [] true password' rest).map place = _
      rw [ih hsp' hport' (nil_append rest).symm, readHost_place hsp' hport',
        readHost_place hsp hport, hscheme]
    rw [if_neg hat, if_neg hat, hsp]
    by_cases he : endsAuthority true c = true
    · rw [if_pos he, if_pos he]
      by_cases hempty : atSign = true ∧ buffer = []
      · rw [if_pos hempty, hstart, hempty.2, readHost_empty hsp (by simpa using he)]
      · rw [if_neg hempty]
    · rw [if_neg he, if_neg he]
      exact ih hsp hport (by rw [hstart, append_assoc]; rfl)

/-- **What the parser reads behind the slashes is the authority the text names.** -/
theorem authority_place (hsp : url.isSpecial = true) (hport : url.port = none) :
    (authority idna url s).map place =
      (namedAuthority idna url.scheme s).map fun a => (url.scheme, some a.1, a.2) := by
  rw [authority, readAuthority_place hsp hport (nil_append s).symm, readHost_place hsp hport,
    namedAuthority]
  simp only [List.nil_append, Option.map_bind, Function.comp_def, Option.map_map]

theorem ignoreSlashes_eq : ignoreSlashes idna url s =
    authority idna url (s.dropWhile fun c => c = '/' ∨ c = '\\') := by
  induction s with
  | nil => rfl
  | cons c rest ih =>
    rw [ignoreSlashes]
    by_cases hc : c = '/' ∨ c = '\\'
    · rw [if_pos hc, ih, dropWhile_cons_of_pos (by simpa using hc)]
    · rw [if_neg hc, dropWhile_cons_of_neg (by simpa using hc)]

end

/-! ## Paths from the root -/

/-- A second slash or backslash behind the first one starts an authority. -/
def startsAuthority (s : List Char) : Bool := s.head?.any fun c => c = '/' ∨ c = '\\'

/-- A first character that is not stripped stays the first one. -/
theorem significant_cons (hc : isStripped c = false) (s : List Char) :
    ∃ rest, significant (c :: s) = c :: rest := by
  have htab : isTabOrNewline c = false := by
    by_contra h
    have hcases : c = '\t' ∨ c = '\n' ∨ c = '\r' := by
      simp only [isTabOrNewline, Bool.not_eq_false, Bool.or_eq_true, decide_eq_true_eq] at h
      tauto
    rcases hcases with rfl | rfl | rfl <;> exact absurd hc (by decide)
  -- what is dropped at the end is behind the first character
  have hend : ∀ l : List Char, ∃ l', (l ++ [c]).dropWhile isStripped = l' ++ [c] := by
    intro l
    induction l with
    | nil => exact ⟨[], by simp [hc]⟩
    | cons x l ih =>
      by_cases hx : isStripped x = true
      · simpa [hx] using ih
      · exact ⟨x :: l, by simp [hx]⟩
  obtain ⟨l', hl'⟩ := hend s.reverse
  refine ⟨l'.reverse.filter fun c => !isTabOrNewline c, ?_⟩
  simp [significant, hc, hl', htab]

theorem origin_eq {idna} {url : Url} {host} (hsp : url.isSpecial = true)
    (hfile : isFile url.scheme = false) (hhost : url.host = some host) :
    url.origin idna = some ⟨url.scheme, host, url.port⟩ := by
  have hblob : url.scheme ≠ "blob".toList := by
    intro h
    rw [isSpecial, h] at hsp
    exact absurd hsp (by decide)
  rw [origin, if_neg hblob, tupleOrigin, hsp, hfile, hhost]
  rfl

section
variable {idna : Idna} {base : Url} {input rest : List Char}
  (hfile : isFile base.scheme = false) (hpath : base.path = .segments names)
  (hin : significant input = '/' :: rest)
include hfile hpath hin

theorem parse_rooted :
    parse idna (some base) input = readRelativeSlash idna base { scheme := base.scheme } rest := by
  simp only [parse, hin]
  rw [if_neg (by decide), noScheme, bind_some, hpath]
  simp [hfile, readRelative]

/-- **A path from the root that starts no authority stays where the base is.** -/
theorem parse_rooted_place (hrest : startsAuthority rest = false) :
    (parse idna (some base) input).map place = some base.place := by
  rw [parse_rooted hfile hpath hin]
  cases rest with
  | nil =>
    rw [readRelativeSlash, map_some, place_readPath]
    rfl
  | cons c =>
    have hc : ¬ (c = '/' ∨ c = '\\') := by simpa [startsAuthority] using hrest
    rw [readRelativeSlash, if_neg fun h => hc h.2, if_neg fun h => hc (.inl h), map_some,
      place_readPath]
    rfl

/-- **One that starts an authority goes where that says.** -/
theorem parse_authority_place (hsp : base.isSpecial = true) (hrest : startsAuthority rest = true) :
    (parse idna (some base) input).map place =
      (namedAuthority idna base.scheme (rest.dropWhile fun c => c = '/' ∨ c = '\\')).map fun a =>
        (base.scheme, some a.1, a.2) := by
  rw [parse_rooted hfile hpath hin]
  cases rest with
  | nil => cases hrest
  | cons c =>
    have hc : c = '/' ∨ c = '\\' := by simpa [startsAuthority] using hrest
    have hsp' : Url.isSpecial { scheme := base.scheme } = true := hsp
    rw [readRelativeSlash, if_pos ⟨hsp', hc⟩, ignoreSlashes_eq, authority_place hsp' rfl,
      dropWhile_cons_of_pos (by simpa using hc)]

end

end Lib.Url
