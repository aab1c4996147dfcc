import VaultServer.Lib.Split

/-!
# Pinned actions

`validate-workflow-security.py` looks at the lines of a workflow file, one by one; GitHub reads the
file as YAML. What GitHub reads is a parameter here, so that every layout it accepts is covered: a
file is given with the `uses` keys that were read from it. The report says nothing about a key that
is not alone on its line, and takes for the inputs of a checkout whatever stands below it.
-/

namespace VaultServer.Deploy

open Lib List

/-! ## The validator -/

abbrev Line := List Char

/-- The places where `str.splitlines` ends a line. -/
def isLineBreak (c : Char) : Bool :=
  let n := c.toNat
  (0xa ≤ n && n ≤ 0xd) || (0x1c ≤ n && n ≤ 0x1e) || n = 0x85 || n = 0x2028 || n = 0x2029

/-- `str.splitlines`, with what was read of the line so far. -/
def splitlines (line : Line) : List Char → List Line
  | [] => if line.isEmpty then [] else [line.reverse]
  | '\r' :: '\n' :: cs => line.reverse :: splitlines [] cs
  | c :: cs => if isLineBreak c then line.reverse :: splitlines [] cs else splitlines (c :: line) cs

/-- What follows the text at the start of the line. -/
def after? (text : String) (line : Line) : Option Line :=
  if text.toList.isPrefixOf line then some (line.drop text.length) else none

/-- Nothing is left but blanks and a comment. -/
def endsLine (rest : Line) : Bool :=
  match rest.dropWhile isSpace with
  | [] => true
  | c :: _ => c = '#'

/-- `USES_RE`: the value of a key `uses` that is alone on its line. -/
def usesValue (line : Line) : Option (List Char) := do
  let rest ← after? "uses:" (line.dropWhile isSpace)
  let value := (rest.dropWhile isSpace).takeWhile fun c => !isSpace c && c ≠ '#'
  let tail := (rest.dropWhile isSpace).dropWhile fun c => !isSpace c && c ≠ '#'
  if value ≠ [] ∧ endsLine tail then some value else none

/-- `TOP_LEVEL_PERMISSIONS_RE`. -/
def isTopLevelPermissions (line : Line) : Bool :=
  match after? "permissions:" line with
  | none => false
  | some rest =>
    let rest := rest.dropWhile isSpace
    endsLine rest || ["\x7b\x7d", "read-all", "write-all"].any fun v => (after? v rest).any endsLine

def leadingSpaces (line : Line) : Nat := (line.takeWhile (· = ' ')).length

def stripLine (line : Line) : Line := trimBy isSpace line

/-- The lines below up to the next list item that is not further in. -/
def checkoutBlock (lines : List Line) (index : Nat) : List Line :=
  (lines.drop (index + 1)).takeWhile fun candidate =>
    !((stripLine candidate).head? = some '-' &&
      leadingSpaces candidate ≤ leadingSpaces (lines.getD index []))

def externalActionRef (usesValue : List Char) : Option (List Char × List Char) :=
  if (after? "./" usesValue).isSome || (after? "docker://" usesValue).isSome then none
  else some ((rsplitOnce '@' usesValue).getD (usesValue, []))

def isLowerHex (c : Char) : Bool := c.isDigit || ('a' ≤ c && c ≤ 'f')

/-- `FULL_SHA_RE`. -/
def isFullSha (ref : List Char) : Bool := ref.length = 40 && ref.all isLowerHex

def forbidsCredentials (block : List Line) : Bool :=
  block.any fun candidate => stripLine candidate = "persist-credentials: false".toList

/-- What is reported of one line. -/
def lineErrors (lines : List Line) (line : Line) (index : Nat) : List String :=
  match usesValue line with
  | none => []
  | some value =>
    (match externalActionRef value with
      | some (action, ref) =>
        if isFullSha ref then [] else
          ["line " ++ toString (index + 1) ++ ": external action " ++ String.ofList action ++
            " must be pinned to a full 40-character commit SHA"]
      | none => []) ++
    match after? "actions/checkout@" value with
    | some ref =>
      if isFullSha ref && !forbidsCredentials (checkoutBlock lines index) then
        ["line " ++ toString (index + 1) ++ ": checkout must set persist-credentials: false"]
      else []
    | none => []

def isCheckoutLine (line : Line) : Bool :=
  (usesValue line).any fun value => (after? "actions/checkout@" value).isSome

def validateWorkflow (text : String) : List String :=
  let lines := splitlines [] text.toList
  (if lines.any isTopLevelPermissions then []
    else ["missing explicit top-level permissions boundary"]) ++
  (lines.zipIdx.flatMap fun (line, index) => lineErrors lines line index) ++
  if lines.any isCheckoutLine then []
  else ["workflow has no actions/checkout step to validate"]

/-! ## What GitHub reads -/

/-- A key `uses` of a job or a step, with the inputs under its `with`. -/
structure UsesKey where
  value : String
  inputs : List (String × String)
deriving DecidableEq

namespace UsesKey

def isRepositoryAction (key : UsesKey) : Prop :=
  ¬ "./".toList <+: key.value.toList ∧ ¬ "docker://".toList <+: key.value.toList

def isHexDigit (c : Char) : Prop := isLowerHex c = true ∨ ('A' ≤ c ∧ c ≤ 'F')

def isPinned (key : UsesKey) : Prop :=
  ∃ action ref, key.value.toList = action ++ '@' :: ref ∧ ref.length = 40 ∧ ∀ c ∈ ref, isHexDigit c

def isCheckout (key : UsesKey) : Prop :=
  ∃ ref, key.value.toList = "actions/checkout@".toList ++ ref ∧ '@' ∉ ref

def dropsCredentials (key : UsesKey) : Prop := ("persist-credentials", "false") ∈ key.inputs

end UsesKey

/-- Every action of a repository is pinned, and every checkout drops its credentials. -/
def Secured (keys : List UsesKey) : Prop :=
  ∀ key ∈ keys, (key.isRepositoryAction → key.isPinned) ∧ (key.isCheckout → key.dropsCredentials)

/-- Every action that is not pinned has its key on a line of its own, and so has every checkout that
keeps its credentials, with no line that seems to drop them between it and the next list item. -/
def InPlainSight (text : String) (keys : List UsesKey) : Prop :=
  let lines := splitlines [] text.toList
  ∀ key ∈ keys,
    (key.isRepositoryAction → ¬ key.isPinned →
      ∃ line ∈ lines, usesValue line = some key.value.toList) ∧
    (key.isCheckout → ¬ key.dropsCredentials →
      ∃ line index, (line, index) ∈ lines.zipIdx ∧ usesValue line = some key.value.toList ∧
        ∀ candidate ∈ checkoutBlock lines index,
          stripLine candidate ≠ "persist-credentials: false".toList)

/-! ## What a clean report means -/

theorem after?_eq_some {text line rest} :
    after? text line = some rest ↔ line = text.toList ++ rest := by
  unfold after?
  constructor
  · intro h
    split at h
    · next hpre =>
      obtain ⟨tail, rfl⟩ := isPrefixOf_iff_prefix.mp hpre
      rw [← Option.some.inj h, ← String.length_toList, drop_left]
    · cases h
  · rintro rfl
    have hpre : text.toList.isPrefixOf (text.toList ++ rest) = true :=
      isPrefixOf_iff_prefix.mpr (prefix_append _ _)
    rw [if_pos hpre, ← String.length_toList, drop_left]

theorem isSome_after? {text line} : (after? text line).isSome = true ↔ text.toList <+: line := by
  rw [Option.isSome_iff_exists]
  constructor
  · rintro ⟨rest, h⟩
    exact ⟨rest, (after?_eq_some.mp h).symm⟩
  · rintro ⟨rest, h⟩
    exact ⟨rest, after?_eq_some.mpr h.symm⟩

section
variable {lines : List Line} {line : Line} {index : Nat} {key : UsesKey}

theorem lineErrors_of_clean (h : validateWorkflow text = [])
    (hmem : (line, index) ∈ (splitlines [] text.toList).zipIdx) :
    lineErrors (splitlines [] text.toList) line index = [] := by
  have hlines := (append_eq_nil_iff.mp (append_eq_nil_iff.mp h).1).2
  exact flatMap_eq_nil_iff.mp hlines (line, index) hmem

variable (h : lineErrors lines line index = [])
  (hline : usesValue line = some key.value.toList)
include h hline

/-- A line that is not reported shows a commit id. -/
theorem fullSha_of_lineErrors (hkey : key.isRepositoryAction) :
    ∃ action ref, rsplitOnce '@' key.value.toList = some (action, ref) ∧ isFullSha ref = true := by
  have hnot : ¬ ((after? "./" key.value.toList).isSome ||
      (after? "docker://" key.value.toList).isSome) = true := by
    rw [Bool.or_eq_true, isSome_after?, isSome_after?, not_or]
    exact hkey
  unfold lineErrors at h
  rw [hline] at h
  have hfirst := (append_eq_nil_iff.mp h).1
  rw [externalActionRef, if_neg hnot] at hfirst
  cases hsplit : rsplitOnce '@' key.value.toList with
  | none =>
    rw [hsplit] at hfirst
    cases hfirst
  | some p =>
    rw [hsplit] at hfirst
    refine ⟨p.1, p.2, rfl, ?_⟩
    by_cases hsha : isFullSha p.2 = true
    · exact hsha
    · simp [hsha] at hfirst

theorem isPinned_of_lineErrors (hkey : key.isRepositoryAction) : key.isPinned := by
  obtain ⟨action, ref, hsplit, hsha⟩ := fullSha_of_lineErrors h hline hkey
  simp only [isFullSha, Bool.and_eq_true, decide_eq_true_eq, all_eq_true] at hsha
  exact ⟨action, ref, (rsplitOnce_eq_some hsplit).1, hsha.1, fun c hc => .inl (hsha.2 c hc)⟩

/-- A checkout that is not reported has a line below it that seems to drop the credentials. -/
theorem forbidsCredentials_of_lineErrors (hkey : key.isCheckout) :
    ∃ candidate ∈ checkoutBlock lines index,
      stripLine candidate = "persist-credentials: false".toList := by
  obtain ⟨ref, hvalue, hat⟩ := hkey
  have hrepo : key.isRepositoryAction := by
    unfold UsesKey.isRepositoryAction
    rw [hvalue]
    constructor <;> (rintro ⟨tail, htail⟩; cases htail)
  obtain ⟨action, ref', hsplit, hsha⟩ := fullSha_of_lineErrors h hline hrepo
  have href : rsplitOnce '@' key.value.toList = some ("actions/checkout".toList, ref) := by
    have hname : "actions/checkout@".toList = "actions/checkout".toList ++ ['@'] := by decide
    rw [hvalue, hname, append_assoc]
    exact rsplitOnce_append hat
  rw [hsplit] at href
  obtain ⟨-, rfl⟩ := Prod.mk.inj (Option.some.inj href)
  unfold lineErrors at h
  rw [hline] at h
  have hsecond := (append_eq_nil_iff.mp h).2
  rw [after?_eq_some.mpr hvalue] at hsecond
  dsimp only at hsecond
  split at hsecond
  · cases hsecond
  · next hforbids =>
    rw [hsha, Bool.true_and, Bool.not_eq_true, Bool.not_eq_false'] at hforbids
    obtain ⟨candidate, hmem, heq⟩ := any_eq_true.mp hforbids
    exact ⟨candidate, hmem, of_decide_eq_true heq⟩

end

/-- **A clean report, as far as it goes.**  Whatever keys GitHub reads from the file, a workflow
without reported errors is secured if and only if every key that is not stands in plain sight. -/
theorem cleanReport_secured_iff {text : String} (keys : List UsesKey)
    (hclean : validateWorkflow text = []) : Secured keys ↔ InPlainSight text keys := by
  constructor
  · intro h key hkey
    exact ⟨fun hrepo hnot => absurd ((h key hkey).1 hrepo) hnot,
      fun hcheckout hnot => absurd ((h key hkey).2 hcheckout) hnot⟩
  · intro h key hkey
    constructor
    · intro hrepo
      by_cases hpinned : key.isPinned
      · exact hpinned
      · obtain ⟨line, hmem, hline⟩ := (h key hkey).1 hrepo hpinned
        obtain ⟨index, hindex⟩ := mem_iff_getElem?.mp hmem
        have hindex : (line, index) ∈ (splitlines [] text.toList).zipIdx :=
          mem_zipIdx_iff_getElem?.mpr hindex
        exact isPinned_of_lineErrors (lineErrors_of_clean hclean hindex) hline hrepo
    · intro hcheckout
      by_cases hdrops : key.dropsCredentials
      · exact hdrops
      · obtain ⟨line, index, hindex, hline, hnone⟩ := (h key hkey).2 hcheckout hdrops
        obtain ⟨candidate, hmem, heq⟩ :=
          forbidsCredentials_of_lineErrors (lineErrors_of_clean hclean hindex) hline hcheckout
        exact absurd heq (hnone candidate hmem)

def sampleCommit : String := "0123456789abcdef0123456789abcdef01234567"

/-- A workflow with a checkout, and perhaps another step. -/
def sampleWorkflow (steps : String) : String :=
  "on: push\npermissions: \x7b\x7d\njobs:\n  build:\n    runs-on: ubuntu-latest\n    steps:\n" ++
  "      - name: Checkout\n        uses: actions/checkout@" ++ sampleCommit ++
  "\n        with:\n          persist-credentials: false\n" ++ steps

def sampleCheckout : UsesKey :=
  ⟨"actions/checkout@" ++ sampleCommit, [("persist-credentials", "false")]⟩

theorem cleanReport_secured_iff_sample :
    validateWorkflow (sampleWorkflow "") = [] ∧ Secured [sampleCheckout] := by
  have hclean : validateWorkflow (sampleWorkflow "") = [] := by decide +kernel
  refine ⟨hclean, (cleanReport_secured_iff [sampleCheckout] hclean).mpr ?_⟩
  intro key hkey
  rw [mem_singleton.mp hkey]
  constructor
  · intro _ _
    exact ⟨"        uses: actions/checkout@".toList ++ sampleCommit.toList, by decide +kernel,
      by decide +kernel⟩
  · intro _ hkeeps
    exact absurd (by simp [UsesKey.dropsCredentials, sampleCheckout]) hkeeps

/-- A step in the form of a list item is not looked at: its action may be on any branch. -/
theorem listItem_isNotReported :
    validateWorkflow (sampleWorkflow "      - uses: owner/tool@main\n") = [] ∧
    ¬ Secured [sampleCheckout, ⟨"owner/tool@main", []⟩] := by
  refine ⟨by decide +kernel, fun h => ?_⟩
  have hrepo : (⟨"owner/tool@main", []⟩ : UsesKey).isRepositoryAction := by
    constructor <;> decide
  obtain ⟨action, ref, hvalue, hlength, -⟩ := (h _ (by simp)).1 hrepo
  have htotal : 15 = (action ++ '@' :: ref).length := by
    rw [← hvalue]
    decide
  rw [length_append, length_cons, hlength] at htotal
  omega

end VaultServer.Deploy
