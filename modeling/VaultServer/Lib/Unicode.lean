import Mathlib

/-!
# Lower case

`str::to_lowercase` of Rust with the data of version 17 of Unicode; `str.lower` of Python is the same
function. Every letter has a lower case of its own, but for the capital sigma, which has another
one at the end of a word.
-/

namespace Lib

open List

/-! ## The data -/

/-- The letters from `128` on that have a lower case of one letter, but for the first and the last of
a run and the lower case of the first. Where that is the next letter, capitals and small letters
take turns. -/
def lowerRuns : List (Nat × Nat × Nat) :=
  [(192,214,224),(216,222,248),(256,302,257),(306,310,307),(313,327,314),(330,374,331),
  (376,376,255),(377,381,378),(385,385,595),(386,388,387),(390,390,596),(391,391,392),(393,394,598),
  (395,395,396),(398,398,477),(399,399,601),(400,400,603),(401,401,402),(403,403,608),(404,404,611),
  (406,406,617),(407,407,616),(408,408,409),(412,412,623),(413,413,626),(415,415,629),(416,420,417),
  (422,422,640),(423,423,424),(425,425,643),(428,428,429),(430,430,648),(431,431,432),(433,434,650),
  (435,437,436),(439,439,658),(440,440,441),(444,444,445),(452,452,454),(453,453,454),(455,455,457),
  (456,456,457),(458,458,460),(459,475,460),(478,494,479),(497,497,499),(498,500,499),(502,502,405),
  (503,503,447),(504,542,505),(544,544,414),(546,562,547),(570,570,11365),(571,571,572),
  (573,573,410),(574,574,11366),(577,577,578),(579,579,384),(580,580,649),(581,581,652),
  (582,590,583),(880,882,881),(886,886,887),(895,895,1011),(902,902,940),(904,906,941),
  (908,908,972),(910,911,973),(913,929,945),(931,939,963),(975,975,983),(984,1006,985),
  (1012,1012,952),(1015,1015,1016),(1017,1017,1010),(1018,1018,1019),(1021,1023,891),
  (1024,1039,1104),(1040,1071,1072),(1120,1152,1121),(1162,1214,1163),(1216,1216,1231),
  (1217,1229,1218),(1232,1326,1233),(1329,1366,1377),(4256,4293,11520),(4295,4295,11559),
  (4301,4301,11565),(5024,5103,43888),(5104,5109,5112),(7305,7305,7306),(7312,7354,4304),
  (7357,7359,4349),(7680,7828,7681),(7838,7838,223),(7840,7934,7841),(7944,7951,7936),
  (7960,7965,7952),(7976,7983,7968),(7992,7999,7984),(8008,8013,8000),(8025,8025,8017),
  (8027,8027,8019),(8029,8029,8021),(8031,8031,8023),(8040,8047,8032),(8072,8079,8064),
  (8088,8095,8080),(8104,8111,8096),(8120,8121,8112),(8122,8123,8048),(8124,8124,8115),
  (8136,8139,8050),(8140,8140,8131),(8152,8153,8144),(8154,8155,8054),(8168,8169,8160),
  (8170,8171,8058),(8172,8172,8165),(8184,8185,8056),(8186,8187,8060),(8188,8188,8179),
  (8486,8486,969),(8490,8490,107),(8491,8491,229),(8498,8498,8526),(8544,8559,8560),
  (8579,8579,8580),(9398,9423,9424),(11264,11311,11312),(11360,11360,11361),(11362,11362,619),
  (11363,11363,7549),(11364,11364,637),(11367,11371,11368),(11373,11373,593),(11374,11374,625),
  (11375,11375,592),(11376,11376,594),(11378,11378,11379),(11381,11381,11382),(11390,11391,575),
  (11392,11490,11393),(11499,11501,11500),(11506,11506,11507),(42560,42604,42561),
  (42624,42650,42625),(42786,42798,42787),(42802,42862,42803),(42873,42875,42874),
  (42877,42877,7545),(42878,42886,42879),(42891,42891,42892),(42893,42893,613),(42896,42898,42897),
  (42902,42920,42903),(42922,42922,614),(42923,42923,604),(42924,42924,609),(42925,42925,620),
  (42926,42926,618),(42928,42928,670),(42929,42929,647),(42930,42930,669),(42931,42931,43859),
  (42932,42946,42933),(42948,42948,42900),(42949,42949,642),(42950,42950,7566),(42951,42953,42952),
  (42955,42955,612),(42956,42970,42957),(42972,42972,411),(42997,42997,42998),(65313,65338,65345),
  (66560,66599,66600),(66736,66771,66776),(66928,66938,66967),(66940,66954,66979),
  (66956,66962,66995),(66964,66965,67003),(68736,68786,68800),(68944,68965,68976),
  (71840,71871,71872),(93760,93791,93792),(93856,93880,93883),(125184,125217,125218)]

/-- Membership in a set given by the lengths of the stretches outside and inside it, by turns. -/
def alternates : List Nat → Bool → Nat → Bool
  | [], inside, _ => inside
  | n :: ns, inside, c => if c < n then inside else alternates ns (!inside) (c - n)

/-- The property `Cased`. -/
def cased (c : Char) : Bool := alternates
  [65,26,6,26,47,1,10,1,4,1,5,23,1,31,1,195,1,4,4,208,2,35,7,2,30,5,96,1,42,4,2,2,2,4,1,1,6,1,1,3,1,
  1,1,20,1,83,1,139,8,166,1,38,9,41,2839,38,1,1,5,1,2,43,1,4,672,86,2,6,2178,11,5,43,2,3,64,192,64,
  278,2,6,2,38,2,6,2,8,1,1,1,1,1,1,1,31,2,53,1,7,1,1,3,3,1,7,3,4,2,6,4,13,5,3,1,7,116,1,13,1,16,13,
  101,1,4,1,2,10,1,1,3,5,6,1,1,1,1,1,1,4,1,6,4,1,2,4,5,5,4,1,17,32,3,2,817,52,1814,229,6,4,3,2,12,
  38,1,1,5,1,30994,46,18,30,132,102,3,4,1,77,20,6,1,3,821,43,1,14,6,80,20288,7,12,5,1033,26,6,26,
  1189,80,96,36,4,36,116,11,1,15,1,7,1,2,1,11,1,15,1,7,1,2,451,1,2,3,1,42,1,9,1221,51,13,51,93,22,
  10,22,2842,64,21856,64,32,25,2,25,25900,85,1,71,1,2,2,1,2,2,2,4,1,12,1,1,1,7,1,65,1,4,2,8,1,7,1,
  28,1,4,1,5,1,1,3,7,1,340,2,25,1,25,1,31,1,25,1,31,1,25,1,31,1,25,1,31,1,25,1,8,1844,10,1,20,6,6,
  261,62,2194,68,2028,26,6,26,6,26]
  false c.toNat

/-- The property `Case_Ignorable`. -/
def caseIgnorable (c : Char) : Bool := alternates
  [39,1,6,1,11,1,35,1,1,1,71,1,4,1,1,1,4,1,2,2,503,192,4,2,4,1,9,2,1,1,251,7,207,1,5,1,49,45,1,1,1,
  2,1,2,1,1,44,1,11,6,10,11,1,1,35,1,10,21,16,1,101,8,1,10,1,4,33,1,1,1,30,27,91,11,58,11,4,1,2,1,
  24,24,43,3,44,1,7,2,5,9,41,58,55,1,1,1,4,8,4,1,3,7,10,2,13,1,15,1,58,1,4,4,8,1,20,2,26,1,2,2,57,1,
  4,2,4,2,2,3,3,1,30,2,3,1,11,2,57,1,4,5,1,2,4,1,20,2,22,6,1,1,58,1,2,1,1,4,8,1,7,2,11,2,30,1,61,1,
  12,1,50,1,3,1,55,1,1,3,5,3,1,4,7,2,11,2,29,1,58,1,2,1,6,1,5,2,20,2,28,2,57,2,4,4,8,1,20,2,29,1,72,
  1,7,3,1,1,90,1,2,7,11,9,98,1,2,9,9,1,1,7,73,2,27,1,1,1,1,1,55,14,1,5,1,2,5,11,1,36,9,1,102,4,1,6,
  1,2,2,2,25,2,4,3,16,4,13,1,2,2,6,1,15,1,94,1,608,3,946,3,29,2,30,2,30,2,64,2,1,7,8,1,2,11,3,1,5,1,
  45,5,51,1,65,2,34,1,118,3,4,2,9,1,6,3,219,2,2,1,58,1,1,7,1,1,1,1,2,8,6,10,2,1,39,1,8,46,2,12,20,4,
  48,1,1,5,1,1,5,1,40,9,12,2,32,4,2,2,1,3,56,1,1,2,3,1,1,3,58,8,2,2,64,6,82,3,1,13,1,7,4,1,6,1,3,2,
  50,63,13,1,34,101,445,1,1,3,11,3,13,3,13,3,13,2,12,5,8,2,10,1,2,1,2,5,49,5,1,10,1,1,13,1,16,13,51,
  33,2955,2,113,3,125,1,15,1,96,32,47,1,469,1,36,4,3,5,5,1,93,6,93,3,28438,1,1250,6,270,1,98,4,1,10,
  1,1,28,4,80,2,14,34,78,1,23,3,102,4,3,2,8,1,3,1,4,1,25,2,5,1,151,2,26,18,13,1,38,8,25,11,46,3,48,
  1,2,4,2,2,17,1,21,2,66,6,2,2,2,2,12,1,8,1,35,1,11,1,51,1,1,3,2,2,5,2,1,1,27,1,14,2,5,2,1,1,100,5,
  9,3,121,1,2,1,4,1,20272,1,147,17,573,16,3,1,12,16,34,1,2,1,169,1,7,1,6,1,11,1,35,1,1,1,47,1,45,2,
  67,1,21,3,513,1,226,1,149,5,1029,6,1,42,1,9,582,3,1,2,5,4,40,3,4,1,165,2,573,4,38,1,26,5,1,1,315,
  2,24,1,52,6,70,11,49,4,123,1,54,15,41,1,2,2,10,3,49,4,2,2,2,1,4,1,10,1,50,3,36,5,1,8,62,1,12,2,52,
  9,10,4,2,1,95,3,2,1,1,2,6,1,2,1,157,1,3,8,21,2,57,2,3,1,37,7,3,5,70,6,13,1,1,1,1,1,14,2,85,8,2,3,
  1,1,23,1,84,6,1,1,4,2,1,2,238,4,6,2,1,2,27,2,85,8,2,1,1,2,106,1,1,1,2,6,1,1,101,1,1,1,2,4,1,5,259,
  9,1,2,256,2,1,1,4,1,144,4,2,2,4,1,32,10,40,6,2,4,8,1,9,6,2,3,46,13,1,2,198,1,1,3,1,1,201,7,1,6,1,
  1,82,22,2,7,1,2,1,2,122,6,3,1,1,2,1,7,1,1,72,2,3,1,1,1,65,1,281,2,11,2,52,5,5,1,1,1,23,1,5333,17,
  6,15,11464,12,3,3,2496,5,59,7,9,4,508,3,40,2,482,1,63,17,64,2,1,2,13,2,16380,4,1,7,1,2,3230,2,1,4,
  4700,46,2,23,544,3,9,16,2,7,30,4,148,3,1979,55,4,50,8,1,14,1,22,5,1,15,1360,7,1,17,2,7,1,2,1,5,5,
  62,33,1,160,14,368,1,61,4,507,5,254,2,243,1,2,1,7,2,5,1,9,1,464,7,109,8,2735,5,789505,1,30,96,128,
  240]
  false c.toNat

/-! ## The function -/

def inRun (n : Nat) : Nat × Nat × Nat → Bool
  | (first, last, target) =>
    first ≤ n && n ≤ last && (target ≠ first + 1 || (n - first) % 2 = 0)

/-- The lower case of a letter on its own. One capital has a lower case of two letters. -/
def lowerChar (c : Char) : List Char :=
  if c.toNat < 128 then [c.toLower]
  else if c = 'İ' then ['i', '\u0307']
  else match lowerRuns.find? (inRun c.toNat) with
    | some (first, _, target) => [Char.ofNat (target + (c.toNat - first))]
    | none => [c]

def caseIgnorableThenCased (cs : List Char) : Bool :=
  (cs.dropWhile caseIgnorable).head?.any cased

/-- The lower case of a text after the letters `before`, the last of them first. -/
def lowerAfter : List Char → List Char → List Char
  | _, [] => []
  | before, c :: cs =>
    (if c = 'Σ' && caseIgnorableThenCased before && !caseIgnorableThenCased cs then ['ς']
      else lowerChar c) ++ lowerAfter (c :: before) cs

def toLowercase (s : String) : String := String.ofList (lowerAfter [] s.toList)

/-! ## Letters that are their own lower case -/

/-- A letter that is no ASCII capital is its own lower case in ASCII. -/
theorem toLower_of_not_upper {c : Char} (h : ¬ (c.val ≥ 'A'.val ∧ c.val ≤ 'Z'.val)) :
    c.toLower = c := by
  unfold Char.toLower
  rw [dif_neg h]

theorem toNat_toLower {c : Char} (h : c.val ≥ 'A'.val ∧ c.val ≤ 'Z'.val) :
    65 ≤ c.toNat ∧ c.toNat ≤ 90 ∧ c.toLower.toNat = c.toNat + 32 := by
  have hv : c.toLower.val = c.val + ('a'.val - 'A'.val) := by
    unfold Char.toLower
    rw [dif_pos h]
  have hge : 65 ≤ c.val.toNat := h.1
  have hle : c.val.toNat ≤ 90 := h.2
  refine ⟨hge, hle, ?_⟩
  rw [Char.toNat, hv, UInt32.toNat_add, Char.toNat]
  have h32 : ('a'.val - 'A'.val).toNat = 32 := rfl
  omega

/-- No lower case of the first run is in the second. -/
def apart : Nat × Nat × Nat → Nat × Nat × Nat → Bool
  | (first, last, target), (first', last', target') =>
    target + (last - first) < first' || last' < target ||
      ((first = last || target = first + 1) && target' = first' + 1 && (target + first') % 2 = 1)

/-- The lower cases of a run are letters past the ASCII capitals, and none is `İ`. -/
def lettered : Nat × Nat × Nat → Bool
  | (first, last, target) =>
    let end' := target + (last - first)
    97 ≤ target && (end' < 304 || 304 < target) &&
      (end' < 0xd800 || 0xdfff < target && end' < 0x110000)

theorem lowerRuns_checked :
    lowerRuns.all (fun r => lettered r && lowerRuns.all (apart r)) = true := by
  decide +kernel

/-- The lower case of a letter in a run is past the ASCII capitals and in no run. -/
theorem run_target {first last target : Nat}
    (h : lowerRuns.find? (inRun n) = some (first, last, target))
    (hd : d = Char.ofNat (target + (n - first))) :
    97 ≤ d.toNat ∧ d.toNat ≠ 304 ∧ lowerRuns.find? (inRun d.toNat) = none := by
  have hin := find?_some h
  have hchecked := all_eq_true.mp lowerRuns_checked _ (mem_of_find?_eq_some h)
  simp only [lettered, inRun, Bool.and_eq_true, Bool.or_eq_true, decide_eq_true_eq,
    all_eq_true] at hin hchecked
  obtain ⟨hletter, hapart⟩ := hchecked
  have hvalid : (target + (n - first)).isValidChar := by
    unfold Nat.isValidChar
    omega
  rw [hd, Char.toNat_ofNat, if_pos hvalid]
  refine ⟨by omega, by omega, find?_eq_none.mpr ?_⟩
  rintro ⟨first', last', target'⟩ hrun hin'
  have hpair := hapart _ hrun
  simp only [apart, inRun, Bool.and_eq_true, Bool.or_eq_true, decide_eq_true_eq] at hpair hin'
  omega

theorem lowerChar_eq_self {c : Char} (hlow : 97 ≤ c.toNat) (hdot : c.toNat ≠ 304)
    (hnone : lowerRuns.find? (inRun c.toNat) = none) : lowerChar c = [c] := by
  have hne : c ≠ 'İ' := by
    rintro rfl
    exact hdot rfl
  have hnot : ¬ (c.val ≥ 'A'.val ∧ c.val ≤ 'Z'.val) := by
    intro h
    have := (toNat_toLower h).2.1
    omega
  simp [lowerChar, hne, hnone, toLower_of_not_upper hnot]

/-- A lower case is its own lower case. -/
theorem lowerChar_of_mem (h : d ∈ lowerChar c) : lowerChar d = [d] := by
  unfold lowerChar at h
  split at h
  · next hascii =>
    obtain rfl := mem_singleton.mp h
    by_cases hup : c.val ≥ 'A'.val ∧ c.val ≤ 'Z'.val
    · have hnat := toNat_toLower hup
      have hnot : ¬ (c.toLower.val ≥ 'A'.val ∧ c.toLower.val ≤ 'Z'.val) := by
        intro h'
        have := (toNat_toLower h').2.1
        omega
      rw [lowerChar, if_pos (by omega), toLower_of_not_upper hnot]
    · rw [toLower_of_not_upper hup, lowerChar, if_pos hascii, toLower_of_not_upper hup]
  · next hascii =>
    split at h
    · simp only [mem_cons, not_mem_nil, or_false] at h
      rcases h with rfl | rfl <;> decide +kernel
    · next hdot =>
      split at h
      · next hfind =>
        obtain ⟨hlow, hne, hnone⟩ := run_target hfind (mem_singleton.mp h)
        exact lowerChar_eq_self hlow hne hnone
      · next hnone =>
        obtain rfl := mem_singleton.mp h
        simp [lowerChar, hascii, hdot, hnone]

/-! ## Texts in lower case -/

theorem mem_lowerAfter (h : d ∈ lowerAfter before cs) : d = 'ς' ∨ ∃ c ∈ cs, d ∈ lowerChar c := by
  induction cs generalizing before with
  | nil => cases h
  | cons c cs ih =>
    rw [lowerAfter] at h
    rcases mem_append.mp h with h | h
    · split at h
      · exact .inl (mem_singleton.mp h)
      · exact .inr ⟨c, mem_cons_self, h⟩
    · rcases ih h with h | ⟨c', hc', h⟩
      · exact .inl h
      · exact .inr ⟨c', mem_cons_of_mem c hc', h⟩

/-- No letter of a text in lower case changes again. -/
theorem lowerChar_of_mem_toLowercase (h : d ∈ (toLowercase s).toList) : lowerChar d = [d] := by
  rw [toLowercase, String.toList_ofList] at h
  rcases mem_lowerAfter h with rfl | ⟨c, -, h⟩
  · decide +kernel
  · exact lowerChar_of_mem h

theorem lowerAfter_cons_self (h : lowerChar c = [c]) :
    lowerAfter before (c :: cs) = c :: lowerAfter (c :: before) cs := by
  have hsigma : c ≠ 'Σ' := by
    rintro rfl
    revert h
    decide +kernel
  simp [lowerAfter, hsigma, h]

theorem toLowercase_eq_self (h : ∀ c ∈ s.toList, lowerChar c = [c]) : toLowercase s = s := by
  have hall : ∀ cs before, (∀ c ∈ cs, lowerChar c = [c]) → lowerAfter before cs = cs := by
    intro cs
    induction cs with
    | nil => intros; rfl
    | cons c cs ih =>
      intro before hcs
      rw [lowerAfter_cons_self (hcs c mem_cons_self),
        ih _ fun c' hc' => hcs c' (mem_cons_of_mem c hc')]
  rw [toLowercase, hall _ _ h, String.ofList_toList]

theorem toLowercase_toLowercase (s : String) : toLowercase (toLowercase s) = toLowercase s :=
  toLowercase_eq_self fun _ => lowerChar_of_mem_toLowercase

/-- What is its own lower case stays in the text. -/
theorem mem_toLowercase (h : lowerChar c = [c]) (hc : c ∈ s.toList) : c ∈ (toLowercase s).toList := by
  rw [toLowercase, String.toList_ofList]
  generalize s.toList = cs, ([] : List Char) = before at hc ⊢
  induction cs generalizing before with
  | nil => cases hc
  | cons x xs ih =>
    rcases mem_cons.mp hc with rfl | hc
    · rw [lowerAfter_cons_self h]
      exact mem_cons_self
    · exact mem_append_right _ (ih _ hc)

end Lib
