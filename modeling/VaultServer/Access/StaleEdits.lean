import VaultServer.Effects.Traces
import VaultServer.Security.LostUpdates

/-!
# Edits of an item that has changed meanwhile

`put_cipher` compares the date its client has last seen with the row that it reads, and writes every
column of that copy back several calls later. Of a version that another request stores in between
it takes no notice.
-/

namespace VaultServer

open Lib

variable {id : CipherId} {d : Time} {before : List DbAccess} {b : Bool}

/-- The stored version of the item, if there is one, is dated before `d + 2` seconds. -/
def versionKnown (id : CipherId) (d : Time) (w : World) : Bool :=
  (Cipher.findByUuid w.db id).all fun c => c.updatedAt < d + 2

def loadsCipher (id : CipherId) (a : DbAccess) : Bool :=
  match a.label with
  | .loadCipher x => x = id
  | _ => false

def savesCipher (l : Call) : Bool :=
  match l with
  | .saveCipher _ => true
  | _ => false

/-- What the request has last read of the date, unless it has written the item since. -/
def knownVersion (id : CipherId) (d : Time) (before : List DbAccess) : Option Bool :=
  seen (versionKnown id d) (loadsCipher id) before

/-- An item is saved where the version that was read has a date the client knows. -/
def savesKnown (id : CipherId) (d : Time) : Promise := fun before l _ =>
  savesCipher l = true → knownVersion id d before = some true

theorem savesKnown_about : (savesKnown id d).About .ciphers := by
  intro S s l u hs hu hl
  cases l with
  | saveCipher => exact absurd (hu.part _ rfl) hs
  | _ => cases hl

/-! ## What the request has read stays known to it -/

section
variable {α β : Type} {S : List Part} {c : Cmd α} {R : List DbAccess → β → Prop}

theorem knownVersion_cons {u : World → World} (hu : Call.Within S l u)
    (hs : .ciphers ∉ S) (w : World) :
    knownVersion id d (⟨l, w, u w⟩ :: before) = knownVersion id d before := by
  have hload : loadsCipher id ⟨l, w, u w⟩ = false := by
    cases l with
    | loadCipher => exact absurd (hu.part _ rfl) hs
    | _ => rfl
  have hsame : versionKnown id d w = versionKnown id d (u w) := by
    have hrows : (u w).db.ciphers = w.db.ciphers := (hu.keeps w).2 .ciphers hs
    rw [versionKnown, versionKnown, Cipher.findByUuid, Cipher.findByUuid, hrows]
  rw [knownVersion, seen, hload, if_neg Bool.false_ne_true, if_pos hsame]
  rfl

theorem known_kept (hb : knownVersion id d before = some b) (hw : Writes S c) (hs : .ciphers ∉ S) :
    Traces (savesKnown id d) before c fun s _ => knownVersion id d s = some b := by
  induction c generalizing before with
  | ret => exact hb
  | fail => trivial
  | call l u n ih =>
    exact ⟨savesKnown_about hs hw.1, fun w => ih w ((knownVersion_cons hw.1 hs w).trans hb) (hw.2 w)⟩

theorem Traces.known {k : α → Cmd β} (hb : knownVersion id d before = some b) (hw : Writes S c)
    (hs : S.contains .ciphers = false)
    (hk : ∀ s a, knownVersion id d s = some b → Traces (savesKnown id d) s (k a) R) :
    Traces (savesKnown id d) before (c >>= k) R :=
  (known_kept hb hw (by simpa using hs)).bind hk

end

section
variable {env : Env} {me : UserId} {c : Cipher} {data : CipherData}

/-- The checks let an update through whose client knows the version that was read. -/
theorem checkUpdate_known (hb : knownVersion id d before = some b) :
    Traces (savesKnown id d) before (checkUpdate env c data me .syncCipherUpdate) fun s _ =>
      knownVersion id d s = some b ∧ data.isStale env .syncCipherUpdate c = false := by
  refine .known (S := []) hb enforcePersonalOwnershipPolicy_writes rfl fun s _ hs => ?_
  refine .ensure fun hstale => .ensure fun _ => ?_
  refine (known_kept hs (S := []) .ensure List.not_mem_nil).mono ?_ fun _ h => h
  exact fun _ _ h => ⟨h, by simpa using hstale⟩

theorem Cipher.save_known (hb : knownVersion id d before = some true) :
    Traces (savesKnown id d) before (c.save env) ⊤ := by
  refine .known (S := []) hb Cipher.updateUsersRevision_writes rfl fun s _ hs => ?_
  exact (Traces.exec (Q := ⊤) (fun _ => hs) fun _ _ => trivial).bind fun _ _ _ => trivial

theorem updateCipherFromData_known (hd : data.lastKnownRevisionDate.bind env.parseDate = some d)
    (hb : knownVersion id d before = some (decide (c.updatedAt < d + 2))) :
    Traces (savesKnown id d) before (updateCipherFromData env c data me none .syncCipherUpdate)
      ⊤ := by
  refine (checkUpdate_known hb).bind fun s1 _ ⟨hs1, hstale⟩ => ?_
  have hdate : decide (c.updatedAt < d + 2) = true := by
    simp only [CipherData.isStale, hd, Option.any_some, ne_eq, reduceCtorEq, not_false_eq_true,
      true_and, decide_eq_true_eq, decide_eq_false_iff_not] at hstale
    have hle : c.updatedAt ≤ d + 1 := Int.le_add_of_sub_left_le (Int.not_lt.1 hstale)
    exact decide_eq_true (Int.lt_of_le_of_lt hle (Int.add_lt_add_left (by decide) d))
  rw [hdate] at hs1
  refine Traces.known (S := []) hs1 chooseOwner_writes rfl fun s2 c' hs2 => ?_
  refine .known (S := []) hs2 checkFolder_writes rfl fun s3 _ hs3 => ?_
  refine .known hs3 updateAttachments_writes rfl fun s4 _ hs4 => .lift fun c'' _ => ?_
  refine (Cipher.save_known hs4).bind fun s5 c5 _ => ?_
  refine Traces.pass savesKnown_about writeUserMarks_writes (by decide) fun s6 _ _ => ?_
  exact .still savesKnown_about (.when Cipher.updateUsersRevision_writes) fun _ _ _ => trivial

theorem putCipher_known (hd : data.lastKnownRevisionDate.bind env.parseDate = some d) :
    Traces (savesKnown id d) before (putCipher env id data me) ⊤ := by
  refine .read nofun fun w => ?_
  have hb : knownVersion id d (⟨.loadCipher id, w, w⟩ :: before) = some (versionKnown id d w) := by
    simp [knownVersion, seen, loadsCipher]
  cases hfound : Cipher.findByUuid w.db id with
  | none => exact trivial
  | some =>
    rw [versionKnown, hfound] at hb
    refine Traces.known (S := []) hb .query rfl fun s _ hs => .ensure fun _ => ?_
    exact (updateCipherFromData_known hd hs).bind fun _ _ _ =>
      (Traces.of_writes savesKnown_about (S := []) Cipher.toJson_writes List.not_mem_nil).mono
        (fun _ _ _ => trivial) fun _ h => h

end

/-! ## In every order -/

/-- **An edit replaces a version its client knows, where no newer one is stored meanwhile.**  The
edit takes turns with any other requests, and its last turn is the save. If no other request has
changed since the edit read the item whether the stored version is dated before `d + 2` seconds,
then it is. -/
theorem edit_replaces_known (w : World) (env : Env) (caller : Caller) (id : CipherId)
    (data : CipherData) (d : Time) (others : List Event) (schedule : List Nat) (t : DbTurn)
    (before : List DbTurn)
    (hd : data.lastKnownRevisionDate.bind env.parseDate = some d)
    (hpast : (race w ⟨env, .vault caller (.putCipher id data)⟩ others schedule).past = t :: before)
    (hthread : t.thread = 0) (hsave : savesCipher t.label = true)
    (hnone : overtaken (versionKnown id d) (loadsCipher id) 0 before = false) :
    ∀ c, Cipher.findByUuid t.pre.db id = some c → c.updatedAt < d + 2 := by
  have hkeeps : (race w ⟨env, .vault caller (.putCipher id data)⟩ others schedule).Keeps
      (fun i s l u => i = 0 → savesKnown id d s l u) (fun _ _ _ => True) w := by
    refine Pool.run_traced schedule fun i c hc => ?_
    cases i with
    | zero =>
      obtain rfl := Option.some.inj hc
      have hprog : Traces (savesKnown id d) [] (Event.prog ⟨env, .vault caller (.putCipher id data)⟩)
          ⊤ := by
        refine .pass savesKnown_about Headers.fromRequest_writes (by decide) fun s headers _ => ?_
        exact (putCipher_known hd).bind fun _ _ _ => trivial
      exact hprog.promise fun _ _ _ h _ => h
    | succ j => exact .of_forall (fun _ _ _ h => nomatch h) (fun _ _ => trivial) fun _ => trivial
  obtain ⟨hlinked, hmade, -⟩ := hkeeps
  rw [hpast] at hlinked hmade
  obtain ⟨⟨u, -, hknown⟩, -⟩ := hmade
  rw [hthread] at hknown
  have hview := view_of_seen _ _ hlinked.2 (hknown rfl hsave) hnone
  intro c hc
  rw [versionKnown, hc] at hview
  exact of_decide_eq_true hview

namespace Edits

/-- An account with one item, of time 0. -/
def stored : World := (World.initial []).after <| Client.signedIn ++
  [⟨{}, .vault ⟨Stamps.token 3, some "post_ciphers"⟩
    (.postCiphers { type := 1, name := "a", login := some (.object []) })⟩]

def data (name : String) : CipherData :=
  { type := 1, name, login := some (.object []), lastKnownRevisionDate := some "0" }

def env (now : Time) : Env := { now, parseDate := fun _ => some 0 }

def caller : Caller := ⟨Stamps.token 3, some "put_cipher"⟩

/-- A client that has seen time 0 renames the item. -/
def rename (now : Time) (name : String) : Event := ⟨env now, .vault caller (.putCipher ⟨6⟩ (data name))⟩

/-- The first edit has made its checks when the second one is carried out, and then saves. -/
def around : List Nat := List.replicate 7 0 ++ List.replicate 13 1 ++ [0]

end Edits

open Edits in
/-- The edit is alone. -/
theorem edit_replaces_known_alone :
    ∃ t before, (race stored (rename 10 "b") [] (List.replicate 8 0)).past = t :: before ∧
      savesCipher t.label = true ∧
      ∀ c, Cipher.findByUuid t.pre.db ⟨6⟩ = some c → c.updatedAt < 0 + 2 :=
  ⟨_, _, rfl, rfl, edit_replaces_known stored (env 10) caller ⟨6⟩ (data "b") 0 []
    (List.replicate 8 0) _ _ rfl rfl rfl rfl (by decide +kernel)⟩

open Edits in
/-- **An accepted edit overwrites one that was made meanwhile.**  At the save of the first edit the
item is dated 10, although its client has seen time 0; both edits are answered with success. -/
theorem edit_overwrites_newer :
    ((race stored (rename 11 "c") [rename 10 "b"] around).past.head?.any fun t =>
      t.thread = 0 ∧ savesCipher t.label ∧
        (Cipher.findByUuid t.pre.db ⟨6⟩).any fun c => 0 + 2 ≤ c.updatedAt) = true ∧
    (race stored (rename 11 "c") [rename 10 "b"] (around ++ List.replicate 5 0)).hasReturned 0 = true ∧
    (race stored (rename 11 "c") [rename 10 "b"] around).hasReturned 1 = true := by
  decide +kernel

end VaultServer
