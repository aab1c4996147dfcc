import VaultServer.Access.SelfGrant

/-!
# Saving an item with `REPLACE`

On SQLite and MySQL `Cipher::save` replaces the stored row: the old row is deleted, with the archive
marks that refer to it, and the new one inserted. Where a foreign key forbids the deletion the row
is updated in place.
-/

namespace VaultServer

open Lib List Option Table

variable {env : Env} {db : Db} {w : World} {c : Cipher}

/-- When an engine looks at the rows that refer to a deleted one: at once, or at the end of the
statement. -/
inductive KeyCheck where
  | eachRow
  | atEnd
  deriving DecidableEq

namespace Cipher

/-- A table whose reference declares no action has a row of the item. -/
def referred (uuid : CipherId) (db : Db) : Bool :=
  db.foldersCiphers.rows.any (fun fc => fc.cipherUuid = uuid) ||
    db.ciphersCollections.rows.any (fun cc => cc.cipherUuid = uuid) ||
    db.attachments.rows.any (fun a => a.cipherUuid = uuid) ||
    db.favorites.rows.any fun f => f.cipherUuid = uuid

/-- The delete of the `REPLACE`, with its cascade. -/
def withoutRow (uuid : CipherId) (db : Db) : Db :=
  { db with
    ciphers := db.ciphers.deleteWhere fun c => c.uuid = uuid
    archives := db.archives.deleteWhere fun a => a.cipherUuid = uuid }

/-- `none` is a violated foreign key. -/
def replaceStmt (check : KeyCheck) (c : Cipher) (db : Db) : Option Db :=
  if check = .eachRow ∧ referred c.uuid db then none else c.saveStmt (withoutRow c.uuid db)

def updateStmt (c : Cipher) (db : Db) : Option Db :=
  if db.hasCipher c.uuid then c.saveStmt db else some db

def saveReplacingStmt (check : KeyCheck) (c : Cipher) (db : Db) : Option Db :=
  (c.replaceStmt check db).or (c.updateStmt db)

/-- `Cipher::save` on SQLite and MySQL. -/
def saveReplacing (check : KeyCheck) (env : Env) (c : Cipher) : Cmd Cipher := do
  c.updateUsersRevision env
  let c := { c with updatedAt := env.now }
  exec (c.saveReplacingStmt check) "Error saving cipher" (.saveCipher c)
  pure c

/-- The owner the copy names is stored. -/
def ownerStored (c : Cipher) (db : Db) : Bool :=
  c.userUuid.all db.hasUser && c.organizationUuid.all db.hasOrganization

end Cipher

/-! ## The statements -/

/-- Nothing is archived, or the row is updated in place, or neither statement is carried out. -/
def Cipher.ReplacedWhole (check : KeyCheck) (c : Cipher) (db : Db) : Prop :=
  (∀ a ∈ db.archives.rows, a.cipherUuid ≠ c.uuid) ∨
    (check = .eachRow ∧ Cipher.referred c.uuid db = true) ∨ c.ownerStored db = false

theorem withoutRow_upsert : (db.ciphers.deleteWhere fun r => r.uuid = c.uuid).upsert c =
    db.ciphers.upsert c := by
  refine ext_rows ?_
  simp only [Table.upsert, Table.put, Table.putRows, Table.deleteWhere, List.filter_filter]
  congr 1
  refine List.filter_congr fun r _ => ?_
  simp

theorem archives_kept_iff : db.archives.deleteWhere (fun a => a.cipherUuid = c.uuid) = db.archives ↔
    ∀ a ∈ db.archives.rows, a.cipherUuid ≠ c.uuid := by
  constructor
  · intro h a ha hid
    rw [← h] at ha
    exact absurd hid (of_decide_eq_false (mem_deleteWhere.1 ha).2)
  · intro h
    refine ext_rows (filter_eq_self.2 fun a ha => ?_)
    simpa using h a ha

theorem saveReplacingStmt_eq_iff (check : KeyCheck) (hc : db.hasCipher c.uuid = true) :
    (c.saveReplacingStmt check db).getD db = (c.saveStmt db).getD db ↔ c.ReplacedWhole check db := by
  have hupdate : c.updateStmt db = c.saveStmt db := if_pos hc
  unfold Cipher.saveReplacingStmt Cipher.replaceStmt Cipher.ReplacedWhole
  rw [hupdate]
  by_cases hcheck : check = .eachRow ∧ Cipher.referred c.uuid db = true
  · rw [if_pos hcheck]
    exact ⟨fun _ => .inr (.inl hcheck), fun _ => rfl⟩
  rw [if_neg hcheck]
  cases howner : c.ownerStored db with
  | false =>
    -- the inserted row has no owner either way
    have hrefused : ∀ db' : Db, c.ownerStored db' = false → c.saveStmt db' = none := by
      intro db' h
      rw [Cipher.saveStmt, show (_ && _) = false from h]
      rfl
    rw [hrefused db howner, hrefused (Cipher.withoutRow c.uuid db) howner]
    exact ⟨fun _ => .inr (.inr rfl), fun _ => rfl⟩
  | true =>
    have hsaved : ∀ db' : Db, c.ownerStored db' = true →
        c.saveStmt db' = some { db' with ciphers := db'.ciphers.upsert c } := by
      intro db' h
      rw [Cipher.saveStmt, show (_ && _) = true from h]
      rfl
    rw [hsaved db howner, hsaved (Cipher.withoutRow c.uuid db) howner]
    simp only [Cipher.withoutRow, or_some, getD_some, withoutRow_upsert, hcheck, reduceCtorEq,
      or_false]
    rw [← archives_kept_iff]
    exact ⟨fun h => congrArg Db.archives h, fun h => by rw [h]⟩

/-! ## The two saves -/

theorem World.exec_of_quiet {stmt : Db → Option Db} (hf : w.faults = []) :
    w.exec stmt = { w with db := (stmt w.db).getD w.db } := by
  unfold World.exec World.refuses
  rw [hf]
  cases stmt w.db with
  | none => simp
  | some => simp

/-- Both saves write to the database that the revisions have left. -/
theorem save_after (hf : w.faults = []) :
    (do c.updateUsersRevision env; exec stmt "Error saving cipher" label; pure c' : Cmd Cipher).after w =
      { (c.updateUsersRevision env).after w with
        db := (stmt ((c.updateUsersRevision env).after w).db).getD
          ((c.updateUsersRevision env).after w).db } := by
  have hwrites : Writes [] (c.updateUsersRevision env) := Cipher.updateUsersRevision_writes
  obtain ⟨_, hok, -⟩ := Cipher.updateUsersRevision_returns (c := c) (hwrites.undisturbed hf)
  rw [Prog.after_bind_of_ok hok, Prog.after_bind_pure (f := fun _ => c'), after_exec]
  exact World.exec_of_quiet (suffix_nil.1 (hf ▸ (hwrites.keeps w).1))

theorem ReplacedWhole.same {check w'} (h : ∀ t, w.Same w' t) :
    c.ReplacedWhole check w'.db ↔ c.ReplacedWhole check w.db := by
  have harchives : w'.db.archives = w.db.archives := h .archives
  have hfolders : w'.db.foldersCiphers = w.db.foldersCiphers := h .foldersCiphers
  have hlinks : w'.db.ciphersCollections = w.db.ciphersCollections := h .ciphersCollections
  have hattachments : w'.db.attachments = w.db.attachments := h .attachments
  have hfavorites : w'.db.favorites = w.db.favorites := h .favorites
  have huser : w'.db.hasUser = w.db.hasUser := funext fun _ => (h .users).hasUser
  have horg : w'.db.hasOrganization = w.db.hasOrganization :=
    funext fun _ => (h .organizations).hasOrganization
  simp only [Cipher.ReplacedWhole, Cipher.referred, Cipher.ownerStored, harchives, hfolders, hlinks,
    hattachments, hfavorites, huser, horg]

/-- **Saving an item has the same effect on every database exactly where no archive mark is lost.**
The upsert writes the item's row and the revisions of accounts only. -/
theorem saveReplacing_eq_save_iff (check : KeyCheck) (hf : w.faults = [])
    (hc : w.db.hasCipher c.uuid = true) :
    ((∀ t, t ≠ .ciphers → w.Same ((c.save env).after w) t) ∧
      w.db.ciphers.KeptOn (fun r => r.uuid ≠ c.uuid) ((c.save env).after w).db.ciphers) ∧
    ((c.saveReplacing check env).after w = (c.save env).after w ↔ c.ReplacedWhole check w.db) := by
  have hsame : ∀ t, w.Same ((c.updateUsersRevision env).after w) t :=
    Cipher.updateUsersRevision_writes.still w
  refine ⟨⟨fun t ht => Cipher.save_writes.after (by simpa using ht) w, ?_⟩, ?_⟩
  · unfold Cipher.save
    rw [save_after hf]
    generalize (c.updateUsersRevision env).after w = w1 at hsame
    intro r hr
    have hrows : w1.db.ciphers = w.db.ciphers := hsame .ciphers
    cases hs : ({ c with updatedAt := env.now } : Cipher).saveStmt w1.db with
    | none => rw [getD_none, hrows]
    | some db' =>
      obtain ⟨-, rfl⟩ := Db.guarded_eq_some hs
      rw [getD_some, mem_upsert, hrows]
      exact ⟨fun h => h.elim (fun h => absurd (congrArg Cipher.uuid h) hr) And.left,
        fun h => .inr ⟨h, hr⟩⟩
  · unfold Cipher.saveReplacing Cipher.save
    rw [save_after hf, save_after hf]
    generalize (c.updateUsersRevision env).after w = w1 at hsame
    have hstmt := saveReplacingStmt_eq_iff check (c := { c with updatedAt := env.now })
      ((World.Same.hasCipher (hsame .ciphers)).trans hc)
    rw [ReplacedWhole.same hsame] at hstmt
    rw [← show _ ↔ c.ReplacedWhole check w.db from hstmt]
    exact ⟨fun h => congrArg World.db h, fun h => by rw [h]⟩

/-! ## An archived item -/

namespace Replace

def item : Cipher := { Cipher.new 5 0 1 "login" with userUuid := some ⟨1⟩ }

/-- User 1 has archived item 5, which is in no folder and no favorite. -/
def world : World := ⟨{ Db.empty with
  users := .ofRows [SelfGrant.user]
  ciphers := .ofRows [item]
  archives := .ofRows [⟨⟨1⟩, ⟨5⟩, 0⟩] }, 9, [], [], []⟩

end Replace

open Replace in
theorem saveReplacing_eq_save_iff_archived :
    world.db.hasCipher item.uuid = true ∧
    ((item.saveReplacing .atEnd {}).after world = (item.save {}).after world ↔
      item.ReplacedWhole .atEnd world.db) :=
  ⟨by decide, (saveReplacing_eq_save_iff .atEnd rfl (by decide)).2⟩

open Replace in
/-- **A save takes the item out of the archive.** -/
theorem saveReplacing_unarchives :
    ((item.saveReplacing .eachRow {}).run world).1.toBool = true ∧
    ((item.saveReplacing .eachRow {}).after world).db.archives.rows = [] ∧
    ((item.saveReplacing .atEnd {}).after world).db.archives.rows = [] ∧
    ((item.save {}).after world).db.archives.rows = [⟨⟨1⟩, ⟨5⟩, 0⟩] := by
  decide

end VaultServer
