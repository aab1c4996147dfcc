import VaultServer.Access.Entry
import VaultServer.Effects.Replace

/-!
# Renamed attachments

`put_cipher` walks the `attachments2` map in the order of the hash map and stops at the first
attachment of another item. Which names it has written by then depends on that order. Its keys are
compared in lower case, so two of them may name one attachment; then the last one decides.
-/

namespace VaultServer

open Lib List Table

variable {env : Env} {w : World} {me : UserId} {c : CipherId} {S : List Part} {data : CipherData}
  {rows : List Attachment} {l l' : List Attachments2Data} {a : Attachment} {x y : Attachments2Data}

/-- The entry names the attachment; the case of its key does not matter. -/
def Attachments2Data.names (x : Attachments2Data) (a : Attachment) : Bool :=
  attachmentId? (toLowercase x.id) = some a.id

def Attachments2Data.write (a : Attachment) (x : Attachments2Data) : Attachment :=
  { a with akey := some x.key, fileName := x.fileName }

namespace Renaming

/-- Attachment `ab` is of item 5 and attachment `ac` of item 6. -/
def world : World := ⟨{ Db.empty with
  users := .ofRows [SelfGrant.user]
  ciphers := .ofRows [Replace.item, { Replace.item with uuid := ⟨6⟩ }]
  attachments := .ofRows [⟨0xab, ⟨5⟩, "old", 1, none⟩, ⟨0xac, ⟨6⟩, "other", 1, none⟩] },
  9, [], [], []⟩

def body : CipherData := { type := 1, name := "b", login := some (.object []) }

/-- An entry under a key with the given last digits. -/
def entry (key name : String) : Attachments2Data := ⟨"000000000000000000" ++ key, name, "k"⟩

end Renaming

end VaultServer
