import Mathlib

/-!
# Running and saved configuration

`config.rs`: the values of the environment and of `config.json` are merged and every missing one is
filled in. An update takes effect in memory before it is written to the file, and the admin page
saves only what it can edit.
-/

namespace VaultServer.Config

variable {N V Text : Type} [DecidableEq N]

/-- The values that are given, and the settings as they are in force. -/
abbrev Builder (N V : Type) := N → Option V
abbrev Items (N V : Type) := N → Option V

/-- A setting with what `@build` makes, by its action, of the value and the settings before it. -/
structure Setting (N V : Type) where
  name : N
  editable : Bool
  fill : Option V → Items N V → Option V

/-- The settings, what `build` does after the last one, and the file format. -/
structure Schema (N V Text : Type) where
  settings : List (Setting N V)
  duoAkey : N
  finish : Builder N V → Items N V → Items N V
  render : Builder N V → Text
  parse : Text → Option (Builder N V)
  parse_render : ∀ b, parse (render b) = some b

/-- `Inner`, with the content of `config.json`. -/
structure State (N V Text : Type) where
  env : Builder N V
  usr : Builder N V
  config : Items N V
  file : Option Text

def merge (b other : Builder N V) : Builder N V := fun n => other n <|> b n

/-- How validation and storage come out. -/
structure Outcome where
  valid : Bool
  stored : Bool

inductive ConfigError
  | validation | storage

abbrev Reply (N V Text : Type) := Except ConfigError Unit × State N V Text

inductive Call (N V : Type)
  | updateConfig (other : Builder N V) (ignoreNonEditable : Bool)
  | getDuoAkey (drawn : V)
  | deleteUserConfig

namespace Schema

variable (schema : Schema N V Text)

def clearNonEditable (b : Builder N V) : Builder N V := fun n =>
  if schema.settings.any fun s => s.name = n && !s.editable then none else b n

def build (b : Builder N V) : Items N V :=
  schema.finish b <| schema.settings.foldl
    (fun config s => Function.update config s.name (s.fill (b s.name) config)) fun _ => none

def fromFile (file : Option Text) : Builder N V := (file.bind schema.parse).getD fun _ => none

/-- The configuration after a restart. -/
def restarted (env : Builder N V) (file : Option Text) : Items N V :=
  schema.build (merge env (schema.fromFile file))

def load (env : Builder N V) (file : Option Text) : State N V Text :=
  ⟨env, schema.fromFile file, schema.restarted env file, file⟩

variable (s : State N V Text) (o : Outcome)

/-- An update takes effect before it is written. -/
def save (usr : Builder N V) : Reply N V Text :=
  let config := schema.build (merge s.env usr)
  if !o.valid then (.error .validation, s)
  else if !o.stored then (.error .storage, { s with usr, config })
  else (.ok (), { s with usr, config, file := some (schema.render usr) })

/-- The values an update stores. -/
def posted (other : Builder N V) (ignoreNonEditable : Bool) : Builder N V :=
  if ignoreNonEditable then schema.clearNonEditable other else other

def updateConfig (other : Builder N V) (ignoreNonEditable : Bool) : Reply N V Text :=
  schema.save s o (schema.posted other ignoreNonEditable)

def updateConfigPartial (other : Builder N V) : Reply N V Text :=
  schema.updateConfig s o (merge s.usr other) false

def deleteUserConfig : Reply N V Text :=
  if !o.stored then (.error .storage, s)
  else (.ok (), { s with usr := fun _ => none, config := schema.build s.env, file := none })

/-- The key, which is drawn and saved where there is none, and how that went. -/
def getDuoAkey (drawn : V) : V × Reply N V Text :=
  match s.config schema.duoAkey with
  | some akey => (akey, .ok (), s)
  | none => (drawn, schema.updateConfigPartial s o
      (Function.update (fun _ => none) schema.duoAkey (some drawn)))

def step : Call N V → Reply N V Text
  | .updateConfig other ignoreNonEditable => schema.updateConfig s o other ignoreNonEditable
  | .getDuoAkey drawn => (schema.getDuoAkey s o drawn).2
  | .deleteUserConfig => schema.deleteUserConfig s o

/-- The property of every call of a run, in the state it is made in. -/
def Along (P : State N V Text → Outcome → Call N V → Prop) (s : State N V Text) :
    List (Outcome × Call N V) → Prop
  | [] => True
  | (o, call) :: calls => P s o call ∧ Along P (schema.step s o call).2 calls

/-! ## Memory and file -/

def Agrees : Prop := s.config = schema.restarted s.env s.file

/-- Memory and file agree after the call, and one that fails changes neither. -/
def Faithful (call : Call N V) : Prop :=
  schema.Agrees (schema.step s o call).2 ∧ ((schema.step s o call).1 ≠ .ok () →
    (schema.step s o call).2.config = s.config ∧ (schema.step s o call).2.file = s.file)

/-- The values that the call saves, if it does. -/
def saves : Call N V → Option (Builder N V)
  | .updateConfig other ignoreNonEditable => some (schema.posted other ignoreNonEditable)
  | .getDuoAkey drawn => if (s.config schema.duoAkey).isSome then none
      else some (merge s.usr (Function.update (fun _ => none) schema.duoAkey (some drawn)))
  | .deleteUserConfig => none

/-- The call changes the running configuration and fails to write the file. -/
def Unsaved (call : Call N V) : Prop :=
  ∃ usr, schema.saves s call = some usr ∧ o.valid = true ∧ o.stored = false ∧
    schema.build (merge s.env usr) ≠ s.config

variable {schema s o} {call : Call N V}

theorem step_of_saves {usr} (h : schema.saves s call = some usr) :
    schema.step s o call = schema.save s o usr := by
  cases call with
  | updateConfig => rw [← Option.some.inj h]; rfl
  | deleteUserConfig => cases h
  | getDuoAkey =>
    cases hkey : s.config schema.duoAkey with
    | some => simp [saves, hkey] at h
    | none =>
      simp only [saves, hkey] at h
      cases h
      simp [step, getDuoAkey, hkey, updateConfigPartial, updateConfig, posted]

/-- A call that saves nothing stays or deletes the file. -/
theorem faithful_of_not_saves (hs : schema.Agrees s) (h : schema.saves s call = none) :
    schema.Faithful s o call := by
  cases call with
  | updateConfig => cases h
  | getDuoAkey =>
    cases hkey : s.config schema.duoAkey with
    | none => simp [saves, hkey] at h
    | some => simp [Faithful, step, getDuoAkey, hkey, hs]
  | deleteUserConfig =>
    have hempty : merge s.env (fun _ => none) = s.env := by
      funext n
      simp [merge]
    cases hstored : o.stored with
    | false => simp [Faithful, step, deleteUserConfig, hstored, hs]
    | true => simp [Faithful, step, deleteUserConfig, hstored, Agrees, restarted, fromFile, hempty]

theorem faithful_iff (hs : schema.Agrees s) :
    schema.Faithful s o call ↔ ¬ schema.Unsaved s o call := by
  cases hsaves : schema.saves s call with
  | none => simp [Unsaved, hsaves, faithful_of_not_saves hs hsaves]
  | some =>
    simp only [Faithful, step_of_saves hsaves, save, Unsaved, hsaves]
    cases o.valid with
    | false => simp [hs]
    | true =>
      cases o.stored with
      | true => simp [Agrees, restarted, fromFile, schema.parse_render]
      | false =>
        have hrestart : s.config = schema.restarted s.env s.file := hs
        simp [Agrees, hrestart]

/-- **Memory and file agree** along exactly the runs in which no call changes the running
configuration and fails to write the file. -/
theorem faithful_along_iff (schema : Schema N V Text) (env : Builder N V) (file : Option Text)
    (calls : List (Outcome × Call N V)) :
    schema.Along schema.Faithful (schema.load env file) calls ↔
      schema.Along (fun s o call => ¬ schema.Unsaved s o call) (schema.load env file) calls := by
  have hall : ∀ s, schema.Agrees s → (schema.Along schema.Faithful s calls ↔
      schema.Along (fun s o call => ¬ schema.Unsaved s o call) s calls) := by
    induction calls with
    | nil => exact fun _ _ => Iff.rfl
    | cons call calls ih =>
      intro s hs
      simp only [Along, ← faithful_iff hs]
      exact and_congr_right fun h => ih _ h.1
  exact hall _ rfl

/-- Three of the settings: one to edit, one derived from it where it is not given (a domain without
a path is its own origin), and the key. -/
def sample : Schema String String (Builder String String) where
  settings := [
    ⟨"domain", true, fun value _ => value.getD "http://localhost"⟩,
    ⟨"domain_origin", false, fun value config => value <|> config "domain"⟩,
    ⟨"_duo_akey", false, fun value _ => value⟩]
  duoAkey := "_duo_akey"
  finish _ config := config
  render := id
  parse := some
  parse_render _ := rfl

/-- A key that could not be written is in force until the next restart. -/
theorem faithful_along_not_unwritten : ¬ sample.Along sample.Faithful
    (sample.load (fun _ => none) none) [(⟨true, false⟩, .getDuoAkey "key")] := by
  intro h
  have hkey := congrFun h.1.1 "_duo_akey"
  revert hkey
  decide

/-! ## What the admin page cannot edit -/

def NonEditable (schema : Schema N V Text) (n : N) : Prop :=
  ∃ setting ∈ schema.settings, setting.name = n ∧ setting.editable = false

/-- What is given for the editable settings does not matter to this one. -/
def Underived (schema : Schema N V Text) (n : N) : Prop :=
  ∀ b b', (∀ m, schema.NonEditable m → b m = b' m) → schema.build b n = schema.build b' n

theorem clearNonEditable_eq {other : Builder N V} {n} (h : schema.NonEditable n) :
    schema.clearNonEditable other n = none := by
  obtain ⟨setting, hmem, hname, heditable⟩ := h
  refine if_pos (List.any_eq_true.mpr ⟨setting, hmem, ?_⟩)
  simp [hname, heditable]

/-- **Saving on the admin page** keeps the settings that it cannot edit, and that are not derived
from others, exactly where they have what the environment alone gives them. -/
theorem updateConfig_keeps_iff {other} (h : (schema.updateConfig s o other true).1 = .ok ()) :
    (∀ n, schema.NonEditable n → schema.Underived n →
      (schema.updateConfig s o other true).2.config n = s.config n) ↔
    ∀ n, schema.NonEditable n → schema.Underived n → s.config n = schema.build s.env n := by
  have hconfig : (schema.updateConfig s o other true).2.config =
      schema.build (merge s.env (schema.clearNonEditable other)) := by
    simp only [updateConfig, save, posted] at h ⊢
    split at h
    · cases h
    · split at h
      · cases h
      · simp_all
  refine forall_congr' fun n => forall_congr' fun _ => forall_congr' fun hunderived => ?_
  have hsame : schema.build (merge s.env (schema.clearNonEditable other)) n =
      schema.build s.env n := by
    refine hunderived _ _ fun m hm => ?_
    simp [merge, clearNonEditable_eq hm]
  rw [hconfig, hsame, eq_comm]

theorem sample_nonEditable : sample.NonEditable "_duo_akey" :=
  ⟨⟨"_duo_akey", false, fun value _ => value⟩, by simp [sample], rfl, rfl⟩

theorem sample_underived : sample.Underived "_duo_akey" := by
  intro b b' h
  simpa [build, sample] using h "_duo_akey" sample_nonEditable

/-- A key of the environment is kept, whatever the page posts for it. -/
theorem updateConfig_keeps_iff_environment :
    let s := sample.load (fun n => if n = "_duo_akey" then some "key" else none) none
    let saved := sample.updateConfig s ⟨true, true⟩
      (fun n => if n = "_duo_akey" then some "other" else some "https://vault.example.com") true
    saved.1 = .ok () ∧ saved.2.config "domain" = some "https://vault.example.com" ∧
      saved.2.config "_duo_akey" = s.config "_duo_akey" := by
  refine ⟨rfl, by decide, (updateConfig_keeps_iff rfl).mpr ?_ _ sample_nonEditable sample_underived⟩
  intro n _ _
  rfl

/-- A generated key is lost when the page is saved. -/
theorem updateConfig_keeps_not_generated :
    let s := (sample.step (sample.load (fun _ => none) none) ⟨true, true⟩ (.getDuoAkey "key")).2
    let saved := sample.updateConfig s ⟨true, true⟩ (fun _ => none) true
    saved.1 = .ok () ∧ sample.NonEditable "_duo_akey" ∧ sample.Underived "_duo_akey" ∧
      s.config "_duo_akey" = some "key" ∧ saved.2.config "_duo_akey" = none :=
  ⟨rfl, sample_nonEditable, sample_underived, by decide, by decide⟩

end Schema
end VaultServer.Config
