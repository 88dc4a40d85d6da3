import Mathlib.Data.List.Infix
import CertGate.Proofs.Environment.File
import CertGate.Proofs.Result
import CertGate.Settings.Layers

namespace CertGate

namespace Datum

def at? : (path : List String) → Datum → Option Datum
  | [], d => some d
  | name :: path, .record fields => (fields.lookup name).bind (at? path)
  | _ :: _, _ => none

/-- A record that has nothing at the path, before its end or below it. -/
def Misses : (path : List String) → Datum → Prop
  | name :: path, .record fields => ∀ f ∈ fields, f.1 = name → Misses path f.2
  | _, _ => False

variable {path : List String} {lower upper d : Datum}

theorem lookup_cons (f : String × Datum) (fields : List (String × Datum)) (k : String) :
    (f :: fields).lookup k = if k = f.1 then some f.2 else fields.lookup k := by
  obtain ⟨n, d⟩ := f
  by_cases h : k = n
  · simp [h]
  · simp [List.lookup_cons, beq_false_of_ne h, h]

theorem lookup_put (name k : String) (d : Datum) (fields : List (String × Datum)) :
    (put name d fields).lookup k = if k = name then some d else fields.lookup k := by
  induction fields with
  | nil => rw [put, lookup_cons]
  | cons f fields ih =>
    rw [put]
    split
    · next h => grind [lookup_cons]
    · next h => grind [lookup_cons]

theorem mem_put {name : String} {f : String × Datum} {fields : List (String × Datum)}
    (h : f ∈ put name d fields) : f = (name, d) ∨ f ∈ fields := by
  induction fields with
  | nil => exact .inl (List.mem_singleton.1 h)
  | cons g fields ih =>
    rw [put] at h
    split at h
    · grind
    · grind

theorem mem_of_lookup {name : String} {fields : List (String × Datum)} (h : fields.lookup name = some d) :
    (name, d) ∈ fields := by
  induction fields with
  | nil => cases h
  | cons f fields ih =>
    rw [lookup_cons] at h
    grind

theorem at?_of_misses (h : d.Misses path) : d.at? path = none := by
  induction path generalizing d with
  | nil => cases h
  | cons name path ih =>
    cases d with
    | record fields =>
      rw [at?, Option.bind_eq_none_iff]
      intro d hd
      exact ih (h _ (mem_of_lookup hd) rfl)
    | _ => rfl

theorem at?_layer (h : upper.Misses path) (lower : Datum) :
    (layer lower upper).at? path = lower.at? path := by
  induction path generalizing lower upper with
  | nil => cases h
  | cons name path ih =>
    cases upper with
    | record fields =>
      cases lower with
      | record under =>
        rw [layer, at?, at?]
        -- Only a field of this name is looked at again, and it misses the rest of the path.
        induction fields generalizing under with
        | nil => rw [layerFields]
        | cons f fields ihf =>
          rw [layerFields, ihf (List.forall_mem_cons.1 h).2, lookup_put]
          split
          · next hn =>
            have hf := h f List.mem_cons_self hn.symm
            rw [hn]
            cases under.lookup f.1 with
            | none => simp [at?_of_misses hf]
            | some l => simp [ih hf l]
          · rfl
      | _ => exact at?_of_misses h
    | _ => cases h

theorem Misses.layer (hl : lower.Misses path) (hu : upper.Misses path) :
    (layer lower upper).Misses path := by
  induction path generalizing lower upper with
  | nil => cases hu
  | cons name path ih =>
    cases upper with
    | record fields =>
      cases lower with
      | record under =>
        rw [Datum.layer]
        induction fields generalizing under with
        | nil => rwa [layerFields]
        | cons f fields ihf =>
          rw [layerFields]
          refine ihf (List.forall_mem_cons.1 hu).2 _ ?_
          intro g hg hname
          obtain rfl | hg := mem_put hg
          · have hf := hu f List.mem_cons_self hname
            cases hlook : under.lookup f.1 with
            | none => exact hf
            | some l => exact ih (hl _ (mem_of_lookup hlook) hname) hf
          · exact hl g hg hname
      | _ => exact hu
    | _ => cases hu

end Datum

namespace Settings

/-- The variable is for the setting, for a part of it or for what it is a part of. -/
def Touches (name : String) (setting : List String) : Prop :=
  ∃ path, Variable.path? name = some path ∧ (path <+: setting ∨ setting <+: path)

theorem misses_nested {path setting : List String} (h : ¬ path <+: setting) (h' : ¬ setting <+: path)
    (d : Datum) : (Variable.nested path d).Misses setting := by
  induction path generalizing setting with
  | nil => exact absurd List.nil_prefix h
  | cons name path ih =>
    cases setting with
    | nil => exact absurd List.nil_prefix h'
    | cons k setting =>
      refine List.forall_mem_singleton.2 ?_
      rintro rfl
      rw [List.prefix_cons_inj] at h h'
      exact ih h h'

theorem misses_record {e : Environment} {setting : List String} (hsetting : setting ≠ [])
    (h : ∀ v ∈ e.entries, ¬ Touches v.1 setting) : (Variable.record e).Misses setting := by
  obtain ⟨entries⟩ := e
  have hstart : (Datum.record []).Misses setting := by
    cases setting with
    | nil => exact absurd rfl hsetting
    | cons => exact List.forall_mem_nil _
  rw [Variable.record]
  dsimp only at h ⊢
  generalize Datum.record [] = lower at hstart
  induction entries generalizing lower with
  | nil => exact hstart
  | cons v entries ih =>
    rw [List.foldl_cons]
    refine ih (List.forall_mem_cons.1 h).2 _ ?_
    split
    · next path hpath =>
      have hv := (List.forall_mem_cons.1 h).1
      refine hstart.layer (misses_nested ?_ ?_ _)
      · exact fun hp ↦ hv ⟨path, hpath, .inl hp⟩
      · exact fun hp ↦ hv ⟨path, hpath, .inr hp⟩
    · exact hstart

variable {fs : FileSystem} {e : Environment} {name value : String}

def envFileLines (fs : FileSystem) (e : Environment) (path : String) : List (Option (List Char)) :=
  match fs.read (envFilePath e path) with
  | .ok content => Environment.logicalLines content
  | .error _ => []

theorem loadEnvFile_eq (fs : FileSystem) (e : Environment) (path : String) :
    loadEnvFile fs e path = Environment.Scope.load ⟨e, []⟩ (envFileLines fs e path) := by
  rw [loadEnvFile, envFileLines]
  cases fs.read (envFilePath e path) with
  | ok content => rfl
  | error _ => exact Environment.Scope.load.eq_1 ⟨e, []⟩ |>.symm

/-- Of the listed files the first that defines the name gives it the value. -/
inductive FirstGives (fs : FileSystem) (name value : String) : Environment → List String → Prop
  | here {e : Environment} {path : String} {rest : List String}
      (h : Environment.Scope.Gives name value ⟨e, []⟩ (envFileLines fs e path)) :
      FirstGives fs name value e (path :: rest)
  | later {e : Environment} {path : String} {rest : List String}
      (h : name ∉ Environment.names (envFileLines fs e path))
      (hrest : FirstGives fs name value (loadEnvFile fs e path) rest) :
      FirstGives fs name value e (path :: rest)

theorem get?_loadEnvFiles_of_some (h : e.get? name = some value) (files : List String) :
    (files.foldl (loadEnvFile fs) e).get? name = some value := by
  induction files generalizing e with
  | nil => exact h
  | cons path files ih =>
    refine ih ?_
    rw [loadEnvFile_eq]
    exact Environment.get?_load_of_some h _

theorem get?_loadEnvFiles (h : e.get? name = none) (files : List String) :
    (files.foldl (loadEnvFile fs) e).get? name = some value ↔ FirstGives fs name value e files := by
  induction files generalizing e with
  | nil => simpa [h] using nofun
  | cons path files ih =>
    have hfile (v : String) := Environment.get?_load (s := ⟨e, []⟩) h v (envFileLines fs e path)
    rw [← loadEnvFile_eq] at hfile
    rw [List.foldl_cons]
    by_cases hname : name ∈ Environment.names (envFileLines fs e path)
    · obtain ⟨v, hv⟩ := Environment.mem_names_iff.1 hname
      have hset := (hfile v).2 hv
      rw [get?_loadEnvFiles_of_some hset, ← hset, hfile value]
      refine ⟨.here, fun hg ↦ ?_⟩
      cases hg with
      | here hg => exact hg
      | later hout => exact absurd hname hout
    · have hunset : (loadEnvFile fs e path).get? name = none := by
        refine Option.eq_none_iff_forall_ne_some.2 fun v hv ↦ hname ?_
        exact Environment.mem_names_iff.2 ⟨v, (hfile v).1 hv⟩
      rw [ih hunset]
      refine ⟨.later hname, fun hg ↦ ?_⟩
      cases hg with
      | here hg => exact absurd (Environment.mem_names_iff.2 ⟨value, hg⟩) hname
      | later _ hrest => exact hrest

theorem ofLayers_eq_ok_iff {path : Option String} {s : Settings} : ofLayers fs path e = .ok s ↔
    ∃ file, fileRecord fs path = .ok file ∧ ofDatum? (Datum.layer file (Variable.record e)) = some s := by
  rw [ofLayers, Result.bind_eq_ok_iff]
  refine exists_congr fun file ↦ and_congr_right fun _ ↦ ?_
  dsimp only
  split <;> simp_all

theorem fst_load (fs : FileSystem) (path : Option String) (e : Environment) :
    (load fs path e).map (·.1) = ofLayers fs path e := by
  rw [load]
  cases ofLayers fs path e <;> rfl

theorem fileRecord_congr {fs' : FileSystem} {path : Option String} (h : ∀ p ∈ path,
    fs'.isThere p = fs.isThere p ∧ fs'.isFile p = fs.isFile p ∧ fs'.read p = fs.read p) :
    fileRecord fs' path = fileRecord fs path := by
  cases path with
  | none => rfl
  | some p =>
    obtain ⟨hthere, hfile, hread⟩ := h p rfl
    rw [fileRecord, fileRecord, hthere, hfile, hread]

/-- The listed files do not take part in the settings. What no variable is for is as the file of settings
has it, or has its default, whatever a listed file says. -/
theorem load_leaves_files_out (fs : FileSystem) (path : Option String) (e : Environment) :
    (∀ fs' : FileSystem, (∀ p ∈ path, fs'.isThere p = fs.isThere p ∧ fs'.isFile p = fs.isFile p ∧
        fs'.read p = fs.read p) → (load fs' path e).map (·.1) = (load fs path e).map (·.1)) ∧
    ∀ s after, load fs path e = .ok (s, after) →
      (∃ file, fileRecord fs path = .ok file ∧
        let d := Datum.layer file (Variable.record e)
        ofDatum? d = some s ∧
        ∀ setting ≠ [], (∀ v ∈ e.entries, ¬ Touches v.1 setting) → d.at? setting = file.at? setting) ∧
      ∀ name, (∀ value, e.get? name = some value → after.get? name = some value) ∧
        (e.get? name = none →
          ∀ value, after.get? name = some value ↔ FirstGives fs name value e s.envFiles) := by
  refine ⟨fun fs' hfs ↦ ?_, fun s after h ↦ ?_⟩
  · rw [fst_load, fst_load, ofLayers, ofLayers, fileRecord_congr hfs]
  · obtain ⟨_, hs, hafter⟩ := Result.bind_eq_ok_iff.1 h
    cases hafter
    obtain ⟨file, hfile, hs⟩ := ofLayers_eq_ok_iff.1 hs
    refine ⟨⟨file, hfile, hs, fun setting hne ht ↦ ?_⟩, fun name ↦ ⟨fun value hv ↦ ?_, fun hv value ↦ ?_⟩⟩
    · exact Datum.at?_layer (misses_record hne ht) file
    · exact get?_loadEnvFiles_of_some hv s.envFiles
    · exact get?_loadEnvFiles hv s.envFiles

theorem load_with_two_tokens :
    let name := "AUTHN_GATEWAY_SERVICE_TOKEN"
    let yaml := Utf8.encode "service_token: yaml\nenv_files: [a.env, b.env]\n"
    let first := Utf8.encode (name ++ "=first\n")
    let second := Utf8.encode (name ++ "=second\n")
    let fs : FileSystem := {
      read := fun path ↦ .ok (if path = "a.env" then first else if path = "b.env" then second else yaml)
      list := fun _ ↦ .error ""
      isFile := fun _ ↦ true
      isThere := fun _ ↦ true }
    let s : Settings := { envFiles := ["a.env", "b.env"], serviceToken := "yaml" }
    load fs (some "gateway.yaml") {} = .ok (s, ⟨[(name, "first")]⟩) ∧
      (({} : Environment).withFile first).get? name = some "first" ∧
      (({} : Environment).withFile second).get? name = some "second" := by
  decide +kernel

end Settings

end CertGate
