import Mathlib.Data.List.Infix
import CertGate.Environment.File

namespace CertGate.Environment

theorem get?_setNew (e : Environment) (name value k : String) :
    (e.setNew name value).get? k = (e.get? k).or (if k = name then some value else none) := by
  rw [setNew]
  split
  · next h =>
    by_cases hk : k = name
    · rw [hk, Option.or_of_isSome h]
    · simp [hk]
  · next h =>
    rw [set, if_neg h]
    by_cases hk : k = name
    · simp_all [get?, List.lookup_append]
    · simp [get?, List.lookup_append, List.lookup_cons, beq_false_of_ne hk, hk]

theorem get?_setNew_of_ne (e : Environment) {name k : String} (h : k ≠ name) (value : String) :
    (e.setNew name value).get? k = e.get? k := by
  simp [get?_setNew, h]

/-- Whether a text denotes a value does not depend on the variables that it refers to. -/
theorem isSome_value? (s t : Scope) (m : Mode) (cs : List Char) :
    (value? s m cs).isSome = (value? t m cs).isSome := by
  fun_induction value? s m cs with
  | case9 inQuotes c cs ih =>
    cases hc : unescaped? c <;> simp_all [value?, Option.isSome_bind]
  | case15 inQuotes name c cs hletter hbrace hdollar ih =>
    rw [value?, if_neg hletter, if_neg hbrace, if_neg hdollar, Option.isSome_map, Option.isSome_map, ih]
  | _ => simp_all [value?]

theorem map_definition? (s t : Scope) (line : List Char) :
    (definition? s line).map (·.map (·.1)) = (definition? t line).map (·.map (·.1)) := by
  rw [definition?, definition?]
  dsimp only
  split
  · rfl
  · cases split? (Text.trimStart (Text.trimEnd line)) with
    | none => rfl
    | some d =>
      by_cases hd : (Text.trimStart d.2).head? = some '#'
      · simp [hd]
      · have hsome := isSome_value? s t .bare (Text.trimStart d.2)
        cases hs : value? s .bare (Text.trimStart d.2) <;>
          cases ht : value? t .bare (Text.trimStart d.2) <;> simp_all

/-- The names that are defined on lines that are read, up to the first fault. -/
def names : List (Option (List Char)) → List String
  | [] | none :: _ => []
  | some line :: rest =>
    match definition? ⟨{}, []⟩ line with
    | none => []
    | some none => names rest
    | some (some (name, _)) => name :: names rest

inductive Scope.Gives (name value : String) : Scope → List (Option (List Char)) → Prop
  | here {s : Scope} {line : List Char} {rest : List (Option (List Char))}
      (h : definition? s line = some (some (name, value))) : Gives name value s (some line :: rest)
  | past {s : Scope} {line : List Char} {rest : List (Option (List Char))}
      (h : definition? s line = some none) (hrest : Gives name value s rest) :
      Gives name value s (some line :: rest)
  | after {s : Scope} {line : List Char} {rest : List (Option (List Char))} {other v : String}
      (h : definition? s line = some (some (other, v))) (hne : name ≠ other)
      (hrest : Gives name value ⟨s.process.setNew other v, (other, v) :: s.file⟩ rest) :
      Gives name value s (some line :: rest)

theorem names_cons (s : Scope) (line : List Char) (rest : List (Option (List Char))) :
    names (some line :: rest) =
      match definition? s line with
      | none => []
      | some none => names rest
      | some (some (name, _)) => name :: names rest := by
  have h := map_definition? s ⟨{}, []⟩ line
  rw [names]
  grind

theorem get?_load_of_some {s : Scope} {name value : String} (h : s.process.get? name = some value)
    (lines : List (Option (List Char))) : (s.load lines).get? name = some value := by
  fun_induction Scope.load s lines with
  | case5 s line rest other v hd ih =>
    exact ih (by simp [get?_setNew, h])
  | _ => simp_all

theorem get?_load {s : Scope} {name : String} (h : s.process.get? name = none) (value : String)
    (lines : List (Option (List Char))) :
    (s.load lines).get? name = some value ↔ s.Gives name value lines := by
  fun_induction Scope.load s lines with
  | case1 s => simpa [h] using nofun
  | case2 s rest => simpa [h] using nofun
  | case3 s line rest hd =>
    refine iff_of_false (by simp [h]) fun hg ↦ ?_
    cases hg <;> simp_all
  | case4 s line rest hd ih =>
    rw [ih h]
    refine ⟨.past hd, fun hg ↦ ?_⟩
    cases hg <;> simp_all
  | case5 s line rest other v hd ih =>
    -- What is set already stays, so that only the first definition of a name counts.
    by_cases hname : name = other
    · have hset : (s.process.setNew other v).get? name = some v := by
        rw [get?_setNew, h, Option.none_or, if_pos hname]
      rw [get?_load_of_some hset, Option.some.injEq]
      refine ⟨fun hv ↦ .here (by rw [hd, hname, hv]), fun hg ↦ ?_⟩
      cases hg <;> simp_all
    · rw [ih (by rw [get?_setNew_of_ne s.process hname, h])]
      refine ⟨.after hd hname, fun hg ↦ ?_⟩
      cases hg <;> simp_all

theorem mem_names_iff {name : String} {s : Scope} {lines : List (Option (List Char))} :
    name ∈ names lines ↔ ∃ value, s.Gives name value lines := by
  constructor
  · intro h
    induction lines generalizing s with
    | nil => cases h
    | cons line rest ih =>
      cases line with
      | none => cases h
      | some line =>
        rw [names_cons s] at h
        split at h
        · cases h
        · next hd =>
          obtain ⟨value, hv⟩ := ih h
          exact ⟨value, .past hd hv⟩
        · next other v hd =>
          by_cases hname : name = other
          · exact ⟨v, .here (hname ▸ hd)⟩
          · obtain ⟨value, hv⟩ := ih ((List.mem_cons.1 h).resolve_left hname)
            exact ⟨value, .after hd hname hv⟩
  · rintro ⟨value, hv⟩
    induction hv with
    | @here s line rest hd =>
      rw [names_cons s, hd]
      exact List.mem_cons_self
    | @past s line rest hd hrest ih => rwa [names_cons s, hd]
    | @after s line rest other v hd hne hrest ih =>
      rw [names_cons s, hd]
      exact List.mem_cons_of_mem _ ih

end CertGate.Environment
