import CertGate.AuthMethod
import CertGate.Binding

namespace CertGate

namespace Datum

def blank : Datum → Datum
  | text _ => text ""
  | d => d

def masked (names : List String) : Datum → Datum
  | record fields => record (fields.map fun f ↦ (f.1, if f.1 ∈ names then f.2.blank else f.2))
  | d => d

def without (names : List String) : Datum → Datum
  | record fields => record (fields.filter (·.1 ∉ names))
  | d => d

variable {names declared : List String} {fields : List (String × Datum)} {name : String}

def slotOf (fields : List (String × Datum)) (name : String) : Slot :=
  (fields.lookup name).elim .missing .given

def Slot.blank : Slot → Slot
  | given d => given d.blank
  | missing => missing
  | cutOff => cutOff

theorem strictSlots?_record (declared : List String) (fields : List (String × Datum)) :
    (record fields).strictSlots? declared =
      if declared.all fun name ↦ fields.countP (·.1 == name) ≤ 1 then some (declared.map (slotOf fields))
      else none := rfl

theorem lookup_map (f : String → Datum → Datum) (fields : List (String × Datum)) (name : String) :
    (fields.map fun p ↦ (p.1, f p.1 p.2)).lookup name = (fields.lookup name).map (f name) := by
  induction fields with
  | nil => rfl
  | cons p fields ih =>
    obtain ⟨key, d⟩ := p
    by_cases h : name = key
    · subst h
      simp
    · have hb : (name == key) = false := beq_false_of_ne h
      simp only [List.map_cons, List.lookup_cons, hb, ih]

theorem lookup_filter (h : name ∉ names) :
    (fields.filter (·.1 ∉ names)).lookup name = fields.lookup name := by
  induction fields with
  | nil => rfl
  | cons p fields ih =>
    obtain ⟨key, d⟩ := p
    by_cases hk : key ∈ names
    · have hb : (name == key) = false := beq_false_of_ne fun he ↦ h (he ▸ hk)
      rw [List.filter_cons_of_neg (by simpa using hk), List.lookup_cons, hb, ih]
    · rw [List.filter_cons_of_pos (by simpa using hk), List.lookup_cons, List.lookup_cons, ih]

theorem slotOf_masked (names : List String) (fields : List (String × Datum)) :
    slotOf (fields.map fun f ↦ (f.1, if f.1 ∈ names then f.2.blank else f.2)) =
      fun name ↦ if name ∈ names then (slotOf fields name).blank else slotOf fields name := by
  funext name
  rw [slotOf, slotOf, lookup_map fun n d ↦ if n ∈ names then d.blank else d]
  cases fields.lookup name <;> split <;> rfl

theorem strictSlots?_masked (names declared : List String) (fields : List (String × Datum)) :
    ((record fields).masked names).strictSlots? declared =
      if declared.all fun name ↦ fields.countP (·.1 == name) ≤ 1 then
        some (declared.map fun name ↦
          if name ∈ names then (slotOf fields name).blank else slotOf fields name)
      else none := by
  rw [masked, strictSlots?_record, slotOf_masked]
  simp only [List.countP_map, Function.comp_def]

theorem strictSlots?_without (h : ∀ name ∈ declared, name ∉ names) (d : Datum) :
    (d.without names).strictSlots? declared = d.strictSlots? declared := by
  cases d with
  | record fields =>
    have hcount (name : String) (hn : name ∉ names) :
        (fields.filter (·.1 ∉ names)).countP (·.1 == name) = fields.countP (·.1 == name) := by
      rw [List.countP_filter]
      refine List.countP_congr fun f _ ↦ ?_
      simp only [Bool.and_eq_true, beq_iff_eq, decide_eq_true_eq, and_iff_left_iff_imp]
      rintro rfl
      exact hn
    have hall : (declared.all fun name ↦ (fields.filter (·.1 ∉ names)).countP (·.1 == name) ≤ 1) =
        declared.all fun name ↦ fields.countP (·.1 == name) ≤ 1 := by
      rw [Bool.eq_iff_iff, List.all_eq_true, List.all_eq_true]
      exact forall₂_congr fun name hn ↦ by rw [hcount name (h name hn)]
    have hslots : declared.map (slotOf (fields.filter (·.1 ∉ names))) = declared.map (slotOf fields) :=
      List.map_congr_left fun name hn ↦ by rw [slotOf, slotOf, lookup_filter (h name hn)]
    rw [without, strictSlots?_record, strictSlots?_record, hall, hslots]
  | _ => rfl

theorem Slot.orElse_blank (s : Slot) :
    s.blank.orElse "" string? = (s.orElse "" string?).map fun _ ↦ "" := by
  cases s with
  | given d => cases d <;> rfl
  | missing | cutOff => rfl

end Datum

open Datum

def ServiceType.anonymous (t : ServiceType) : ServiceType := { t with uuid := "", createdOn := "" }

def Binding.anonymous (b : Binding) : Binding :=
  { b with name := "", uuid := "", createdOn := "", lastAuth := "" }

theorem ServiceType.map_ofDatum?_masked (d : Datum) :
    (ofDatum? (d.masked ["uuid", "created_on"])).map anonymous = (ofDatum? d).map anonymous := by
  cases d with
  | record fields =>
    rw [ofDatum?, ofDatum?, strictSlots?_masked, strictSlots?_record]
    split
    · simp [Slot.orElse_blank, Option.bind_map, Option.map_bind, Function.comp_def, anonymous]
    · rfl
  | _ => rfl

theorem Binding.map_ofDatum?_masked (d : Datum) :
    (ofDatum? (d.masked ["uuid", "created_on", "last_auth", "name"])).map anonymous =
      (ofDatum? d).map anonymous := by
  cases d with
  | record fields =>
    rw [ofDatum?, ofDatum?, strictSlots?_masked, strictSlots?_record]
    split
    · simp [Slot.orElse_blank, Option.bind_map, Option.map_bind, Function.comp_def, anonymous]
    · rfl
  | _ => rfl

theorem AuthMethod.Patch.ofDatum?_without (d : Datum) :
    ofDatum? (d.without ["uuid", "created_on", "type", "service_uuid"]) = ofDatum? d := by
  rw [ofDatum?, ofDatum?, strictSlots?_without (by decide)]

end CertGate
