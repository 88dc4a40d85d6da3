import CertGate.Keyed

namespace CertGate

/-- A number is an integer, or else the double with the given bits. -/
inductive Number where
  | int (value : Int)
  | double (bits : UInt64)
  deriving DecidableEq, Inhabited

/-- The fields of a record stand in document order, repeated names included. `illegible` is a value
that was well formed but denotes nothing: a number out of range, a text that is not Unicode. -/
inductive Datum where
  | null
  | bool (value : Bool)
  | number (value : Number)
  | text (value : String)
  | list (items : List Datum)
  | record (fields : List (String × Datum))
  | illegible
  deriving Inhabited

namespace Datum

mutual

def same : Datum → Datum → Bool
  | null, null | illegible, illegible => true
  | bool a, bool b => a == b
  | number a, number b => a == b
  | text a, text b => a == b
  | list as, list bs => sameItems as bs
  | record fs, record gs => sameFields fs gs
  | _, _ => false

def sameItems : List Datum → List Datum → Bool
  | [], [] => true
  | d :: ds, e :: es => same d e && sameItems ds es
  | _, _ => false

def sameFields : List (String × Datum) → List (String × Datum) → Bool
  | [], [] => true
  | (m, d) :: fs, (n, e) :: gs => m == n && same d e && sameFields fs gs
  | _, _ => false

end

mutual

theorem same_iff (d e : Datum) : same d e = true ↔ d = e := by
  cases d with
  | list as => cases e <;> simp [same, sameItems_iff as]
  | record fs => cases e <;> simp [same, sameFields_iff fs]
  | _ => cases e <;> simp [same]

theorem sameItems_iff (ds es : List Datum) : sameItems ds es = true ↔ ds = es := by
  cases ds with
  | nil => cases es <;> simp [sameItems]
  | cons d ds => cases es <;> simp [sameItems, same_iff d, sameItems_iff ds]

theorem sameFields_iff (fs gs : List (String × Datum)) : sameFields fs gs = true ↔ fs = gs := by
  match fs, gs with
  | [], [] | [], _ :: _ | _ :: _, [] => simp [sameFields]
  | (m, d) :: fs, (n, e) :: gs => simp [sameFields, same_iff d, sameFields_iff fs]

end

instance : DecidableEq Datum := fun d e ↦ decidable_of_iff _ (same_iff d e)

def ofStrings (ss : List String) : Datum := list (ss.map text)

def string? : Datum → Option String
  | text s => some s
  | _ => none

def bool? : Datum → Option Bool
  | bool b => some b
  | _ => none

def natBelow? (bound : Nat) : Datum → Option Nat
  | number (.int n) => if 0 ≤ n ∧ n < bound then some n.toNat else none
  | _ => none

def listOf? {α : Type} (read : Datum → Option α) : Datum → Option (List α)
  | list items => items.mapM read
  | _ => none

/-- A record read as a table; the last of the fields with one name counts. -/
def tableOf? {α : Type} (read : Datum → Option α) : Datum → Option (Table α)
  | record fields =>
    (fields.mapM fun f ↦ (read f.2).map fun v ↦ (f.1, v)).map Keyed.ofList
  | _ => none

def nullable? {α : Type} (read : Datum → Option α) : Datum → Option (Option α)
  | null => some none
  | d => (read d).map some

def put (name : String) (d : Datum) : List (String × Datum) → List (String × Datum)
  | [] => [(name, d)]
  | f :: fs => if f.1 = name then (name, d) :: fs else f :: put name d fs

def latest (fields : List (String × Datum)) : List (String × Datum) :=
  fields.foldl (fun fs f ↦ put f.1 f.2 fs) []

mutual

/-- One value on top of another: two records are joined field by field, and else the upper value
takes the place of the lower one. -/
def layer (lower : Datum) : Datum → Datum
  | record fields =>
    match lower with
    | record under => record (layerFields under fields)
    | _ => record fields
  | d => d

def layerFields (under : List (String × Datum)) : List (String × Datum) → List (String × Datum)
  | [] => under
  | (name, d) :: fs =>
    let d :=
      match under.lookup name with
      | some lower => layer lower d
      | none => d
    layerFields (put name d under) fs

end

inductive Slot where
  | given (value : Datum)
  | missing
  /-- The list that stands for the record is too short to hold the field. -/
  | cutOff

namespace Slot

variable {α : Type}

def required (read : Datum → Option α) : Slot → Option α
  | given d => read d
  | missing | cutOff => none

def orElse (default : α) (read : Datum → Option α) : Slot → Option α
  | given d => read d
  | missing | cutOff => some default

/-- A field that may be null or be left out of a record; a list has to reach it all the same. -/
def optional (read : Datum → Option α) : Slot → Option (Option α)
  | given d => nullable? read d
  | missing => some none
  | cutOff => none

end Slot

/-- The declared fields of a record, by name. A record may have further fields, but none of the
declared ones twice; in its place may stand the list of its values in the order of declaration. -/
def slots? (names : List String) : Datum → Option (List Slot)
  | record fields =>
    if names.all fun name ↦ fields.countP (·.1 == name) ≤ 1 then
      some (names.map fun name ↦ (fields.lookup name).elim .missing .given)
    else none
  | list items =>
    some (items.take names.length |>.map .given |> fun given ↦
      given ++ List.replicate (names.length - items.length) .cutOff)
  | _ => none

def strictSlots? (names : List String) (d : Datum) : Option (List Slot) :=
  match d with
  | list items => if items.length ≤ names.length then slots? names d else none
  | _ => slots? names d

end Datum

end CertGate
