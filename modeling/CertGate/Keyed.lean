namespace CertGate

structure Keyed {α : Type} (key : α → String) where
  toList : List α
  sorted : toList.Pairwise fun a b ↦ key a < key b

namespace Keyed

variable {α : Type} {key : α → String}

@[ext]
theorem ext {s t : Keyed key} (h : s.toList = t.toList) : s = t := by
  cases s; cases t; simp_all

instance [DecidableEq α] : DecidableEq (Keyed key) := fun s t ↦
  if h : s.toList = t.toList then .isTrue (ext h) else .isFalse fun e ↦ h (e ▸ rfl)

def empty : Keyed key := ⟨[], .nil⟩

instance : EmptyCollection (Keyed key) := ⟨empty⟩

instance : Inhabited (Keyed key) := ⟨empty⟩

def isEmpty (s : Keyed key) : Bool := s.toList.isEmpty

def get? (s : Keyed key) (k : String) : Option α := s.toList.find? (key · == k)

def contains (s : Keyed key) (k : String) : Bool := s.toList.any (key · == k)

/-- Puts a value before the first larger key, in place of one with the same key. -/
def insertSorted (key : α → String) (a : α) : List α → List α
  | [] => [a]
  | b :: bs =>
    if key a < key b then a :: b :: bs
    else if key a = key b then a :: bs
    else b :: insertSorted key a bs

theorem mem_insertSorted {a b : α} {bs : List α} (h : b ∈ insertSorted key a bs) :
    b = a ∨ b ∈ bs := by
  induction bs with
  | nil => simpa [insertSorted] using h
  | cons c bs ih => grind [insertSorted]

theorem sorted_insertSorted (a : α) {bs : List α}
    (h : bs.Pairwise fun a b ↦ key a < key b) :
    (insertSorted key a bs).Pairwise fun a b ↦ key a < key b := by
  induction bs with
  | nil => simp [insertSorted]
  | cons b bs ih =>
    rw [List.pairwise_cons] at h
    unfold insertSorted
    split
    · next hlt =>
      refine List.pairwise_cons.2 ⟨fun c hc ↦ ?_, List.pairwise_cons.2 h⟩
      rcases List.mem_cons.1 hc with rfl | hc
      · exact hlt
      · exact String.lt_trans hlt (h.1 c hc)
    · split
      · next heq => exact List.pairwise_cons.2 ⟨fun c hc ↦ heq ▸ h.1 c hc, h.2⟩
      · next hlt hne =>
        refine List.pairwise_cons.2 ⟨fun c hc ↦ ?_, ih h.2⟩
        rcases mem_insertSorted hc with rfl | hc
        · exact String.not_le.1 fun hle ↦ hne (String.le_antisymm hle (String.not_lt.1 hlt))
        · exact h.1 c hc

def insert (s : Keyed key) (a : α) : Keyed key :=
  ⟨insertSorted key a s.toList, sorted_insertSorted a s.sorted⟩

def filter (p : α → Bool) (s : Keyed key) : Keyed key := ⟨s.toList.filter p, s.sorted.filter _⟩

def erase (s : Keyed key) (k : String) : Keyed key := s.filter (key · != k)

def ofList (as : List α) : Keyed key := as.foldl insert empty

end Keyed

abbrev Table (α : Type) := Keyed (fun e : String × α ↦ e.1)

namespace Table

variable {α : Type}

def find? (t : Table α) (k : String) : Option α := (t.get? k).map (·.2)

def put (t : Table α) (k : String) (v : α) : Table α := t.insert (k, v)

def keys (t : Table α) : List String := t.toList.map (·.1)

end Table

end CertGate
