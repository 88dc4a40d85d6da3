import CertGate.Proofs.Json.Literals

namespace CertGate.Json

/-- The documents without doubles, and without integers that would be read as doubles. -/
inductive Exact : Datum → Prop where
  | null : Exact .null
  | bool (b : Bool) : Exact (.bool b)
  | int {n : Int} (hlo : -(1 <<< 63) ≤ n) (hhi : n ≤ maxWord) : Exact (.number (.int n))
  | text (s : String) : Exact (.text s)
  | list {items : List Datum} (h : ∀ d ∈ items, Exact d) : Exact (.list items)
  | record {fields : List (String × Datum)} (h : ∀ f ∈ fields, Exact f.2) : Exact (.record fields)

/-- The text of the value is read as the value, whatever comes after it. -/
def ReadsBack (d : Datum) : Prop := ∀ ⦃fuel : Nat⦄ ⦃rest : Bytes⦄, Closes rest →
  2 * (spelled (chars d)).length ≤ fuel → value? (fuel + 1) (spelled (chars d) ++ rest) = some (d, rest)

variable {b : UInt8} {bs rest : Bytes} {fuel : Nat}

theorem value?_of_literal (h : b = 0x2D ∨ Bytes.isDigit b = true) (fuel : Nat) (bs : Bytes) :
    value? (fuel + 1) (b :: bs) =
      (literal? (b :: bs)).map fun l ↦ (l.1.value?.elim .illegible .number, l.2) := by
  have hb : b ∉ ([0x20, 0x0A, 0x0D, 0x09, 0x22, 0x5B, 0x7B, 0x6E, 0x74, 0x66] : Bytes) := by
    intro hm
    simp only [List.mem_cons, List.not_mem_nil, or_false] at hm
    rcases hm with rfl | rfl | rfl | rfl | rfl | rfl | rfl | rfl | rfl | rfl <;>
      exact h.elim (by decide) (by decide)
  simp only [List.mem_cons, List.not_mem_nil, or_false, not_or] at hb
  have hs : skipBlanks (b :: bs) = b :: bs := List.dropWhile_cons_of_neg (by simp [isBlank, hb])
  rw [value?, hs]
  split
  case h_7 => cases literal? (b :: bs) <;> rfl
  all_goals simp_all

theorem readsBack_int {n : Int} (hlo : -(1 <<< 63) ≤ n) (hhi : n ≤ maxWord) :
    ReadsBack (.number (.int n)) := by
  intro fuel rest hr _
  obtain ⟨l, hl, hv⟩ := literal?_int hlo hhi hr
  obtain ⟨b, bs, hb, hd⟩ := exists_spelled_int n
  rw [chars]
  rw [hb] at hl ⊢
  rw [List.cons_append, value?_of_literal hd, ← List.cons_append, hl, Option.map_some, hv]
  rfl

theorem word?_append (word : String) (d : Datum) (rest : Bytes) :
    word? word d (Utf8.encode word ++ rest) = some (d, rest) := by
  simp [word?, List.isPrefixOf_iff_prefix]

theorem readsBack_null : ReadsBack .null := by
  intro fuel rest _ _
  exact word?_append "ull" .null rest

theorem readsBack_bool (b : Bool) : ReadsBack (.bool b) := by
  intro fuel rest _ _
  cases b with
  | false => exact word?_append "alse" (.bool false) rest
  | true => exact word?_append "rue" (.bool true) rest

theorem spelled_quote (s : String) (rest : Bytes) : spelled (quote s) ++ rest =
    0x22 :: (spelled (s.toList.flatMap escapeChar) ++ 0x22 :: rest) := by
  rw [quote, List.cons_append, spelled_cons (by decide), spelled_append, List.cons_append,
    List.append_assoc]
  rfl

theorem readsBack_text (s : String) : ReadsBack (.text s) := by
  intro fuel rest _ _
  obtain ⟨ps, hs, hps⟩ := pieces?_quoted s rest
  rw [chars, spelled_quote]
  change (pieces? _ >>= _) = _
  rw [hps]
  change some ((textOf? ps).elim _ _, rest) = _
  rw [hs]
  rfl

section Steps

variable {d : Datum} {ds : List Datum} {fs : List (Option String × Datum)} {ps : List Piece} {more : Bytes}

theorem items?_last (h : value? fuel bs = some (d, 0x5D :: rest)) :
    items? (fuel + 1) bs = some ([d], rest) := by
  rw [items?, h]
  rfl

theorem items?_cons (h : value? fuel bs = some (d, 0x2C :: more))
    (h' : items? fuel more = some (ds, rest)) : items? (fuel + 1) bs = some (d :: ds, rest) := by
  rw [items?, h]
  change (items? fuel more >>= _) = _
  rw [h']
  rfl

theorem fields?_last (hn : pieces? bs = some (ps, 0x3A :: more))
    (h : value? fuel more = some (d, 0x7D :: rest)) :
    fields? (fuel + 1) (0x22 :: bs) = some ([(textOf? ps, d)], rest) := by
  rw [fields?]
  change (pieces? bs >>= _) = _
  rw [hn]
  change (value? fuel more >>= _) = _
  rw [h]
  rfl

theorem fields?_cons {next : Bytes} (hn : pieces? bs = some (ps, 0x3A :: more))
    (h : value? fuel more = some (d, 0x2C :: next)) (h' : fields? fuel next = some (fs, rest)) :
    fields? (fuel + 1) (0x22 :: bs) = some ((textOf? ps, d) :: fs, rest) := by
  rw [fields?]
  change (pieces? bs >>= _) = _
  rw [hn]
  change (value? fuel more >>= _) = _
  rw [h]
  change (fields? fuel next >>= _) = _
  rw [h']
  rfl

theorem items?_of_bracket (h : skipBlanks bs = 0x5D :: more) : items? fuel bs = none := by
  cases fuel with
  | zero => rfl
  | succ fuel =>
    have hv : value? fuel bs = none := by
      cases fuel with
      | zero => rfl
      | succ fuel =>
        rw [value?, h]
        rfl
    rw [items?, hv]
    rfl

theorem value?_of_items (h : items? fuel bs = some (ds, rest)) :
    value? (fuel + 1) (0x5B :: bs) = some (.list ds, rest) := by
  have hs : skipBlanks (0x5B :: bs) = 0x5B :: bs := rfl
  rw [value?, hs]
  split
  case h_2 _ he =>
    obtain rfl := (List.cons.inj he).2
    split
    · next hb => simp [items?_of_bracket hb] at h
    · rw [h]
      rfl
  all_goals simp_all

theorem fields?_of_brace (h : skipBlanks bs = 0x7D :: more) : fields? fuel bs = none := by
  cases fuel with
  | zero => rfl
  | succ fuel =>
    rw [fields?, h]
    rfl

theorem value?_of_fields (h : fields? fuel bs = some (fs, rest)) :
    value? (fuel + 1) (0x7B :: bs) = some (recordOf fs, rest) := by
  have hs : skipBlanks (0x7B :: bs) = 0x7B :: bs := rfl
  rw [value?, hs]
  split
  case h_3 _ he =>
    obtain rfl := (List.cons.inj he).2
    split
    · next hb => simp [fields?_of_brace hb] at h
    · rw [h]
      rfl
  all_goals simp_all

end Steps

theorem spelled_items (d e : Datum) (ds : List Datum) : spelled (separated (itemChars (d :: e :: ds))) =
    spelled (chars d) ++ 0x2C :: spelled (separated (itemChars (e :: ds))) := by
  change spelled (chars d ++ ',' :: separated (itemChars (e :: ds))) = _
  rw [spelled_append, spelled_cons (by decide)]
  rfl

theorem items?_spelled {d : Datum} {ds : List Datum} (h : ∀ e ∈ d :: ds, ReadsBack e)
    (hf : 2 * (spelled (separated (itemChars (d :: ds)))).length ≤ fuel) :
    items? (fuel + 2) (spelled (separated (itemChars (d :: ds))) ++ 0x5D :: rest) =
      some (d :: ds, rest) := by
  rw [List.forall_mem_cons] at h
  induction ds generalizing d fuel with
  | nil => exact items?_last (h.1 (by simp [Closes]) hf)
  | cons e ds ih =>
    rw [spelled_items] at hf ⊢
    rw [List.length_append, List.length_cons] at hf
    obtain ⟨fuel, rfl⟩ := Nat.exists_eq_add_one.2 (show 0 < fuel by omega)
    rw [List.append_assoc, List.cons_append]
    exact items?_cons (h.1 (by simp [Closes]) (by omega))
      (ih (List.forall_mem_cons.1 h.2) (by omega))

theorem spelled_field (f : String × Datum) (rest : Bytes) :
    spelled (quote f.1 ++ ':' :: chars f.2) ++ rest =
      0x22 :: (spelled (f.1.toList.flatMap escapeChar) ++ 0x22 :: 0x3A :: (spelled (chars f.2) ++ rest)) := by
  rw [spelled_append, spelled_cons (by decide), List.append_assoc, spelled_quote]
  rfl

theorem spelled_fields (f e : String × Datum) (fs : List (String × Datum)) :
    spelled (separated (fieldChars (f :: e :: fs))) =
      spelled (quote f.1 ++ ':' :: chars f.2) ++ 0x2C :: spelled (separated (fieldChars (e :: fs))) := by
  change spelled ((quote f.1 ++ ':' :: chars f.2) ++ ',' :: separated (fieldChars (e :: fs))) = _
  rw [spelled_append, spelled_cons (by decide)]
  rfl

theorem length_spelled_field (f : String × Datum) :
    (spelled (chars f.2)).length < (spelled (quote f.1 ++ ':' :: chars f.2)).length := by
  rw [spelled_append, spelled_cons (by decide), List.length_append, List.length_cons]
  omega

theorem fields?_spelled {f : String × Datum} {fs : List (String × Datum)}
    (h : ∀ e ∈ f :: fs, ReadsBack e.2)
    (hf : 2 * (spelled (separated (fieldChars (f :: fs)))).length ≤ fuel) :
    fields? (fuel + 2) (spelled (separated (fieldChars (f :: fs))) ++ 0x7D :: rest) =
      some ((f :: fs).map fun f ↦ (some f.1, f.2), rest) := by
  rw [List.forall_mem_cons] at h
  have hlt := length_spelled_field f
  induction fs generalizing f fuel with
  | nil =>
    change 2 * (spelled (quote f.1 ++ ':' :: chars f.2)).length ≤ fuel at hf
    change fields? (fuel + 2) (spelled (quote f.1 ++ ':' :: chars f.2) ++ 0x7D :: rest) = _
    obtain ⟨ps, hs, hps⟩ := pieces?_quoted f.1 (0x3A :: (spelled (chars f.2) ++ 0x7D :: rest))
    rw [spelled_field, fields?_last hps (h.1 (by simp [Closes]) (by omega)), hs]
    rfl
  | cons e fs ih =>
    rw [spelled_fields] at hf ⊢
    rw [List.length_append, List.length_cons] at hf
    obtain ⟨fuel, rfl⟩ := Nat.exists_eq_add_one.2 (show 0 < fuel by omega)
    rw [List.append_assoc, List.cons_append, spelled_field]
    obtain ⟨ps, hs, hps⟩ := pieces?_quoted f.1 (0x3A :: (spelled (chars f.2) ++
      0x2C :: (spelled (separated (fieldChars (e :: fs))) ++ 0x7D :: rest)))
    rw [fields?_cons hps (h.1 (by simp [Closes]) (by omega))
      (ih (List.forall_mem_cons.1 h.2) (by omega) (length_spelled_field e)), hs]
    rfl

theorem recordOf_map (fs : List (String × Datum)) :
    recordOf (fs.map fun f ↦ (some f.1, f.2)) = .record fs := by
  rw [recordOf, mapM_map_of_read (f := fun f : String × Datum ↦ (some f.1, f.2)) fun _ ↦ rfl]

theorem readsBack_list {items : List Datum} (h : ∀ d ∈ items, ReadsBack d) : ReadsBack (.list items) := by
  intro fuel rest hr hf
  have hs : spelled (chars (.list items)) =
      0x5B :: (spelled (separated (itemChars items)) ++ [0x5D]) := by
    rw [chars, List.cons_append, spelled_cons (by decide), spelled_append, spelled_cons (by decide)]
    rfl
  rw [hs] at hf ⊢
  rw [List.length_cons, List.length_append] at hf
  rw [List.cons_append, List.append_assoc, List.singleton_append]
  cases items with
  | nil => rfl
  | cons d ds =>
    obtain ⟨fuel, rfl⟩ := Nat.exists_eq_add_of_le' (show 2 ≤ fuel by omega)
    exact value?_of_items (items?_spelled h (by omega))

theorem readsBack_record {fields : List (String × Datum)} (h : ∀ f ∈ fields, ReadsBack f.2) :
    ReadsBack (.record fields) := by
  intro fuel rest hr hf
  have hs : spelled (chars (.record fields)) =
      0x7B :: (spelled (separated (fieldChars fields)) ++ [0x7D]) := by
    rw [chars, List.cons_append, spelled_cons (by decide), spelled_append, spelled_cons (by decide)]
    rfl
  rw [hs] at hf ⊢
  rw [List.length_cons, List.length_append] at hf
  rw [List.cons_append, List.append_assoc, List.singleton_append]
  cases fields with
  | nil => rfl
  | cons f fs =>
    obtain ⟨fuel, rfl⟩ := Nat.exists_eq_add_of_le' (show 2 ≤ fuel by omega)
    rw [value?_of_fields (fields?_spelled h (by omega)), recordOf_map]

theorem Exact.readsBack {d : Datum} (h : Exact d) : ReadsBack d := by
  induction h with
  | null => exact readsBack_null
  | bool b => exact readsBack_bool b
  | int hlo hhi => exact readsBack_int hlo hhi
  | text s => exact readsBack_text s
  | list _ ih => exact readsBack_list ih
  | record _ ih => exact readsBack_record ih

theorem read?_render {d : Datum} (h : Exact d) : read? (Utf8.encode (render d)) = some d := by
  have hd : value? (2 * (spelled (chars d)).length + 2) (spelled (chars d) ++ []) = some (d, []) :=
    h.readsBack nofun (by omega)
  rw [List.append_nil] at hd
  rw [encode_render, read?, hd]
  rfl

end CertGate.Json
