import CertGate.Management.Bindings
import CertGate.Proofs.Authentication.Destination
import Mathlib.Data.List.Infix

namespace CertGate

open Program

namespace AuthMethod

/-- In one pass over a template each field is filled in where its placeholder stands first. What has been
filled in is not looked at again. -/
def fillIn : (skip : Nat) → (fields : List (List Char × List Char)) → List Char → List Char
  | _, _, [] => []
  | skip + 1, fields, _ :: cs => fillIn skip fields cs
  | 0, fields, c :: cs =>
    match fields.find? (·.1.isPrefixOf (c :: cs)) with
    | some f => f.2 ++ fillIn (f.1.length - 1) (fields.erase f) cs
    | none => c :: fillIn 0 fields cs

/-- The value in the place of the first `p` makes up a `q`, at a place where the template has none. -/
def Forges (p value q template : List Char) : Prop :=
  ∃ l r, template = l ++ (p ++ r) ∧ Clear p l (p ++ r) ∧ Clear q l [] ∧ ¬ Clear q (l ++ value) r

/-- Neither pattern begins in the other one, whatever comes after it. -/
structure Apart (p q : List Char) : Prop where
  left : ∀ m ∈ p.tails, m ≠ [] → ¬ m <+: q ∧ ¬ q <+: m
  right : ∀ m ∈ q.tails, m ≠ [] → ¬ m <+: p ∧ ¬ p <+: m

variable {p q l m r rest v w cs : List Char} {c d : Char} {fields : List (List Char × List Char)}

theorem clear_append : Clear p (l ++ m) rest ↔ Clear p l (m ++ rest) ∧ Clear p m rest := by
  induction l with
  | nil => simp [clear_nil]
  | cons c l ih => rw [List.cons_append, clear_cons, clear_cons, ih, List.append_assoc, and_assoc]

theorem Clear.of_append (h : Clear p l (p ++ r)) (r' : List Char) : Clear p l (p ++ r') := by
  intro m hm hn hp
  rw [← List.append_assoc] at hp
  have hl : p.length ≤ (m ++ p).length := by simp
  have hmp : p <+: m ++ p := List.prefix_of_prefix_length_le hp (List.prefix_append _ _) hl
  refine h m hm hn ?_
  rw [← List.append_assoc]
  exact hmp.trans (List.prefix_append _ _)

theorem Apart.symm (h : Apart p q) : Apart q p := ⟨h.right, h.left⟩

theorem Apart.clear (h : Apart p q) (rest : List Char) : Clear q p rest := by
  intro m hm hn hq
  obtain ⟨hmq, hqm⟩ := h.left m ((List.mem_tails _ _).2 hm) hn
  rcases List.prefix_or_prefix_of_prefix hq (List.prefix_append m rest) with hp | hp
  · exact hqm hp
  · exact hmq hp

/-- A pattern that is not in a text does not begin in it either, if it would have to go on with one that
is apart from it. -/
theorem Apart.clear_through (h : Apart p q) (hl : Clear q l []) (r : List Char) : Clear q l (p ++ r) := by
  intro m hm hn hq
  have hl : ¬ q <+: m := by
    have h := hl m hm hn
    rwa [List.append_nil] at h
  rcases List.prefix_or_prefix_of_prefix hq (List.prefix_append m (p ++ r)) with hp | ⟨t, ht⟩
  · exact hl hp
  · -- The rest `t` of the pattern would be where `p` begins.
    have hne : t ≠ [] := by
      rintro rfl
      rw [← ht, List.append_nil] at hl
      exact hl List.prefix_rfl
    rw [← ht, List.prefix_append_right_inj] at hq
    obtain ⟨htp, hpt⟩ := h.right t ((List.mem_tails _ _).2 ⟨m, ht⟩) hne
    rcases List.prefix_or_prefix_of_prefix hq (List.prefix_append p r) with hp | hp
    · exact htp hp
    · exact hpt hp

theorem clear_or_exists_first (p cs : List Char) :
    Clear p cs [] ∨ ∃ l r, cs = l ++ (p ++ r) ∧ Clear p l (p ++ r) := by
  induction cs with
  | nil => exact .inl (clear_nil p [])
  | cons c cs ih =>
    by_cases hc : p <+: c :: cs
    · obtain ⟨r, hr⟩ := hc
      exact .inr ⟨[], r, hr.symm, clear_nil p _⟩
    · rcases ih with h | ⟨l, r, rfl, h⟩
      · exact .inl (clear_cons.2 ⟨by rwa [List.append_nil], h⟩)
      · exact .inr ⟨c :: l, r, rfl, clear_cons.2 ⟨hc, h⟩⟩

theorem replaceFirst_of_clear (hp : p ≠ []) (h : Clear p cs []) : replaceFirst p v cs = cs := by
  have hr := replaceFirst_append (v := v) h
  rwa [List.append_nil, replaceFirst, if_neg hp, List.append_nil] at hr

theorem replaceFirst_self (hp : p ≠ []) : replaceFirst p v (p ++ rest) = v ++ rest := by
  cases p with
  | nil => exact absurd rfl hp
  | cons d ds =>
    have h : (d :: ds).isPrefixOf (d :: (ds ++ rest)) = true :=
      List.isPrefixOf_iff_prefix.2 (List.prefix_append (d :: ds) rest)
    rw [List.cons_append, replaceFirst, if_pos h]
    simp

theorem fillIn_skip (l : List Char) : fillIn l.length fields (l ++ rest) = fillIn 0 fields rest := by
  induction l with
  | nil => rfl
  | cons c l ih => exact ih

theorem fillIn_append (h : ∀ f ∈ fields, Clear f.1 l rest) :
    fillIn 0 fields (l ++ rest) = l ++ fillIn 0 fields rest := by
  induction l with
  | nil => rfl
  | cons c l ih =>
    have hn : fields.find? (·.1.isPrefixOf (c :: (l ++ rest))) = none := by
      refine List.find?_eq_none.2 fun f hf ↦ ?_
      rw [List.isPrefixOf_iff_prefix]
      exact (clear_cons.1 (h f hf)).1
    rw [List.cons_append, fillIn, hn]
    dsimp only
    rw [ih fun f hf ↦ (clear_cons.1 (h f hf)).2, List.cons_append]

theorem fillIn_self {f : List Char × List Char} (hf : f.1 ≠ [])
    (h : fields.find? (·.1.isPrefixOf (f.1 ++ rest)) = some f) :
    fillIn 0 fields (f.1 ++ rest) = f.2 ++ fillIn 0 (fields.erase f) rest := by
  obtain ⟨_ | ⟨d, ds⟩, v⟩ := f
  · exact absurd rfl hf
  · dsimp only [List.cons_append] at h ⊢
    rw [fillIn, h]
    exact congrArg (v ++ ·) (fillIn_skip ds)

theorem fillIn_nil (cs : List Char) : fillIn 0 [] cs = cs := by
  induction cs with
  | nil => rfl
  | cons c cs ih => exact congrArg (c :: ·) ih

theorem fillIn_singleton (hp : p ≠ []) (v cs : List Char) : fillIn 0 [(p, v)] cs = replaceFirst p v cs := by
  rcases clear_or_exists_first p cs with h | ⟨l, r, rfl, h⟩
  · have hf : fillIn 0 [(p, v)] (cs ++ []) = cs ++ fillIn 0 [(p, v)] [] :=
      fillIn_append (List.forall_mem_singleton.2 h)
    rw [List.append_nil] at hf
    rw [hf, replaceFirst_of_clear hp h, fillIn, List.append_nil]
  · have hm : p.isPrefixOf (p ++ r) = true := List.isPrefixOf_iff_prefix.2 (List.prefix_append p r)
    have hs : fillIn 0 [(p, v)] (p ++ r) = v ++ fillIn 0 ([(p, v)].erase (p, v)) r :=
      fillIn_self (f := (p, v)) hp (by simp [hm])
    rw [fillIn_append (List.forall_mem_singleton.2 h), hs, List.erase_cons_head, fillIn_nil,
      replaceFirst_append h, replaceFirst_self hp]

theorem Apart.not_prefix (h : Apart p q) (hp : p ≠ []) (r : List Char) : ¬ q <+: p ++ r :=
  h.clear r p List.suffix_rfl hp

theorem Apart.isPrefixOf_eq_false (h : Apart p q) (hp : p ≠ []) (hc : p.isPrefixOf cs = true) :
    q.isPrefixOf cs = false := by
  obtain ⟨r, rfl⟩ := List.isPrefixOf_iff_prefix.1 hc
  rw [← Bool.not_eq_true, List.isPrefixOf_iff_prefix]
  exact h.not_prefix hp r

theorem Apart.ne (h : Apart p q) (hp : p ≠ []) : p ≠ q := by
  rintro rfl
  exact h.not_prefix hp [] (List.prefix_append p [])

theorem fillIn_left (hp : p ≠ []) (v w r : List Char) :
    fillIn 0 [(p, v), (q, w)] (p ++ r) = v ++ fillIn 0 [(q, w)] r := by
  have hm : p.isPrefixOf (p ++ r) = true := List.isPrefixOf_iff_prefix.2 (List.prefix_append p r)
  have hs : fillIn 0 [(p, v), (q, w)] (p ++ r) = v ++ fillIn 0 ([(p, v), (q, w)].erase (p, v)) r :=
    fillIn_self (f := (p, v)) hp (by simp [hm])
  rwa [List.erase_cons_head] at hs

theorem fillIn_right (h : Apart p q) (hp : p ≠ []) (hq : q ≠ []) (v w r : List Char) :
    fillIn 0 [(p, v), (q, w)] (q ++ r) = w ++ fillIn 0 [(p, v)] r := by
  have hm : q.isPrefixOf (q ++ r) = true := List.isPrefixOf_iff_prefix.2 (List.prefix_append q r)
  have hs : fillIn 0 [(p, v), (q, w)] (q ++ r) = w ++ fillIn 0 ([(p, v), (q, w)].erase (q, w)) r :=
    fillIn_self (f := (q, w)) hq (by simp [hm, h.symm.isPrefixOf_eq_false hq hm])
  rwa [List.erase_cons_tail (by simp [h.ne hp]), List.erase_cons_head] at hs

theorem fillIn_comm (h : Apart p q) (hp : p ≠ []) (v w : List Char) (skip : Nat) (cs : List Char) :
    fillIn skip [(p, v), (q, w)] cs = fillIn skip [(q, w), (p, v)] cs := by
  have hne : p ≠ q := h.ne hp
  induction cs generalizing skip with
  | nil => cases skip <;> rfl
  | cons c cs ih =>
    cases skip with
    | succ n => exact ih n
    | zero =>
      cases hpc : p.isPrefixOf (c :: cs) with
      | true =>
        have hqc := h.isPrefixOf_eq_false hp hpc
        simp [fillIn, hpc, hqc, hne.symm]
      | false =>
        cases hqc : q.isPrefixOf (c :: cs) with
        | true => simp [fillIn, hpc, hqc, hne]
        | false => simp [fillIn, hpc, hqc, ih 0]

/-- Two fields filled in one after the other are filled in at once, if the first value makes up no
placeholder for the second. -/
theorem replaceFirst_replaceFirst (h : Apart p q) (hp : p ≠ []) (hq : q ≠ []) {template : List Char}
    (hf : ¬ Forges p v q template) (w : List Char) :
    replaceFirst q w (replaceFirst p v template) = fillIn 0 [(p, v), (q, w)] template := by
  have hboth {l rest : List Char} (hpl : Clear p l rest) (hql : Clear q l rest) :
      fillIn 0 [(p, v), (q, w)] (l ++ rest) = l ++ fillIn 0 [(p, v), (q, w)] rest := by
    refine fillIn_append fun f hm ↦ ?_
    rcases List.mem_pair.1 hm with rfl | rfl
    · exact hpl
    · exact hql
  rcases clear_or_exists_first p template with hc | ⟨l, r, rfl, hl⟩
  · rw [replaceFirst_of_clear hp hc]
    rcases clear_or_exists_first q template with hd | ⟨l, r, rfl, hl⟩
    · have hn := hboth hc hd
      rw [List.append_nil] at hn
      rw [replaceFirst_of_clear hq hd, hn, fillIn, List.append_nil]
    · obtain ⟨hpl, hpr⟩ := clear_append.1 hc
      obtain ⟨-, hpr⟩ := clear_append.1 hpr
      rw [List.append_nil] at hpl
      rw [replaceFirst_append hl, replaceFirst_self hq, hboth hpl hl, fillIn_right h hp hq,
        fillIn_singleton hp, replaceFirst_of_clear hp hpr]
  · rw [replaceFirst_append hl, replaceFirst_self hp]
    rcases clear_or_exists_first q l with hd | ⟨l₁, l₂, rfl, hl₁⟩
    · have hv : Clear q (l ++ v) r := by
        by_contra hv
        exact hf ⟨l, r, rfl, hl, hd, hv⟩
      rw [hboth hl (h.clear_through hd r), fillIn_left hp, fillIn_singleton hq, ← List.append_assoc,
        replaceFirst_append hv, List.append_assoc]
    · -- The template has the second placeholder before the first.
      obtain ⟨hp₁, hp₂⟩ := clear_append.1 hl
      obtain ⟨-, hp₂⟩ := clear_append.1 hp₂
      simp only [List.append_assoc] at hp₁ ⊢
      rw [replaceFirst_append (hl₁.of_append _), replaceFirst_self hq, hboth hp₁ (hl₁.of_append _),
        fillIn_right h hp hq, fillIn_singleton hp, replaceFirst_append hp₂, replaceFirst_self hp]

theorem Forges.exists_replaceFirst (h : Forges p v q cs) (hp : p ≠ []) (hq : q ≠ []) :
    ∃ l r x z y, cs = l ++ (p ++ r) ∧ Clear p l (p ++ r) ∧ Clear q l [] ∧ l ++ v = x ++ z ∧ z ≠ [] ∧
      z ++ r = q ++ y ∧ ∀ w, replaceFirst q w (replaceFirst p v cs) = x ++ (w ++ y) := by
  obtain ⟨l, r, rfl, hl, hql, hv⟩ := h
  have hfirst : replaceFirst p v (l ++ (p ++ r)) = (l ++ v) ++ r := by
    rw [replaceFirst_append hl, replaceFirst_self hp, List.append_assoc]
  rcases clear_or_exists_first q ((l ++ v) ++ r) with hc | ⟨x, y, hxy, hx⟩
  · have hc := (clear_append.1 hc).1
    rw [List.append_nil] at hc
    exact absurd hc hv
  · rcases List.append_eq_append_iff.1 hxy with ⟨z, rfl, hz⟩ | ⟨z, hz, hqy⟩
    · -- Then the placeholder is the one of the template.
      rw [clear_append, ← hz] at hx
      exact absurd hx.1 hv
    · have hne : z ≠ [] := by
        rintro rfl
        rw [List.append_nil] at hz
        rw [List.nil_append] at hqy
        exact hv (hz ▸ hqy ▸ hx)
      refine ⟨l, r, x, z, y, rfl, hl, hql, hz, hne, hqy.symm, fun w ↦ ?_⟩
      rw [hfirst, hxy, replaceFirst_append hx, replaceFirst_self hq]

theorem replaceFirst_replaceFirst_iff (h : Apart p q) (hp : p ≠ []) (hq : q ≠ []) :
    (∀ w, replaceFirst q w (replaceFirst p v cs) = fillIn 0 [(p, v), (q, w)] cs) ↔ ¬ Forges p v q cs := by
  refine ⟨fun hall hf ↦ ?_, fun hf w ↦ replaceFirst_replaceFirst h hp hq hf w⟩
  obtain ⟨l, r, x, z, y, rfl, hl, hql, hv, hz, hzr, hw⟩ := hf.exists_replaceFirst hp hq
  obtain ⟨d, ds, rfl⟩ := List.exists_cons_of_ne_nil hq
  obtain ⟨e, zs, rfl⟩ := List.exists_cons_of_ne_nil hz
  obtain ⟨c, hc⟩ : ∃ c : Char, c ≠ d := by
    by_cases hd : d = 'a'
    · exact ⟨'b', hd ▸ by decide⟩
    · exact ⟨'a', Ne.symm hd⟩
  -- A value that begins with another character than the second pattern shows where it has been put.
  have hboth : ∀ f ∈ [(p, v), (d :: ds, [c])], Clear f.1 l (p ++ r) := by
    intro f hm
    rcases List.mem_pair.1 hm with rfl | rfl
    · exact hl
    · exact h.clear_through hql r
  have he := hall [c]
  rw [hw, fillIn_append hboth, fillIn_left hp, ← List.append_assoc l v, hv, List.append_assoc,
    List.append_cancel_left_eq, List.cons_append, List.cons_append] at he
  have hec : c = e := (List.cons_eq_cons.1 he).1
  have hed : e = d := (List.cons_eq_cons.1 hzr).1
  exact hc (hec.trans hed)

theorem eq_of_first {l' r' : List Char} (he : l ++ (p ++ r) = l' ++ (p ++ r')) (h : Clear p l (p ++ r))
    (h' : Clear p l' (p ++ r')) : l = l' := by
  have hnil {l z r r' : List Char} (h : Clear p (l ++ z) (p ++ r')) (hz : p ++ r = z ++ (p ++ r')) :
      z = [] := by
    by_contra hn
    exact (clear_append.1 h).2 z List.suffix_rfl hn ⟨r, hz⟩
  rcases List.append_eq_append_iff.1 he with ⟨z, rfl, hz⟩ | ⟨z, rfl, hz⟩
  · rw [hnil h' hz, List.append_nil]
  · rw [hnil h hz, List.append_nil]

theorem forges_iff (hl : Clear p l (p ++ r)) :
    Forges p v q (l ++ (p ++ r)) ↔ Clear q l [] ∧ ¬ Clear q (l ++ v) r := by
  constructor
  · rintro ⟨l', r', he, hl', hq, hv⟩
    obtain rfl := eq_of_first he hl hl'
    obtain rfl : r = r' := by simpa using he
    exact ⟨hq, hv⟩
  · rintro ⟨hq, hv⟩
    exact ⟨l, r, rfl, hl, hq, hv⟩

instance (p l rest : List Char) : Decidable (Clear p l rest) :=
  decidable_of_iff (∀ m ∈ l.tails, m ≠ [] → ¬ p <+: m ++ rest) <| by
    simp only [Clear, List.mem_tails]

def template (a : AuthMethod) (scheme : String) : List Char :=
  s!"{scheme}://{a.host}:{a.port.toNat}{a.path}".toList

/-- The URL that takes both keys as they are. -/
def filledAtOnce (a : AuthMethod) (scheme uniqueKey key : String) : String :=
  String.ofList (fillIn 0 [(identifierPlaceholder.toList, uniqueKey.toList),
    (accessKeyPlaceholder.toList, key.toList)] (a.template scheme))

def filledInTurn (a : AuthMethod) (scheme uniqueKey key : String) : String :=
  String.ofList (replaceFirst identifierPlaceholder.toList uniqueKey.toList
    (replaceFirst accessKeyPlaceholder.toList key.toList (a.template scheme)))

def UniqueKeyForges (a : AuthMethod) (scheme uniqueKey : String) : Prop :=
  Forges identifierPlaceholder.toList uniqueKey.toList accessKeyPlaceholder.toList (a.template scheme)

def AccessKeyForges (a : AuthMethod) (scheme key : String) : Prop :=
  Forges accessKeyPlaceholder.toList key.toList identifierPlaceholder.toList (a.template scheme)

theorem apart_placeholders : Apart identifierPlaceholder.toList accessKeyPlaceholder.toList := by
  constructor <;> decide +kernel

theorem placeholders_ne_nil : identifierPlaceholder.toList ≠ [] ∧ accessKeyPlaceholder.toList ≠ [] := by
  decide

variable {a : AuthMethod} {scheme uniqueKey key : String}

theorem resourceUrl_of_apiKey (h : a.variant = .apiKey key) : a.resourceUrl scheme uniqueKey =
    String.ofList (replaceFirst accessKeyPlaceholder.toList key.toList
      (replaceFirst identifierPlaceholder.toList uniqueKey.toList (a.template scheme))) := by
  rw [resourceUrl, h]
  rfl

theorem resourceUrl_eq_filledAtOnce (h : a.variant = .apiKey key)
    (hf : ¬ a.UniqueKeyForges scheme uniqueKey) :
    a.resourceUrl scheme uniqueKey = a.filledAtOnce scheme uniqueKey key := by
  obtain ⟨hp, hq⟩ := placeholders_ne_nil
  rw [resourceUrl_of_apiKey h, replaceFirst_replaceFirst apart_placeholders hp hq hf, filledAtOnce]

theorem filledInTurn_eq_filledAtOnce (hf : ¬ a.AccessKeyForges scheme key) :
    a.filledInTurn scheme uniqueKey key = a.filledAtOnce scheme uniqueKey key := by
  obtain ⟨hp, hq⟩ := placeholders_ne_nil
  rw [filledInTurn, replaceFirst_replaceFirst apart_placeholders.symm hq hp hf,
    fillIn_comm apart_placeholders.symm hq, filledAtOnce]

theorem forall_resourceUrl_eq_iff :
    (∀ key, { a with variant := .apiKey key }.resourceUrl scheme uniqueKey =
      a.filledAtOnce scheme uniqueKey key) ↔ ¬ a.UniqueKeyForges scheme uniqueKey := by
  obtain ⟨hp, hq⟩ := placeholders_ne_nil
  rw [UniqueKeyForges, ← replaceFirst_replaceFirst_iff apart_placeholders hp hq]
  constructor
  · intro h w
    have hw := h (String.ofList w)
    rw [resourceUrl_of_apiKey rfl, filledAtOnce, String.toList_ofList] at hw
    exact String.ofList_injective hw
  · intro h key
    rw [resourceUrl_of_apiKey rfl, filledAtOnce]
    exact congrArg String.ofList (h key.toList)

theorem not_uniqueKeyForges (ht : a.template scheme = l ++ (identifierPlaceholder.toList ++ r))
    (hl : '\x7b' ∉ l) (hk : '\x7b' ∉ uniqueKey.toList) : ¬ a.UniqueKeyForges scheme uniqueKey := by
  have hlk : '\x7b' ∉ l ++ uniqueKey.toList := by
    rw [List.mem_append]
    exact not_or.2 ⟨hl, hk⟩
  rw [UniqueKeyForges, ht, forges_iff (clear_placeholder (by decide) hl _), not_and_not_right]
  exact fun _ ↦ clear_placeholder (by decide) hlk r

theorem exists_of_uniqueKeyForges (h : a.variant = .apiKey key) (hf : a.UniqueKeyForges scheme uniqueKey) :
    ∃ l r x z y, a.template scheme = l ++ (identifierPlaceholder.toList ++ r) ∧
      l ++ uniqueKey.toList = x ++ z ∧ z ≠ [] ∧ z ++ r = accessKeyPlaceholder.toList ++ y ∧
      a.resourceUrl scheme uniqueKey = String.ofList (x ++ (key.toList ++ y)) := by
  obtain ⟨hp, hq⟩ := placeholders_ne_nil
  obtain ⟨l, r, x, z, y, ht, -, -, hv, hz, hzr, hw⟩ := Forges.exists_replaceFirst hf hp hq
  exact ⟨l, r, x, z, y, ht, hv, hz, hzr, by rw [resourceUrl_of_apiKey h, hw]⟩

/-- The URL takes the unique key as it is, whatever the access key, just if the unique key makes up no
placeholder with what stands around it, and then the order of filling in makes no difference to an access
key that makes up none either. If it makes one up, the access key is put there, and what follows, the
placeholder of the template with it, stays as it is. -/
theorem filled_at_once_unless_forged (a : AuthMethod) (scheme uniqueKey : String) :
    ((∀ key, { a with variant := .apiKey key }.resourceUrl scheme uniqueKey =
        a.filledAtOnce scheme uniqueKey key) ↔ ¬ a.UniqueKeyForges scheme uniqueKey) ∧
      (∀ key, a.variant = .apiKey key → ¬ a.UniqueKeyForges scheme uniqueKey →
        a.resourceUrl scheme uniqueKey = a.filledAtOnce scheme uniqueKey key ∧
          (¬ a.AccessKeyForges scheme key →
            a.resourceUrl scheme uniqueKey = a.filledInTurn scheme uniqueKey key)) ∧
      (∀ key, a.variant = .apiKey key → a.UniqueKeyForges scheme uniqueKey →
        ∃ l r x z y, a.template scheme = l ++ (identifierPlaceholder.toList ++ r) ∧
          l ++ uniqueKey.toList = x ++ z ∧ z ≠ [] ∧ z ++ r = accessKeyPlaceholder.toList ++ y ∧
          a.resourceUrl scheme uniqueKey = String.ofList (x ++ (key.toList ++ y))) ∧
      ∀ l r, a.template scheme = l ++ (identifierPlaceholder.toList ++ r) → '\x7b' ∉ l →
        '\x7b' ∉ uniqueKey.toList → ¬ a.UniqueKeyForges scheme uniqueKey := by
  refine ⟨forall_resourceUrl_eq_iff, fun key h hf ↦ ?_, fun key h hf ↦ exists_of_uniqueKeyForges h hf,
    fun l r ht hl hk ↦ not_uniqueKeyForges ht hl hk⟩
  have he := resourceUrl_eq_filledAtOnce h hf
  exact ⟨he, fun hn ↦ he.trans (filledInTurn_eq_filledAtOnce hn).symm⟩

theorem filled_at_once_of_half_placeholder :
    ∃ (a : AuthMethod) (uniqueKey : String),
      a.path = "/v1/users:byUUID/" ++ identifierPlaceholder ++ "?key=" ++ accessKeyPlaceholder ∧
        a.variant = .apiKey "k" ∧ uniqueKey = "\x7b\x7baccess_key\x7d" ∧
        ¬ a.UniqueKeyForges "https" uniqueKey ∧ ¬ a.AccessKeyForges "https" "k" ∧
        a.resourceUrl "https" uniqueKey = a.filledAtOnce "https" uniqueKey "k" ∧
        a.resourceUrl "https" uniqueKey = a.filledInTurn "https" uniqueKey "k" ∧
        a.resourceUrl "https" uniqueKey =
          "https://host1:9000/v1/users:byUUID/\x7b\x7baccess_key\x7d?key=k" := by
  let a : AuthMethod :=
    { host := "host1", port := 9000
      path := "/v1/users:byUUID/" ++ identifierPlaceholder ++ "?key=" ++ accessKeyPlaceholder
      variant := .apiKey "k" }
  let uniqueKey := "\x7b\x7baccess_key\x7d"
  let front := "https://host1:9000/v1/users:byUUID/".toList
  have ht : a.template "https" =
      front ++ (identifierPlaceholder.toList ++ ("?key=" ++ accessKeyPlaceholder).toList) := by
    decide +kernel
  have ht' : a.template "https" = (front ++ (identifierPlaceholder ++ "?key=").toList) ++
      (accessKeyPlaceholder.toList ++ []) := by
    decide +kernel
  have hf : ¬ a.UniqueKeyForges "https" uniqueKey := by
    rw [UniqueKeyForges, ht, forges_iff] <;> decide +kernel
  have hf' : ¬ a.AccessKeyForges "https" "k" := by
    rw [AccessKeyForges, ht', forges_iff] <;> decide +kernel
  obtain ⟨-, h, -, -⟩ := filled_at_once_unless_forged a "https" uniqueKey
  obtain ⟨hurl, hturn⟩ := h "k" rfl hf
  exact ⟨a, uniqueKey, rfl, rfl, rfl, hf, hf', hurl, hturn hf', by decide +kernel⟩

/-- A binding and an auth method that pass their checks, and a unique key that takes the access key to a
place where the template has the unique key. -/
theorem access_key_in_unique_key :
    ∃ (w : World) (s : State) (a : AuthMethod) (b : Binding),
      (run w (AuthMethods.validate a) s).1 = .ok () ∧ (run w (Bindings.validate b) s).1 = .ok () ∧
        a.path = "/v1/users:byUUID/" ++ identifierPlaceholder ++ "?key=" ++ accessKeyPlaceholder ∧
        a.variant = .apiKey "secret" ∧ b.uniqueKey = accessKeyPlaceholder ∧
        a.resourceUrl "https" b.uniqueKey =
          "https://host1:9000/v1/users:byUUID/secret?key=" ++ accessKeyPlaceholder ∧
        a.filledAtOnce "https" b.uniqueKey "secret" =
          "https://host1:9000/v1/users:byUUID/" ++ accessKeyPlaceholder ++ "?key=secret" ∧
        a.filledInTurn "https" b.uniqueKey "secret" = a.filledAtOnce "https" b.uniqueKey "secret" := by
  let t : ServiceType := { hosts := ["host1"], authTypes := ["x509"], uuid := "1" }
  let a : AuthMethod :=
    { serviceUuid := "1", host := "host1", port := 9000, retrievalField := "token"
      path := "/v1/users:byUUID/" ++ identifierPlaceholder ++ "?key=" ++ accessKeyPlaceholder
      variant := .apiKey "secret" }
  let b : Binding :=
    { name := "b", serviceUuid := "1", host := "host1", authIdentifier := "CN=c", authType := "x509"
      uniqueKey := accessKeyPlaceholder }
  let s : State := ⟨⟨⟨[t], by decide⟩, ∅, ∅⟩, 0, []⟩
  let w : World := ⟨fun _ ↦ none, ⟨1700000000, 0⟩, fun n ↦ toString n⟩
  exact ⟨w, s, a, b, by decide +kernel, by decide +kernel, rfl, rfl, rfl, by decide +kernel,
    by decide +kernel, by decide +kernel⟩

end AuthMethod

end CertGate
