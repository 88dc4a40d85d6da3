import CertGate.Proofs.Url.Domain
import CertGate.Url.Reader
import Mathlib.Data.List.TakeDrop
import Mathlib.Data.Option.Basic

namespace CertGate.Url

variable {c : Char} {cs host rest : List Char} {h : Host}

def isAddressChar (c : Char) : Bool := isHexDigit c || c == ':' || c == '.'

theorem isAddressChar_of_isDigit (h : c.isDigit = true) : isAddressChar c = true := by
  simp [isAddressChar, isHexDigit, h]

theorem all_of_octet? {n : Nat} (h : octet? cs = some n) (hc : c ∈ cs) : c.isDigit = true := by
  rw [octet?] at h
  split at h
  · rename_i hd
    exact List.all_eq_true.1 hd.2.1 c hc
  · cases h

theorem isAddressChar_of_dottedPieces? {ps : List Nat} (h : dottedPieces? cs = some ps) (hc : c ∈ cs) :
    isAddressChar c = true := by
  by_cases hdot : c = '.'
  · simp [isAddressChar, hdot]
  · rw [dottedPieces?] at h
    split at h
    · rename_i hm
      obtain ⟨part, hp, hc⟩ := exists_mem_splitOn hdot hc
      obtain ⟨n, -, hn⟩ := exists_of_mapM hm hp
      exact isAddressChar_of_isDigit (all_of_octet? hn hc)
    · cases h

theorem isAddressChar_of_all (h : cs.all isHexDigit = true) (hc : c ∈ cs) : isAddressChar c = true := by
  simp [isAddressChar, List.all_eq_true.1 h c hc]

theorem isAddressChar_of_pieces? {atEnd : Bool} {parts : List (List Char)} {ps : List Nat}
    (h : pieces? atEnd parts = some ps) (hp : cs ∈ parts) (hc : c ∈ cs) : isAddressChar c = true := by
  fun_induction pieces? atEnd parts generalizing ps with
  | case1 => cases hp
  | case2 p hd => exact isAddressChar_of_dottedPieces? h (List.mem_singleton.1 hp ▸ hc)
  | case3 p hn hx => exact isAddressChar_of_all hx.2.2 (List.mem_singleton.1 hp ▸ hc)
  | case4 => cases h
  | case5 p ps hn hx ih =>
    obtain ⟨qs, hq, -⟩ := Option.map_eq_some_iff.1 h
    rcases List.mem_cons.1 hp with rfl | hp
    · exact isAddressChar_of_all hx.2.2 hc
    · exact ih hq hp
  | case6 => cases h

theorem isAddressChar_of_run? {atEnd : Bool} {ps : List Nat} (h : run? atEnd cs = some ps)
    (hc : c ∈ cs) : isAddressChar c = true := by
  by_cases hcolon : c = ':'
  · simp [isAddressChar, hcolon]
  · rw [run?, if_neg (List.ne_nil_of_mem hc)] at h
    obtain ⟨part, hp, hc⟩ := exists_mem_splitOn hcolon hc
    exact isAddressChar_of_pieces? h hp hc

theorem eq_of_cutAtGap {a b : List Char} (h : cutAtGap cs = some (a, b)) : cs = a ++ ':' :: ':' :: b := by
  fun_induction cutAtGap cs generalizing a with
  | case1 => simp_all
  | case2 c rest hn ih =>
    obtain ⟨⟨x, y⟩, hx, he⟩ := Option.map_eq_some_iff.1 h
    cases he
    rw [ih hx, List.cons_append]
  | case3 => cases h

theorem isAddressChar_of_ipv6? {ps : List Nat} (h : ipv6? cs = some ps) (hc : c ∈ cs) :
    isAddressChar c = true := by
  rw [ipv6?] at h
  split at h
  · simp only [Option.bind_eq_bind, Option.bind_eq_some_iff] at h
    obtain ⟨ps, hr, -⟩ := h
    exact isAddressChar_of_run? hr hc
  · rename_i hg
    simp only [Option.bind_eq_bind, Option.bind_eq_some_iff] at h
    obtain ⟨front, hf, back, hb, -⟩ := h
    rw [eq_of_cutAtGap hg, List.mem_append, List.mem_cons, List.mem_cons] at hc
    rcases hc with hc | rfl | rfl | hc
    · exact isAddressChar_of_run? hf hc
    · rfl
    · rfl
    · exact isAddressChar_of_run? hb hc

def endsHost (c : Char) : Bool := isTrimmed c || endsAuthority true c || c == '@'

/-- Among the barred characters are all that have a meaning in an authority. -/
theorem barred_of_endsHost (h : endsHost c = true ∨ c ∈ [':', '[', ']']) : Barred c := by
  have hc : c.toNat < 128 := by
    simp only [endsHost, isTrimmed, endsAuthority, isSlash, Bool.or_eq_true, beq_iff_eq,
      decide_eq_true_eq, Bool.and_eq_true, List.mem_cons, List.not_mem_nil, or_false] at h
    rcases h with ((h | ((rfl | ⟨-, rfl⟩) | rfl) | rfl) | rfl) | rfl | rfl | rfl
    · omega
    all_goals decide
  exact forall_ascii (P := fun c ↦ endsHost c = true ∨ c ∈ [':', '[', ']'] → Barred c)
    (by decide +kernel) hc h

theorem endsHost_of_isAddressChar (h : isAddressChar c = true) : endsHost c = false ∧ c ≠ ']' := by
  have hc : c.toNat < 128 := by
    have hle : ∀ d : Char, c ≤ d → d.toNat < 128 → c.toNat < 128 := fun d hcd hd ↦
      Nat.lt_of_le_of_lt (UInt32.le_iff_toNat_le.1 (Char.le_def.1 hcd)) hd
    simp only [isAddressChar, isHexDigit, Char.isDigit, Bool.or_eq_true, Bool.and_eq_true,
      decide_eq_true_eq, beq_iff_eq] at h
    rcases h with (((h | h) | h) | rfl) | rfl
    · exact hle '9' h.2 (by decide)
    · exact hle 'f' h.2 (by decide)
    · exact hle 'F' h.2 (by decide)
    all_goals decide
  exact forall_ascii (P := fun c ↦ isAddressChar c = true → endsHost c = false ∧ c ≠ ']')
    (by decide +kernel) hc h

theorem host?_cases (hh : host? true cs = some h) :
    (∀ c ∈ cs, ¬ Barred c) ∨ ∃ address, cs = '[' :: address ++ [']'] ∧
      ∀ c ∈ address, isAddressChar c = true := by
  unfold host? at hh
  split at hh
  · rename_i inner
    split at hh
    · rename_i hl
      obtain ⟨address, rfl⟩ := List.getLast?_eq_some_iff.1 hl
      rw [List.dropLast_concat] at hh
      obtain ⟨ps, hp, -⟩ := Option.map_eq_some_iff.1 hh
      exact .inr ⟨address, rfl, fun c hc ↦ isAddressChar_of_ipv6? hp hc⟩
    · cases hh
  · refine .inl fun c hc hb ↦ ?_
    rw [if_pos rfl, domain?_eq_none hb hc] at hh
    cases hh

theorem endsHost_of_host? (hh : host? true cs = some h) (hc : c ∈ cs) : endsHost c = false := by
  rcases host?_cases hh with hb | ⟨address, rfl, ha⟩
  · exact Bool.eq_false_iff.2 fun he ↦ hb c hc (barred_of_endsHost (.inl he))
  · rw [List.cons_append, List.mem_cons, List.mem_append, List.mem_singleton] at hc
    rcases hc with rfl | hc | rfl
    · rfl
    · exact (endsHost_of_isAddressChar (ha c hc)).1
    · rfl

theorem cutPort_append (hc : ∀ c ∈ cs, c ∉ [':', '[', ']']) (rest : List Char) :
    cutPort false (cs ++ ':' :: rest) = (cs, some rest) := by
  induction cs with
  | nil => simp [cutPort]
  | cons c cs ih =>
    have hn := hc c List.mem_cons_self
    simp only [List.mem_cons, List.not_mem_nil, or_false, not_or] at hn
    have ih := ih fun d hd ↦ hc d (List.mem_cons_of_mem _ hd)
    simp [cutPort, hn, ih]

theorem cutPort_in_brackets (hc : ∀ c ∈ cs, c ≠ ']') (rest : List Char) :
    cutPort true (cs ++ ']' :: ':' :: rest) = (cs ++ [']'], some rest) := by
  induction cs with
  | nil => simp [cutPort]
  | cons c cs ih =>
    have hn := hc c List.mem_cons_self
    have ih := ih fun d hd ↦ hc d (List.mem_cons_of_mem _ hd)
    simp [cutPort, hn, ih]

theorem cutPort_of_host? (hh : host? true cs = some h) (rest : List Char) :
    cutPort false (cs ++ ':' :: rest) = (cs, some rest) := by
  rcases host?_cases hh with hb | ⟨address, rfl, ha⟩
  · exact cutPort_append (fun c hc he ↦ hb c hc (barred_of_endsHost (.inr he))) rest
  · have := cutPort_in_brackets (fun c hc ↦ (endsHost_of_isAddressChar (ha c hc)).2) rest
    simp [cutPort, this]

def withoutBreaks (cs : List Char) : List Char := cs.filter fun c ↦ c != '\t' && c != '\n' && c != '\r'

def trimmedEnd (cs : List Char) : List Char := (cs.reverse.dropWhile isTrimmed).reverse

def cleanedEnd (cs : List Char) : List Char := withoutBreaks (trimmedEnd cs)

theorem isTrimmed_of_break (h : (c != '\t' && c != '\n' && c != '\r') = false) : isTrimmed c = true := by
  simp only [Bool.and_eq_false_iff, bne_eq_false_iff_eq] at h
  rcases h with (rfl | rfl) | rfl <;> rfl

theorem withoutBreaks_of_not_trimmed (hc : ∀ c ∈ cs, isTrimmed c = false) : withoutBreaks cs = cs := by
  refine List.filter_eq_self.2 fun c hm ↦ by_contra fun hb ↦ ?_
  exact absurd (isTrimmed_of_break (Bool.eq_false_iff.2 hb)) (by simp [hc c hm])

theorem withoutBreaks_append (cs rest : List Char) :
    withoutBreaks (cs ++ rest) = withoutBreaks cs ++ withoutBreaks rest := List.filter_append ..

theorem trimmedEnd_append (hc : isTrimmed c = false) (cs rest : List Char) :
    trimmedEnd (cs ++ c :: rest) = cs ++ c :: trimmedEnd rest := by
  have hcs : (c :: cs.reverse).dropWhile isTrimmed = c :: cs.reverse :=
    List.dropWhile_cons_of_neg (by simp [hc])
  rw [trimmedEnd, trimmedEnd, List.reverse_append, List.reverse_cons, List.append_assoc,
    List.singleton_append, List.dropWhile_append, hcs]
  split
  · rename_i hr
    simp [List.isEmpty_iff.1 hr]
  · simp

theorem cleanedEnd_append (hc : isTrimmed c = false) (cs rest : List Char) :
    cleanedEnd (cs ++ c :: rest) = withoutBreaks cs ++ c :: cleanedEnd rest := by
  have hb : withoutBreaks [c] = [c] := withoutBreaks_of_not_trimmed (by simpa using hc)
  rw [cleanedEnd, trimmedEnd_append hc, withoutBreaks_append, ← List.singleton_append,
    withoutBreaks_append, hb]
  rfl

theorem mem_of_mem_cleanedEnd (hc : c ∈ cleanedEnd cs) : c ∈ cs := by
  have ht := (List.mem_filter.1 hc).1
  exact List.mem_reverse.1 ((List.dropWhile_sublist _).subset (List.mem_reverse.1 ht))

theorem isTrimmed_of_cleanedEnd_eq_nil (h : cleanedEnd cs = []) (hc : c ∈ cs) : isTrimmed c = true := by
  by_contra hn
  obtain ⟨front, rest, rfl⟩ := List.append_of_mem hc
  rw [cleanedEnd_append (by simpa using hn)] at h
  exact List.append_ne_nil_of_right_ne_nil _ (List.cons_ne_nil _ _) h

theorem cleaned_append (hne : cs ≠ []) (hc : ∀ c ∈ cs, isTrimmed c = false) (rest : List Char) :
    cleaned (String.ofList (cs ++ rest)) = cs ++ cleanedEnd rest := by
  have hfirst : (cs ++ rest).dropWhile isTrimmed = cs ++ rest := by
    cases cs with
    | nil => exact absurd rfl hne
    | cons c cs => exact List.dropWhile_cons_of_neg (by simp [hc c List.mem_cons_self])
  obtain ⟨front, c, rfl⟩ : ∃ front c, cs = front ++ [c] :=
    ⟨_, _, (List.dropLast_concat_getLast hne).symm⟩
  rw [cleaned, String.toList_ofList, hfirst]
  change cleanedEnd _ = _
  rw [List.append_assoc, List.singleton_append, cleanedEnd_append (hc c (by simp)),
    withoutBreaks_of_not_trimmed fun d hd ↦ hc d (by simp [hd]), List.append_assoc,
    List.singleton_append]

/-- What a text that comes after a port adds to the authority. -/
def added (cs : List Char) : List Char := (cleanedEnd cs).takeWhile (!endsAuthority true ·)

def cleanedRest (cs : List Char) : List Char := (cleanedEnd cs).dropWhile (!endsAuthority true ·)

theorem not_isTrimmed_of_endsAuthority (h : endsAuthority true c = true) : isTrimmed c = false := by
  simp only [endsAuthority, isSlash, Bool.true_and, Bool.or_eq_true, beq_iff_eq] at h
  rcases h with ((rfl | rfl) | rfl) | rfl <;> rfl

section Front

variable {front : List Char} (hf : ∀ c ∈ front, endsAuthority true c = false)
  (hr : ∀ c ∈ rest.head?, endsAuthority true c = true)

include hf hr

theorem added_append :
    added (front ++ rest) = if rest = [] then cleanedEnd front else withoutBreaks front := by
  cases rest with
  | nil =>
    rw [if_pos rfl, List.append_nil, added]
    exact List.takeWhile_eq_self_iff.2 fun c hc ↦ by simp [hf c (mem_of_mem_cleanedEnd hc)]
  | cons c rest =>
    have hc : endsAuthority true c = true := hr c rfl
    have hs : ∀ d ∈ withoutBreaks front, (!endsAuthority true d) = true := fun d hd ↦ by
      simp [hf d (List.mem_filter.1 hd).1]
    rw [if_neg (List.cons_ne_nil c rest), added,
      cleanedEnd_append (not_isTrimmed_of_endsAuthority hc), List.takeWhile_append_of_pos hs,
      List.takeWhile_cons_of_neg (by simp [hc]), List.append_nil]

theorem mem_of_mem_added (hc : c ∈ added (front ++ rest)) : c ∈ front := by
  rw [added_append hf hr] at hc
  split at hc
  · exact mem_of_mem_cleanedEnd hc
  · exact (List.mem_filter.1 hc).1

theorem isTrimmed_of_added_eq_nil (h : added (front ++ rest) = []) (hc : c ∈ front) :
    isTrimmed c = true := by
  rw [added_append hf hr] at h
  split at h
  · exact isTrimmed_of_cleanedEnd_eq_nil h hc
  · exact isTrimmed_of_break (Bool.eq_false_iff.2 (List.filter_eq_nil_iff.1 h c hc))

end Front

theorem isDigit_of_mem_toDigits {n : Nat} (hc : c ∈ Nat.toDigits 10 n) : c.isDigit = true :=
  Nat.isDigit_of_mem_toDigits (by decide) (by decide) hc

theorem ofDigits_toDigits (n : Nat) : ofDigits 10 (Nat.toDigits 10 n) = n := by
  have hfold : ∀ (cs : List Char) (m : Nat), (∀ c ∈ cs, c.isDigit = true) →
      cs.foldl (fun n c ↦ n * 10 + digitValue c) m = Nat.ofDigitChars 10 cs m := by
    intro cs
    induction cs with
    | nil => exact fun m _ ↦ rfl
    | cons c cs ih =>
      intro m hc
      have hd : digitValue c = c.toNat - 48 := by
        have hle := (Char.isDigit_iff_toNat.1 (hc c List.mem_cons_self)).2
        exact if_pos hle
      rw [List.foldl_cons, ih _ fun d hd ↦ hc d (List.mem_cons_of_mem _ hd), hd, Nat.mul_comm]
      rfl
  rw [ofDigits, hfold _ _ fun c hc ↦ isDigit_of_mem_toDigits hc]
  exact Nat.ofDigitChars_toDigits (by decide) (by decide)

theorem port?_toDigits {n : Nat} (hn : n < 65536) (scheme : String) :
    port? scheme (Nat.toDigits 10 n) = some (if defaultPort? scheme = some n then none else some n) := by
  have hd : (Nat.toDigits 10 n).all Char.isDigit = true :=
    List.all_eq_true.2 fun c hc ↦ isDigit_of_mem_toDigits hc
  rw [port?, if_pos hd, if_neg Nat.toDigits_ne_nil, ofDigits_toDigits]
  exact if_pos hn

theorem all_of_port? {scheme : String} {p : Option Nat} (h : port? scheme cs = some p) (hc : c ∈ cs) :
    c.isDigit = true := by
  rw [port?] at h
  split at h
  · rename_i hd
    exact List.all_eq_true.1 hd c hc
  · cases h

theorem cutCredentials_eq_none (h : '@' ∉ cs) : cutCredentials cs = none := by
  have hs : splitOn '@' cs = [cs] := by
    induction cs with
    | nil => rfl
    | cons c cs ih =>
      rw [List.mem_cons, not_or] at h
      rw [splitOn, if_neg (Ne.symm h.1), ih h.2]
  rw [cutCredentials, hs]
  rfl

theorem exists_withTail (u : Url) (cs : List Char) :
    ∃ query fragment, withTail u cs = { u with query, fragment } := by
  unfold withTail
  dsimp only
  split <;> split <;> exact ⟨_, _, rfl⟩

theorem exists_withPathStart (u : Url) (cs : List Char) :
    ∃ path query fragment, withPathStart u cs = { u with path, query, fragment } := by
  have hpath : ∃ path, withPathStart u cs = withTail { u with path } (tail cs) := by
    unfold withPathStart
    dsimp only
    split
    · split_ifs <;> exact ⟨_, rfl⟩
    · split_ifs <;> exact ⟨_, rfl⟩
  obtain ⟨path, hp⟩ := hpath
  obtain ⟨query, fragment, ht⟩ := exists_withTail { u with path } (tail cs)
  exact ⟨path, query, fragment, hp.trans ht⟩

def assembled (scheme : String) (host : List Char) (port : Nat) (rest : List Char) : List Char :=
  scheme.toList ++ "://".toList ++ host ++ ':' :: Nat.toDigits 10 port ++ rest

variable {scheme : String} {n : Nat}

theorem ne_nil_of_host? (hh : host? true host = some h) : host ≠ [] := by
  rintro rfl
  cases hh

theorem authority?_of_host? (hs : scheme = "http" ∨ scheme = "https")
    (hh : host? true host = some h) (hat : '@' ∉ cs) :
    authority? scheme (host ++ ':' :: cs) =
      (port? scheme cs).map fun port ↦ { scheme, host := some h, port } := by
  have hspecial : isSpecial scheme = true := by rcases hs with rfl | rfl <;> rfl
  have hhost : '@' ∉ host := fun hc ↦ by cases endsHost_of_host? hh hc
  have hnone : cutCredentials (host ++ ':' :: cs) = none := cutCredentials_eq_none (by simp [hhost, hat])
  simp only [authority?, hnone, Option.getD_none, cutPort_of_host? hh, hspecial, Option.getD_some, hh]
  cases port? scheme cs with
  | none => simp [guard, ne_nil_of_host? hh]
  | some port => simp [guard, ne_nil_of_host? hh, escaped, escape]

theorem endsHost_of_mem_hostPort (hh : host? true host = some h) (n : Nat)
    (hc : c ∈ host ++ ':' :: Nat.toDigits 10 n) : endsHost c = false := by
  rw [List.mem_append, List.mem_cons] at hc
  rcases hc with hc | rfl | hc
  · exact endsHost_of_host? hh hc
  · rfl
  · exact (endsHost_of_isAddressChar (isAddressChar_of_isDigit (isDigit_of_mem_toDigits hc))).1

theorem of_endsHost (hc : endsHost c = false) :
    isTrimmed c = false ∧ endsAuthority true c = false ∧ c ≠ '@' := by
  simpa [endsHost, and_assoc] using hc

theorem fromAuthority?_of_host? (hs : scheme = "http" ∨ scheme = "https")
    (hh : host? true host = some h) (hat : '@' ∉ added rest) :
    fromAuthority? scheme (host ++ ':' :: Nat.toDigits 10 n ++ cleanedEnd rest) =
      (port? scheme (Nat.toDigits 10 n ++ added rest)).map fun port ↦
        withPathStart { scheme, host := some h, port } (cleanedRest rest) := by
  have hspecial : isSpecial scheme = true := by rcases hs with rfl | rfl <;> rfl
  have hmem : ∀ c ∈ host ++ ':' :: Nat.toDigits 10 n, (!endsAuthority true c) = true := fun c hc ↦ by
    simp [(of_endsHost (endsHost_of_mem_hostPort hh n hc)).2.1]
  have hdigits : '@' ∉ Nat.toDigits 10 n := fun hc ↦ by
    cases isDigit_of_mem_toDigits hc
  have hno : '@' ∉ Nat.toDigits 10 n ++ added rest := by simp [hdigits, hat]
  rw [fromAuthority?, hspecial, List.takeWhile_append_of_pos hmem, List.dropWhile_append_of_pos hmem,
    List.append_assoc, List.cons_append]
  change (authority? scheme (host ++ ':' :: (Nat.toDigits 10 n ++ added rest)) >>= _) = _
  rw [authority?_of_host? hs hh hno]
  cases port? scheme (Nat.toDigits 10 n ++ added rest) <;> rfl

/-- Whether an address can be read, and what its port is, turns on what is added to the port. -/
theorem parse?_assembled (hs : scheme = "http" ∨ scheme = "https") (hh : host? true host = some h)
    (hat : '@' ∉ added rest) :
    parse? (String.ofList (assembled scheme host n rest)) =
      (port? scheme (Nat.toDigits 10 n ++ added rest)).map fun port ↦
        withPathStart { scheme, host := some h, port } (cleanedRest rest) := by
  have hclean : cleaned (String.ofList (assembled scheme host n rest)) =
      scheme.toList ++ ':' :: '/' :: '/' :: (host ++ ':' :: Nat.toDigits 10 n ++ cleanedEnd rest) := by
    have hp : (scheme.toList ++ "://".toList).all (!isTrimmed ·) = true := by
      rcases hs with rfl | rfl <;> decide
    have hne : scheme.toList ++ "://".toList ++ (host ++ ':' :: Nat.toDigits 10 n) ≠ [] := by simp
    have hall : ∀ c ∈ scheme.toList ++ "://".toList ++ (host ++ ':' :: Nat.toDigits 10 n),
        isTrimmed c = false := fun c hc ↦ by
      rcases List.mem_append.1 hc with hc | hc
      · simpa using List.all_eq_true.1 hp c hc
      · exact (of_endsHost (endsHost_of_mem_hostPort hh n hc)).1
    simpa [assembled] using cleaned_append hne hall rest
  have hscheme : ∀ cs, scheme? (scheme.toList ++ ':' :: cs) = some (scheme, cs) := by
    rcases hs with rfl | rfl <;> exact fun cs ↦ rfl
  have habsolute : ∀ cs,
      absolute? none scheme cs = fromAuthority? scheme (cs.dropWhile (isSlash true)) := by
    rcases hs with rfl | rfl <;> exact fun cs ↦ rfl
  have hslash : (host ++ ':' :: Nat.toDigits 10 n ++ cleanedEnd rest).dropWhile (isSlash true) =
      host ++ ':' :: Nat.toDigits 10 n ++ cleanedEnd rest := by
    obtain ⟨c, cs, hcs⟩ := List.exists_cons_of_ne_nil (ne_nil_of_host? hh)
    have hc := (of_endsHost (endsHost_of_host? hh (c := c) (by simp [hcs]))).2.1
    have hc : isSlash true c = false := by
      simp only [endsAuthority, Bool.or_eq_false_iff] at hc
      exact hc.1.1
    rw [hcs]
    exact List.dropWhile_cons_of_neg (by simp [hc])
  rw [parse?, resolve?, hclean, hscheme]
  change absolute? none scheme _ = _
  rw [habsolute]
  exact (congrArg (fromAuthority? scheme) hslash).trans (fromAuthority?_of_host? hs hh hat)

theorem exists_parse?_assembled (hs : scheme = "http" ∨ scheme = "https") (hh : host? true host = some h)
    (hn : n < 65536) (ha : added rest = []) :
    ∃ u, parse? (String.ofList (assembled scheme host n rest)) = some u ∧ u.host = some h ∧
      u.effectivePort? = some n := by
  rw [parse?_assembled hs hh (by simp [ha]), ha, List.append_nil, port?_toDigits hn]
  obtain ⟨path, query, fragment, hu⟩ := exists_withPathStart
    { scheme, host := some h, port := if defaultPort? scheme = some n then none else some n }
    (cleanedRest rest)
  refine ⟨_, congrArg some hu, rfl, ?_⟩
  rw [effectivePort?]
  dsimp only
  split
  · assumption
  · rfl

theorem isDigit_of_parse?_assembled {u : Url} (hs : scheme = "http" ∨ scheme = "https")
    (hh : host? true host = some h) (hat : '@' ∉ added rest)
    (hu : parse? (String.ofList (assembled scheme host n rest)) = some u) (hc : c ∈ added rest) :
    c.isDigit = true := by
  rw [parse?_assembled hs hh hat] at hu
  obtain ⟨port, hp, -⟩ := Option.map_eq_some_iff.1 hu
  exact all_of_port? hp (List.mem_append_right _ hc)

end CertGate.Url
