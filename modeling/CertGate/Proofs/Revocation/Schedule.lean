import CertGate.Proofs.Revocation.Partition
import CertGate.Revocation.Schedule

namespace CertGate.Revocation

theorem exists_mem_set {α : Type} {P : α → Prop} {as : List α} {i : Nat} {a b : α}
    (hi : as[i]? = some a) (hab : P a → P b) (h : ∃ c ∈ as, P c) : ∃ c ∈ as.set i b, P c := by
  obtain ⟨c, hc, hP⟩ := h
  obtain ⟨j, hj⟩ := List.mem_iff_getElem?.1 hc
  have hlt : i < as.length := (List.getElem?_eq_some_iff.1 hi).1
  by_cases hij : i = j
  · subst hij
    obtain rfl : a = c := Option.some_inj.1 (hi.symm.trans hj)
    exact ⟨b, List.mem_set hlt b, hab hP⟩
  · refine ⟨c, List.mem_iff_getElem?.2 ⟨j, ?_⟩, hP⟩
    rw [List.getElem?_set_ne hij, hj]

theorem forall_mem_set {α : Type} {P : α → Prop} {as : List α} {i : Nat} {b : α}
    (h : ∀ a ∈ as, P a) (hb : P b) : ∀ a ∈ as.set i b, P a := by
  intro a ha
  rcases List.mem_or_eq_of_mem_set ha with ha | rfl
  · exact h a ha
  · exact hb

theorem map_set_eq {α β : Type} {f : α → β} {as : List α} {i : Nat} {a b : α}
    (hi : as[i]? = some a) (hab : f b = f a) : (as.set i b).map f = as.map f := by
  refine List.ext_getElem? fun j ↦ ?_
  rw [List.getElem?_map, List.getElem?_map]
  by_cases hij : i = j
  · subst hij
    rw [List.getElem?_set_self (List.getElem?_eq_some_iff.1 hi).1, hi, Option.map_some,
      Option.map_some, hab]
  · rw [List.getElem?_set_ne hij]

/-- Whether the serial number is before a worker still, or has been found by it. -/
def Worker.Holds (target : Nat) : Worker → Prop
  | looking left => target ∈ left
  | comparing n left => target ∈ n :: left
  | matched => True
  | ended found => found = true
  | joined => False

namespace Worker

variable {target : Nat} {cancelled : Bool} {w : Worker}

theorem Holds.of_next (h : (w.next target cancelled).1.Holds target) : w.Holds target := by
  cases w with
  | looking left =>
    cases left with
    | nil => simp [next, Holds] at h
    | cons n left => cases cancelled <;> simp_all [next, Holds]
  | comparing n left =>
    by_cases hn : n = target
    · simp [Holds, hn]
    · simp only [next, hn, ↓reduceIte] at h
      exact List.mem_cons_of_mem n h
  | matched => trivial
  | ended found => exact h
  | joined => exact h

theorem Holds.next (h : w.Holds target) (hc : cancelled = false) :
    (w.next target cancelled).1.Holds target := by
  subst hc
  cases w with
  | looking left =>
    cases left with
    | nil => simp [Holds] at h
    | cons n left => exact h
  | comparing n left =>
    by_cases hn : n = target
    · simp [Worker.next, Holds, hn]
    · simp only [Worker.next, hn, ↓reduceIte]
      exact (List.mem_cons.1 h).resolve_left (Ne.symm hn)
  | matched => rfl
  | ended found => exact h
  | joined => exact h

theorem eq_matched_of_cancels (h : (w.next target cancelled).2 = true) : w = matched := by
  cases w with
  | looking left => cases left <;> cases cancelled <;> simp [next] at h
  | comparing n left => simp [next] at h
  | matched => rfl
  | ended found => simp [next] at h
  | joined => simp [next] at h

end Worker

namespace PointState

def Listed (target : Nat) (p : PointState) : Prop := ∃ serials, p.list = some serials ∧ target ∈ serials

def Clear (target : Nat) (p : PointState) : Prop := ∃ serials, p.list = some serials ∧ target ∉ serials

/-- The failure of a point says what is wrong with its list. -/
def Fault (target : Nat) (p : PointState) (e : Error) : Prop :=
  (e = revoked ∧ p.Listed target) ∨ (e = .crlUnreachable p.url ∧ p.list = none)

/-- What holds of each point until the check has an outcome. Before the token is cancelled no worker
lets go of the number, so that a point that ends well has a list without it. -/
structure Faithful (target : Nat) (cancelled : Bool) (p : PointState) : Prop where
  idle : p.phase = .fetching → p.workers = []
  found : ∀ w ∈ p.workers, w.Holds target → p.Listed target
  kept : p.phase = .scanning → cancelled = true ∨ p.Clear target ∨ ∃ w ∈ p.workers, w.Holds target
  settled : p.phase = .ended (.ok ()) ∨ p.phase = .joined →
    (cancelled = true ∨ p.Clear target) ∧ ∀ w ∈ p.workers, w = .joined
  fault : ∀ e, p.phase = .ended (.error e) → p.Fault target e

theorem Faithful.mono {target : Nat} {b c : Bool} {p : PointState} (h : p.Faithful target b)
    (hbc : b = true → c = true) : p.Faithful target c where
  idle := h.idle
  found := h.found
  kept hp := (h.kept hp).imp_left hbc
  settled hp := ⟨(h.settled hp).1.imp_left hbc, (h.settled hp).2⟩
  fault := h.fault

/-- A failure that is still to be joined. -/
def Owes (p : PointState) : Prop :=
  (p.phase = .scanning ∧ ∃ w ∈ p.workers, w = .ended true) ∨ ∃ e, p.phase = .ended (.error e)

end PointState

namespace CheckState

variable {workers target : Nat} {lists : List (String × Option (List Nat))} {s t : CheckState}

structure Open (target : Nat) (s : CheckState) : Prop where
  faithful : ∀ p ∈ s.points, p.Faithful target s.cancelled
  owes : s.cancelled = true → ∃ p ∈ s.points, p.Owes

/-- What an outcome says of the lists. -/
def Sound (target : Nat) (lists : List (String × Option (List Nat))) : Result Unit → Prop
  | .ok () => ∀ l ∈ lists, ∃ serials, l.2 = some serials ∧ target ∉ serials
  | .error e => (e = revoked ∧ ∃ l ∈ lists, ∃ serials, l.2 = some serials ∧ target ∈ serials) ∨
      ∃ url, e = .crlUnreachable url ∧ (url, none) ∈ lists

structure Invariant (target : Nat) (lists : List (String × Option (List Nat))) (s : CheckState) :
    Prop where
  lists_eq : s.points.map (fun p ↦ (p.url, p.list)) = lists
  isOpen : s.outcome = none → s.Open target
  sound : ∀ r, s.outcome = some r → Sound target lists r

theorem Open.setPoint {i : Nat} {p q : PointState} (h : s.Open target) (hp : s.points[i]? = some p)
    (hq : q.Faithful target s.cancelled) (ho : p.Owes → q.Owes) : (s.setPoint i q).Open target where
  faithful := forall_mem_set h.faithful hq
  owes hc := exists_mem_set hp ho (h.owes hc)

theorem Invariant.mem_lists {p : PointState} (h : s.Invariant target lists) (hp : p ∈ s.points) :
    (p.url, p.list) ∈ lists := by
  rw [← h.lists_eq]
  exact List.mem_map_of_mem hp

/-- A step of one point keeps the invariant if the point stays faithful and keeps its failure. -/
theorem Invariant.setPoint {i : Nat} {p q : PointState} (h : s.Invariant target lists)
    (hp : s.points[i]? = some p) (ho : s.outcome = none) (he : (q.url, q.list) = (p.url, p.list))
    (hq : q.Faithful target s.cancelled) (hpq : p.Owes → q.Owes) :
    (s.setPoint i q).Invariant target lists where
  lists_eq := (map_set_eq hp he).trans h.lists_eq
  isOpen _ := (h.isOpen ho).setPoint hp hq hpq
  sound r hr := by simp [CheckState.setPoint, ho] at hr

theorem invariant_start : (start lists).Invariant target lists where
  lists_eq := by simp [start, Function.comp_def]
  isOpen _ := by
    refine ⟨fun p hp ↦ ?_, fun hc ↦ by simp [start] at hc⟩
    obtain ⟨l, -, rfl⟩ := List.mem_map.1 hp
    exact ⟨fun _ ↦ rfl, by simp, by simp, by simp, by simp⟩
  sound r hr := by simp [start] at hr

theorem exists_holds_workersFor {serials : List Nat} :
    (∃ w ∈ workersFor workers serials, w.Holds target) ↔ target ∈ serials := by
  rw [← exists_chunk_iff workers]
  constructor
  · rintro ⟨w, hw, hh⟩
    obtain ⟨c, hc, rfl⟩ := List.mem_map.1 hw
    exact ⟨c, hc, hh⟩
  · rintro ⟨c, hc, hh⟩
    exact ⟨_, List.mem_map_of_mem hc, hh⟩

theorem faithful_fetched {p : PointState} {serials : List Nat} {cancelled : Bool}
    (hl : p.list = some serials) :
    { p with phase := .scanning, workers := workersFor workers serials }.Faithful target cancelled where
  idle h := by simp at h
  found w hw hh := ⟨serials, hl, exists_holds_workersFor.1 ⟨w, hw, hh⟩⟩
  kept _ := by
    by_cases ht : target ∈ serials
    · exact .inr (.inr (exists_holds_workersFor.2 ht))
    · exact .inr (.inl ⟨serials, hl, ht⟩)
  settled h := by simp at h
  fault e h := by simp at h

/-- A worker's step keeps a point faithful, with the token as it is after the step. -/
theorem faithful_work {p : PointState} {j : Nat} {w : Worker} {cancelled : Bool}
    (h : p.Faithful target cancelled) (hw : p.workers[j]? = some w) :
    { p with workers := p.workers.set j (w.next target cancelled).1 }.Faithful target
      (cancelled || (w.next target cancelled).2) where
  idle hp := by simp [h.idle hp]
  found := forall_mem_set h.found fun hh ↦ h.found w (List.mem_of_getElem? hw) hh.of_next
  kept hp := by
    cases hc : cancelled with
    | true => exact .inl rfl
    | false =>
      subst hc
      rcases h.kept hp with hc | hc | hh
      · simp at hc
      · exact .inr (.inl hc)
      · exact .inr (.inr (exists_mem_set hw (fun hh ↦ hh.next rfl) hh))
  settled hp := by
    obtain ⟨hc, hj⟩ := h.settled hp
    obtain rfl := hj w (List.mem_of_getElem? hw)
    exact ⟨hc.imp_left fun hc ↦ by rw [hc, Bool.true_or], forall_mem_set hj rfl⟩
  fault := h.fault

/-- A point one of whose workers has found the number, and not been joined, owes a failure. -/
theorem owes_of_found {p : PointState} {ws : List Worker} {w : Worker} {cancelled : Bool}
    (h : p.Faithful target cancelled) (hw : w ∈ p.workers) (hj : w ≠ .joined)
    (hf : ∃ v ∈ ws, v = .ended true) : { p with workers := ws }.Owes := by
  cases hp : p.phase with
  | fetching => simp [h.idle hp] at hw
  | scanning => exact .inl ⟨rfl, hf⟩
  | ended r =>
    cases r with
    | ok => exact absurd ((h.settled (.inl hp)).2 w hw) hj
    | error e => exact .inr ⟨e, rfl⟩
  | joined => exact absurd ((h.settled (.inr hp)).2 w hw) hj

theorem Invariant.work {i j : Nat} {p : PointState} {w : Worker} (h : s.Invariant target lists)
    (hp : s.points[i]? = some p) (hw : p.workers[j]? = some w) :
    { s.setPoint i { p with workers := p.workers.set j (w.next target s.cancelled).1 } with
      cancelled := s.cancelled || (w.next target s.cancelled).2 }.Invariant target lists where
  lists_eq := (map_set_eq hp (by rfl)).trans h.lists_eq
  isOpen ho := by
    have hs := h.isOpen ho
    have hpf := hs.faithful p (List.mem_of_getElem? hp)
    refine ⟨forall_mem_set (fun q hq ↦ (hs.faithful q hq).mono fun hc ↦ by simp [hc])
      (faithful_work hpf hw), fun hc ↦ ?_⟩
    rcases Bool.or_eq_true _ _ ▸ hc with hc | hc
    · refine exists_mem_set hp (Or.imp_left fun ho ↦ ⟨ho.1, ?_⟩) (hs.owes hc)
      exact exists_mem_set hw (fun he ↦ by rw [he]; rfl) ho.2
    · obtain rfl := Worker.eq_matched_of_cancels hc
      refine ⟨_, List.mem_set (List.getElem?_eq_some_iff.1 hp).1 _, ?_⟩
      refine owes_of_found hpf (List.mem_of_getElem? hw) (by simp) ⟨.ended true, ?_, rfl⟩
      exact List.mem_set (List.getElem?_eq_some_iff.1 hw).1 _
  sound := h.sound

theorem Invariant.fail {i : Nat} {p q : PointState} {e : Error} (h : s.Invariant target lists)
    (hp : s.points[i]? = some p) (he : p.phase = .ended (.error e)) (ho : s.outcome = none)
    (hq : (q.url, q.list) = (p.url, p.list)) :
    { s.setPoint i q with cancelled := true, outcome := some (.error e) }.Invariant target lists where
  lists_eq := (map_set_eq hp hq).trans h.lists_eq
  isOpen hr := by simp at hr
  sound r hr := by
    obtain rfl : .error e = r := Option.some_inj.1 hr
    have hmem := List.mem_of_getElem? hp
    have hl := h.mem_lists hmem
    rcases ((h.isOpen ho).faithful p hmem).fault e he with ⟨rfl, serials, hs, ht⟩ | ⟨rfl, hn⟩
    · exact .inl ⟨rfl, _, hl, serials, hs, ht⟩
    · exact .inr ⟨p.url, rfl, hn ▸ hl⟩

theorem Invariant.pass (h : s.Invariant target lists) (hj : ∀ p ∈ s.points, p.phase = .joined)
    (ho : s.outcome = none) : { s with outcome := some (.ok ()) }.Invariant target lists where
  lists_eq := h.lists_eq
  isOpen hr := by simp at hr
  sound r hr := by
    obtain rfl : .ok () = r := Option.some_inj.1 hr
    have hs := h.isOpen ho
    have hc : ¬ s.cancelled = true := by
      intro hc
      obtain ⟨p, hp, hw | ⟨e, he⟩⟩ := hs.owes hc
      · simp [hj p hp] at hw
      · simp [hj p hp] at he
    intro l hl
    obtain ⟨p, hp, rfl⟩ := List.mem_map.1 (h.lists_eq ▸ hl)
    exact ((hs.faithful p hp).settled (.inr (hj p hp))).1.resolve_left hc

theorem Invariant.step (h : s.Invariant target lists) (hst : Step workers target s t) :
    t.Invariant target lists := by
  cases hst with
  | giveUp hp hf hc ho =>
    -- It ends without a failure, but the token is cancelled already, so that another point owes one.
    have hpf := (h.isOpen ho).faithful _ (List.mem_of_getElem? hp)
    refine h.setPoint hp ho rfl ⟨by simp, hpf.found, by simp, fun _ ↦ ⟨.inl hc, ?_⟩, by simp⟩ ?_
    · simp [hpf.idle hf]
    · simp [PointState.Owes, hf]
  | unusable hp hf hl ho =>
    have hpf := (h.isOpen ho).faithful _ (List.mem_of_getElem? hp)
    refine h.setPoint hp ho rfl ⟨by simp, hpf.found, by simp, by simp, fun e he ↦ ?_⟩
      fun _ ↦ .inr ⟨_, rfl⟩
    obtain rfl : _ = e := by simpa using he
    exact .inr ⟨rfl, hl⟩
  | fetched hp hf hl ho =>
    exact h.setPoint hp ho rfl (faithful_fetched hl) fun hw ↦ by simp [PointState.Owes, hf] at hw
  | work hp hw => exact h.work hp hw
  | @joinWorker i j p hp hs hw ho =>
    have hpf := (h.isOpen ho).faithful p (List.mem_of_getElem? hp)
    refine h.setPoint hp ho rfl ⟨?_, ?_, ?_, ?_, ?_⟩ ?_
    · simp [hs]
    · exact forall_mem_set hpf.found fun hh ↦ hh.elim
    · exact fun _ ↦ (hpf.kept hs).imp_right <|
        Or.imp_right (exists_mem_set hw fun hh ↦ by simp [Worker.Holds] at hh)
    · simp [hs]
    · simp [hs]
    · exact Or.imp_left fun ho ↦ ⟨ho.1, exists_mem_set hw (fun he ↦ by simp at he) ho.2⟩
  | @joinFinder i j p hp hs hw ho =>
    have hpf := (h.isOpen ho).faithful p (List.mem_of_getElem? hp)
    refine h.setPoint hp ho rfl ⟨by simp, ?_, by simp, by simp, fun e he ↦ ?_⟩ fun _ ↦ .inr ⟨_, rfl⟩
    · exact forall_mem_set hpf.found fun hh ↦ hh.elim
    · obtain rfl : _ = e := by simpa using he
      exact .inl ⟨rfl, hpf.found _ (List.mem_of_getElem? hw) rfl⟩
  | @endPoint i p hp hs hw ho =>
    have hpf := (h.isOpen ho).faithful p (List.mem_of_getElem? hp)
    refine h.setPoint hp ho rfl ⟨by simp, hpf.found, by simp, fun _ ↦ ⟨?_, hw⟩, by simp⟩ ?_
    · refine (hpf.kept hs).imp_right fun hk ↦ hk.resolve_right ?_
      rintro ⟨w, hwm, hh⟩
      rw [hw w hwm] at hh
      exact hh
    · rintro (⟨-, w, hwm, he⟩ | ⟨e, he⟩)
      · simp [hw w hwm] at he
      · simp [hs] at he
  | joinPoint hp he ho =>
    have hpf := (h.isOpen ho).faithful _ (List.mem_of_getElem? hp)
    exact h.setPoint hp ho rfl ⟨by simp, hpf.found, by simp, fun _ ↦ hpf.settled (.inl he), by simp⟩
      fun hw ↦ by simp [PointState.Owes, he] at hw
  | failPoint hp he ho => exact h.fail hp he ho rfl
  | pass hj ho => exact h.pass hj ho

theorem Reachable.invariant (h : Reachable workers target lists s) : s.Invariant target lists := by
  induction h with
  | start => exact invariant_start
  | step _ hst ih => exact ih.step hst

end CheckState

end CertGate.Revocation
