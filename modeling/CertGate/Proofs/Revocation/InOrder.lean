import CertGate.Proofs.Fetch
import CertGate.Proofs.Revocation.Partition
import CertGate.Revocation.Schedule
import Mathlib.Logic.Relation

namespace CertGate.Revocation

open Relation

/-- What the points come to one after the other: the first that fails decides. -/
def verdict (workers target : Nat) (lists : List (String × Option (List Nat))) : Result Unit :=
  lists.forM fun l ↦ judge workers target l.1 l.2

theorem verdict_cons (workers target : Nat) (l : String × Option (List Nat))
    (lists : List (String × Option (List Nat))) :
    verdict workers target (l :: lists) =
      judge workers target l.1 l.2 >>= fun _ ↦ verdict workers target lists := rfl

namespace PointState

variable {p : PointState} {j : Nat} {v w : Worker}

def setWorker (p : PointState) (j : Nat) (w : Worker) : PointState :=
  { p with workers := p.workers.set j w }

theorem setWorker_setWorker : (p.setWorker j v).setWorker j w = p.setWorker j w := by
  simp [setWorker, List.set_set]

theorem getElem?_setWorker (w : Worker) (hw : p.workers[j]? = some v) :
    (p.setWorker j w).workers[j]? = some w :=
  List.getElem?_set_self (List.getElem?_eq_some_iff.1 hw).1

theorem setWorker_self (hw : p.workers[j]? = some w) : p.setWorker j w = p := by
  obtain ⟨hlt, rfl⟩ := List.getElem?_eq_some_iff.1 hw
  rw [setWorker, List.set_getElem_self]

end PointState

namespace CheckState

variable {workers target : Nat} {lists : List (String × Option (List Nat))} {s t : CheckState}
variable {p q : PointState} {i j : Nat}

abbrev Steps (workers target : Nat) := ReflTransGen (Step workers target)

theorem Reachable.trans (h : Reachable workers target lists s) (hst : Steps workers target s t) :
    Reachable workers target lists t := by
  induction hst with
  | refl => exact h
  | tail _ hu ih => exact ih.step hu

theorem setPoint_setPoint : (s.setPoint i p).setPoint i q = s.setPoint i q := by
  simp [setPoint, List.set_set]

theorem getElem?_setPoint (q : PointState) (hp : s.points[i]? = some p) :
    (s.setPoint i q).points[i]? = some q :=
  List.getElem?_set_self (List.getElem?_eq_some_iff.1 hp).1

theorem setPoint_self (hp : s.points[i]? = some p) : s.setPoint i p = s := by
  obtain ⟨hlt, rfl⟩ := List.getElem?_eq_some_iff.1 hp
  rw [setPoint, List.set_getElem_self]

theorem Step.quiet {w v : Worker} (hp : s.points[i]? = some p) (hw : p.workers[j]? = some w)
    (hv : w.next target false = (v, false)) (hc : s.cancelled = false) :
    Step workers target s (s.setPoint i (p.setWorker j v)) := by
  have h : Step workers target s _ := .work s hp hw
  simp only [hc, hv, Bool.or_false] at h
  rw [← hc] at h
  exact h

variable (workers target)

theorem steps_pass {left right : List Nat} (hp : s.points[i]? = some p)
    (hw : p.workers[j]? = some (.looking (left ++ right))) (ht : target ∉ left)
    (hc : s.cancelled = false) :
    Steps workers target s (s.setPoint i (p.setWorker j (.looking right))) := by
  induction left generalizing s p with
  | nil => rw [PointState.setWorker_self (by simpa using hw), setPoint_self hp]
  | cons n left ih =>
    rw [List.mem_cons, not_or] at ht
    have hn : (Worker.comparing n (left ++ right)).next target false =
        (.looking (left ++ right), false) := by
      simp [Worker.next, Ne.symm ht.1]
    have hp₁ := getElem?_setPoint (p.setWorker j (.comparing n (left ++ right))) hp
    have hw₁ := PointState.getElem?_setWorker (.comparing n (left ++ right)) hw
    have hp₂ := getElem?_setPoint (p.setWorker j (.looking (left ++ right))) hp
    have hw₂ := PointState.getElem?_setWorker (.looking (left ++ right)) hw
    have h₂ : Step workers target _ _ := .quiet hp₁ hw₁ hn hc
    have h₃ := ih hp₂ hw₂ ht.2 hc
    rw [setPoint_setPoint, PointState.setWorker_setWorker] at h₂ h₃
    exact .head (.quiet hp hw rfl hc) (.head h₂ h₃)

theorem steps_join {left : List Nat} (hp : s.points[i]? = some p) (hs : p.phase = .scanning)
    (hw : p.workers[j]? = some (.looking left)) (ht : target ∉ left) (hc : s.cancelled = false)
    (ho : s.outcome = none) :
    Steps workers target s (s.setPoint i (p.setWorker j .joined)) := by
  have hw₀ : p.workers[j]? = some (.looking (left ++ [])) := by simpa using hw
  have h₁ := steps_pass workers target hp hw₀ ht hc
  have hp₁ := getElem?_setPoint (p.setWorker j (.looking [])) hp
  have hw₁ := PointState.getElem?_setWorker (.looking []) hw
  have h₂ : Step workers target _ _ := .quiet hp₁ hw₁ rfl hc
  have hp₂ := getElem?_setPoint (p.setWorker j (.ended false)) hp
  have h₃ : Step workers target _ _ :=
    .joinWorker _ hp₂ hs (PointState.getElem?_setWorker (.ended false) hw) ho
  rw [setPoint_setPoint, PointState.setWorker_setWorker] at h₂
  rw [setPoint_setPoint] at h₃
  exact (h₁.tail h₂).tail (by simpa [PointState.setWorker] using h₃)

theorem steps_fail {e : Error} (hp : s.points[i]? = some p) (he : p.phase = .ended (.error e))
    (ho : s.outcome = none) : ∃ t, Steps workers target s t ∧ t.outcome = some (.error e) :=
  ⟨_, .single (.failPoint s hp he ho), rfl⟩

theorem steps_finder (hp : s.points[i]? = some p) (hs : p.phase = .scanning)
    (hw : p.workers[j]? = some (.ended true)) (ho : s.outcome = none) :
    ∃ t, Steps workers target s t ∧ t.outcome = some (.error revoked) := by
  have h₁ : Step workers target s _ := .joinFinder s hp hs hw ho
  obtain ⟨t, hst, hot⟩ := steps_fail workers target
    (getElem?_setPoint { p with phase := .ended (.error revoked), workers := p.workers.set j .joined } hp)
    rfl ho
  exact ⟨t, .head h₁ hst, hot⟩

theorem steps_find {left : List Nat} (hp : s.points[i]? = some p) (hs : p.phase = .scanning)
    (hw : p.workers[j]? = some (.looking left)) (ht : target ∈ left) (hc : s.cancelled = false)
    (ho : s.outcome = none) : ∃ t, Steps workers target s t ∧ t.outcome = some (.error revoked) := by
  obtain ⟨before, after, rfl, hb⟩ := List.eq_append_cons_of_mem ht
  have h₁ := steps_pass workers target hp hw hb hc
  have hp₁ := getElem?_setPoint (p.setWorker j (.looking (target :: after))) hp
  have hw₁ := PointState.getElem?_setWorker (.looking (target :: after)) hw
  have h₂ : Step workers target _ _ := .quiet hp₁ hw₁ rfl hc
  have hp₂ := getElem?_setPoint (p.setWorker j (.comparing target after)) hp
  have hw₂ := PointState.getElem?_setWorker (.comparing target after) hw
  have h₃ : Step workers target _ _ := .quiet (v := .matched) hp₂ hw₂ (by simp [Worker.next]) hc
  have hp₃ := getElem?_setPoint (p.setWorker j .matched) hp
  have h₄ : Step workers target (s.setPoint i (p.setWorker j .matched))
      { s.setPoint i (p.setWorker j (.ended true)) with cancelled := true } := by
    have h : Step workers target _ _ := .work _ hp₃ (PointState.getElem?_setWorker .matched hw)
    simpa [setPoint, PointState.setWorker, Worker.next, hc, List.set_set] using h
  rw [setPoint_setPoint, PointState.setWorker_setWorker] at h₂ h₃
  have hp₄ := getElem?_setPoint (p.setWorker j (.ended true)) hp
  obtain ⟨t, hst, hot⟩ := steps_finder workers target
    (s := { s.setPoint i (p.setWorker j (.ended true)) with cancelled := true }) hp₄ hs
    (PointState.getElem?_setWorker (.ended true) hw) ho
  exact ⟨t, (((h₁.tail h₂).tail h₃).tail h₄).trans hst, hot⟩

theorem steps_scan {chunks : List (List Nat)} {finished : List Worker} (hp : s.points[i]? = some p)
    (hs : p.phase = .scanning) (hw : p.workers = finished ++ chunks.map .looking)
    (hf : ∀ w ∈ finished, w = .joined) (hc : s.cancelled = false) (ho : s.outcome = none) :
    if chunks.any (·.contains target) then
      ∃ t, Steps workers target s t ∧ t.outcome = some (.error revoked)
    else ∃ q, q.phase = .joined ∧ Steps workers target s (s.setPoint i q) := by
  induction chunks generalizing finished s p with
  | nil =>
    have h₁ : Step workers target s _ := .endPoint s hp hs (by simpa [hw] using hf) ho
    have h₂ : Step workers target _ _ :=
      .joinPoint _ (getElem?_setPoint { p with phase := .ended (.ok ()) } hp) rfl ho
    rw [setPoint_setPoint] at h₂
    exact ⟨_, rfl, .tail (.single h₁) h₂⟩
  | cons c chunks ih =>
    -- The workers before this one are joined, and those after it have not begun.
    have hj : p.workers[finished.length]? = some (.looking c) := by simp [hw]
    by_cases ht : target ∈ c
    · simpa [ht] using steps_find workers target hp hs hj ht hc ho
    · have h₁ := steps_join workers target hp hs hj ht hc ho
      have hw₁ : (p.setWorker finished.length .joined).workers =
          (finished ++ [.joined]) ++ chunks.map .looking := by simp [PointState.setWorker, hw]
      have h₂ := ih (getElem?_setPoint (p.setWorker finished.length .joined) hp) hs hw₁
        (by simpa [or_imp, forall_and] using hf) hc ho
      simp only [setPoint_setPoint] at h₂
      simp only [List.any_cons, List.contains_eq_mem, ht, decide_false, Bool.false_or]
      split
      · next h =>
        simp only [List.contains_eq_mem, h, ↓reduceIte] at h₂
        obtain ⟨t, hst, hot⟩ := h₂
        exact ⟨t, h₁.trans hst, hot⟩
      · next h =>
        simp only [List.contains_eq_mem, h] at h₂
        obtain ⟨q, hq, hst⟩ := h₂
        exact ⟨q, hq, h₁.trans hst⟩

theorem steps_point (hp : s.points[i]? = some p) (hf : p.phase = .fetching)
    (hc : s.cancelled = false) (ho : s.outcome = none) :
    match judge workers target p.url p.list with
    | .ok () => ∃ q, q.phase = .joined ∧ Steps workers target s (s.setPoint i q)
    | .error e => ∃ t, Steps workers target s t ∧ t.outcome = some (.error e) := by
  cases hl : p.list with
  | none =>
    have h₁ : Step workers target s _ := .unusable s hp hf hl ho
    obtain ⟨t, hst, hot⟩ := steps_fail workers target
      (getElem?_setPoint { p with phase := .ended (.error (.crlUnreachable p.url)) } hp) rfl ho
    exact ⟨t, .head h₁ hst, hot⟩
  | some serials =>
    have h₁ : Step workers target s _ := .fetched s hp hf hl ho
    have hw : workersFor workers serials =
        [] ++ ((partition serials.length workers).map (·.of serials)).map .looking := by
      simp [workersFor, Function.comp_def]
    have h₂ := steps_scan workers target
      (getElem?_setPoint { p with phase := .scanning, workers := workersFor workers serials } hp) rfl
      hw (by simp) hc ho
    have hlisted : ((partition serials.length workers).map (·.of serials)).any (·.contains target) =
        isListed workers target serials := by
      simp [isListed, List.any_map, Function.comp_def]
    rw [hlisted] at h₂
    cases hi : isListed workers target serials with
    | true =>
      obtain ⟨t, hst, hot⟩ := by simpa [hi] using h₂
      simp only [judge, hi, ↓reduceIte]
      exact ⟨t, .head h₁ hst, hot⟩
    | false =>
      obtain ⟨q, hq, hst⟩ := by simpa [hi, setPoint_setPoint] using h₂
      simp only [judge, hi, Bool.false_eq_true, ↓reduceIte]
      exact ⟨q, hq, .head h₁ hst⟩

theorem steps_verdict {finished : List PointState} (hp : s.points = finished ++ (start lists).points)
    (hf : ∀ p ∈ finished, p.phase = .joined) (hc : s.cancelled = false) (ho : s.outcome = none) :
    ∃ t, Steps workers target s t ∧ t.outcome = some (verdict workers target lists) := by
  induction lists generalizing finished s with
  | nil =>
    have hj : ∀ p ∈ s.points, p.phase = .joined := by simpa [hp, start] using hf
    exact ⟨_, .single (.pass s hj ho), rfl⟩
  | cons l lists ih =>
    have hi : s.points[finished.length]? = some { url := l.1, list := l.2 } := by simp [hp, start]
    have h := steps_point workers target hi rfl hc ho
    rw [verdict_cons]
    cases hv : judge workers target l.1 l.2 with
    | error e =>
      rw [hv] at h
      exact h
    | ok =>
      rw [hv] at h
      obtain ⟨q, hq, hst⟩ := h
      have hp' : (s.setPoint finished.length q).points = (finished ++ [q]) ++ (start lists).points := by
        simp [setPoint, hp, start]
      obtain ⟨t, hstt, hot⟩ := ih hp' (by simpa [or_imp, forall_and, hq] using hf) hc ho
      exact ⟨t, hst.trans hstt, hot⟩

theorem exists_reachable (lists : List (String × Option (List Nat))) :
    ∃ s, Reachable workers target lists s ∧ s.outcome = some (verdict workers target lists) := by
  have hp : (start lists).points = [] ++ (start lists).points := rfl
  obtain ⟨t, hst, hot⟩ := steps_verdict workers target hp (by simp) rfl rfl
  exact ⟨t, Reachable.start.trans hst, hot⟩

end CheckState

def listAt (w : Program.World) (url : String) : Option (List Nat) :=
  (Program.outcome w (fetchSerials url)).toOption.join

def listsAt (w : Program.World) (c : Certificate) : List (String × Option (List Nat)) :=
  c.revocationPoints.map fun url ↦ (url, listAt w url)

theorem fetchSerials_offline (url : String) : (fetchSerials url).Offline := by
  refine .bind (Fetch.get_offline url []) fun fetched ↦ ?_
  cases fetched with
  | error e => exact .pure _
  | ok found => exact .pure _

theorem outcome_fetchSerials (w : Program.World) (url : String) :
    Program.outcome w (fetchSerials url) = .ok (listAt w url) := by
  obtain ⟨fetched, h⟩ := Fetch.exists_run_get w url [] ⟨default, 0, []⟩
  have hl : ∃ list, Program.outcome w (fetchSerials url) = .ok list := by
    rw [fetchSerials, Program.outcome, Program.run_bind_of_ok (Prod.ext h rfl)]
    cases fetched with
    | error e => exact ⟨_, rfl⟩
    | ok found => exact ⟨_, rfl⟩
  obtain ⟨list, hl⟩ := hl
  rw [listAt, hl]
  rfl

theorem outcome_check {workers : Nat} {c : Certificate} (w : Program.World)
    (hc : c.revocationPoints ≠ []) :
    Program.outcome w (check workers c) = verdict workers c.serial (listsAt w c) := by
  have hp : check workers c = c.revocationPoints.forM fun url ↦ fetchSerials url >>= fun serials ↦
      Program.ofResult (judge workers c.serial url serials) := by
    simp only [check, hc, ↓reduceIte]
    rfl
  rw [hp, Program.outcome_forM fun url ↦ .bind (fetchSerials_offline url) fun _ ↦ .ofResult _,
    verdict, listsAt]
  generalize c.revocationPoints = urls
  induction urls with
  | nil => rfl
  | cons url urls ih =>
    change (Program.outcome w _ >>= fun _ ↦ urls.forM _) = _ >>= fun _ ↦ List.forM (urls.map _) _
    rw [ih, Program.outcome_bind fun _ ↦ .ofResult _, outcome_fetchSerials]
    simp only [Program.outcome_ofResult]
    rfl

theorem returns_verdict {workers : Nat} {c : Certificate} {lists : List (String × Option (List Nat))}
    (hc : c.revocationPoints ≠ []) (hl : lists.map (·.1) = c.revocationPoints) :
    Returns workers c lists (verdict workers c.serial lists) := by
  obtain ⟨s, hs, ho⟩ := CheckState.exists_reachable workers c.serial lists
  exact .ended hc hl hs ho

end CertGate.Revocation
