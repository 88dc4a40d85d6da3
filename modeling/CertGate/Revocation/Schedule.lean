import CertGate.Revocation.Check

namespace CertGate.Revocation

inductive Worker where
  /-- About to see whether it is cancelled, with these numbers left. -/
  | looking (left : List Nat)
  | comparing (serial : Nat) (left : List Nat)
  /-- It has found the number, and is about to cancel the others. -/
  | matched
  | ended (found : Bool)
  /-- Its result has been taken. -/
  | joined
  deriving DecidableEq

/-- What a worker does next, and whether it cancels the others. -/
def Worker.next (target : Nat) (cancelled : Bool) : Worker → Worker × Bool
  | looking [] => (ended false, false)
  | looking (n :: left) => (if cancelled then ended false else comparing n left, false)
  | comparing n left => (if n = target then matched else looking left, false)
  | matched => (ended true, true)
  | ended found => (ended found, false)
  | joined => (joined, false)

inductive Phase where
  | fetching
  | scanning
  | ended (r : Result Unit)
  | joined

/-- A distribution point, with the list that it has if it is of use. Workers may go on after the
point has ended. -/
structure PointState where
  url : String
  list : Option (List Nat)
  phase : Phase := .fetching
  workers : List Worker := []

structure CheckState where
  cancelled : Bool := false
  points : List PointState
  outcome : Option (Result Unit) := none

namespace CheckState

def setPoint (s : CheckState) (i : Nat) (p : PointState) : CheckState :=
  { s with points := s.points.set i p }

def workersFor (workers : Nat) (serials : List Nat) : List Worker :=
  (partition serials.length workers).map fun c ↦ .looking (c.of serials)

inductive Step (workers target : Nat) : CheckState → CheckState → Prop
  /-- A point that is cancelled while it fetches ends without a finding. -/
  | giveUp (s : CheckState) {i : Nat} {p : PointState} (hp : s.points[i]? = some p)
      (h : p.phase = .fetching) (hc : s.cancelled = true) (ho : s.outcome = none) :
      Step workers target s (s.setPoint i { p with phase := .ended (.ok ()) })
  | unusable (s : CheckState) {i : Nat} {p : PointState} (hp : s.points[i]? = some p)
      (h : p.phase = .fetching) (hl : p.list = none) (ho : s.outcome = none) :
      Step workers target s
        (s.setPoint i { p with phase := .ended (.error (.crlUnreachable p.url)) })
  | fetched (s : CheckState) {i : Nat} {p : PointState} {serials : List Nat}
      (hp : s.points[i]? = some p) (h : p.phase = .fetching) (hl : p.list = some serials)
      (ho : s.outcome = none) :
      Step workers target s
        (s.setPoint i { p with phase := .scanning, workers := workersFor workers serials })
  | work (s : CheckState) {i j : Nat} {p : PointState} {w : Worker} (hp : s.points[i]? = some p)
      (hw : p.workers[j]? = some w) :
      Step workers target s
        { s.setPoint i { p with workers := p.workers.set j (w.next target s.cancelled).1 } with
          cancelled := s.cancelled || (w.next target s.cancelled).2 }
  | joinWorker (s : CheckState) {i j : Nat} {p : PointState} (hp : s.points[i]? = some p)
      (h : p.phase = .scanning) (hw : p.workers[j]? = some (.ended false)) (ho : s.outcome = none) :
      Step workers target s (s.setPoint i { p with workers := p.workers.set j .joined })
  /-- The result of a worker that has found the number is taken, and ends the point. -/
  | joinFinder (s : CheckState) {i j : Nat} {p : PointState} (hp : s.points[i]? = some p)
      (h : p.phase = .scanning) (hw : p.workers[j]? = some (.ended true)) (ho : s.outcome = none) :
      Step workers target s
        (s.setPoint i { p with phase := .ended (.error revoked), workers := p.workers.set j .joined })
  | endPoint (s : CheckState) {i : Nat} {p : PointState} (hp : s.points[i]? = some p)
      (h : p.phase = .scanning) (hw : ∀ w ∈ p.workers, w = .joined) (ho : s.outcome = none) :
      Step workers target s (s.setPoint i { p with phase := .ended (.ok ()) })
  | joinPoint (s : CheckState) {i : Nat} {p : PointState} (hp : s.points[i]? = some p)
      (h : p.phase = .ended (.ok ())) (ho : s.outcome = none) :
      Step workers target s (s.setPoint i { p with phase := .joined })
  /-- The first failure of a point is that of the check, which cancels all others. -/
  | failPoint (s : CheckState) {i : Nat} {p : PointState} {e : Error} (hp : s.points[i]? = some p)
      (h : p.phase = .ended (.error e)) (ho : s.outcome = none) :
      Step workers target s
        { s.setPoint i { p with phase := .joined } with
          cancelled := true, outcome := some (.error e) }
  | pass (s : CheckState) (h : ∀ p ∈ s.points, p.phase = .joined) (ho : s.outcome = none) :
      Step workers target s { s with outcome := some (.ok ()) }

def start (lists : List (String × Option (List Nat))) : CheckState :=
  { points := lists.map fun l ↦ { url := l.1, list := l.2 } }

inductive Reachable (workers target : Nat) (lists : List (String × Option (List Nat))) :
    CheckState → Prop
  | start : Reachable workers target lists (start lists)
  | step {s t : CheckState} (hs : Reachable workers target lists s)
      (h : Step workers target s t) : Reachable workers target lists t

end CheckState

/-- The results that a check of a certificate may come to in some order of its steps. `lists` says what
there is to be had at each of the distribution points. -/
inductive Returns (workers : Nat) (c : Certificate) (lists : List (String × Option (List Nat))) :
    Result Unit → Prop
  | noPoints (h : c.revocationPoints = []) : Returns workers c lists (.error noPoints)
  | ended {s : CheckState} {r : Result Unit} (h : c.revocationPoints ≠ [])
      (hl : lists.map (·.1) = c.revocationPoints)
      (hs : CheckState.Reachable workers c.serial lists s) (ho : s.outcome = some r) :
      Returns workers c lists r

end CertGate.Revocation
