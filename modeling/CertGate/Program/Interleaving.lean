import CertGate.Program

namespace CertGate.Program

variable {α β : Type}

def result? : Program α → Option (Result α)
  | done a => some (.ok a)
  | fail e => some (.error e)
  | call _ _ => none

/-- `Interleaved w p q s r t u`: from the state `s` the programs `p` and `q` may end with the results
`r` and `t` in the state `u`. -/
inductive Interleaved (w : World) :
    Program α → Program β → State → Result α → Result β → State → Prop
  | ended {p : Program α} {q : Program β} {s : State} {r : Result α} {t : Result β}
      (hp : p.result? = some r) (hq : q.result? = some t) : Interleaved w p q s r t s
  | left {c : Call} {next : c.Answer → Program α} {q : Program β} {s u : State} {r : Result α}
      {t : Result β} (h : Interleaved w (next (answer w s c).1) q (answer w s c).2 r t u) :
      Interleaved w (.call c next) q s r t u
  | right {p : Program α} {c : Call} {next : c.Answer → Program β} {s u : State} {r : Result α}
      {t : Result β} (h : Interleaved w p (next (answer w s c).1) (answer w s c).2 r t u) :
      Interleaved w p (.call c next) s r t u

/-- `Tasks w ps s t`: programs that run at the same time may take the state `s` to `t`. Any of them may be
given up on the way. -/
inductive Tasks (w : World) : List (Program α) → State → State → Prop
  | stop (ps : List (Program α)) (s : State) : Tasks w ps s s
  | step {ps : List (Program α)} {i : Nat} {c : Call} {next : c.Answer → Program α} {s t : State}
      (hp : ps[i]? = some (.call c next))
      (h : Tasks w (ps.set i (next (answer w s c).1)) (answer w s c).2 t) : Tasks w ps s t

end CertGate.Program
