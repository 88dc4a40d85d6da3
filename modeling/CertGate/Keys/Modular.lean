namespace CertGate.Modular

def power (m base exponent : Nat) : Nat :=
  if exponent = 0 then 1 % m
  else
    let half := power m (base * base % m) (exponent / 2)
    if exponent % 2 = 1 then base * half % m else half

def inverse (p a : Nat) : Nat := power p a (p - 2)

def subtract (m a b : Nat) : Nat := (a + m - b % m) % m

variable {α : Type}

/-- The `n`-fold of `a` for an associative operation, by doubling, added to `start`. -/
def fold (add : α → α → α) (n : Nat) (a start : α) : α :=
  if n = 0 then start
  else fold add (n / 2) (add a a) (if n % 2 = 1 then add start a else start)

end CertGate.Modular
