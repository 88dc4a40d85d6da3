namespace CertGate.Revocation

structure Chunk where
  start : Nat
  stop : Nat
  deriving DecidableEq, Inhabited

namespace Chunk

def size (c : Chunk) : Nat := c.stop - c.start

def of {α : Type} (c : Chunk) (items : List α) : List α := (items.drop c.start).take c.size

end Chunk

/-- The chunks of the positions from `start` to `stop` for a number of workers. Each takes an even
share of what is left; a share below 2 is not worth a worker, and the rest goes into one chunk. -/
def partitionFrom (start stop : Nat) : (workers : Nat) → List Chunk
  | 0 => []
  | workers + 1 =>
    if stop ≤ start then []
    else
      let share := (stop - start) / (workers + 1)
      if workers = 0 ∨ share < 2 then [⟨start, stop⟩]
      else ⟨start, start + share⟩ :: partitionFrom (start + share) stop workers

def effectiveWorkers (workers : Nat) : Nat := max workers 1

/-- The chunks of a list of the given length; there is always a worker. -/
def partition (length workers : Nat) : List Chunk :=
  partitionFrom 0 length (effectiveWorkers workers)

end CertGate.Revocation
