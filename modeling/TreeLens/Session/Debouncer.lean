import TreeLens.Tree.Span

/-!
# Debouncing

After a trigger the debouncer waits; it fires once when the waiting time is over. A
trigger in the meantime starts the waiting anew.
-/

namespace TreeLens

/-- The waiting time, and when it is over if something is pending. -/
structure Debouncer where
  wait : Nat
  deadline : Option Nat
deriving DecidableEq, Repr

namespace Debouncer

def idle (wait : Nat) : Debouncer :=
  ⟨wait, none⟩

def trigger (d : Debouncer) (now : Nat) : Debouncer :=
  { d with deadline := some (addSize now d.wait) }

def isPending (d : Debouncer) : Bool :=
  d.deadline.isSome

def isDue (d : Debouncer) (now : Nat) : Bool :=
  d.deadline.any (· ≤ now)

/-- Fires if the waiting is over, and then nothing is pending any more. -/
def fire (d : Debouncer) (now : Nat) : Bool × Debouncer :=
  if d.isDue now then (true, { d with deadline := none }) else (false, d)

end Debouncer

end TreeLens
