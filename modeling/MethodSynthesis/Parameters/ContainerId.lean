/-!
# Container identifiers

A container is told from others by a 64-bit number. A supply hands the numbers out in order.
-/

namespace MethodSynthesis

structure ContainerId where
  raw : UInt64
  deriving DecidableEq

namespace ContainerId

def toText (id : ContainerId) : String := "c" ++ toString id.raw.toNat

def precedes (a b : ContainerId) : Bool := a.raw ≤ b.raw

def sort (ids : List ContainerId) : List ContainerId := ids.mergeSort precedes

structure Supply where
  next : UInt64 := 1

def Supply.take (supply : Supply) : ContainerId × Supply :=
  (⟨supply.next⟩, ⟨supply.next + 1⟩)

end ContainerId

end MethodSynthesis
