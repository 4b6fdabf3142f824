-- SUMMARY: Memories of a fixed number of integer cells.
import StackMachine.Fault

/-!
# Memory

A fixed number of integer cells. An index is a signed integer, and one outside the cells faults.
-/

namespace StackMachine

structure Memory where
  cells : Array Int32
  deriving DecidableEq, Repr

namespace Memory

/-- The number of cells when nothing else is asked for. -/
def defaultSize : Nat := 256

/-- `size` cells that all hold zero. -/
def zeros (size : Nat) : Memory :=
  { cells := Array.replicate size 0 }

def size (m : Memory) : Nat :=
  m.cells.size

/-- The cell at a position, if there is one. -/
def get? (m : Memory) (i : Nat) : Option Int32 :=
  m.cells[i]?

/-- Whether an index names a cell. -/
def Holds (m : Memory) (index : Int32) : Prop :=
  0 ≤ index.toInt ∧ index.toInt.toNat < m.cells.size

instance (m : Memory) (index : Int32) : Decidable (m.Holds index) :=
  inferInstanceAs (Decidable (_ ∧ _))

def load (m : Memory) (index : Int32) : Except Fault Int32 :=
  if h : m.Holds index then .ok (getElem m.cells index.toInt.toNat h.2)
  else .error (.outOfBounds index.toInt m.size)

@[inline]
def store (m : Memory) (index value : Int32) : Except Fault Memory :=
  if h : m.Holds index then .ok { cells := m.cells.set index.toInt.toNat value h.2 }
  else .error (.outOfBounds index.toInt m.size)

/-- The cells that do not hold zero, with their positions in increasing order. -/
def nonzero (m : Memory) : List (Nat × Int32) :=
  (m.cells.toList.mapIdx fun i v => (i, v)).filter fun cell => cell.2 ≠ 0

def inspect (m : Memory) : String :=
  Inspect.record "Memory"
    [("cells", Inspect.list (m.cells.toList.map fun v => v.toInt.repr))]

end Memory

end StackMachine
