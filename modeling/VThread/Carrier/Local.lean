import VThread.Carrier.Inbox

/-!
# The local start queue of a carrier

Borrowed tasks wait here until their carrier receives them.  Only the owner touches it.
-/

namespace VThread.Carrier

structure BorrowedTask where
  task : Nat
  scope : Nat
  deriving DecidableEq, Repr

/-- The start queue of a `LocalCarrier`. -/
structure LocalCarrier where
  starts : List BorrowedTask
  pendingStarts : Nat
  capacity : Nat
  deriving DecidableEq

namespace LocalCarrier

def new (capacity : Nat) : LocalCarrier := ⟨[], 0, capacity⟩

/-- `check_capacity` succeeds. -/
def checkCapacity (carrier : LocalCarrier) : Bool := carrier.pendingStarts < carrier.capacity

def pushStart (carrier : LocalCarrier) (task : BorrowedTask) : LocalCarrier :=
  { carrier with
    starts := carrier.starts ++ [task]
    pendingStarts := carrier.pendingStarts + 1 }

def popStart (carrier : LocalCarrier) : Option (LocalCarrier × BorrowedTask) :=
  if carrier.pendingStarts = 0 then none
  else match carrier.starts with
    | [] => none
    | task :: starts => some ({ carrier with
        starts
        pendingStarts := carrier.pendingStarts - 1 }, task)

def takeStarts (carrier : LocalCarrier) : LocalCarrier × List BorrowedTask :=
  ({ carrier with starts := [], pendingStarts := 0 }, carrier.starts)

end LocalCarrier

end VThread.Carrier
