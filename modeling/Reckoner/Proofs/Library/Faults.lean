import Reckoner.Proofs.NumberSystem.Faults
import Reckoner.Proofs.Registry.Implementations

/-! The faults of the library. Called with as many arguments as it accepts, no function and no operator
runs out of them, so it fails with what its number system fails with. -/

namespace Reckoner

variable {α : Type}

/-! ### Functions of doubles -/

namespace Binary64

/-- Whether a value is missing for another reason than the number of arguments. -/
abbrev Answers (value : Except NoValue Float) : Prop := Fails (· ≠ .arguments) value

end Binary64

/-! ### The library -/

namespace Library

variable {system : NumberSystem α} (placeable : system.Placeable)
include placeable

end Library

namespace Library.Base

variable {base : Base α} (placeable : base.system.Placeable)
include placeable

end Library.Base

/-! ### The rows of the library -/

def UnaryOperator.Placeable (operator : UnaryOperator α) : Prop :=
  ∀ x, Fails Fault.Placeable (operator.run x)

def BinaryOperator.Placeable (operator : BinaryOperator α) : Prop :=
  ∀ x y, Fails Fault.Placeable (operator.run x y)

/-- Whether a function fails in this way whatever it is called with. -/
def NamedFunction.Placeable (function : NamedFunction α) : Prop :=
  ∀ place arguments, Fails Fault.Placeable (function.call place arguments)

namespace Library

/-- Whether a function of a row fails in this way with as many arguments as the row allows. -/
def FunctionRow.Placeable (row : FunctionRow α) : Prop :=
  ∀ place arguments, row.minArgs.toNat ≤ arguments.length →
    (∀ most ∈ row.maxArgs, arguments.length ≤ most.toNat) → Fails Fault.Placeable (row.run place arguments)

variable {base : Base α} (placeable : base.system.Placeable)
include placeable

end Library

end Reckoner
