import Reckoner.NumberSystem.Choice
import Reckoner.Proofs.Numeral
import Reckoner.Proofs.Outcome

/-! The faults of the number systems. Whatever numbers an operation is given, it fails with an arithmetic
failure or with an error that has no place yet, so that an evaluation can report it at a place of the
source. -/

namespace Reckoner

/-- Whether a fault is an error without a place or a failure that is reported as one. -/
def Fault.Placeable : Fault → Prop
  | .described error => error.position = none
  | .mistyped | .missing | .foreign _ => False
  | _ => True

/-- Whether a fault is a failure that a number is reported as invalid for. -/
def Fault.Unread : Fault → Prop
  | .described _ | .mistyped | .missing | .foreign _ => False
  | _ => True

/-- Whether a fault is an error at a place of at most the limit. -/
def Fault.PlacedUpTo (limit : Nat) (fault : Fault) : Prop :=
  ∃ error, ∃ place : Nat, fault = .described error ∧ error.position = some (place : Int) ∧
    place ≤ limit

variable {α : Type}

/-- Whether all operations of a number system fail with faults that have a place to get. -/
structure NumberSystem.Placeable (system : NumberSystem α) : Prop where
  native : ∀ function native, system.native? function = some native → ∀ arguments,
    arguments.length = function.arity → Fails Fault.Placeable (native arguments)
  ofInt : ∀ n, Fails Fault.Placeable (system.ofInt n)
  ofFloat : ∀ x, Fails Fault.Placeable (system.ofFloat x)
  toFloat : ∀ x, Fails Fault.Placeable (system.toFloat x)
  toInt : ∀ x, Fails Fault.Placeable (system.toInt x)
  add : ∀ x y, Fails Fault.Placeable (system.add x y)
  sub : ∀ x y, Fails Fault.Placeable (system.sub x y)
  mul : ∀ x y, Fails Fault.Placeable (system.mul x y)
  div : ∀ x y, Fails Fault.Placeable (system.div x y)
  rem : ∀ x y, Fails Fault.Placeable (system.rem x y)
  pow : ∀ x y, Fails Fault.Placeable (system.pow x y)
  neg : ∀ x, Fails Fault.Placeable (system.neg x)
  toIntegral : ∀ mode x, Fails Fault.Placeable (system.toIntegral mode x)
  compare : ∀ x y, Fails Fault.Placeable (system.compare x y)
  equals : ∀ x y, Fails Fault.Placeable (system.equals x y)
  isZero : ∀ x, Fails Fault.Placeable (system.isZero x)
  isInteger : ∀ x, Fails Fault.Placeable (system.isInteger x)

/-- Whether a literal that is no number is reported as such, and one that is can be written. -/
structure NumberSystem.Readable (system : NumberSystem α) : Prop where
  unread : ∀ text, (system.literals.span text).1 ≠ [] →
    Fails Fault.Unread (system.parse (system.literals.span text).1)
  written : ∀ text, Yields (fun value => ∃ shown, system.write value = .ok shown)
    (system.parse (system.literals.span text).1)

namespace NumberSystem

namespace Floating

end Floating

/-! ### Complex numbers -/

namespace Complex

open Reckoner.Binary64 Reckoner.ComplexFloat

/-- Whether a value is missing for another reason than the number of arguments. -/
abbrev Answers (value : Value) : Prop := Fails (· ≠ .arguments) value

end Complex

/-! ### Whole numbers -/

namespace Integer

variable (width : Width)

end Integer

/-! ### Decimals -/

namespace Decimals

open Reckoner.Decimal

variable (c : Decimal.Context)

end Decimals

/-! ### All systems -/

namespace Choice

end Choice

end NumberSystem

end Reckoner
