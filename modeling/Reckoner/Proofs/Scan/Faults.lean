import Reckoner.Proofs.NumberSystem.Faults
import Reckoner.Proofs.Scan.Numbers

/-! The scan of a source fails at places of the source, and its tokens are from there. -/

namespace Reckoner

variable {α : Type}

namespace Scan

variable {reader : Reader α} {previous : Option (Lexeme α)} {text following : List Char} {c : Char}
  {position limit : Nat}

theorem error_placed (message : String) (near : position ≤ limit) :
    (reader.error message position).PlacedUpTo limit := ⟨_, position, rfl, rfl, near⟩

end Scan

variable {registry : Registry α}

end Reckoner
