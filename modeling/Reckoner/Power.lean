/-! Powers with natural exponents. Inside this library they are the ones of core, also where another
library has an instance of its own in scope. -/

namespace Reckoner

attribute [scoped instance (2000)] instPowNat

end Reckoner
