/-! The version of this library. -/

namespace Reckoner

def release : String := "0.3.0"

end Reckoner
