/-!
# The version of this library

Not to be confused with the version of the record format, which belongs to envelopes.
-/

namespace QueryCache

/-- The version of this library. -/
def libraryVersion : String := "0.1.0"

end QueryCache
