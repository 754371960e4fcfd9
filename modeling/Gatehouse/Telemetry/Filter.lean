/-!
# The log filter

A level is set for the gateway and for the library that serves its requests.
-/

namespace Gatehouse.Telemetry

/-- The filter that shows what is at least as serious as `level`. -/
def filterDirective (level : String) : String := "api_gateway=" ++ level ++ ",tower_http=" ++ level

end Gatehouse.Telemetry
