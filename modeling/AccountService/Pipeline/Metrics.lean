import AccountService.Text.Numeral

/-!
# Metrics

Four numbers tell how the pipeline is doing: requests and errors counted at its metrics
layer, recovered panics, and the requests being handled right now. The service keeps them in
64-bit integers and writes them as doubles. Here they are exact and have no bound, which makes
no difference before a number reaches `2 ^ 53`.

## Main definitions

* `Metrics` — the four numbers
* `Metrics.exposition` — their text form
-/

namespace AccountService

/-- The four numbers of a pipeline. -/
structure Metrics where
  requests : Nat
  errors : Nat
  panics : Nat
  inFlight : Int
  deriving DecidableEq, Repr, Inhabited

namespace Metrics

/-- The numbers of a pipeline that has seen nothing. -/
def zero : Metrics := ⟨0, 0, 0, 0⟩

/-- One more request. -/
def addRequest (m : Metrics) : Metrics := { m with requests := m.requests + 1 }

/-- One more error. -/
def addError (m : Metrics) : Metrics := { m with errors := m.errors + 1 }

/-- One more panic. -/
def addPanic (m : Metrics) : Metrics := { m with panics := m.panics + 1 }

/-- One more request being handled. -/
def enter (m : Metrics) : Metrics := { m with inFlight := m.inFlight + 1 }

/-- One request less being handled. -/
def leave (m : Metrics) : Metrics := { m with inFlight := m.inFlight - 1 }

/-- One number in text form: what it means, of which kind it is, and its value. -/
def family (name help kind : String) (value : Int) : String :=
  "# HELP " ++ name ++ " " ++ help ++ "\n# TYPE " ++ name ++ " " ++ kind ++ "\n" ++ name ++ " " ++
    String.ofList (Numeral.ofInt value) ++ "\n"

/-- The text form of the numbers, in the order of their names. -/
def exposition (m : Metrics) : String :=
  family "errors_total" "Requests whose handler chain returned an error" "counter" m.errors ++
    family "panics_total" "Panics recovered by the pipeline" "counter" m.panics ++
    family "requests_in_flight" "Requests currently being handled" "gauge" m.inFlight ++
    family "requests_total" "Requests entering the pipeline" "counter" m.requests

end Metrics

end AccountService
