/-!
# The log

Every noteworthy step leaves an event: a level, a message, and named fields.

## Main definitions

* `Log.Level` — how much an event matters
* `Log.Event` — an event
-/

namespace AccountService.Log

/-- How much an event matters, most first. -/
inductive Level where
  | error
  | warn
  | info
  | debug
  | trace
  deriving DecidableEq, Repr

namespace Level

/-- The name of a level. -/
def name : Level → String
  | error => "ERROR"
  | warn => "WARN"
  | info => "INFO"
  | debug => "DEBUG"
  | trace => "TRACE"

/-- The place of a level; what matters more comes first. -/
def rank : Level → Nat
  | error => 1
  | warn => 2
  | info => 3
  | debug => 4
  | trace => 5

end Level

/-- An event. -/
structure Event where
  level : Level
  message : String
  /-- The named fields, in order. -/
  fields : List (String × String)
  deriving DecidableEq, Repr

end AccountService.Log
