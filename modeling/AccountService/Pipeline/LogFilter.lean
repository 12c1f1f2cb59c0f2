import AccountService.Pipeline.Log
import AccountService.Text.Case
import AccountService.Text.Numeral

/-!
# Log filters

Which events are written is set by a list of directives. A directive is a level, a target, or
a target with a level; of those whose target an event's target begins with, the longest counts.

## Main definitions

* `Log.Filter`, `Log.Filter.parse?` — directives and their written form
* `Log.Filter.passes` — whether an event is written
-/

namespace AccountService.Log

/-- A directive: the targets it is about, and the last level that passes. -/
structure Directive where
  target : String
  rank : Nat
  deriving DecidableEq, Repr

/-- Directives. -/
structure Filter where
  directives : List Directive
  deriving DecidableEq, Repr

/-- The rank of a level by name or number; nothing passes at rank zero. -/
def rankOf? (s : String) : Option Nat :=
  if s.isEmpty then some 1
  else if Text.eqIgnoringCase s "off" || s == "0" then some 0
  else if Text.eqIgnoringCase s "error" || s == "1" then some 1
  else if Text.eqIgnoringCase s "warn" || s == "2" then some 2
  else if Text.eqIgnoringCase s "info" || s == "3" then some 3
  else if Text.eqIgnoringCase s "debug" || s == "4" then some 4
  else if Text.eqIgnoringCase s "trace" || s == "5" then some 5
  else none

/-- Whether a character can stand in a target. -/
def isTargetChar (c : Char) : Bool := c.isAlphanum || c == '_' || c == ':' || c == '-' || c == '.'

/-- The directive that a text writes. -/
def Directive.parse? (cs : List Char) : Option Directive :=
  let target := cs.takeWhile (· != '=')
  match cs.drop target.length with
  | [] =>
    match rankOf? (String.ofList target) with
    | some rank => some ⟨"", rank⟩
    | none => if target.all isTargetChar then some ⟨String.ofList target, 5⟩ else none
  | _ :: level =>
    if target.all isTargetChar then
      (rankOf? (String.ofList level)).map fun rank => ⟨String.ofList target, rank⟩
    else none

/-- A text cut at its commas. -/
def cutCommas (cs : List Char) : List (List Char) :=
  cs.foldr
    (fun c pieces =>
      if c = ',' then [] :: pieces
      else
        match pieces with
        | [] => [[c]]
        | piece :: rest => (c :: piece) :: rest)
    [[]]

/-- The filter that a text writes; without a directive only errors pass. -/
def Filter.parse? (s : String) : Option Filter :=
  match ((cutCommas s.toList).filter (!·.isEmpty)).mapM Directive.parse? with
  | some [] => some ⟨[⟨"", 1⟩]⟩
  | some directives => some ⟨directives⟩
  | none => none

/-- The filter without any setting: events of level info and above. -/
def Filter.default : Filter := ⟨[⟨"", 3⟩]⟩

/-- The filter that a setting asks for; one that is no list of directives counts as none. -/
def Filter.ofSetting (setting : Option String) : Filter :=
  (setting.bind Filter.parse?).getD Filter.default

/-- Whether an event of a target and a level is written. -/
def Filter.passes (f : Filter) (target : String) (level : Level) : Bool :=
  let fitting := f.directives.filter fun d => d.target.toList.isPrefixOf target.toList
  let best := fitting.foldl
    (fun best d =>
      match best with
      | none => some d
      | some b => if b.target.length ≤ d.target.length then some d else some b)
    none
  match best with
  | some d => level.rank ≤ d.rank
  | none => false

end AccountService.Log
