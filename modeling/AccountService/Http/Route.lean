import AccountService.Text.Percent
import AccountService.Text.Utf8

/-!
# Routes

A route binds a method and a path to what handles it. In a path `:name` stands for one
segment, which is empty only where a slash follows, and a final `*name` for a rest that is not
empty; everything else stands for itself. Where several paths match, what stands for itself wins,
from the front.

The paths are kept as a tree, in which paths that begin alike share the nodes of what they have in
common. A search goes down the tree, and back up to where it passed by a segment or a rest. But it
does not go back where it has come to a node with nothing but a slash left, nor where nothing is
left and a slash is missing: there it ends for good, even if another path matches.

## Main definitions

* `Http.Pattern` — the path of a route
* `Http.search`, `Http.Found` — which of several paths a path is taken for
* `Http.Router`, `Http.Router.register` — bound routes
* `Http.Router.find` — what a request meets
-/

namespace AccountService.Http

/-! ### Patterns -/

/-- A part of a path. -/
inductive Part where
  /-- A character that stands for itself. -/
  | literal (c : Char)
  /-- One segment. -/
  | segment
  /-- All that remains. -/
  | rest
  deriving DecidableEq, Repr

/-- The path of a route: its parts, and the names of those that do not stand for themselves. -/
structure Pattern where
  parts : List Part
  names : List String
  deriving DecidableEq, Repr

/-- Whether a list of characters can name a part. -/
def isPartName (cs : List Char) : Bool := !cs.isEmpty && cs.all fun c => c != ':' && c != '*'

/-- The pattern that characters write, after a character `last`; at most `fuel` parts. -/
def readPattern : Nat → Char → List Char → Option Pattern
  | _, _, [] => some ⟨[], []⟩
  | 0, _, _ => none
  | fuel + 1, last, c :: cs =>
    if c = ':' then
      let name := cs.takeWhile (· != '/')
      if isPartName name then
        (readPattern fuel ':' (cs.dropWhile (· != '/'))).map fun p =>
          ⟨.segment :: p.parts, String.ofList name :: p.names⟩
      else none
    else if c = '*' then
      if last = '/' && isPartName cs && cs.all (· != '/') then
        some ⟨[.rest], [String.ofList cs]⟩
      else none
    else (readPattern fuel c cs).map fun p => ⟨.literal c :: p.parts, p.names⟩

/-- How many segments of a path may have names. -/
def segmentLimit : Nat := 25

/-- The pattern that a path writes; it begins with a slash. -/
def Pattern.parse? (path : String) : Option Pattern :=
  match path.toList with
  | '/' :: cs =>
    (readPattern (cs.length + 1) ' ' ('/' :: cs)).filter fun p =>
      p.parts.count .segment ≤ segmentLimit
  | _ => none

/-- Whether two patterns cannot stand side by side: they are the same but for names, or they
part where neither stands for itself. -/
def clash : List Part → List Part → Bool
  | [], [] => true
  | .literal c :: ps, .literal d :: qs => c == d && clash ps qs
  | .segment :: ps, .segment :: qs => clash ps qs
  | .rest :: _, .rest :: _ => true
  | .segment :: _, .rest :: _ => true
  | .rest :: _, .segment :: _ => true
  | _, _ => false

/-! ### Matching -/

/-- A route that may still match: the parts to come and the values taken so far, last first. -/
structure Candidate (α : Type) where
  parts : List Part
  taken : List (List Char)
  target : α

/-- The candidates whose next part is a given character. -/
def Candidate.literal {α : Type} (c : Char) (k : Candidate α) : Option (Candidate α) :=
  match k.parts with
  | .literal d :: parts => if d = c then some ⟨parts, k.taken, k.target⟩ else none
  | _ => none

/-- The candidates whose next part is a segment. -/
def Candidate.segment {α : Type} (value : List Char) (k : Candidate α) : Option (Candidate α) :=
  match k.parts with
  | .segment :: parts => some ⟨parts, value :: k.taken, k.target⟩
  | _ => none

/-- The candidates whose next part is all that remains. -/
def Candidate.rest {α : Type} (value : List Char) (k : Candidate α) :
    Option (List (List Char) × α) :=
  match k.parts with
  | .rest :: _ => some ((value :: k.taken).reverse, k.target)
  | _ => none

/-- The candidates that need nothing more. -/
def Candidate.finish {α : Type} (k : Candidate α) : Option (List (List Char) × α) :=
  if k.parts.isEmpty then some (k.taken.reverse, k.target) else none

/-- The first octet of the character that a candidate takes next, if it takes one. -/
def Candidate.octet? {α : Type} (k : Candidate α) : Option UInt8 :=
  match k.parts with
  | .literal c :: _ => (String.utf8EncodeChar c).head?
  | _ => none

/-- Whether a node of the tree ends where these candidates stand: one of them does not take a
character next, or not all take one with the same first octet. -/
def isNode {α : Type} : List (Candidate α) → Bool
  | [] => false
  | k :: ks => k.octet?.isNone || ks.any fun j => j.octet? != k.octet?

/-- What a search comes to. -/
inductive Found (α : Type) where
  /-- A route, with the values that it takes from the path. -/
  | route (values : List (List Char)) (target : α)
  /-- No candidate matches. -/
  | nothing
  /-- The search ended where it could not go back. -/
  | deadEnd
  deriving DecidableEq, Repr

namespace Found

variable {α : Type}

/-- What is found, if it is found at all. -/
def ofOption : Option (List (List Char) × α) → Found α
  | some (values, target) => route values target
  | none => nothing

/-- A search that goes on with another one where it comes to nothing. -/
def orElse (found other : Found α) : Found α :=
  match found with
  | nothing => other
  | _ => found

/-- A search that ends for good where it comes to nothing, if it cannot go back. -/
def orDeadEnd (found : Found α) (final : Bool) : Found α :=
  match found with
  | nothing => if final then deadEnd else nothing
  | _ => found

end Found

/-- How many parts of candidates are to come, counted with the end of each. -/
def weight {α : Type} : List (Candidate α) → Nat
  | [] => 0
  | k :: ks => k.parts.length + 1 + weight ks

theorem weight_filterMap_cons_lt {α : Type} {f : Candidate α → Option (Candidate α)}
    (hf : ∀ k k', f k = some k' → k'.parts.length < k.parts.length) (k : Candidate α)
    {ks : List (Candidate α)} (hle : weight (ks.filterMap f) ≤ weight ks) :
    weight ((k :: ks).filterMap f) < weight (k :: ks) := by
  cases hk : f k with
  | none =>
    rw [List.filterMap_cons_none hk]
    simp only [weight]
    omega
  | some k' =>
    have hlt := hf k k' hk
    rw [List.filterMap_cons_some hk]
    simp only [weight]
    omega

/-- A step takes a part from each candidate that it leaves. -/
theorem weight_filterMap_lt {α : Type} {f : Candidate α → Option (Candidate α)}
    (hf : ∀ k k', f k = some k' → k'.parts.length < k.parts.length) (k : Candidate α)
    (ks : List (Candidate α)) : weight ((k :: ks).filterMap f) < weight (k :: ks) := by
  refine weight_filterMap_cons_lt hf k ?_
  induction ks with
  | nil => exact Nat.le_refl _
  | cons k ks ih => exact Nat.le_of_lt (weight_filterMap_cons_lt hf k ih)

theorem Candidate.length_of_literal {α : Type} {c : Char} {k k' : Candidate α}
    (h : k.literal c = some k') : k'.parts.length < k.parts.length := by
  rw [Candidate.literal] at h
  split at h
  · next d parts hparts =>
    split at h <;> cases h
    rw [hparts]
    exact Nat.lt_succ_self _
  · cases h

theorem Candidate.length_of_segment {α : Type} {value : List Char} {k k' : Candidate α}
    (h : k.segment value = some k') : k'.parts.length < k.parts.length := by
  rw [Candidate.segment] at h
  split at h
  · next parts hparts =>
    cases h
    rw [hparts]
    exact Nat.lt_succ_self _
  · cases h

/-- What candidates take from a path: a literal character is tried first, then a segment, then the
rest. The flag tells whether a segment has just been taken, where a node always ends. -/
def search {α : Type} : Bool → List Char → List (Candidate α) → Found α
  | _, _, [] => .nothing
  | after, [], k :: ks =>
    -- Inside a node, as behind a segment, a slash that a route has at its end is missed.
    let final := (after || !isNode (k :: ks)) && (k :: ks).any (·.parts == [.literal '/'])
    (Found.ofOption ((k :: ks).findSome? Candidate.finish)).orDeadEnd final
  | after, c :: cs, k :: ks =>
    let value := (c :: cs).takeWhile (· != '/')
    let literals := (k :: ks).filterMap (Candidate.literal c)
    let segments := (k :: ks).filterMap (Candidate.segment value)
    -- From a node with nothing but a slash left there is no way back.
    let final := (after || isNode (k :: ks)) && c :: cs == ['/']
    have := weight_filterMap_lt (f := Candidate.literal c)
      (fun _ _ => Candidate.length_of_literal) k ks
    have := weight_filterMap_lt (f := Candidate.segment value)
      (fun _ _ => Candidate.length_of_segment) k ks
    (((search false cs literals).orDeadEnd (final && !literals.isEmpty)).orElse
      ((search true ((c :: cs).dropWhile (· != '/')) segments).orElse
        (.ofOption ((k :: ks).findSome? (Candidate.rest (c :: cs)))))).orDeadEnd final
termination_by _ _ ks => weight ks

/-! ### Routers -/

/-- The methods that can be bound. -/
def bindableMethods : List String :=
  ["CONNECT", "DELETE", "GET", "HEAD", "OPTIONS", "PATCH", "POST", "PUT", "TRACE"]

/-- A path with what is bound to it, by method, in order of registration. -/
structure PathEntry (α : Type) where
  path : String
  pattern : Pattern
  targets : List (String × α)

/-- Bound routes, in order of registration. -/
structure Router (α : Type) where
  entries : List (PathEntry α)

/-- A router without routes. -/
def Router.empty {α : Type} : Router α := ⟨[]⟩

/-- Why a route cannot be bound. -/
inductive RouteConflict where
  /-- The path is not written as a path. -/
  | malformed
  /-- The method is bound to the path already. -/
  | overlap
  /-- Another path cannot stand beside this one. -/
  | conflict
  deriving DecidableEq, Repr

/-- Binds a method and a path. -/
def Router.register {α : Type} (r : Router α) (method path : String) (target : α) :
    Except RouteConflict (Router α) :=
  match Pattern.parse? path with
  | none => .error .malformed
  | some pattern =>
    match r.entries.find? (·.path == path) with
    | some e =>
      -- A path that is bound already takes a further method.
      if e.targets.any (·.1 == method) then .error .overlap
      else
        .ok ⟨r.entries.map fun e =>
          if e.path = path then { e with targets := e.targets ++ [(method, target)] } else e⟩
    | none =>
      if r.entries.any fun e => clash e.pattern.parts pattern.parts then .error .conflict
      else .ok ⟨r.entries ++ [⟨path, pattern, [(method, target)]⟩]⟩

/-- What a request meets. -/
inductive Meeting (α : Type) where
  /-- The path is taken for that of no route. -/
  | notFound
  /-- Routes have the path, but none the method; `allowed` lists theirs. -/
  | notAllowed (allowed : String)
  /-- A route; its values are by name, still percent-encoded. -/
  | route (target : α) (values : List (String × List Char))

/-- The methods of a path as they are told to a caller: whatever answers `GET` answers `HEAD`. -/
def allowed (methods : List String) : String :=
  ",".intercalate (methods.map fun m => if m = "GET" then "GET,HEAD" else m)

/-- What is bound to a method; `HEAD` falls back on `GET`. -/
def dispatch? {α : Type} (targets : List (String × α)) (method : String) : Option α :=
  match targets.find? (·.1 == method) with
  | some (_, target) => some target
  | none =>
    if method = "HEAD" then (targets.find? (·.1 == "GET")).map (·.2) else none

/-- What a request meets. -/
def Router.find {α : Type} (r : Router α) (method path : String) : Meeting α :=
  match search false path.toList (r.entries.map fun e => ⟨e.pattern.parts, [], e⟩) with
  | .route values e =>
    match dispatch? e.targets method with
    | some target => .route target (e.pattern.names.zip values)
    | none => .notAllowed (allowed (e.targets.map (·.1)))
  | _ => .notFound

/-- The text that a percent-encoded value denotes. -/
def decodeValue (value : List Char) : Option String :=
  (Percent.decode (Octets.ofText (String.ofList value))).toText?

/-- The path of a request target: what stands before a query or a fragment. -/
def pathOfTarget (target : String) : String :=
  let cs := target.toList.takeWhile fun c => c != '?' && c != '#'
  if cs.isEmpty then "/" else String.ofList cs

end AccountService.Http
