/-!
# Routes

The paths that the service answers, each with the methods that it takes. A path with superfluous slashes at its end is
led to the one without them.
-/

namespace CouplingTree

inductive Route
  | decompose
  | decomposition (repo : String)
  | readSettings (repo : String)
  | writeSettings (repo : String)
  | repositories
deriving DecidableEq, Repr

/-- What is at a path: one route for each method. -/
inductive Resource
  | decompose
  | decomposition (repo : String)
  | settings (repo : String)
  | repositories
deriving DecidableEq, Repr

namespace Resource

/-- The characters between two others, if there is at least one and none of them is a slash. -/
def between? (front back cs : List Char) : Option String :=
  if front.isPrefixOf cs ∧ back.isSuffixOf cs ∧ front.length + back.length < cs.length then
    let middle := (cs.drop front.length).take (cs.length - front.length - back.length)
    if '/' ∈ middle then none else some (String.ofList middle)
  else none

/-- What is at exactly this path. -/
def at? (cs : List Char) : Option Resource :=
  if cs = "/api/decompose".toList then some .decompose
  else if cs = "/api/repos".toList then some .repositories
  else
    match between? "/api/repos/".toList "/decomposition".toList cs with
    | some repo => some (.decomposition repo)
    | none => (between? "/api/repos/".toList "/decomposition-config".toList cs).map .settings

/-- What is at a path; a line feed at its end is passed over. -/
def of? (path : String) : Option Resource :=
  let cs := path.toList
  (at? cs).or (if cs.getLast? = some '\n' then at? cs.dropLast else none)

def route? : Resource → String → Option Route
  | decompose, "POST" => some .decompose
  | decomposition repo, "GET" => some (.decomposition repo)
  | settings repo, "GET" => some (.readSettings repo)
  | settings repo, "PUT" => some (.writeSettings repo)
  | repositories, "GET" => some .repositories
  | _, _ => none

end Resource

/-- Where a request leads. -/
inductive Destination
  | route (r : Route)
  | wrongMethod
  | redirect
  | nowhere
deriving DecidableEq, Repr

/-- A path without the slashes at its end. -/
def withoutSlashes (path : String) : String :=
  String.ofList (path.toList.reverse.dropWhile (· = '/')).reverse

def Destination.of (method path : String) : Destination :=
  match Resource.of? path with
  | some r =>
    match r.route? method with
    | some found => .route found
    | none => .wrongMethod
  | none =>
    if path.toList.getLast? = some '/' ∧ (Resource.of? (withoutSlashes path)).isSome then .redirect else .nowhere

end CouplingTree
