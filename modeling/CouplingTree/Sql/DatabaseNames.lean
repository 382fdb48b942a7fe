import CouplingTree.Sql.Query

/-!
# Names of databases in queries

A table may be named together with the database that it is in. `Query.databases` collects these names, those of the last
selection first, and behind the tables of a selection those in the queries inside it.

`databases_zero` : nothing is found in a query that is not looked into.
-/

namespace CouplingTree.Sql

namespace Expr

/-- The queries in an expression that is nested so deeply at most. -/
def queriesWithin : Nat → Expr → List Query
  | 0, _ => []
  | depth + 1, e =>
    let own :=
      match e with
      | .exists q | single q | memberOf _ q => [q]
      | _ => []
    own ++ e.parts.flatMap (queriesWithin depth)

def queries (e : Expr) : List Query := e.queriesWithin e.depth

end Expr

namespace Source

/-- The database that is named. -/
def database? : Source → Option String
  | table schema _ _ _ | function schema _ _ _ => schema
  | _ => none

/-- The queries in a source; joined tables in brackets are one too. -/
def queries : Source → List Query
  | query q _ => [q]
  | joined joins _ => [.ofSelection (.mk false [.all] joins none [] none [])]
  | function _ _ arguments _ => arguments.flatMap Expr.queries
  | table _ _ _ _ => []

end Source

namespace Query

/-- The expressions of a selection. -/
def expressionsOf : Selection → List Expr
  | .mk _ items _ filter groups having _ =>
    (items.filterMap fun | .expr e _ _ => some e | _ => none) ++ filter.toList ++ groups ++ having.toList

/-- The databases that are named in a query and in those inside it, so deeply at most. -/
def databases : Nat → Query → List String
  | 0, _ => []
  | depth + 1, .mk named first rest order _ _ =>
    let ofSelection (last : Bool) (s : Selection) : List String :=
      match s with
      | .mk _ _ joins _ _ _ _ =>
        let sources := joins.map fun | .mk _ s _ _ => s
        let conditions := joins.flatMap fun | .mk _ _ on _ => on.toList
        let inNamed := if last then named.map fun | .mk _ _ _ q => q else []
        let sorted := order.map fun | .mk e _ _ => e
        let expressions := conditions ++ expressionsOf s ++ if last then sorted else []
        sources.filterMap Source.database? ++
          (inNamed ++ expressions.flatMap Expr.queries ++ sources.flatMap Source.queries).flatMap (databases depth)
    match (first :: rest.map Prod.snd).reverse with
    | [] => []
    | s :: others => ofSelection true s ++ others.flatMap (ofSelection false)

theorem databases_zero (q : Query) : q.databases 0 = [] := rfl

end Query

end CouplingTree.Sql
