import CouplingTree.Report.Basic
import CouplingTree.Json.Value

/-!
# Reports as JSON

A report becomes an object with one field for each of its parts, in the order in which they are computed.
-/

namespace CouplingTree

def CouplingRow.toJson (r : CouplingRow Float) : Json :=
  .object [("from", .ofName r.caller), ("to", .ofName r.callee), ("value", .double r.value)]

/-- A class without an account has the integer zero for its instability. -/
def ClassCoupling.toJson (c : ClassCoupling Float) : Json :=
  .object [("afferent", .int c.afferent), ("efferent", .int c.efferent),
    ("instability", c.instability.elim (.int 0) .double)]

def ClusterSummary.toJson (c : ClusterSummary Float) : Json :=
  .object [("id", .int c.id), ("classes", .names c.classes), ("size", .int c.size),
    ("merge_coupling", .double c.mergeCoupling), ("cohesion", .double c.cohesion),
    ("children", .list (c.children.map .names))]

def HistoryEntry.toJson (h : HistoryEntry Float) : Json :=
  .object [("step", .int h.step), ("merged", .list [.names h.first, .names h.second]),
    ("coupling", .double h.coupling), ("result", .names h.result)]

namespace Report

def fields (r : Report Float) : List (String × Json) :=
  [("class_count", .int r.classCount), ("total_relations", .int r.totalRelations),
    ("coupling", .list (r.coupling.map CouplingRow.toJson)),
    ("class_coupling", .object (r.classCoupling.map fun c => (nameText c.1, c.2.toJson))),
    ("clusters", .list (r.clusters.map ClusterSummary.toJson)),
    ("history", .list (r.history.map HistoryEntry.toJson)),
    ("modules", .list (r.modules.map .names)), ("selected_modules", .list (r.selectedModules.map .names)),
    ("leaf_order", .names r.leafOrder)]

def toJson (r : Report Float) : Json := .object r.fields

end Report

end CouplingTree
