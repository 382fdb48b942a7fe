import CouplingTree.Json.Value

/-!
# Complaints about input

A complaint tells where in a request a value is wrong, what is wrong with it, and which value it is.
-/

namespace CouplingTree

/-- A step to a part of a request. -/
inductive Step
  | field (name : String)
  | index (i : Nat)
deriving DecidableEq, Repr

def Step.toJson : Step → Json
  | field name => .text name
  | index i => .int i

inductive InputProblem
  | missing
  | notText
  | notAList
  | notAnObject
  | notANumber
  | unreadableNumber
  | notAnInteger
  | unreadableInteger
  | fraction
  | notFinite
  | tooManyDigits
  | aboveOne
  | belowZero
  | belowOne
  | malformed (fault : String)
deriving DecidableEq, Repr

namespace InputProblem

def kind : InputProblem → String
  | missing => "missing"
  | notText => "string_type"
  | notAList => "list_type"
  | notAnObject => "model_attributes_type"
  | notANumber => "float_type"
  | unreadableNumber => "float_parsing"
  | notAnInteger => "int_type"
  | unreadableInteger => "int_parsing"
  | fraction => "int_from_float"
  | notFinite => "finite_number"
  | tooManyDigits => "int_parsing_size"
  | aboveOne => "less_than_equal"
  | belowZero => "greater_than_equal"
  | belowOne => "greater_than_equal"
  | malformed _ => "json_invalid"

def message : InputProblem → String
  | missing => "Field required"
  | notText => "Input should be a valid string"
  | notAList => "Input should be a valid list"
  | notAnObject => "Input should be a valid dictionary or object to extract fields from"
  | notANumber => "Input should be a valid number"
  | unreadableNumber => "Input should be a valid number, unable to parse string as a number"
  | notAnInteger => "Input should be a valid integer"
  | unreadableInteger => "Input should be a valid integer, unable to parse string as an integer"
  | fraction => "Input should be a valid integer, got a number with a fractional part"
  | notFinite => "Input should be a finite number"
  | tooManyDigits => "Unable to parse input string as an integer, exceeded maximum size"
  | aboveOne => "Input should be less than or equal to 1"
  | belowZero => "Input should be greater than or equal to 0"
  | belowOne => "Input should be greater than or equal to 1"
  | malformed _ => "JSON decode error"

/-- The bound that was not kept, or the fault in a document. -/
def context : InputProblem → List (String × Json)
  | aboveOne => [("le", .double 1)]
  | belowZero => [("ge", .double 0)]
  | belowOne => [("ge", .int 1)]
  | malformed fault => [("error", .text fault)]
  | _ => []

end InputProblem

structure Complaint where
  place : List Step
  problem : InputProblem
  input : Json

namespace Complaint

/-- The complaint seen from a part that the place starts from. -/
def within (step : Step) (c : Complaint) : Complaint := { c with place := step :: c.place }

def placeJson (c : Complaint) : Json := .list (c.place.map Step.toJson)

def toJson (c : Complaint) : Json :=
  .object ([("type", .text c.problem.kind), ("loc", c.placeJson), ("msg", .text c.problem.message), ("input", c.input)] ++
    (if c.problem.context.isEmpty then [] else [("ctx", .object c.problem.context)]))

/-- Place and message alone. -/
def toShortJson (c : Complaint) : Json := .object [("loc", c.placeJson), ("msg", .text c.problem.message)]

end Complaint

end CouplingTree
