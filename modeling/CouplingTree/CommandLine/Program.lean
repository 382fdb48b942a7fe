import CouplingTree.CommandLine.Arguments
import CouplingTree.Report.Document
import CouplingTree.Report.Text

/-!
# The program

A run reads an export, decomposes its call graph, writes the report and prints what it found. `prepare` does all that
comes before the report is written, `Prepared.finish` the rest; a run that ends before leaves all files alone.
-/

namespace CouplingTree

/-- What stops the program without an exit code. -/
inductive ProgramError
  /-- A run needs the value of an option that was left without one. -/
  | noValue (flag : Flag)
  /-- The name of a class at this place of a module, which is to be printed, is no text. -/
  | notText (place : Nat) (name : OtherName)
  | file (e : FileError)
  | load (e : LoadError)
  | report (e : ReportError)

/-- How it shows that an option has no value: a number is held against it, or a path is made of it. -/
def Flag.noValueMessage : Flag → String
  | minCoupling => "'<' not supported between instances of 'float' and 'list'"
  | maxModules => "'>' not supported between instances of 'int' and 'list'"
  | threshold => "'>' not supported between instances of 'float' and 'list'"
  | maxSelected => "'<' not supported between instances of 'int' and 'list'"
  | _ => "expected str, bytes or os.PathLike object, not list"

def ProgramError.message : ProgramError → String
  | noValue flag => flag.noValueMessage
  | notText place name =>
    "sequence item " ++ toString place ++ ": expected str instance, " ++ name.kindName ++ " found"
  | file e => e.message
  | load e => e.message
  | report (.account e) => e.message
  | report (.layout e) => e.message

inductive Ending
  | exit (code : Nat)
  | failure (e : ProgramError)

/-- A run of the program: the files after it, what it printed, and how it ended. -/
structure Outcome where
  files : FileTree
  output : String
  errorOutput : String
  ending : Ending

/-- A decomposition that is still to be written. -/
structure Prepared where
  files : FileTree
  arguments : Arguments
  decomposition : Decomposition Float
  /-- The names of classes that are no texts. -/
  others : List OtherName
  output : String

namespace Prepared

def outPath? (p : Prepared) : Option Path := p.arguments.out.map Path.ofText

/-- The parameters in a report. An option without a value shows as an empty list. -/
def parametersJson (a : Arguments) : Json :=
  let shown {β : Type} (f : β → Json) (value : Option β) : Json := value.elim (.list []) f
  .object [("min_coupling", shown .double a.minCoupling), ("max_modules", shown .int a.maxModules),
    ("threshold", shown .double a.threshold), ("max_selected", shown (fun cap => cap.elim .null .int) a.maxSelected)]

/-- The report with the parameters of the run and the seconds it took. -/
def document (p : Prepared) (elapsed : Float) : Json :=
  .object (p.decomposition.report.fields ++
    [("parameters", parametersJson p.arguments), ("elapsed_seconds", .double (Binary64.toPlaces 2 elapsed))])

/-- The trees and the merges, if they are asked for. -/
def drawings (p : Prepared) : String :=
  let c := p.decomposition.run.clustering
  if p.arguments.text then "\n" ++ c.dendrogramText ++ "\n\n" ++ c.historyText ++ "\n" else ""

/-- The number of modules and where the report is. -/
def heading (p : Prepared) (outPath : Path) : String :=
  s!"\n{p.decomposition.report.modules.length} modules from {p.decomposition.run.clustering.active.length} clusters" ++
    s!" → {outPath.text}\n"

/-- The lines for some modules, numbered from 1. -/
def moduleLines (modules : List (List String)) : String :=
  String.join (modules.mapIdx fun i m => s!"  Module {i + 1}: " ++ ", ".intercalate m ++ "\n")

/-- The first class of a module whose name is no text, and its place. -/
def notText? (p : Prepared) (module : List String) : Option (Nat × OtherName) :=
  (module.mapIdx fun i c => (i, c)).findSome? fun c =>
    (p.others.find? fun n => n.name == c.2).map fun n => (c.1, n)

/-- Each module, up to the first one with a name that is no text. -/
def listing (p : Prepared) : String × Ending :=
  let modules := p.decomposition.report.modules
  let printed := modules.takeWhile fun m => (p.notText? m).isNone
  (moduleLines printed,
    ((modules.findSome? p.notText?).map fun n => Ending.failure (.notText n.1 n.2)).getD (.exit 0))

/-- Ends a run that fails after some output. -/
def fail (p : Prepared) (files : FileTree) (e : ProgramError) : Outcome := ⟨files, p.output, "", .failure e⟩

/-- Writes the report, into a new directory if need be, and tells what it says. -/
def finish (p : Prepared) (elapsed : Float) : Outcome :=
  match p.outPath? with
  | none => p.fail p.files (.noValue .out)
  | some outPath =>
    match p.files.makeDirectories outPath.parent with
    | (files, some e) => p.fail files (.file e)
    | (files, none) =>
      match files.write outPath (Utf8.encode (p.document elapsed).indented) with
      | .error e => p.fail files (.file e)
      | .ok files =>
        let (lines, ending) := p.listing
        ⟨files, p.output ++ p.drawings ++ p.heading outPath ++ lines, "", ending⟩

end Prepared

namespace Arguments

/-- Clusters a call graph. The number of modules is needed for it, the least coupling only where something is merged. -/
def cluster (a : Arguments) (g : CallGraph) : Except Flag (Run Float) :=
  match a.maxModules with
  | none => .error .maxModules
  | some maxModules =>
    let run := Clustering.run ⟨a.minCoupling.getD 0, maxModules⟩ g.normalizedCoupling
    if a.minCoupling.isNone ∧ ¬run.clustering.history.isEmpty then .error .minCoupling else .ok run

/-- The first option whose missing value the report on a clustering needs. Without clusters it needs none. -/
def missing? (a : Arguments) (c : Clustering Float) : Option Flag :=
  if c.active.isEmpty then none
  else if a.maxSelected.isNone then some .maxSelected
  else if a.threshold.isNone then some .threshold
  else none

def report (a : Arguments) (g : CallGraph) (c : Clustering Float) : Except ProgramError (Report Float) :=
  match a.missing? c with
  | some flag => .error (.noValue flag)
  | none => (Report.of g c (a.threshold.getD 0) (a.maxSelected.getD none)).mapError .report

end Arguments

/-- Ends a run with a complaint about how the program was called. -/
def misuse (t : FileTree) (output : String) (e : UsageError) : Outcome := ⟨t, output, e.text, .exit 2⟩

/-- Ends a run before its command line is read to the end. -/
def halted (t : FileTree) : Halt → Outcome
  | .help => ⟨t, helpText, "", .exit 0⟩
  | .usage e => misuse t "" e

/-- Decomposes a call graph, after some output. -/
def prepareGraph (t : FileTree) (a : Arguments) (output : String) (others : List OtherName) (g : CallGraph) :
    Except Outcome Prepared :=
  let output := output ++ s!"Clustering {g.size} classes...\n"
  match a.cluster g with
  | .error flag => .error ⟨t, output, "", .failure (.noValue flag)⟩
  | .ok run =>
    let output := output ++ if a.verbose then run.log else ""
    match a.report g run.clustering with
    | .error e => .error ⟨t, output, "", .failure e⟩
    | .ok report => .ok ⟨t, a, ⟨run, report⟩, others, output⟩

/-- Reads the command line and the export, and decomposes the call graph in it. -/
def prepare (t : FileTree) (argv : List String) : Except Outcome Prepared :=
  match Arguments.parse argv with
  | .error h => .error (halted t h)
  | .ok (input, a) =>
    let p := Path.ofText input
    match t.pathExists p with
    | .error e => .error ⟨t, "", "", .failure (.file e)⟩
    | .ok false => .error (misuse t "" (.inputNotFound p.text))
    | .ok true =>
      let output := "Loading " ++ p.name ++ "...\n"
      match t.loadCallGraph p with
      | (u, .ok g) => prepareGraph u a output (t.otherClasses p) g
      | (t, .error e) =>
        if e.blamesContent then .error (misuse t output (.unusable e.message))
        else .error ⟨t, output, "", .failure (.load e)⟩

/-- A run that took some seconds. -/
def runProgram (elapsed : Float) (t : FileTree) (argv : List String) : Outcome :=
  match prepare t argv with
  | .error o => o
  | .ok p => p.finish elapsed

end CouplingTree
