import CouplingTree.CommandLine.Program

/-!
# The command

`main` looks up the input that the command line names, runs the program over it, prints what it says and writes the
report.
-/

namespace CouplingTree

/-- Adds an entry to a tree, with the directories above it. -/
def FileTree.addWithAbove (t : FileTree) (loc : Location) (e : FileEntry) : FileTree :=
  ((List.range loc.length).foldl (fun t n => t.put (loc.take n) .directory) t).put loc e

/-- Adds what there is at a path, as far as it can be read. -/
def lookUp (t : FileTree) (p : Path) : IO FileTree := do
  let loc := p.parts.filter (· ≠ "..")
  try
    let bytes ← IO.FS.readBinFile p.text
    return t.addWithAbove loc (.file (.bytes bytes.toList))
  catch
    | .noFileOrDirectory .. => return t
    | _ => return t.addWithAbove loc .directory

/-- The paths that may be opened for an input: its own, and the one that it is the address of. -/
def openedPaths (input : Path) : List Path :=
  match DatabaseAddress.ofPath input with
  | .ok a => [input, a.path]
  | .error _ => [input]

def report (o : Outcome) : IO UInt32 := do
  IO.print o.output
  IO.eprint o.errorOutput
  match o.ending with
  | .exit code => return UInt32.ofNat code
  | .failure e =>
    IO.eprintln e.message
    return 1

/-- Prepares a run, and finishes it with the seconds that this took. -/
def runCommand (argv : List String) : IO UInt32 := do
  let begun ← IO.monoMsNow
  let start : FileTree := ⟨[], .ofList [([], .directory)]⟩
  let tree ← match Arguments.parse argv with
    | .ok (input, _) => (openedPaths (.ofText input)).foldlM lookUp start
    | .error _ => pure start
  match prepare tree argv with
  | .error o => report o
  | .ok p =>
    let elapsed := Float.ofNat ((← IO.monoMsNow) - begun) / 1000
    if let some path := p.outPath? then
      IO.FS.createDirAll path.parent.text
      IO.FS.writeFile path.text (p.document elapsed).indented
    report (p.finish elapsed)

end CouplingTree

def main (argv : List String) : IO UInt32 := CouplingTree.runCommand argv
