import GasMachine.Fixture

/-!
# Fixture suites

A suite is a set of files with fixtures, given by their paths. Only files whose names end in
`.json` count. They are run in the order of their paths, part by part, and the fixtures of a file in
the order of their names. A file that cannot be read ends the run.
-/

set_option autoImplicit false

namespace GasMachine.Fixture

/-! ## Files -/

structure File where
  path : String
  text : String

namespace File

def parts (file : File) : List String :=
  (file.path.splitOn "/").filter fun part => part ≠ "" ∧ part ≠ "."

def shownPath (file : File) : String := "/".intercalate file.parts

/-- Whether the file is one with fixtures; a name needs something in front of its ending. -/
def holdsFixtures (file : File) : Bool :=
  match file.parts.getLast? with
  | some name => name.endsWith ".json" && 5 < name.length
  | none => false

def precedes (a b : File) : Bool := (compare a.parts b.parts).isLE

def fixtures? (file : File) : Option (List (String × Fixture)) :=
  (Json.Reading.table Fixture.reading).ofText? file.text

end File

/-- The files of a suite in the order in which they are run. A path given again replaces the file
given before. -/
def suiteOrder (files : List File) : List File :=
  let kept := files.foldr
    (fun file later =>
      if later.any fun other => other.parts == file.parts then later else file :: later)
    []
  (kept.filter File.holdsFixtures).mergeSort File.precedes

/-! ## Results -/

structure Report where
  passed : Nat := 0
  /-- The failed fixtures, each with its file and name, and why they failed. -/
  failures : List (String × String) := []

namespace Report

def failed (report : Report) : Nat := report.failures.length

def total (report : Report) : Nat := report.passed + report.failed

/-- How many of a hundred fixtures passed; all of them if there are none. -/
def passRate (report : Report) : Float :=
  if report.total = 0 then 100
  else (Nat.toFloat report.passed / Nat.toFloat report.total) * 100

def add (report : Report) (file : File) (name : String) (fixture : Fixture) : Report :=
  match fixture.run with
  | .ok () => { report with passed := report.passed + 1 }
  | .error failure =>
    { report with
      failures :=
        report.failures ++ [(s!"{file.shownPath}::{name}", failure.message name)] }

def addFile (report : Report) (file : File) : Option Report := do
  return (← file.fixtures?).foldl
    (fun report (name, fixture) => report.add file name fixture) report

end Report

def runSuite (files : List File) : Option Report :=
  (suiteOrder files).foldlM Report.addFile {}

end GasMachine.Fixture
