import FloorPlan.Compiler

/-! # The self check

A table of sources, each with the expected validity and some expected entries of its report.
Every case is compiled by a compiler of its own. Cases are grouped by the text before the first
colon of their names, groups in the order of their first cases. -/

namespace FloorPlan.SelfCheck

/-- A value that an entry of a report has or may be expected to have. -/
inductive Value where
  | absent
  | flag (b : Bool)
  | whole (n : Int)
  | real (x : Float)
  | text (s : String)
  | tuple (vs : List Value)
  | list (vs : List Value)

/-- A case of the self check. -/
structure Case where
  name : String
  source : String
  shouldPass : Bool
  /-- The entries of the report that are looked at. -/
  expected : Entries Value

/-- The integer that a number or a truth value is equal to. -/
def Value.whole? : Value → Option Int
  | .flag b => some (if b then 1 else 0)
  | .whole n => some n
  | .real x => Number.whole? x
  | _ => none

/-- Whether two values are numbers and equal. Truth values count as zero and one. -/
def Value.sameNumber : Value → Value → Bool
  | .real x, .real y => x == y
  | v, w =>
    match v.whole?, w.whole? with
    | some n, some k => n = k
    | _, _ => false

mutual

/-- Whether two values are equal. A tuple is not equal to a list. -/
def Value.equals : Value → Value → Bool
  | .absent, .absent => true
  | .text s, .text t => s = t
  | .tuple vs, .tuple ws => Value.allEqual vs ws
  | .list vs, .list ws => Value.allEqual vs ws
  | v, w => v.sameNumber w

/-- Whether two lists have equal values one by one. -/
def Value.allEqual : List Value → List Value → Bool
  | [], [] => true
  | v :: vs, w :: ws => v.equals w && Value.allEqual vs ws
  | _, _ => false

end

/-- The value of a report under a name; under an unknown name there is nothing. -/
def entry (r : Report) (name : String) : Value :=
  match name with
  | "is_valid" => .flag r.isValid
  | "errors" => .list (r.errors.map .text)
  | "warnings" => .list (r.warnings.map .text)
  | "canvas" =>
    match r.canvas with
    | some c => .tuple [.real c.cols, .real c.rows]
    | none => .absent
  | "rooms" => .whole r.rooms
  | "walls" => .whole r.walls
  | "doors" => .whole r.doors
  | "grids" => .whole r.grids
  | _ => .absent

/-- Whether a report has a value under a name. -/
def holds (r : Report) (name : String) (v : Value) : Bool := (entry r name).equals v

/-- Whether a report is as a case expects. -/
def Case.agrees (c : Case) (r : Report) : Bool :=
  r.isValid = c.shouldPass && c.expected.all fun e => holds r e.1 e.2

/-- The name of a case's group. -/
def Case.group (c : Case) : String := String.ofList (c.name.toList.takeWhile (· ≠ ':'))

/-- The outcome of a case. -/
structure Verdict where
  name : String
  shouldPass : Bool
  report : Report
  agrees : Bool

/-- The numbers of cases that passed and that failed. -/
structure Tally where
  passed : Nat
  failed : Nat
  deriving DecidableEq, Repr

namespace Tally

/-- The tally of no cases. -/
def zero : Tally := ⟨0, 0⟩

/-- The tally with one more case. -/
def count (t : Tally) (v : Verdict) : Tally :=
  if v.agrees then { t with passed := t.passed + 1 } else { t with failed := t.failed + 1 }

/-- Two tallies in one. -/
def add (t u : Tally) : Tally := ⟨t.passed + u.passed, t.failed + u.failed⟩

/-- How many of all cases passed. -/
def text (t : Tally) : String := t.passed.repr ++ "/" ++ (t.passed + t.failed).repr

end Tally

/-- The tally of verdicts, counted one by one. -/
def tally (vs : List Verdict) : Tally := vs.foldl Tally.count .zero

/-- The counts, the account and the log of a self check; a fault ends it. -/
structure Summary extends Tally where
  printed : List String
  log : List Log.Record

/-- The word for an expected or found validity. -/
def passWord (b : Bool) : String := if b then "pass" else "fail"

/-- Texts as a list in messages. -/
def quotedList (ss : List String) : String :=
  "[" ++ ", ".intercalate (ss.map Text.quote) ++ "]"

namespace Verdict

/-- The lines on a case. -/
def lines (v : Verdict) : List String :=
  if v.agrees then ["  ✓ " ++ v.name]
  else
    ["  ✗ " ++ v.name,
     "      Expected: " ++ passWord v.shouldPass ++ ", Got: " ++ passWord v.report.isValid] ++
    (if v.report.errors.isEmpty then []
     else ["      Errors: " ++ quotedList (v.report.errors.take 2)])

end Verdict

/-- Runs a case with a fresh compiler. -/
def Case.run (c : Case) : List Log.Record × Except Fault Verdict :=
  let run := ((Compiler.ofName ("<" ++ c.name ++ ">")).compile false c.source).1
  (run.log, run.result.map fun r => ⟨c.name, c.shouldPass, r.report, c.agrees r.report⟩)

/-- The groups of a table in the order of their first cases. -/
def groups (cases : List Case) : Entries (List Case) :=
  cases.foldl (fun gs c => gs.put c.group ((gs.get? c.group).getD [] ++ [c])) []

/-- The lines on a group. -/
def groupLines (name : String) (vs : List Verdict) : List String :=
  ("\n[" ++ name ++ "]") :: vs.flatMap Verdict.lines ++ ["  [" ++ (tally vs).text ++ " passed]"]

/-- The lines before the groups. -/
def headLines : List String := ["\n" ++ Compiler.bar 70, "TEST SUITE", Compiler.bar 70]

/-- The lines after the groups: the total, and the names of the cases that failed. -/
def footLines (total : Tally) (failed : List String) : List String :=
  ["\n" ++ Compiler.bar 70, "TOTAL: " ++ total.text ++ " tests passed"] ++
  (if failed.isEmpty then [] else "\nFailed tests:" :: failed.map ("  - " ++ ·)) ++
  [Compiler.bar 70]

/-- Runs the cases of a group. -/
def runGroup (cases : List Case) : Except Fault (List Log.Record × List Verdict) := do
  let runs ← cases.mapM fun c => do
    let (log, verdict) := c.run
    return (log, ← verdict)
  return (runs.flatMap (·.1), runs.map (·.2))

/-- Runs a table of cases. Every group has a tally of its own, which goes into the total. -/
def run (cases : List Case) : Except Fault Summary := do
  let results ← (groups cases).mapM fun g => do
    let (log, verdicts) ← runGroup g.2
    return (g.1, log, verdicts)
  let total := results.foldl (fun t r => t.add (tally r.2.2)) Tally.zero
  let failed := (results.flatMap (·.2.2)).filter (!·.agrees)
  return {
    total with
    printed := headLines ++ results.flatMap (fun r => groupLines r.1 r.2.2) ++
      footLines total (failed.map (·.name))
    log := results.flatMap (·.2.1) }

end FloorPlan.SelfCheck
