import FloorPlan.Options
import FloorPlan.Preview
import FloorPlan.SelfCheck.Cases
import FloorPlan.Settings

/-! # The program

One run of the command line, given the arguments, the environment and the disk. The disk changes
only after the source has been compiled. -/

namespace FloorPlan.Program

/-- What a run leaves. -/
structure Outcome where
  exit : Nat
  stdout : String
  stderr : String
  disk : Disk

/-- What a command line is answered with. -/
inductive Response where
  | finished (outcome : Outcome)
  | badUsage (cause : UsageError)
  | help

/-- The exit code of a response. -/
def Response.exit : Response → Nat
  | finished outcome => outcome.exit
  | badUsage _ => 2
  | help => 0

/-- Why a run breaks off. -/
inductive Failure where
  | fault (cause : Fault)
  | file (cause : FileError)
  deriving DecidableEq, Repr

/-- A part of a run. One that breaks off leaves the disk as it is by then. -/
abbrev Act := EStateM Failure Disk

/-- The drawing that is compiled when no source is given. -/
def sampleSource : String :=
  linesText
    ["",
     "@unit U = 48px;",
     "",
     "@draw MyHome " ++ Text.leftBrace,
     "  @canvas 18U x 10U;",
     "  @grid grid size 1U color #ccc alpha 0.15;",
     "",
     "  room living at (1U, 1U) size (6U, 4U) " ++ Text.leftBrace,
     "    label: \"Living Room\";",
     "  " ++ Text.rightBrace,
     "",
     "  room kitchen at (8U, 1U) size (5U, 3U) " ++ Text.leftBrace,
     "    label: \"Kitchen\";",
     "  " ++ Text.rightBrace,
     "",
     "  room bedroom at (1U, 6U) size (5U, 3U) " ++ Text.leftBrace,
     "    label: \"Bedroom\";",
     "  " ++ Text.rightBrace,
     "",
     "  wall from (1U, 5U) to (13U, 5U);",
     "  wall from (7U, 1U) to (7U, 4U);",
     "",
     "  door from (7U, 2U) to (7U, 3U) width 0.9U;",
     "",
     "  repeat Window from (8U, 1U) to (12U, 1U) space 2U;",
     Text.rightBrace]

/-- An option's value that is not empty. -/
def given? (value : Option String) : Option String := value.filter (· ≠ "")

/-- The records of a log that reach a level, as they are shown. -/
def shown (level : Log.Level) (log : List Log.Record) : List String :=
  (log.filter (level.rank ≤ ·.level.rank)).map Log.Record.line

/-- The source to compile: a file before a text on the command line before the sample. -/
def source (o : Options) (disk : Disk) : Except FileError String :=
  match given? o.input with
  | some path => disk.readText (Path.ofText path)
  | none => .ok ((given? o.code).getD sampleSource)

/-- The base name of the output files. -/
def baseName (o : Options) : String :=
  match given? o.name with
  | some name => name
  | none => ((given? o.input).map fun path => (Path.ofText path).stem).getD "floorplan"

/-- The directory for the outputs. -/
def directory (o : Options) (env : Settings.Environment) (cwd : Place) : Path :=
  ((given? o.outputDir).map Path.ofText).getD (Settings.outputPath env cwd)

/-- The path of an output with a given extension. -/
def target (dir : Path) (name extension : String) : Path :=
  dir.join (Path.ofText (name ++ extension))

/-- The files that hold the outputs of a compilation, in the order of writing. -/
def outputFiles (dir : Path) (name : String) (outputs : Outputs) : List (Path × String) :=
  [(target dir name ".css", outputs.css),
   (target dir name ".json", outputs.json),
   (target dir name ".svg", Preview.render outputs.model)]

/-- Writes the outputs of a compilation to a directory, which is made if it is not there. -/
def save (dir : Path) (name : String) (outputs : Outputs) : Disk.OnDisk Unit := do
  Disk.makeDirectories dir
  (outputFiles dir name outputs).forM fun file => Disk.writeText file.1 file.2

/-- The paths that a run looks at. -/
def paths (o : Options) (env : Settings.Environment) (cwd : Place) : List Path :=
  let dir := directory o env cwd
  ((given? o.input).map Path.ofText).toList ++
    [".css", ".json", ".svg"].map (target dir (baseName o))

/-- What the log says of a pixel preview that was asked for. -/
def previewNotes (o : Options) : List Log.Record :=
  if o.png then [⟨.warning, .compiler, Fault.noRasteriser.message ++ ", skipping PNG preview"⟩]
  else []

/-- The self check on its own. -/
def selfCheck (level : Log.Level) (early : List String) : Act Outcome := do
  let summary ← ofExcept ((SelfCheck.run SelfCheck.cases).mapError .fault)
  return {
    exit := if summary.failed = 0 then 0 else 1
    stdout := linesText summary.printed
    stderr := linesText (early ++ shown level summary.log)
    disk := ← get }

/-- Compiles a source and saves the outputs. A lexical error saves nothing. -/
def compile (o : Options) (env : Settings.Environment) (level : Log.Level) (early : List String) :
    Act Outcome := do
  let text ← ofExcept ((source o (← get)).mapError .file)
  let compiler := Compiler.ofName ((given? o.input).getD "<input>")
  let run := (compiler.compile (!o.quiet) text).1
  let result ← ofExcept (run.result.mapError .fault)
  let noted := early ++ shown level run.log
  match result.outputs with
  | none =>
    let errors := result.report.errors.map ("[ERROR] " ++ ·)
    return ⟨1, linesText run.printed, linesText (noted ++ errors), ← get⟩
  | some outputs =>
    let dir := directory o env (← get).cwd
    EStateM.adaptExcept .file (save dir (baseName o) outputs)
    let saved := if o.quiet then [] else ["\n✓ Output saved to " ++ dir.text ++ "/"]
    return {
      exit := if result.report.isValid then 0 else 1
      stdout := linesText (run.printed ++ saved)
      stderr := linesText (noted ++ shown level (previewNotes o))
      disk := ← get }

/-- One run of the command line. Warnings about the log level come before the log is set up, as
bare lines. -/
def act (argv : List String) (env : Settings.Environment) : Act Response :=
  match Options.read argv with
  | .error cause => return .badUsage cause
  | .ok .help => return .help
  | .ok (.run o) => do
    let (level, notes) := Settings.logLevel env o.logLevel
    let early := notes.map (·.message)
    let outcome ← if o.test then selfCheck level early else compile o env level early
    return .finished outcome

/-- The response to a command line. -/
def run (argv : List String) (env : Settings.Environment) (disk : Disk) :
    Except Failure Response :=
  match act argv env disk with
  | .ok response _ => .ok response
  | .error failure _ => .error failure

/-- The line on standard error for a bad command line. -/
def usageLine (cause : UsageError) : String := "floorplan-compiler: error: " ++ cause.message

end FloorPlan.Program
