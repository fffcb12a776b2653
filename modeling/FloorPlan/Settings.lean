import FloorPlan.Files
import FloorPlan.Log
import FloorPlan.Number.Layout
import FloorPlan.Number.Reader
import FloorPlan.Text.Quoted
import FloorPlan.Text.Upper

/-! # Settings from the environment

Three variables decide the log level, the scale of pixel previews and the output directory. A
value that makes no sense is replaced by the default, with a warning in the log. -/

namespace FloorPlan.Settings

/-- The variables of the environment. -/
abbrev Environment := Entries String

/-- The value of a variable; an unset one is empty. -/
def variableText (env : Environment) (name : String) : String := (env.get? name).getD ""

/-- A warning about a setting. -/
def warning (text : String) : Log.Record := ⟨.warning, .settings, text⟩

/-- The log level without a setting. -/
def defaultLogLevel : Log.Level := .warning

/-- The text that names the log level: an override that is not empty, else the environment. -/
def logLevelText (env : Environment) (override : Option String) : String :=
  let candidates := [override.getD "", variableText env "FLOORPLAN_LOG_LEVEL"]
  (candidates.find? (· ≠ "")).getD defaultLogLevel.name

/-- The log level, whose name may be in any case. -/
def logLevel (env : Environment) (override : Option String) : Log.Level × List Log.Record :=
  let name := Text.upper (Text.strip (logLevelText env override))
  match Log.Level.ofName? name with
  | some level => (level, [])
  | none =>
    (defaultLogLevel,
      [warning ("Unknown log level " ++ Text.quote name ++ ", using " ++ defaultLogLevel.name)])

/-- The scale of pixel previews without a setting. -/
def defaultPreviewScale : Float := 2

/-- The scale of pixel previews. -/
def previewScale (env : Environment) : Float × List Log.Record :=
  let raw := Text.strip (variableText env "FLOORPLAN_PNG_SCALE")
  let fallback := ", using " ++ Number.plain.write defaultPreviewScale
  if raw = "" then (defaultPreviewScale, [])
  else
    match Number.readFloat? raw with
    | none =>
      (defaultPreviewScale,
        [warning ("Invalid FLOORPLAN_PNG_SCALE " ++ Text.quote raw ++ fallback)])
    | some x =>
      if x ≤ 0 then
        (defaultPreviewScale, [warning ("FLOORPLAN_PNG_SCALE must be positive" ++ fallback)])
      else (x, [])

/-- The path of the output directory: the environment decides, else it is `out` in the working
directory. -/
def outputPath (env : Environment) (cwd : Place) : Path :=
  let configured := Text.strip (variableText env "FLOORPLAN_OUTPUT_DIR")
  if configured = "" then ⟨"/", cwd ++ ["out"]⟩ else Path.ofText configured

/-- The output directory, made if it is not there. -/
def outputDirectory (env : Environment) (disk : Disk) : Except FileError (Path × Disk) := do
  let path := outputPath env disk.cwd
  return (path, ← disk.ensureDirectories path)

end FloorPlan.Settings
