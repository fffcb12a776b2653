import FloorPlan.Program

/-! # The command line

Reads what a run looks at, runs it, and carries out what it changed. -/

namespace FloorPlan.Program

/-- The environment variables that settings are read from. -/
def environment : IO Settings.Environment := do
  let names := ["FLOORPLAN_LOG_LEVEL", "FLOORPLAN_PNG_SCALE", "FLOORPLAN_OUTPUT_DIR"]
  let values ← names.mapM fun n => return (n, ← IO.getEnv n)
  return values.filterMap fun (n, v) => v.map (n, ·)

/-- The text of a place. -/
def placeText (p : Place) : String := "/" ++ "/".intercalate p

/-- Copies what stands at a path and on the way to it. -/
def observe (disk : Disk) (path : Path) : IO Disk := do
  let here ← IO.currentDir
  let mut place := if path.root = "" then disk.cwd else []
  let mut disk := disk
  for name in path.parts do
    place := if name = ".." then place.dropLast else place ++ [name]
    let real := here / placeText place
    if ← real.isDir then
      disk := disk.put place .directory
    else if ← real.pathExists then
      disk := disk.put place (.file (← IO.FS.readBinFile real))
  return disk

/-- Makes the directories and writes the files that are new on a disk. -/
def carryOut (before after : Disk) : IO Unit := do
  for (place, entry) in after.listing do
    match before.at? place, entry with
    | some .directory, .directory => pure ()
    | _, .directory => IO.FS.createDirAll (placeText place)
    | some (.file old), .file content =>
      unless old.data = content.data do
        IO.FS.writeBinFile (placeText place) content
    | _, .file content => IO.FS.writeBinFile (placeText place) content

/-- The options on one line. -/
def usage : String :=
  "usage: floorplan-compiler [-h] [--test] [--code CODE] [--input INPUT] " ++
    "[--output-dir OUTPUT_DIR] [--name NAME] [--png] [--quiet] [--log-level LOG_LEVEL]"

/-- The words of a failure. -/
def failureText : Failure → String
  | .fault f => f.message
  | .file .missing => "no such file or directory"
  | .file .taken => "file exists"
  | .file .isDirectory => "is a directory"
  | .file .notDirectory => "not a directory"
  | .file .tooLong => "name too long"
  | .file .tooDeep => "too many missing directories"
  | .file .nullCharacter => "null character in a path"
  | .file .undecodable => "not a UTF-8 text"

/-- Runs the command line on the real disk. -/
def start (argv : List String) : IO UInt32 := do
  let env ← environment
  let cwd := (Path.ofText (← IO.currentDir).toString).parts
  let looked := match Options.read argv with
    | .ok (.run o) => if o.test then [] else paths o env cwd
    | _ => []
  let disk ← looked.foldlM observe (Disk.bare cwd)
  match act argv env disk with
  | .ok response after =>
    carryOut disk after
    match response with
    | .finished o =>
      IO.print o.stdout
      IO.eprint o.stderr
    | .badUsage cause =>
      IO.eprintln usage
      IO.eprintln (usageLine cause)
    | .help => IO.println usage
    return response.exit.toUInt32
  | .error failure after =>
    carryOut disk after
    IO.eprintln (failureText failure)
    return 1

end FloorPlan.Program

def main (argv : List String) : IO UInt32 := FloorPlan.Program.start argv
