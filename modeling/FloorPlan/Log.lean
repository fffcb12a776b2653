/-! # The log

Stages write to the log beside their results. A record is shown if its level reaches a
threshold. -/

namespace FloorPlan.Log

/-- The levels of importance. -/
inductive Level where
  | notset | debug | info | warning | error | critical
  deriving DecidableEq, Repr

namespace Level

/-- The rank of a level; greater is more important. -/
def rank : Level → Nat
  | notset => 0 | debug => 10 | info => 20 | warning => 30 | error => 40 | critical => 50

/-- The name of a level. -/
def name : Level → String
  | notset => "NOTSET" | debug => "DEBUG" | info => "INFO" | warning => "WARNING"
  | error => "ERROR" | critical => "CRITICAL"

/-- The level with a given name; two levels have a second name. -/
def ofName? (s : String) : Option Level :=
  [("NOTSET", notset), ("DEBUG", debug), ("INFO", info), ("WARN", warning),
   ("WARNING", warning), ("ERROR", error), ("CRITICAL", critical), ("FATAL", critical)].lookup s

end Level

/-- The part of the program that writes a record. -/
inductive Source where
  | compiler
  | settings
  deriving DecidableEq, Repr

/-- The name of a source in the log. -/
def Source.name : Source → String
  | .compiler => "floorplan_compiler"
  | .settings => "floorplan_config"

/-- A line of the log. -/
structure Record where
  level : Level
  source : Source
  message : String
  deriving DecidableEq, Repr

/-- A record as it is shown. -/
def Record.line (r : Record) : String :=
  r.level.name ++ " " ++ r.source.name ++ ": " ++ r.message

end FloorPlan.Log
