import FloorPlan.Text.Digit
import FloorPlan.Text.Quoted

/-! # Command-line options

An option is given by its name or by the start of it that no other option has. Its value is the
next argument, or follows an equals sign. Arguments that look like negative numbers, or hold a
blank and are no option, count as plain ones. -/

namespace FloorPlan

/-- The options of the command line. -/
inductive Switch where
  | help | test | code | input | outputDir | name | png | quiet | logLevel
  deriving DecidableEq, Repr

namespace Switch

/-- The options in the order of listing. -/
def all : List Switch := [help, test, code, input, outputDir, name, png, quiet, logLevel]

/-- The name of an option. -/
def text : Switch → String
  | help => "--help" | test => "--test" | code => "--code" | input => "--input"
  | outputDir => "--output-dir" | name => "--name" | png => "--png" | quiet => "--quiet"
  | logLevel => "--log-level"

/-- An option in messages, with all its names. -/
def title : Switch → String
  | help => "-h/--help"
  | s => s.text

/-- Whether an option has a value. -/
def takesValue : Switch → Bool
  | code | input | outputDir | name | logLevel => true
  | help | test | png | quiet => false

end Switch

/-- The options given on a command line. -/
structure Options where
  test : Bool
  code : Option String
  input : Option String
  outputDir : Option String
  name : Option String
  png : Bool
  quiet : Bool
  logLevel : Option String
  deriving DecidableEq, Repr

/-- What a command line asks for. -/
inductive Request where
  | run (options : Options)
  | help
  deriving DecidableEq, Repr

/-- Why a command line cannot be followed. -/
inductive UsageError where
  | ambiguous (argument : String) (candidates : List Switch)
  | valueMissing (s : Switch)
  | valueIgnored (s : Switch) (value : String)
  | unrecognized (arguments : List String)
  deriving DecidableEq, Repr

/-- The words of a usage error. -/
def UsageError.message : UsageError → String
  | ambiguous argument candidates =>
    "ambiguous option: " ++ argument ++ " could match " ++
      ", ".intercalate (candidates.map Switch.text)
  | valueMissing s => "argument " ++ s.title ++ ": expected one argument"
  | valueIgnored s value =>
    "argument " ++ s.title ++ ": ignored explicit argument " ++ Text.quote value
  | unrecognized arguments => "unrecognized arguments: " ++ " ".intercalate arguments

/-- An argument as the command line takes it. -/
inductive Argument where
  /-- An argument that may be the value of an option. -/
  | plain (text : String)
  /-- The mark after which all arguments are plain, or an unknown option. -/
  | stray (text : String)
  /-- An option with the value that the argument itself holds. -/
  | switch (s : Switch) (value : Option String)
  /-- The short form of the help option with the text that follows it. -/
  | shortHelp (tail : List Char)
  deriving DecidableEq, Repr

namespace Argument

/-- The text before and after the first equals sign. -/
def splitEquals (cs : List Char) : List Char × Option String :=
  (cs.takeWhile (· ≠ '='),
    match cs.dropWhile (· ≠ '=') with
    | [] => none
    | _ :: v => some (String.ofList v))

/-- Whether all characters are decimal digits, of which there is at least one. -/
def areDigits (cs : List Char) : Bool :=
  !cs.isEmpty && cs.all fun c => (Text.decimalValue? c).isSome

/-- Whether an argument looks like a negative number: a minus, then digits, or a point with
digits after it and perhaps before it. A newline may end it. -/
def isNegativeNumber (cs : List Char) : Bool :=
  match cs with
  | '-' :: ds =>
    let ds := if ds.getLast? = some '\n' then ds.dropLast else ds
    let before := ds.takeWhile (· ≠ '.')
    match ds.dropWhile (· ≠ '.') with
    | [] => areDigits before
    | _ :: after => (before.isEmpty || areDigits before) && areDigits after
  | _ => false

/-- An argument with two dashes in front: an option by its full name or by a start of it. -/
def ofDoubleDash (cs : List Char) : Except UsageError (Option Argument) :=
  let (given, value) := splitEquals cs
  match Switch.all.find? (·.text.toList = given) with
  | some s => .ok (some (.switch s value))
  | none =>
    match Switch.all.filter (given.isPrefixOf ·.text.toList) with
    | [] => .ok none
    | [s] => .ok (some (.switch s value))
    | ss => .error (.ambiguous (String.ofList cs) ss)

/-- An argument before the mark that ends the options. -/
def ofText (text : String) : Except UsageError Argument := do
  let cs := text.toList
  match cs with
  | '-' :: '-' :: _ =>
    match ← ofDoubleDash cs with
    | some a => return a
    | none => return if cs.contains ' ' then .plain text else .stray text
  | '-' :: 'h' :: tail => return .shortHelp tail
  | '-' :: _ :: _ =>
    return if isNegativeNumber cs || cs.contains ' ' then .plain text else .stray text
  | _ => return .plain text

/-- The arguments of a command line. -/
def ofTexts : List String → Except UsageError (List Argument)
  | [] => .ok []
  | t :: ts =>
    if t = "--" then .ok (.stray t :: ts.map .plain)
    else do
      let a ← ofText t
      return a :: (← ofTexts ts)

/-- The value that the short help option is wrongly given, if any. It follows the option at once
or after an equals sign; in front of it the letter may be repeated, as in `-hh`. -/
def helpValue? (tail : List Char) : Option String :=
  match tail with
  | [] => none
  | ['='] => some ""
  | c :: cs =>
    match (if c = '=' then cs else tail).dropWhile (· = 'h') with
    | [] => none
    | value => some (String.ofList value)

/-- The value of an option as it is kept. The mark that ends the options is no value: after an
equals sign it leaves the option empty. -/
def keptValue (value : String) : String := if value = "--" then "" else value

end Argument

namespace Options

/-- The options when none is given. -/
def blank : Options := ⟨false, none, none, none, none, false, false, none⟩

/-- Sets an option without a value. -/
def raise (o : Options) : Switch → Options
  | .test => { o with test := true }
  | .png => { o with png := true }
  | .quiet => { o with quiet := true }
  | _ => o

/-- Sets the value of an option. -/
def assign (o : Options) (value : String) : Switch → Options
  | .code => { o with code := some value }
  | .input => { o with input := some value }
  | .outputDir => { o with outputDir := some value }
  | .name => { o with name := some value }
  | .logLevel => { o with logLevel := some value }
  | _ => o

/-- Follows the arguments from left to right; `extra` are those that belong to no option. Of a
repeated option the last value counts. -/
def follow (o : Options) (extra : List String) : List Argument → Except UsageError Request
  | [] => if extra.isEmpty then .ok (.run o) else .error (.unrecognized extra)
  | .plain t :: as => follow o (extra ++ [t]) as
  | .stray t :: as => follow o (extra ++ [t]) as
  | .shortHelp tail :: _ =>
    match Argument.helpValue? tail with
    | some v => .error (.valueIgnored .help v)
    | none => .ok .help
  | .switch s (some v) :: as =>
    if s.takesValue then follow (o.assign (Argument.keptValue v) s) extra as
    else .error (.valueIgnored s v)
  | .switch s none :: as =>
    if s.takesValue then
      match as with
      | .plain v :: bs => follow (o.assign v s) extra bs
      | _ => .error (.valueMissing s)
    else if s = .help then .ok .help
    else follow (o.raise s) extra as

/-- Reads a command line. -/
def read (argv : List String) : Except UsageError Request := do
  follow blank [] (← Argument.ofTexts argv)

end Options

end FloorPlan
