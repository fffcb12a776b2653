import FloorPlan.SelfCheck

/-! # The cases of the self check -/

namespace FloorPlan.SelfCheck

open Text (braced)

/-- A drawing with the given body on a plain sheet. -/
def plan (body : String) : String :=
  "@unit U = 50px; @draw Test " ++ braced (" @canvas 10U x 10U; " ++ body ++ " ")

/-- An expected size of the canvas. -/
def canvas (cols rows : Int) : String × Value := ("canvas", .tuple [.whole cols, .whole rows])

/-- An expected number of parts. -/
def count (name : String) (n : Int) : String × Value := (name, .whole n)

/-- A case that is valid. -/
def passes (name source : String) (expected : Entries Value) : Case :=
  ⟨name, source, true, expected⟩

/-- A case with errors. -/
def fails (name source : String) (expected : Entries Value) : Case :=
  ⟨name, source, false, expected⟩

/-- Small valid drawings. -/
def basicCases : List Case :=
  [passes "Basic: Empty drawing" (plan "") [canvas 10 10, count "rooms" 0],
   passes "Basic: Plan alias" ("@plan Test " ++ braced " @canvas 4U x 3U; ") [canvas 4 3],
   passes "Basic: No unit declaration" ("@draw Test " ++ braced " @canvas 6U x 2U; ") [canvas 6 2],
   passes "Basic: Block comments"
     ("/* header */ @draw T " ++ braced " /* c */ @canvas 2U x 2U; ") [],
   passes "Basic: Module header" ("@module house; @draw T " ++ braced " @canvas 2U x 2U; ") [],
   passes "Basic: Hierarchy marker" ("@1; @draw T " ++ braced " @canvas 2U x 2U; ") [],
   passes "Basic: Newlines and tabs" ("@draw T " ++ braced "\n\t@canvas 2U x 2U;\r\n") []]

/-- Unit declarations. -/
def unitsCases : List Case :=
  [passes "Units: Physical base"
     ("@unit U = 1cm; @draw T " ++ braced " @canvas 10U x 10U; ") [canvas 10 10],
   passes "Units: Named unit"
     ("@unit U = 50px; @unit m = 100px; @draw T " ++ braced " @canvas 1m x 1m; ") [canvas 2 2],
   passes "Units: Unnamed declaration"
     ("@unit = 25px; @draw T " ++ braced " @canvas 4U x 4U; ") [canvas 4 4],
   passes "Units: Unknown unit passes through"
     (plan "room a at (1zz, 2zz) size (3zz, 4zz);") [count "rooms" 1],
   passes "Units: Cyclic definitions"
     ("@unit a = 2b; @unit b = 2a; @draw T " ++ braced " @canvas 2U x 2U; ") []]

/-- Rooms. -/
def roomsCases : List Case :=
  [passes "Room: With label"
     (plan ("room living at (1U, 1U) size (6U, 4U) " ++ braced " label: \"Living\"; "))
     [count "rooms" 1],
   passes "Room: Semicolon form" (plan "room hall at (0U, 0U) size (2U, 2U);") [count "rooms" 1],
   passes "Room: Style properties"
     (plan ("room k at (0U, 0U) size (2U, 2U) " ++
       braced " background: red; border-radius: 8px; "))
     [count "rooms" 1],
   passes "Room: Several rooms"
     (plan ("room a at (0U, 0U) size (1U, 1U); room b at (1U, 0U) size (1U, 1U); " ++
       "room c at (2U, 0U) size (1U, 1U);"))
     [count "rooms" 3],
   passes "Room: Escaped label"
     (plan ("room a at (0U, 0U) size (1U, 1U) " ++ braced " label: \"Bob\\\"s\"; ")) [],
   passes "Room: Single-quoted label"
     (plan ("room a at (0U, 0U) size (1U, 1U) " ++ braced " label: 'Hall'; ")) [],
   fails "Room: Missing size" (plan "room a at (0U, 0U);") [],
   fails "Room: Unknown property token"
     (plan ("room a at (0U, 0U) size (1U, 1U) " ++ braced " 42; ")) []]

/-- Walls. -/
def wallsCases : List Case :=
  [passes "Wall: Horizontal" (plan "wall from (0U, 0U) to (5U, 0U);") [count "walls" 1],
   fails "Wall: Missing to" (plan "wall from (0U, 0U) (5U, 0U);") []]

/-- Doors. -/
def doorsCases : List Case :=
  [passes "Door: With width" (plan "door from (7U, 2U) to (7U, 3U) width 0.9U;") [count "doors" 1],
   fails "Door: Missing width" (plan "door from (7U, 2U) to (7U, 3U);") []]

/-- Grids. -/
def gridsCases : List Case :=
  [passes "Grid: Defaults" (plan "@grid;") [count "grids" 1],
   passes "Grid: Dotted" (plan "@grid dotted size 2U;") [count "grids" 1],
   passes "Grid: Two sizes" (plan "@grid vlines size 1U x 2U color red alpha 0.5;") [],
   passes "Grid: Hex color" (plan "@grid grid size 1U color #ccc alpha 0.15;") [],
   fails "Grid: Unknown option" (plan "@grid size 1U weight 3;") []]

/-- Repeat patterns. -/
def repeatsCases : List Case :=
  [passes "Repeat: Horizontal"
     (plan "repeat Window from (0U, 0U) to (8U, 0U) space 2U;") [count "rooms" 5],
   passes "Repeat: Vertical"
     (plan "repeat Window from (0U, 0U) to (0U, 6U) space 2U;") [count "rooms" 4],
   passes "Repeat: Single point"
     (plan "repeat Post from (1U, 1U) to (1U, 1U) space 2U;") [count "rooms" 1],
   passes "Repeat: Zero spacing skipped"
     (plan "repeat Post from (0U, 0U) to (4U, 0U) space 0U;") [count "rooms" 0],
   passes "Repeat: With authored rooms"
     (plan "room a at (0U, 0U) size (1U, 1U); repeat Window from (0U, 0U) to (8U, 0U) space 2U;")
     [count "rooms" 6]]

/-- Statements reserved for drawings in several files. -/
def reservedCases : List Case :=
  [passes "Reserved: Import"
     ("import Ground from \"./ground.arch\"; @draw T " ++ braced " @canvas 2U x 2U; ") [],
   passes "Reserved: Export" ("export default Home; @draw T " ++ braced " @canvas 2U x 2U; ") [],
   passes "Reserved: Use" (plan "use Ground at (0U, 0U) rotate 90;") [count "rooms" 0]]

/-- Malformed drawings. -/
def grammarCases : List Case :=
  [fails "Syntax: Missing canvas"
     ("@draw T " ++ braced " room a at (0U, 0U) size (1U, 1U); ")
     [canvas 10 10, count "rooms" 1],
   fails "Syntax: Missing draw" "@unit U = 50px;" [],
   fails "Syntax: Empty input" "" [],
   fails "Syntax: Unknown body tokens" (plan "invalid syntax here") [],
   fails "Syntax: Unknown top-level token" ("foo; @draw T " ++ braced " @canvas 2U x 2U; ") [],
   fails "Syntax: Missing semicolon" ("@draw T " ++ braced " @canvas 2U x 2U ") [],
   passes "Syntax: Trailing content" ("@draw T " ++ braced " @canvas 2U x 2U; " ++ " room") []]

/-- What follows an error is read. -/
def recoveryCases : List Case :=
  [fails "Recovery: Error then valid room"
     (plan "oops room a at (0U, 0U) size (1U, 1U);") [count "rooms" 1]]

/-- Characters that no token starts with. -/
def charactersCases : List Case :=
  [fails "BadChar: Dollar sign" (plan "$") [],
   fails "BadChar: Percent" ("@draw T " ++ braced " @canvas 50% x 2U; ") [],
   fails "BadChar: Pipe" (plan "|") [],
   fails "BadChar: Unicode" (plan "é") []]

/-- All cases. -/
def cases : List Case :=
  basicCases ++ unitsCases ++ roomsCases ++ wallsCases ++ doorsCases ++ gridsCases ++
    repeatsCases ++ reservedCases ++ grammarCases ++ recoveryCases ++ charactersCases

end FloorPlan.SelfCheck
