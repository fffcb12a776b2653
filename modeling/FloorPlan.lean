import FloorPlan.Main
import FloorPlan.Proofs.Grammar.Acceptance
import FloorPlan.Proofs.Drawing.RoundTrip
import FloorPlan.Proofs.Units.Ratios
import FloorPlan.Proofs.Token.Rendering
import FloorPlan.Proofs.Model.Recovery
import FloorPlan.Proofs.Compiler.Outcomes
import FloorPlan.Proofs.Compiler.Structure
import FloorPlan.Proofs.Grammar.Calls
import FloorPlan.Proofs.Grammar.Placements
import FloorPlan.Proofs.Compiler.Sessions
import FloorPlan.Proofs.Files.Operations
import FloorPlan.Proofs.Program.Saving
import FloorPlan.Proofs.Program.Runs
import FloorPlan.Proofs.Token.Strays
import FloorPlan.Proofs.Compiler.Copies
import FloorPlan.Proofs.Drawing.LocalRecovery
import FloorPlan.Proofs.Drawing.Trailing
import FloorPlan.Proofs.Compiler.Reserved
import FloorPlan.Proofs.Compiler.HexColors
import FloorPlan.Proofs.Model.CopyIds
import FloorPlan.Proofs.SelfCheck.Tables
import FloorPlan.Proofs.Stylesheet.Channels
import FloorPlan.Proofs.Drawing.Separators
import FloorPlan.Proofs.Grammar.StatementEnds
