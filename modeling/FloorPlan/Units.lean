import FloorPlan.Drawing
import FloorPlan.Diagnostic
import FloorPlan.Log

/-! # Unit resolution

A unit is declared as a multiple of another unit. The table of pixel sizes starts with the base
unit and grows in passes over the declarations: a declaration enters once its own unit is in the
table or is a physical unit. Ten passes are made at most; declarations left over are warned
of. -/

namespace FloorPlan

open Drawing (UnitDecl)

/-- A problem of meaning goes to the diagnostics and to the log. -/
def semanticWarning (text : String) (span : Option Span) : Diagnostic × Log.Record :=
  (.warning .semantic text span, ⟨.warning, .compiler, text ++ Diagnostic.place span⟩)

/-- The pixel sizes of the known units. -/
structure UnitTable where
  /-- The pixels of each unit, in the order of resolution. -/
  sizes : Entries Float
  /-- The pixels of the base unit. -/
  scale : Float
  deriving DecidableEq, Repr

namespace UnitTable

/-- The pixels of a unit. -/
def pixels? (t : UnitTable) (unit : String) : Option Float := t.sizes.get? unit

/-- A length in `unit` as a number of base units, unless a size that it needs is unknown or
zero. -/
def toBase? (t : UnitTable) (value : Float) (unit : String) : Option Float :=
  match t.pixels? unit with
  | none => none
  | some px => if px == 0 || t.scale == 0 then none else some (value * px / t.scale)

end UnitTable

namespace Units

/-- The pixels of the physical units at 96 dots per inch, with a root font of 16 pixels. -/
def physical : Entries Float :=
  [("px", 1.0), ("cm", 37.795275591), ("mm", 3.7795275591), ("in", 96.0), ("pt", 96.0 / 72.0),
   ("pc", 16.0), ("rem", 16.0), ("em", 16.0)]

/-- The pixels of the base unit when it is not declared. -/
def defaultScale : Float := 50.0

/-- The number of passes that are made at most. -/
def maxPasses : Nat := 10

/-- The pixels of a declared unit, if its own unit is known. Declared units hide physical ones. -/
def pixels? (sizes : Entries Float) (d : UnitDecl) : Option Float :=
  match sizes.get? d.unit with
  | some px => some (d.value * px)
  | none => (physical.get? d.unit).map (d.value * ·)

/-- The pixels of the base unit: its first declaration decides, in pixels if it has no physical
unit. -/
def scale (ds : List UnitDecl) : Float :=
  match ds.find? (·.name = baseUnit) with
  | some d => (pixels? [] d).getD d.value
  | none => defaultScale

/-- Enters one declaration, unless its name is known or its unit is not. -/
def enter (sizes : Entries Float) (d : UnitDecl) : Entries Float :=
  if sizes.has d.name then sizes
  else
    match pixels? sizes d with
    | some px => sizes.put d.name px
    | none => sizes

/-- One pass over the declarations. -/
def pass (ds : List UnitDecl) (sizes : Entries Float) : Entries Float := ds.foldl enter sizes

/-- At most `n` passes, up to the first one that adds nothing; with the number of passes made. -/
def passes (ds : List UnitDecl) : Nat → Entries Float → Nat × Entries Float
  | 0, sizes => (0, sizes)
  | n + 1, sizes =>
    let sizes' := pass ds sizes
    if sizes'.length = sizes.length then (1, sizes')
    else
      let (k, final) := passes ds n sizes'
      (k + 1, final)

end Units

/-- What resolution gives. -/
structure Resolution where
  table : UnitTable
  diagnostics : Diagnostics
  log : List Log.Record

/-- Declarations with the warnings given for them so far. -/
structure Resolver where
  declarations : List UnitDecl
  messages : Diagnostics

namespace Resolver

/-- A resolver that has not run. -/
def ofDeclarations (ds : List UnitDecl) : Resolver := ⟨ds, []⟩

/-- Resolves the declarations. The warnings of earlier runs are given again before the new
ones. -/
def run (r : Resolver) : Resolution × Resolver :=
  let scale := Units.scale r.declarations
  let (count, sizes) := Units.passes r.declarations Units.maxPasses [(baseUnit, scale)]
  let warnings := (r.declarations.filter (!sizes.has ·.name)).map fun d =>
    semanticWarning ("Could not resolve unit: " ++ d.name) d.span
  let settled := "Unit resolution settled after " ++ count.repr ++ " pass(es)"
  let messages := r.messages ++ warnings.map (·.1)
  (⟨⟨sizes, scale⟩, messages, ⟨.debug, .compiler, settled⟩ :: warnings.map (·.2)⟩,
    { r with messages })

end Resolver

/-- Resolves unit declarations. -/
def resolveUnits (ds : List UnitDecl) : Resolution := (Resolver.ofDeclarations ds).run.1

end FloorPlan
