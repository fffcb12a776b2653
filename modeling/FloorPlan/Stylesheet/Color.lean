import FloorPlan.Number.Layout
import FloorPlan.Number.Reader

/-! # Colors with opacity

A hexadecimal color of three or six digits becomes an `rgba` color, a hexadecimal color of any
other length is kept, and a named color is mixed with transparency. -/

namespace FloorPlan.Stylesheet

open Number (Amount)

/-- The value of a channel's digits; what is no hexadecimal number counts as zero. -/
def channel (digits : String) : Int := (Number.readHex? digits).getD 0

/-- The six digits of a short or a long hexadecimal color. -/
def sixDigits? (ds : List Char) : Option (List Char) :=
  if ds.length = 3 then some (ds.flatMap fun d => [d, d])
  else if ds.length = 6 then some ds
  else none

/-- The channel at a place of six digits. -/
def channelAt (ds : List Char) (i : Nat) : String :=
  Number.integerText (channel (String.ofList ((ds.drop i).take 2)))

/-- A color with an opacity. -/
def translucent (color : String) (alpha : Amount) : String :=
  match color.toList with
  | '#' :: ds =>
    match sixDigits? ds with
    | some ds =>
      "rgba(" ++ channelAt ds 0 ++ ", " ++ channelAt ds 2 ++ ", " ++ channelAt ds 4 ++ ", " ++
        alpha.text ++ ")"
    | none => color
  | _ => "color-mix(in srgb, " ++ color ++ " " ++ alpha.percent.text ++ "%, transparent)"

end FloorPlan.Stylesheet
