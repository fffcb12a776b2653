/-! # Texts inside markup

Inside a text the markup characters become entities. An attribute value also loses its line
ends and tabs to character references, and takes the quotation marks that its text allows. -/

namespace FloorPlan.Text

/-- A character of a markup text. -/
def markupChar (c : Char) : List Char :=
  if c = '&' then "&amp;".toList
  else if c = '<' then "&lt;".toList
  else if c = '>' then "&gt;".toList
  else [c]

/-- A text inside markup. -/
def markup (s : String) : String := String.ofList (s.toList.flatMap markupChar)

/-- A character of an attribute value. -/
def attributeChar (c : Char) : List Char :=
  if c = '\n' then "&#10;".toList
  else if c = '\r' then "&#13;".toList
  else if c = '\t' then "&#9;".toList
  else markupChar c

/-- An attribute value in double quotes; in single quotes if only double quotes occur in it. If
both occur, the double quotes become entities. -/
def attributeText (s : String) : String :=
  let cs := s.toList.flatMap attributeChar
  if !cs.contains '"' then String.ofList ('"' :: cs ++ ['"'])
  else if !cs.contains '\'' then String.ofList ('\'' :: cs ++ ['\''])
  else
    let escaped := cs.flatMap fun c => if c = '"' then "&quot;".toList else [c]
    String.ofList ('"' :: escaped ++ ['"'])

end FloorPlan.Text
