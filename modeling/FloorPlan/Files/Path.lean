/-! # Paths

A path is a root, which is empty for a path relative to the working directory, and the names
below it. Empty names and single dots are dropped when a path is read; two dots stay. -/

namespace FloorPlan

/-- A list of characters cut at every `c`. -/
def cutAt (c : Char) : List Char → List (List Char)
  | [] => [[]]
  | x :: xs =>
    if x = c then [] :: cutAt c xs
    else
      match cutAt c xs with
      | [] => [[x]]
      | p :: ps => (x :: p) :: ps

/-- A path. -/
structure Path where
  root : String
  parts : List String
  deriving DecidableEq, Repr

namespace Path

/-- The root of a path that starts with `n` slashes; exactly two slashes are a root of their
own. -/
def rootText (n : Nat) : String := if n = 0 then "" else if n = 2 then "//" else "/"

/-- Reads a path. -/
def ofText (s : String) : Path :=
  { root := rootText (s.toList.takeWhile (· = '/')).length
    parts := ((cutAt '/' s.toList).map String.ofList).filter fun p => p ≠ "" && p ≠ "." }

/-- Writes a path; the working directory itself is a dot. -/
def text (p : Path) : String :=
  if p.root = "" && p.parts.isEmpty then "." else p.root ++ "/".intercalate p.parts

/-- A path seen from another one. -/
def join (p q : Path) : Path := if q.root = "" then ⟨p.root, p.parts ++ q.parts⟩ else q

/-- The last name of a path. -/
def name (p : Path) : String := p.parts.getLast?.getD ""

/-- The last name without its extension. A dot at either end of a name starts no extension. -/
def stem (p : Path) : String :=
  let cs := p.name.toList
  let extension := cs.reverse.takeWhile (· ≠ '.')
  if 0 < extension.length && extension.length + 1 < cs.length then
    String.ofList (cs.take (cs.length - 1 - extension.length))
  else p.name

end Path

end FloorPlan
