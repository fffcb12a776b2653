import FloorPlan.Number.Reader
import Mathlib.Data.List.Basic

/-! # Reading markup

`Xml.read?` reads a document with one root: tags with names, attributes in either quotation marks,
texts, and references to characters.  It refuses what it does not know (comments, processing
instructions, marked sections) and a `>` that is not written as a reference.  Before the scan all
line ends become single newlines, and a document with a character that none may have is refused.
The scan takes one character at a time. -/

namespace FloorPlan

/-- An element with its attributes and its content, or a character. -/
inductive Xml where
  | element (name : String) (attributes : List (String × String)) (content : List Xml)
  | char (c : Char)

namespace Xml

/-! ### Characters and line ends -/

/-- Whether a document may have a character.  Two code points are no characters; which of the
control characters a document may have is left open. -/
def isAllowed (c : Char) : Bool := c ∉ ['\ufffe', '\uffff']

/-- The line ends of a text as single newlines: a carriage return is one, alone or with the newline
after it. -/
def lineEnds : List Char → List Char
  | '\r' :: '\n' :: cs => '\n' :: lineEnds cs
  | '\r' :: cs => '\n' :: lineEnds cs
  | c :: cs => c :: lineEnds cs
  | [] => []

/-! ### References -/

/-- The characters with names. -/
def entities : List (String × Char) :=
  [("amp", '&'), ("lt", '<'), ("gt", '>'), ("quot", '"'), ("apos", '\'')]

/-- The character with a given number. -/
def ofCode? (n : Nat) : Option Char :=
  if n.isValidChar then some (Char.ofNat n) |>.filter isAllowed else none

/-- The character that a reference stands for, by the text between `&` and `;`. -/
def reference? : List Char → Option Char
  | '#' :: 'x' :: ds =>
    if ds.isEmpty then none
    else (ds.mapM Number.hexValue?).bind fun vs => ofCode? (vs.foldl (fun n v => 16 * n + v) 0)
  | '#' :: ds =>
    if ds.isEmpty || !ds.all Char.isDigit then none else ofCode? (Number.decimalValue ds)
  | name => entities.lookup (String.ofList name)

/-! ### Scanning -/

/-- A character that a name can start with. -/
def isNameStart (c : Char) : Bool := c.isAlpha || c = '_' || c = ':'

/-- A character inside a name. -/
def isNameChar (c : Char) : Bool := isNameStart c || c.isDigit || c = '-' || c = '.'

/-- A blank. -/
def isSpace (c : Char) : Bool := c = ' ' || c = '\t' || c = '\n' || c = '\r'

/-- A start tag as far as it is read, or an element whose content is being read. -/
structure Tag where
  name : String
  attributes : List (String × String)

/-- An attribute of a tag as far as it is read. -/
structure Attribute where
  tag : Tag
  name : List Char

/-- What the next character of a document belongs to. -/
inductive Mark where
  | content
  | reference (text : List Char)
  /-- Right after a `<`. -/
  | less
  | startName (name : List Char)
  | endName (name : List Char)
  /-- Between the name and the `>` of an end tag. -/
  | endGap (name : List Char)
  /-- Right after a start tag's name or after an attribute. -/
  | part (tag : Tag)
  /-- After a blank in a start tag. -/
  | gap (tag : Tag)
  /-- Right after the `/` of a tag without content. -/
  | slash (tag : Tag)
  | attributeName (a : Attribute)
  /-- Between the name of an attribute and its `=`. -/
  | attributeGap (a : Attribute)
  /-- Between the `=` of an attribute and its value. -/
  | equals (a : Attribute)
  | value (a : Attribute) (quote : Char) (value : List Char)
  | valueReference (a : Attribute) (quote : Char) (value text : List Char)

/-- An open element. -/
structure Frame where
  tag : Tag
  content : List Xml

/-- The state of a scan: where it stands, the open elements, the innermost first, and the root once
it is closed. -/
structure Scan where
  mark : Mark
  frames : List Frame
  root : Option Xml

namespace Scan

/-- Adds to the content of the innermost element. Outside the root there are only blanks. -/
def put (s : Scan) (node : Xml) : Option Scan :=
  match s.frames, node with
  | f :: fs, node =>
    some { s with mark := .content, frames := ⟨f.tag, f.content ++ [node]⟩ :: fs }
  | [], .char c => if isSpace c then some { s with mark := .content } else none
  | [], node => if s.root.isNone then some { s with mark := .content, root := some node } else none

/-- The end of a start tag. -/
def enter (s : Scan) (tag : Tag) : Scan :=
  { s with mark := .content, frames := ⟨tag, []⟩ :: s.frames }

/-- The end of an end tag, which has to have the name of the innermost element. -/
def leave (s : Scan) (name : List Char) : Option Scan :=
  match s.frames with
  | [] => none
  | f :: fs =>
    if f.tag.name = String.ofList name then
      Scan.put { s with frames := fs } (.element f.tag.name f.tag.attributes f.content)
    else none

/-- A character between the parts of a start tag. -/
def inTag (s : Scan) (tag : Tag) (c : Char) : Option Scan :=
  if isSpace c then some { s with mark := .gap tag }
  else if c = '/' then some { s with mark := .slash tag }
  else if c = '>' then some (s.enter tag)
  else none

/-- A character of an attribute's name, or the first one after it. -/
def afterName (s : Scan) (a : Attribute) (c : Char) : Option Scan :=
  if isSpace c then some { s with mark := .attributeGap a }
  else if c = '=' then some { s with mark := .equals a }
  else none

/-- The end of an attribute; its name has to be new. -/
def attach (s : Scan) (a : Attribute) (value : List Char) : Option Scan :=
  let name := String.ofList a.name
  if a.tag.attributes.any (·.1 = name) then none
  else some { s with mark := .part ⟨a.tag.name, a.tag.attributes ++ [(name, String.ofList value)]⟩ }

/-- The next character. -/
def step (s : Scan) (c : Char) : Option Scan :=
  match s.mark with
  | .content =>
    if c = '<' then some { s with mark := .less }
    else if c = '&' then if s.frames.isEmpty then none else some { s with mark := .reference [] }
    else if c = '>' then none
    else s.put (.char c)
  | .reference text =>
    if c = ';' then (reference? text).bind fun d => s.put (.char d)
    else some { s with mark := .reference (text ++ [c]) }
  | .less =>
    if c = '/' then some { s with mark := .endName [] }
    else if isNameStart c then some { s with mark := .startName [c] }
    else none
  | .startName name =>
    if isNameChar c then some { s with mark := .startName (name ++ [c]) }
    else s.inTag ⟨String.ofList name, []⟩ c
  | .endName name =>
    if isNameChar c then some { s with mark := .endName (name ++ [c]) }
    else if isSpace c then some { s with mark := .endGap name }
    else if c = '>' then s.leave name
    else none
  | .endGap name => if isSpace c then some s else if c = '>' then s.leave name else none
  | .part tag => s.inTag tag c
  | .gap tag =>
    if isNameStart c then some { s with mark := .attributeName ⟨tag, [c]⟩ } else s.inTag tag c
  | .slash tag => if c = '>' then s.put (.element tag.name tag.attributes []) else none
  | .attributeName a =>
    if isNameChar c then some { s with mark := .attributeName { a with name := a.name ++ [c] } }
    else s.afterName a c
  | .attributeGap a => s.afterName a c
  | .equals a =>
    if isSpace c then some s
    else if c = '"' ∨ c = '\'' then some { s with mark := .value a c [] }
    else none
  | .value a quote value =>
    if c = quote then s.attach a value
    else if c = '<' then none
    else if c = '&' then some { s with mark := .valueReference a quote value [] }
    else some { s with mark := .value a quote (value ++ [if isSpace c then ' ' else c]) }
  | .valueReference a quote value text =>
    if c = ';' then (reference? text).map fun d => { s with mark := .value a quote (value ++ [d]) }
    else some { s with mark := .valueReference a quote value (text ++ [c]) }

/-- The characters of a text in order. -/
def run (s : Scan) (text : List Char) : Option Scan := text.foldlM step s

end Scan

/-- The declaration that a document may begin with. -/
def declaration : String := "<?xml version=\"1.0\"?>"

/-- The root of a document whose line ends are newlines. -/
def scan? (text : List Char) : Option Xml :=
  let body := (text.dropPrefix? declaration.toList).getD text
  match Scan.run ⟨.content, [], none⟩ body with
  | some ⟨.content, [], root⟩ => root
  | _ => none

/-- The root of a document. -/
def read? (text : String) : Option Xml :=
  if text.toList.all isAllowed then scan? (lineEnds text.toList) else none

/-! ### Elements of a tree -/

/-- The name of an element. -/
def name? : Xml → Option String
  | element name _ _ => some name
  | char _ => none

/-- The value of an attribute of an element. -/
def attribute? (key : String) : Xml → Option String
  | element _ attributes _ => attributes.lookup key
  | char _ => none

/-- A character of a content. -/
def char? : Xml → Option Char
  | element _ _ _ => none
  | char c => some c

/-- What an element holds. -/
def content : Xml → List Xml
  | element _ _ content => content
  | char _ => []

mutual

/-- All elements of a tree, each before those inside it. -/
def elements : Xml → List Xml
  | element name attributes content => element name attributes content :: elementsIn content
  | char _ => []

/-- All elements of a content. -/
def elementsIn : List Xml → List Xml
  | [] => []
  | node :: nodes => elements node ++ elementsIn nodes

end

/-- The elements of a content with a given name. -/
def namedIn (name : String) (nodes : List Xml) : List Xml :=
  (elementsIn nodes).filter (·.name? = some name)

/-- The elements of a tree with a given name. -/
def named (name : String) (root : Xml) : List Xml := namedIn name [root]

/-- The groups of a tree with a given identifier. -/
def groups (id : String) (root : Xml) : List Xml :=
  (root.named "g").filter (·.attribute? "id" = some id)

theorem elementsIn_append (nodes nodes' : List Xml) :
    elementsIn (nodes ++ nodes') = elementsIn nodes ++ elementsIn nodes' := by
  induction nodes with
  | nil => simp [elementsIn]
  | cons node nodes ih => simp [elementsIn, ih]

section

variable {name : String}

@[simp] theorem namedIn_nil : namedIn name [] = [] := by
  simp [namedIn, elementsIn]

@[simp] theorem namedIn_char (c : Char) (nodes : List Xml) :
    namedIn name (char c :: nodes) = namedIn name nodes := by
  simp [namedIn, elementsIn, elements]

@[simp] theorem namedIn_element (name' : String) (attributes : List (String × String))
    (content nodes : List Xml) :
    namedIn name (element name' attributes content :: nodes) =
      (if name' = name then [element name' attributes content] else []) ++
        (namedIn name content ++ namedIn name nodes) := by
  by_cases h : name' = name <;> simp [namedIn, elementsIn, elements, name?, h]

@[simp] theorem namedIn_append (nodes nodes' : List Xml) :
    namedIn name (nodes ++ nodes') = namedIn name nodes ++ namedIn name nodes' := by
  simp [namedIn, elementsIn_append]

@[simp] theorem namedIn_flatMap {α : Type} (items : List α) (nodes : α → List Xml) :
    namedIn name (items.flatMap nodes) = items.flatMap fun a => namedIn name (nodes a) := by
  induction items with
  | nil => simp
  | cons a items ih => simp [ih]

@[simp] theorem namedIn_chars (cs : List Char) : namedIn name (cs.map char) = [] := by
  induction cs with
  | nil => simp
  | cons c cs ih => simp [ih]

end

end Xml

end FloorPlan
