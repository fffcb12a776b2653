import FloorPlan.Text.Markup
import FloorPlan.Proofs.Text.Inert
import FloorPlan.Proofs.Xml.Reading

/-! # Pieces of documents

What a text does to a scan follows from what its pieces do: `ReadsContent` is said of pieces of
content, `ReadsValue` of pieces of an attribute value, and `ReadsAttributes` of pieces of a tag.
Nearly all pieces are kept as they stand (`IsKept`).  A carriage return in a label is a line end of
the document, and what becomes of it may depend on the character after it; `Settles` says where it
does not.  The pieces of a whole document are put together in `read?_document`. -/

namespace FloorPlan.Xml

/-! ### Runs of a scan -/

namespace Scan

variable {s : Scan} {fs : List Frame} {root : Option Xml}

theorem run_append (s : Scan) (text text' : List Char) :
    s.run (text ++ text') = (s.run text).bind (·.run text') := List.foldlM_append

theorem run_cons (s : Scan) (c : Char) (text : List Char) :
    s.run (c :: text) = (s.step c).bind (·.run text) := List.foldlM_cons

/-- A run that collects characters. -/
theorem run_collect (mark : List Char → Mark) {text : List Char}
    (h : ∀ acc, ∀ c ∈ text, step ⟨mark acc, fs, root⟩ c = some ⟨mark (acc ++ [c]), fs, root⟩)
    (acc : List Char) : run ⟨mark acc, fs, root⟩ text = some ⟨mark (acc ++ text), fs, root⟩ := by
  induction text generalizing acc with
  | nil => simp [run]
  | cons c text ih =>
      rw [run_cons, h acc c List.mem_cons_self, Option.bind_some,
        ih fun acc d hd => h acc d (List.mem_cons_of_mem c hd)]
      simp

end Scan

/-! ### Line ends of pieces -/

theorem lineEnds_cons {c : Char} (h : c ≠ '\r') (cs : List Char) :
    lineEnds (c :: cs) = c :: lineEnds cs := by
  rw [lineEnds]
  · rintro _ rfl
    exact absurd rfl h
  · rintro rfl
    exact absurd rfl h

theorem lineEnds_return {cs : List Char} (h : cs.head? ≠ some '\n') :
    lineEnds ('\r' :: cs) = '\n' :: lineEnds cs := by
  rw [lineEnds]
  rintro cs' rfl
  exact h rfl

theorem head?_ne_newline {cs : List Char} (h : ∀ cs', cs = '\n' :: cs' → False) :
    cs.head? ≠ some '\n' := by
  intro hc
  obtain ⟨cs', rfl⟩ := List.head?_eq_some_iff.mp hc
  exact h cs' rfl

/-- Line ends are separate unless the second text starts with a newline. -/
theorem lineEnds_append (cs : List Char) {ds : List Char} (h : ds.head? ≠ some '\n') :
    lineEnds (cs ++ ds) = lineEnds cs ++ lineEnds ds := by
  induction cs using lineEnds.induct with
  | case1 cs ih => simp only [List.cons_append, lineEnds, ih]
  | case2 cs hcs ih =>
      have hhead : (cs ++ ds).head? ≠ some '\n' := by
        cases cs with
        | nil => exact h
        | cons c cs =>
            rintro ⟨⟩
            exact hcs cs rfl
      rw [List.cons_append, lineEnds_return hhead, ih, lineEnds_return (head?_ne_newline hcs),
        List.cons_append]
  | case3 c cs hfirst hreturn ih =>
      have hc : c ≠ '\r' := fun hc => hreturn hc
      rw [List.cons_append, lineEnds_cons hc, ih, lineEnds_cons hc, List.cons_append]
  | case4 => rfl

/-- `text'` is what becomes of a text when line ends become newlines, whatever comes after it. -/
def Settles (text text' : List Char) : Prop :=
  ∀ rest, lineEnds (text ++ rest) = text' ++ lineEnds rest

/-- A character that a document keeps as it stands. -/
def isKept (c : Char) : Bool := isAllowed c && c ≠ '\r'

/-- A text that a document keeps as it stands. -/
def IsKept (text : List Char) : Prop := ∀ c ∈ text, isKept c = true

/-- A text that a document may have in it. -/
def IsText (text : String) : Prop := ∀ c ∈ text.toList, isAllowed c = true

namespace IsText

variable {text text' : String}

theorem append (h : IsText text) (h' : IsText text') : IsText (text ++ text') := by
  unfold IsText
  rw [String.toList_append]
  exact List.forall_mem_append.mpr ⟨h, h'⟩

theorem markup (h : IsText text) : IsText (Text.markup text) := by
  intro c hc
  rw [Text.markup, String.toList_ofList, List.mem_flatMap] at hc
  obtain ⟨d, hd, hc⟩ := hc
  unfold Text.markupChar at hc
  split_ifs at hc
  · exact List.all_eq_true.mp (by decide) c hc
  · exact List.all_eq_true.mp (by decide) c hc
  · exact List.all_eq_true.mp (by decide) c hc
  · exact List.mem_singleton.mp hc ▸ h d hd

end IsText

theorem isKept_of {p : Char → Bool} {c : Char} (hc : p c = true)
    (hp : ['\ufffe', '\uffff', '\r'].any p = false) : isKept c = true := by
  rw [List.any_eq_false] at hp
  have hne : ∀ d ∈ ['\ufffe', '\uffff', '\r'], c ≠ d := by
    rintro d hd rfl
    exact hp c hd hc
  simp [isKept, isAllowed, hne]

namespace IsKept

variable {text text' : List Char}

theorem append (h : IsKept text) (h' : IsKept text') : IsKept (text ++ text') :=
  List.forall_mem_append.mpr ⟨h, h'⟩

theorem isText {text : String} (h : IsKept text.toList) : IsText text :=
  fun c hc => (Bool.and_eq_true_iff.mp (h c hc)).1

theorem settles (h : IsKept text) : Settles text text := by
  intro rest
  induction text with
  | nil => rfl
  | cons c text ih =>
      obtain ⟨hc, htext⟩ := List.forall_mem_cons.mp h
      have hreturn : c ≠ '\r' := of_decide_eq_true (Bool.and_eq_true_iff.mp hc).2
      rw [List.cons_append, lineEnds_cons hreturn, ih htext, List.cons_append]

end IsKept

namespace Settles

variable {text text' upper upper' : List Char}

theorem append (h : Settles text text') (h' : Settles upper upper') :
    Settles (text ++ upper) (text' ++ upper') := by
  intro rest
  rw [List.append_assoc, h, h', List.append_assoc]

/-- A text is done with its line ends where it is followed by a character that is not one. -/
theorem before {c : Char} (hc : isKept c = true) (hline : c ≠ '\n') (text : List Char) :
    Settles (text ++ [c]) (lineEnds text ++ [c]) := by
  intro rest
  have hkept : IsKept [c] := List.forall_mem_singleton.mpr hc
  have hhead : ([c] ++ rest).head? ≠ some '\n' := by simpa using hline
  rw [List.append_assoc, lineEnds_append text hhead, hkept.settles rest, List.append_assoc]

end Settles

/-- An escape starts with the character itself or with an ampersand. -/
theorem head?_markupChar (c : Char) :
    (Text.markupChar c).head? = some c ∨ (Text.markupChar c).head? = some '&' := by
  unfold Text.markupChar
  split_ifs <;> simp

/-- An escape has no line end of its own. -/
theorem lineEnds_markupChar {c : Char} (hc : c ≠ '\r') (rest : List Char) :
    lineEnds (Text.markupChar c ++ rest) = Text.markupChar c ++ lineEnds rest := by
  unfold Text.markupChar
  split_ifs <;> simp [lineEnds_cons, hc]

/-- Escapes leave the line ends alone. -/
theorem lineEnds_markup (cs : List Char) :
    lineEnds (cs.flatMap Text.markupChar) = (lineEnds cs).flatMap Text.markupChar := by
  have hreturn : Text.markupChar '\r' = ['\r'] := rfl
  have hnewline : Text.markupChar '\n' = ['\n'] := rfl
  induction cs using lineEnds.induct with
  | case1 cs ih =>
      simp only [List.flatMap_cons, hreturn, hnewline, List.singleton_append, lineEnds, ih]
  | case2 cs hcs ih =>
      have hhead : (cs.flatMap Text.markupChar).head? ≠ some '\n' := by
        cases cs with
        | nil => simp
        | cons c cs =>
            rw [List.flatMap_cons, List.head?_append]
            rcases head?_markupChar c with h | h
            · rw [h, Option.some_or]
              rintro ⟨⟩
              exact hcs cs rfl
            · simp [h]
      rw [List.flatMap_cons, hreturn, List.singleton_append, lineEnds_return hhead, ih,
        lineEnds_return (head?_ne_newline hcs), List.flatMap_cons, hnewline, List.singleton_append]
  | case3 c cs hfirst hreturn ih =>
      have hc : c ≠ '\r' := fun hc => hreturn hc
      rw [List.flatMap_cons, lineEnds_markupChar hc, ih, lineEnds_cons hc, List.flatMap_cons]
  | case4 => rfl

/-! ### Content -/

/-- Inside an element, the characters add `nodes` to its content. -/
def Adds (cs : List Char) (nodes : List Xml) : Prop :=
  ∀ f fs root, Scan.run ⟨.content, f :: fs, root⟩ cs =
    some ⟨.content, ⟨f.tag, f.content ++ nodes⟩ :: fs, root⟩

namespace Adds

theorem nil : Adds [] [] := by
  intro f fs root
  simp [Scan.run]

theorem append {cs cs' : List Char} {nodes nodes' : List Xml} (h : Adds cs nodes)
    (h' : Adds cs' nodes') : Adds (cs ++ cs') (nodes ++ nodes') := by
  intro f fs root
  rw [Scan.run_append, h, Option.bind_some, h', List.append_assoc]

/-- A character that is written as itself. -/
theorem plain {c : Char} (h : c ∉ ['&', '<', '>']) : Adds [c] [.char c] := by
  intro f fs root
  simp only [List.mem_cons, List.not_mem_nil, or_false, not_or] at h
  simp [Scan.run, Scan.step, Scan.put, h]

/-- A character that is written as a reference. -/
theorem reference (name : List Char) {c : Char} (h : reference? name = some c)
    (hname : ';' ∉ name) : Adds ('&' :: name ++ [';']) [.char c] := by
  intro f fs root
  have hcollect : Scan.run ⟨.reference [], f :: fs, root⟩ name =
      some ⟨.reference ([] ++ name), f :: fs, root⟩ :=
    Scan.run_collect .reference
      (fun acc d hd => by simp [Scan.step, ne_of_mem_of_not_mem hd hname]) []
  rw [List.cons_append, Scan.run_cons]
  show Scan.run ⟨.reference [], f :: fs, root⟩ (name ++ [';']) = _
  rw [Scan.run_append, hcollect]
  simp [Scan.run, Scan.step, Scan.put, h]

/-- A text with its markup characters escaped. -/
theorem markup (cs : List Char) : Adds (cs.flatMap Text.markupChar) (cs.map .char) := by
  induction cs with
  | nil => exact nil
  | cons c cs ih =>
      rw [List.flatMap_cons]
      suffices h : Adds (Text.markupChar c) [.char c] from h.append ih
      unfold Text.markupChar
      split
      · next hc => exact hc ▸ reference "amp".toList (by decide) (by decide)
      split
      · next hc => exact hc ▸ reference "lt".toList (by decide) (by decide)
      split
      · next hc => exact hc ▸ reference "gt".toList (by decide) (by decide)
      · next hamp hlt hgt => exact plain (by simp [hamp, hlt, hgt])

end Adds

/-- Inside an element, a document adds `nodes` to its content by the text, whatever comes after
it. -/
structure ReadsContent (text : String) (nodes : List Xml) : Prop where
  isText : IsText text
  adds : ∃ cs, Settles text.toList cs ∧ Adds cs nodes

namespace ReadsContent

theorem ofKept {text : String} {nodes : List Xml} (h : IsKept text.toList)
    (h' : Adds text.toList nodes) : ReadsContent text nodes :=
  ⟨h.isText, text.toList, h.settles, h'⟩

theorem nil : ReadsContent "" [] := .ofKept (List.forall_mem_nil _) .nil

theorem append {text text' : String} {nodes nodes' : List Xml} (h : ReadsContent text nodes)
    (h' : ReadsContent text' nodes') : ReadsContent (text ++ text') (nodes ++ nodes') := by
  obtain ⟨cs, hcs, hnodes⟩ := h.adds
  obtain ⟨cs', hcs', hnodes'⟩ := h'.adds
  refine ⟨h.isText.append h'.isText, cs ++ cs', ?_, hnodes.append hnodes'⟩
  rw [String.toList_append]
  exact hcs.append hcs'

end ReadsContent

/-! ### Attribute values -/

/-- Inside an attribute value in the marks `quote`, the text adds `value` to it. -/
structure ReadsValue (quote : Char) (text value : List Char) : Prop where
  kept : IsKept text
  run : ∀ a acc fs root, Scan.run ⟨.value a quote acc, fs, root⟩ text =
    some ⟨.value a quote (acc ++ value), fs, root⟩

namespace ReadsValue

variable {quote : Char}

theorem append {text text' value value' : List Char} (h : ReadsValue quote text value)
    (h' : ReadsValue quote text' value') : ReadsValue quote (text ++ text') (value ++ value') := by
  refine ⟨h.kept.append h'.kept, fun a acc fs root => ?_⟩
  rw [Scan.run_append, h.run, Option.bind_some, h'.run, List.append_assoc]

theorem plain {c : Char} (hc : isAllowed c = true) (hquote : c ≠ quote) (hmarkup : c ∉ ['&', '<'])
    (hspace : isSpace c = true → c = ' ') : ReadsValue quote [c] [c] := by
  have hreturn : c ≠ '\r' := by
    rintro rfl
    exact absurd (hspace rfl) (by decide)
  refine ⟨List.forall_mem_singleton.mpr (by simp [isKept, hc, hreturn]), fun a acc fs root => ?_⟩
  have hkept : (if isSpace c then ' ' else c) = c := by
    split
    · next h => exact (hspace h).symm
    · rfl
  simp only [List.mem_cons, List.not_mem_nil, or_false, not_or] at hmarkup
  simp [Scan.run, Scan.step, hquote, hmarkup, hkept]

theorem reference (hquote : quote ≠ '&') (name : List Char) {c : Char}
    (h : reference? name = some c) (hname : ';' ∉ name)
    (hkept : (name ++ ['&', ';']).all isKept = true) :
    ReadsValue quote ('&' :: name ++ [';']) [c] := by
  have hall := List.all_eq_true.mp hkept
  refine ⟨fun d hd => hall d ?_, fun a acc fs root => ?_⟩
  · simp only [List.cons_append, List.mem_cons, List.mem_append] at hd ⊢
    tauto
  have hcollect : Scan.run ⟨.valueReference a quote acc [], fs, root⟩ name =
      some ⟨.valueReference a quote acc ([] ++ name), fs, root⟩ :=
    Scan.run_collect (.valueReference a quote acc)
      (fun _ d hd => by simp [Scan.step, ne_of_mem_of_not_mem hd hname]) []
  have hopen : Scan.step ⟨.value a quote acc, fs, root⟩ '&' =
      some ⟨.valueReference a quote acc [], fs, root⟩ := by
    simp [Scan.step, hquote.symm]
  rw [List.cons_append, Scan.run_cons, hopen, Option.bind_some, Scan.run_append, hcollect]
  simp [Scan.run, Scan.step, h]

theorem flatMap {write : Char → List Char} {cs : List Char}
    (h : ∀ c ∈ cs, ReadsValue quote (write c) [c]) : ReadsValue quote (cs.flatMap write) cs := by
  induction cs with
  | nil => exact ⟨List.forall_mem_nil _, fun a acc fs root => by simp [Scan.run]⟩
  | cons c cs ih =>
      obtain ⟨hc, hcs⟩ := List.forall_mem_cons.mp h
      rw [List.flatMap_cons]
      exact hc.append (ih hcs)

/-- A character of an attribute value that does not end it. -/
theorem attributeChar {c : Char} (hc : isAllowed c = true) (hmark : quote ≠ '&')
    (hquote : c ≠ quote) : ReadsValue quote (Text.attributeChar c) [c] := by
  unfold Text.attributeChar
  split
  · next h => exact h ▸ reference hmark "#10".toList (by decide) (by decide) (by decide)
  split
  · next h => exact h ▸ reference hmark "#13".toList (by decide) (by decide) (by decide)
  split
  · next h => exact h ▸ reference hmark "#9".toList (by decide) (by decide) (by decide)
  next hnewline hreturn htab =>
  unfold Text.markupChar
  split
  · next h => exact h ▸ reference hmark "amp".toList (by decide) (by decide) (by decide)
  split
  · next h => exact h ▸ reference hmark "lt".toList (by decide) (by decide) (by decide)
  split
  · next h => exact h ▸ reference hmark "gt".toList (by decide) (by decide) (by decide)
  · next hamp hlt _ =>
      refine plain hc hquote (by simp [hamp, hlt]) ?_
      simp [isSpace, hnewline, hreturn, htab]

end ReadsValue

/-- Quotation marks stand for themselves, and no reference has one. -/
theorem mem_attributeChar {q c : Char} (hq : q = '"' ∨ q = '\'') :
    q ∈ Text.attributeChar c ↔ q = c := by
  by_cases hc : c ∈ ['\n', '\r', '\t', '&', '<', '>']
  · simp only [List.mem_cons, List.not_mem_nil, or_false] at hc
    rcases hc with rfl | rfl | rfl | rfl | rfl | rfl <;> rcases hq with rfl | rfl <;> decide
  · have hplain : Text.attributeChar c = [c] := by
      simp only [List.mem_cons, List.not_mem_nil, or_false, not_or] at hc
      simp [Text.attributeChar, Text.markupChar, hc]
    rw [hplain, List.mem_singleton]

/-- The text of an attribute value is read as the value, in the quotation marks that it takes. -/
theorem attributeText_cases {value : String} (h : IsText value) :
    ∃ quote body, (quote = '"' ∨ quote = '\'') ∧
      Text.attributeText value = String.ofList (quote :: body ++ [quote]) ∧
      ReadsValue quote body value.toList := by
  -- without the mark among its characters, the text does not end early
  have hbare : ∀ {q : Char}, (q = '"' ∨ q = '\'') →
      (!(value.toList.flatMap Text.attributeChar).contains q) = true →
      ReadsValue q (value.toList.flatMap Text.attributeChar) value.toList := by
    intro q hq hnone
    refine .flatMap fun c hc =>
      .attributeChar (h c hc) (by rcases hq with rfl | rfl <;> decide) ?_
    rintro rfl
    have hmem := List.mem_flatMap.mpr ⟨c, hc, (mem_attributeChar hq).mpr rfl⟩
    simp [hmem] at hnone
  unfold Text.attributeText
  simp only
  split
  · next hnone => exact ⟨'"', _, .inl rfl, rfl, hbare (.inl rfl) hnone⟩
  split
  · next hnone => exact ⟨'\'', _, .inr rfl, rfl, hbare (.inr rfl) hnone⟩
  · refine ⟨'"', _, .inl rfl, rfl, ?_⟩
    rw [List.flatMap_assoc]
    refine .flatMap fun c hmem => ?_
    by_cases hc : c = '"'
    · subst hc
      exact .reference (by decide) "quot".toList (by decide) (by decide) (by decide)
    · have hkept : (Text.attributeChar c).flatMap
          (fun d => if d = '"' then "&quot;".toList else [d]) = Text.attributeChar c := by
        refine (List.flatMap_congr fun d hd => if_neg ?_).trans (List.flatMap_singleton' _)
        rintro rfl
        exact hc ((mem_attributeChar (.inl rfl)).mp hd).symm
      rw [hkept]
      exact .attributeChar (h c hmem) (by decide) hc

/-- A character that a value in double quotes may have as it stands. -/
def isValueChar (c : Char) : Bool :=
  isAllowed c && c ∉ ['"', '&', '<'] && (!isSpace c || c = ' ')

/-- A text of such characters. -/
def IsValue (text : String) : Prop := ∀ c ∈ text.toList, isValueChar c = true

namespace IsValue

theorem ofChars {cs : List Char} (h : cs.all isValueChar = true) : IsValue (String.ofList cs) := by
  unfold IsValue
  rw [String.toList_ofList]
  exact List.all_eq_true.mp h

theorem append {text text' : String} (h : IsValue text) (h' : IsValue text') :
    IsValue (text ++ text') := by
  intro c hc
  rw [String.toList_append, List.mem_append] at hc
  exact hc.elim (h c) (h' c)

theorem inert {text : String} (h : IsInert text) : IsValue text := by
  intro c hc
  have hne : ∀ d, isInert d = false → c ≠ d := fun d => ne_of_isInert (h c hc)
  simp [isValueChar, isAllowed, isSpace, hne '\ufffe' rfl, hne '\uffff' rfl, hne '"' rfl,
    hne '&' rfl, hne '<' rfl, hne ' ' rfl, hne '\t' rfl, hne '\n' rfl, hne '\r' rfl]

end IsValue

/-! ### Tags -/

/-- Whether a text is the name of an element or of an attribute. -/
def isName : List Char → Bool
  | [] => false
  | c :: cs => isNameStart c && cs.all isNameChar

theorem isName_cons {name : List Char} (h : isName name = true) :
    ∃ c cs, name = c :: cs ∧ isNameStart c = true ∧ ∀ d ∈ cs, isNameChar d = true := by
  cases name with
  | nil => cases h
  | cons c cs =>
      rw [isName, Bool.and_eq_true, List.all_eq_true] at h
      exact ⟨c, cs, rfl, h⟩

/-- A name is kept as it stands. -/
theorem IsKept.name {name : List Char} (h : isName name = true) : IsKept name := by
  obtain ⟨c, cs, rfl, hc, hcs⟩ := isName_cons h
  exact List.forall_mem_cons.mpr
    ⟨isKept_of hc (by decide), fun d hd => isKept_of (hcs d hd) (by decide)⟩

/-- Inside a start tag, the text adds `attributes` to it, if their names are new. -/
structure ReadsAttributes (text : String) (attributes : List (String × String)) : Prop where
  kept : IsKept text.toList
  run : ∀ tag fs root, ((tag.attributes ++ attributes).map Prod.fst).Nodup →
    Scan.run ⟨.part tag, fs, root⟩ text.toList =
      some ⟨.part ⟨tag.name, tag.attributes ++ attributes⟩, fs, root⟩
  /-- The text does not go on with the name before it. -/
  apart : ∀ c ∈ text.toList.head?, isNameChar c = false

namespace ReadsAttributes

theorem nil : ReadsAttributes "" [] := by
  refine ⟨List.forall_mem_nil _, ?_, by simp⟩
  intro tag fs root _
  simp [Scan.run]

theorem append {text text' : String} {attributes attributes' : List (String × String)}
    (h : ReadsAttributes text attributes) (h' : ReadsAttributes text' attributes') :
    ReadsAttributes (text ++ text') (attributes ++ attributes') := by
  refine ⟨?_, ?_, ?_⟩
  · rw [String.toList_append]
    exact h.kept.append h'.kept
  · intro tag fs root hnodup
    rw [← List.append_assoc] at hnodup ⊢
    have hfirst : ((tag.attributes ++ attributes).map Prod.fst).Nodup :=
      hnodup.sublist ((List.sublist_append_left _ _).map _)
    rw [String.toList_append, Scan.run_append, h.run tag fs root hfirst, Option.bind_some]
    exact h'.run ⟨tag.name, tag.attributes ++ attributes⟩ fs root hnodup
  · intro c hc
    rw [String.toList_append, List.head?_append, Option.mem_def, Option.or_eq_some_iff] at hc
    rcases hc with hc | ⟨-, hc⟩
    · exact h.apart c hc
    · exact h'.apart c hc

/-- One attribute, with its value in quotation marks. -/
theorem single (name : String) {value : String} {quote : Char} {body : List Char}
    (hname : isName name.toList = true) (hquote : quote = '"' ∨ quote = '\'')
    (hbody : ReadsValue quote body value.toList) :
    ReadsAttributes (" " ++ name ++ "=" ++ String.ofList (quote :: body ++ [quote]))
      [(name, value)] := by
  obtain ⟨c, cs, hcons, hc, hcs⟩ := isName_cons hname
  have htext : (" " ++ name ++ "=" ++ String.ofList (quote :: body ++ [quote])).toList =
      ' ' :: c :: (cs ++ '=' :: quote :: (body ++ [quote])) := by
    simp [hcons]
  have hmark : IsKept [quote] := by
    rcases hquote with rfl | rfl <;> exact List.forall_mem_singleton.mpr (by decide)
  refine ⟨?_, ?_, ?_⟩
  · have hblank : IsKept [' '] := List.forall_mem_singleton.mpr (by decide)
    have hequals : IsKept ['='] := List.forall_mem_singleton.mpr (by decide)
    have hkept := (hblank.append (IsKept.name hname)).append
      (hequals.append ((hmark.append hbody.kept).append hmark))
    simpa using hkept
  · intro tag fs root hnodup
    have hnew : tag.attributes.any (·.1 = name) = false := by
      rw [List.map_append, List.nodup_append] at hnodup
      simp only [List.any_eq_false, decide_eq_true_eq]
      exact fun a ha => hnodup.2.2 a.1 (List.mem_map_of_mem ha) name (by simp)
    have hblank : Scan.step ⟨.part tag, fs, root⟩ ' ' = some ⟨.gap tag, fs, root⟩ := rfl
    have hfirst : Scan.step ⟨.gap tag, fs, root⟩ c =
        some ⟨.attributeName ⟨tag, [c]⟩, fs, root⟩ := by
      simp [Scan.step, hc]
    have hrest : Scan.run ⟨.attributeName ⟨tag, [c]⟩, fs, root⟩ cs =
        some ⟨.attributeName ⟨tag, name.toList⟩, fs, root⟩ := by
      rw [hcons]
      exact Scan.run_collect (fun name => .attributeName ⟨tag, name⟩)
        (fun acc d hd => by simp [Scan.step, hcs d hd]) [c]
    have hequals : Scan.step ⟨.attributeName ⟨tag, name.toList⟩, fs, root⟩ '=' =
        some ⟨.equals ⟨tag, name.toList⟩, fs, root⟩ := rfl
    have hopen : Scan.step ⟨.equals ⟨tag, name.toList⟩, fs, root⟩ quote =
        some ⟨.value ⟨tag, name.toList⟩ quote [], fs, root⟩ := by
      rcases hquote with rfl | rfl <;> rfl
    have hclose : Scan.step ⟨.value ⟨tag, name.toList⟩ quote value.toList, fs, root⟩ quote =
        some ⟨.part ⟨tag.name, tag.attributes ++ [(name, value)]⟩, fs, root⟩ := by
      simp [Scan.step, Scan.attach, hnew]
    rw [htext, Scan.run_cons, hblank, Option.bind_some, Scan.run_cons, hfirst, Option.bind_some,
      Scan.run_append, hrest, Option.bind_some, Scan.run_cons, hequals, Option.bind_some,
      Scan.run_cons, hopen, Option.bind_some, Scan.run_append, hbody.run, Option.bind_some,
      List.nil_append, Scan.run_cons, hclose]
    rfl
  · intro d hd
    rw [htext] at hd
    cases hd
    rfl

/-- An attribute whose value is written as it stands. -/
theorem verbatim {name value : String} (hname : isName name.toList = true)
    (hvalue : IsValue value) :
    ReadsAttributes (" " ++ name ++ "=\"" ++ value ++ "\"") [(name, value)] := by
  have hbody : ReadsValue '"' (value.toList.flatMap fun c => [c]) value.toList := by
    refine .flatMap fun c hc => ?_
    have h := hvalue c hc
    simp only [isValueChar, Bool.and_eq_true, Bool.or_eq_true, Bool.not_eq_true',
      decide_eq_true_eq] at h
    obtain ⟨hquote, hmarkup⟩ := not_or.mp (mt List.mem_cons.mpr h.1.2)
    exact .plain h.1.1 hquote hmarkup fun hspace => h.2.resolve_left (by simp [hspace])
  rw [List.flatMap_singleton'] at hbody
  have h := single name hname (.inl rfl) hbody
  have htext : " " ++ name ++ "=" ++ String.ofList ('"' :: value.toList ++ ['"']) =
      " " ++ name ++ "=\"" ++ value ++ "\"" := by
    rw [← String.toList_inj]
    simp
  rwa [htext] at h

end ReadsAttributes

/-- After a `<`, the name and the text are read as a start tag with the given attributes. -/
structure ReadsTag (name text : String) (attributes : List (String × String)) : Prop where
  named : isName name.toList = true
  reads : ReadsAttributes text attributes
  nodup : (attributes.map Prod.fst).Nodup

section

variable {name text inner : String} {attributes : List (String × String)} {nodes : List Xml}
variable {fs : List Frame} {root : Option Xml}

/-- A start tag up to the mark that ends it. -/
theorem run_tag (h : ReadsTag name text attributes) {c : Char} (hc : isNameChar c = false)
    (rest : List Char) :
    Scan.run ⟨.content, fs, root⟩ (("<" ++ name ++ text).toList ++ c :: rest) =
      Scan.run ⟨.part ⟨name, attributes⟩, fs, root⟩ (c :: rest) := by
  obtain ⟨d, ds, hcons, hd, hds⟩ := isName_cons h.named
  have hless : Scan.step ⟨.content, fs, root⟩ '<' = some ⟨.less, fs, root⟩ := rfl
  have hfirst : Scan.step ⟨.less, fs, root⟩ d = some ⟨.startName [d], fs, root⟩ := by
    have hslash : d ≠ '/' := by
      rintro rfl
      cases hd
    simp [Scan.step, hd, hslash]
  have hrest : Scan.run ⟨.startName [d], fs, root⟩ ds =
      some ⟨.startName name.toList, fs, root⟩ := by
    rw [hcons]
    exact Scan.run_collect .startName (fun acc e he => by simp [Scan.step, hds e he]) [d]
  -- after the name the tag goes on with its attributes or ends
  have hafter : ∃ e es, text.toList ++ c :: rest = e :: es ∧ isNameChar e = false := by
    cases hhead : text.toList with
    | nil => exact ⟨c, rest, rfl, hc⟩
    | cons e es => exact ⟨e, es ++ c :: rest, rfl, h.reads.apart e (by simp [hhead])⟩
  have hpart : Scan.run ⟨.startName name.toList, fs, root⟩ (text.toList ++ c :: rest) =
      Scan.run ⟨.part ⟨name, []⟩, fs, root⟩ (text.toList ++ c :: rest) := by
    obtain ⟨e, es, hcons', he⟩ := hafter
    rw [hcons', Scan.run_cons, Scan.run_cons]
    simp only [Scan.step, he, String.ofList_toList]
    rfl
  have htext : ("<" ++ name ++ text).toList ++ c :: rest =
      '<' :: d :: (ds ++ (text.toList ++ c :: rest)) := by
    simp [hcons]
  rw [htext, Scan.run_cons, hless, Option.bind_some, Scan.run_cons, hfirst, Option.bind_some,
    Scan.run_append, hrest, Option.bind_some, hpart, Scan.run_append,
    h.reads.run ⟨name, []⟩ fs root h.nodup, Option.bind_some]
  rfl

theorem run_start (h : ReadsTag name text attributes) :
    Scan.run ⟨.content, fs, root⟩ ("<" ++ name ++ text ++ ">").toList =
      some ⟨.content, ⟨⟨name, attributes⟩, []⟩ :: fs, root⟩ := by
  rw [String.toList_append]
  exact run_tag h rfl []

theorem run_end (hname : isName name.toList = true) :
    Scan.run ⟨.content, ⟨⟨name, attributes⟩, nodes⟩ :: fs, root⟩ ("</" ++ name ++ ">").toList =
      Scan.put ⟨.endName name.toList, fs, root⟩ (.element name attributes nodes) := by
  obtain ⟨d, ds, hcons, hd, hds⟩ := isName_cons hname
  have hall : ∀ e ∈ name.toList, isNameChar e = true := by
    rw [hcons]
    exact List.forall_mem_cons.mpr ⟨by simp [isNameChar, hd], hds⟩
  have hcollect : Scan.run ⟨.endName [], ⟨⟨name, attributes⟩, nodes⟩ :: fs, root⟩ name.toList =
      some ⟨.endName ([] ++ name.toList), ⟨⟨name, attributes⟩, nodes⟩ :: fs, root⟩ :=
    Scan.run_collect .endName (fun acc e he => by simp [Scan.step, hall e he]) []
  have htext : ("</" ++ name ++ ">").toList = '<' :: '/' :: (name.toList ++ ['>']) := by simp
  rw [htext]
  show Scan.run ⟨.endName [], ⟨⟨name, attributes⟩, nodes⟩ :: fs, root⟩ (name.toList ++ ['>']) = _
  rw [Scan.run_append, hcollect, Option.bind_some, Scan.run_cons]
  show (Scan.leave ⟨.endName name.toList, ⟨⟨name, attributes⟩, nodes⟩ :: fs, root⟩ name.toList).bind
    (·.run []) = _
  simp [Scan.leave, Scan.run]

/-- A whole element, wherever it stands. -/
theorem run_element (h : ReadsTag name text attributes) {cs : List Char} (hcs : Adds cs nodes) :
    Scan.run ⟨.content, fs, root⟩
        (("<" ++ name ++ text ++ ">").toList ++ (cs ++ ("</" ++ name ++ ">").toList)) =
      Scan.put ⟨.endName name.toList, fs, root⟩ (.element name attributes nodes) := by
  rw [Scan.run_append, run_start h, Option.bind_some, Scan.run_append, hcs, Option.bind_some,
    List.nil_append, run_end h.named]

theorem ReadsTag.kept (h : ReadsTag name text attributes) :
    IsKept ("<" ++ name ++ text).toList := by
  have hless : IsKept ['<'] := List.forall_mem_singleton.mpr (by decide)
  have hkept := (hless.append (.name h.named)).append h.reads.kept
  simpa using hkept

theorem ReadsTag.kept_start (h : ReadsTag name text attributes) :
    IsKept ("<" ++ name ++ text ++ ">").toList := by
  rw [String.toList_append]
  exact h.kept.append (List.forall_mem_singleton.mpr (by decide))

theorem IsKept.closing (hname : isName name.toList = true) :
    IsKept ("</" ++ name ++ ">").toList := by
  have hmark : IsKept ['>'] := List.forall_mem_singleton.mpr (by decide)
  have hkept := (IsKept.name hname).append hmark
  rw [String.append_assoc, String.toList_append, String.toList_append]
  exact IsKept.append (List.all_eq_true.mp (by decide)) hkept

/-- An element whose inner text has its line ends done where the end tag starts. -/
theorem ReadsContent.element (h : ReadsTag name text attributes) {cs : List Char}
    (hinner : IsText inner)
    (hcs : Settles (inner.toList ++ ("</" ++ name ++ ">").toList)
      (cs ++ ("</" ++ name ++ ">").toList)) (hadds : Adds cs nodes) :
    ReadsContent ("<" ++ name ++ text ++ ">" ++ inner ++ ("</" ++ name ++ ">"))
      [.element name attributes nodes] := by
  refine ⟨?_, _, ?_, fun _ _ _ => run_element h hadds⟩
  · exact (h.kept_start.isText.append hinner).append (IsKept.closing h.named).isText
  · rw [String.toList_append, String.toList_append, List.append_assoc]
    exact h.kept_start.settles.append hcs

theorem ReadsContent.nested (h : ReadsTag name text attributes)
    (hinner : ReadsContent inner nodes) :
    ReadsContent ("<" ++ name ++ text ++ ">" ++ inner ++ ("</" ++ name ++ ">"))
      [.element name attributes nodes] := by
  obtain ⟨cs, hcs, hadds⟩ := hinner.adds
  exact .element h hinner.isText (hcs.append (IsKept.closing h.named).settles) hadds

/-- An element around an escaped text. -/
theorem ReadsContent.escaped (h : ReadsTag name text attributes) {label : String}
    (hlabel : IsText label) :
    ReadsContent ("<" ++ name ++ text ++ ">" ++ Text.markup label ++ ("</" ++ name ++ ">"))
      [.element name attributes ((lineEnds label.toList).map .char)] := by
  have hclosing : ("</" ++ name ++ ">").toList = '<' :: ("/" ++ name ++ ">").toList := by simp
  have hkept := IsKept.closing h.named
  rw [hclosing] at hkept
  obtain ⟨hless, hrest⟩ := List.forall_mem_cons.mp hkept
  refine .element h hlabel.markup ?_ (.markup (lineEnds label.toList))
  have hbefore := (Settles.before hless (by decide) (Text.markup label).toList).append
    (IsKept.settles hrest)
  rw [Text.markup, String.toList_ofList, lineEnds_markup] at hbefore
  simpa [Text.markup] using hbefore

/-- An element without content. -/
theorem ReadsContent.lone (h : ReadsTag name text attributes) :
    ReadsContent ("<" ++ name ++ text ++ "/>") [.element name attributes []] := by
  have hslash : IsKept "/>".toList := List.all_eq_true.mp (by decide)
  refine .ofKept ?_ fun f fs root => ?_
  · rw [String.toList_append]
    exact h.kept.append hslash
  · rw [String.toList_append]
    exact run_tag h rfl ['>']

/-- A document with its declaration. -/
theorem read?_document (h : ReadsTag name text attributes) (hinner : ReadsContent inner nodes) :
    read? (declaration ++
        ("\n" ++ ("<" ++ name ++ text ++ ">" ++ inner ++ ("</" ++ name ++ ">")))) =
      some (.element name attributes nodes) := by
  obtain ⟨cs, hcs, hadds⟩ := hinner.adds
  have hfront : IsKept (declaration ++ "\n").toList := List.all_eq_true.mp (by decide +kernel)
  have hclosing := IsKept.closing h.named
  have hall : (declaration ++ ("\n" ++ ("<" ++ name ++ text ++ ">" ++ inner ++
      ("</" ++ name ++ ">")))).toList.all isAllowed = true := by
    rw [← String.append_assoc, List.all_eq_true]
    exact hfront.isText.append ((h.kept_start.isText.append hinner.isText).append hclosing.isText)
  have hlines := (hfront.settles.append
    (h.kept_start.settles.append (hcs.append hclosing.settles))) []
  have hrun : Scan.run ⟨.content, [], none⟩
      ('\n' :: (("<" ++ name ++ text ++ ">").toList ++ (cs ++ ("</" ++ name ++ ">").toList))) =
        some ⟨.content, [], some (.element name attributes nodes)⟩ := run_element h hadds
  have hbody : ∀ body : List Char,
      ((declaration.toList ++ body).dropPrefix? declaration.toList).getD
        (declaration.toList ++ body) = body := by
    intro body
    rw [List.dropPrefix?_append_of_beq _ BEq.rfl]
    rfl
  have htext : lineEnds (declaration ++ ("\n" ++ ("<" ++ name ++ text ++ ">" ++ inner ++
      ("</" ++ name ++ ">")))).toList = declaration.toList ++
        '\n' :: (("<" ++ name ++ text ++ ">").toList ++ (cs ++ ("</" ++ name ++ ">").toList)) := by
    simpa [lineEnds] using hlines
  unfold read? scan?
  rw [if_pos hall, htext]
  simp only [hbody, hrun]

example : ((read? "<a b = '&lt;&#65;\t' ><c/>\n</a >").bind fun root => root.attribute? "b") =
    some "<A " := by decide +kernel

example : (read? "<a b='\r\n'>\r&#13;\n</a>").map (fun root => (root.attribute? "b",
    root.content.map Xml.char?)) = some (some " ", [some '\n', some '\r', some '\n']) := by
  decide +kernel

example : ["<a>", "<a></b>", "<a b='' b=''/>", "<a/><a/>", "<a>&b;</a>", "<a b=c/>",
    "<a>\uffff</a>", "<a>&#xfffe;</a>"].map
    (fun text => (read? text).isSome) = List.replicate 8 false := by decide +kernel

end

end FloorPlan.Xml
