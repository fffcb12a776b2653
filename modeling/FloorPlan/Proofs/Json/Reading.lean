import FloorPlan.Json
import FloorPlan.Proofs.Entries
import FloorPlan.Proofs.Number.ReadBack

/-! # Reading JSON texts

`read?` reads a JSON text that may also name the values without digits.  It knows the values that
`write` has a text for: numbers, texts, lists and objects.  A member that is named twice keeps its
place and takes the later value.  A written value is read back whatever its indent
(`read?_render`), when no object names a member twice. -/

namespace FloorPlan.Json

open Number (Figures hexValue? readFloat?)

/-- A blank between the parts of a text. -/
def isSpace (c : Char) : Bool := c = ' ' || c = '\n' || c = '\r' || c = '\t'

/-- A text without the blanks at its front. -/
def skip (cs : List Char) : List Char := cs.dropWhile isSpace

/-! ### Texts in quotes -/

/-- The number of a run of hexadecimal digits. -/
def hexNumber? (ds : List Char) : Option Nat :=
  ds.foldlM (fun n d => (hexValue? d).map (16 * n + ·)) 0

/-- A code unit of four hexadecimal digits. -/
def readUnit? (cs : List Char) : Option (Nat × List Char) :=
  if cs.length < 4 then none else (hexNumber? (cs.take 4)).map fun n => (n, cs.drop 4)

/-- A character from its code units: one, or the two surrogates of a pair. -/
def readUnits? (cs : List Char) : Option (Char × List Char) := do
  let (n, cs) ← readUnit? cs
  if n < 0xd800 ∨ 0xe000 ≤ n then some (Char.ofNat n, cs)
  else
    match cs with
    | '\\' :: 'u' :: cs => do
      let (k, cs) ← readUnit? cs
      if n < 0xdc00 ∧ 0xdc00 ≤ k ∧ k < 0xe000 then
        some (Char.ofNat (0x10000 + 0x400 * (n - 0xd800) + (k - 0xdc00)), cs)
      else none
    | _ => none

/-- What stands for a character after a backslash. -/
def escapes : List (Char × Char) :=
  [('"', '"'), ('\\', '\\'), ('/', '/'), ('b', Char.ofNat 0x08), ('f', Char.ofNat 0x0c),
   ('n', '\n'), ('r', '\r'), ('t', '\t')]

/-- A character of a text, plain or escaped. -/
def readChar? : List Char → Option (Char × List Char)
  | '\\' :: 'u' :: cs => readUnits? cs
  | '\\' :: c :: cs => (escapes.lookup c).map fun d => (d, cs)
  | c :: cs => if c = '"' ∨ c = '\\' ∨ c < ' ' then none else some (c, cs)
  | [] => none

/-- The characters up to the closing quote, at most `limit` of them. -/
def readChars? : (limit : Nat) → List Char → Option (List Char × List Char)
  | 0, _ => none
  | _ + 1, '"' :: cs => some ([], cs)
  | limit + 1, cs => do
    let (c, cs) ← readChar? cs
    let (ds, cs) ← readChars? limit cs
    some (c :: ds, cs)

/-- A text after its opening quote. -/
def readText? (cs : List Char) : Option (String × List Char) :=
  (readChars? cs.length cs).map fun p => (String.ofList p.1, p.2)

theorem hexNumber?_append (ds es : List Char) :
    hexNumber? (ds ++ es) =
      (hexNumber? ds).bind (es.foldlM fun n d => (hexValue? d).map (16 * n + ·)) :=
  List.foldlM_append

theorem hexValue?_digitChar {n : Nat} (h : n < 16) : hexValue? n.digitChar = some n := by
  have hall : ∀ n < 16, hexValue? n.digitChar = some n := by decide
  exact hall n h

theorem hexNumber?_toDigits (n : Nat) : hexNumber? (Nat.toDigits 16 n) = some n := by
  induction n using Nat.strongRecOn with
  | ind n ih =>
      by_cases hn : n < 16
      · rw [Nat.toDigits_of_lt_base hn]
        simp [hexNumber?, hexValue?_digitChar hn]
      · rw [Nat.toDigits_of_base_le (by omega) (by omega), hexNumber?_append,
          ih (n / 16) (by omega)]
        simp [hexValue?_digitChar (Nat.mod_lt n (by omega)), Nat.div_add_mod]

theorem hexNumber?_zeros (k : Nat) (ds : List Char) :
    hexNumber? (List.replicate k '0' ++ ds) = hexNumber? ds := by
  have hzero : hexNumber? (List.replicate k '0') = some 0 := by
    induction k with
    | zero => rfl
    | succ k ih => exact ih
  rw [hexNumber?_append, hzero]
  rfl

/-- Four digits of a code unit are read back. -/
theorem readUnit?_hexDigits {n : Nat} (h : n < 0x10000) (rest : List Char) :
    readUnit? (Text.hexDigits 4 n ++ rest) = some (n, rest) := by
  have hle : (Nat.toDigits 16 n).length ≤ 4 :=
    (Nat.length_toDigits_le_iff (by decide) (by decide)).mpr h
  have hlength : (Text.hexDigits 4 n).length = 4 := by
    simp only [Text.hexDigits, List.length_append, List.length_replicate]
    omega
  have hnumber : hexNumber? (Text.hexDigits 4 n) = some n := by
    simp only [Text.hexDigits]
    rw [hexNumber?_zeros, hexNumber?_toDigits]
  rw [readUnit?, if_neg (by simp [hlength]), List.take_left' hlength, List.drop_left' hlength,
    hnumber]
  rfl

theorem toNat_lt (c : Char) : c.toNat < 0xd800 ∨ 0xe000 ≤ c.toNat ∧ c.toNat < 0x110000 := by
  have h := c.valid
  simp only [UInt32.isValidChar, Nat.isValidChar] at h
  have hval : c.val.toNat = c.toNat := rfl
  omega

/-- A character that is written as its code units is read back. -/
theorem readUnits?_unit {c : Char} (h : c.toNat < 0x10000) (rest : List Char) :
    readUnits? (Text.hexDigits 4 c.toNat ++ rest) = some (c, rest) := by
  have hvalid : c.toNat < 0xd800 ∨ 0xe000 ≤ c.toNat := by
    have hc := toNat_lt c
    omega
  simp [readUnits?, readUnit?_hexDigits h, hvalid]

theorem readUnits?_pair {n k : Nat} (hn : 0xd800 ≤ n) (hn' : n < 0xdc00) (hk : 0xdc00 ≤ k)
    (hk' : k < 0xe000) (rest : List Char) :
    readUnits? (Text.hexDigits 4 n ++ (escapeUnit k ++ rest)) =
      some (Char.ofNat (0x10000 + 0x400 * (n - 0xd800) + (k - 0xdc00)), rest) := by
  have hhigh : ¬ (n < 0xd800 ∨ 0xe000 ≤ n) := by omega
  have hlow : k < 0x10000 := by omega
  rw [readUnits?, readUnit?_hexDigits (by omega)]
  simp [escapeUnit, hhigh, readUnit?_hexDigits hlow, hn', hk, hk']

/-- The surrogates of a character make up the character. -/
theorem ofNat_pair {c : Char} (h : 0x10000 ≤ c.toNat) :
    Char.ofNat (0x10000 + 0x400 * (0xd800 + (c.toNat - 0x10000) / 0x400 - 0xd800) +
      (0xdc00 + (c.toNat - 0x10000) % 0x400 - 0xdc00)) = c := by
  have hjoin : 0x10000 + 0x400 * (0xd800 + (c.toNat - 0x10000) / 0x400 - 0xd800) +
      (0xdc00 + (c.toNat - 0x10000) % 0x400 - 0xdc00) = c.toNat := by
    rw [Nat.add_sub_cancel_left, Nat.add_sub_cancel_left, Nat.add_assoc, Nat.div_add_mod]
    exact Nat.add_sub_of_le h
  rw [hjoin, Char.ofNat_toNat]

/-- A character of a written text is read back. -/
theorem readChar?_escapeChar (c : Char) (rest : List Char) :
    readChar? (escapeChar c ++ rest) = some (c, rest) := by
  have hc := toNat_lt c
  have hunits : ∀ (n : Nat) (cs : List Char),
      readChar? (escapeUnit n ++ cs) = readUnits? (Text.hexDigits 4 n ++ cs) := fun _ _ => rfl
  unfold escapeChar
  split
  · next h => rw [h]; rfl
  split
  · next h => rw [h]; rfl
  split
  · next h => rw [h]; rfl
  split
  · next h => rw [h]; rfl
  split
  · next h => rw [h]; rfl
  split
  · next h => rw [h]; rfl
  split
  · next h => rw [h]; rfl
  split
  · next hquote hslash _ _ _ _ _ hplain =>
      have hspace : ¬ c < ' ' := by
        simp only [Bool.and_eq_true, decide_eq_true_eq] at hplain
        exact Char.not_lt.mpr hplain.1
      have hnone : ¬ (c = '"' ∨ c = '\\' ∨ c < ' ') := by simp [hquote, hslash, hspace]
      rw [List.singleton_append, readChar?, if_neg hnone]
      · exact fun _ h _ => hslash h
      · exact fun _ _ h _ => hslash h
  split
  · next hunit => rw [hunits, readUnits?_unit hunit]
  · next hunit =>
      rw [List.append_assoc, hunits,
        readUnits?_pair (by omega) (by omega) (by omega) (by omega), ofNat_pair (by omega)]

theorem escapeChar_head (c : Char) : ∃ d ds, escapeChar c = d :: ds ∧ d ≠ '"' := by
  unfold escapeChar
  repeat' split
  all_goals first
    | exact ⟨'\\', _, rfl, by decide⟩
    | exact ⟨c, [], rfl, by assumption⟩

/-- The characters of a written text are read back. -/
theorem readChars?_escaped (cs rest : List Char) (limit : Nat) (h : cs.length < limit) :
    readChars? limit (cs.flatMap escapeChar ++ '"' :: rest) = some (cs, rest) := by
  induction cs generalizing limit with
  | nil =>
      obtain ⟨limit, rfl⟩ := Nat.exists_eq_add_of_lt h
      rfl
  | cons c cs ih =>
      obtain ⟨limit, rfl⟩ : ∃ n, limit = n + 1 := ⟨limit - 1, by omega⟩
      obtain ⟨d, ds, hd, hquote⟩ := escapeChar_head c
      have hchar := readChar?_escapeChar c (cs.flatMap escapeChar ++ '"' :: rest)
      rw [List.flatMap_cons, List.append_assoc]
      rw [hd, List.cons_append] at hchar ⊢
      rw [readChars?]
      · simp [hchar, ih limit (by simpa using h)]
      · exact fun _ h => hquote (List.cons.inj h).1

/-- A text in quotes is read back. -/
theorem readText?_quote (s : String) (rest : List Char) :
    readText? (s.toList.flatMap escapeChar ++ '"' :: rest) = some (s, rest) := by
  have hlimit : s.toList.length < (s.toList.flatMap escapeChar ++ '"' :: rest).length := by
    have hone : ∀ n ∈ s.toList.map fun c => (escapeChar c).length, 1 ≤ n := by
      intro n hn
      obtain ⟨c, -, rfl⟩ := List.mem_map.mp hn
      obtain ⟨d, ds, hd, -⟩ := escapeChar_head c
      simp [hd]
    have hsum := List.length_le_sum_of_one_le _ hone
    rw [← List.length_flatMap, List.length_map] at hsum
    simp only [List.length_append, List.length_cons]
    omega
  rw [readText?, readChars?_escaped s.toList rest _ hlimit]
  simp

/-! ### Numbers -/

/-- The whole part of a number at the front of a text: a zero, or digits that another digit
leads. -/
def wholeText : List Char → List Char
  | '0' :: _ => ['0']
  | cs => cs.takeWhile Char.isDigit

/-- A point with digits after it. -/
def fractionText : List Char → List Char
  | '.' :: cs => Figures.pointText (cs.takeWhile Char.isDigit)
  | _ => []

/-- The sign of a number or of an exponent, of those in `marks`. -/
def signText (marks : List Char) (cs : List Char) : List Char := (cs.take 1).filter (· ∈ marks)

/-- An exponent with its mark and its sign. -/
def exponentText : List Char → List Char
  | c :: cs =>
    let sign := signText ['-', '+'] cs
    let ds := (cs.drop sign.length).takeWhile Char.isDigit
    if (c = 'e' ∨ c = 'E') ∧ ds ≠ [] then c :: sign ++ ds else []
  | [] => []

/-- The number without a sign at the front of a text; empty if there is none. -/
def unsignedText (cs : List Char) : List Char :=
  let whole := wholeText cs
  let fraction := fractionText (cs.drop whole.length)
  let exponent := exponentText (cs.drop (whole.length + fraction.length))
  if whole.isEmpty then [] else whole ++ (fraction ++ exponent)

/-- The number at the front of a text; empty if there is none. -/
def numberText (cs : List Char) : List Char :=
  match Number.json.names.find? (·.isPrefixOf cs) with
  | some name => name
  | none =>
    let sign := signText ['-'] cs
    let text := unsignedText (cs.drop sign.length)
    if text.isEmpty then [] else sign ++ text

/-- A number with its value. -/
def readNumber? (cs : List Char) : Option (Float × List Char) :=
  let text := numberText cs
  if text.isEmpty then none
  else (readFloat? (String.ofList text)).map fun x => (x, cs.drop text.length)

/-- What may stand after a value: nothing, or a mark or a line end. -/
def Closes (rest : List Char) : Prop := ∀ c ∈ rest.head?, c ∈ [',', '\n', ']', '}']

theorem Closes.head {rest : List Char} (h : Closes rest) {c : Char} (hc : c ∈ rest.head?) :
    c.isDigit = false ∧ c ∉ ['.', 'e', 'E'] := by
  have hmark := h c hc
  simp only [List.mem_cons, List.not_mem_nil, or_false] at hmark
  rcases hmark with rfl | rfl | rfl | rfl <;> decide

section Figures

variable {f : Figures} {rest : List Char}

theorem wholeText_append (hf : f.Proper) (hrest : ∀ c ∈ rest.head?, c.isDigit = false) :
    wholeText (f.whole ++ rest) = f.whole := by
  rcases hf.lead with hzero | hhead
  · rw [hzero]
    rfl
  · obtain ⟨d, ds, hwhole⟩ := List.exists_cons_of_ne_nil hf.whole_ne
    have htake := (Number.takeWhile_isDigit hf.whole_digits hrest).1
    rw [hwhole, List.cons_append] at htake ⊢
    rw [wholeText]
    · exact htake
    · intro cs he
      rw [hwhole, (List.cons.inj he).1] at hhead
      exact hhead rfl

theorem fractionText_append {ds : List Char} (hdigits : ∀ d ∈ ds, d.isDigit = true)
    (hrest : ∀ c ∈ rest.head?, c.isDigit = false ∧ c ≠ '.') :
    fractionText (Figures.pointText ds ++ rest) = Figures.pointText ds := by
  cases ds with
  | nil =>
      rw [Figures.pointText]
      cases rest with
      | nil => rfl
      | cons c rest => 
          have hc := (hrest c rfl).2
          simp [fractionText, hc]
  | cons d ds =>
      have htake := (Number.takeWhile_isDigit hdigits fun c hc => (hrest c hc).1).1
      rw [Figures.pointText_of_ne (List.cons_ne_nil d ds), List.cons_append, fractionText, htake,
        Figures.pointText_of_ne (List.cons_ne_nil d ds)]

theorem exponentText_append (hf : f.Proper) (hrest : Closes rest) :
    exponentText (Figures.markText f.exponent ++ rest) = Figures.markText f.exponent := by
  cases he : f.exponent with
  | none =>
      cases rest with
      | nil => rfl
      | cons c rest =>
          have hc := (hrest.head rfl).2
          simp_all [Figures.markText, exponentText]
  | some e =>
      obtain ⟨minus, ds⟩ := e
      have hne : ds ≠ [] := hf.exponent_ne _ he
      have htake := (Number.takeWhile_isDigit (hf.exponent_digits _ he)
        fun c hc => (hrest.head hc).1).1
      cases minus <;> simp [Figures.markText, exponentText, signText, htake, hne]

/-- The reader takes the text of figures whole. -/
theorem unsignedText_append (hf : f.Proper) (hrest : Closes rest) :
    unsignedText (f.text ++ rest) = f.text := by
  have hmark : ∀ c ∈ (Figures.markText f.exponent ++ rest).head?, c.isDigit = false ∧ c ≠ '.' := by
    intro c hc
    cases he : f.exponent with
    | none =>
        rw [he] at hc
        have hhead := hrest.head hc
        exact ⟨hhead.1, fun h => hhead.2 (by simp [h])⟩
    | some e =>
        rw [he, Figures.markText, List.cons_append, List.head?_cons, Option.mem_some_iff] at hc
        rw [← hc]
        decide
  have hpoint : ∀ c ∈ (Figures.pointText f.fraction ++ (Figures.markText f.exponent ++ rest)).head?,
      c.isDigit = false := by
    intro c hc
    rw [Figures.pointText] at hc
    split at hc
    · exact (hmark c hc).1
    · rw [List.cons_append, List.head?_cons, Option.mem_some_iff] at hc
      rw [← hc]
      rfl
  have hwhole := wholeText_append hf hpoint
  have hfraction := fractionText_append hf.fraction_digits hmark
  have hne : f.whole.isEmpty = false := by simpa using hf.whole_ne
  simp only [unsignedText, Figures.text, List.append_assoc, hwhole, List.drop_left, hfraction, hne]
  rw [← List.drop_drop, List.drop_left, List.drop_left, exponentText_append hf hrest]
  rfl

theorem numberText_append (minus : Bool) (hf : f.Proper) (hrest : Closes rest) :
    numberText (Figures.signed minus f.text ++ rest) = Figures.signed minus f.text := by
  obtain ⟨d, ds, htext, hd⟩ := Figures.text_eq_cons hf
  have hunsigned := unsignedText_append hf hrest
  have hne : d ≠ '-' ∧ 'N' ≠ d ∧ 'I' ≠ d ∧ '-' ≠ d := by
    refine ⟨?_, ?_, ?_, ?_⟩ <;> rintro rfl <;> exact absurd hd (by decide)
  rw [htext, List.cons_append] at hunsigned
  rw [htext]
  cases minus <;>
    simp [numberText, Number.Layout.names, Number.json, List.isPrefixOf, Figures.signed, signText, hne, hunsigned]

/-- A signed number in figures is read as it is read alone. -/
theorem readNumber?_append (minus : Bool) (hf : f.Proper) (hrest : Closes rest) :
    readNumber? (Figures.signed minus f.text ++ rest) =
      (readFloat? (String.ofList (Figures.signed minus f.text))).map fun x => (x, rest) := by
  have hne : (Figures.signed minus f.text).isEmpty = false := by
    obtain ⟨d, ds, htext, -⟩ := Figures.text_eq_cons hf
    cases minus <;> simp [Figures.signed, htext]
  simp [readNumber?, numberText_append minus hf hrest, hne]

end Figures

/-! ### Values -/

mutual

/-- A value, through at most `limit` steps. -/
def readValue? : (limit : Nat) → List Char → Option (Json × List Char)
  | 0, _ => none
  | limit + 1, cs =>
    match cs with
    | '"' :: cs => (readText? cs).map fun p => (text p.1, p.2)
    | '[' :: cs =>
      match skip cs with
      | ']' :: cs => some (list [], cs)
      | cs => (readItems? limit cs).map fun p => (list p.1, p.2)
    | '{' :: cs =>
      match skip cs with
      | '}' :: cs => some (object [], cs)
      | cs => (readMembers? limit cs).map fun p => (object (Entries.ofPairs p.1), p.2)
    | cs => (readNumber? cs).map fun p => (number p.1, p.2)

/-- The items of a list, up to its closing bracket. -/
def readItems? : (limit : Nat) → List Char → Option (List Json × List Char)
  | 0, _ => none
  | limit + 1, cs => do
    let (x, cs) ← readValue? limit cs
    match skip cs with
    | ']' :: cs => some ([x], cs)
    | ',' :: cs => do
      let (xs, cs) ← readItems? limit (skip cs)
      some (x :: xs, cs)
    | _ => none

/-- The members of an object, up to its closing brace. -/
def readMembers? : (limit : Nat) → List Char → Option (List (String × Json) × List Char)
  | 0, _ => none
  | limit + 1, '"' :: cs => do
    let (name, cs) ← readText? cs
    match skip cs with
    | ':' :: cs => do
      let (x, cs) ← readValue? limit (skip cs)
      match skip cs with
      | '}' :: cs => some ([(name, x)], cs)
      | ',' :: cs => do
        let (ms, cs) ← readMembers? limit (skip cs)
        some ((name, x) :: ms, cs)
      | _ => none
    | _ => none
  | _ + 1, _ => none

end

/-- Reads a text that holds one value and blanks. -/
def read? (s : String) : Option Json :=
  match readValue? s.length (skip s.toList) with
  | some (v, rest) => if (skip rest).isEmpty then some v else none
  | none => none

/-! ### Reading back what is written -/

variable {indent : Option Int} {depth : Nat} {rest : List Char}

/-- A written number is read back. -/
theorem readNumber?_write (x : Float) (hrest : Closes rest) :
    readNumber? ((Number.json.write x).toList ++ rest) = some (x, rest) := by
  have hread : readFloat? (String.ofList (Number.json.write x).toList) = some x := by
    rw [String.ofList_toList, Number.readFloat?_write]
  rcases Number.write_cases Number.json x with hname | ⟨minus, f, hf, htext⟩
  · have hwhole : ∀ name ∈ Number.json.names, numberText (name ++ rest) = name ∧ name.isEmpty = false := by
      simp only [Number.Layout.names, List.forall_mem_cons]
      exact ⟨⟨rfl, rfl⟩, ⟨rfl, rfl⟩, ⟨rfl, rfl⟩, by simp⟩
    obtain ⟨htext, hne⟩ := hwhole _ hname
    simp only [readNumber?, htext, hne, hread, List.drop_left]
    rfl
  · rw [htext] at hread ⊢
    rw [readNumber?_append minus hf hrest, hread]
    rfl

/-- No object names a member twice. -/
inductive Distinct : Json → Prop
  | number (x : Float) : Distinct (number x)
  | text (s : String) : Distinct (text s)
  | list {xs : List Json} (hxs : ∀ x ∈ xs, Distinct x) : Distinct (list xs)
  | object {ms : List (String × Json)} (hnames : (Entries.names ms).Nodup)
      (hms : ∀ m ∈ ms, Distinct m.2) : Distinct (object ms)

/-- A value whose text is read back, wherever it stands. -/
def ReadsBack (v : Json) : Prop :=
  ∀ (indent : Option Int) (depth limit : Nat) (rest : List Char),
    (write indent depth v).length ≤ limit → Closes rest →
      readValue? limit (write indent depth v ++ rest) = some (v, rest)

theorem isDigit_plain {d : Char} (hd : d.isDigit = true) :
    isSpace d = false ∧ d ∉ ['"', '[', '{', ']', '}'] := by
  constructor
  · simp only [isSpace, Bool.or_eq_false_iff, decide_eq_false_iff_not]
    refine ⟨⟨⟨?_, ?_⟩, ?_⟩, ?_⟩ <;> rintro rfl <;> exact absurd hd (by decide)
  · intro hmem
    simp only [List.mem_cons, List.not_mem_nil, or_false] at hmem
    rcases hmem with rfl | rfl | rfl | rfl | rfl <;> cases hd

/-- The first character of a number: no blank, and no mark that opens or ends a value. -/
theorem number_head (x : Float) :
    ∃ d ds, (Number.json.write x).toList = d :: ds ∧ isSpace d = false ∧
      d ∉ ['"', '[', '{', ']', '}'] := by
  rcases Number.write_cases Number.json x with hname | ⟨minus, f, hf, htext⟩
  · have hall : ∀ cs ∈ Number.json.names, ∃ d ds, cs = d :: ds ∧ isSpace d = false ∧
        d ∉ ['"', '[', '{', ']', '}'] := by
      simp only [Number.Layout.names, List.forall_mem_cons]
      exact ⟨⟨'N', _, rfl, by decide⟩, ⟨'I', _, rfl, by decide⟩, ⟨'-', _, rfl, by decide⟩, by simp⟩
    exact hall _ hname
  · obtain ⟨d, ds, hfigures, hd⟩ := Figures.text_eq_cons hf
    rw [htext]
    cases minus with
    | true => exact ⟨'-', f.text, rfl, by decide⟩
    | false => exact ⟨d, ds, hfigures, isDigit_plain hd⟩

/-- The first character of a value: no blank, and no mark that ends a list or an object. -/
theorem write_head (indent : Option Int) (depth : Nat) (v : Json) :
    ∃ c cs, write indent depth v = c :: cs ∧ isSpace c = false ∧ c ≠ ']' ∧ c ≠ '}' := by
  match v with
  | number x =>
      obtain ⟨d, ds, htext, hspace, hmark⟩ := number_head x
      rw [write, htext]
      refine ⟨d, ds, rfl, hspace, ?_, ?_⟩ <;> rintro rfl <;> exact hmark (by decide)
  | text s => exact ⟨'"', _, by rw [write]; rfl, by decide⟩
  | list [] => exact ⟨'[', _, by rw [write], by decide⟩
  | list (x :: xs) => exact ⟨'[', _, by rw [write]; rfl, by decide⟩
  | object [] => exact ⟨'{', _, by rw [write], by decide⟩
  | object ((name, x) :: ms) => exact ⟨'{', _, by rw [write]; rfl, by decide⟩

theorem skip_cons {c : Char} {cs : List Char} (h : isSpace c = false) :
    skip (c :: cs) = c :: cs := by
  rw [skip, List.dropWhile_cons_of_neg (by simp [h])]

theorem skip_blanks {bs cs : List Char} (h : ∀ b ∈ bs, isSpace b = true) :
    skip (bs ++ cs) = skip cs := List.dropWhile_append_of_pos h

/-- A value is not skipped. -/
theorem skip_write (indent : Option Int) (depth : Nat) (v : Json) (rest : List Char) :
    skip (write indent depth v ++ rest) = write indent depth v ++ rest := by
  obtain ⟨c, cs, hwrite, hspace, -⟩ := write_head indent depth v
  rw [hwrite, List.cons_append, skip_cons hspace]

theorem lineBreak_blank : ∀ b ∈ lineBreak indent depth, isSpace b = true := by
  intro b hb
  cases indent with
  | none => exact absurd hb List.not_mem_nil
  | some n =>
      rcases List.mem_cons.mp hb with rfl | hb
      · rfl
      · rw [List.eq_of_mem_replicate hb]
        rfl

/-- A separator is a comma and blanks. -/
theorem separator_eq (indent : Option Int) (depth : Nat) :
    ∃ bs, separator indent depth = ',' :: bs ∧ ∀ b ∈ bs, isSpace b = true := by
  cases indent with
  | none => exact ⟨[' '], rfl, by simp [isSpace]⟩
  | some n => exact ⟨lineBreak (some n) depth, rfl, lineBreak_blank⟩

theorem closes_mark {c : Char} {cs : List Char} (h : c ∈ [',', '\n', ']', '}']) :
    Closes (c :: cs) := by
  intro d hd
  rw [List.head?_cons, Option.mem_some_iff] at hd
  rw [← hd]
  exact h

/-- The end of a list or of an object. -/
theorem closes_end {c : Char} {cs : List Char} (h : c ∈ [',', '\n', ']', '}']) :
    Closes (lineBreak indent depth ++ c :: cs) := by
  cases indent with
  | none => exact closes_mark h
  | some n => exact closes_mark (by decide)

theorem skip_comma (cs : List Char) : skip (',' :: cs) = ',' :: cs := skip_cons (by decide)

/-- The items of a written list are read back. -/
theorem readItems?_write {x : Json} {xs : List Json} (indent : Option Int)
    (depth outer limit : Nat) (rest : List Char) (hback : ∀ y ∈ x :: xs, ReadsBack y)
    (hlimit : (write indent depth x).length + (writeItems indent depth xs).length < limit) :
    readItems? limit (write indent depth x ++
      (writeItems indent depth xs ++ (lineBreak indent outer ++ ']' :: rest))) =
        some (x :: xs, rest) := by
  obtain ⟨limit, rfl⟩ : ∃ n, limit = n + 1 := ⟨limit - 1, by omega⟩
  induction xs generalizing x limit with
  | nil =>
      have hend : skip (lineBreak indent outer ++ ']' :: rest) = ']' :: rest := by
        rw [skip_blanks lineBreak_blank, skip_cons (by decide)]
      have hvalue := hback x (by simp) indent depth limit (lineBreak indent outer ++ ']' :: rest)
        (by omega) (closes_end (by decide))
      simp [readItems?, writeItems, hvalue, hend]
  | cons y ys ih =>
      obtain ⟨bs, hseparator, hblank⟩ := separator_eq indent depth
      obtain ⟨c, cs, hx, -⟩ := write_head indent depth x
      simp only [writeItems, hseparator, hx, List.length_append, List.length_cons] at hlimit
      obtain ⟨limit, rfl⟩ : ∃ n, limit = n + 1 := ⟨limit - 1, by omega⟩
      have hitems := ih (fun z hz => hback z (List.mem_cons_of_mem x hz)) limit (by omega)
      set next := write indent depth y ++
        (writeItems indent depth ys ++ (lineBreak indent outer ++ ']' :: rest)) with hnext
      have hvalue := hback x (by simp) indent depth (limit + 1) (',' :: (bs ++ next))
        (by rw [hx, List.length_cons]; omega) (closes_mark (by decide))
      have hskip : skip (bs ++ next) = next := by rw [skip_blanks hblank, hnext, skip_write]
      have htext : write indent depth x ++ (writeItems indent depth (y :: ys) ++
          (lineBreak indent outer ++ ']' :: rest)) =
            write indent depth x ++ ',' :: (bs ++ next) := by
        simp [writeItems, hseparator, hnext]
      rw [htext, readItems?, hvalue]
      simp [skip_comma, hskip, hitems]

/-- The members of a written object are read back. -/
theorem readMembers?_write {name : String} {x : Json} {ms : List (String × Json)}
    (indent : Option Int) (depth outer limit : Nat) (rest : List Char)
    (hback : ∀ m ∈ (name, x) :: ms, ReadsBack m.2)
    (hlimit : (write indent depth x).length + (writeMembers indent depth ms).length < limit) :
    readMembers? limit (label name ++ (write indent depth x ++
      (writeMembers indent depth ms ++ (lineBreak indent outer ++ '}' :: rest)))) =
        some ((name, x) :: ms, rest) := by
  obtain ⟨limit, rfl⟩ : ∃ n, limit = n + 1 := ⟨limit - 1, by omega⟩
  have hlabel : ∀ (name : String) (cs : List Char), label name ++ cs =
      '"' :: (name.toList.flatMap escapeChar ++ '"' :: ':' :: ' ' :: cs) := by
    simp [label, quote]
  have hcolon : ∀ cs, skip (':' :: cs) = ':' :: cs := fun cs => skip_cons (by decide)
  have hspace : ∀ cs, skip (' ' :: cs) = skip cs := fun cs => List.dropWhile_cons_of_pos rfl
  induction ms generalizing name x limit with
  | nil =>
      have hx : ReadsBack x := hback (name, x) (by simp)
      have hend : skip (lineBreak indent outer ++ '}' :: rest) = '}' :: rest := by
        rw [skip_blanks lineBreak_blank, skip_cons (by decide)]
      have hvalue := hx indent depth limit (lineBreak indent outer ++ '}' :: rest) (by omega)
        (closes_end (by decide))
      rw [hlabel, readMembers?, readText?_quote]
      simp [writeMembers, hcolon, hspace, skip_write, hvalue, hend]
  | cons m ms ih =>
      obtain ⟨name', y⟩ := m
      obtain ⟨bs, hseparator, hblank⟩ := separator_eq indent depth
      obtain ⟨c, cs, hx, -⟩ := write_head indent depth x
      have hreads : ReadsBack x := hback (name, x) (by simp)
      simp only [writeMembers, hseparator, hx, List.length_append, List.length_cons] at hlimit
      obtain ⟨limit, rfl⟩ : ∃ n, limit = n + 1 := ⟨limit - 1, by omega⟩
      have hmembers := ih (fun z hz => hback z (List.mem_cons_of_mem _ hz)) limit (by omega)
      set next := label name' ++ (write indent depth y ++
        (writeMembers indent depth ms ++ (lineBreak indent outer ++ '}' :: rest))) with hnext
      have hvalue := hreads indent depth (limit + 1) (',' :: (bs ++ next))
        (by rw [hx, List.length_cons]; omega) (closes_mark (by decide))
      have hskip : skip (bs ++ next) = next := by
        rw [skip_blanks hblank, hnext, hlabel, skip_cons (by decide)]
      have htext : write indent depth x ++ (writeMembers indent depth ((name', y) :: ms) ++
          (lineBreak indent outer ++ '}' :: rest)) =
            write indent depth x ++ ',' :: (bs ++ next) := by
        simp [writeMembers, hseparator, hnext]
      rw [htext, hlabel, readMembers?, readText?_quote]
      simp [hcolon, hspace, skip_write, hvalue, skip_comma, hskip, hmembers]

theorem readsBack_number (x : Float) : ReadsBack (number x) := by
  intro indent depth limit rest hlimit hrest
  obtain ⟨d, ds, htext, -, hmark⟩ := number_head x
  have hnumber := readNumber?_write x hrest
  rw [write, htext] at hlimit ⊢
  rw [htext, List.cons_append] at hnumber
  simp only [List.mem_cons, List.not_mem_nil, or_false, not_or] at hmark
  rw [List.length_cons] at hlimit
  obtain ⟨limit, rfl⟩ : ∃ n, limit = n + 1 := ⟨limit - 1, by omega⟩
  rw [List.cons_append, readValue?]
  · rw [hnumber]
    rfl
  · exact fun cs h => hmark.1 (List.cons.inj h).1
  · exact fun cs h => hmark.2.1 (List.cons.inj h).1
  · exact fun cs h => hmark.2.2.1 (List.cons.inj h).1

theorem readsBack_text (s : String) : ReadsBack (text s) := by
  intro indent depth limit rest hlimit hrest
  simp only [write, quote, List.length_cons, List.cons_append] at hlimit
  obtain ⟨limit, rfl⟩ : ∃ n, limit = n + 1 := ⟨limit - 1, by omega⟩
  have htext := readText?_quote s rest
  simp [write, quote, readValue?, htext]

theorem readsBack_list {xs : List Json} (hxs : ∀ x ∈ xs, ReadsBack x) : ReadsBack (list xs) := by
  intro indent depth limit rest hlimit hrest
  cases xs with
  | nil =>
      rw [write] at hlimit ⊢
      obtain ⟨limit, rfl⟩ : ∃ n, limit = n + 1 := ⟨limit - 1, by simp at hlimit; omega⟩
      have hend : skip (']' :: rest) = ']' :: rest := skip_cons (by decide)
      simp [readValue?, hend]
  | cons x xs =>
      simp only [write, List.length_cons, List.length_append, List.cons_append] at hlimit
      obtain ⟨limit, rfl⟩ : ∃ n, limit = n + 1 := ⟨limit - 1, by omega⟩
      have hitems := readItems?_write indent (depth + 1) depth limit rest hxs (by omega)
      obtain ⟨c, cs, hx, hspace, hbracket, -⟩ := write_head indent (depth + 1) x
      rw [hx, List.cons_append] at hitems
      rw [write, hx]
      simp only [List.cons_append, List.append_assoc, List.nil_append]
      rw [readValue?, skip_blanks lineBreak_blank, skip_cons hspace]
      simp [hitems, hbracket]

theorem readsBack_object {ms : List (String × Json)} (hnames : (Entries.names ms).Nodup)
    (hms : ∀ m ∈ ms, ReadsBack m.2) : ReadsBack (object ms) := by
  intro indent depth limit rest hlimit hrest
  match ms with
  | [] =>
      rw [write] at hlimit ⊢
      obtain ⟨limit, rfl⟩ : ∃ n, limit = n + 1 := ⟨limit - 1, by simp at hlimit; omega⟩
      have hend : skip ('}' :: rest) = '}' :: rest := skip_cons (by decide)
      simp [readValue?, hend]
  | (name, x) :: ms =>
      simp only [write, List.length_cons, List.length_append, List.cons_append] at hlimit
      obtain ⟨limit, rfl⟩ : ∃ n, limit = n + 1 := ⟨limit - 1, by omega⟩
      have hmembers := readMembers?_write indent (depth + 1) depth limit rest hms (by omega)
      have hquote : ∃ cs, label name = '"' :: cs := ⟨_, by simp only [label, quote]; rfl⟩
      obtain ⟨cs, hlabel⟩ := hquote
      rw [hlabel, List.cons_append] at hmembers
      rw [write, hlabel]
      simp only [List.cons_append, List.append_assoc, List.nil_append]
      rw [readValue?, skip_blanks lineBreak_blank, skip_cons (by decide)]
      simp [hmembers, Entries.ofPairs_of_nodup hnames]

/-- A written value is read back wherever it stands. -/
theorem Distinct.readsBack {v : Json} (h : Distinct v) : ReadsBack v := by
  induction h with
  | number x => exact readsBack_number x
  | text s => exact readsBack_text s
  | list _ ih => exact readsBack_list ih
  | object hnames _ ih => exact readsBack_object hnames ih

/-- The text of a value is read as the value, whatever its indent. -/
theorem read?_render {v : Json} (h : Distinct v) (indent : Option Int) :
    read? (v.render indent) = some v := by
  have hread := h.readsBack indent 0 (write indent 0 v).length [] (le_refl _) (by simp [Closes])
  have hskip := skip_write indent 0 v []
  have hend : skip [] = [] := rfl
  rw [List.append_nil] at hread hskip
  simp [read?, render, hskip, hread, hend]

end FloorPlan.Json
