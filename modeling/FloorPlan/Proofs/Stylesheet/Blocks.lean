import FloorPlan.Proofs.Text.Inert

/-! # The blocks of a style sheet

`Css.rules?` scans a style sheet character by character: comments, strings, and brackets with the
closing marks that are due.  It refuses a block inside a block or inside other brackets, and a brace
in a comment or in a string, so the braces of a sheet that passes are those of its rules and never
nest (`Css.rules?_flat`).  The sheet of a model passes with seven rules, and one more for a grid
(`rules?_render`): its only variable parts are inert. -/

namespace FloorPlan

namespace Css

/-! ### Scanning -/

/-- What a character of a style sheet stands in. -/
inductive Place where
  | plain
  /-- Right after a slash, which may open a comment. -/
  | slash
  | comment
  /-- Right after a star of a comment, which may close it. -/
  | star
  | quoted (mark : Char)
  deriving DecidableEq, Repr

/-- The state of a scan. -/
structure Scan where
  place : Place
  /-- The closing marks that are due, the innermost first. -/
  due : List Char
  /-- The number of rules that are closed. -/
  rules : Nat
  deriving DecidableEq, Repr

/-- Whether a character is a brace. -/
def isBrace (c : Char) : Bool := c = '{' || c = '}'

namespace Scan

/-- A closing mark, which has to be the one that is due. -/
def close (s : Scan) (c : Char) : Option Scan :=
  match s.due with
  | [] => none
  | d :: due =>
    if c = d then some { s with due, rules := if c = '}' then s.rules + 1 else s.rules }
    else none

/-- A character outside comments and strings. The block of a rule opens at the top only. -/
def read (s : Scan) (c : Char) : Option Scan :=
  match c with
  | '/' => some { s with place := .slash }
  | '"' | '\'' => some { s with place := .quoted c }
  | '\\' => none
  | '(' => some { s with due := ')' :: s.due }
  | '[' => some { s with due := ']' :: s.due }
  | '{' => if s.due = [] then some { s with due := ['}'] } else none
  | ')' | ']' | '}' => s.close c
  | _ => some s

/-- The next character. -/
def step (s : Scan) (c : Char) : Option Scan :=
  match s.place with
  | .plain => s.read c
  | .slash =>
    if c = '*' then some { s with place := .comment } else { s with place := .plain }.read c
  | .comment =>
    if isBrace c then none else some { s with place := if c = '*' then .star else .comment }
  | .star =>
    if isBrace c then none
    else if c = '/' then some { s with place := .plain }
    else some { s with place := if c = '*' then .star else .comment }
  | .quoted q =>
    if isBrace c ∨ c = '\\' ∨ c = '\n' then none
    else some { s with place := if c = q then .plain else .quoted q }

/-- The characters of a text in order. -/
def run (s : Scan) (text : String) : Option Scan := text.toList.foldlM step s

end Scan

/-- The number of rules of a style sheet whose comments, strings and brackets are all closed. -/
def rules? (css : String) : Option Nat :=
  match Scan.run ⟨.plain, [], 0⟩ css with
  | some ⟨.plain, [], n⟩ => some n
  | _ => none

/-- The braces of a text come in pairs and do not nest: after each part of the text from its
beginning, at most one of them is open. -/
structure Flat (css : String) : Prop where
  balanced : css.toList.count '{' = css.toList.count '}'
  depth : ∀ part, part <+: css.toList →
    part.count '}' ≤ part.count '{' ∧ part.count '{' ≤ part.count '}' + 1

/-! ### What the scan says of the braces -/

namespace Scan

variable {s s' : Scan} {c : Char}

/-- One if the block of a rule is open. -/
def openBlocks (s : Scan) : Nat := s.due.count '}'

/-- What a stretch of a scan does to the braces. -/
structure Counts (s : Scan) (text : List Char) (s' : Scan) : Prop where
  opened : s'.openBlocks + text.count '}' = s.openBlocks + text.count '{'
  rules : s'.rules = s.rules + text.count '}'
  open_le : s.openBlocks ≤ 1 → s'.openBlocks ≤ 1

theorem Counts.trans {s₁ : Scan} {text text' : List Char} (h : Counts s text s₁)
    (h' : Counts s₁ text' s') : Counts s (text ++ text') s' := by
  have ho := h.opened
  have ho' := h'.opened
  have hr := h.rules
  have hr' := h'.rules
  refine ⟨?_, ?_, fun hs => h'.open_le (h.open_le hs)⟩
  · simp only [List.count_append]
    omega
  · simp only [List.count_append]
    omega

/-- A character that is no brace, with the closing marks of braces left as they are. -/
theorem Counts.ofNeutral (hc : isBrace c = false) (hopen : s'.openBlocks = s.openBlocks)
    (hrules : s'.rules = s.rules) : Counts s [c] s' := by
  simp only [isBrace, Bool.or_eq_false_iff, decide_eq_false_iff_not] at hc
  have hl : [c].count '{' = 0 := List.count_eq_zero.mpr (by simpa using Ne.symm hc.1)
  have hr : [c].count '}' = 0 := List.count_eq_zero.mpr (by simpa using Ne.symm hc.2)
  constructor
  · rw [hl, hr, hopen]
  · rw [hr, hrules, Nat.add_zero]
  · rw [hopen]
    exact id

theorem close_counts (hc : c = '}' ∨ isBrace c = false) (h : s.close c = some s') :
    Counts s [c] s' := by
  unfold close at h
  cases hdue : s.due with
  | nil => simp [hdue] at h
  | cons d due =>
      simp only [hdue] at h
      split at h
      · next hd =>
          cases h
          subst hd
          rcases hc with rfl | hc
          · constructor
            · simp [openBlocks, hdue]
            · simp
            · simp only [openBlocks, hdue, List.count_cons_self]
              omega
          · have hne : c ≠ '}' := by
              rintro rfl
              cases hc
            exact .ofNeutral hc (by simp [openBlocks, hdue, hne]) (by simp [hne])
      · cases h

theorem read_counts (h : s.read c = some s') : Counts s [c] s' := by
  unfold read at h
  split at h
  · cases h
    exact .ofNeutral rfl rfl rfl
  · cases h
    exact .ofNeutral rfl rfl rfl
  · cases h
    exact .ofNeutral rfl rfl rfl
  · cases h
  · cases h
    exact .ofNeutral rfl (by simp [openBlocks]) rfl
  · cases h
    exact .ofNeutral rfl (by simp [openBlocks]) rfl
  · split at h
    · next hdue =>
        cases h
        constructor <;> simp [openBlocks, hdue]
    · cases h
  · exact close_counts (.inr rfl) h
  · exact close_counts (.inr rfl) h
  · exact close_counts (.inl rfl) h
  · cases h
    exact .ofNeutral (by simp_all [isBrace]) rfl rfl

theorem step_counts (h : s.step c = some s') : Counts s [c] s' := by
  unfold step at h
  split at h
  · exact read_counts h
  · split at h
    · next hc =>
        cases h
        exact .ofNeutral (by rw [hc]; rfl) rfl rfl
    · have hread := read_counts h
      exact ⟨hread.opened, hread.rules, hread.open_le⟩
  · split at h
    · cases h
    · next hc =>
        cases h
        exact .ofNeutral (by simpa using hc) rfl rfl
  · split at h
    · cases h
    · next hc =>
        have hc : isBrace c = false := by simpa using hc
        split at h
        · cases h
          exact .ofNeutral hc rfl rfl
        · cases h
          exact .ofNeutral hc rfl rfl
  · split at h
    · cases h
    · next hc =>
        cases h
        have hc : isBrace c = false := by simpa using fun h => hc (.inl h)
        exact .ofNeutral hc rfl rfl

theorem foldlM_counts {text : List Char} (h : text.foldlM step s = some s') : Counts s text s' := by
  induction text generalizing s with
  | nil =>
      cases h
      exact ⟨rfl, rfl, id⟩
  | cons c text ih =>
      rw [List.foldlM_cons, Option.bind_eq_bind, Option.bind_eq_some_iff] at h
      obtain ⟨s₁, hstep, hrest⟩ := h
      exact (step_counts hstep).trans (ih hrest)

end Scan

/-- The braces of a style sheet that passes the scan are those of its rules. -/
theorem rules?_flat {css : String} {n : Nat} (h : rules? css = some n) :
    Flat css ∧ css.toList.count '{' = n := by
  unfold rules? at h
  split at h
  · next m hrun =>
      cases h
      have hcounts := Scan.foldlM_counts hrun
      have hopened := hcounts.opened
      have hrules := hcounts.rules
      simp only [Scan.openBlocks, List.count_nil, Nat.zero_add] at hopened hrules
      refine ⟨⟨hopened.symm, ?_⟩, hopened.symm.trans hrules.symm⟩
      rintro part ⟨rest, hpart⟩
      -- the scan has read the part before it read the whole
      rw [Scan.run, ← hpart, List.foldlM_append, Option.bind_eq_bind,
        Option.bind_eq_some_iff] at hrun
      obtain ⟨s, hs, -⟩ := hrun
      have hcounts := Scan.foldlM_counts hs
      have hopened := hcounts.opened
      have hopen := hcounts.open_le (by simp [Scan.openBlocks])
      simp only [Scan.openBlocks, List.count_nil, Nat.zero_add] at hopened hopen
      omega
  · cases h

open Text (braced) in
example : ["a " ++ braced "" ++ " b[c=\"(\"] " ++ braced "d: e(f)" ++ "/*]*/",
    "a " ++ braced ("b " ++ braced ""), "a(" ++ braced "" ++ ")",
    "/* " ++ Text.rightBrace ++ " */", "a " ++ braced "" ++ "/*"].map rules? =
      [some 2, none, none, none, none] := by decide +kernel

/-! ### Pieces of a style sheet -/

namespace Scan

/-- A scan that has seen `k` more rules. -/
def later (k : Nat) (s : Scan) : Scan := { s with rules := s.rules + k }

theorem close_later (k : Nat) (s : Scan) (c : Char) :
    (s.later k).close c = (s.close c).map (later k) := by
  unfold close later
  cases s.due with
  | nil => rfl
  | cons d due =>
      simp only
      split
      · simp only [Option.map_some]
        split
        · simp only [Option.some.injEq, mk.injEq, true_and]
          omega
        · rfl
      · rfl

theorem read_later (k : Nat) (s : Scan) (c : Char) :
    (s.later k).read c = (s.read c).map (later k) := by
  unfold read
  split
  · rfl
  · rfl
  · rfl
  · rfl
  · rfl
  · rfl
  · show (if s.due = [] then _ else _) = _
    split <;> rfl
  · exact close_later k s _
  · exact close_later k s _
  · exact close_later k s _
  · rfl

/-- The rules seen so far do not matter for the scan. -/
theorem step_later (k : Nat) (s : Scan) (c : Char) :
    (s.later k).step c = (s.step c).map (later k) := by
  obtain ⟨place, due, rules⟩ := s
  cases place with
  | plain => exact read_later k _ c
  | slash =>
      simp only [step, later]
      split
      · rfl
      · exact read_later k ⟨.plain, due, rules⟩ c
  | comment =>
      simp only [step, later]
      split <;> rfl
  | star =>
      simp only [step, later]
      split
      · rfl
      · split <;> rfl
  | quoted q =>
      simp only [step, later]
      split <;> rfl

/-- Characters that change nothing. -/
theorem foldlM_fixed {cs : List Char} (h : ∀ c ∈ cs, s.step c = some s) :
    cs.foldlM step s = some s := by
  induction cs with
  | nil => rfl
  | cons c cs ih =>
      obtain ⟨hc, hcs⟩ := List.forall_mem_cons.mp h
      rw [List.foldlM_cons, hc]
      exact ih hcs

theorem run_later (k : Nat) (s : Scan) (text : String) :
    (s.later k).run text = (s.run text).map (later k) := by
  unfold run
  induction text.toList generalizing s with
  | nil => rfl
  | cons c cs ih =>
      rw [List.foldlM_cons, List.foldlM_cons, step_later]
      cases s.step c with
      | none => rfl
      | some s' => exact ih s'

end Scan

/-- The text starts and ends outside comments and strings, takes the closing marks that are due from
`due` to `due'`, and closes `k` rules. -/
def Moves (due : List Char) (text : String) (due' : List Char) (k : Nat) : Prop :=
  Scan.run ⟨.plain, due, 0⟩ text = some ⟨.plain, due', k⟩

instance (due : List Char) (text : String) (due' : List Char) (k : Nat) :
    Decidable (Moves due text due' k) :=
  inferInstanceAs (Decidable (_ = _))

namespace Moves

variable {due due₁ due' : List Char} {text text' : String} {k k' : Nat}

theorem append (h : Moves due text due₁ k) (h' : Moves due₁ text' due' k') :
    Moves due (text ++ text') due' (k' + k) := by
  unfold Moves at h h'
  have hlater := Scan.run_later k ⟨.plain, due₁, 0⟩ text'
  rw [h', Option.map_some] at hlater
  unfold Scan.run at h hlater
  unfold Moves Scan.run
  rw [String.toList_append, List.foldlM_append, h]
  simpa [Scan.later] using hlater

theorem nil : Moves due "" due 0 := rfl

/-- A text that is spelled out. -/
theorem ofChars {cs : List Char}
    (h : cs.foldlM Scan.step ⟨.plain, due, 0⟩ = some ⟨.plain, due', k⟩) :
    Moves due (String.ofList cs) due' k := by
  unfold Moves Scan.run
  rwa [String.toList_ofList]

theorem inert (h : IsInert text) : Moves due text due 0 := by
  refine Scan.foldlM_fixed fun c hc => ?_
  show Scan.read _ c = _
  unfold Scan.read
  split
  all_goals try exact absurd (h _ hc) (by decide)
  rfl

/-- An inert text in quotation marks. -/
theorem quoted (h : IsInert text) : Moves due ("\"" ++ text ++ "\"") due 0 := by
  have hinside : text.toList.foldlM Scan.step ⟨.quoted '"', due, 0⟩ =
      some ⟨.quoted '"', due, 0⟩ := by
    refine Scan.foldlM_fixed fun c hc => ?_
    have hne : ∀ d, isInert d = false → c ≠ d := fun d => ne_of_isInert (h c hc)
    simp [Scan.step, isBrace, hne '{' rfl, hne '}' rfl, hne '\\' rfl, hne '\n' rfl,
      hne '"' rfl]
  have hopen : "\"".toList.foldlM Scan.step ⟨.plain, due, 0⟩ = some ⟨.quoted '"', due, 0⟩ := rfl
  have hclose : "\"".toList.foldlM Scan.step ⟨.quoted '"', due, 0⟩ = some ⟨.plain, due, 0⟩ := rfl
  unfold Moves Scan.run
  rw [String.toList_append, String.toList_append, List.foldlM_append, List.foldlM_append]
  simp only [hopen, hinside, hclose, Option.bind_eq_bind, Option.bind_some]

theorem newline : Moves due "\n" due 0 := .ofChars rfl

/-- Lines that leave the closing marks as they are. -/
theorem below {lines : List String} (h : ∀ line ∈ lines, Moves due line due 0) :
    Moves due (Text.below lines) due 0 := by
  induction lines with
  | nil => rfl
  | cons line lines ih =>
      obtain ⟨hline, hlines⟩ := List.forall_mem_cons.mp h
      rw [Text.below_cons]
      exact (newline.append hline).append (ih hlines)

theorem intercalate {separator : String} {parts : List String} (hs : Moves due separator due 0)
    (h : ∀ part ∈ parts, Moves due part due 0) : Moves due (separator.intercalate parts) due 0 := by
  induction parts with
  | nil => rfl
  | cons part parts ih =>
      obtain ⟨hpart, hparts⟩ := List.forall_mem_cons.mp h
      cases parts with
      | nil => rwa [String.intercalate_singleton]
      | cons next parts =>
          rw [String.intercalate_cons_cons]
          exact (hpart.append hs).append (ih hparts)

end Moves

end Css

namespace Stylesheet

open Css

/-! ### The rules of a model -/

/-- A rule whose block is level. -/
theorem moves_rule {selector : String} {block : List String} (hselector : Moves [] selector [] 0)
    (hblock : Moves ['}'] (Text.below block) ['}'] 0) :
    Moves [] (Text.below (rule selector block)) [] 1 := by
  have hopen : Moves [] (" " ++ Text.leftBrace) ['}'] 0 := by decide +kernel
  have hclose : Moves ['}'] ("\n" ++ Text.rightBrace ++ "\n") [] 1 := by decide +kernel
  have htext : Text.below (rule selector block) =
      "\n" ++ (selector ++ (" " ++ Text.leftBrace)) ++ Text.below block ++
        ("\n" ++ Text.rightBrace ++ "\n") := by
    simp [rule, String.append_assoc]
  rw [htext]
  exact ((Moves.newline.append (hselector.append hopen)).append hblock).append hclose

theorem moves_value {due : List Char} {front back : String} (hfront : Moves due front due 0)
    (x : Float) (hback : Moves due back due 0) :
    Moves due (front ++ Number.compact x ++ back) due 0 :=
  (hfront.append (.inert (.compact x))).append hback

theorem moves_drawingRule (m : Model) : Moves [] (Text.below (drawingRule m)) [] 1 := by
  refine moves_rule (.ofChars (by decide)) (.below ?_)
  simp only [List.forall_mem_cons, List.not_mem_nil, IsEmpty.forall_iff, implies_true, and_true]
  refine ⟨?_, ?scale, ?cols, ?rows, ?_⟩
  case scale => exact moves_value (.ofChars (by decide)) m.scale (.ofChars (by decide))
  case cols => exact moves_value (.ofChars (by decide)) m.canvas.cols (.ofChars (by decide))
  case rows => exact moves_value (.ofChars (by decide)) m.canvas.rows (.ofChars (by decide))
  all_goals and_intros
  all_goals exact .ofChars (by decide +kernel)

/-- The rules that are the same in all style sheets. -/
theorem moves_fixedRules : Moves [] (Text.below (roomRules ++ wallRule ++ doorRule)) [] 6 := by
  have hroom : Moves [] ".room" [] 0 := .ofChars (by decide)
  have hwindow : Moves [] windowSelector [] 0 := by decide +kernel
  have hafter : Moves [] "::after" [] 0 := .ofChars (by decide)
  have hlabel : Moves [] ".room::after" [] 0 := .ofChars (by decide)
  have hwall : Moves [] ".wall" [] 0 := .ofChars (by decide)
  have hdoor : Moves [] ".door" [] 0 := .ofChars (by decide)
  simp only [roomRules, Text.below_append]
  refine (((((moves_rule hroom (.below ?_)).append (moves_rule hwindow (.below ?_))).append
    (moves_rule hlabel (.below ?_))).append (moves_rule (hwindow.append hafter) (.below ?_))).append
    (moves_rule hwall (.below ?_))).append (moves_rule hdoor (.below ?_))
  all_goals
    simp only [List.forall_mem_cons, List.not_mem_nil, IsEmpty.forall_iff, implies_true, and_true]
    and_intros
  all_goals exact .ofChars (by decide +kernel)

/-! ### The rule of a grid -/

section

variable {due : List Char}

theorem moves_gridSelector {mode : String} (h : IsInert mode) :
    Moves [] (gridSelector mode) [] 0 := by
  have hmodes : ∀ m ∈ gridModes mode, IsInert m := by
    have hgrid : IsInert "grid" := .ofAll (by decide)
    have hlines : IsInert "lines" := .ofAll (by decide)
    simp only [gridModes, List.foldl_cons, List.foldl_nil]
    split_ifs <;> simp [h, hgrid, hlines]
  refine .intercalate (.ofChars rfl) ?_
  intro part hpart
  obtain ⟨m, hm, rfl⟩ := List.mem_map.mp hpart
  have hfront : ".draw[data-grid=\"" = ".draw[data-grid=" ++ "\"" := by decide
  have hback : "\"]" = "\"" ++ "]" := by decide
  have htext : ".draw[data-grid=\"" ++ m ++ "\"]" =
      ".draw[data-grid=" ++ ("\"" ++ m ++ "\"") ++ "]" := by
    rw [hfront, hback]
    simp only [String.append_assoc]
  have hopen : Moves [] ".draw[data-grid=" [']'] 0 := .ofChars rfl
  have hclose : Moves [']'] "]" [] 0 := .ofChars rfl
  rw [htext]
  exact (hopen.append (.quoted (hmodes m hm))).append hclose

theorem moves_translucent {color : String} (h : IsInert color) (alpha : Number.Amount) :
    Moves due (translucent color alpha) due 0 := by
  have hcomma : ∀ {due}, Moves due ", " due 0 := .ofChars rfl
  unfold translucent
  split
  · next ds _ =>
      split
      · next six _ =>
          have hchannel : ∀ {due} (i : Nat), Moves due (channelAt six i) due 0 :=
            fun i => .inert (.integerText _)
          have hopen : Moves due "rgba(" (')' :: due) 0 := .ofChars rfl
          have hclose : Moves (')' :: due) ")" due 0 := .ofChars rfl
          exact (((((((hopen.append (hchannel 0)).append hcomma).append (hchannel 2)).append
            hcomma).append (hchannel 4)).append hcomma).append (.inert (.amount alpha))).append
              hclose
      · exact .inert h
  · have hopen : Moves due "color-mix(in srgb, " (')' :: due) 0 := .ofChars rfl
    have hclose : Moves (')' :: due) "%, transparent)" due 0 := .ofChars rfl
    have hblank : Moves (')' :: due) " " (')' :: due) 0 := .ofChars rfl
    exact (((hopen.append (.inert h)).append hblank).append (.inert (.amount alpha.percent))).append
      hclose

theorem moves_gridLines {margin direction stop : String} (hmargin : ∀ {due}, Moves due margin due 0)
    (hdirection : IsInert direction) (hstop : Moves due stop due 0) (size : Float) :
    Moves due (Text.below (gridLines margin direction stop (Number.compact size))) due 0 := by
  refine .below ?_
  simp only [gridLines, List.forall_mem_cons, List.not_mem_nil, IsEmpty.forall_iff, implies_true,
    and_true]
  refine ⟨?_, ?_, ?_⟩
  · have hto : Moves due "  to " due 0 := .ofChars rfl
    have hcomma : Moves due "," due 0 := .ofChars rfl
    exact ((hmargin.append hto).append (.inert hdirection)).append hcomma
  · have hblank : Moves due "  " due 0 := .ofChars rfl
    have hend : Moves due " 0 1px," due 0 := .ofChars rfl
    exact ((hmargin.append hblank).append hstop).append hend
  · have hopen : Moves due "  transparent 1px calc(var(--u) * " (')' :: due) 0 := .ofChars rfl
    have hclose : Moves (')' :: due) ")" due 0 := .ofChars rfl
    exact ((hmargin.append hopen).append (.inert (.compact size))).append hclose

/-- The lines of one direction between those that open and close their bracket. -/
theorem moves_gradient {opening closing margin direction stop : String}
    (hopen : Moves due opening (')' :: due) 0) (hclose : Moves (')' :: due) closing due 0)
    (hmargin : ∀ {due}, Moves due margin due 0) (hdirection : IsInert direction)
    (hstop : ∀ {due}, Moves due stop due 0) (size : Float) :
    Moves due (Text.below
      (opening :: gridLines margin direction stop (Number.compact size) ++ [closing])) due 0 := by
  have hlines : Moves (')' :: due) (Text.below
      (gridLines margin direction stop (Number.compact size))) (')' :: due) 0 :=
    moves_gridLines hmargin hdirection hstop size
  have hlast : Moves (')' :: due) (Text.below [closing]) due 0 := by
    rw [Text.below_cons]
    exact (Moves.newline.append hclose).append .nil
  rw [List.cons_append, Text.below_cons, Text.below_append]
  exact (Moves.newline.append hopen).append (hlines.append hlast)

theorem moves_gridBlock {g : Model.Grid} (h : IsInert (gridColor g)) :
    Moves ['}'] (Text.below (gridBlock g)) ['}'] 0 := by
  have hstop : ∀ {due}, Moves due (translucent (gridColor g) (.real (gridAlpha g))) due 0 :=
    moves_translucent h _
  have hnarrow : ∀ {due}, Moves due "  " due 0 := .ofChars rfl
  have hwide : ∀ {due}, Moves due "    " due 0 := .ofChars rfl
  have hright : IsInert "right" := .ofAll (by decide)
  have hbottom : IsInert "bottom" := .ofAll (by decide)
  have hline : Moves ['}'] "  background-image: repeating-linear-gradient(" [')', '}'] 0 :=
    .ofChars (by decide +kernel)
  have hend : Moves [')', '}'] "  );" ['}'] 0 := .ofChars (by decide)
  unfold gridBlock
  simp only
  split
  · refine .below ?_
    simp only [List.forall_mem_cons, List.not_mem_nil, IsEmpty.forall_iff, implies_true, and_true]
    constructor
    · have hopen : Moves ['}'] "  background-image: radial-gradient(circle at center, "
          [')', '}'] 0 := .ofChars (by decide +kernel)
      have hclose : Moves [')', '}'] " 1px, transparent 1px);" ['}'] 0 :=
        .ofChars (by decide +kernel)
      exact (hopen.append hstop).append hclose
    · have hopen : Moves ['}'] "  background-size: calc(var(--u) * " [')', '}'] 0 :=
        .ofChars (by decide +kernel)
      have hnext : Moves [')', '}'] ") calc(var(--u) * " [')', '}'] 0 :=
        .ofChars (by decide +kernel)
      have hclose : Moves [')', '}'] ");" ['}'] 0 := .ofChars (by decide)
      exact (((hopen.append (.inert (.compact g.sx))).append hnext).append
        (.inert (.compact g.sy))).append hclose
  split
  · exact moves_gradient hline hend hnarrow hright hstop g.sx
  split
  · exact moves_gradient hline hend hnarrow hbottom hstop g.sy
  · have hhead : Moves ['}'] "  background-image:" ['}'] 0 := .ofChars (by decide +kernel)
    have hopen : Moves ['}'] "    repeating-linear-gradient(" [')', '}'] 0 :=
      .ofChars (by decide +kernel)
    have hcomma : Moves [')', '}'] "    )," ['}'] 0 := .ofChars (by decide)
    have hclose : Moves [')', '}'] "    );" ['}'] 0 := .ofChars (by decide)
    have hfirst := moves_gradient hopen hcomma hwide hright hstop g.sx
    have hsecond := moves_gradient hopen hclose hwide hbottom hstop g.sy
    have hblock := (Moves.newline.append hhead).append (hfirst.append hsecond)
    rw [← Text.below_append, ← Text.below_cons] at hblock
    simpa using hblock

theorem moves_gridRule {m : Model} (h : ∀ g ∈ m.grids, IsGridStyle g.mode g.color) :
    Moves [] (Text.below (gridRule m)) [] (if m.grids.isEmpty then 0 else 1) := by
  unfold gridRule
  cases hgrids : m.grids with
  | nil => exact .nil
  | cons g gs =>
      have hg := h g (by simp [hgrids])
      exact moves_rule (moves_gridSelector hg.inert_mode) (moves_gridBlock hg.inert)

end

/-- The style sheet of a model has seven rules, and one more for a grid. -/
theorem rules?_render {m : Model} (h : ∀ g ∈ m.grids, IsGridStyle g.mode g.color) :
    rules? (render m) = some (if m.grids.isEmpty then 7 else 8) := by
  have hhead : Moves [] "/* Generated by floorplan-compiler */\n" [] 0 :=
    .ofChars (by decide +kernel)
  have htext : render m = "/* Generated by floorplan-compiler */\n" ++
      (Text.below (drawingRule m) ++ (Text.below (gridRule m) ++
        Text.below (roomRules ++ wallRule ++ doorRule))) := by
    simp [render, lines, Text.intercalate_cons]
  have hmoves := hhead.append ((moves_drawingRule m).append
    ((moves_gridRule h).append moves_fixedRules))
  rw [← htext] at hmoves
  unfold rules?
  rw [hmoves]
  cases m.grids <;> rfl

end Stylesheet

end FloorPlan
