import FloorPlan.Proofs.Drawing.Spans

/-! # Calls of the parser

Every step of the grammar can be called on its own, where earlier calls have left the parser.  A
call goes forward among the same tokens and faults only at a number that cannot be read
(`Call.forward`), so this holds after any sequence of calls (`afterCalls_advance`).

Calls end because the loops in them do.  `Loop` is a loop without a bound on its turns, as a
relation; each loop of the grammar is such a loop, and it makes at most one turn for each token
ahead (`loopsEnd`).  So the check in `Parse.many` for a turn that takes no token never decides
anything. -/

namespace FloorPlan

/-! ### Loops -/

/-- The loop that repeats `turn` until `stop` holds: started with `x` in state `s`, it ends with
the result `r` after `n` turns. -/
inductive Loop {σ : Type} (stop : σ → Parser → Bool) (turn : σ → Parse σ) :
    Nat → σ → Parser → EStateM.Result Fault Parser σ → Prop where
  | stop {x s} : stop x s = true → Loop stop turn 0 x s (.ok x s)
  | fault {x s f s'} : stop x s = false → turn x s = .error f s' →
      Loop stop turn 1 x s (.error f s')
  | turn {n x s y s' r} : stop x s = false → turn x s = .ok y s' → Loop stop turn n y s' r →
      Loop stop turn (n + 1) x s r

/-- The loop ends with the result `r`, after at most one turn for each token ahead. -/
def LoopEnds {σ : Type} (stop : σ → Parser → Bool) (turn : σ → Parse σ) (x : σ) (s : Parser)
    (r : EStateM.Result Fault Parser σ) : Prop :=
  ∃ n, n ≤ s.rest.length ∧ Loop stop turn n x s r

section

variable {σ : Type} {stop : σ → Parser → Bool} {turn : σ → Parse σ} {x y : σ} {s s' : Parser}
variable {r : EStateM.Result Fault Parser σ} {f : Fault}

theorem LoopEnds.done (h : stop x s = true) : LoopEnds stop turn x s (.ok x s) :=
  ⟨0, Nat.zero_le _, .stop h⟩

theorem LoopEnds.broken (h : stop x s = false) (hr : s.rest ≠ []) (hturn : turn x s = .error f s') :
    LoopEnds stop turn x s (.error f s') :=
  ⟨1, List.length_pos_iff.mpr hr, .fault h hturn⟩

theorem LoopEnds.next (h : stop x s = false) (hturn : turn x s = .ok y s')
    (hlt : s'.rest.length < s.rest.length) (hrest : LoopEnds stop turn y s' r) :
    LoopEnds stop turn x s r := by
  obtain ⟨n, hn, hloop⟩ := hrest
  exact ⟨n + 1, by omega, .turn h hturn hloop⟩

end

/-! ### Steps that take the token ahead -/

/-- The step only goes forward, and it takes the token ahead. -/
structure Takes {α : Type} (p : Parse α) : Prop extends Forward p where
  opens : ∀ {s a s'}, s.shift = 0 → p s = .ok a s' → (s.move 1).Advance s'

namespace Takes

variable {α β : Type} {k l : Kind} {ks : List Kind}

theorem ofStatement {Q : Span → α → Prop} {p : Parse α} (h : Statement Q p) : Takes p :=
  ⟨h.toForward, h.opens⟩

theorem statement {p : Parse α} (h : Takes p) : Statement (fun _ _ => True) p :=
  ⟨h.toForward, h.opens, fun _ _ => trivial⟩

theorem dropped {q : Unit → Parse β} (hq : Forward (q ())) :
    Takes (discard Parse.take >>= q) :=
  ⟨.bind (.discard forward_take) fun _ => hq, fun {s _ _} hs h => hq.ok (s := s.move 1) hs h⟩

/-- A complaint leaves the token ahead, which it may show. -/
theorem complained {text : Parser → String} {hint : Option String} {q : Parse β} (hq : Takes q) :
    Takes (do Parse.complain (text (← get)) hint; q) := by
  refine ⟨.bind .get fun _ => .bind forward_complain fun _ => hq.toForward, fun {s b s'} hs h => ?_⟩
  have hopens := hq.opens (s := s.report (.error .grammar (text s) s.current.span hint)) hs h
  exact (Parser.Advance.report (s.move 1) _).trans hopens

/-- A token may be taken only to tell what comes next. -/
theorem accepts {q : Bool → Parse β} (htrue : Forward (q true)) (hfalse : Takes (q false)) :
    Takes (Parse.accepts ks >>= q) := by
  refine ⟨.bind forward_accepts fun b => ?_, fun {s b s'} hs h => ?_⟩
  · cases b with
    | true => exact htrue
    | false => exact hfalse.toForward
  · by_cases hk : nextKind s.rest ∈ ks
    · rw [Parse.bind_ok (Parse.accepts_true hk)] at h
      exact htrue.ok (s := s.move 1) hs h
    · rw [Parse.bind_ok (Parse.accepts_false hk)] at h
      exact hfalse.opens hs h

theorem acceptsBefore {q : Bool → Parse β} (htrue : Forward (q true)) (hfalse : Takes (q false)) :
    Takes (Parse.acceptsBefore k l >>= q) := by
  have hq : ∀ b, Forward (q b) := by
    intro b
    cases b with
    | true => exact htrue
    | false => exact hfalse.toForward
  refine ⟨.bind forward_acceptsBefore hq, fun {s b s'} hs h => ?_⟩
  by_cases hk : nextKind s.rest = k
  · rw [Parse.bind_ok (Parse.acceptsBefore_some hk)] at h
    exact (hq _).ok (s := s.move 1) hs h
  · rw [Parse.bind_ok (Parse.acceptsBefore_none hk)] at h
    exact hfalse.opens hs h

theorem identifier? {q : Option String → Parse β} (hsome : ∀ name, Forward (q (some name)))
    (hnone : Takes (q none)) : Takes (Parse.identifier? >>= q) := by
  refine ⟨.bind forward_identifier? fun o => ?_, fun {s b s'} hs h => ?_⟩
  · cases o with
    | some name => exact hsome name
    | none => exact hnone.toForward
  · by_cases hk : nextKind s.rest = .identifier
    · rw [Parse.bind_ok (Parse.identifier?_some hk)] at h
      exact (hsome _).ok (s := s.move 1) hs h
    · rw [Parse.bind_ok (Parse.identifier?_none hk)] at h
      exact hnone.opens hs h

end Takes

theorem takes_property : Takes Parse.property :=
  .accepts
    (.bind forward_skip fun _ => .bind forward_expect fun _ => .bind forward_skip fun _ => .pure _)
    (.identifier?
      (fun _ => .bind forward_skip fun _ => .bind forward_takeWhile fun _ =>
        .bind (.discard forward_accept?) fun _ => .pure _)
      (.complained (.dropped (.pure _))))

theorem takes_placementOption : Takes Parse.placementOption :=
  .acceptsBefore (.bind forward_coordinate fun _ => .pure _)
    (.acceptsBefore (.bind forward_measure fun _ => .pure _)
      (.acceptsBefore (.bind forward_measure fun _ => .pure _) (.dropped (.pure _))))

/-! ### The loops of the grammar -/

/-- The loop of `Parse.many`, without its check. -/
def manyTurn {α : Type} (item : Parse (Option α)) (as : List α) : Parse (List α) := do
  return as ++ (← item).toList

/-- A result with items put in front. -/
def prepended {α : Type} (as : List α) :
    EStateM.Result Fault Parser (List α) → EStateM.Result Fault Parser (List α)
  | .ok as' s => .ok (as ++ as') s
  | .error f s => .error f s

theorem prepended_nil {α : Type} (r : EStateM.Result Fault Parser (List α)) :
    prepended [] r = r := by
  cases r <;> rfl

theorem Takes.loopEnds_prepended {α : Type} {item : Parse (Option α)} {stops : List Kind}
    (hitem : Takes item) (hend : .endOfInput ∈ stops) {s : Parser} (hs : s.shift = 0)
    (as : List α) : LoopEnds (fun _ s => s.sees stops) (manyTurn item) as s
      (prepended as (Parse.many stops item s)) := by
  -- by induction on the tokens ahead
  generalize hm : s.rest.length = m
  induction m using Nat.strongRecOn generalizing s as with
  | ind m ih =>
      rw [Parse.many]
      split
      · next hsees =>
          rw [prepended, List.append_nil]
          exact .done hsees
      · next hsees =>
          have hr : s.rest ≠ [] := by
            intro hr
            apply hsees
            rw [Parser.sees_iff, hr]
            exact hend
          have hstop : s.sees stops = false := by simpa using hsees
          cases hp : item s with
          | error f t =>
              have hturn : manyTurn item as s = .error f t := Parse.bind_eq_error.mpr (.inl hp)
              exact .broken hstop hr hturn
          | ok o t =>
              have hturn : manyTurn item as s = .ok (as ++ o.toList) t := Parse.bind_ok hp
              have hlt := (hitem.opens hs hp).length_lt hr
              have hrest := ih _ (by omega) ((hitem.ok hs hp).shift hs) (as ++ o.toList) rfl
              refine .next hstop hturn hlt ?_
              simp only [if_pos hlt]
              cases hmany : Parse.many stops item t with
              | error f u => simpa [hmany, prepended] using hrest
              | ok as' u => simpa [hmany, prepended] using hrest

/-- Repetition ends: its items take tokens, and the end of the tokens stops it. -/
theorem Takes.loopEnds_many {α : Type} {item : Parse (Option α)} (hitem : Takes item)
    (stops : List Kind) (hend : .endOfInput ∈ stops) {s : Parser} (hs : s.shift = 0) :
    LoopEnds (fun _ s => s.sees stops) (manyTurn item) [] s (Parse.many stops item s) := by
  have h := hitem.loopEnds_prepended hend hs []
  rwa [prepended_nil] at h

/-- The loop of `Parse.takeWhile`. -/
def takeTurn (ts : List Token) : Parse (List Token) := do
  return ts ++ [← Parse.take]

theorem loopEnds_takeWhile_prepended {c : Token → Bool} {s : Parser} (hc : c s.ending = false)
    (ts : List Token) : LoopEnds (fun _ s => !c s.current) takeTurn ts s
      (prepended ts (Parse.takeWhile c s)) := by
  generalize hr : s.rest = us
  induction us generalizing s ts with
  | nil =>
      have hstop : c s.current = false := by simpa [Parser.current, hr] using hc
      rw [Parse.takeWhile_run, hr]
      simp only [List.takeWhile_nil, List.length_nil, Parser.move_zero, prepended, List.append_nil]
      exact .done (by simp [hstop])
  | cons u us ih =>
      have hcur := Parser.current_of_rest hr
      rw [Parse.takeWhile_run, hr]
      cases hu : c u with
      | false =>
          simp only [List.takeWhile_cons, hu, Bool.false_eq_true, if_false, List.length_nil,
            Parser.move_zero, prepended, List.append_nil]
          exact .done (by simp [hcur, hu])
      | true =>
          have hturn : takeTurn ts s = .ok (ts ++ [u]) (s.move 1) := by
            rw [← hcur]
            rfl
          have hrest := ih (s := s.move 1) hc (ts ++ [u]) (by simp [hr])
          rw [Parse.takeWhile_run, Parser.move_rest, hr, List.drop_one, List.tail_cons,
            Parser.move_move, Nat.add_comm] at hrest
          refine .next (by simp [hcur, hu]) hturn (by simp [hr]) ?_
          simpa [List.takeWhile_cons, hu, prepended] using hrest

theorem loopEnds_takeWhile (c : Token → Bool) {s : Parser} (hc : c s.ending = false) :
    LoopEnds (fun _ s => !c s.current) takeTurn [] s (Parse.takeWhile c s) := by
  have h := loopEnds_takeWhile_prepended hc []
  rwa [prepended_nil] at h

/-- Whether a token of kind `k` is where a statement ends, inside `depth` open braces. -/
def endsStatement (depth : Nat) (k : Kind) : Bool :=
  match k with
  | .endOfInput | .atDraw => true
  | .semicolon | .rightBrace => depth = 0
  | _ => false

/-- The number of open braces after a token of a statement. -/
def depthAfter (depth : Nat) (k : Kind) : Nat :=
  match k with
  | .leftBrace => depth + 1
  | .rightBrace => depth - 1
  | _ => depth

theorem statementWidth_cons (depth : Nat) (t : Token) (ts : List Token) :
    Parse.statementWidth depth (t :: ts) = if endsStatement depth t.kind then 0
      else 1 + Parse.statementWidth (depthAfter depth t.kind) ts := by
  rw [Parse.statementWidth]
  unfold endsStatement depthAfter
  cases t.kind <;> simp

/-- The loop of `Parse.skipStatement`. -/
def statementTurn (depth : Nat) : Parse Nat := do
  return depthAfter depth (← Parse.take).kind

theorem loopEnds_statement (s : Parser) (depth : Nat) : ∃ depth',
    LoopEnds (fun depth s => endsStatement depth s.current.kind) statementTurn depth s
      (.ok depth' (s.move (Parse.statementWidth depth s.rest))) := by
  generalize hr : s.rest = us
  induction us generalizing s depth with
  | nil =>
      have hstop : endsStatement depth s.current.kind = true := by
        rw [Parser.current_kind, hr]
        rfl
      exact ⟨depth, .done hstop⟩
  | cons u us ih =>
      have hcur := Parser.current_of_rest hr
      rw [statementWidth_cons]
      split
      · next hstop =>
          rw [← hcur] at hstop
          exact ⟨depth, .done hstop⟩
      · next hstop =>
          rw [← hcur] at hstop ⊢
          obtain ⟨depth', hrest⟩ := ih (s.move 1) (depthAfter depth s.current.kind) (by simp [hr])
          rw [Parser.move_move] at hrest
          exact ⟨depth', .next (by simpa using hstop) rfl (by simp [hr]) hrest⟩

/-- Every loop of the grammar ends in state `s`, with the result that the grammar's own steps
give. -/
structure Parser.LoopsEnd (s : Parser) : Prop where
  top : LoopEnds (fun _ s => s.sees [.atDraw, .endOfInput]) (manyTurn Parse.topItem) [] s
    (Parse.many [.atDraw, .endOfInput] Parse.topItem s)
  body : LoopEnds (fun _ s => s.sees [.rightBrace, .endOfInput]) (manyTurn Parse.bodyItem) [] s
    (Parse.many [.rightBrace, .endOfInput] Parse.bodyItem s)
  properties : LoopEnds (fun _ s => s.sees [.rightBrace, .endOfInput]) (manyTurn Parse.property)
    [] s (Parse.many [.rightBrace, .endOfInput] Parse.property s)
  options : LoopEnds (fun _ s => s.sees [.semicolon, .rightBrace, .endOfInput])
    (manyTurn Parse.placementOption) [] s
    (Parse.many [.semicolon, .rightBrace, .endOfInput] Parse.placementOption s)
  value : LoopEnds (fun _ s => s.sees Parse.valueEnds) takeTurn [] s
    (Parse.takeWhile (fun t => !(Parse.valueEnds.contains t.kind)) s)
  color : LoopEnds (fun _ s => !s.sees [.number, .identifier]) takeTurn [] s
    (Parse.takeWhile (fun t => [Kind.number, .identifier].contains t.kind) s)
  statement : ∃ depth, LoopEnds (fun depth s => endsStatement depth s.current.kind) statementTurn
    0 s (.ok depth (s.move (Parse.statementWidth 0 s.rest)))

theorem Parser.loopsEnd {s : Parser} (hs : s.shift = 0) : s.LoopsEnd where
  top := (Takes.ofStatement statement_topItem).loopEnds_many _ (by simp) hs
  body := (Takes.ofStatement statement_bodyItem).loopEnds_many _ (by simp) hs
  properties := takes_property.loopEnds_many _ (by simp) hs
  options := takes_placementOption.loopEnds_many _ (by simp) hs
  value := by
    have h := loopEnds_takeWhile (fun t => !(Parse.valueEnds.contains t.kind)) (s := s)
      (by simp [s.ending_kind, Parse.valueEnds])
    simpa [Parser.sees] using h
  color := by
    have h := loopEnds_takeWhile (fun t => [Kind.number, .identifier].contains t.kind) (s := s)
      (by simp [s.ending_kind])
    simpa [Parser.sees] using h
  statement := loopEnds_statement s 0

/-! ### Calls -/

/-- A call of the parser. -/
inductive Call where
  | take
  | accept (ks : List Kind)
  | expect (k : Kind)
  | measure | coordinate | skipStatement
  | unitDecl | importDecl | exportDecl
  | canvas | room | wall | door | copies | grid | placement
  | drawing

namespace Call

/-- The step that is called. -/
def run : Call → Parse Unit
  | take => discard Parse.take
  | accept ks => discard (Parse.accept? ks)
  | expect k => discard (Parse.expect k)
  | measure => discard Parse.measure
  | coordinate => discard Parse.coordinate
  | skipStatement => Parse.skipStatement
  | unitDecl => discard Parse.unitDecl
  | importDecl => discard Parse.importDecl
  | exportDecl => discard Parse.exportDecl
  | canvas => discard Parse.canvas
  | room => discard Parse.room
  | wall => discard Parse.wall
  | door => discard Parse.door
  | copies => discard Parse.copies
  | grid => discard Parse.grid
  | placement => discard Parse.placement
  | drawing => discard Parse.drawing

/-- The parser after a call, also after one that faults. -/
def after (c : Call) (s : Parser) : Parser :=
  match c.run s with
  | .ok _ s' => s'
  | .error _ s' => s'

theorem forward : ∀ c : Call, Forward c.run
  | take => .discard forward_take
  | accept _ => .discard forward_accept?
  | expect _ => .discard forward_expect
  | measure => .discard forward_measure
  | coordinate => .discard forward_coordinate
  | skipStatement => forward_skipStatement
  | unitDecl => .discard (Statement.toForward statement_unitDecl)
  | importDecl => .discard (Statement.toForward statement_importDecl)
  | exportDecl => .discard (Statement.toForward statement_exportDecl)
  | canvas => .discard forward_canvas
  | room => .discard (Statement.toForward statement_room)
  | wall => .discard (Statement.toForward statement_wall)
  | door => .discard (Statement.toForward statement_door)
  | copies => .discard (Statement.toForward statement_copies)
  | grid => .discard (Statement.toForward statement_grid)
  | placement => .discard (Statement.toForward statement_placement)
  | drawing => .discard forward_drawing

theorem after_advance (c : Call) {s : Parser} (hs : s.shift = 0) : s.Advance (c.after s) := by
  unfold after
  cases h : c.run s with
  | ok a s' => exact c.forward.ok hs h
  | error f s' => exact (c.forward.error hs h).1

end Call

/-- The parser after a sequence of calls. -/
def Parser.afterCalls (s : Parser) (calls : List Call) : Parser :=
  calls.foldl (fun s c => c.after s) s

theorem Parser.afterCalls_advance {s : Parser} (hs : s.shift = 0) (calls : List Call) :
    s.Advance (s.afterCalls calls) := by
  unfold afterCalls
  induction calls generalizing s with
  | nil => exact .refl s
  | cons c calls ih =>
      have hc := c.after_advance hs
      exact hc.trans (ih (hc.shift hs))

/-! ### Positions -/

namespace Parser

/-- A fresh parser has taken no token and found no problem. -/
theorem ofTokens_start (ts : List Token) :
    (ofTokens ts).past = [] ∧ (ofTokens ts).messages = [] ∧ (ofTokens ts).shift = 0 := by
  unfold ofTokens
  dsimp only
  split
  · exact ⟨rfl, rfl, rfl⟩
  · split <;> exact ⟨rfl, rfl, rfl⟩

/-- A fresh parser stands before tokens of the list. -/
theorem ofTokens_fresh (ts : List Token) :
    (ofTokens ts).shift = 0 ∧ (ofTokens ts).rest ⊆ ts := by
  have hfilter : ts.filter counts ⊆ ts := List.filter_subset_self ts
  unfold ofTokens
  dsimp only
  split
  · exact ⟨rfl, List.nil_subset ts⟩
  · split
    · exact ⟨rfl, fun t ht => hfilter (List.dropLast_subset _ ht)⟩
    · exact ⟨rfl, hfilter⟩

theorem tokens_of_shift {s : Parser} (hs : s.shift = 0) :
    s.tokens = s.past.reverse ++ s.rest ++ [s.ending] := by
  simp [tokens, hs]

variable {s s' : Parser}

theorem Advance.tokens (h : s.Advance s') (hs : s.shift = 0) : s'.tokens = s.tokens := by
  rw [tokens_of_shift hs, tokens_of_shift (h.shift hs)]
  obtain ⟨n, ds, rfl⟩ := h
  simp [extend, Parser.move]

theorem Advance.index_le (h : s.Advance s') : s.index ≤ s'.index := by
  obtain ⟨n, ds, rfl⟩ := h
  simp only [index, extend, Parser.move, List.length_append, List.length_reverse]
  omega

theorem Advance.messages (h : s.Advance s') : s.messages <+: s'.messages := by
  obtain ⟨n, ds, rfl⟩ := h
  exact List.prefix_append _ _

/-- The parser stands at a token, at the latest at the ending one. -/
theorem index_bounds (hs : s.shift = 0) : 0 ≤ s.index ∧ s.index < s.tokens.length := by
  simp only [index, tokens_of_shift hs, hs, List.length_append, List.length_reverse,
    List.length_singleton]
  omega

end Parser

/-! ### Any sequence of calls -/

/-- A call of a parser of the tokens `ts`, in state `s`: it stays among the same tokens and does
not go back, it adds problems at the end, it faults only at a number token that cannot be read,
and all loops end in the states that it may pass through. -/
structure Call.Orderly (ts : List Token) (s : Parser) (c : Call) : Prop where
  tokens : (c.after s).tokens = (Parser.ofTokens ts).tokens
  lower : 0 ≤ s.index
  forward : s.index ≤ (c.after s).index
  upper : (c.after s).index < (Parser.ofTokens ts).tokens.length
  messages : s.messages <+: (c.after s).messages
  faults : ∀ f s', c.run s = .error f s' → ∃ t ∈ ts, t.kind = .number ∧
    Number.readFloat? t.value = none ∧ f = .badNumber t.value
  loops : ∀ s', s.Advance s' → s'.LoopsEnd

theorem Call.orderly {ts : List Token} {s : Parser} (h : (Parser.ofTokens ts).Advance s)
    (c : Call) : c.Orderly ts s := by
  obtain ⟨hfresh, hsubset⟩ := Parser.ofTokens_fresh ts
  have hs := h.shift hfresh
  have hadv := c.after_advance hs
  have htokens := (h.trans hadv).tokens hfresh
  refine ⟨htokens, (Parser.index_bounds hs).1, hadv.index_le, ?_, hadv.messages, ?_, ?_⟩
  · rw [← htokens]
    exact (Parser.index_bounds (hadv.shift hs)).2
  · intro f s' hrun
    obtain ⟨t, ht, hread⟩ := h.misread (c.forward.error hs hrun).2
    exact ⟨t, hsubset ht, hread⟩
  · intro s' hs'
    exact Parser.loopsEnd (hs'.shift hs)

/-- **Parsing ends and only goes forward**: whatever the tokens and whatever was called before,
every call is orderly; and every source that can be lexed is parsed to a drawing, which has a
canvas. -/
theorem calls_orderly :
    (∀ (ts : List Token) (calls : List Call) (c : Call),
      c.Orderly ts ((Parser.ofTokens ts).afterCalls calls)) ∧
    ∀ (source : String) (tokens : List Token), tokenize source = .ok tokens →
      ∃ parsed, parse tokens = .ok parsed := by
  constructor
  · intro ts calls c
    exact c.orderly (Parser.afterCalls_advance (Parser.ofTokens_fresh ts).1 calls)
  · intro source tokens h
    exact parse_lexed h

/-- Tokens with an end of input in front and a number that is none, without an ending token. -/
def strayTokens : List Token :=
  [.ending .start, ⟨.blank, " ", .start, .start⟩, ⟨.number, "1x", .start, .start⟩]

theorem calls_orderly_stray :
    let s := (Parser.ofTokens strayTokens).afterCalls [.drawing, .take]
    (s.index = 1 ∧ s.messages.length = 5 ∧ (Call.after .measure s).index = 2) ∧
      Call.measure.Orderly strayTokens s ∧
      ∃ tokens, tokenize "room;" = .ok tokens ∧ ∃ parsed, parse tokens = .ok parsed := by
  refine ⟨by decide +kernel, calls_orderly.1 strayTokens [.drawing, .take] .measure, ?_⟩
  have hlexed : (tokenize "room;").toOption.isSome = true := by decide +kernel
  cases htokens : tokenize "room;" with
  | error e => simp [htokens, Except.toOption] at hlexed
  | ok tokens => exact ⟨tokens, rfl, calls_orderly.2 "room;" tokens htokens⟩

end FloorPlan
