import FloorPlan.Proofs.Drawing.Spans
import Mathlib.Data.List.Pairwise

/-! # The stretches of the nodes of a drawing

`Parser.Stands ts i s` says that the parser has taken the first `i` of the tokens `ts`.  A node is
read from the token of its keyword up to some later token (`Node.ReadAt`), the next one from there
on (`Row`), so what a source with ordered tokens says about the stretches of nodes follows from
the indexes of tokens.  Problems are reported at the token ahead, and parsing only goes forward
(`Parser.Walk`), so they come in the order of the source (`Parser.Reported`). -/

namespace FloorPlan

open Drawing

/-! ### Where the parser stands -/

/-- The parser has taken the first `i` of the tokens `ts`, of which the last one is the ending
token. -/
structure Parser.Stands (ts : List Token) (i : Nat) (s : Parser) : Prop where
  shift : s.shift = 0
  past : s.past = (ts.take i).reverse
  rest : s.rest ++ [s.ending] = ts.drop i

namespace Parser.Stands

variable {ts : List Token} {i : Nat} {s s' : Parser}

theorem length (h : s.Stands ts i) : i + (s.rest.length + 1) = ts.length := by
  have hlen := congrArg List.length h.rest
  rw [List.length_append, List.length_singleton, List.length_drop] at hlen
  omega

theorem current (h : s.Stands ts i) : ts[i]? = some s.current := by
  have hhead : (s.rest ++ [s.ending]).head? = some s.current := by
    unfold Parser.current
    cases s.rest with
    | nil => rfl
    | cons t ts => rfl
  rw [h.rest, List.head?_drop] at hhead
  exact hhead

theorem move (h : s.Stands ts i) (n : Nat) :
    (s.move n).Stands ts (i + (s.rest.take n).length) := by
  have hsplit : s.rest.take n ++ (s.rest.drop n ++ [s.ending]) = ts.drop i := by
    rw [← List.append_assoc, List.take_append_drop, h.rest]
  refine ⟨h.shift, ?_, ?_⟩
  · show (s.rest.take n).reverse ++ s.past = _
    rw [h.past, List.take_add, ← hsplit, List.take_left, List.reverse_append]
  · show s.rest.drop n ++ [s.ending] = _
    rw [← List.drop_drop, ← hsplit, List.drop_left]

theorem advance (h : s.Stands ts i) (hadv : s.Advance s') : ∃ j, i ≤ j ∧ s'.Stands ts j := by
  obtain ⟨n, ds, rfl⟩ := hadv
  obtain ⟨hshift, hpast, hrest⟩ := h.move n
  exact ⟨_, Nat.le_add_right i _, hshift, hpast, hrest⟩

/-- A step that takes the token ahead. -/
theorem advance_lt (h : s.Stands ts i) (hr : s.rest ≠ []) (hadv : (s.move 1).Advance s') :
    ∃ j, i < j ∧ s'.Stands ts j := by
  obtain ⟨j, hij, hj⟩ := (h.move 1).advance hadv
  have hpos := List.length_pos_iff.mpr hr
  rw [List.length_take] at hij
  exact ⟨j, by omega, hj⟩

/-- A stretch ends with the latest token. -/
theorem stretch (h : s.Stands ts i) (hi : 0 < i) (start : Position) :
    ∃ t, ts[i - 1]? = some t ∧ s.stretch start = ⟨start, t.stop⟩ := by
  have hlen := h.length
  have hlast : s.past.head? = ts[i - 1]? := by
    rw [h.past, List.head?_reverse, List.getLast?_take, if_neg (by omega),
      List.getElem?_eq_getElem (by omega), Option.some_or]
  have hsome : ts[i - 1]? = some (ts.get ⟨i - 1, by omega⟩) := List.getElem?_eq_getElem _
  refine ⟨_, hsome, ?_⟩
  unfold Parser.stretch
  rw [hlast, hsome]
  rfl

end Parser.Stands

/-! ### Nodes -/

/-- A node of a drawing that has a stretch. -/
inductive Node where
  | module (m : Module)
  | top (item : TopItem)
  | body (item : BodyItem)

namespace Node

/-- Where a node stands. -/
def span : Node → Option Span
  | module m => m.span
  | top item => item.span
  | body item => item.span

/-- The kind of the keyword that introduces a node. -/
def keyword : Node → Kind
  | module _ => .atModule
  | top (.unit _) => .atUnit
  | top (.imported _) => .importWord
  | top (.exported _) => .exportWord
  | body (.room _) => .roomWord
  | body (.wall _) => .wallWord
  | body (.door _) => .doorWord
  | body (.grid _) => .atGrid
  | body (.copies _) => .repeatWord
  | body (.placement _) => .useWord

/-- The production of a node gives it, from the state `s` to the state `s'`. -/
def Reads (s s' : Parser) : Node → Prop
  | module m => Parse.moduleDecl s = .ok m s'
  | top (.unit u) => Parse.unitDecl s = .ok u s'
  | top (.imported i) => Parse.importDecl s = .ok i s'
  | top (.exported e) => Parse.exportDecl s = .ok e s'
  | body (.room r) => Parse.room s = .ok r s'
  | body (.wall w) => Parse.wall s = .ok w s'
  | body (.door d) => Parse.door s = .ok d s'
  | body (.grid g) => Parse.grid s = .ok g s'
  | body (.copies r) => Parse.copies s = .ok r s'
  | body (.placement p) => Parse.placement s = .ok p s'

/-- The kinds of the keywords that introduce nodes. -/
def keywords : List Kind :=
  [.atModule, .atUnit, .importWord, .exportWord, .roomWord, .wallWord, .doorWord, .atGrid,
    .repeatWord, .useWord]

variable {n : Node} {ts : List Token} {i j : Nat} {s s' : Parser}

theorem keyword_ne (n : Node) : n.keyword ≠ .endOfInput := by
  unfold keyword
  split <;> simp

/-- A node stretches from the token ahead to the last one that its production takes. -/
theorem Reads.covers (h : n.Reads s s') (hs : s.shift = 0) :
    (s.move 1).Advance s' ∧ n.span = some (s'.stretch s.current.start) := by
  have hproduction : ∀ {α : Type} {span : α → Option Span} {p : Parse α} {a : α},
      Statement (Covers span) p → p s = .ok a s' →
      (s.move 1).Advance s' ∧ span a = some (s'.stretch s.current.start) := fun hp hrun =>
    ⟨hp.opens hs hrun, hp.stretch hs hrun⟩
  match n, h with
  | module _, h => exact (hproduction statement_moduleDecl h :)
  | top (.unit _), h => exact (hproduction statement_unitDecl h :)
  | top (.imported _), h => exact (hproduction statement_importDecl h :)
  | top (.exported _), h => exact (hproduction statement_exportDecl h :)
  | body (.room _), h => exact (hproduction statement_room h :)
  | body (.wall _), h => exact (hproduction statement_wall h :)
  | body (.door _), h => exact (hproduction statement_door h :)
  | body (.grid _), h => exact (hproduction statement_grid h :)
  | body (.copies _), h => exact (hproduction statement_copies h :)
  | body (.placement _), h => exact (hproduction statement_placement h :)

/-- The node is what its production reads of the tokens `ts`, from the keyword at index `i` up to
the token before index `j`. -/
structure ReadAt (ts : List Token) (i j : Nat) (n : Node) : Prop where
  run : ∃ s s', s.Stands ts i ∧ s.current.kind = n.keyword ∧ n.Reads s s' ∧ s'.Stands ts j

/-- A node covers the tokens that it was read from. -/
theorem ReadAt.covers (h : n.ReadAt ts i j) : i < j ∧ j < ts.length ∧
    ∃ t u, ts[i]? = some t ∧ t.kind = n.keyword ∧ ts[j - 1]? = some u ∧
      n.span = some ⟨t.start, u.stop⟩ := by
  obtain ⟨s, s', hs, hkind, hreads, hs'⟩ := h.run
  obtain ⟨hadv, hspan⟩ := hreads.covers hs.shift
  have hr : s.rest ≠ [] := by
    intro hr
    apply keyword_ne n
    rw [← hkind, Parser.current_kind, hr]
    rfl
  have hfewer := hadv.length_lt hr
  have hlen := hs.length
  have hlen' := hs'.length
  obtain ⟨u, hu, hstretch⟩ := hs'.stretch (by omega) s.current.start
  refine ⟨by omega, by omega, s.current, u, hs.current, hkind, hu, ?_⟩
  rw [hspan, hstretch]

end Node

/-! ### Rows of nodes -/

/-- The nodes are read one after the other from the tokens with indexes from `i` up to before
`j`. -/
inductive Row (ts : List Token) : Nat → List Node → Nat → Prop
  | nil {i j : Nat} (h : i ≤ j) : Row ts i [] j
  | cons {i a b j : Nat} {n : Node} {ns : List Node} (ha : i ≤ a) (hn : n.ReadAt ts a b)
      (hns : Row ts b ns j) : Row ts i (n :: ns) j

namespace Row

variable {ts : List Token} {i j k l : Nat} {ns ms : List Node}

theorem mono (h : Row ts j ns k) (hij : i ≤ j) (hkl : k ≤ l) : Row ts i ns l := by
  induction h generalizing i with
  | nil h => exact .nil (by omega)
  | cons ha hn _ ih => exact .cons (by omega) hn (ih (Nat.le_refl _) hkl)

theorem append (h : Row ts i ns j) (h' : Row ts j ms k) : Row ts i (ns ++ ms) k := by
  induction h with
  | nil h => exact h'.mono h (Nat.le_refl k)
  | cons ha hn _ ih => exact .cons ha hn (ih h')

theorem le (h : Row ts i ns j) : i ≤ j := by
  induction h with
  | nil h => exact h
  | cons ha hn _ ih =>
      have hlt := hn.covers.1
      omega

theorem mem (h : Row ts i ns j) {n : Node} (hn : n ∈ ns) :
    ∃ a b, i ≤ a ∧ n.ReadAt ts a b ∧ b ≤ j := by
  induction h with
  | nil _ => cases hn
  | @cons i a b j m ns ha hm hns ih =>
      have hab := hm.covers.1
      rcases List.mem_cons.mp hn with rfl | hn
      · exact ⟨a, b, ha, hm, hns.le⟩
      · obtain ⟨c, d, hc, hread, hd⟩ := ih hn
        exact ⟨c, d, by omega, hread, hd⟩

/-- Of two nodes in a row the first one is read up to where the second one starts, or less far. -/
theorem pairwise (h : Row ts i ns j) : ns.Pairwise fun n m =>
    ∃ a b c d, n.ReadAt ts a b ∧ b ≤ c ∧ m.ReadAt ts c d := by
  induction h with
  | nil _ => exact .nil
  | @cons i a b j n ns ha hn hns ih =>
      refine List.pairwise_cons.mpr ⟨fun m hm => ?_, ih⟩
      obtain ⟨c, d, hbc, hread, -⟩ := hns.mem hm
      exact ⟨a, b, c, d, hn, hbc, hread⟩

end Row

/-! ### Reading a row -/

section

variable {α : Type} {f : α → Node} {item : Parse (Option α)} {stops : List Kind}
variable {ts : List Token} {i : Nat} {s s' : Parser} {as : List α} {Q : Span → Option α → Prop}

/-- What the step gives in the state `s` is a node, read by its own production at its keyword. -/
def Introduces (f : α → Node) (s : Parser) (item : Parse (Option α)) : Prop :=
  ∀ {a s'}, item s = .ok (some a) s' → s.current.kind = (f a).keyword ∧ (f a).Reads s s'

theorem introduces_node {β : Type} {p : Parse β} {g : β → α}
    (h : ∀ {b s'}, p s = .ok b s' → s.current.kind = (f (g b)).keyword ∧ (f (g b)).Reads s s') :
    Introduces f s (p >>= fun b => pure (some (g b))) := by
  intro a s' hp
  obtain ⟨b, t, hb, hsome⟩ := Parse.bind_eq_ok.mp hp
  cases hsome
  exact h hb

theorem introduces_dropped (text : String) (hint : Option String) :
    Introduces f s (do Parse.complain text hint; discard Parse.take; return none) := by
  intro a s' hp
  obtain ⟨_, _, -, hp⟩ := Parse.bind_eq_ok.mp hp
  obtain ⟨_, _, -, hnone⟩ := Parse.bind_eq_ok.mp hp
  cases hnone

theorem introduces_get {q : Parser → Parse (Option α)} (h : Introduces f s (q s)) :
    Introduces f s (get >>= q) := by
  intro a s' hp
  rw [Parse.bind_ok (Parse.get_run s)] at hp
  exact h hp

theorem introduces_topItem (s : Parser) : Introduces Node.top s Parse.topItem := by
  intro a s' h
  obtain ⟨b, t, hmark, h⟩ := Parse.bind_eq_ok.mp h
  by_cases hk : nextKind s.rest ∈ [Kind.hierarchy]
  · rw [Parse.accepts_true hk] at hmark
    cases hmark
    rw [if_pos rfl] at h
    obtain ⟨_, _, -, hnone⟩ := Parse.bind_eq_ok.mp h
    cases hnone
  · rw [Parse.accepts_false hk] at hmark
    cases hmark
    rw [if_neg Bool.false_ne_true] at h
    revert h
    apply introduces_get
    split
    case h_4 => exact introduces_dropped _ _
    all_goals
      next hkind =>
        apply introduces_node
        exact fun hrun => ⟨hkind, hrun⟩

theorem introduces_bodyItem (s : Parser) : Introduces Node.body s Parse.bodyItem := by
  apply introduces_get
  split
  case h_7 => exact introduces_dropped _ _
  all_goals
    next hkind =>
      apply introduces_node
      exact fun hrun => ⟨hkind, hrun⟩

/-- A loop reads its items one after the other. -/
theorem many_row (hintroduces : ∀ s, Introduces f s item) (hitem : Statement Q item)
    (hend : .endOfInput ∈ stops) (hs : s.Stands ts i) (h : Parse.many stops item s = .ok as s') :
    ∃ j, s'.Stands ts j ∧ Row ts i (as.map f) j := by
  generalize hm : s.rest.length = m
  induction m using Nat.strongRecOn generalizing s as i with
  | ind m ih =>
      rcases Parse.many_cases hitem hend hs.shift h with
        ⟨-, rfl, rfl⟩ | ⟨t, us, o, s₁, as', hr, hp, hadv, hmany, rfl⟩
      · exact ⟨i, hs, .nil (Nat.le_refl i)⟩
      · have hne : s.rest ≠ [] := by simp [hr]
        have hlt := hadv.length_lt hne
        obtain ⟨a, hia, hs₁⟩ := hs.advance_lt hne hadv
        obtain ⟨j, hj, hrow⟩ := ih _ (by omega) hs₁ hmany rfl
        refine ⟨j, hj, ?_⟩
        cases o with
        | none => exact hrow.mono (by omega) (Nat.le_refl j)
        | some node =>
            obtain ⟨hkind, hreads⟩ := hintroduces s hp
            exact .cons (Nat.le_refl i) ⟨s, s₁, hs, hkind, hreads, hs₁⟩ hrow

end

/-! ### Reading a drawing -/

theorem moduleDecl?_row {ts : List Token} {s s' : Parser} {o : Option Module}
    (hs : s.Stands ts 0) (h : Parse.moduleDecl? s = .ok o s') :
    ∃ j, s'.Stands ts j ∧ Row ts 0 (o.toList.map .module) j := by
  obtain ⟨j, -, hj⟩ := hs.advance (Forward.ok forward_moduleDecl? hs.shift h)
  refine ⟨j, hj, ?_⟩
  unfold Parse.moduleDecl? at h
  rw [Parse.bind_ok (Parse.sees_run _ s)] at h
  split at h
  · next hsees =>
      obtain ⟨m, t, hm, hsome⟩ := Parse.bind_eq_ok.mp h
      cases hsome
      have hkind := Parser.sees_iff.mp hsees
      rw [List.mem_singleton, ← Parser.current_kind] at hkind
      exact .cons (Nat.le_refl 0) ⟨s, s', hs, hkind, hm, hj⟩ (.nil (Nat.le_refl j))
  · cases h
    exact .nil (Nat.zero_le j)

/-- The statements before the draw block are read first and those in it later, where the first
token has been taken; the drawing goes from the first token to the last one taken. -/
theorem drawing_rows {ts : List Token} {s s' : Parser} {d : Drawing} (hs : s.Steady)
    (hstands : s.Stands ts 0) (h : Parse.drawing s = .ok d s') :
    ∃ (top : List TopItem) (body : List BodyItem) (k e : Nat) (last : Parser), d.Statements top body ∧
      Row ts 0 (d.module.toList.map .module ++ top.map .top) k ∧ Row ts k (body.map .body) e ∧
      (1 < ts.length → 0 < k) ∧ last.Stands ts e ∧
      d.span = some (last.stretch s.current.start) := by
  obtain ⟨_, _, hget, h⟩ := Parse.bind_eq_ok.mp h
  cases hget
  obtain ⟨module, s₁, hmodule, h⟩ := Parse.bind_eq_ok.mp h
  obtain ⟨top, s₂, htop, h⟩ := Parse.bind_eq_ok.mp h
  obtain ⟨_, s₃, hat, h⟩ := Parse.bind_eq_ok.mp h
  obtain ⟨name, s₄, hname, h⟩ := Parse.bind_eq_ok.mp h
  obtain ⟨_, s₅, hbrace, h⟩ := Parse.bind_eq_ok.mp h
  obtain ⟨canvas, s₆, hcanvas, h⟩ := Parse.bind_eq_ok.mp h
  obtain ⟨body, s₇, hbody, h⟩ := Parse.bind_eq_ok.mp h
  obtain ⟨_, s₈, hclose, h⟩ := Parse.bind_eq_ok.mp h
  obtain ⟨span, s₉, hspan, h⟩ := Parse.bind_eq_ok.mp h
  obtain ⟨_, s₁₀, -, h⟩ := Parse.bind_eq_ok.mp h
  cases h
  obtain ⟨i₁, hs₁, hrow₁⟩ := moduleDecl?_row hstands hmodule
  obtain ⟨i₂, hs₂, hrow₂⟩ := many_row introduces_topItem statement_topItem (by simp) hs₁ htop
  obtain ⟨i₃, h₂₃, hs₃⟩ := hs₂.advance (Forward.ok forward_skip hs₂.shift hat)
  obtain ⟨i₄, h₃₄, hs₄⟩ := hs₃.advance (Forward.ok forward_expectValue hs₃.shift hname)
  obtain ⟨i₅, h₄₅, hs₅⟩ := hs₄.advance (Forward.ok forward_skip hs₄.shift hbrace)
  obtain ⟨i₆, h₅₆, hs₆⟩ := hs₅.advance (Forward.ok forward_requiredCanvas hs₅.shift hcanvas)
  obtain ⟨i₇, hs₇, hrow₇⟩ := many_row introduces_bodyItem statement_bodyItem (by simp) hs₆ hbody
  obtain ⟨i₈, h₇₈, hs₈⟩ := hs₇.advance (Forward.ok forward_skip hs₇.shift hclose)
  rw [Parse.spanFrom_run hs₈.shift] at hspan
  cases hspan
  refine ⟨top, body, i₆, i₈, s₈, ⟨rfl, rfl, rfl, rfl, rfl, rfl, rfl, rfl, rfl⟩,
    (hrow₁.append hrow₂).mono (Nat.le_refl 0) (by omega), hrow₇.mono (Nat.le_refl i₆) h₇₈, ?_, hs₈,
    rfl⟩
  -- the draw keyword has been taken, or nothing is left
  intro hlength
  have hadv₁ := Forward.ok forward_moduleDecl? hs.shift hmodule
  have hadv₂ := (Forward.many _ (Statement.toForward statement_topItem)).ok hs₁.shift htop
  have hstop := many_stops statement_topItem (by simp) hs₁.shift htop
  have hfirst := (skip_atDraw_suffix hs (hadv₁.trans hadv₂) hstop hat).length_le
  have hlen := hstands.length
  have hlen₃ := hs₃.length
  rw [List.length_drop] at hfirst
  omega

/-! ### The nodes of a drawing -/

namespace Drawing

/-- The nodes of a drawing that a keyword introduces, in the order of their list. -/
def nodesOf (d : Drawing) : Kind → List Node
  | .atModule => d.module.toList.map .module
  | .atUnit => d.units.map fun u => .top (.unit u)
  | .importWord => d.imports.map fun i => .top (.imported i)
  | .exportWord => d.exports.map fun e => .top (.exported e)
  | .roomWord => d.rooms.map fun r => .body (.room r)
  | .wallWord => d.walls.map fun w => .body (.wall w)
  | .doorWord => d.doors.map fun o => .body (.door o)
  | .atGrid => d.grids.map fun g => .body (.grid g)
  | .repeatWord => d.repeats.map fun r => .body (.copies r)
  | .useWord => d.placements.map fun p => .body (.placement p)
  | _ => []

/-- The nodes of a drawing, list by list. -/
def nodes (d : Drawing) : List Node := Node.keywords.flatMap d.nodesOf

variable {d : Drawing} {k : Kind} {n : Node} {top : List TopItem} {body : List BodyItem}

theorem keyword_of_nodesOf (h : n ∈ d.nodesOf k) : n.keyword = k := by
  unfold nodesOf at h
  split at h
  case h_11 => cases h
  all_goals
    obtain ⟨a, -, rfl⟩ := List.mem_map.mp h
    rfl

/-- The nodes of one list are read in its order. -/
theorem Statements.nodesOf_sublist (h : d.Statements top body) (k : Kind) :
    (d.nodesOf k).Sublist ((d.module.toList.map .module ++ top.map .top) ++ body.map .body) := by
  have hpart : ∀ {α β : Type} {select : β → Option α} {item : α → β} {node : β → Node}
      {items : List β} {all : List Node}, (items.map node).Sublist all →
      (∀ i a, select i = some a → i = item a) →
      ((items.filterMap select).map fun a => node (item a)).Sublist all := by
    intro α β select item node items all hall hitem
    have hsub := (filterMap_map_sublist hitem items).map node
    rw [List.map_map] at hsub
    exact hsub.trans hall
  have hmodule := List.sublist_append_left (d.module.toList.map Node.module) (top.map .top)
  have htop := List.sublist_append_right (d.module.toList.map Node.module) (top.map .top)
  have hfront := List.sublist_append_left (d.module.toList.map Node.module ++ top.map .top)
    (body.map .body)
  have hbody := List.sublist_append_right (d.module.toList.map Node.module ++ top.map .top)
    (body.map .body)
  unfold nodesOf
  rw [← h.units, ← h.imports, ← h.exports, ← h.rooms, ← h.walls, ← h.doors, ← h.grids, ← h.repeats,
    ← h.placements]
  split
  case h_1 => exact hmodule.trans hfront
  case h_2 | h_3 | h_4 =>
    apply hpart (htop.trans hfront)
    intro i a hi
    cases i <;> cases hi
    rfl
  case h_11 => exact List.nil_sublist _
  all_goals
    apply hpart hbody
    intro i a hi
    cases i <;> cases hi
    rfl

end Drawing

/-! ### Problems in the order of the source -/

/-- The problem is reported at the token of index `i`. -/
def Diagnostic.At (ts : List Token) (i : Nat) (d : Diagnostic) : Prop :=
  ∃ t, ts[i]? = some t ∧ d.span = some t.span

/-- The parser has taken `i` tokens, and its problems are reported at one token after the other, or
at the same one, and at none behind the token ahead. -/
structure Parser.Reported (ts : List Token) (i : Nat) (s : Parser) : Prop
    extends Parser.Stands ts i s where
  located : ∀ d ∈ s.messages, ∃ j, j ≤ i ∧ d.At ts j
  sorted : s.messages.Pairwise fun d e => ∃ j k, j ≤ k ∧ d.At ts j ∧ e.At ts k

namespace Parser.Reported

variable {ts : List Token} {i : Nat} {s s' : Parser}

theorem move (h : s.Reported ts i) (n : Nat) : (s.move n).Reported ts (i + (s.rest.take n).length) := by
  refine ⟨h.toStands.move n, fun d hd => ?_, h.sorted⟩
  obtain ⟨j, hj, hd⟩ := h.located d hd
  exact ⟨j, by omega, hd⟩

theorem report (h : s.Reported ts i) {d : Diagnostic} (hd : d.span = some s.current.span) :
    (s.report d).Reported ts i := by
  have hat : d.At ts i := ⟨s.current, h.current, hd⟩
  refine ⟨⟨h.shift, h.past, h.rest⟩, ?_, ?_⟩
  · intro e he
    rcases List.mem_append.mp he with he | he
    · exact h.located e he
    · rw [List.mem_singleton.mp he]
      exact ⟨i, Nat.le_refl i, hat⟩
  · refine List.pairwise_append.mpr ⟨h.sorted, List.pairwise_singleton _ _, ?_⟩
    intro e he f hf
    obtain ⟨j, hj, he⟩ := h.located e he
    rw [List.mem_singleton.mp hf]
    exact ⟨j, i, hj, he, hat⟩

theorem walk (h : s.Reported ts i) (hwalk : s.Walk s') : ∃ j, s'.Reported ts j := by
  induction hwalk with
  | refl => exact ⟨i, h⟩
  | move _ n ih =>
      obtain ⟨j, hj⟩ := ih
      exact ⟨_, hj.move n⟩
  | report _ hd ih =>
      obtain ⟨j, hj⟩ := ih
      exact ⟨j, hj.report hd⟩

end Parser.Reported

/-! ### Places in the source -/

section

variable {ts : List Token} {i j : Nat} {t u : Token}

theorem before_of_lt (h : ts.Pairwise Token.Before) (hi : ts[i]? = some t) (hj : ts[j]? = some u)
    (hij : i < j) : t.Before u := by
  obtain ⟨hilt, rfl⟩ := List.getElem?_eq_some_iff.mp hi
  obtain ⟨hjlt, rfl⟩ := List.getElem?_eq_some_iff.mp hj
  exact List.pairwise_iff_getElem.mp h i j hilt hjlt hij

theorem start_le_of_le (h : ts.Pairwise Token.Before) (hi : ts[i]? = some t)
    (hj : ts[j]? = some u) (hij : i ≤ j) : t.start.offset ≤ u.start.offset := by
  rcases Nat.eq_or_lt_of_le hij with rfl | hlt
  · rw [hi] at hj
    cases hj
    exact Nat.le_refl _
  · obtain ⟨hwide, hle⟩ := before_of_lt h hi hj hlt
    omega

/-- A token is known by where it starts. -/
theorem index_eq (h : ts.Pairwise Token.Before) (hi : ts[i]? = some t) (hj : ts[j]? = some u)
    (hstart : t.start = u.start) : i = j := by
  rcases Nat.lt_trichotomy i j with hlt | rfl | hgt
  · obtain ⟨hwide, hle⟩ := before_of_lt h hi hj hlt
    rw [hstart] at hwide
    omega
  · rfl
  · obtain ⟨hwide, hle⟩ := before_of_lt h hj hi hgt
    rw [hstart] at hle
    omega

/-- The stops of tokens before the ending one. -/
theorem stop_le_of_le (h : ts.Pairwise Token.Before) (hi : ts[i]? = some t)
    (hj : ts[j]? = some u) (hij : i ≤ j) (hlast : j + 1 < ts.length) :
    t.stop.offset ≤ u.stop.offset := by
  rcases Nat.eq_or_lt_of_le hij with rfl | hlt
  · rw [hi] at hj
    cases hj
    exact Nat.le_refl _
  · obtain ⟨-, hle⟩ := before_of_lt h hi hj hlt
    obtain ⟨hwide, -⟩ := before_of_lt h hj (List.getElem?_eq_getElem hlast) (Nat.lt_succ_self j)
    omega

end

/-- The node `n` ends before the node `m` starts, or where it starts. -/
def Node.Ahead (n m : Node) : Prop :=
  ∀ sp ∈ n.span, ∀ sp' ∈ m.span, sp.stop.offset ≤ sp'.start.offset

/-- The nodes do not overlap. -/
def Node.Apart (n m : Node) : Prop := n.Ahead m ∨ m.Ahead n

namespace Node

variable {ts : List Token} {n m : Node} {i j k l : Nat}

theorem ReadAt.ahead (hord : ts.Pairwise Token.Before) (hn : n.ReadAt ts i j) (hjk : j ≤ k)
    (hm : m.ReadAt ts k l) : n.Ahead m := by
  obtain ⟨hij, -, t, u, -, -, hu, hspan⟩ := hn.covers
  obtain ⟨-, -, t', u', ht', -, -, hspan'⟩ := hm.covers
  intro sp hsp sp' hsp'
  rw [hspan] at hsp
  rw [hspan'] at hsp'
  cases hsp
  cases hsp'
  exact (before_of_lt hord hu ht' (by omega)).2

/-- A node lies between the ends of the tokens around it. -/
theorem ReadAt.within (hord : ts.Pairwise Token.Before) (hn : n.ReadAt ts i j) {first last : Token}
    (hfirst : ts[0]? = some first) (hjk : j ≤ k) (hk : k < ts.length)
    (hlast : ts[k - 1]? = some last) {sp : Span} (hsp : n.span = some sp) :
    first.start.offset ≤ sp.start.offset ∧ sp.stop.offset ≤ last.stop.offset := by
  obtain ⟨hij, -, t, u, ht, -, hu, hspan⟩ := hn.covers
  rw [hspan] at hsp
  cases hsp
  exact ⟨start_le_of_le hord hfirst ht (Nat.zero_le i),
    stop_le_of_le hord hu hlast (by omega) (by omega)⟩

theorem ReadAt.wide (hord : ts.Pairwise Token.Before) (hn : n.ReadAt ts i j) {t u : Token}
    (ht : ts[i]? = some t) (hu : ts[j - 1]? = some u) : t.start.offset < u.stop.offset := by
  obtain ⟨hij, hj, -⟩ := hn.covers
  have hle := start_le_of_le hord ht hu (by omega)
  have hwide := (before_of_lt hord hu (List.getElem?_eq_getElem hj) (by omega)).1
  omega

end Node

theorem Row.ahead {ts : List Token} {i j : Nat} {ns : List Node} (h : Row ts i ns j)
    (hord : ts.Pairwise Token.Before) : ns.Pairwise Node.Ahead := by
  refine h.pairwise.imp ?_
  rintro n m ⟨a, b, c, d, hn, hbc, hm⟩
  exact hn.ahead hord hbc hm

/-- Nodes of different lists differ, so one of them is ahead of the other. -/
theorem Drawing.nodes_apart {d : Drawing} {all : List Node}
    (hsub : ∀ k, (d.nodesOf k).Sublist all) (hall : all.Pairwise Node.Ahead) :
    d.nodes.Pairwise Node.Apart := by
  have hkeywords : Node.keywords.Nodup := by decide
  have hsymm : Std.Symm Node.Apart := ⟨fun _ _ => Or.symm⟩
  have happart : all.Pairwise Node.Apart := hall.imp Or.inl
  refine List.pairwise_flatMap.mpr ⟨fun k _ => ?_, hkeywords.imp fun {k l} hkl n hn m hm => ?_⟩
  · exact happart.sublist (hsub k)
  · have hne : n ≠ m := by
      rintro rfl
      exact hkl ((keyword_of_nodesOf hn).symm.trans (keyword_of_nodesOf hm))
    exact happart.forall ((hsub k).subset hn) ((hsub l).subset hm) hne

/-- The nodes of a drawing are where they were read from the tokens `ts`: each goes from its keyword
to the last token that its production took, which is not the ending one; they do not overlap, they
increase within each list and lie in the drawing, of which none in the draw block is the whole. -/
structure Drawing.Placed (ts : List Token) (d : Drawing) : Prop where
  faithful : ∀ n ∈ d.nodes, ∃ i j t u, n.ReadAt ts i j ∧ i < j ∧
    ts[i]? = some t ∧ t.kind = n.keyword ∧ ts[j - 1]? = some u ∧ u.kind ≠ .endOfInput ∧
    n.span = some ⟨t.start, u.stop⟩ ∧ t.start.offset < u.stop.offset
  apart : d.nodes.Pairwise Node.Apart
  increasing : ∀ k ∈ Node.keywords, (d.nodesOf k).Pairwise Node.Ahead
  inside : ∃ whole, d.span = some whole ∧ ∀ n ∈ d.nodes, ∀ sp ∈ n.span,
    whole.start.offset ≤ sp.start.offset ∧ sp.stop.offset ≤ whole.stop.offset
  proper : ∀ item : BodyItem, .body item ∈ d.nodes → item.span ≠ d.span

/-- The problems are reported at tokens of `ts`, in the order of the source. -/
structure Diagnostics.Placed (ts : List Token) (ds : Diagnostics) : Prop where
  located : ∀ d ∈ ds, ∃ t ∈ ts, d.span = some t.span
  sorted : ds.Pairwise fun d e => ∀ sp ∈ d.span, ∀ sp' ∈ e.span, sp.start.offset ≤ sp'.start.offset

theorem Parser.Reported.placed {ts : List Token} {i : Nat} {s : Parser} (h : s.Reported ts i)
    (hord : ts.Pairwise Token.Before) : s.messages.Placed ts := by
  constructor
  · intro d hd
    obtain ⟨j, -, t, ht, hspan⟩ := h.located d hd
    exact ⟨t, List.mem_of_getElem? ht, hspan⟩
  · refine h.sorted.imp ?_
    rintro d e ⟨j, k, hjk, ⟨t, ht, hspan⟩, u, hu, hspan'⟩ sp hsp sp' hsp'
    rw [hspan] at hsp
    rw [hspan'] at hsp'
    cases hsp
    cases hsp'
    exact start_le_of_le hord ht hu hjk

/-- Only the last token of a source is the ending one. -/
theorem tokenize_kind_ne {source : String} {ts : List Token} (h : tokenize source = .ok ts)
    {i : Nat} {t : Token} (ht : ts[i]? = some t) (hi : i + 1 < ts.length) :
    t.kind ≠ .endOfInput := by
  obtain ⟨body, p, rfl, hregular⟩ := tokenize_regular h
  rw [List.length_append, List.length_singleton] at hi
  rw [List.getElem?_append_left (by omega)] at ht
  have hproper := (hregular t (List.mem_of_getElem? ht)).proper
  exact fun hk => hproper (by simp [Token.pair, hk])

/-- Wherever the parser stands, the tokens ahead are those of a source. -/
theorem Parser.Stands.steady {source : String} {ts : List Token} {i : Nat} {s : Parser}
    (hs : s.Stands ts i) (h : tokenize source = .ok ts) : s.Steady := by
  obtain ⟨body, p, rfl, hregular⟩ := tokenize_regular h
  have hlength := hs.length
  have hrest := hs.rest
  rw [List.length_append, List.length_singleton] at hlength
  rw [List.drop_append_of_le_length (by omega)] at hrest
  obtain ⟨hrest, hending⟩ := List.append_inj' hrest rfl
  refine ⟨hs.shift, ?_, fun t ht => ?_⟩
  · rw [List.singleton_inj.mp hending]
    rfl
  · rw [hrest] at ht
    exact hregular t (List.mem_of_mem_drop ht)

theorem drawing_placed {source : String} {ts : List Token} {s s' : Parser} {d : Drawing}
    (h : tokenize source = .ok ts) (hstands : s.Stands ts 0)
    (hrun : Parse.drawing s = .ok d s') : d.Placed ts := by
  have hord := tokenize_ordered h
  obtain ⟨top, body, k, e, last, hstatements, hrow, hrow', hfirst, hlast, hspan⟩ :=
    drawing_rows (hstands.steady h) hstands hrun
  have hall := hrow.append hrow'
  have hmem : ∀ n ∈ d.nodes,
      n ∈ (d.module.toList.map .module ++ top.map .top) ++ body.map .body := by
    intro n hn
    obtain ⟨kind, -, hn⟩ := List.mem_flatMap.mp hn
    exact (hstatements.nodesOf_sublist kind).subset hn
  constructor
  · intro n hn
    obtain ⟨i, j, -, hread, -⟩ := hall.mem (hmem n hn)
    obtain ⟨hij, hj, t, u, ht, hkind, hu, hcovers⟩ := hread.covers
    exact ⟨i, j, t, u, hread, hij, ht, hkind, hu, tokenize_kind_ne h hu (by omega), hcovers,
      hread.wide hord ht hu⟩
  · exact nodes_apart hstatements.nodesOf_sublist (hall.ahead hord)
  · exact fun kind _ => (hall.ahead hord).sublist (hstatements.nodesOf_sublist kind)
  · refine ⟨_, hspan, fun n hn sp hsp => ?_⟩
    obtain ⟨i, j, -, hread, hje⟩ := hall.mem (hmem n hn)
    have hij := hread.covers.1
    have hlength := hlast.length
    obtain ⟨u, hu, hstretch⟩ := hlast.stretch (by omega) s.current.start
    rw [hstretch]
    exact hread.within hord hstands.current hje (by omega) hu hsp
  · -- a statement of the draw block starts after the first token
    intro item hitem hsame
    have hbody : Node.body item ∈ body.map Node.body := by simpa using hmem _ hitem
    obtain ⟨i, j, hki, hread, -⟩ := hrow'.mem hbody
    obtain ⟨hij, hj, t, u, ht, -, -, hcovers⟩ := hread.covers
    have hk := hfirst (by omega)
    have hspans := hcovers.symm.trans (hsame.trans hspan)
    have hstart : t.start = s.current.start := congrArg Span.start (Option.some.inj hspans)
    obtain ⟨hwide, hle⟩ := before_of_lt hord hstands.current ht (by omega)
    rw [hstart] at hle
    omega

/-- What the parser reads of a source is where it was read. -/
theorem placed_of_parse {source : String} {tokens : List Token} {parsed : Parsed}
    (h : tokenize source = .ok tokens) (hparse : parse tokens = .ok parsed) :
    parsed.drawing.Placed tokens ∧ parsed.messages.Placed tokens := by
  obtain ⟨ts, p, rfl, hregular⟩ := tokenize_regular h
  unfold parse at hparse
  rw [Parser.ofTokens_regular hregular] at hparse
  have hstands : Parser.Stands (ts ++ [Token.ending p]) 0 ⟨[], ts, Token.ending p, 0, [], rfl⟩ :=
    ⟨rfl, rfl, rfl⟩
  cases hrun : Parse.drawing ⟨[], ts, Token.ending p, 0, [], rfl⟩ with
  | error f s' => rw [hrun] at hparse; cases hparse
  | ok d s' =>
      rw [hrun] at hparse
      cases hparse
      have hreported : Parser.Reported (ts ++ [Token.ending p]) 0
          ⟨[], ts, Token.ending p, 0, [], rfl⟩ := ⟨hstands, nofun, .nil⟩
      obtain ⟨e, hend⟩ := hreported.walk (Forward.walk forward_drawing rfl hrun)
      exact ⟨drawing_placed h hstands hrun, hend.placed (tokenize_ordered h)⟩

/-- **Spans are faithful, disjoint and nested, and problems come in source order**: every source
that can be lexed is parsed, with or without errors, and its nodes and problems are where they were
read. -/
theorem parse_placed {source : String} {tokens : List Token} (h : tokenize source = .ok tokens) :
    ∃ parsed, parse tokens = .ok parsed ∧ parsed.drawing.Placed tokens ∧
      parsed.messages.Placed tokens := by
  obtain ⟨parsed, hparse⟩ := parse_lexed h
  exact ⟨parsed, hparse, placed_of_parse h hparse⟩

/-- A source in which a module, a wall and a door lack their ends, and which goes on after the draw
block. -/
def torn : String :=
  "@module m @draw T" ++
    Text.braced "@canvas 1 x 1;wall from(0,0)to(1,1)door from(0,0)to(1,1)width 1" ++ " " ++
    Text.rightBrace

/-- A stretch of the first line, by its offsets. -/
def firstLine (start stop : Nat) : Option Span :=
  some ⟨⟨1, start + 1, start⟩, ⟨1, stop + 1, stop⟩⟩

theorem parse_placed_torn : ∃ tokens parsed, tokenize torn = .ok tokens ∧
    parse tokens = .ok parsed ∧ parsed.drawing.Placed tokens ∧ parsed.messages.Placed tokens ∧
    parsed.drawing.span = firstLine 0 82 ∧
    parsed.drawing.nodes.map (fun n => (n.keyword, n.span)) =
      [(.atModule, firstLine 0 9), (.wallWord, firstLine 32 53), (.doorWord, firstLine 53 81)] ∧
    parsed.messages.map (fun d => (d.message, d.span)) =
      [("Expected ';', got '@draw'", firstLine 10 15),
        ("Expected ';', got 'door'", firstLine 53 57),
        ("Expected ';', got '" ++ Text.rightBrace ++ "'", firstLine 81 82),
        ("Content after the draw block is ignored", firstLine 83 84)] := by
  have htorn : (tokenize torn).toOption.bind (fun tokens => (parse tokens).toOption.map fun p =>
      (p.drawing.span, p.drawing.nodes.map (fun n => (n.keyword, n.span)),
        p.messages.map fun d => (d.message, d.span))) =
      some (firstLine 0 82,
        [(.atModule, firstLine 0 9), (.wallWord, firstLine 32 53), (.doorWord, firstLine 53 81)],
        [("Expected ';', got '@draw'", firstLine 10 15),
          ("Expected ';', got 'door'", firstLine 53 57),
          ("Expected ';', got '" ++ Text.rightBrace ++ "'", firstLine 81 82),
          ("Content after the draw block is ignored", firstLine 83 84)]) := by
    decide +kernel
  obtain ⟨tokens, htokens, hparsed⟩ := Option.bind_eq_some_iff.mp htorn
  obtain ⟨parsed, hparse, hshown⟩ := Option.map_eq_some_iff.mp hparsed
  simp only [Prod.mk.injEq] at hshown
  obtain ⟨parsed', hparse', hdrawing, hmessages⟩ := parse_placed (tokenize_of_toOption htokens)
  rw [hparse'] at hparse
  cases hparse
  exact ⟨tokens, parsed, tokenize_of_toOption htokens, hparse', hdrawing, hmessages, hshown⟩

end FloorPlan
