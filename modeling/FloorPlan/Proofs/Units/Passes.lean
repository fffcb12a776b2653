import FloorPlan.Proofs.Units.Chains

/-! # Which units are resolved, and in what order

A declaration enters the table in the pass whose number is that of the forward references in its
chain: `Entered` is what holds in the middle of a pass, `Entered.enter` is one declaration,
`Entered.pass` and `Entered.passes` are whole passes.  Passes end early only when no chain has
more forward references (`Entered.settled`), so ten passes resolve the chains with at most nine
(`resolveUnits_grounded`). -/

namespace FloorPlan.Units

open Drawing (UnitDecl)

/-! ### One declaration -/

section

variable {ds pre post resolved : List UnitDecl} {sizes : Entries Float} {d : UnitDecl} {k : Nat}

theorem pixels?_isSome_iff :
    (pixels? sizes d).isSome = true ↔ d.unit ∈ sizes.names ∨ d.unit ∈ physical.names := by
  rw [← Entries.get?_isSome_iff, ← Entries.get?_isSome_iff]
  unfold pixels?
  split
  · next h => simp [h]
  · next h => simp [h]

/-- A declaration is passed over, or its name is new and goes to the end. -/
theorem enter_cases (sizes : Entries Float) (d : UnitDecl) :
    (enter sizes d = sizes ∧ (d.name ∈ sizes.names ∨ pixels? sizes d = none)) ∨
      (d.name ∉ sizes.names ∧ ∃ px, pixels? sizes d = some px ∧
        enter sizes d = sizes ++ [(d.name, px)]) := by
  unfold enter
  by_cases hname : d.name ∈ sizes.names
  · rw [if_pos (Entries.has_iff.mpr hname)]
    exact .inl ⟨rfl, .inl hname⟩
  · rw [if_neg fun h => hname (Entries.has_iff.mp h)]
    cases hpx : pixels? sizes d with
    | none => exact .inl ⟨rfl, .inr rfl⟩
    | some px => exact .inr ⟨hname, px, rfl, Entries.put_of_notMem hname⟩

/-- The table only grows. -/
theorem prefix_enter (sizes : Entries Float) (d : UnitDecl) : sizes <+: enter sizes d := by
  rcases enter_cases sizes d with ⟨heq, -⟩ | ⟨-, px, -, heq⟩
  · simp only [heq, List.prefix_refl]
  · rw [heq]
    exact List.prefix_append _ _

theorem prefix_pass (ds : List UnitDecl) (sizes : Entries Float) : sizes <+: pass ds sizes := by
  induction ds generalizing sizes with
  | nil => exact List.prefix_refl _
  | cons d ds ih => exact (prefix_enter sizes d).trans (ih _)

/-- The turn of `d` is in the first `k` passes, or in the part `pre` of the next one. -/
def Due (ds : List UnitDecl) (k : Nat) (pre : List UnitDecl) (d : UnitDecl) : Prop :=
  d ∈ ds ∧ d.name ≠ baseUnit ∧ ∃ n, Grounded ds d n ∧ (n < k ∨ n = k ∧ d ∈ pre)

theorem due_append {e : UnitDecl} (hd : d ∈ ds) : Due ds k (pre ++ [d]) e ↔
    Due ds k pre e ∨ (e = d ∧ d.name ≠ baseUnit ∧ Grounded ds d k) := by
  constructor
  · rintro ⟨he, hbase, n, hn, hlt | ⟨rfl, hmem⟩⟩
    · exact .inl ⟨he, hbase, n, hn, .inl hlt⟩
    · rcases List.mem_append.mp hmem with hpre | hlast
      · exact .inl ⟨he, hbase, n, hn, .inr ⟨rfl, hpre⟩⟩
      · obtain rfl : e = d := List.mem_singleton.mp hlast
        exact .inr ⟨rfl, hbase, hn⟩
  · rintro (⟨he, hbase, n, hn, hlt | ⟨hk, hpre⟩⟩ | ⟨rfl, hbase, hk⟩)
    · exact ⟨he, hbase, n, hn, .inl hlt⟩
    · exact ⟨he, hbase, n, hn, .inr ⟨hk, List.mem_append_left _ hpre⟩⟩
    · exact ⟨hd, hbase, k, hk, .inr ⟨rfl, by simp⟩⟩

theorem due_all : Due ds k ds d ↔ Due ds (k + 1) [] d := by
  constructor
  · rintro ⟨hd, hbase, n, hn, hturn⟩
    exact ⟨hd, hbase, n, hn, .inl (by omega)⟩
  · rintro ⟨hd, hbase, n, hn, hlt | ⟨-, hmem⟩⟩
    · by_cases hk : n = k
      · exact ⟨hd, hbase, n, hn, .inr ⟨hk, hd⟩⟩
      · exact ⟨hd, hbase, n, hn, .inl (by omega)⟩
    · cases hmem

theorem due_start : Due ds k [] d ↔ d ∈ ds ∧ d.name ≠ baseUnit ∧ ∃ n < k, Grounded ds d n := by
  constructor
  · rintro ⟨hd, hbase, n, hn, hlt | ⟨-, hmem⟩⟩
    · exact ⟨hd, hbase, n, hlt, hn⟩
    · cases hmem
  · rintro ⟨hd, hbase, n, hlt, hn⟩
    exact ⟨hd, hbase, n, hn, .inl hlt⟩

/-- The declarations `resolved` have entered the table, in this order, after `k` passes and the
part `pre` of the next one. -/
structure Entered (ds : List UnitDecl) (k : Nat) (pre : List UnitDecl) (sizes : Entries Float)
    (resolved : List UnitDecl) : Prop where
  names : sizes.names = baseUnit :: resolved.map (·.name)
  mem_iff : ∀ d, d ∈ resolved ↔ Due ds k pre d
  sorted : resolved.Pairwise (Sooner ds)

namespace Entered

theorem ne_base (h : Entered ds k pre sizes resolved) (hnew : d.name ∉ sizes.names) :
    d.name ≠ baseUnit := by
  intro hb
  rw [h.names, hb] at hnew
  exact hnew List.mem_cons_self

/-- A name is in the table if its declaration has entered. -/
theorem name_mem_iff (h : Entered ds k pre sizes resolved) (hds : (ds.map (·.name)).Nodup)
    (hd : d ∈ ds) (hname : d.name ≠ baseUnit) : d.name ∈ sizes.names ↔ d ∈ resolved := by
  rw [h.names, List.mem_cons, List.mem_map]
  constructor
  · rintro (hb | ⟨e, he, hname'⟩)
    · exact absurd hb hname
    · rwa [← eq_of_name hds ((h.mem_iff e).mp he).1 hd hname']
  · intro hr
    exact .inr ⟨d, hr, rfl⟩

/-- What can be entered at its turn in pass `k` has a chain with `k` forward references, or it would
have entered before. -/
theorem grounded_of_isSome (h : Entered ds k pre sizes resolved) (hds : (ds.map (·.name)).Nodup)
    (hsplit : ds = pre ++ d :: post) (hnew : d.name ∉ sizes.names)
    (hsome : (pixels? sizes d).isSome = true) : Grounded ds d k := by
  have hd : d ∈ ds := by simp [hsplit]
  have hbase := h.ne_base hnew
  have hnot : d ∉ resolved := fun hr => hnew ((h.name_mem_iff hds hd hbase).mpr hr)
  have hle : ∀ n, Grounded ds d n → k ≤ n := by
    intro n hn
    by_contra hlt
    exact hnot ((h.mem_iff d).mpr ⟨hd, hbase, n, hn, .inl (by omega)⟩)
  by_cases hg : IsGround d.unit
  · have hzero : k ≤ 0 := hle 0 (.ends hg)
    obtain rfl : k = 0 := by omega
    exact .ends hg
  · have hunit := pixels?_isSome_iff.mp hsome
    have hmem : d.unit ∈ sizes.names := hunit.resolve_right fun hp => hg (.inr hp)
    rw [h.names, List.mem_cons, List.mem_map] at hmem
    obtain ⟨e, he, hen⟩ := hmem.resolve_left fun hb => hg (.inl hb)
    obtain ⟨heds, -, n, hn, hturn⟩ := (h.mem_iff e).mp he
    have hstep : Grounded ds d (n + forward ds d e) := .step hg heds hen hn
    have hk := hle _ hstep
    have heq : n + forward ds d e = k := by
      by_cases hlater : ds.idxOf d < ds.idxOf e
      · rw [forward, if_pos hlater] at hk ⊢
        rcases hturn with hlt | ⟨-, hpre⟩
        · omega
        · have := (mem_front_iff hds hsplit).mp hpre
          omega
      · rw [forward, if_neg hlater] at hk ⊢
        omega
    rwa [heq] at hstep

/-- At the turn in pass `k` of a declaration whose chain has `k` forward references, its unit is
known. -/
theorem isSome_of_grounded (h : Entered ds k pre sizes resolved) (hds : (ds.map (·.name)).Nodup)
    (hsplit : ds = pre ++ d :: post) (hk : Grounded ds d k) :
    (pixels? sizes d).isSome = true := by
  have hd : d ∈ ds := by simp [hsplit]
  rw [pixels?_isSome_iff]
  cases hk with
  | ends hg =>
      rcases hg with hb | hp
      · refine .inl ?_
        rw [h.names, hb]
        exact List.mem_cons_self
      · exact .inr hp
  | @step _ e n hg heds hen hn =>
      have hebase : e.name ≠ baseUnit := fun hb => hg (.inl (hen.symm.trans hb))
      have hed : ds.idxOf e ≠ ds.idxOf d := by
        intro heq
        obtain rfl : e = d := (List.idxOf_inj heds).mp heq
        exact hn.unit_ne hds hd hg hen
      have he : e ∈ resolved := by
        refine (h.mem_iff e).mpr ⟨heds, hebase, n, hn, ?_⟩
        by_cases hlater : ds.idxOf d < ds.idxOf e
        · rw [forward, if_pos hlater]
          exact .inl (by omega)
        · rw [forward, if_neg hlater]
          exact .inr ⟨by omega, (mem_front_iff hds hsplit).mpr (by omega)⟩
      refine .inl ?_
      rw [← hen]
      exact (h.name_mem_iff hds heds hebase).mpr he

/-- One declaration of a pass. -/
theorem enter (h : Entered ds k pre sizes resolved) (hds : (ds.map (·.name)).Nodup)
    (hsplit : ds = pre ++ d :: post) :
    ∃ resolved', Entered ds k (pre ++ [d]) (enter sizes d) resolved' := by
  have hd : d ∈ ds := by simp [hsplit]
  rcases enter_cases sizes d with ⟨heq, hold⟩ | ⟨hnew, px, hpx, heq⟩
  · -- `d` is passed over: if its chain has `k` forward references, it is in the table
    rw [heq]
    refine ⟨resolved, h.names, fun e => ?_, h.sorted⟩
    rw [h.mem_iff e, due_append hd]
    refine (or_iff_left_of_imp ?_).symm
    rintro ⟨rfl, hbase, hk⟩
    have hmem : e.name ∈ sizes.names := by
      by_contra hnot
      have hsome := h.isSome_of_grounded hds hsplit hk
      rw [hold.resolve_left hnot] at hsome
      cases hsome
    exact (h.mem_iff e).mp ((h.name_mem_iff hds hd hbase).mp hmem)
  · -- `d` comes last, after everything that has entered before
    have hbase := h.ne_base hnew
    have hk : Grounded ds d k := h.grounded_of_isSome hds hsplit hnew (by rw [hpx]; rfl)
    rw [heq]
    refine ⟨resolved ++ [d], by simp [h.names], fun e => ?_, ?_⟩
    · rw [List.mem_append, h.mem_iff e, List.mem_singleton, due_append hd]
      exact or_congr_right ⟨fun he => ⟨he, hbase, hk⟩, fun he => he.1⟩
    · rw [List.pairwise_append]
      refine ⟨h.sorted, List.pairwise_singleton _ _, ?_⟩
      intro e he d' hd'
      obtain rfl : d' = d := List.mem_singleton.mp hd'
      obtain ⟨-, -, n, hn, hlt | ⟨hnk, hpre⟩⟩ := (h.mem_iff e).mp he
      · exact ⟨n, k, hn, hk, .inl hlt⟩
      · exact ⟨n, k, hn, hk, .inr ⟨hnk, (mem_front_iff hds hsplit).mp hpre⟩⟩

/-! ### Whole passes -/

/-- The rest of a pass. -/
theorem rest (h : Entered ds k pre sizes resolved) (hds : (ds.map (·.name)).Nodup)
    (hsplit : ds = pre ++ post) :
    ∃ resolved', Entered ds k ds (Units.pass post sizes) resolved' := by
  induction post generalizing pre sizes resolved with
  | nil =>
      rw [List.append_nil] at hsplit
      subst hsplit
      exact ⟨resolved, h⟩
  | cons d post ih =>
      obtain ⟨resolved', h'⟩ := h.enter hds hsplit
      exact ih h' (by simp [hsplit])

/-- One pass. -/
theorem pass (h : Entered ds k [] sizes resolved) (hds : (ds.map (·.name)).Nodup) :
    ∃ resolved', Entered ds (k + 1) [] (Units.pass ds sizes) resolved' := by
  obtain ⟨resolved', h'⟩ := h.rest hds (rfl : ds = [] ++ ds)
  exact ⟨resolved', h'.names, fun d => (h'.mem_iff d).trans due_all, h'.sorted⟩

/-- If a pass adds nothing, no chain is left for later passes. -/
theorem settled (h : Entered ds k [] sizes resolved) (hds : (ds.map (·.name)).Nodup)
    (hpass : Units.pass ds sizes = sizes) (n : Nat) :
    Entered ds (k + n) [] sizes resolved := by
  obtain ⟨resolved', h'⟩ := h.pass hds
  rw [hpass] at h'
  -- nothing has `k` forward references, so nothing has more
  have hnone : ∀ d ∈ ds, d.name ≠ baseUnit → ∀ m, Grounded ds d m → m < k := by
    intro d hd hbase m hm
    by_contra hle
    obtain ⟨e, he, hebase, hk⟩ := hm.exists_of_le hd hbase (by omega : k ≤ m)
    have hnew : e ∈ resolved' :=
      (h'.mem_iff e).mpr (due_start.mpr ⟨he, hebase, k, Nat.lt_succ_self k, hk⟩)
    have hold : e ∈ resolved :=
      (h.name_mem_iff hds he hebase).mp ((h'.name_mem_iff hds he hebase).mpr hnew)
    obtain ⟨-, -, m', hlt, hm'⟩ := due_start.mp ((h.mem_iff e).mp hold)
    have := hk.unique hds hm'
    omega
  refine ⟨h.names, fun d => ?_, h.sorted⟩
  rw [h.mem_iff d, due_start, due_start]
  constructor
  · rintro ⟨hd, hbase, m, hlt, hm⟩
    exact ⟨hd, hbase, m, by omega, hm⟩
  · rintro ⟨hd, hbase, m, -, hm⟩
    exact ⟨hd, hbase, m, hnone d hd hbase m hm, hm⟩

/-- At most `n` passes, with the early end. -/
theorem passes (h : Entered ds k [] sizes resolved) (hds : (ds.map (·.name)).Nodup) (n : Nat) :
    ∃ resolved', Entered ds (k + n) [] (Units.passes ds n sizes).2 resolved' := by
  induction n generalizing k sizes resolved with
  | zero => exact ⟨resolved, h⟩
  | succ n ih =>
      simp only [Units.passes]
      split
      · next hlen =>
          have heq : Units.pass ds sizes = sizes := ((prefix_pass ds sizes).eq_of_length hlen.symm).symm
          rw [heq]
          exact ⟨resolved, h.settled hds heq (n + 1)⟩
      · obtain ⟨resolved', h'⟩ := h.pass hds
        obtain ⟨final, hfinal⟩ := ih h'
        exact ⟨final, by rwa [Nat.add_right_comm] at hfinal⟩

/-- After all passes. -/
theorem mem_resolved_iff (h : Entered ds maxPasses [] sizes resolved) :
    d ∈ resolved ↔ d ∈ ds ∧ d.name ≠ baseUnit ∧ ∃ n ≤ 9, Grounded ds d n := by
  rw [h.mem_iff d, due_start]
  have hle : ∀ n, n < maxPasses ↔ n ≤ 9 := fun n => Nat.lt_succ_iff
  simp only [hle]

/-- Before the first pass. -/
theorem start (ds : List UnitDecl) (px : Float) : Entered ds 0 [] [(baseUnit, px)] [] where
  names := rfl
  mem_iff d := by simp [due_start]
  sorted := .nil

end Entered

end

end Units

open Drawing (UnitDecl)

/-! ### The whole resolution -/

theorem resolveUnits_sizes (ds : List UnitDecl) : (resolveUnits ds).table.sizes =
    (Units.passes ds Units.maxPasses [(baseUnit, Units.scale ds)]).2 := rfl

/-- Everything with at most nine forward references has entered at the end. -/
theorem exists_resolved (ds : List UnitDecl) (hds : (ds.map (·.name)).Nodup) :
    ∃ resolved, Units.Entered ds Units.maxPasses [] (resolveUnits ds).table.sizes resolved := by
  have h := (Units.Entered.start ds (Units.scale ds)).passes hds Units.maxPasses
  rwa [Nat.zero_add, ← resolveUnits_sizes] at h

theorem resolveUnits_diagnostics (ds : List UnitDecl) : (resolveUnits ds).diagnostics =
    (ds.filter fun d => !(resolveUnits ds).table.sizes.has d.name).map fun d =>
      .warning .semantic ("Could not resolve unit: " ++ d.name) d.span := by
  simp [resolveUnits, Resolver.run, Resolver.ofDeclarations, semanticWarning]

/-- A declared unit is resolved if and only if its chain is grounded and has at most nine forward
references. The base unit comes first, then the resolved units by forward references and position;
the others are warned of in their order. -/
theorem resolveUnits_grounded (ds : List UnitDecl) (hds : (ds.map (·.name)).Nodup) :
    (∀ d ∈ ds, d.name ≠ baseUnit →
      (d.name ∈ (resolveUnits ds).table.sizes.names ↔ ∃ n ≤ 9, Units.Grounded ds d n)) ∧
    (∃ resolved : List UnitDecl,
      (resolveUnits ds).table.sizes.names = baseUnit :: resolved.map (·.name) ∧
      (∀ d, d ∈ resolved ↔ d ∈ ds ∧ d.name ≠ baseUnit ∧ ∃ n ≤ 9, Units.Grounded ds d n) ∧
      resolved.Pairwise (Units.Sooner ds)) ∧
    ∃ unresolved : List UnitDecl,
      (resolveUnits ds).diagnostics = unresolved.map (fun d =>
        .warning .semantic ("Could not resolve unit: " ++ d.name) d.span) ∧
      (∀ d, d ∈ unresolved ↔ d ∈ ds ∧ d.name ≠ baseUnit ∧ ¬ ∃ n ≤ 9, Units.Grounded ds d n) ∧
      unresolved.Sublist ds := by
  obtain ⟨resolved, h⟩ := exists_resolved ds hds
  have hkey : ∀ d ∈ ds, d.name ≠ baseUnit →
      (d.name ∈ (resolveUnits ds).table.sizes.names ↔ ∃ n ≤ 9, Units.Grounded ds d n) := by
    intro d hd hbase
    rw [h.name_mem_iff hds hd hbase, h.mem_resolved_iff]
    exact ⟨fun hr => hr.2.2, fun hr => ⟨hd, hbase, hr⟩⟩
  refine ⟨hkey, ⟨resolved, h.names, fun _ => h.mem_resolved_iff, h.sorted⟩,
    ds.filter fun d => !(resolveUnits ds).table.sizes.has d.name,
    resolveUnits_diagnostics ds, fun d => ?_, List.filter_sublist⟩
  rw [List.mem_filter, Bool.not_eq_true', Bool.eq_false_iff, ne_eq, Entries.has_iff]
  constructor
  · rintro ⟨hd, hnot⟩
    have hbase := h.ne_base hnot
    exact ⟨hd, hbase, fun hr => hnot ((hkey d hd hbase).mpr hr)⟩
  · rintro ⟨hd, hbase, hnot⟩
    exact ⟨hd, fun hr => hnot ((hkey d hd hbase).mp hr)⟩

/-- Each of the first two units is declared before its own unit, the last one by itself. -/
def oldUnits : List UnitDecl :=
  [⟨"foot", 12, "inch", none⟩, ⟨"inch", 12, "line", none⟩, ⟨"line", 2, "px", none⟩,
   ⟨"rod", 1, "rod", none⟩]

theorem resolveUnits_grounded_oldUnits :
    (oldUnits.map (·.name)).Nodup ∧
      (resolveUnits oldUnits).table.sizes.names = ["U", "line", "inch", "foot"] ∧
      (∃ n ≤ 9, Units.Grounded oldUnits ⟨"foot", 12, "inch", none⟩ n) ∧
      ¬ ∃ n ≤ 9, Units.Grounded oldUnits ⟨"rod", 1, "rod", none⟩ n := by
  have hds : (oldUnits.map (·.name)).Nodup := by decide
  have hnames : (resolveUnits oldUnits).table.sizes.names = ["U", "line", "inch", "foot"] := by
    decide +kernel
  obtain ⟨hkey, -, -⟩ := resolveUnits_grounded oldUnits hds
  have hfoot := hkey ⟨"foot", 12, "inch", none⟩ (by simp [oldUnits]) (by decide)
  have hrod := hkey ⟨"rod", 1, "rod", none⟩ (by simp [oldUnits]) (by decide)
  rw [hnames] at hfoot hrod
  exact ⟨hds, hnames, hfoot.mp (by decide), fun h => absurd (hrod.mpr h) (by decide)⟩

end FloorPlan
