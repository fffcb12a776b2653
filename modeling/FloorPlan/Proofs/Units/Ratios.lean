import FloorPlan.Proofs.Units.Passes

/-! # Declared ratios in the table

A declaration enters the table with the size that its unit has at that moment, and no size changes
later.  So the ratio that it declares holds in the finished table (`ratio_resolveUnits`), but
for one case: its unit is a physical one that gets a size of its own only afterwards
(`DeclaredLate`).  Then the physical size stays in the product. -/

namespace FloorPlan.Units

open Drawing (UnitDecl)

/-- A table that is made by entering declarations of `ds` one by one. -/
inductive Built (ds : List UnitDecl) (px : Float) : Entries Float → Prop
  | start : Built ds px [(baseUnit, px)]
  | enter {sizes : Entries Float} {d : UnitDecl} {size : Float} (h : Built ds px sizes)
      (hd : d ∈ ds) (hnew : d.name ∉ sizes.names) (hsize : pixels? sizes d = some size) :
      Built ds px (sizes ++ [(d.name, size)])

/-- The unit of `d` is a physical one whose own declaration is resolved, but is not there at the
turn of `d`: it is `d` itself, stands behind it, or has forward references. -/
def DeclaredLate (ds : List UnitDecl) (d : UnitDecl) : Prop :=
  d.unit ∈ physical.names ∧ ∃ e ∈ ds, e.name = d.unit ∧ (∃ n ≤ 9, Grounded ds e n) ∧
    ¬ (Grounded ds e 0 ∧ ds.idxOf e < ds.idxOf d)

/-- The ratio that `d` declares holds in a table: the size of its name is that of its unit, in the
table or else among the physical units, times its value. -/
def RatioHolds (sizes : Entries Float) (d : UnitDecl) : Prop :=
  match sizes.get? d.unit with
  | some px => sizes.get? d.name = some (d.value * px)
  | none => ∃ px, physical.get? d.unit = some px ∧ sizes.get? d.name = some (d.value * px)

section

variable {ds ds' : List UnitDecl} {px : Float} {sizes pre post : Entries Float} {d : UnitDecl}

/-! ### The history of a table -/

theorem Built.pass (h : Built ds px sizes) (hsub : ds' ⊆ ds) : Built ds px (pass ds' sizes) := by
  induction ds' generalizing sizes with
  | nil => exact h
  | cons d ds' ih =>
      rw [List.cons_subset] at hsub
      have henter : Built ds px (Units.enter sizes d) := by
        rcases enter_cases sizes d with ⟨heq, -⟩ | ⟨hnew, size, hsize, heq⟩
        · rwa [heq]
        · rw [heq]
          exact .enter h hsub.1 hnew hsize
      exact ih henter hsub.2

theorem Built.passes (h : Built ds px sizes) (n : Nat) : Built ds px (passes ds n sizes).2 := by
  induction n generalizing sizes with
  | zero => exact h
  | succ n ih =>
      have hpass : Built ds px (Units.pass ds sizes) := h.pass (List.Subset.refl ds)
      simp only [Units.passes]
      split
      · exact hpass
      · exact ih hpass

/-- The size of a declared unit comes from the table before it. -/
theorem Built.exists_split (h : Built ds px sizes) (hds : (ds.map (·.name)).Nodup) (hd : d ∈ ds)
    (hbase : d.name ≠ baseUnit) (hmem : d.name ∈ sizes.names) :
    ∃ pre size post, sizes = pre ++ (d.name, size) :: post ∧ d.name ∉ pre.names ∧
      pixels? pre d = some size := by
  induction h with
  | start => simp [hbase] at hmem
  | @enter sizes e size _ he hnew hsize ih =>
      by_cases hold : d.name ∈ sizes.names
      · obtain ⟨pre, size', post, rfl, hpre⟩ := ih hold
        exact ⟨pre, size', post ++ [(e.name, size)], by simp, hpre⟩
      · have hname : d.name = e.name := by
          simpa [hold] using hmem
        obtain rfl : d = e := eq_of_name hds hd he hname
        exact ⟨sizes, size, [], rfl, hnew, hsize⟩

/-- What is known of a unit, or that it is unknown, stays so in a larger table. -/
theorem pixels?_append (h : d.unit ∈ pre.names ∨ d.unit ∉ post.names) :
    pixels? (pre ++ post) d = pixels? pre d := by
  have hget : (pre ++ post).get? d.unit = pre.get? d.unit := by
    rw [Entries.get?_append]
    rcases h with hmem | hnot
    · obtain ⟨size, hsize⟩ := Option.isSome_iff_exists.mp (Entries.get?_isSome_iff.mpr hmem)
      rw [hsize, Option.some_or]
    · rw [Entries.get?_eq_none_iff.mpr hnot, Option.or_none]
  unfold pixels?
  rw [hget]

theorem pixels?_of_notMem (h : d.unit ∉ sizes.names) :
    pixels? sizes d = (physical.get? d.unit).map (d.value * ·) := by
  unfold pixels?
  rw [Entries.get?_eq_none_iff.mpr h]

theorem ratioHolds_iff {size : Float} (h : sizes.get? d.name = some size) :
    RatioHolds sizes d ↔ pixels? sizes d = some size := by
  unfold RatioHolds pixels?
  rw [h]
  cases sizes.get? d.unit with
  | some px => exact ⟨fun h => h.symm, fun h => h.symm⟩
  | none =>
      simp only [Option.map_eq_some_iff, Option.some.injEq]
      exact ⟨fun ⟨px, hpx, h⟩ => ⟨px, hpx, h.symm⟩, fun ⟨px, hpx, h⟩ => ⟨px, hpx, h.symm⟩⟩

/-! ### What stands before a declaration in the table -/

/-- The names before and after that of `d` are those of the declarations resolved before and after
`d`. -/
theorem Entered.exists_split {k : Nat} {part resolved : List UnitDecl} {size : Float}
    (h : Entered ds k part (pre ++ (d.name, size) :: post) resolved)
    (hds : (ds.map (·.name)).Nodup) (hd : d ∈ ds) (hbase : d.name ≠ baseUnit) :
    ∃ front back, resolved = front ++ d :: back ∧
      pre.names = baseUnit :: front.map (·.name) ∧ post.names = back.map (·.name) := by
  have hnames := h.names
  rw [Entries.names_append, Entries.names_cons, List.append_eq_cons_iff] at hnames
  obtain ⟨-, hfirst⟩ | ⟨names, hpre, hrest⟩ := hnames
  · exact absurd (List.head_eq_of_cons_eq hfirst).symm (Ne.symm hbase)
  · obtain ⟨front, later, rfl, rfl, hlater⟩ := List.map_eq_append_iff.mp hrest
    obtain ⟨e, back, rfl, hname, hpost⟩ := List.map_eq_cons_iff.mp hlater
    have he : e ∈ ds := ((h.mem_iff e).mp (by simp)).1
    obtain rfl : e = d := eq_of_name hds he hd hname
    exact ⟨front, back, rfl, hpre, hpost.symm⟩

/-- Before a declaration without forward references come those without forward references that
stand before it in the list. -/
theorem mem_front_iff_of_sorted {front back : List UnitDecl} {e : UnitDecl}
    (h : (front ++ d :: back).Pairwise (Sooner ds)) (hds : (ds.map (·.name)).Nodup)
    (hd : Grounded ds d 0) (he : e ∈ front ++ d :: back) :
    e ∈ front ↔ Grounded ds e 0 ∧ ds.idxOf e < ds.idxOf d := by
  rw [List.pairwise_append, List.pairwise_cons] at h
  obtain ⟨-, ⟨hback, -⟩, hfront⟩ := h
  constructor
  · intro hmem
    obtain ⟨m, n, hm, hn, horder⟩ := hfront e hmem d (by simp)
    obtain rfl : n = 0 := hn.unique hds hd
    obtain ⟨rfl, hlt⟩ : m = 0 ∧ ds.idxOf e < ds.idxOf d := by omega
    exact ⟨hm, hlt⟩
  · rintro ⟨hzero, hlt⟩
    rcases List.mem_append.mp he with hmem | hmem
    · exact hmem
    · rcases List.mem_cons.mp hmem with rfl | hmem
      · omega
      · obtain ⟨m, n, hm, hn, horder⟩ := hback e hmem
        have hm0 := hm.unique hds hd
        have hn0 := hn.unique hds hzero
        omega

/-- A unit is declared late if its size is missing before `d` in the table and there at the end. -/
theorem declaredLate_iff {resolved : List UnitDecl} {size : Float}
    (h : Entered ds maxPasses [] (pre ++ (d.name, size) :: post) resolved)
    (hds : (ds.map (·.name)).Nodup) (hd : d ∈ ds) (hbase : d.name ≠ baseUnit)
    (hsize : pixels? pre d = some size) :
    DeclaredLate ds d ↔ d.unit ∉ pre.names ∧ d.unit ∈ (d.name :: post.names) := by
  obtain ⟨front, back, rfl, hpre, hpost⟩ := h.exists_split hds hd hbase
  have hlater : d.name :: post.names = (d :: back).map (·.name) := by
    rw [hpost, List.map_cons]
  rw [hlater, List.mem_map]
  constructor
  · rintro ⟨hphysical, e, he, hname, hresolved, hnot⟩
    have hunit : d.unit ≠ baseUnit := by
      intro hb
      rw [hb] at hphysical
      exact absurd hphysical (by decide)
    have hmem : e ∈ front ++ d :: back :=
      h.mem_resolved_iff.mpr ⟨he, hname.trans_ne hunit, hresolved⟩
    have hfront : e ∉ front := by
      rwa [mem_front_iff_of_sorted h.sorted hds (.ends (.inr hphysical)) hmem]
    refine ⟨?_, e, (List.mem_append.mp hmem).resolve_left hfront, hname⟩
    rw [hpre, List.mem_cons, List.mem_map]
    rintro (hb | ⟨e', he', hname'⟩)
    · exact hunit hb
    · have hds' : e' ∈ ds := (h.mem_resolved_iff.mp (List.mem_append_left _ he')).1
      obtain rfl : e' = e := eq_of_name hds hds' he (hname'.trans hname.symm)
      exact hfront he'
  · rintro ⟨hnew, e, hlate, hname⟩
    have hphysical : d.unit ∈ physical.names := by
      have hsome : (pixels? pre d).isSome = true := by rw [hsize]; rfl
      exact (pixels?_isSome_iff.mp hsome).resolve_left hnew
    have hmem : e ∈ front ++ d :: back := List.mem_append_right _ hlate
    obtain ⟨he, -, hresolved⟩ := h.mem_resolved_iff.mp hmem
    refine ⟨hphysical, e, he, hname, hresolved, ?_⟩
    rw [← mem_front_iff_of_sorted h.sorted hds (.ends (.inr hphysical)) hmem]
    intro hfront
    refine hnew ?_
    rw [hpre, ← hname]
    exact List.mem_cons_of_mem _ (List.mem_map_of_mem hfront)

end

end Units

open Drawing (UnitDecl)

theorem built_resolveUnits (ds : List UnitDecl) :
    Units.Built ds (Units.scale ds) (resolveUnits ds).table.sizes :=
  Units.Built.start.passes Units.maxPasses

/-- The declared ratio holds in the finished table, unless the unit is a physical one that is
declared late. In this case the physical size counts, and the ratio holds only if the two sizes of
the unit make no difference. -/
theorem ratio_resolveUnits (ds : List UnitDecl) (hds : (ds.map (·.name)).Nodup) (d : UnitDecl)
    (hd : d ∈ ds) (hbase : d.name ≠ baseUnit)
    (hkey : d.name ∈ (resolveUnits ds).table.sizes.names) :
    (¬ Units.DeclaredLate ds d → Units.RatioHolds (resolveUnits ds).table.sizes d) ∧
    (Units.DeclaredLate ds d → ∃ px own, Units.physical.get? d.unit = some px ∧
      (resolveUnits ds).table.sizes.get? d.unit = some own ∧
      (resolveUnits ds).table.sizes.get? d.name = some (d.value * px) ∧
      (Units.RatioHolds (resolveUnits ds).table.sizes d ↔ d.value * own = d.value * px)) := by
  obtain ⟨resolved, h⟩ := exists_resolved ds hds
  obtain ⟨pre, size, post, hsplit, hnew, hsize⟩ :=
    (built_resolveUnits ds).exists_split hds hd hbase hkey
  rw [hsplit] at h ⊢
  have hname : Entries.get? (pre ++ (d.name, size) :: post) d.name = some size :=
    Entries.get?_of_notMem hnew
  have hlate := Units.declaredLate_iff h hds hd hbase hsize
  rw [Units.ratioHolds_iff hname, hname]
  constructor
  · intro hnot
    rw [hlate, not_and_or, not_not] at hnot
    rw [Units.pixels?_append hnot, hsize]
  · intro hyes
    obtain ⟨hpre, hpost⟩ := hlate.mp hyes
    rw [Units.pixels?_of_notMem hpre, Option.map_eq_some_iff] at hsize
    obtain ⟨px, hpx, rfl⟩ := hsize
    have hmem : d.unit ∈ Entries.names (pre ++ (d.name, d.value * px) :: post) := by
      rw [Entries.names_append]
      exact List.mem_append_right _ hpost
    obtain ⟨own, hown⟩ := Option.isSome_iff_exists.mp (Entries.get?_isSome_iff.mpr hmem)
    refine ⟨px, own, hpx, hown, rfl, ?_⟩
    unfold Units.pixels?
    rw [hown, Option.some_inj]

/-- A unit made of centimetres, which are declared as well. -/
def metre : UnitDecl := ⟨"m", 2, "cm", none⟩

def centimetre : UnitDecl := ⟨"cm", 10, "px", none⟩

theorem ratio_resolveUnits_metre :
    Units.RatioHolds (resolveUnits [centimetre, metre]).table.sizes metre ∧
      Units.DeclaredLate [metre, centimetre] metre ∧
      (resolveUnits [metre, centimetre]).table.sizes.get? "m" = some (2 * 37.795275591) := by
  have hground : ∀ ds, Units.Grounded ds centimetre 0 := fun _ => .ends (.inr (by decide))
  have hearly : ¬ Units.DeclaredLate [centimetre, metre] metre := by
    rintro ⟨-, e, he, hname, -, hnot⟩
    obtain rfl : e = centimetre := Units.eq_of_name (by decide) he (by simp) hname
    exact hnot ⟨hground _, by decide +kernel⟩
  have hlate : Units.DeclaredLate [metre, centimetre] metre :=
    ⟨by decide, centimetre, by simp, rfl, ⟨0, by omega, hground _⟩,
      fun h => absurd h.2 (by decide +kernel)⟩
  have hholds := ratio_resolveUnits [centimetre, metre] (by decide) metre (by simp) (by decide)
    (by decide +kernel)
  obtain ⟨px, own, hpx, -, hsize, -⟩ :=
    (ratio_resolveUnits [metre, centimetre] (by decide) metre (by simp) (by decide)
      (by decide +kernel)).2 hlate
  obtain rfl : px = 37.795275591 := Option.some_inj.mp (hpx.symm.trans (by decide +kernel))
  exact ⟨hholds.1 hearly, hlate, hsize⟩

/-- The order of the declarations matters: the ratio may fail. -/
theorem not_ratio_resolveUnits : ¬ ∀ ds : List UnitDecl, (ds.map (·.name)).Nodup →
    ∀ d ∈ ds, d.name ≠ baseUnit → d.name ∈ (resolveUnits ds).table.sizes.names →
      Units.RatioHolds (resolveUnits ds).table.sizes d := by
  intro h
  have hratio := h [metre, centimetre] (by decide) metre (by simp) (by decide) (by decide +kernel)
  have hsize : (resolveUnits [metre, centimetre]).table.sizes.get? "m" = some 75.590551182 := by
    decide +kernel
  rw [Units.ratioHolds_iff hsize] at hratio
  exact absurd hratio (by decide +kernel)

end FloorPlan
