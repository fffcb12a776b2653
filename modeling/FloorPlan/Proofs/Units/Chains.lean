import FloorPlan.Units
import FloorPlan.Proofs.Entries
import Mathlib.Data.List.Nodup

/-! # Chains of unit declarations

From a declaration one is led to that of its unit, and so on.  A chain is grounded if it comes to a
declaration in terms of the base unit or of a physical unit; a chain that comes to an undeclared
unit, or around to itself, is not.  `Grounded ds d n` says that the chain of `d` is grounded and
has `n` forward references, that is steps to a declaration later in the list. -/

namespace FloorPlan.Units

open Drawing (UnitDecl)

/-- A unit with a size of its own: the base unit or a physical unit. -/
def IsGround (unit : String) : Prop := unit = baseUnit ∨ unit ∈ physical.names

/-- The number of forward references in a step from `d` to `e`. -/
def forward (ds : List UnitDecl) (d e : UnitDecl) : Nat :=
  if ds.idxOf d < ds.idxOf e then 1 else 0

/-- The chain of `d` is grounded and has `n` forward references. -/
inductive Grounded (ds : List UnitDecl) : UnitDecl → Nat → Prop
  | ends {d : UnitDecl} (h : IsGround d.unit) : Grounded ds d 0
  | step {d e : UnitDecl} {n : Nat} (hd : ¬ IsGround d.unit) (he : e ∈ ds)
      (hname : e.name = d.unit) (h : Grounded ds e n) : Grounded ds d (n + forward ds d e)

/-- The order of resolution: by forward references, then by position. -/
def Sooner (ds : List UnitDecl) (d e : UnitDecl) : Prop :=
  ∃ m n, Grounded ds d m ∧ Grounded ds e n ∧ (m < n ∨ m = n ∧ ds.idxOf d < ds.idxOf e)

section

variable {ds pre post : List UnitDecl} {d e : UnitDecl} {m n : Nat}

/-- Declarations with different names are told apart by them. -/
theorem eq_of_name (hds : (ds.map (·.name)).Nodup) (hd : d ∈ ds) (he : e ∈ ds)
    (h : d.name = e.name) : d = e :=
  List.inj_on_of_nodup_map hds hd he h

theorem Grounded.unique (hds : (ds.map (·.name)).Nodup) (h : Grounded ds d m)
    (h' : Grounded ds d n) : m = n := by
  induction h generalizing n with
  | ends hg =>
      cases h' with
      | ends _ => rfl
      | step hd _ _ _ => exact absurd hg hd
  | @step d e k hd he hname _ ih =>
      cases h' with
      | ends hg => exact absurd hg hd
      | @step _ e' k' _ he' hname' h' =>
          have hee : e' = e := eq_of_name hds he' he (hname'.trans hname.symm)
          subst hee
          rw [ih h']

/-- A unit that is declared in terms of itself is not grounded. -/
theorem Grounded.unit_ne (hds : (ds.map (·.name)).Nodup) (h : Grounded ds d n) (hd : d ∈ ds)
    (hg : ¬ IsGround d.unit) : d.name ≠ d.unit := by
  induction h with
  | ends hg' => exact absurd hg' hg
  | @step d e k hg he hname _ ih =>
      intro hself
      have hed : e = d := eq_of_name hds he hd (hname.trans hself.symm)
      subst hed
      exact ih hd hg hself

/-- Forward references come one by one: a chain with at least `m` of them comes past a declaration
whose own chain has `m`. -/
theorem Grounded.exists_of_le (h : Grounded ds d n) (hd : d ∈ ds) (hname : d.name ≠ baseUnit)
    (hm : m ≤ n) : ∃ e ∈ ds, e.name ≠ baseUnit ∧ Grounded ds e m := by
  induction h with
  | @ends d hg =>
      have hzero : m = 0 := by omega
      subst hzero
      exact ⟨d, hd, hname, .ends hg⟩
  | @step d e k hg he hen h ih =>
      by_cases hk : m ≤ k
      · have hbase : e.name ≠ baseUnit := fun hb => hg (.inl (hen.symm.trans hb))
        exact ih he hbase hk
      · have hlast : m = k + forward ds d e := by
          have hone : forward ds d e ≤ 1 := by
            unfold forward
            split <;> omega
          omega
        subst hlast
        exact ⟨d, hd, hname, .step hg he hen h⟩

/-! ### Positions -/

/-- What stands before `d` in the list has a smaller position. -/
theorem mem_front_iff (hds : (ds.map (·.name)).Nodup) (hsplit : ds = pre ++ d :: post) :
    e ∈ pre ↔ ds.idxOf e < ds.idxOf d := by
  have hnodup : (pre ++ d :: post).Nodup := hsplit ▸ hds.of_map _
  have hd : d ∉ pre := by
    rw [List.nodup_append] at hnodup
    intro hmem
    exact hnodup.2.2 d hmem d (by simp) rfl
  have hpos : ds.idxOf d = pre.length := by
    rw [hsplit, List.idxOf_append_of_notMem hd, List.idxOf_cons_self, Nat.add_zero]
  rw [hpos, hsplit]
  constructor
  · intro he
    rw [List.idxOf_append_of_mem he]
    exact List.idxOf_lt_length_iff.mpr he
  · intro hlt
    by_contra he
    rw [List.idxOf_append_of_notMem he] at hlt
    omega

end

end FloorPlan.Units
