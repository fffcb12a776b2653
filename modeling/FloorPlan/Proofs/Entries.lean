import FloorPlan.Entries

/-! # Entries

Each operation on entries in terms of their names.  Writing to a new name appends, so entries with
different names come out of `Entries.ofPairs` as they are. -/

namespace FloorPlan.Entries

variable {α : Type} {es es' : Entries α} {n : String} {v : α}

@[simp] theorem names_nil : names ([] : Entries α) = [] := rfl

@[simp] theorem names_cons (e : String × α) (es : Entries α) : names (e :: es) = e.1 :: es.names :=
  rfl

@[simp] theorem names_append (es es' : Entries α) : (es ++ es').names = es.names ++ es'.names :=
  List.map_append

theorem has_iff : es.has n = true ↔ n ∈ es.names := by
  simp [has, names]

theorem get?_isSome_iff : (es.get? n).isSome = true ↔ n ∈ es.names := by
  simp [get?, names, List.lookup_isSome_iff]

theorem get?_eq_none_iff : es.get? n = none ↔ n ∉ es.names := by
  rw [← get?_isSome_iff, Option.not_isSome_iff_eq_none]

theorem get?_append : (es ++ es').get? n = (es.get? n).or (es'.get? n) := List.lookup_append

/-- The first value of a name is the one that is read. -/
theorem get?_of_notMem (h : n ∉ es.names) : (es ++ (n, v) :: es').get? n = some v := by
  rw [get?_append, get?_eq_none_iff.mpr h, Option.none_or, get?, List.lookup_cons_self]

theorem put_of_notMem (h : n ∉ es.names) : put n v es = es ++ [(n, v)] := by
  induction es with
  | nil => rfl
  | cons e es ih =>
      rw [names_cons, List.mem_cons, not_or] at h
      rw [put, if_neg (Ne.symm h.1), ih h.2, List.cons_append]

/-- Writing entries with different names one by one gives these entries. -/
theorem ofPairs_of_nodup (h : es.names.Nodup) : ofPairs es = es := by
  have hfold : ∀ (es acc : Entries α), (acc ++ es).names.Nodup →
      es.foldl (fun es p => put p.1 p.2 es) acc = acc ++ es := by
    intro es
    induction es with
    | nil => simp
    | cons e es ih =>
        intro acc hnodup
        have hmem : e.1 ∉ acc.names := by
          rw [names_append, names_cons, List.nodup_append] at hnodup
          intro he
          exact hnodup.2.2 e.1 he e.1 (by simp) rfl
        have hacc : (acc ++ [e] ++ es).names.Nodup := by simpa using hnodup
        rw [List.foldl_cons, put_of_notMem hmem, ih _ hacc, List.append_assoc,
          List.singleton_append]
  exact hfold es [] h

/-! ### One value for each name of a list -/

variable {names : List String} {f : String → α}

theorem get?_tabulated (h : n ∈ names) : get? (names.map fun m => (m, f m)) n = some (f n) := by
  induction names with
  | nil => cases h
  | cons m names ih =>
      rw [List.map_cons]
      by_cases hm : n = m
      · rw [hm]
        exact List.lookup_cons_self
      · have hne : (n == m) = false := by simpa using hm
        have hrest := ih ((List.mem_cons.mp h).resolve_left hm)
        rw [get?, List.lookup_cons, hne]
        exact hrest

theorem put_tabulated (hnodup : names.Nodup) (h : n ∈ names) :
    put n v (names.map fun m => (m, f m)) = names.map fun m => (m, if m = n then v else f m) := by
  induction names with
  | nil => cases h
  | cons m names ih =>
      rw [List.nodup_cons] at hnodup
      rw [List.map_cons, List.map_cons, put]
      by_cases hm : m = n
      · -- the name does not occur again, so the rest is kept
        have hrest : ∀ l ∈ names, (l, f l) = (l, if l = n then v else f l) := by
          intro l hl
          rw [if_neg]
          rintro rfl
          exact hnodup.1 (hm ▸ hl)
        rw [if_pos hm, if_pos hm, List.map_congr_left hrest]
      · rw [if_neg hm, if_neg hm, ih hnodup.2 ((List.mem_cons.mp h).resolve_left (Ne.symm hm))]

end FloorPlan.Entries
