import FloorPlan.Proofs.Entries
import FloorPlan.Proofs.Compiler.Sessions
import FloorPlan.Proofs.SelfCheck.Reports
import Mathlib.Data.List.Induction
import Mathlib.Data.List.Perm.Basic

/-! # Tables of the self check

A case passes if a compiler that has not run before gives the report that the case expects
(`Case.Passes`).  The self check goes through the groups of a table and has counters for each of
them.  In the end every case has been counted once, by its own outcome, in whatever order the table
has them; and the account names the cases group by group, the groups in the order of their first
cases (`run_table`). -/

namespace FloorPlan.SelfCheck

open Text (braced)

/-! ### Outcomes -/

/-- The report on a source by a compiler that has not run before, unless the source has a fault. -/
def freshReport? (source : String) : Option Report :=
  ((Compiler.ofName "<input>").compile false source).1.result.toOption.map (·.report)

/-- The report on the case's own source has the expected validity, and what stands in it is equal to
what is expected. -/
def Case.Passes (c : Case) : Prop :=
  ∃ r ∈ freshReport? c.source,
    r.isValid = c.shouldPass ∧ ∀ e ∈ c.expected, ∃ v, Stands r e.1 v ∧ v.Equals e.2

theorem Case.agrees_iff {c : Case} {r : Report} :
    c.agrees r = true ↔
      r.isValid = c.shouldPass ∧ ∀ e ∈ c.expected, ∃ v, Stands r e.1 v ∧ v.Equals e.2 := by
  unfold agrees
  rw [Bool.and_eq_true, decide_eq_true_iff, List.all_eq_true]
  simp only [holds_iff]

instance (c : Case) : Decidable c.Passes :=
  decidable_of_iff (∃ r ∈ freshReport? c.source, c.agrees r = true) <| by
    simp only [Case.agrees_iff, Case.Passes]

/-- The line on the outcome of a case. -/
def Case.resultLine (c : Case) : String := (if c.Passes then "  ✓ " else "  ✗ ") ++ c.name

/-- The verdict on a case: its report is on what a new compiler holds after the source. -/
def Case.verdict (c : Case) : Verdict :=
  let report := ((Compiler.ofName "<input>").compile false c.source).2.report
  ⟨c.name, c.shouldPass, report, c.agrees report⟩

section

variable {c : Case}

/-- Where a new compiler gives a report, it is that of the verdict, whatever the compiler's name. -/
theorem Case.result_eq (h : (freshReport? c.source).isSome = true) (name : String) :
    ∃ outputs, ((Compiler.ofName name).compile false c.source).1.result =
      .ok ⟨outputs, c.verdict.report⟩ := by
  rw [(Compiler.compile_eq _ (.ofName "<input>") false false c.source).1]
  unfold freshReport? at h
  cases hresult : ((Compiler.ofName "<input>").compile false c.source).1.result with
  | error fault =>
      rw [hresult] at h
      cases h
  | ok r =>
      refine ⟨r.outputs, ?_⟩
      rw [Compiler.compile_result hresult]
      rfl

theorem Case.passes_iff (h : (freshReport? c.source).isSome = true) :
    c.Passes ↔ c.verdict.agrees = true := by
  obtain ⟨outputs, hresult⟩ := result_eq h "<input>"
  have hreport : freshReport? c.source = some c.verdict.report := by
    rw [freshReport?, hresult]
    rfl
  have hagrees : c.verdict.agrees = c.agrees c.verdict.report := rfl
  rw [hagrees, agrees_iff, Passes, hreport]
  simp

/-- A run of a case gives its verdict. -/
theorem Case.run_eq (h : (freshReport? c.source).isSome = true) : c.run.2 = .ok c.verdict := by
  obtain ⟨outputs, hresult⟩ := result_eq h ("<" ++ c.name ++ ">")
  unfold Case.run
  simp only [hresult]
  rfl

end

/-! ### Groups -/

/-- A case is in the group that its name has before the first colon. -/
def Case.InGroup (c : Case) (g : String) : Prop :=
  ':' ∉ g.toList ∧ (c.name = g ∨ g.toList ++ [':'] <+: c.name.toList)

instance (c : Case) (g : String) : Decidable (c.InGroup g) :=
  inferInstanceAs (Decidable (_ ∧ _))

/-- The names are those of the groups of a table, in the order of their first cases. -/
structure GroupsOf (cases : List Case) (names : List String) : Prop where
  mem_iff : ∀ g, g ∈ names ↔ ∃ c ∈ cases, c.InGroup g
  /-- Some beginning of the table has a case of the earlier group and none of the later one. -/
  ordered : names.Pairwise fun g g' => ∃ before, before <+: cases ∧
    (∃ c ∈ before, c.InGroup g) ∧ ∀ c ∈ before, ¬ c.InGroup g'

/-- A table has its groups in one order. -/
theorem GroupsOf.unique {cases : List Case} {names names' : List String} (h : GroupsOf cases names)
    (h' : GroupsOf cases names') : names = names' := by
  have hnodup : ∀ {names}, GroupsOf cases names → names.Nodup := fun hn =>
    hn.ordered.imp fun ⟨before, _, ⟨c, hc, hg⟩, hnone⟩ hsame => hnone c hc (hsame ▸ hg)
  have hperm : names.Perm names' := (List.perm_ext_iff_of_nodup (hnodup h) (hnodup h')).mpr
    fun g => (h.mem_iff g).trans (h'.mem_iff g).symm
  refine hperm.eq_of_pairwise ?_ h.ordered h'.ordered
  rintro g g' - - ⟨before, hbefore, ⟨c, hc, hg⟩, hnone⟩ ⟨before', hbefore', ⟨c', hc', hg'⟩, hnone'⟩
  -- one of the two beginnings is a beginning of the other one
  rcases List.prefix_or_prefix_of_prefix hbefore hbefore' with hle | hle
  · exact absurd hg (hnone' c (hle.subset hc))
  · exact absurd hg' (hnone c' (hle.subset hc'))

/-- The cases of a group in the order of the table. -/
def groupCases (cases : List Case) (g : String) : List Case := cases.filter (·.InGroup g)

/-- A text without a colon that another text begins with, alone or before a colon, is what the other
text has before its first colon. -/
theorem takeWhile_colon {g cs : List Char} (hg : ':' ∉ g) :
    cs.takeWhile (· ≠ ':') = g ↔ cs = g ∨ g ++ [':'] <+: cs := by
  have hall : ∀ c ∈ g, decide (c ≠ ':') = true := by
    intro c hc
    simpa using ne_of_mem_of_not_mem hc hg
  constructor
  · rintro rfl
    cases hrest : cs.dropWhile (· ≠ ':') with
    | nil =>
        left
        have hsplit := List.takeWhile_append_dropWhile (p := (· ≠ ':')) (l := cs)
        rw [hrest, List.append_nil] at hsplit
        exact hsplit.symm
    | cons c rest =>
        have hc : c = ':' := by
          have hhead := List.head?_dropWhile_not (· ≠ ':') cs
          rw [hrest] at hhead
          simpa using hhead
        have hsplit := List.takeWhile_append_dropWhile (p := (· ≠ ':')) (l := cs)
        rw [hrest, hc] at hsplit
        exact .inr ⟨rest, by rw [List.append_assoc]; exact hsplit⟩
  · rintro (rfl | ⟨rest, rfl⟩)
    · exact List.takeWhile_eq_self_iff.mpr hall
    · rw [List.append_assoc, List.takeWhile_append_of_pos hall]
      simp

theorem Case.inGroup_iff {c : Case} {g : String} : c.InGroup g ↔ c.group = g := by
  have hgroup : c.group = g ↔ c.name.toList.takeWhile (· ≠ ':') = g.toList := by
    unfold group
    rw [← String.toList_inj, String.toList_ofList]
  rw [hgroup]
  constructor
  · rintro ⟨hg, hname⟩
    exact (takeWhile_colon hg).mpr (hname.imp_left (congrArg String.toList))
  · intro h
    have hg : ':' ∉ g.toList := by
      rw [← h]
      intro hmem
      simpa using List.mem_takeWhile_imp hmem
    exact ⟨hg, ((takeWhile_colon hg).mp h).imp_left String.toList_inj.mp⟩

theorem groupCases_eq (cases : List Case) (g : String) :
    groupCases cases g = cases.filter (·.group = g) := by
  unfold groupCases
  simp only [Case.inGroup_iff]

/-- The names that the loop over a table comes to. -/
def groupNames (cases : List Case) : List String := (cases.map Case.group).eraseDups

/-- The cases of a table group by group. -/
def inGroups (cases : List Case) : List Case := (groupNames cases).flatMap (groupCases cases)

theorem mem_groupNames {cases : List Case} {g : String} :
    g ∈ groupNames cases ↔ ∃ c ∈ cases, c.group = g := by
  unfold groupNames
  rw [List.mem_eraseDups, List.mem_map]

/-- A case of a known group adds no name, a case of a new one adds its name at the end. -/
theorem groupNames_concat (cases : List Case) (c : Case) :
    groupNames (cases ++ [c]) =
      if c.group ∈ groupNames cases then groupNames cases else groupNames cases ++ [c.group] := by
  by_cases h : c.group ∈ groupNames cases
  · rw [if_pos h]
    simp [groupNames, List.eraseDups_append, List.removeAll, mem_groupNames.mp h]
  · rw [if_neg h]
    rw [mem_groupNames] at h
    simp [groupNames, List.eraseDups_append, List.removeAll, List.eraseDups_cons, h]

theorem groupNames_nodup (cases : List Case) : (groupNames cases).Nodup := by
  induction cases using List.reverseRecOn with
  | nil => exact List.nodup_nil
  | append_singleton cases c ih =>
      rw [groupNames_concat]
      split
      · exact ih
      · next h =>
          apply List.nodup_append.mpr
          refine ⟨ih, List.nodup_singleton _, ?_⟩
          intro g hg d hd
          rw [List.mem_singleton] at hd
          rintro rfl
          exact h (hd ▸ hg)

/-- The loop meets the groups in the order of their first cases. -/
theorem groupsOf_groupNames (cases : List Case) : GroupsOf cases (groupNames cases) := by
  suffices (groupNames cases).Pairwise fun g g' => ∃ before, before <+: cases ∧
      (∃ c ∈ before, c.group = g) ∧ ∀ c ∈ before, c.group ≠ g' by
    constructor
    · simpa only [Case.inGroup_iff] using fun g => mem_groupNames
    · simpa only [Case.inGroup_iff] using this
  induction cases using List.reverseRecOn with
  | nil => exact List.Pairwise.nil
  | append_singleton cases c ih =>
      have hlonger : (groupNames cases).Pairwise fun g g' => ∃ before, before <+: cases ++ [c] ∧
          (∃ d ∈ before, d.group = g) ∧ ∀ d ∈ before, d.group ≠ g' :=
        ih.imp fun ⟨before, hbefore, h⟩ => ⟨before, hbefore.trans (List.prefix_append ..), h⟩
      rw [groupNames_concat]
      split
      · exact hlonger
      · next hnew =>
          -- the table before the case has all the groups but the new one
          refine List.pairwise_append.mpr ⟨hlonger, List.pairwise_singleton _ _, ?_⟩
          intro g hg g' hg'
          obtain rfl := List.mem_singleton.mp hg'
          refine ⟨cases, List.prefix_append .., mem_groupNames.mp hg, ?_⟩
          exact fun d hd hgroup => hnew (mem_groupNames.mpr ⟨d, hd, hgroup⟩)

theorem groupCases_concat (cases : List Case) (c : Case) (g : String) :
    groupCases (cases ++ [c]) g =
      if g = c.group then groupCases cases g ++ [c] else groupCases cases g := by
  simp only [groupCases_eq]
  rw [List.filter_append]
  by_cases h : g = c.group
  · rw [if_pos h]
    simp [h]
  · rw [if_neg h]
    simp [Ne.symm h]

/-- The groups of a table are those of its names. -/
theorem groups_eq (cases : List Case) :
    groups cases = (groupNames cases).map fun g => (g, groupCases cases g) := by
  induction cases using List.reverseRecOn with
  | nil => rfl
  | append_singleton cases c ih =>
      have hstep : groups (cases ++ [c]) = Entries.put c.group
          (((groups cases).get? c.group).getD [] ++ [c]) (groups cases) := by
        unfold groups
        rw [List.foldl_concat]
      rw [hstep, ih, groupNames_concat]
      by_cases h : c.group ∈ groupNames cases
      · rw [if_pos h, Entries.get?_tabulated h, Option.getD_some,
          Entries.put_tabulated (groupNames_nodup cases) h]
        apply List.map_congr_left
        intro g _
        rw [groupCases_concat]
        by_cases hg : g = c.group
        · rw [if_pos hg, if_pos hg, hg]
        · rw [if_neg hg, if_neg hg]
      · have hnew : c.group ∉ Entries.names ((groupNames cases).map fun g => (g, groupCases cases g)) := by
          unfold Entries.names
          rw [List.map_map]
          simpa using h
        have hnone : groupCases cases c.group = [] := by
          simp only [groupCases_eq]
          rw [List.filter_eq_nil_iff]
          intro d hd hgroup
          exact h (mem_groupNames.mpr ⟨d, hd, by simpa using hgroup⟩)
        have hold : ∀ g ∈ groupNames cases, groupCases (cases ++ [c]) g = groupCases cases g := by
          intro g hg
          rw [groupCases_concat, if_neg]
          rintro rfl
          exact h hg
        rw [if_neg h, Entries.get?_eq_none_iff.mpr hnew, Option.getD_none,
          Entries.put_of_notMem hnew, List.map_append, List.map_singleton, groupCases_concat,
          if_pos rfl, hnone]
        congr 1
        apply List.map_congr_left
        intro g hg
        rw [hold g hg]

/-- Cases that are picked by names, each name once, are all the cases whose group is named. -/
theorem flatMap_groupCases_perm {names : List String} (hnodup : names.Nodup) (cases : List Case)
    (h : ∀ c ∈ cases, c.group ∈ names) : (names.flatMap (groupCases cases)).Perm cases := by
  induction names generalizing cases with
  | nil =>
      cases cases with
      | nil => exact List.Perm.refl _
      | cons c cases => exact absurd (h c (by simp)) (by simp)
  | cons g names ih =>
      rw [List.nodup_cons] at hnodup
      have hothers : ∀ n ∈ names, groupCases cases n =
          groupCases (cases.filter fun c => !decide (c.group = g)) n := by
        intro n hn
        have hne : n ≠ g := fun he => hnodup.1 (he ▸ hn)
        simp only [groupCases_eq]
        rw [List.filter_filter]
        apply List.filter_congr
        intro c _
        by_cases hc : c.group = n
        · simp [hc, hne]
        · simp [hc]
      have hrest : ∀ c ∈ cases.filter fun c => !decide (c.group = g), c.group ∈ names := by
        intro c hc
        rw [List.mem_filter] at hc
        have hne : c.group ≠ g := by simpa using hc.2
        exact (List.mem_cons.mp (h c hc.1)).resolve_left hne
      rw [List.flatMap_cons, List.flatMap_congr hothers, groupCases_eq]
      exact ((ih hnodup.2 _ hrest).append_left _).trans (List.filter_append_perm _ cases)

/-- Every case is in one group, once. -/
theorem inGroups_perm (cases : List Case) : (inGroups cases).Perm cases := by
  apply flatMap_groupCases_perm (groupNames_nodup cases)
  intro c hc
  exact mem_groupNames.mpr ⟨c, hc, rfl⟩

/-! ### Counts -/

/-- The tally that verdicts add up to. -/
def Tally.of (vs : List Verdict) : Tally := ⟨vs.countP (·.agrees), vs.countP (!·.agrees)⟩

theorem Tally.of_append (vs ws : List Verdict) : of (vs ++ ws) = (of vs).add (of ws) := by
  simp [of, add]

theorem Tally.add_assoc (t u v : Tally) : (t.add u).add v = t.add (u.add v) := by
  simp [add, Nat.add_assoc]

/-- One case raises one of the two counters. -/
theorem Tally.count_eq (t : Tally) (v : Verdict) : t.count v = t.add (of [v]) := by
  unfold count add of
  cases h : v.agrees <;> simp [h]

/-- Counting case by case gives the tally of all cases. -/
theorem foldl_count (t : Tally) (vs : List Verdict) :
    vs.foldl Tally.count t = t.add (.of vs) := by
  induction vs generalizing t with
  | nil => rfl
  | cons v vs ih =>
      rw [List.foldl_cons, ih, Tally.count_eq, Tally.add_assoc, ← Tally.of_append,
        List.singleton_append]

theorem tally_eq (vs : List Verdict) : tally vs = .of vs := by
  unfold tally
  rw [foldl_count]
  simp [Tally.add, Tally.zero]

/-- Adding the tallies of groups gives the tally of all their cases. -/
theorem foldl_add {α : Type} (verdicts : α → List Verdict) (t : Tally) (groups : List α) :
    groups.foldl (fun t g => t.add (tally (verdicts g))) t = t.add (.of (groups.flatMap verdicts)) := by
  induction groups generalizing t with
  | nil => rfl
  | cons g groups ih =>
      rw [List.foldl_cons, ih, tally_eq, Tally.add_assoc, List.flatMap_cons, Tally.of_append]

theorem Tally.of_perm {vs ws : List Verdict} (h : vs.Perm ws) : of vs = of ws := by
  unfold of
  rw [h.countP_eq, h.countP_eq]

/-! ### The account -/

/-- Whether a line of the account names a group or the outcome of a case. -/
def isOutline (line : String) : Bool :=
  ["\n[", "  ✓ ", "  ✗ "].any fun mark => mark.toList.isPrefixOf line.toList

/-- The line that opens a group. -/
def heading (g : String) : String := "\n[" ++ g ++ "]"

theorem isOutline_heading (g : String) : isOutline (heading g) = true := by
  simp [isOutline, heading]

theorem Verdict.outline (v : Verdict) :
    v.lines.filter isOutline = [(if v.agrees then "  ✓ " else "  ✗ ") ++ v.name] := by
  unfold lines
  cases v.agrees <;> simp [isOutline]

theorem groupLines_outline (g : String) (vs : List Verdict) :
    (groupLines g vs).filter isOutline =
      heading g :: vs.map fun v => (if v.agrees then "  ✓ " else "  ✗ ") ++ v.name := by
  have htotal : isOutline ("  [" ++ (tally vs).text ++ " passed]") = false := by
    simp [isOutline, List.isPrefixOf]
  have hlines : groupLines g vs =
      heading g :: (vs.flatMap Verdict.lines ++ ["  [" ++ (tally vs).text ++ " passed]"]) := rfl
  rw [hlines, List.filter_cons_of_pos (isOutline_heading g), List.filter_append,
    List.filter_flatMap, List.filter_cons_of_neg (by simp [htotal]), List.filter_nil,
    List.append_nil]
  simp only [Verdict.outline, ← List.map_eq_flatMap]

theorem headLines_outline : headLines.filter isOutline = [] := by decide

theorem footLines_outline (total : Tally) (failed : List String) :
    (footLines total failed).filter isOutline = [] := by
  have hfixed : isOutline ("\n" ++ Compiler.bar 70) = false ∧ isOutline "\nFailed tests:" = false ∧
      isOutline (Compiler.bar 70) = false := by decide
  have htotal : isOutline ("TOTAL: " ++ total.text ++ " tests passed") = false := by
    simp [isOutline, List.isPrefixOf]
  have hnames : (failed.map ("  - " ++ ·)).filter isOutline = [] := by
    rw [List.filter_eq_nil_iff]
    intro line hline
    obtain ⟨name, -, rfl⟩ := List.mem_map.mp hline
    simp [isOutline]
  unfold footLines
  split <;> simp [hfixed, htotal, hnames]

/-! ### Runs -/

/-- A step for each element, all of which give a result. -/
theorem mapM_ok {α β : Type} {step : α → Except Fault β} {result : α → β} {as : List α}
    (h : ∀ a ∈ as, step a = .ok (result a)) : as.mapM step = .ok (as.map result) := by
  induction as with
  | nil => rfl
  | cons a as ih =>
      rw [List.mapM_cons, h a (by simp), ih fun b hb => h b (List.mem_cons_of_mem a hb)]
      rfl

theorem runGroup_eq {cases : List Case} (h : ∀ c ∈ cases, (freshReport? c.source).isSome = true) :
    runGroup cases = .ok (cases.flatMap fun c => c.run.1, cases.map Case.verdict) := by
  have hstep : ∀ c ∈ cases, (c.run.2.bind fun verdict => .ok (c.run.1, verdict)) =
      .ok (c.run.1, c.verdict) := by
    intro c hc
    rw [Case.run_eq (h c hc)]
    rfl
  show (cases.mapM fun c : Case => c.run.2.bind fun verdict => .ok (c.run.1, verdict)).bind _ = _
  rw [mapM_ok hstep]
  show Except.ok _ = Except.ok _
  rw [List.flatMap_map, List.map_map]
  rfl

/-- The results of the groups of a table. -/
def groupResults (cases : List Case) : List (String × List Log.Record × List Verdict) :=
  (groupNames cases).map fun g =>
    (g, (groupCases cases g).flatMap (fun c => c.run.1), (groupCases cases g).map Case.verdict)

theorem groupResults_verdicts (cases : List Case) :
    (groupResults cases).flatMap (·.2.2) = (inGroups cases).map Case.verdict := by
  unfold groupResults inGroups
  rw [List.flatMap_map, List.map_flatMap]

/-- The summary of a table: all cases in their groups, with their verdicts. -/
def summaryOf (cases : List Case) : Summary :=
  let verdicts := (inGroups cases).map Case.verdict
  { Tally.of verdicts with
    printed := headLines ++ (groupResults cases).flatMap (fun r => groupLines r.1 r.2.2) ++
      footLines (.of verdicts) ((verdicts.filter (!·.agrees)).map (·.name))
    log := (groupResults cases).flatMap (·.2.1) }

section

variable {cases : List Case} (h : ∀ c ∈ cases, (freshReport? c.source).isSome = true)

include h

theorem mapM_runGroup :
    ((groups cases).mapM fun g => do
      let (log, verdicts) ← runGroup g.2
      return (g.1, log, verdicts)) = .ok (groupResults cases) := by
  have hgroup : ∀ g ∈ groups cases, (do
      let (log, verdicts) ← runGroup g.2
      return (g.1, log, verdicts) : Except Fault (String × List Log.Record × List Verdict)) =
        .ok (g.1, g.2.flatMap (fun c => c.run.1), g.2.map Case.verdict) := by
    intro g hg
    rw [groups_eq, List.mem_map] at hg
    obtain ⟨name, -, rfl⟩ := hg
    have hcases : ∀ c ∈ groupCases cases name, (freshReport? c.source).isSome = true :=
      fun c hc => h c (List.mem_of_mem_filter hc)
    rw [runGroup_eq hcases]
    rfl
  rw [mapM_ok hgroup, groups_eq, List.map_map]
  rfl

theorem run_eq : run cases = .ok (summaryOf cases) := by
  have htotal : (groupResults cases).foldl (fun t r => t.add (tally r.2.2)) Tally.zero =
      .of ((inGroups cases).map Case.verdict) := by
    rw [foldl_add, groupResults_verdicts]
    simp [Tally.add, Tally.zero]
  unfold run
  rw [mapM_runGroup h]
  show Except.ok _ = Except.ok _
  simp only [htotal, groupResults_verdicts]
  rfl

/-- Each counter counts the cases of its outcome, whatever the groups are. -/
theorem summaryOf_toTally :
    (summaryOf cases).toTally = ⟨cases.countP (·.Passes), cases.countP (¬ ·.Passes)⟩ := by
  have hperm := Tally.of_perm ((inGroups_perm cases).map Case.verdict)
  have hagrees : ∀ c ∈ cases, c.verdict.agrees = decide c.Passes := by
    intro c hc
    rw [Bool.eq_iff_iff, decide_eq_true_iff]
    exact (Case.passes_iff (h c hc)).symm
  show Tally.of _ = _
  rw [hperm, Tally.of, List.countP_map, List.countP_map]
  congr 1
  · apply List.countP_congr
    intro c hc
    rw [Function.comp_apply, hagrees c hc]
  · apply List.countP_congr
    intro c hc
    rw [Function.comp_apply, hagrees c hc, decide_not]

/-- The account names the groups, and after each of them the outcomes of its cases. -/
theorem summaryOf_outline :
    (summaryOf cases).printed.filter isOutline = (groupNames cases).flatMap fun g =>
      heading g :: (groupCases cases g).map Case.resultLine := by
  show (headLines ++ _ ++ footLines _ _).filter isOutline = _
  rw [List.filter_append, List.filter_append, headLines_outline, footLines_outline, List.nil_append,
    List.append_nil, List.filter_flatMap, groupResults, List.flatMap_map]
  apply List.flatMap_congr
  intro g _
  rw [groupLines_outline, List.map_map]
  congr 1
  apply List.map_congr_left
  intro c hc
  have hpasses := Case.passes_iff (h c (List.mem_of_mem_filter hc))
  unfold Case.resultLine
  simp only [Function.comp_apply, hpasses]
  rfl

end

/-- **The self check**: where every source of a table has a report, the check ends, and each case is
counted once.  A case passes if a new compiler gives the report that it expects, so the counts do not
depend on the order of the table.  The account names each case once, with its own outcome: group by
group in the order of their first cases, and in the order of the table within a group. -/
theorem run_table {cases : List Case}
    (h : ∀ c ∈ cases, (freshReport? c.source).isSome = true) :
    ∃ summary names, run cases = .ok summary ∧ GroupsOf cases names ∧
      summary.passed + summary.failed = cases.length ∧
      summary.passed = cases.countP (·.Passes) ∧
      (∀ cases', cases'.Perm cases → ∃ summary', run cases' = .ok summary' ∧
        summary'.passed = summary.passed ∧ summary'.failed = summary.failed) ∧
      summary.printed.filter isOutline = (names.flatMap fun g =>
        heading g :: (groupCases cases g).map Case.resultLine) ∧
      (names.flatMap (groupCases cases)).Perm cases := by
  have htally := summaryOf_toTally h
  refine ⟨summaryOf cases, groupNames cases, run_eq h, groupsOf_groupNames cases, ?_, ?_, ?_,
    summaryOf_outline h, inGroups_perm cases⟩
  · rw [htally, List.length_eq_countP_add_countP (·.Passes)]
    simp
  · rw [htally]
  · intro cases' hperm
    have h' : ∀ c ∈ cases', (freshReport? c.source).isSome = true :=
      fun c hc => h c (hperm.subset hc)
    have hsame : (summaryOf cases').toTally = (summaryOf cases).toTally := by
      rw [htally, summaryOf_toTally h', hperm.countP_eq, hperm.countP_eq]
    exact ⟨summaryOf cases', run_eq h', congrArg Tally.passed hsame, congrArg Tally.failed hsame⟩

/-- A table with two cases of one name apart from each other, a name without a group, and an empty
tuple where a list is found. -/
def mixedTable : List Case :=
  [⟨"Sheet: size", "@draw T " ++ braced "@canvas 4 x 3;", true,
      [("canvas", .tuple [.whole 4, .real 3]), ("rooms", .flag false), ("errors", .list [])]⟩,
    ⟨"stray", "@draw T " ++ braced "@canvas 4 x 3;?", false,
      [("errors", .list [.text "Unexpected character '?' at line 1, col 24"])]⟩,
    ⟨"Sheet: size", "@draw T " ++ braced "@canvas 4 x 3;", true, [("rooms", .whole 1)]⟩,
    ⟨"Sheet: b: c", "@draw T " ++ braced "@canvas 4 x 3;", true, [("warnings", .tuple [])]⟩]

theorem run_table_mixed :
    (∀ c ∈ mixedTable, (freshReport? c.source).isSome = true) ∧
      ∃ summary, run mixedTable = .ok summary ∧ summary.passed = 2 ∧ summary.failed = 2 ∧
        summary.printed.filter isOutline =
          ["\n[Sheet]", "  ✓ Sheet: size", "  ✗ Sheet: size", "  ✗ Sheet: b: c",
            "\n[stray]", "  ✓ stray"] := by
  have hreports : ∀ c ∈ mixedTable, (freshReport? c.source).isSome = true := by decide +kernel
  have hpassed : mixedTable.countP (·.Passes) = 2 := by decide +kernel
  obtain ⟨summary, names, hrun, hnames, htotal, hcount, -, hprinted, -⟩ := run_table hreports
  have hlength : mixedTable.length = 4 := rfl
  have hgroups : names = ["Sheet", "stray"] := hnames.unique (groupsOf_groupNames mixedTable)
  have houtline : (["Sheet", "stray"].flatMap fun g =>
      heading g :: (groupCases mixedTable g).map Case.resultLine) =
        ["\n[Sheet]", "  ✓ Sheet: size", "  ✗ Sheet: size", "  ✗ Sheet: b: c",
          "\n[stray]", "  ✓ stray"] := by
    decide +kernel
  rw [hgroups] at hprinted
  exact ⟨hreports, summary, hrun, by omega, by omega, hprinted.trans houtline⟩

end FloorPlan.SelfCheck
