import FloorPlan.Proofs.Model.Stateless
import FloorPlan.Proofs.Number.Figures
import FloorPlan.Text.Upper
import Mathlib.Data.List.Nodup

/-! # The ids of copies

The id of a copy is the name of its component in lower case, an underscore and the index of the
copy.  The last underscore of an id separates the two parts, whatever the name looks like, so ids
can only agree between different patterns: exactly where the names of the components agree up to
case and the indexes are equal (`expandRepeats_ids`). -/

namespace FloorPlan

open Drawing

/-! ### Names up to case -/

/-- A name without characters beyond ASCII. -/
def IsAscii (name : String) : Prop := ∀ c ∈ name.toList, c.toNat < 128

/-- Names that differ at most in the case of their letters. -/
def EqualIgnoringCase (a b : String) : Prop := Text.upper a = Text.upper b

/-- A name in lower case. -/
def lowerCase (name : String) : String := String.ofList (name.toList.map Char.toLower)

namespace IsAscii

variable {a b : String}

/-- The two cases of a letter determine each other, and other characters are kept. -/
theorem cases_of_lt {c : Char} (h : c.toNat < 128) :
    c.toUpper = (if 97 ≤ c.toNat ∧ c.toNat ≤ 122 then Char.ofNat (c.toNat - 32) else c) ∧
      c.toLower = (if 65 ≤ c.toNat ∧ c.toNat ≤ 90 then Char.ofNat (c.toNat + 32) else c) ∧
      c.toLower.toUpper = c.toUpper ∧ c.toUpper.toLower = c.toLower := by
  have hall : ∀ n < 128, (Char.ofNat n).toUpper =
        (if 97 ≤ n ∧ n ≤ 122 then Char.ofNat (n - 32) else Char.ofNat n) ∧
      (Char.ofNat n).toLower =
        (if 65 ≤ n ∧ n ≤ 90 then Char.ofNat (n + 32) else Char.ofNat n) ∧
      (Char.ofNat n).toLower.toUpper = (Char.ofNat n).toUpper ∧
      (Char.ofNat n).toUpper.toLower = (Char.ofNat n).toLower := by decide +kernel
  have hc := hall c.toNat h
  rwa [Char.ofNat_toNat] at hc

/-- Of runs of letters that are beyond ASCII but for the first one, only the first one counts. -/
theorem find?_holds {first last : Nat} {shift : Int} {rs : List Text.CaseRun} {n : Nat}
    (hlater : ∀ r ∈ rs, 128 ≤ r.first) (hn : n < 128) :
    (⟨first, last, 1, shift⟩ :: rs : List Text.CaseRun).find? (·.holds n) =
      if first ≤ n ∧ n ≤ last then some ⟨first, last, 1, shift⟩ else none := by
  have hrest : rs.find? (·.holds n) = none := by
    rw [List.find?_eq_none]
    intro r hr
    have hle := hlater r hr
    simp only [Text.CaseRun.holds, Bool.and_eq_true, decide_eq_true_eq]
    omega
  rw [List.find?_cons, hrest]
  by_cases hletter : first ≤ n ∧ n ≤ last
  · have hholds : Text.CaseRun.holds ⟨first, last, 1, shift⟩ n = true := by
      simp [Text.CaseRun.holds, hletter, Nat.mod_one]
    simp only [hholds, if_pos hletter]
  · have hholds : Text.CaseRun.holds ⟨first, last, 1, shift⟩ n = false := by
      simp only [Text.CaseRun.holds]
      grind
    simp only [hholds, if_neg hletter]

theorem upperChar_of_lt {c : Char} (h : c.toNat < 128) : Text.upperChar c = [c.toUpper] := by
  have hexpansions : ∀ e ∈ Text.upperExpansions, 128 ≤ e.1 := by decide +kernel
  have hlater : ∀ r ∈ Text.upperRuns.tail, 128 ≤ r.first := by decide +kernel
  have hnone : Text.upperExpansions.lookup c.toNat = none := by
    rw [List.lookup_eq_none_iff]
    intro e he
    have hle := hexpansions e he
    have hne : c.toNat ≠ e.1 := by omega
    simpa using hne
  have hruns : Text.upperRuns = ⟨97, 122, 1, -32⟩ :: Text.upperRuns.tail := rfl
  have hshift : ((c.toNat : Int) + -32).toNat = c.toNat - 32 := by omega
  rw [(cases_of_lt h).1]
  unfold Text.upperChar
  rw [hnone, hruns, find?_holds hlater h]
  by_cases hletter : 97 ≤ c.toNat ∧ c.toNat ≤ 122
  · simp only [if_pos hletter, hshift]
  · simp only [if_neg hletter]

theorem lowerChar_of_lt {c : Char} (h : c.toNat < 128) : Text.lowerChar c = [c.toLower] := by
  have hlater : ∀ r ∈ Text.lowerRuns.tail, 128 ≤ r.first := by decide +kernel
  have hdotted : c ≠ Char.ofNat 0x130 := by
    rintro rfl
    exact absurd h (by decide)
  have hruns : Text.lowerRuns = ⟨65, 90, 1, 32⟩ :: Text.lowerRuns.tail := rfl
  have hshift : ((c.toNat : Int) + 32).toNat = c.toNat + 32 := by omega
  rw [(cases_of_lt h).2.1]
  unfold Text.lowerChar
  rw [if_neg hdotted, hruns, find?_holds hlater h]
  by_cases hletter : 65 ≤ c.toNat ∧ c.toNat ≤ 90
  · simp only [if_pos hletter, hshift]
  · simp only [if_neg hletter]

theorem lowerAfter_eq {before cs : List Char} (h : ∀ c ∈ cs, c.toNat < 128) :
    Text.lowerAfter before cs = cs.map Char.toLower := by
  induction cs generalizing before with
  | nil => rfl
  | cons c cs ih =>
      have hc := h c (by simp)
      have hsigma : c ≠ 'Σ' := by
        rintro rfl
        exact absurd hc (by decide)
      rw [Text.lowerAfter, if_neg hsigma, lowerChar_of_lt hc,
        ih fun c' hc' => h c' (List.mem_cons_of_mem c hc')]
      rfl

/-- In ASCII, letters change their case one by one. -/
theorem lower_eq (h : IsAscii a) : Text.lower a = lowerCase a :=
  congrArg String.ofList (lowerAfter_eq h)

theorem upper_eq (h : IsAscii a) : Text.upper a = String.ofList (a.toList.map Char.toUpper) := by
  unfold Text.upper
  rw [List.map_eq_flatMap]
  congr 1
  apply List.flatMap_congr
  intro c hc
  exact upperChar_of_lt (h c hc)

theorem upper_of_lower (h : IsAscii a) :
    (a.toList.map Char.toLower).map Char.toUpper = a.toList.map Char.toUpper := by
  rw [List.map_map]
  apply List.map_congr_left
  intro c hc
  exact (cases_of_lt (h c hc)).2.2.1

theorem lower_of_upper (h : IsAscii a) :
    (a.toList.map Char.toUpper).map Char.toLower = a.toList.map Char.toLower := by
  rw [List.map_map]
  apply List.map_congr_left
  intro c hc
  exact (cases_of_lt (h c hc)).2.2.2

theorem lowerCase_eq_iff (ha : IsAscii a) (hb : IsAscii b) :
    lowerCase a = lowerCase b ↔ EqualIgnoringCase a b := by
  unfold lowerCase EqualIgnoringCase
  rw [ha.upper_eq, hb.upper_eq, String.ofList_inj, String.ofList_inj]
  constructor
  · intro h
    rw [← ha.upper_of_lower, ← hb.upper_of_lower, h]
  · intro h
    rw [← ha.lower_of_upper, ← hb.lower_of_upper, h]

end IsAscii

/-! ### Ids -/

/-- The id of the copy of a component with a given index. -/
def copyId (component : String) (i : Nat) : String := lowerCase component ++ "_" ++ i.repr

theorem toList_copyId (component : String) (i : Nat) :
    (copyId component i).toList = (lowerCase component).toList ++ '_' :: Nat.toDigits 10 i := by
  simp only [copyId, Nat.repr_eq_ofList_toDigits, String.toList_append, String.toList_ofList,
    List.append_assoc]
  rfl

theorem underscore_notMem_toDigits (i : Nat) : '_' ∉ Nat.toDigits 10 i := by
  intro h
  have hdigit := Nat.isDigit_of_mem_toDigits (by decide) (by decide) h
  exact absurd hdigit (by decide)

theorem toNat_lt_of_isDigit {c : Char} (h : c.isDigit = true) : c.toNat < 128 := by
  simp only [Char.isDigit, Bool.and_eq_true, decide_eq_true_eq] at h
  exact (UInt32.le_iff_toNat_le.mp h.2).trans_lt (by decide)

theorem IsAscii.copyId {component : String} (h : IsAscii component) (i : Nat) :
    IsAscii (copyId component i) := by
  have hlower : ∀ n < 128, (Char.ofNat n).toLower.toNat < 128 := by decide +kernel
  have hname : ∀ c ∈ (lowerCase component).toList, c.toNat < 128 := by
    intro c hc
    rw [lowerCase, String.toList_ofList] at hc
    obtain ⟨d, hd, rfl⟩ := List.mem_map.mp hc
    have hlt := hlower d.toNat (h d hd)
    rwa [Char.ofNat_toNat] at hlt
  have hdigits : ∀ c ∈ Nat.toDigits 10 i, c.toNat < 128 := fun c hc =>
    toNat_lt_of_isDigit (Nat.isDigit_of_mem_toDigits (by decide) (by decide) hc)
  unfold IsAscii
  rw [toList_copyId]
  exact List.forall_mem_append.mpr ⟨hname, List.forall_mem_cons.mpr ⟨by decide, hdigits⟩⟩

/-- A list is cut in one way at the last occurrence of an element. -/
theorem eq_of_append_last {α : Type} {a : α} {xs ys xs' ys' : List α} (hys : a ∉ ys)
    (hys' : a ∉ ys') (h : xs ++ a :: ys = xs' ++ a :: ys') : xs = xs' ∧ ys = ys' := by
  -- a later cut would leave an occurrence behind the other one
  have hcut : ∀ {zs us vs : List α}, a ∉ us → a :: us = zs ++ a :: vs → zs = [] := by
    intro zs us vs hus he
    cases zs with
    | nil => rfl
    | cons z zs =>
        rw [List.cons_append, List.cons.injEq] at he
        exact absurd (by simp [he.2]) hus
  obtain ⟨zs, hxs, hzs⟩ | ⟨zs, hxs, hzs⟩ := List.append_eq_append_iff.mp h
  · rw [hcut hys hzs, List.append_nil] at hxs
    rw [hcut hys hzs, List.nil_append, List.cons.injEq] at hzs
    exact ⟨hxs.symm, hzs.2⟩
  · rw [hcut hys' hzs, List.append_nil] at hxs
    rw [hcut hys' hzs, List.nil_append, List.cons.injEq] at hzs
    exact ⟨hxs, hzs.2.symm⟩

/-- An id can be taken apart at its last underscore. -/
theorem copyId_eq_iff {a b : String} {i j : Nat} :
    copyId a i = copyId b j ↔ lowerCase a = lowerCase b ∧ i = j := by
  constructor
  · intro h
    have htexts := congrArg String.toList h
    rw [toList_copyId, toList_copyId] at htexts
    obtain ⟨hname, hdigits⟩ :=
      eq_of_append_last (underscore_notMem_toDigits i) (underscore_notMem_toDigits j) htexts
    have hvalues := congrArg Number.decimalValue hdigits
    rw [Number.decimalValue_toDigits, Number.decimalValue_toDigits] at hvalues
    exact ⟨String.toList_inj.mp hname, hvalues⟩
  · rintro ⟨hname, rfl⟩
    unfold copyId
    rw [hname]

namespace Drawing

/-- The copies of a pattern are numbered from zero, without gaps. -/
theorem Repeat.copies_ids {r : Repeat} (h : IsAscii r.component) :
    r.copies.map (·.id) = (List.range r.copies.length).map (copyId r.component) := by
  have hid : ∀ i, (r.copy i).id = copyId r.component i := by
    intro i
    unfold copy copyId
    rw [h.lower_eq]
  unfold copies
  split
  · rfl
  · rw [List.length_map, List.length_range, List.map_map]
    exact List.map_congr_left fun i _ => hid i

/-- Names without characters beyond ASCII give ids without them. -/
theorem isAscii_of_mem_allRooms {d : Drawing} (hrooms : ∀ r ∈ d.rooms, IsAscii r.id)
    (hrepeats : ∀ r ∈ d.repeats, IsAscii r.component) {room : Room} (h : room ∈ d.allRooms) :
    IsAscii room.id := by
  rcases List.mem_append.mp h with h | h
  · exact hrooms room h
  · obtain ⟨r, hr, hroom⟩ := List.mem_flatMap.mp h
    have hid := List.mem_map_of_mem (f := (·.id)) hroom
    rw [Repeat.copies_ids (hrepeats r hr)] at hid
    obtain ⟨i, -, hi⟩ := List.mem_map.mp hid
    exact hi ▸ (hrepeats r hr).copyId i

/-- A room with the pattern that it is a copy of, the place of this pattern in its list, and the
index of the room among the copies. -/
structure Copy where
  source : Repeat
  pattern : Nat
  index : Nat
  room : Room

/-- The copies of a pattern at a place. -/
def Repeat.copiesAt (r : Repeat) (pattern : Nat) : List Copy :=
  r.copies.zipIdx.map fun (room, i) => ⟨r, pattern, i, room⟩

/-- The copies of all patterns in order. -/
def allCopies (rs : List Repeat) : List Copy := rs.zipIdx.flatMap fun (r, p) => r.copiesAt p

theorem Repeat.mem_copiesAt {r : Repeat} {p : Nat} {c : Copy} :
    c ∈ r.copiesAt p ↔ c.source = r ∧ c.pattern = p ∧ r.copies[c.index]? = some c.room := by
  unfold copiesAt
  rw [List.mem_map]
  constructor
  · rintro ⟨⟨room, i⟩, hmem, rfl⟩
    exact ⟨rfl, rfl, List.mem_zipIdx_iff_getElem?.mp hmem⟩
  · rintro ⟨rfl, rfl, hroom⟩
    exact ⟨(c.room, c.index), List.mem_zipIdx_iff_getElem?.mpr hroom, rfl⟩

theorem mem_allCopies {rs : List Repeat} {c : Copy} :
    c ∈ allCopies rs ↔ rs[c.pattern]? = some c.source ∧ c.source.copies[c.index]? = some c.room := by
  unfold allCopies
  rw [List.mem_flatMap]
  constructor
  · rintro ⟨⟨r, p⟩, hmem, hc⟩
    obtain ⟨rfl, rfl, hroom⟩ := Repeat.mem_copiesAt.mp hc
    exact ⟨List.mem_zipIdx_iff_getElem?.mp hmem, hroom⟩
  · rintro ⟨hsource, hroom⟩
    exact ⟨(c.source, c.pattern), List.mem_zipIdx_iff_getElem?.mpr hsource,
      Repeat.mem_copiesAt.mpr ⟨rfl, rfl, hroom⟩⟩

theorem Copy.id_eq {rs : List Repeat} {c : Copy} (h : c ∈ allCopies rs)
    (hascii : IsAscii c.source.component) : c.room.id = copyId c.source.component c.index := by
  have hroom := (mem_allCopies.mp h).2
  have hid : (c.source.copies.map (·.id))[c.index]? = some c.room.id := by
    rw [List.getElem?_map, hroom]
    rfl
  rw [Repeat.copies_ids hascii, List.getElem?_map] at hid
  obtain ⟨i, hi, hid⟩ := Option.map_eq_some_iff.mp hid
  obtain ⟨hlt, rfl⟩ := List.getElem?_eq_some_iff.mp hi
  rw [List.getElem_range] at hid
  exact hid.symm

/-- The numbers of a numbered list increase. -/
theorem zipIdx_pairwise {α : Type} (as : List α) : as.zipIdx.Pairwise fun a b => a.2 < b.2 := by
  rw [← List.pairwise_map, List.zipIdx_map_snd]
  exact List.pairwise_lt_range'

/-- Two places of the copies differ in the pattern or in the index. -/
theorem allCopies_pairwise (rs : List Repeat) :
    (allCopies rs).Pairwise fun c d => ¬ (c.pattern = d.pattern ∧ c.index = d.index) := by
  unfold allCopies
  rw [List.pairwise_flatMap]
  constructor
  · intro q _
    unfold Repeat.copiesAt
    rw [List.pairwise_map]
    apply (zipIdx_pairwise _).imp
    intro a b hlt h
    have : a.2 = b.2 := h.2
    omega
  · apply (zipIdx_pairwise rs).imp
    intro a b hlt c hc d hd h
    obtain ⟨-, hc, -⟩ := Repeat.mem_copiesAt.mp hc
    obtain ⟨-, hd, -⟩ := Repeat.mem_copiesAt.mp hd
    omega

theorem allCopies_apart {rs : List Repeat} {k l : Nat} {c d : Copy} (hkl : k ≠ l)
    (hc : (allCopies rs)[k]? = some c) (hd : (allCopies rs)[l]? = some d) :
    ¬ (c.pattern = d.pattern ∧ c.index = d.index) := by
  obtain ⟨hk, rfl⟩ := List.getElem?_eq_some_iff.mp hc
  obtain ⟨hl, rfl⟩ := List.getElem?_eq_some_iff.mp hd
  have hpairs := List.pairwise_iff_getElem.mp (allCopies_pairwise rs)
  obtain hlt | hlt := Nat.lt_or_gt_of_ne hkl
  · exact hpairs k l hk hl hlt
  · intro h
    exact hpairs l k hl hk hlt ⟨h.1.symm, h.2.symm⟩

theorem allCopies_rooms (rs : List Repeat) :
    (allCopies rs).map (·.room) = rs.flatMap Repeat.copies := by
  have hroom : ∀ q : Repeat × Nat, (q.1.copiesAt q.2).map (·.room) = q.1.copies := by
    intro q
    unfold Repeat.copiesAt
    rw [List.map_map]
    exact List.zipIdx_map_fst 0 _
  unfold allCopies
  rw [List.map_flatMap]
  conv_rhs => rw [← List.zipIdx_map_fst 0 rs, List.flatMap_map]
  exact List.flatMap_congr fun q _ => hroom q

end Drawing

/-- Where patterns are expanded, the rooms are their copies. -/
theorem Lower.expandRepeats_eq_ok {rs : List Repeat} {rooms : List Room} {s s' : Lowering}
    (h : Lower.expandRepeats rs s = .ok rooms s') : rooms = rs.flatMap Repeat.copies := by
  cases hfault : rs.findSome? Repeat.fault? with
  | none =>
      rw [Lower.expandRepeats_run hfault] at h
      cases h
      rfl
  | some cause =>
      obtain ⟨t, ht⟩ := Lower.expandRepeats_fault hfault s
      rw [ht] at h
      cases h

/-- **Ids of copies**: where the patterns have ASCII names and are expanded, the rooms are the copies
of the patterns in order.  Two of them have the same id exactly if they come from different patterns,
whose names agree up to case, and have the same index.  The ids of one pattern are different: they are
its name in lower case with the numbers from zero on. -/
theorem expandRepeats_ids {rs : List Repeat} {rooms : List Room} {s s' : Lowering}
    (hascii : ∀ r ∈ rs, IsAscii r.component) (h : Lower.expandRepeats rs s = .ok rooms s') :
    rooms = (allCopies rs).map (·.room) ∧
      (∀ (k l : Nat) (c d : Copy), k ≠ l → (allCopies rs)[k]? = some c →
        (allCopies rs)[l]? = some d →
          (c.room.id = d.room.id ↔ c.pattern ≠ d.pattern ∧
            EqualIgnoringCase c.source.component d.source.component ∧ c.index = d.index)) ∧
      ∀ r ∈ rs, (r.copies.map (·.id)).Nodup ∧
        r.copies.map (·.id) = (List.range r.copies.length).map (copyId r.component) := by
  refine ⟨?_, ?_, ?_⟩
  · rw [Lower.expandRepeats_eq_ok h, allCopies_rooms]
  · intro k l c d hkl hc hd
    have hmemc := List.mem_of_getElem? hc
    have hmemd := List.mem_of_getElem? hd
    have hsourcec := hascii _ (List.mem_of_getElem? (mem_allCopies.mp hmemc).1)
    have hsourced := hascii _ (List.mem_of_getElem? (mem_allCopies.mp hmemd).1)
    rw [Copy.id_eq hmemc hsourcec, Copy.id_eq hmemd hsourced, copyId_eq_iff,
      hsourcec.lowerCase_eq_iff hsourced]
    have hplaces := allCopies_apart hkl hc hd
    constructor
    · rintro ⟨hname, hindex⟩
      exact ⟨fun hpattern => hplaces ⟨hpattern, hindex⟩, hname, hindex⟩
    · rintro ⟨-, hname, hindex⟩
      exact ⟨hname, hindex⟩
  · intro r hr
    have hids := Repeat.copies_ids (hascii r hr)
    refine ⟨?_, hids⟩
    rw [hids]
    apply List.Nodup.map _ List.nodup_range
    intro i j hij
    exact (copyId_eq_iff.mp hij).2

/-- Lamps in two spellings, and a lamp whose name looks like the id of another one. -/
def lampRows : List Repeat :=
  [⟨"Lamp", ⟨0, 0, 2, 0⟩, 1, baseUnit, none⟩, ⟨"lamp_1", ⟨0, 1, 1, 1⟩, 1, baseUnit, none⟩,
    ⟨"Post", ⟨0, 2, 4, 2⟩, 0, baseUnit, none⟩, ⟨"LAMP", ⟨0, 3, 1, 3⟩, 1, baseUnit, none⟩]

theorem expandRepeats_ids_lampRows :
    (∀ r ∈ lampRows, IsAscii r.component) ∧
      ∃ rooms s', Lower.expandRepeats lampRows .empty = .ok rooms s' ∧
        rooms.map (·.id) =
          ["lamp_0", "lamp_1", "lamp_2", "lamp_1_0", "lamp_1_1", "lamp_0", "lamp_1"] ∧
        ∃ c d, (allCopies lampRows)[1]? = some c ∧ (allCopies lampRows)[6]? = some d ∧
          c.room.id = d.room.id ∧ c.pattern ≠ d.pattern ∧
            EqualIgnoringCase c.source.component d.source.component ∧ c.index = d.index := by
  have hascii : ∀ r ∈ lampRows, IsAscii r.component := by
    have hall : ∀ r ∈ lampRows, r.component.toList.all (·.toNat < 128) = true := by decide
    intro r hr c hc
    simpa using List.all_eq_true.mp (hall r hr) c hc
  have hfault : lampRows.findSome? Repeat.fault? = none := by decide +kernel
  have hrun := Lower.expandRepeats_run hfault .empty
  have hids : (lampRows.flatMap Repeat.copies).map (·.id) =
      ["lamp_0", "lamp_1", "lamp_2", "lamp_1_0", "lamp_1_1", "lamp_0", "lamp_1"] := by
    decide +kernel
  obtain ⟨-, hagree, -⟩ := expandRepeats_ids hascii hrun
  have hid : ∀ k : Nat, ((allCopies lampRows)[k]?.map fun c => c.room.id) =
      ["lamp_0", "lamp_1", "lamp_2", "lamp_1_0", "lamp_1_1", "lamp_0", "lamp_1"][k]? := by
    intro k
    rw [← hids, ← allCopies_rooms, List.map_map, List.getElem?_map]
    rfl
  obtain ⟨c, hc, hcid⟩ := Option.map_eq_some_iff.mp (hid 1)
  obtain ⟨d, hd, hdid⟩ := Option.map_eq_some_iff.mp (hid 6)
  have hsame : c.room.id = d.room.id := hcid.trans hdid.symm
  exact ⟨hascii, _, _, hrun, hids, c, d, hc, hd, hsame,
    (hagree 1 6 c d (by decide) hc hd).mp hsame⟩

end FloorPlan
