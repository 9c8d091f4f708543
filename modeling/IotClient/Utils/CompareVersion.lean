import IotClient.Foundation.JavaText
import IotClient.Foundation.Numerals

/-!
# Comparing version names

`AppUtils.compareVersion` splits two version names on dots and walks both arrays in one loop. The
condition of the loop assigns `diff` twice, first the difference of two lengths, then that of two
texts; after the loop the number of components decides where `diff` is still zero.

Differences of lengths are integers here: the lengths of arrays and texts are non-negative `int`s,
so no difference of two of them overflows.

* `compareVersion_eq`: the loop computes the lexicographic comparison of the components, each
  compared by its length and then by its text.
* `compareVersion_order`: the result is a version order, and on decimal components it is the order
  of the numbers.
-/

set_option autoImplicit false

namespace IotClient.Utils.CompareVersion

open IotClient.Foundation.Comparison IotClient.Foundation.JavaText
open IotClient.Foundation.Numerals

/-! ## The method -/

/-- `'.'`. -/
def dot : UInt16 := 46

/-- The loop of `compareVersion` from the index `idx`, with the value of `diff` at its entry; the
result is `diff` at its exit. -/
def compareLoop (versionArray1 versionArray2 : List JavaString) (idx : Nat) (diff : Int) : Int :=
  if h : idx < min versionArray1.length versionArray2.length then
    have h1 : idx < versionArray1.length := by omega
    have h2 : idx < versionArray2.length := by omega
    let diff := (versionArray1[idx].length : Int) - versionArray2[idx].length
    if diff = 0 then
      let diff := compareTo versionArray1[idx] versionArray2[idx]
      if diff = 0 then compareLoop versionArray1 versionArray2 (idx + 1) diff else diff
    else diff
  else diff
termination_by versionArray1.length - idx

/-- `AppUtils.compareVersion`; `none` is null. -/
def compareVersion (version1 version2 : Option JavaString) : Except String Int :=
  match version1, version2 with
  | some version1, some version2 =>
      let versionArray1 := split dot version1
      let versionArray2 := split dot version2
      let diff := compareLoop versionArray1 versionArray2 0 0
      .ok (if diff ≠ 0 then diff else (versionArray1.length : Int) - versionArray2.length)
  | _, _ => .error "compareVersion error:illegal params."

/-! ## What the loop computes -/

/-- Two components: the lengths, then the texts. -/
def compareComponents : JavaString → JavaString → Int :=
  thenBy (fun a b => (a.length : Int) - b.length) compareTo

/-- From the index `idx` the loop and the fallback compare the rest of the arrays. -/
theorem compareLoop_eq (versionArray1 versionArray2 : List JavaString) (idx : Nat) (diff : Int)
    (hdiff : diff = 0) (h1 : idx ≤ versionArray1.length) (h2 : idx ≤ versionArray2.length) :
    (if compareLoop versionArray1 versionArray2 idx diff ≠ 0 then
        compareLoop versionArray1 versionArray2 idx diff
      else (versionArray1.length : Int) - versionArray2.length) =
      lexicographic compareComponents (versionArray1.drop idx) (versionArray2.drop idx) := by
  fun_induction compareLoop versionArray1 versionArray2 idx diff with
  | case1 idx diff hidx hlt1 hlt2 lengths hlengths texts htexts ih =>
      -- Equal lengths and equal texts: the loop goes on with `diff` zero.
      have hcomponents : compareComponents versionArray1[idx] versionArray2[idx] = texts :=
        thenBy_of_eq hlengths
      rw [List.drop_eq_getElem_cons hlt1, List.drop_eq_getElem_cons hlt2,
        lexicographic_cons_of_eq (hcomponents.trans htexts)]
      exact ih htexts hlt1 hlt2
  | case2 idx diff hidx hlt1 hlt2 lengths hlengths texts htexts =>
      have hcomponents : compareComponents versionArray1[idx] versionArray2[idx] = texts :=
        thenBy_of_eq hlengths
      rw [if_pos htexts, List.drop_eq_getElem_cons hlt1, List.drop_eq_getElem_cons hlt2,
        lexicographic_cons_of_ne (hcomponents ▸ htexts), hcomponents]
  | case3 idx diff hidx hlt1 hlt2 lengths hlengths =>
      have hcomponents : compareComponents versionArray1[idx] versionArray2[idx] = lengths :=
        thenBy_of_ne hlengths
      rw [if_pos hlengths, List.drop_eq_getElem_cons hlt1, List.drop_eq_getElem_cons hlt2,
        lexicographic_cons_of_ne (hcomponents ▸ hlengths), hcomponents]
  | case4 idx diff hidx =>
      -- One array is used up, so the number of components decides on both sides.
      rw [if_neg (not_not.2 hdiff), lexicographic_of_nil, List.length_drop, List.length_drop]
      · omega
      · rw [List.drop_eq_nil_iff, List.drop_eq_nil_iff]
        omega

/-- The method compares the components one after the other. -/
theorem compareVersion_eq (a b : JavaString) :
    compareVersion (some a) (some b) =
      .ok (lexicographic compareComponents (split dot a) (split dot b)) := by
  have h := compareLoop_eq (split dot a) (split dot b) 0 0 rfl (Nat.zero_le _) (Nat.zero_le _)
  rw [List.drop_zero, List.drop_zero] at h
  show Except.ok _ = _
  rw [h]

/-! ## The order -/

/-- Lengths first, then texts: the key of a component. -/
def componentKey (s : JavaString) : Nat ×ₗ List Nat := toLex (s.length, s.map UInt16.toNat)

theorem componentKey_inj {s t : JavaString} : componentKey s = componentKey t ↔ s = t := by
  unfold componentKey
  rw [toLex_inj, Prod.mk.injEq, List.map_inj_right fun _ _ h => UInt16.toNat.inj h]
  constructor
  · exact fun h => h.2
  · rintro rfl
    exact ⟨rfl, rfl⟩

theorem comparesOn_components (p : JavaString → Prop) :
    ComparesOn p compareComponents componentKey := by
  have htexts : ComparesOn (fun s : JavaString => ∀ c ∈ s, True) compareTo
      (List.map UInt16.toNat) :=
    (comparesOn_sub (fun _ => True) UInt16.toNat).lexicographic
  exact (comparesOn_sub p List.length).thenBy (htexts.mono fun _ _ _ _ => trivial)

/-- The decimal digits of a component. -/
def digits (s : JavaString) : List Nat := s.map fun c => c.toNat - 48

/-- A decimal number without leading zeros: the code units are those of `'0'` to `'9'`, there is
one, and the first of several is not `'0'`. -/
structure IsDecimal (s : JavaString) : Prop where
  digits : ∀ c ∈ s, 48 ≤ c ∧ c ≤ 57
  nonempty : s ≠ []
  noLeadingZero : 2 ≤ s.length → s.head? ≠ some 48

/-- The number of a decimal component. -/
def number (s : JavaString) : Nat := value 10 (digits s)

theorem IsDecimal.normal {s : JavaString} (h : IsDecimal s) :
    Normal 10 (CompareVersion.digits s) where
  digits d hd := by
    obtain ⟨c, hc, rfl⟩ := List.mem_map.1 hd
    have hle : c.toNat ≤ 57 := UInt16.le_iff_toNat_le.1 (h.digits c hc).2
    omega
  nonempty := fun hnil => h.nonempty (List.map_eq_nil_iff.1 hnil)
  noLeadingZero hlen hzero := by
    obtain ⟨c, hc, hc0⟩ := Option.map_eq_some_iff.1 (List.head?_map ▸ hzero)
    have hle : 48 ≤ c.toNat := UInt16.le_iff_toNat_le.1 (h.digits c (List.mem_of_head? hc)).1
    have hc48 : c = 48 := UInt16.toNat.inj (show c.toNat = 48 by omega)
    refine h.noLeadingZero ?_ (hc48 ▸ hc)
    rwa [CompareVersion.digits, List.length_map] at hlen

/-- On decimal components, length first and then the text is the order of the numbers. -/
theorem comparesOn_decimal : ComparesOn IsDecimal compareComponents number := by
  have hchars : ComparesOn (fun c : UInt16 => 48 ≤ c ∧ c ≤ 57)
      (fun c d => (c.toNat : Int) - d.toNat) (fun c => c.toNat - 48) := by
    constructor
    · intro c d hc hd
      have h1 : 48 ≤ c.toNat := UInt16.le_iff_toNat_le.1 hc.1
      have h2 : 48 ≤ d.toNat := UInt16.le_iff_toNat_le.1 hd.1
      omega
    · intro c d hc hd
      have h1 : 48 ≤ c.toNat := UInt16.le_iff_toNat_le.1 hc.1
      have h2 : 48 ≤ d.toNat := UInt16.le_iff_toNat_le.1 hd.1
      omega
  have htexts : ComparesOn IsDecimal compareTo digits :=
    hchars.lexicographic.mono fun s hs => hs.digits
  have hcomponents : ComparesOn IsDecimal compareComponents
      (fun s => toLex (s.length, digits s)) :=
    (comparesOn_sub IsDecimal List.length).thenBy htexts
  refine hcomponents.rekey fun {a b} ha hb => ?_
  have hlt := value_lt_value_iff (b := 10) (by omega) ha.normal hb.normal
  simp only [digits, List.length_map] at hlt
  exact hlt

/-- The result of `compareVersion` is a version order on all texts: antisymmetric, transitive, and
zero exactly on the same components. When all components of `a` and `b` are decimal numbers without
leading zeros, it is the lexicographic order of the two lists of numbers, in which a proper prefix
is smaller. -/
theorem compareVersion_order (a b c : JavaString) :
    ∃ ab ba bc ac : Int,
      compareVersion (some a) (some b) = .ok ab ∧ compareVersion (some b) (some a) = .ok ba ∧
      compareVersion (some b) (some c) = .ok bc ∧ compareVersion (some a) (some c) = .ok ac ∧
      ab.sign = - ba.sign ∧
      (ab ≤ 0 → bc ≤ 0 → ac ≤ 0) ∧
      (ab = 0 ↔ split dot a = split dot b) ∧
      ((∀ s ∈ split dot a, IsDecimal s) → (∀ s ∈ split dot b, IsDecimal s) →
        (ab < 0 ↔ (split dot a).map number < (split dot b).map number) ∧
        (ab = 0 ↔ (split dot a).map number = (split dot b).map number) ∧
        (0 < ab ↔ (split dot b).map number < (split dot a).map number)) := by
  have horder : ComparesOn (fun ss : List JavaString => ∀ s ∈ ss, True)
      (lexicographic compareComponents) (List.map componentKey) :=
    (comparesOn_components fun _ => True).lexicographic
  have hall : ∀ v : JavaString, ∀ s ∈ split dot v, True := fun _ _ _ => trivial
  refine ⟨_, _, _, _, compareVersion_eq a b, compareVersion_eq b a, compareVersion_eq b c,
    compareVersion_eq a c, ?_, ?_, ?_, ?_⟩
  · exact horder.sign_swap (hall a) (hall b)
  · exact horder.trans (hall a) (hall b) (hall c)
  · rw [horder.zero_iff (hall a) (hall b)]
    exact List.map_inj_right fun _ _ h => componentKey_inj.1 h
  · intro ha hb
    have hnumbers := comparesOn_decimal.lexicographic
    exact ⟨hnumbers.neg_iff ha hb, hnumbers.zero_iff ha hb, hnumbers.pos_iff ha hb⟩

-- "4.9" is before "4.10": the lengths of "9" and "10" decide.
example : compareVersion (some [52, 46, 57]) (some [52, 46, 49, 48]) = .ok (-1) := by
  rw [compareVersion_eq]
  rfl

end IotClient.Utils.CompareVersion
