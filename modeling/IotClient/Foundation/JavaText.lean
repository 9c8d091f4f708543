import Mathlib.Data.List.DropRight
import IotClient.Foundation.Comparison

/-!
# Java texts

A `java.lang.String` is the list of its UTF-16 code units, surrogates included. This file has the
methods of `String` that the modelled code calls on such texts; lengths and indices are natural
numbers or integers without a bound.
-/

set_option autoImplicit false

namespace IotClient.Foundation.JavaText

open IotClient.Foundation.Comparison

/-- A `java.lang.String`: its UTF-16 code units. -/
abbrev JavaString := List UInt16

/-- `s.split` on a separator of one code unit: the trailing empty pieces are dropped, and a text
without the separator is returned whole. -/
def split (separator : UInt16) (s : JavaString) : List JavaString :=
  if separator ∈ s then (s.splitOn separator).rdropWhile (· == []) else [s]

/-- `s.compareTo`: the difference of the first code units that differ, or of the lengths. -/
def compareTo : JavaString → JavaString → Int := lexicographic fun c d => (c.toNat : Int) - d.toNat

/-- `s.replace(c, "")`. -/
def remove (c : UInt16) (s : JavaString) : JavaString := s.filter (· ≠ c)

/-- `s.substring(beginIndex, endIndex)`; `none` is a `StringIndexOutOfBoundsException`. -/
def substring (s : JavaString) (beginIndex endIndex : Int) : Option JavaString :=
  if 0 ≤ beginIndex ∧ beginIndex ≤ endIndex ∧ endIndex ≤ s.length then
    some ((s.take endIndex.toNat).drop beginIndex.toNat)
  else none

/-- The last `k` code units of a text that has so many. -/
theorem substring_last {s : JavaString} {k : Nat} (hk : k ≤ s.length) :
    ∃ t, substring s ((s.length : Int) - k) s.length = some t ∧ t <:+ s ∧ t.length = k := by
  have hbounds : 0 ≤ (s.length : Int) - k ∧ (s.length : Int) - k ≤ s.length ∧
      (s.length : Int) ≤ s.length := by omega
  rw [substring, if_pos hbounds]
  refine ⟨_, rfl, ?_, ?_⟩
  · rw [Int.toNat_natCast, List.take_length]
    exact List.drop_suffix _ _
  · rw [Int.toNat_natCast, List.take_length, List.length_drop]
    omega

end IotClient.Foundation.JavaText
