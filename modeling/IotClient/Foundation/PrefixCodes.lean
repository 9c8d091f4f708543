import Mathlib.Data.Nat.Bitwise
import Mathlib.Tactic.Common

/-!
# Canonical prefix codes

A canonical code is given by the number of code words of each length: the words of a length are
consecutive numbers, and the first of them is behind all words that are shorter. `find` reads a
stream bit by bit until what it has read is a word.

* `find_eq_some_iff`: reading finds exactly the word that the stream begins with; in particular no
  word begins with another.
* `value_ofBits`: a stream begins with the word that has been written at its front.
-/

set_option autoImplicit false

namespace IotClient.Foundation.PrefixCodes

/-- An endless stream of bits. -/
abbrev Stream := Nat → Bool

/-- The stream behind its first bits. -/
def Stream.skip (s : Stream) (n : Nat) : Stream := fun i => s (i + n)

/-- The first bits of a stream as a number. -/
def value (s : Stream) : Nat → Nat
  | 0 => 0
  | l + 1 => 2 * value s l + (s l).toNat

/-- The first code word of a length. -/
def first (counts : Nat → Nat) : Nat → Nat
  | 0 => 0
  | l + 1 => 2 * (first counts l + counts l)

/-- The number of shorter code words. -/
def offset (counts : Nat → Nat) : Nat → Nat
  | 0 => 0
  | l + 1 => offset counts l + counts l

/-- The stream begins with the code word number `k` of length `l`. -/
structure Begins (counts : Nat → Nat) (s : Stream) (l k : Nat) : Prop where
  lt : k < counts l
  value_eq : value s l = first counts l + k

/-- Reading on when `l` bits have been read, for `r` lengths more. -/
def find (counts : Nat → Nat) (s : Stream) : (r l : Nat) → Option (Nat × Nat)
  | 0, _ => none
  | r + 1, l =>
      if value s l < first counts l + counts l then some (l, value s l - first counts l)
      else find counts s r (l + 1)

variable {counts : Nat → Nat} {s : Stream}

theorem value_lt (s : Stream) (l : Nat) : value s l < 2 ^ l := by
  induction l with
  | zero => exact Nat.one_pos
  | succ l ih =>
      have hbit : (s l).toNat ≤ 1 := Bool.toNat_le (s l)
      rw [value, Nat.pow_succ]
      omega

/-- Shorter beginnings are the leading digits of longer ones. -/
theorem value_div (s : Stream) (l n : Nat) : value s (l + n) / 2 ^ n = value s l := by
  induction n with
  | zero => rw [Nat.add_zero, Nat.pow_zero, Nat.div_one]
  | succ n ih =>
      have hbit : (s (l + n)).toNat ≤ 1 := Bool.toNat_le _
      rw [← Nat.add_assoc, value, Nat.pow_succ', ← Nat.div_div_eq_div_mul]
      have hhalf : (2 * value s (l + n) + (s (l + n)).toNat) / 2 = value s (l + n) := by omega
      rw [hhalf, ih]

theorem skip_skip (s : Stream) (m n : Nat) : (s.skip m).skip n = s.skip (m + n) := by
  funext i
  rw [Stream.skip, Stream.skip, Stream.skip, Nat.add_assoc, Nat.add_comm n m]

/-- Reading on behind the first bits. -/
theorem value_add (s : Stream) (l n : Nat) :
    value s (l + n) = 2 ^ n * value s l + value (s.skip l) n := by
  induction n with
  | zero => rw [Nat.add_zero, Nat.pow_zero, Nat.one_mul, value, Nat.add_zero]
  | succ n ih =>
      rw [← Nat.add_assoc, value, ih, value, Stream.skip, Nat.add_comm n l, Nat.pow_succ',
        Nat.mul_add, ← Nat.mul_assoc, Nat.add_assoc]

/-- The first bits are those of a number whose binary digits they are. -/
theorem value_eq_mod {s : Stream} {n v : Nat} (h : ∀ i, i < n → s i = v.testBit (n - 1 - i)) :
    value s n = v % 2 ^ n := by
  induction n generalizing v with
  | zero => rw [value, Nat.pow_zero, Nat.mod_one]
  | succ n ih =>
      have hlast := h n (Nat.lt_succ_self n)
      rw [show n + 1 - 1 - n = 0 by omega, Nat.testBit_zero] at hlast
      have hbit : (s n).toNat = v % 2 := by
        rw [hlast]
        rcases Nat.mod_two_eq_zero_or_one v with heven | hodd
        · rw [heven]
          rfl
        · rw [hodd]
          rfl
      have hrest : value s n = v / 2 % 2 ^ n := by
        refine ih fun i hi => ?_
        rw [h i (by omega), show n + 1 - 1 - i = n - 1 - i + 1 by omega, Nat.testBit_succ]
      rw [value, hrest, hbit, Nat.pow_succ', Nat.mod_mul]
      exact Nat.add_comm _ _

/-! ## Reading -/

/-- A stream that is past the words of a length is at the words of the next or past them. -/
theorem first_succ_le {l : Nat} (h : first counts l + counts l ≤ value s l) :
    first counts (l + 1) ≤ value s (l + 1) := by
  rw [first, value]
  omega

/-- A stream that is at the words of a length or past them is past all shorter words. -/
theorem past_shorter {l : Nat} (h : first counts l ≤ value s l) :
    ∀ j, j < l → first counts j + counts j ≤ value s j := by
  induction l with
  | zero => exact fun j hj => absurd hj (Nat.not_lt_zero j)
  | succ l ih =>
      have hbit : (s l).toNat ≤ 1 := Bool.toNat_le (s l)
      rw [first, value] at h
      intro j hj
      rcases Nat.lt_succ_iff_lt_or_eq.1 hj with hlt | rfl
      · exact ih (by omega) j hlt
      · omega

/-- A stream that is before the end of the words of a length is before all longer words. -/
theorem value_lt_first {l : Nat} (h : value s l < first counts l + counts l) :
    ∀ m, l < m → value s m < first counts m := by
  intro m hm
  induction m with
  | zero => exact absurd hm (Nat.not_lt_zero l)
  | succ m ih =>
      have hbit : (s m).toNat ≤ 1 := Bool.toNat_le (s m)
      rw [value, first]
      rcases Nat.lt_succ_iff_lt_or_eq.1 hm with hlt | rfl
      · have := ih hlt
        omega
      · omega

/-- Reading ends at the word that the stream begins with. -/
theorem find_eq_some_iff {r l m k : Nat} (h : first counts l ≤ value s l) :
    find counts s r l = some (m, k) ↔ l ≤ m ∧ m < l + r ∧ Begins counts s m k := by
  induction r generalizing l with
  | zero =>
      refine ⟨fun hnone => ?_, fun hm => by omega⟩
      cases hnone
  | succ r ih =>
      rw [find]
      by_cases hhere : value s l < first counts l + counts l
      · rw [if_pos hhere]
        constructor
        · intro heq
          obtain ⟨hm, hk⟩ := Prod.mk.inj (Option.some.inj heq)
          subst hm hk
          exact ⟨Nat.le_refl l, by omega, by omega, by omega⟩
        · rintro ⟨hle, -, hbegins⟩
          -- a longer word would be past this length
          have hvalue := hbegins.value_eq
          rcases Nat.lt_or_eq_of_le hle with hlt | heq
          · have hpast := past_shorter (show first counts m ≤ value s m by omega) l hlt
            omega
          · subst heq
            rw [hvalue, Nat.add_sub_cancel_left]
      · rw [if_neg hhere, ih (first_succ_le (by omega))]
        constructor
        · rintro ⟨hle, hlt, hbegins⟩
          exact ⟨by omega, by omega, hbegins⟩
        · rintro ⟨hle, hlt, hbegins⟩
          refine ⟨?_, by omega, hbegins⟩
          have hk := hbegins.lt
          have hvalue := hbegins.value_eq
          rcases Nat.lt_or_eq_of_le hle with hlt' | heq
          · exact hlt'
          · subst heq
            omega

theorem find_eq_none_iff {r l : Nat} :
    find counts s r l = none ↔
      ∀ j, l ≤ j → j < l + r → first counts j + counts j ≤ value s j := by
  induction r generalizing l with
  | zero => exact iff_of_true rfl fun j hle hlt => by omega
  | succ r ih =>
      rw [find]
      by_cases hhere : value s l < first counts l + counts l
      · rw [if_pos hhere]
        refine iff_of_false (Option.some_ne_none _) fun h => ?_
        have := h l (Nat.le_refl l) (by omega)
        omega
      · rw [if_neg hhere, ih]
        constructor
        · intro h j hle hlt
          rcases Nat.lt_or_eq_of_le hle with hlt' | rfl
          · exact h j hlt' (by omega)
          · omega
        · exact fun h j hle hlt => h j (by omega) (by omega)

/-- Reading stops after some lengths and goes on with the others. -/
theorem find_add (counts : Nat → Nat) (s : Stream) (r r' l : Nat) :
    find counts s (r + r') l = (find counts s r l).or (find counts s r' (l + r)) := by
  induction r generalizing l with
  | zero => rw [Nat.zero_add, Nat.add_zero, find, Option.none_or]
  | succ r ih =>
      rw [Nat.add_right_comm, find, find]
      by_cases hhere : value s l < first counts l + counts l
      · rw [if_pos hhere, if_pos hhere, Option.some_or]
      · rw [if_neg hhere, if_neg hhere, ih, Nat.add_right_comm, Nat.add_assoc]

/-! ## All words -/

/-- The code words of `r` lengths, from length `l` on. -/
def words (counts : Nat → Nat) : (r l : Nat) → List Nat
  | 0, _ => []
  | r + 1, l => List.range' (first counts l) (counts l) ++ words counts r (l + 1)

theorem offset_add_length_words (counts : Nat → Nat) (r l : Nat) :
    offset counts l + (words counts r l).length = offset counts (l + r) := by
  induction r generalizing l with
  | zero => rfl
  | succ r ih =>
      have hnext := ih (l + 1)
      rw [offset, show l + 1 + r = l + (r + 1) by omega] at hnext
      rw [words, List.length_append, List.length_range', ← hnext]
      omega

theorem offset_mono {l m : Nat} (h : l ≤ m) : offset counts l ≤ offset counts m := by
  obtain ⟨r, rfl⟩ := Nat.exists_eq_add_of_le h
  rw [← offset_add_length_words counts r l]
  exact Nat.le_add_right _ _

/-- Where a code word stands among all words. -/
theorem getElem?_words {r l m k : Nat} (hle : l ≤ m) (hlt : m < l + r) (hk : k < counts m) :
    (words counts r l)[offset counts m - offset counts l + k]? = some (first counts m + k) := by
  induction r generalizing l with
  | zero => omega
  | succ r ih =>
      rw [words]
      rcases Nat.lt_or_eq_of_le hle with hlt' | rfl
      · have hnext : offset counts (l + 1) ≤ offset counts m := offset_mono hlt'
        rw [offset] at hnext
        rw [List.getElem?_append_right (by rw [List.length_range']; omega), List.length_range',
          ← ih hlt' (by omega), offset]
        congr 1
        omega
      · have hinside : k < (List.range' (first counts l) (counts l)).length := by
          rw [List.length_range']
          exact hk
        rw [Nat.sub_self, Nat.zero_add, List.getElem?_append_left hinside, List.getElem?_range' hk,
          Nat.one_mul]

/-! ## Writing -/

/-- The bits of a number, the highest first. -/
def bitsOf : (l c : Nat) → List Bool
  | 0, _ => []
  | l + 1, c => bitsOf l (c / 2) ++ [decide (c % 2 = 1)]

@[simp] theorem length_bitsOf (l c : Nat) : (bitsOf l c).length = l := by
  induction l generalizing c with
  | zero => rfl
  | succ l ih => rw [bitsOf, List.length_append, ih, List.length_singleton]

theorem getD_bitsOf (l c i : Nat) :
    (bitsOf l c).getD i false = if i < l then c.testBit (l - 1 - i) else false := by
  induction l generalizing c with
  | zero => rfl
  | succ l ih =>
      rw [bitsOf, List.getD_eq_getElem?_getD]
      by_cases hi : i < l
      · rw [List.getElem?_append_left (by rw [length_bitsOf]; exact hi),
          ← List.getD_eq_getElem?_getD, ih, if_pos hi, if_pos (Nat.lt_succ_of_lt hi),
          ← Nat.testBit_succ, show (l - 1 - i).succ = l + 1 - 1 - i by omega]
      · rw [List.getElem?_append_right (by rw [length_bitsOf]; omega), length_bitsOf]
        by_cases heq : i = l
        · subst heq
          rw [Nat.sub_self, if_pos (Nat.lt_succ_self i), show i + 1 - 1 - i = 0 by omega,
            Nat.testBit_zero]
          rfl
        · rw [if_neg (by omega), List.getElem?_eq_none (by rw [List.length_singleton]; omega)]
          rfl

/-- The bits of a number are its binary digits. -/
theorem bitsOf_eq_map (l c : Nat) :
    bitsOf l c = (List.range l).map fun i => c.testBit (l - 1 - i) := by
  refine List.ext_getElem? fun i => ?_
  have hbit := getD_bitsOf l c i
  rw [List.getElem?_map]
  by_cases hi : i < l
  · have hlt : i < (bitsOf l c).length := by
      rw [length_bitsOf]
      exact hi
    rw [if_pos hi, List.getD_eq_getElem?_getD, List.getElem?_eq_getElem hlt] at hbit
    rw [List.getElem?_eq_getElem hlt, List.getElem?_range hi, Option.map_some, ← hbit]
    rfl
  · rw [List.getElem?_eq_none (by rw [length_bitsOf]; omega),
      List.getElem?_eq_none (by rw [List.length_range]; omega)]
    rfl

/-- The stream of some bits and then zeros. -/
def ofBits (bits : List Bool) : Stream := fun i => bits.getD i false

theorem skip_ofBits (bits : List Bool) (n : Nat) : (ofBits bits).skip n = ofBits (bits.drop n) := by
  funext i
  rw [Stream.skip, ofBits, ofBits, List.getD_eq_getElem?_getD, List.getD_eq_getElem?_getD,
    List.getElem?_drop, Nat.add_comm n i]

theorem ofBits_append_skip (bits more : List Bool) :
    (ofBits (bits ++ more)).skip bits.length = ofBits more := by
  rw [skip_ofBits, List.drop_left]

/-- The bits that have been written at the front of a stream are those that are read. -/
theorem value_ofBits (l c : Nat) (more : List Bool) :
    value (ofBits (bitsOf l c ++ more)) l = c % 2 ^ l := by
  refine value_eq_mod fun i hi => ?_
  have hinside : i < (bitsOf l c).length := by
    rw [length_bitsOf]
    exact hi
  rw [ofBits, List.getD_eq_getElem?_getD, List.getElem?_append_left hinside,
    ← List.getD_eq_getElem?_getD, getD_bitsOf, if_pos hi]

end IotClient.Foundation.PrefixCodes
