import Mathlib.Data.List.Lex
import Mathlib.Data.Nat.Digits.Defs
import Mathlib.Data.Prod.Lex

/-!
# The order of numerals

A numeral is a list of digits, the most significant first. `value b ds` is its number in base `b`.
Among numerals without leading zeros the number grows with the length, and at one length with the
first digit that differs: `value_lt_value_iff`.
-/

set_option autoImplicit false

namespace IotClient.Foundation.Numerals

/-- The number of a numeral in base `b`. -/
def value (b : Nat) (ds : List Nat) : Nat := Nat.ofDigits b ds.reverse

/-- The digits are digits of base `b`, there is one, and the first of several is not zero. -/
structure Normal (b : Nat) (ds : List Nat) : Prop where
  digits : ∀ d ∈ ds, d < b
  nonempty : ds ≠ []
  noLeadingZero : 2 ≤ ds.length → ds.head? ≠ some 0

variable {b : Nat}

theorem value_cons (d : Nat) (ds : List Nat) :
    value b (d :: ds) = value b ds + b ^ ds.length * d := by
  unfold value
  rw [Nat.ofDigits_reverse_cons]

theorem value_lt_pow (hb : 1 < b) {ds : List Nat} (hds : ∀ d ∈ ds, d < b) :
    value b ds < b ^ ds.length := by
  rw [value, ← List.length_reverse]
  refine Nat.ofDigits_lt_base_pow_length hb (fun d hd => hds d ?_)
  exact List.mem_reverse.1 hd

/-- A nonzero first digit makes the number at least the power of its place. -/
theorem pow_le_value {d : Nat} (hd : d ≠ 0) (ds : List Nat) :
    b ^ ds.length ≤ value b (d :: ds) := by
  have hmul : b ^ ds.length * 1 ≤ b ^ ds.length * d :=
    Nat.mul_le_mul_left _ (Nat.one_le_iff_ne_zero.2 hd)
  rw [value_cons]
  omega

/-- At one length the numbers are ordered by the first digit that differs. -/
theorem value_lt_value_of_lex (hb : 1 < b) {xs ys : List Nat} (hlen : xs.length = ys.length)
    (hxs : ∀ d ∈ xs, d < b) (hlt : xs < ys) : value b xs < value b ys := by
  induction xs generalizing ys with
  | nil =>
      have hys : ys = [] := List.eq_nil_of_length_eq_zero hlen.symm
      rw [hys] at hlt
      exact absurd hlt (lt_irrefl _)
  | cons x xs ih =>
      cases ys with
      | nil => cases hlen
      | cons y ys =>
          have hlen' : xs.length = ys.length := Nat.succ.inj hlen
          have hlow : value b xs < b ^ xs.length :=
            value_lt_pow hb fun d hd => hxs d (List.mem_cons_of_mem _ hd)
          rw [value_cons, value_cons, ← hlen']
          rcases List.cons_lt_cons_iff.1 hlt with hxy | ⟨rfl, htail⟩
          · -- one more in the leading place outweighs the places below it
            have hplace : b ^ xs.length * (x + 1) ≤ b ^ xs.length * y :=
              Nat.mul_le_mul_left _ hxy
            rw [Nat.mul_succ] at hplace
            omega
          · have := ih hlen' (fun d hd => hxs d (List.mem_cons_of_mem _ hd)) htail
            omega

/-- A shorter numeral without leading zeros has the smaller number. -/
theorem value_lt_value_of_length (hb : 1 < b) {xs ys : List Nat} (hlen : xs.length < ys.length)
    (hxs : Normal b xs) (hys : Normal b ys) : value b xs < value b ys := by
  have hpos : 0 < xs.length := List.length_pos_iff.2 hxs.nonempty
  cases ys with
  | nil => exact absurd rfl hys.nonempty
  | cons y ys =>
      have hy : y ≠ 0 := by
        intro h0
        refine hys.noLeadingZero (by omega) ?_
        rw [h0, List.head?_cons]
      rw [List.length_cons] at hlen
      calc
        value b xs < b ^ xs.length := value_lt_pow hb hxs.digits
        _ ≤ b ^ ys.length := Nat.pow_le_pow_right (by omega) (by omega)
        _ ≤ value b (y :: ys) := pow_le_value hy ys

/-- Among numerals without leading zeros, the order of the numbers is length first, then the first
digit that differs. -/
theorem value_lt_value_iff (hb : 1 < b) {xs ys : List Nat} (hxs : Normal b xs)
    (hys : Normal b ys) :
    toLex (xs.length, xs) < toLex (ys.length, ys) ↔ value b xs < value b ys := by
  have key : ∀ {us vs : List Nat}, Normal b us → Normal b vs →
      toLex (us.length, us) < toLex (vs.length, vs) → value b us < value b vs := by
    intro us vs hus hvs hlt
    rcases Prod.Lex.toLex_lt_toLex.1 hlt with hlen | ⟨hlen, hlt⟩
    · exact value_lt_value_of_length hb hlen hus hvs
    · exact value_lt_value_of_lex hb hlen hus.digits hlt
  refine ⟨key hxs hys, fun hlt => ?_⟩
  rcases lt_trichotomy (toLex (xs.length, xs)) (toLex (ys.length, ys)) with h | h | h
  · exact h
  · have heq : xs = ys := (Prod.mk.inj (toLex_inj.1 h)).2
    rw [heq] at hlt
    exact absurd hlt (lt_irrefl _)
  · exact absurd (key hys hxs h) (lt_asymm hlt)

end IotClient.Foundation.Numerals
