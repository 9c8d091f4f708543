import Mathlib.Algebra.Ring.Parity
import Mathlib.Data.List.Infix

/-!
# Scanning for a marker

`matchEnd` looks for a sequence of symbols in one pass. It keeps how many symbols of the sequence
were matched last, and starts again from none when a symbol does not fit: that symbol is not tried
as the first of the next match. For a marker of two symbols `a` and `b` this has a closed form, with
`runLength a u` the number of `a` at the end of `u`: the scan stops at the first `b` that follows a
run of `a` of odd length (`matchEnd_pair_iff`).
-/

set_option autoImplicit false

namespace IotClient.Foundation.Scanning

variable {α : Type} [DecidableEq α]

/-- The number of symbols up to the end of the first match of `sequence`, of which the first `j`
symbols have been matched already. -/
def matchEnd (sequence : List α) : Nat → List α → Option Nat
  | _, [] => none
  | j, c :: w =>
      if sequence[j]? = some c then
        if j + 1 = sequence.length then some 1
        else (matchEnd sequence (j + 1) w).map (· + 1)
      else (matchEnd sequence 0 w).map (· + 1)

variable {sequence : List α} {j n : Nat} {w : List α}

/-- A match is not empty, and ends within the text. -/
theorem matchEnd_bounds (h : matchEnd sequence j w = some n) : 0 < n ∧ n ≤ w.length := by
  induction w generalizing j n with
  | nil => cases h
  | cons c w ih =>
      have hnext : ∀ i, (matchEnd sequence i w).map (· + 1) = some n →
          0 < n ∧ n ≤ (c :: w).length := by
        intro i hi
        obtain ⟨m, hm, rfl⟩ := Option.map_eq_some_iff.1 hi
        have := (ih hm).2
        exact ⟨Nat.succ_pos m, Nat.succ_le_succ this⟩
      rw [matchEnd] at h
      split at h
      · split at h
        · obtain rfl := Option.some.inj h
          exact ⟨Nat.one_pos, Nat.succ_le_succ (Nat.zero_le _)⟩
        · exact hnext _ h
      · exact hnext _ h

/-- The scan does not look beyond the match: on the first `k` symbols it finds the same match, if
that ends among them. -/
theorem matchEnd_take_iff (k : Nat) :
    matchEnd sequence j (w.take k) = some n ↔ matchEnd sequence j w = some n ∧ n ≤ k := by
  induction w generalizing j n k with
  | nil => simp [matchEnd]
  | cons c w ih =>
      cases k with
      | zero =>
          rw [List.take_zero]
          refine ⟨fun h => (by cases h), fun ⟨h, hn⟩ => ?_⟩
          have := (matchEnd_bounds h).1
          omega
      | succ k =>
          have hnext : ∀ i, (matchEnd sequence i (w.take k)).map (· + 1) = some n ↔
              (matchEnd sequence i w).map (· + 1) = some n ∧ n ≤ k + 1 := by
            intro i
            constructor
            · intro h
              obtain ⟨m, hm, rfl⟩ := Option.map_eq_some_iff.1 h
              obtain ⟨hm, hmk⟩ := (ih k).1 hm
              exact ⟨by rw [hm, Option.map_some], Nat.succ_le_succ hmk⟩
            · rintro ⟨h, hn⟩
              obtain ⟨m, hm, rfl⟩ := Option.map_eq_some_iff.1 h
              rw [(ih k).2 ⟨hm, Nat.le_of_succ_le_succ hn⟩, Option.map_some]
          rw [List.take_succ_cons, matchEnd, matchEnd]
          split
          · split
            · constructor
              · intro h
                obtain rfl := Option.some.inj h
                exact ⟨rfl, by omega⟩
              · exact fun h => h.1
            · exact hnext _
          · exact hnext _

theorem matchEnd_append (h : matchEnd sequence j w = some n) (v : List α) :
    matchEnd sequence j (w ++ v) = some n := by
  have htake : (w ++ v).take w.length = w := List.take_left
  rw [← htake] at h
  exact ((matchEnd_take_iff _).1 h).1

/-! ## Two different symbols -/

section Pair

variable {a b : α}

/-- The number of `a` at the end. -/
def runLength (a : α) (u : List α) : Nat := (u.reverse.takeWhile (· = a)).length

theorem runLength_concat_self (u : List α) : runLength a (u ++ [a]) = runLength a u + 1 := by
  rw [runLength, List.reverse_concat, List.takeWhile_cons_of_pos (by simp)]
  rfl

theorem runLength_concat_of_ne (u : List α) {c : α} (hc : c ≠ a) : runLength a (u ++ [c]) = 0 := by
  rw [runLength, List.reverse_concat, List.takeWhile_cons_of_neg (by simpa using hc)]
  rfl

/-- The text ends with a `b` after a run of `a` of odd length. -/
def Hit (a b : α) (w : List α) : Prop := ∃ u, w = u ++ [b] ∧ Odd (runLength a u)

theorem hit_concat_iff {u : List α} {c : α} :
    Hit a b (u ++ [c]) ↔ c = b ∧ Odd (runLength a u) := by
  constructor
  · rintro ⟨v, hv, hodd⟩
    obtain ⟨rfl, hc⟩ := List.append_inj' hv rfl
    exact ⟨(List.cons.inj hc).1, hodd⟩
  · rintro ⟨rfl, hodd⟩
    exact ⟨u, rfl, hodd⟩

theorem not_hit_nil : ¬ Hit a b ([] : List α) := by
  rintro ⟨u, hu, -⟩
  exact List.append_ne_nil_of_right_ne_nil u (List.cons_ne_nil b []) hu.symm

theorem matchEnd_pair_zero_cons (c : α) (w : List α) :
    matchEnd [a, b] 0 (c :: w) =
      (if c = a then matchEnd [a, b] 1 w else matchEnd [a, b] 0 w).map (· + 1) := by
  rw [matchEnd]
  by_cases hc : c = a
  · rw [if_pos hc, if_pos (by simp [hc]), if_neg (by simp)]
  · rw [if_neg hc, if_neg (by simpa using fun h => hc h.symm)]

theorem matchEnd_pair_one_cons (c : α) (w : List α) :
    matchEnd [a, b] 1 (c :: w) =
      if c = b then some 1 else (matchEnd [a, b] 0 w).map (· + 1) := by
  rw [matchEnd]
  by_cases hc : c = b
  · rw [if_pos hc, if_pos (by simp [hc]), if_pos (by simp)]
  · rw [if_neg hc, if_neg (by simpa using fun h => hc h.symm)]

/-- How much of the marker is matched depends on the parity of the run alone, because the `a` that
breaks a match is not tried again. -/
theorem matchEnd_pair_cons (hab : a ≠ b) (u w : List α) (c : α) :
    matchEnd [a, b] (runLength a u % 2) (c :: w) =
      if c = b ∧ Odd (runLength a u) then some 1
      else (matchEnd [a, b] (runLength a (u ++ [c]) % 2) w).map (· + 1) := by
  rcases Nat.mod_two_eq_zero_or_one (runLength a u) with heven | hodd
  · have hnot : ¬ (c = b ∧ Odd (runLength a u)) := by
      rw [Nat.odd_iff, heven]
      exact fun h => Nat.zero_ne_one h.2
    rw [heven, matchEnd_pair_zero_cons, if_neg hnot]
    by_cases hc : c = a
    · subst hc
      rw [if_pos rfl, runLength_concat_self, Nat.add_mod, heven]
    · rw [if_neg hc, runLength_concat_of_ne u hc]
  · rw [hodd, matchEnd_pair_one_cons]
    by_cases hc : c = b
    · rw [if_pos hc, if_pos ⟨hc, Nat.odd_iff.2 hodd⟩]
    · rw [if_neg hc, if_neg fun h => hc h.1]
      by_cases hca : c = a
      · subst hca
        rw [runLength_concat_self, Nat.add_mod, hodd]
      · rw [runLength_concat_of_ne u hca]

/-- The scan from behind a text `u` in which nothing was found. -/
theorem matchEnd_pair_from_iff (hab : a ≠ b) (u : List α) :
    matchEnd [a, b] (runLength a u % 2) w = some n ↔
      0 < n ∧ n ≤ w.length ∧ Hit a b (u ++ w.take n) ∧
        ∀ m, 0 < m → m < n → ¬ Hit a b (u ++ w.take m) := by
  induction w generalizing u n with
  | nil =>
      constructor
      · intro h
        cases h
      · rintro ⟨hpos, hle, -⟩
        exact absurd hle (Nat.not_le.2 hpos)
  | cons c w ih =>
      have hone : u ++ (c :: w).take 1 = u ++ [c] := rfl
      have hsucc : ∀ m, u ++ (c :: w).take (m + 1) = (u ++ [c]) ++ w.take m := by
        intro m
        rw [List.take_succ_cons, List.append_assoc, List.singleton_append]
      rw [matchEnd_pair_cons hab]
      by_cases hhit : c = b ∧ Odd (runLength a u)
      · -- the next symbol ends the marker
        rw [if_pos hhit]
        constructor
        · intro h
          obtain rfl := Option.some.inj h
          refine ⟨Nat.one_pos, Nat.succ_le_succ (Nat.zero_le _), ?_, fun m hpos hlt => ?_⟩
          · rw [hone]
            exact hit_concat_iff.2 hhit
          · omega
        · rintro ⟨hpos, -, -, hfirst⟩
          by_cases hn : n = 1
          · rw [hn]
          · refine absurd ?_ (hfirst 1 Nat.one_pos (by omega))
            rw [hone]
            exact hit_concat_iff.2 hhit
      · have hnone : ¬ Hit a b (u ++ [c]) := fun h => hhit (hit_concat_iff.1 h)
        rw [if_neg hhit]
        constructor
        · intro h
          obtain ⟨m, hm, rfl⟩ := Option.map_eq_some_iff.1 h
          obtain ⟨hpos, hle, hend, hfirst⟩ := (ih (u ++ [c])).1 hm
          refine ⟨Nat.succ_pos m, Nat.succ_le_succ hle, ?_, ?_⟩
          · rw [hsucc]
            exact hend
          · intro k hk hlt
            obtain ⟨k, rfl⟩ := Nat.exists_eq_add_of_lt hk
            rw [Nat.zero_add, hsucc]
            cases k with
            | zero => simpa using hnone
            | succ k => exact hfirst (k + 1) (Nat.succ_pos k) (by omega)
        · rintro ⟨hpos, hle, hend, hfirst⟩
          obtain ⟨m, rfl⟩ := Nat.exists_eq_add_of_lt hpos
          rw [Nat.zero_add] at hle hend hfirst ⊢
          have hm : m ≠ 0 := by
            rintro rfl
            exact hnone hend
          have hrec : matchEnd [a, b] (runLength a (u ++ [c]) % 2) w = some m := by
            refine (ih (u ++ [c])).2 ⟨by omega, Nat.le_of_succ_le_succ hle, ?_, ?_⟩
            · rw [← hsucc]
              exact hend
            · intro k hk hlt
              rw [← hsucc]
              exact hfirst (k + 1) (Nat.succ_pos k) (by omega)
          rw [hrec, Option.map_some]

/-- The scan stops at the first `b` that follows a run of `a` of odd length. -/
theorem matchEnd_pair_iff (hab : a ≠ b) :
    matchEnd [a, b] 0 w = some n ↔
      n ≤ w.length ∧ Hit a b (w.take n) ∧ ∀ m < n, ¬ Hit a b (w.take m) := by
  have h := matchEnd_pair_from_iff hab (n := n) (w := w) []
  rw [show runLength a ([] : List α) % 2 = 0 from rfl] at h
  rw [h]
  simp only [List.nil_append]
  constructor
  · rintro ⟨-, hle, hend, hfirst⟩
    refine ⟨hle, hend, fun m hlt => ?_⟩
    cases m with
    | zero =>
        rw [List.take_zero]
        exact not_hit_nil
    | succ m => exact hfirst (m + 1) (Nat.succ_pos m) hlt
  · rintro ⟨hle, hend, hfirst⟩
    refine ⟨Nat.pos_of_ne_zero ?_, hle, hend, fun m _ hlt => hfirst m hlt⟩
    rintro rfl
    rw [List.take_zero] at hend
    exact not_hit_nil hend

/-- A text without the first symbol of the marker is passed over. -/
theorem matchEnd_append_of_not_mem {u : List α} (hu : a ∉ u) (v : List α) :
    matchEnd [a, b] 0 (u ++ v) = (matchEnd [a, b] 0 v).map (· + u.length) := by
  induction u with
  | nil => simp
  | cons c u ih =>
      rw [List.mem_cons, not_or] at hu
      rw [List.cons_append, matchEnd_pair_zero_cons, if_neg fun h => hu.1 h.symm, ih hu.2,
        Option.map_map, List.length_cons]
      rfl

/-- A marker after such a text is found. -/
theorem matchEnd_of_not_mem {u : List α} (hu : a ∉ u) (v : List α) :
    matchEnd [a, b] 0 (u ++ a :: b :: v) = some (u.length + 2) := by
  rw [matchEnd_append_of_not_mem hu, matchEnd_pair_zero_cons, if_pos rfl, matchEnd_pair_one_cons,
    if_pos rfl, Option.map_some, Option.map_some, Nat.add_comm]

/-- A scan that has matched `j` symbols, over a text whose last `j` symbols were these, stops right
behind the marker. -/
theorem matchEnd_pair_marker_from (w : List α) :
    (∀ n, matchEnd [a, b] 0 w = some n → 2 ≤ n ∧ (w.drop (n - 2)).take 2 = [a, b]) ∧
      (∀ n, matchEnd [a, b] 1 w = some n → 1 ≤ n ∧ ((a :: w).drop (n - 1)).take 2 = [a, b]) := by
  induction w with
  | nil => exact ⟨fun n h => (by cases h), fun n h => (by cases h)⟩
  | cons c w ih =>
      obtain ⟨ihzero, ihone⟩ := ih
      have hzero : ∀ m, matchEnd [a, b] 0 w = some m →
          2 ≤ m ∧ ((c :: w).drop (m - 1)).take 2 = [a, b] := by
        intro m hm
        obtain ⟨hle, hmark⟩ := ihzero m hm
        refine ⟨hle, ?_⟩
        rw [show m - 1 = (m - 2) + 1 by omega, List.drop_succ_cons]
        exact hmark
      constructor
      · intro n h
        rw [matchEnd_pair_zero_cons] at h
        obtain ⟨m, hm, rfl⟩ := Option.map_eq_some_iff.1 h
        rw [show m + 1 - 2 = m - 1 by omega]
        by_cases hc : c = a
        · rw [if_pos hc] at hm
          obtain ⟨hle, hmark⟩ := ihone m hm
          rw [hc]
          exact ⟨by omega, hmark⟩
        · rw [if_neg hc] at hm
          obtain ⟨hle, hmark⟩ := hzero m hm
          exact ⟨by omega, hmark⟩
      · intro n h
        rw [matchEnd_pair_one_cons] at h
        by_cases hc : c = b
        · rw [if_pos hc] at h
          obtain rfl := Option.some.inj h
          rw [hc]
          exact ⟨Nat.le_refl 1, rfl⟩
        · rw [if_neg hc] at h
          obtain ⟨m, hm, rfl⟩ := Option.map_eq_some_iff.1 h
          obtain ⟨hle, hmark⟩ := hzero m hm
          refine ⟨by omega, ?_⟩
          rw [show m + 1 - 1 = (m - 1) + 1 by omega, List.drop_succ_cons]
          exact hmark

theorem matchEnd_pair_marker {n : Nat} (h : matchEnd [a, b] 0 w = some n) :
    2 ≤ n ∧ (w.drop (n - 2)).take 2 = [a, b] := (matchEnd_pair_marker_from w).1 n h

end Pair

end IotClient.Foundation.Scanning
