import Mathlib.Data.List.Infix
import Mathlib.Order.Basic

/-!
# Registers written by numbered requests

A register starts with a value and is overwritten by the answers of requests that were numbered in
the order of issue. `written a` is what the answer `a` writes, `none` when it writes nothing. The
log of a register has the answers in the order in which they arrived, each with its request.

The value of a register is what its last writing answer wrote (`value_snoc`). Readers that take
their copies at several moments see prefixes of the log; when the writing requests arrive in the
order of issue, the copies never go back to an earlier request (`snapshots_monotone`).
-/

set_option autoImplicit false

namespace IotClient.Foundation.Register

universe u v

/-- The answers in the order of arrival, each with the number of its request. -/
abbrev Log (A : Type u) := List (Nat × A)

variable {A : Type u} {V : Type v} (written : A → Option V)

/-- The value of a register that starts with `v`. -/
def value (v : V) (log : Log A) : V := log.foldl (fun v entry => (written entry.2).getD v) v

/-- The requests whose answers were written, in the order of arrival. -/
def writers (log : Log A) : List Nat :=
  log.filterMap fun entry => (written entry.2).map fun _ => entry.1

/-- The request whose answer the register holds. -/
def writer (log : Log A) : Option Nat := (writers written log).getLast?

theorem value_snoc (v : V) (log : Log A) (r : Nat) (a : A) :
    value written v (log ++ [(r, a)]) = (written a).getD (value written v log) := by
  simp [value]

theorem writers_append (log rest : Log A) :
    writers written (log ++ rest) = writers written log ++ writers written rest := by
  simp [writers]

theorem writers_snoc (log : Log A) (r : Nat) (a : A) :
    writers written (log ++ [(r, a)]) =
      writers written log ++ ((written a).map fun _ => r).toList := by
  rw [writers_append]
  cases h : written a <;> simp [writers, h]

/-- The writing requests are among the requests of the log. -/
theorem writers_sublist (log : Log A) : (writers written log).Sublist (log.map Prod.fst) := by
  induction log with
  | nil => exact List.Sublist.refl []
  | cons entry log ih =>
    rw [writers, List.filterMap_cons]
    cases written entry.2 with
    | none => exact ih.cons entry.1
    | some v => exact ih.cons_cons entry.1

/-- An answer that writes makes its request the writer, whatever the register held. -/
theorem writer_snoc {a : A} (ha : (written a).isSome = true) (log : Log A) (r : Nat) :
    writer written (log ++ [(r, a)]) = some r := by
  obtain ⟨v, hv⟩ := Option.isSome_iff_exists.1 ha
  simp [writer, writers_snoc, hv]

/-- The copy `q` does not come from an earlier request than the copy `p`. -/
def NotBefore (p q : Log A) : Prop :=
  ∀ i ∈ writer written p, ∀ j ∈ writer written q, i ≤ j

/-- A later copy of a register written in the order of issue is not from an earlier request. -/
theorem notBefore_of_prefix {p q log : Log A} (hpq : p <+: q) (hq : q <+: log)
    (hsorted : (writers written log).Pairwise (· < ·)) : NotBefore written p q := by
  obtain ⟨rest, rfl⟩ := hpq
  obtain ⟨later, rfl⟩ := hq
  intro i hi j hj
  rw [writers_append] at hsorted
  have hsorted := (List.pairwise_append.1 hsorted).1
  have hmem : i ∈ writers written p := List.mem_of_getLast? hi
  rw [writer, writers_append] at hj
  rw [writers_append] at hsorted
  -- either the copy grew, and its writer is among the new ones, or the writer is the same
  cases hrest : (writers written rest).getLast? with
  | none =>
    rw [List.getLast?_eq_none_iff] at hrest
    rw [hrest, List.append_nil] at hj
    have hij : some i = some j := hi.symm.trans hj
    exact le_of_eq (Option.some.inj hij)
  | some k =>
    rw [List.getLast?_append, hrest, Option.some_or] at hj
    obtain rfl := Option.some.inj hj
    have hk := List.mem_of_getLast? hrest
    exact le_of_lt ((List.pairwise_append.1 hsorted).2.2 i hmem k hk)

/-- Copies taken one after another from a register written in the order of issue never go back to
an earlier request. -/
theorem snapshots_monotone {copies : List (Log A)} {log : Log A}
    (hchain : copies.Pairwise (· <+: ·)) (hlog : ∀ p ∈ copies, p <+: log)
    (hsorted : (writers written log).Pairwise (· < ·)) : copies.Pairwise (NotBefore written) := by
  apply hchain.imp_of_mem
  intro p q _ hq hpq
  exact notBefore_of_prefix written hpq (hlog q hq) hsorted

end IotClient.Foundation.Register
