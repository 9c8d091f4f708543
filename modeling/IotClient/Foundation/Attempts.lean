import Mathlib.Data.List.Perm.Basic

/-!
# Numbered attempts

A component numbers what it starts: an attempt is in flight until it is done, and no number is given
twice (`Issued`).

A ledger keeps with every attempt the request that it issued, if any, the outcome that closed it, and
what the component did about the outcome. It is sound for `P` when every attempt is in flight or
closed, and every closing did what `P` asks for its outcome.

* `Issued.issue`, `Issued.complete`: starting and completing an attempt keep the numbers apart.
* `sound_begin_iff`, `sound_close_iff`: what an operation must do to keep a ledger sound.
-/

set_option autoImplicit false

namespace IotClient.Foundation.Attempts

universe u v w

/-! ## Numbers -/

/-- The numbers in flight and the numbers done are all different, and below the next one. -/
structure Issued (next : Nat) (inFlight done : List Nat) : Prop where
  nodup : (inFlight ++ done).Nodup
  lt : ∀ r ∈ inFlight ++ done, r < next

namespace Issued

variable {next r : Nat} {inFlight done : List Nat}

theorem empty : Issued 0 [] [] where
  nodup := List.nodup_nil
  lt := by
    intro r hr
    cases hr

/-- A number done is not in flight. -/
theorem not_mem_inFlight (h : Issued next inFlight done) (hr : r ∈ done) : r ∉ inFlight := by
  intro hmem
  exact (List.nodup_append.1 h.nodup).2.2 r hmem r hr rfl

/-- A number may be skipped. -/
theorem skip (h : Issued next inFlight done) : Issued (next + 1) inFlight done where
  nodup := h.nodup
  lt := by
    intro r hr
    exact Nat.lt_succ_of_lt (h.lt r hr)

/-- A new attempt takes the next number. -/
theorem issue (h : Issued next inFlight done) : Issued (next + 1) (inFlight ++ [next]) done := by
  have hperm : (inFlight ++ [next] ++ done).Perm (next :: (inFlight ++ done)) := by
    rw [List.append_assoc, List.singleton_append]
    exact List.perm_middle
  have hnew : next ∉ inFlight ++ done := by
    intro hmem
    exact Nat.lt_irrefl next (h.lt next hmem)
  refine ⟨hperm.nodup_iff.2 (List.nodup_cons.2 ⟨hnew, h.nodup⟩), ?_⟩
  intro r hr
  rcases List.mem_cons.1 (hperm.mem_iff.1 hr) with rfl | hr
  · exact Nat.lt_succ_self r
  · exact Nat.lt_succ_of_lt (h.lt r hr)

/-- Completing an attempt only moves its number. -/
theorem perm_complete (hr : r ∈ inFlight) (done : List Nat) :
    (inFlight.erase r ++ (done ++ [r])).Perm (inFlight ++ done) := by
  have hmoved : (inFlight.erase r ++ (done ++ [r])).Perm (r :: (inFlight.erase r ++ done)) := by
    rw [← List.append_assoc]
    exact List.perm_append_singleton r _
  apply hmoved.trans
  exact (List.perm_cons_erase hr).symm.append_right done

theorem complete (h : Issued next inFlight done) (hr : r ∈ inFlight) :
    Issued next (inFlight.erase r) (done ++ [r]) := by
  have hperm := perm_complete hr done
  refine ⟨hperm.nodup_iff.2 h.nodup, ?_⟩
  intro q hq
  exact h.lt q (hperm.mem_iff.1 hq)

end Issued

/-! ## Ledgers -/

/-- The attempts of a component. -/
structure Ledger (S : Type u) (O : Type v) (K : Type w) where
  attempts : Nat
  inFlight : List (Nat × S)
  closed : List (Nat × O × K)

variable {S : Type u} {O : Type v} {K : Type w}

/-- The ledger without attempts. -/
def Ledger.empty : Ledger S O K := ⟨0, [], []⟩

/-- A new attempt, with the request that it issues, if any. -/
def Ledger.begin (l : Ledger S O K) (request : Option S) : Ledger S O K :=
  { l with
    attempts := l.attempts + 1
    inFlight := l.inFlight ++ request.toList.map fun s => (l.attempts, s) }

/-- The outcome `o` closes the attempt `r`, and the component does `k`. -/
def Ledger.close (l : Ledger S O K) (r : Nat) (o : O) (k : K) : Ledger S O K :=
  { l with
    inFlight := l.inFlight.filter fun entry => entry.1 != r
    closed := l.closed ++ [(r, o, k)] }

/-- The request of the attempt `r`, while it is in flight. -/
def Ledger.request (l : Ledger S O K) (r : Nat) : Option S := l.inFlight.lookup r

/-- The numbers of the attempts that issued a request. -/
def Ledger.numbers (l : Ledger S O K) : List Nat :=
  l.inFlight.map Prod.fst ++ l.closed.map Prod.fst

/-- Every attempt has one number. -/
def Numbered (l : Ledger S O K) : Prop :=
  Issued l.attempts (l.inFlight.map Prod.fst) (l.closed.map Prod.fst)

/-- Every attempt has issued a request, and every closing did what `P` asks for its outcome. -/
structure Sound (P : O → K → Prop) (l : Ledger S O K) : Prop where
  issued : ∀ r < l.attempts, r ∈ l.numbers
  answered : ∀ r o k, (r, o, k) ∈ l.closed → P o k

variable {l : Ledger S O K} {P : O → K → Prop} {r : Nat}

theorem mem_of_request {s : S} (h : l.request r = some s) : (r, s) ∈ l.inFlight := by
  rw [Ledger.request, List.lookup_eq_some_iff] at h
  obtain ⟨pre, post, heq, -⟩ := h
  rw [heq]
  exact List.mem_append_right pre List.mem_cons_self

theorem numbered_empty : Numbered (Ledger.empty : Ledger S O K) := Issued.empty

theorem sound_empty : Sound P (Ledger.empty : Ledger S O K) where
  issued := by
    intro r hr
    cases hr
  answered := by
    intro r o k hr
    cases hr

/-- The numbers in flight after a new attempt. -/
theorem inFlight_begin (l : Ledger S O K) (request : Option S) :
    (l.begin request).inFlight.map Prod.fst =
      l.inFlight.map Prod.fst ++ request.toList.map fun _ => l.attempts := by
  rw [Ledger.begin, List.map_append, List.map_map]
  rfl

theorem numbered_begin (h : Numbered l) (request : Option S) : Numbered (l.begin request) := by
  rw [Numbered, inFlight_begin]
  cases request with
  | none =>
    rw [Option.toList_none, List.map_nil, List.append_nil]
    exact h.skip
  | some s => exact h.issue

/-- The numbers in flight after a closing. -/
theorem inFlight_close (h : Numbered l) (o : O) (k : K) :
    (l.close r o k).inFlight.map Prod.fst = (l.inFlight.map Prod.fst).erase r := by
  have hnodup : (l.inFlight.map Prod.fst).Nodup := (List.nodup_append.1 h.nodup).1
  rw [hnodup.erase_eq_filter, List.filter_map]
  rfl

theorem closed_close (l : Ledger S O K) (r : Nat) (o : O) (k : K) :
    (l.close r o k).closed.map Prod.fst = l.closed.map Prod.fst ++ [r] :=
  List.map_append

theorem numbered_close (h : Numbered l) {s : S} (hr : l.request r = some s) (o : O) (k : K) :
    Numbered (l.close r o k) := by
  rw [Numbered, inFlight_close h, closed_close]
  exact h.complete (List.mem_map_of_mem (mem_of_request hr))

/-- A new attempt keeps a ledger sound exactly when it issues a request. -/
theorem sound_begin_iff (hl : Numbered l) (hs : Sound P l) (request : Option S) :
    Sound P (l.begin request) ↔ request.isSome = true := by
  constructor
  · intro h
    have hmem : l.attempts ∈ (l.begin request).numbers := h.issued l.attempts (Nat.lt_succ_self _)
    cases request with
    | none =>
      rw [Ledger.numbers, inFlight_begin, Option.toList_none, List.map_nil, List.append_nil] at hmem
      exact absurd (hl.lt _ hmem) (Nat.lt_irrefl _)
    | some s => rfl
  · intro h
    obtain ⟨s, rfl⟩ := Option.isSome_iff_exists.1 h
    refine ⟨?_, hs.answered⟩
    intro r hr
    rw [Ledger.numbers, inFlight_begin]
    rcases Nat.lt_succ_iff_lt_or_eq.1 hr with hr | rfl
    · -- an earlier attempt is where it was
      rcases List.mem_append.1 (hs.issued r hr) with hmem | hmem
      · exact List.mem_append_left _ (List.mem_append_left _ hmem)
      · exact List.mem_append_right _ hmem
    · exact List.mem_append_left _ (List.mem_append_right _ List.mem_cons_self)

/-- A closing keeps a ledger sound exactly when it does what its outcome asks for. -/
theorem sound_close_iff (hl : Numbered l) (hs : Sound P l) {s : S} (hr : l.request r = some s)
    (o : O) (k : K) : Sound P (l.close r o k) ↔ P o k := by
  constructor
  · intro h
    exact h.answered r o k (List.mem_append_right _ (List.mem_singleton_self _))
  · intro h
    refine ⟨?_, ?_⟩
    · intro q hq
      have hmem : r ∈ l.inFlight.map Prod.fst := List.mem_map_of_mem (mem_of_request hr)
      rw [Ledger.numbers, inFlight_close hl, closed_close, (Issued.perm_complete hmem _).mem_iff]
      exact hs.issued q hq
    · intro q o' k' hmem
      rcases List.mem_append.1 hmem with hmem | hmem
      · exact hs.answered q o' k' hmem
      · obtain ⟨-, rfl, rfl⟩ : q = r ∧ o' = o ∧ k' = k := by simpa using hmem
        exact h

end IotClient.Foundation.Attempts
