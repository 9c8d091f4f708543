import Mathlib.Data.List.Basic
import Mathlib.Data.List.InsertIdx

/-!
# Inserting a sibling

`insertBefore t r l` is the list `l` of siblings with `r` immediately before each occurrence of `t`.
Inserting `r` at the index of `t` gives it, removing `r` gives `l` back, and inserting `r` one place
later does not.
-/

set_option autoImplicit false

namespace IotClient.Foundation.Siblings

universe u

variable {V : Type u} [DecidableEq V]

/-- `r` immediately before `t`. -/
def insertBefore (t r : V) : List V → List V
  | [] => []
  | v :: vs => if v = t then r :: v :: insertBefore t r vs else v :: insertBefore t r vs

variable {t r : V}

theorem insertBefore_of_not_mem {l : List V} (ht : t ∉ l) : insertBefore t r l = l := by
  induction l with
  | nil => rfl
  | cons v vs ih =>
      rw [List.mem_cons, not_or] at ht
      rw [insertBefore, if_neg (Ne.symm ht.1), ih ht.2]

theorem mem_insertBefore {l : List V} (ht : t ∈ l) : r ∈ insertBefore t r l := by
  induction l with
  | nil => cases ht
  | cons v vs ih =>
      rw [insertBefore]
      split_ifs with hv
      · exact List.mem_cons_self
      · rcases List.mem_cons.1 ht with rfl | ht
        · exact absurd rfl hv
        · exact List.mem_cons_of_mem _ (ih ht)

theorem mem_insertBefore_of_mem {v : V} {l : List V} (hv : v ∈ l) : v ∈ insertBefore t r l := by
  induction l with
  | nil => cases hv
  | cons u us ih =>
      rw [insertBefore]
      split_ifs with hu
      · rcases List.mem_cons.1 hv with rfl | hv
        · exact List.mem_cons_of_mem _ List.mem_cons_self
        · exact List.mem_cons_of_mem _ (List.mem_cons_of_mem _ (ih hv))
      · rcases List.mem_cons.1 hv with rfl | hv
        · exact List.mem_cons_self
        · exact List.mem_cons_of_mem _ (ih hv)

/-- `r` at the index of `t` is immediately before it. -/
theorem insertIdx_idxOf {l : List V} (hl : l.Nodup) (ht : t ∈ l) :
    l.insertIdx (l.idxOf t) r = insertBefore t r l := by
  induction l with
  | nil => cases ht
  | cons v vs ih =>
      obtain ⟨hv, hvs⟩ := List.nodup_cons.1 hl
      rw [insertBefore]
      by_cases hvt : v = t
      · rw [if_pos hvt, ← hvt, List.idxOf_cons_self, insertBefore_of_not_mem hv]
        rfl
      · have htvs : t ∈ vs := (List.mem_cons.1 ht).resolve_left (Ne.symm hvt)
        rw [if_neg hvt, List.idxOf_cons_ne _ hvt, List.insertIdx_succ_cons, ih hvs htvs]

/-- Removing `r` again gives the siblings back. -/
theorem erase_insertBefore {l : List V} (hl : l.Nodup) (hr : r ∉ l) :
    (insertBefore t r l).erase r = l := by
  induction l with
  | nil => rfl
  | cons v vs ih =>
      obtain ⟨hv, hvs⟩ := List.nodup_cons.1 hl
      rw [List.mem_cons, not_or] at hr
      rw [insertBefore]
      by_cases hvt : v = t
      · rw [if_pos hvt, List.erase_cons_head, insertBefore_of_not_mem (hvt ▸ hv)]
      · rw [if_neg hvt, List.erase_cons_tail (by simpa using Ne.symm hr.1), ih hvs hr.2]

/-- With `r` inserted, the index of `t` is one more. -/
theorem idxOf_insertBefore {l : List V} (ht : t ∈ l) (hrt : r ≠ t) :
    (insertBefore t r l).idxOf t = l.idxOf t + 1 := by
  induction l with
  | nil => cases ht
  | cons v vs ih =>
      rw [insertBefore]
      by_cases hvt : v = t
      · rw [if_pos hvt, hvt, List.idxOf_cons_ne _ hrt, List.idxOf_cons_self, List.idxOf_cons_self]
      · have htvs : t ∈ vs := (List.mem_cons.1 ht).resolve_left (Ne.symm hvt)
        rw [if_neg hvt, List.idxOf_cons_ne _ hvt, ih htvs, List.idxOf_cons_ne _ hvt]

/-- `r` one place after the index of `t` is not before it. -/
theorem insertIdx_succ_ne {l : List V} (hl : l.Nodup) (ht : t ∈ l) (hrt : r ≠ t) :
    l.insertIdx (l.idxOf t + 1) r ≠ insertBefore t r l := by
  intro heq
  have hlt : l.idxOf t < l.length := List.idxOf_lt_length_of_mem ht
  rw [← insertIdx_idxOf hl ht] at heq
  have hat := congrArg (fun vs : List V => vs[l.idxOf t]?) heq
  rw [List.getElem?_insertIdx_of_lt (by omega), List.getElem?_insertIdx_self,
    if_pos (Nat.le_of_lt hlt), List.getElem?_eq_getElem hlt, List.getElem_idxOf] at hat
  exact hrt (Option.some.inj hat).symm

end IotClient.Foundation.Siblings
