import Mathlib.Data.Set.Basic
import Mathlib.Order.Bounds.Basic
import Mathlib.Order.MinMax

/-!
# Running extremes

A scan keeps the least value seen so far, `if v < m then v else m`, and the greatest in the same
way. Started from a bound that every value is beyond, a scan of a nonempty list ends in the least,
respectively the greatest, of its values; and the least of the least values of some parts is the
least of all.
-/

set_option autoImplicit false

namespace IotClient.Foundation.Extremes

universe u v

variable {F : Type u} [LinearOrder F]

/-- The smaller of the value so far and the next one. -/
def lower (m v : F) : F := if v < m then v else m

/-- The greater of the value so far and the next one. -/
def raise (m v : F) : F := if m < v then v else m

theorem lower_eq_min (m v : F) : lower m v = min m v := by
  rw [lower]
  split_ifs with h
  · exact (min_eq_right h.le).symm
  · exact (min_eq_left (not_lt.1 h)).symm

theorem raise_eq_max (m v : F) : raise m v = max m v :=
  lower_eq_min (F := Fᵒᵈ) m v

/-- A scan ends in the least of its start and the values scanned. -/
theorem isLeast_foldl_lower (m : F) (vs : List F) :
    IsLeast {x | x = m ∨ x ∈ vs} (vs.foldl lower m) := by
  induction vs generalizing m with
  | nil =>
      refine ⟨Or.inl rfl, ?_⟩
      rintro x (rfl | hx)
      · exact le_refl x
      · cases hx
  | cons v vs ih =>
      obtain ⟨hmem, hlow⟩ := ih (lower m v)
      rw [List.foldl_cons]
      refine ⟨?_, ?_⟩
      · rcases hmem with heq | hmem
        · rw [heq, lower_eq_min]
          rcases min_choice m v with h | h
          · exact Or.inl h
          · rw [h]
            exact Or.inr List.mem_cons_self
        · exact Or.inr (List.mem_cons_of_mem _ hmem)
      · -- the fold only goes down from where it starts
        have hstart : vs.foldl lower (lower m v) ≤ min m v := by
          rw [← lower_eq_min]
          exact hlow (Or.inl rfl)
        rintro x (rfl | hx)
        · exact hstart.trans (min_le_left x v)
        · rcases List.mem_cons.1 hx with rfl | hx
          · exact hstart.trans (min_le_right m x)
          · exact hlow (Or.inr hx)

theorem isGreatest_foldl_raise (m : F) (vs : List F) :
    IsGreatest {x | x = m ∨ x ∈ vs} (vs.foldl raise m) :=
  isLeast_foldl_lower (F := Fᵒᵈ) m vs

/-- A start beyond every value is lowered by the first of them. -/
theorem isLeast_foldl_lower_of_lt {m : F} {vs : List F} (hne : vs ≠ []) (hm : ∀ v ∈ vs, v < m) :
    IsLeast {x | x ∈ vs} (vs.foldl lower m) := by
  obtain ⟨hmem, hlow⟩ := isLeast_foldl_lower m vs
  refine ⟨?_, fun x hx => hlow (Or.inr hx)⟩
  rcases hmem with heq | hmem
  · obtain ⟨v, hv⟩ := List.exists_mem_of_ne_nil vs hne
    have hle : vs.foldl lower m ≤ v := hlow (Or.inr hv)
    rw [heq] at hle
    exact absurd (hm v hv) (not_lt.2 hle)
  · exact hmem

/-- A start that is one of the values changes nothing. -/
theorem isLeast_foldl_lower_of_mem {m : F} {vs : List F} (hm : m ∈ vs) :
    IsLeast {x | x ∈ vs} (vs.foldl lower m) := by
  obtain ⟨hmem, hlow⟩ := isLeast_foldl_lower m vs
  refine ⟨?_, fun x hx => hlow (Or.inr hx)⟩
  rcases hmem with heq | hmem
  · rw [heq]
    exact hm
  · exact hmem

/-- The same for the greatest value, in the opposite order. -/
theorem isGreatest_foldl_raise_of_lt {m : F} {vs : List F} (hne : vs ≠ [])
    (hm : ∀ v ∈ vs, m < v) : IsGreatest {x | x ∈ vs} (vs.foldl raise m) :=
  isLeast_foldl_lower_of_lt (F := Fᵒᵈ) hne hm

theorem isGreatest_foldl_raise_of_mem {m : F} {vs : List F} (hm : m ∈ vs) :
    IsGreatest {x | x ∈ vs} (vs.foldl raise m) :=
  isLeast_foldl_lower_of_mem (F := Fᵒᵈ) hm

/-- The least of the least values of the parts is the least of all. -/
theorem isLeast_parts {ι : Type v} {parts : List ι} {A : ι → Set F} {f : ι → F} {m : F}
    (hparts : ∀ i ∈ parts, IsLeast (A i) (f i)) (hm : IsLeast {x | x ∈ parts.map f} m) :
    IsLeast {x | ∃ i ∈ parts, x ∈ A i} m := by
  obtain ⟨hmem, hlow⟩ := hm
  obtain ⟨i, hi, rfl⟩ := List.mem_map.1 hmem
  refine ⟨⟨i, hi, (hparts i hi).1⟩, ?_⟩
  rintro x ⟨j, hj, hx⟩
  calc
    f i ≤ f j := hlow (List.mem_map_of_mem hj)
    _ ≤ x := (hparts j hj).2 hx

theorem isGreatest_parts {ι : Type v} {parts : List ι} {A : ι → Set F} {f : ι → F} {m : F}
    (hparts : ∀ i ∈ parts, IsGreatest (A i) (f i)) (hm : IsGreatest {x | x ∈ parts.map f} m) :
    IsGreatest {x | ∃ i ∈ parts, x ∈ A i} m :=
  isLeast_parts (F := Fᵒᵈ) hparts hm

/-! ## One element changes -/

/-- The least element follows when one element is lowered. -/
theorem isLeast_insert_lower {A : Set F} {a m : F} (h : IsLeast (insert a A) m) (v : F) :
    IsLeast (insert (lower a v) A) (lower m v) := by
  obtain ⟨hmem, hlow⟩ := h
  have hma : m ≤ a := hlow (Set.mem_insert a A)
  rw [lower_eq_min, lower_eq_min]
  constructor
  · rcases le_total m v with hmv | hvm
    · rw [min_eq_left hmv]
      rcases hmem with rfl | hmem
      · exact .inl (min_eq_left hmv).symm
      · exact .inr hmem
    · rw [min_eq_right hvm]
      exact .inl (min_eq_right (hvm.trans hma)).symm
  · rintro x (rfl | hx)
    · exact min_le_min_right v hma
    · exact (min_le_left m v).trans (hlow (Set.mem_insert_of_mem a hx))

theorem isGreatest_insert_raise {A : Set F} {a m : F} (h : IsGreatest (insert a A) m) (v : F) :
    IsGreatest (insert (raise a v) A) (raise m v) :=
  isLeast_insert_lower (F := Fᵒᵈ) h v

/-- Lowering the least element goes too far for `v` in the place of `a` exactly when nothing
replaces `a`. -/
theorem isLeast_insert_iff {A : Set F} {a m : F} (h : IsLeast (insert a A) m) (v : F) :
    IsLeast (insert v A) (lower m v) ↔ v ≤ a ∨ ∃ x ∈ A, x ≤ a := by
  obtain ⟨hmem, hlow⟩ := h
  have hma : m ≤ a := hlow (Set.mem_insert a A)
  rw [lower_eq_min]
  constructor
  · rintro ⟨hv | hx, -⟩
    · left
      calc
        v = min m v := hv.symm
        _ ≤ m := min_le_left m v
        _ ≤ a := hma
    · exact .inr ⟨_, hx, (min_le_left m v).trans hma⟩
  · intro hreplaced
    constructor
    · rcases le_total v m with hvm | hmv
      · exact .inl (min_eq_right hvm)
      rw [min_eq_left hmv]
      rcases hmem with rfl | hmem
      · -- `a` was the least, and what replaces it is no greater
        rcases hreplaced with hva | ⟨x, hx, hxa⟩
        · exact .inl (le_antisymm hmv hva)
        · rw [le_antisymm (hlow (Set.mem_insert_of_mem _ hx)) hxa]
          exact .inr hx
      · exact .inr hmem
    · rintro x (rfl | hx)
      · exact min_le_right m x
      · exact (min_le_left m v).trans (hlow (Set.mem_insert_of_mem a hx))

theorem isGreatest_insert_iff {A : Set F} {a m : F} (h : IsGreatest (insert a A) m) (v : F) :
    IsGreatest (insert v A) (raise m v) ↔ a ≤ v ∨ ∃ x ∈ A, a ≤ x :=
  isLeast_insert_iff (F := Fᵒᵈ) h v

/-! ## Bounds -/

theorem lower_le_left (m v : F) : lower m v ≤ m := by
  rw [lower_eq_min]
  exact min_le_left m v

theorem lower_le_right (m v : F) : lower m v ≤ v := by
  rw [lower_eq_min]
  exact min_le_right m v

theorem le_raise_left (m v : F) : m ≤ raise m v := by
  rw [raise_eq_max]
  exact le_max_left m v

theorem le_raise_right (m v : F) : v ≤ raise m v := by
  rw [raise_eq_max]
  exact le_max_right m v

end IotClient.Foundation.Extremes
