import Mathlib.Algebra.Order.Ring.Int
import Mathlib.Data.Int.Order.Basic
import Mathlib.Data.List.Lex
import Mathlib.Data.Prod.Lex

/-!
# Three-way comparisons by sign

A comparison function returns an integer, and only its sign counts. `ComparesOn p cmp key` says
that, on the values with `p`, the sign of `cmp` is the order of the keys. A comparison with a key
is antisymmetric and transitive, because the keys are. The two ways in which comparisons are built
are followed by their keys:

* `thenBy`: a second comparison decides where the first is zero; the keys are pairs, ordered
  lexicographically.
* `lexicographic`: the first difference of two lists decides, and without one the lengths; the key
  of a list is the list of its keys, in Mathlib's order of lists.
-/

set_option autoImplicit false

namespace IotClient.Foundation.Comparison

variable {α κ : Type} [LinearOrder κ]

/-- On the values with `p`, the sign of `cmp` is the order of the keys. -/
structure ComparesOn (p : α → Prop) (cmp : α → α → Int) (key : α → κ) : Prop where
  neg_iff : ∀ {a b}, p a → p b → (cmp a b < 0 ↔ key a < key b)
  zero_iff : ∀ {a b}, p a → p b → (cmp a b = 0 ↔ key a = key b)

namespace ComparesOn

variable {p : α → Prop} {cmp : α → α → Int} {key : α → κ} {a b c : α}

theorem pos_iff (h : ComparesOn p cmp key) (ha : p a) (hb : p b) :
    0 < cmp a b ↔ key b < key a := by
  have hneg := h.neg_iff ha hb
  have hzero := h.zero_iff ha hb
  constructor
  · intro hpos
    refine lt_of_le_of_ne (not_lt.1 fun hlt => ?_) (fun heq => ?_)
    · have := hneg.2 hlt
      omega
    · have := hzero.2 heq.symm
      omega
  · intro hlt
    have hne : ¬ cmp a b = 0 := fun h0 => (hzero.1 h0 ▸ hlt).false
    have hnlt : ¬ cmp a b < 0 := fun h0 => lt_asymm (hneg.1 h0) hlt
    omega

theorem nonpos_iff (h : ComparesOn p cmp key) (ha : p a) (hb : p b) :
    cmp a b ≤ 0 ↔ key a ≤ key b := by
  rw [← not_lt, h.pos_iff ha hb, not_lt]

/-- Swapping the arguments turns the sign round. -/
theorem sign_swap (h : ComparesOn p cmp key) (ha : p a) (hb : p b) :
    (cmp a b).sign = - (cmp b a).sign := by
  rcases lt_trichotomy (key a) (key b) with hlt | heq | hgt
  · rw [Int.sign_eq_neg_one_of_neg ((h.neg_iff ha hb).2 hlt),
      Int.sign_eq_one_of_pos ((h.pos_iff hb ha).2 hlt)]
  · rw [(h.zero_iff ha hb).2 heq, (h.zero_iff hb ha).2 heq.symm]
    rfl
  · rw [Int.sign_eq_one_of_pos ((h.pos_iff ha hb).2 hgt),
      Int.sign_eq_neg_one_of_neg ((h.neg_iff hb ha).2 hgt)]
    rfl

theorem trans (h : ComparesOn p cmp key) (ha : p a) (hb : p b) (hc : p c)
    (hab : cmp a b ≤ 0) (hbc : cmp b c ≤ 0) : cmp a c ≤ 0 :=
  (h.nonpos_iff ha hc).2
    (le_trans ((h.nonpos_iff ha hb).1 hab) ((h.nonpos_iff hb hc).1 hbc))

/-- A function that orders and separates the values with `p` as the key does is a key as well. -/
theorem rekey {κ' : Type} [LinearOrder κ'] {key' : α → κ'} (h : ComparesOn p cmp key)
    (hlt : ∀ {a b}, p a → p b → (key a < key b ↔ key' a < key' b)) : ComparesOn p cmp key' where
  neg_iff ha hb := (h.neg_iff ha hb).trans (hlt ha hb)
  zero_iff ha hb := by
    rw [h.zero_iff ha hb]
    have hab := hlt ha hb
    have hba := hlt hb ha
    constructor
    · intro heq
      have h1 : ¬ key' _ < key' _ := fun h0 => (heq ▸ hab.2 h0).false
      have h2 : ¬ key' _ < key' _ := fun h0 => (heq ▸ hba.2 h0).false
      exact le_antisymm (not_lt.1 h2) (not_lt.1 h1)
    · intro heq
      have h1 : ¬ key _ < key _ := fun h0 => (heq ▸ hab.1 h0).false
      have h2 : ¬ key _ < key _ := fun h0 => (heq ▸ hba.1 h0).false
      exact le_antisymm (not_lt.1 h2) (not_lt.1 h1)

theorem mono {q : α → Prop} (h : ComparesOn p cmp key) (hq : ∀ a, q a → p a) :
    ComparesOn q cmp key where
  neg_iff ha hb := h.neg_iff (hq _ ha) (hq _ hb)
  zero_iff ha hb := h.zero_iff (hq _ ha) (hq _ hb)

end ComparesOn

/-! ## Building comparisons -/

/-- The difference of two natural numbers. -/
theorem comparesOn_sub (p : α → Prop) (f : α → Nat) :
    ComparesOn p (fun a b => (f a : Int) - f b) f where
  neg_iff _ _ := by omega
  zero_iff _ _ := by omega

/-- The second comparison decides where the first one does not. -/
def thenBy (first second : α → α → Int) (a b : α) : Int :=
  if first a b ≠ 0 then first a b else second a b

theorem thenBy_of_eq {first second : α → α → Int} {a b : α} (h : first a b = 0) :
    thenBy first second a b = second a b := by
  rw [thenBy, if_neg (not_not.2 h)]

theorem thenBy_of_ne {first second : α → α → Int} {a b : α} (h : first a b ≠ 0) :
    thenBy first second a b = first a b := by
  rw [thenBy, if_pos h]

theorem ComparesOn.thenBy {κ' : Type} [LinearOrder κ'] {p : α → Prop}
    {first second : α → α → Int} {key : α → κ} {key' : α → κ'} (h : ComparesOn p first key)
    (h' : ComparesOn p second key') :
    ComparesOn p (thenBy first second) fun a => toLex (key a, key' a) where
  neg_iff {a b} ha hb := by
    rw [Prod.Lex.toLex_lt_toLex]
    by_cases h0 : first a b = 0
    · have heq := (h.zero_iff ha hb).1 h0
      rw [thenBy_of_eq h0, h'.neg_iff ha hb]
      simp [heq]
    · have hne : key a ≠ key b := fun heq => h0 ((h.zero_iff ha hb).2 heq)
      rw [thenBy_of_ne h0, h.neg_iff ha hb]
      simp [hne]
  zero_iff {a b} ha hb := by
    rw [toLex_inj, Prod.mk.injEq]
    by_cases h0 : first a b = 0
    · have heq := (h.zero_iff ha hb).1 h0
      rw [thenBy_of_eq h0, h'.zero_iff ha hb]
      simp [heq]
    · have hne : key a ≠ key b := fun heq => h0 ((h.zero_iff ha hb).2 heq)
      rw [thenBy_of_ne h0]
      simp [h0, hne]

/-- The first difference of two lists decides, and without one the difference of the lengths. -/
def lexicographic (cmp : α → α → Int) : List α → List α → Int
  | a :: as, b :: bs => if cmp a b ≠ 0 then cmp a b else lexicographic cmp as bs
  | as, bs => as.length - bs.length

theorem lexicographic_cons_of_eq {cmp : α → α → Int} {a b : α} (h : cmp a b = 0)
    (as bs : List α) :
    lexicographic cmp (a :: as) (b :: bs) = lexicographic cmp as bs := by
  rw [lexicographic, if_neg (not_not.2 h)]

theorem lexicographic_cons_of_ne {cmp : α → α → Int} {a b : α} (h : cmp a b ≠ 0)
    (as bs : List α) : lexicographic cmp (a :: as) (b :: bs) = cmp a b := by
  rw [lexicographic, if_pos h]

/-- Without a common component the lengths decide. -/
theorem lexicographic_of_nil {cmp : α → α → Int} {as bs : List α} (h : as = [] ∨ bs = []) :
    lexicographic cmp as bs = as.length - bs.length := by
  rcases h with rfl | rfl
  · rw [lexicographic]
    intro a as' b bs' ha
    cases ha
  · rw [lexicographic]
    intro a as' b bs' _ hb
    cases hb

theorem lexicographic_iff {p : α → Prop} {cmp : α → α → Int} {key : α → κ}
    (h : ComparesOn p cmp key) {as bs : List α} (has : ∀ a ∈ as, p a) (hbs : ∀ b ∈ bs, p b) :
    (lexicographic cmp as bs < 0 ↔ as.map key < bs.map key) ∧
      (lexicographic cmp as bs = 0 ↔ as.map key = bs.map key) := by
  induction as generalizing bs with
  | nil =>
      cases bs with
      | nil => simp [lexicographic]
      | cons b bs => simp [lexicographic]; omega
  | cons a as ih =>
      cases bs with
      | nil => simp [lexicographic]; omega
      | cons b bs =>
          have ha := has a List.mem_cons_self
          have hb := hbs b List.mem_cons_self
          obtain ⟨ihneg, ihzero⟩ := ih (fun x hx => has x (List.mem_cons_of_mem _ hx))
            (fun x hx => hbs x (List.mem_cons_of_mem _ hx))
          rw [List.map_cons, List.map_cons, List.cons_lt_cons_iff, List.cons.injEq]
          -- the first elements decide unless their keys are equal
          by_cases h0 : cmp a b = 0
          · have heq := (h.zero_iff ha hb).1 h0
            rw [lexicographic_cons_of_eq h0, ihneg, ihzero]
            simp [heq]
          · have hne : key a ≠ key b := fun heq => h0 ((h.zero_iff ha hb).2 heq)
            rw [lexicographic_cons_of_ne h0, h.neg_iff ha hb]
            simp [h0, hne]

/-- The lists that a lexicographic comparison compares have the lists of keys as their keys. -/
theorem ComparesOn.lexicographic {p : α → Prop} {cmp : α → α → Int} {key : α → κ}
    (h : ComparesOn p cmp key) :
    ComparesOn (fun as => ∀ a ∈ as, p a) (lexicographic cmp) (List.map key) where
  neg_iff has hbs := (lexicographic_iff h has hbs).1
  zero_iff has hbs := (lexicographic_iff h has hbs).2

end IotClient.Foundation.Comparison
