import Mathlib.Data.List.InsertIdx
import Mathlib.Order.MinMax

/-!
# Binary search

`probe` searches a sorted list of keys for a key, and says which place it looked at last when the
key is not there. `firstOf` goes back from a place that was found to the first with the same key.
`probe_spec`: a miss ends next to the place where the key would stand.
-/

set_option autoImplicit false

namespace IotClient.Foundation.Searching

universe u

variable {κ : Type u} [LinearOrder κ]

/-- A place with the key, or the place looked at last, if there was one. -/
inductive Probe where
  | hit (place : Nat)
  | miss (last : Option Nat)
deriving DecidableEq, Repr

/-- The search among the places from `low` to `high`, `high` excluded. -/
def probe (keys : List κ) (x : κ) (low high : Nat) (last : Option Nat)
    (hhigh : high ≤ keys.length) : Probe :=
  if h : low < high then
    have hm : (high - 1 + low) / 2 < keys.length := by omega
    if x = keys[(high - 1 + low) / 2] then .hit ((high - 1 + low) / 2)
    else if keys[(high - 1 + low) / 2] < x then
      probe keys x ((high - 1 + low) / 2 + 1) high (some ((high - 1 + low) / 2)) hhigh
    else
      probe keys x low ((high - 1 + low) / 2) (some ((high - 1 + low) / 2)) (Nat.le_of_lt hm)
  else .miss last
termination_by high - low

/-- Back from the place `m` as long as the place before has the key. -/
def firstOf (keys : List κ) (x : κ) : Nat → Nat
  | 0 => 0
  | m + 1 => if keys[m]? = some x then firstOf keys x m else m + 1

/-- The keys before the place `p` are smaller than `x`, and those from it on are greater. -/
structure Gap (keys : List κ) (x : κ) (p : Nat) : Prop where
  le_length : p ≤ keys.length
  before : ∀ i (h : i < keys.length), i < p → keys[i] < x
  behind : ∀ i (h : i < keys.length), p ≤ i → x < keys[i]

/-- The keys before the place `p` are smaller than `x`, and the one there is `x`. -/
structure First (keys : List κ) (x : κ) (p : Nat) : Prop where
  before : ∀ i (h : i < keys.length), i < p → keys[i] < x
  there : keys[p]? = some x

/-- What a search has found out when it is left with the places from `low` to `high`. -/
structure Narrowed (keys : List κ) (x : κ) (low high : Nat) (last : Option Nat) : Prop where
  le : low ≤ high
  before : ∀ i (h : i < keys.length), i < low → keys[i] < x
  behind : ∀ i (h : i < keys.length), high ≤ i → x < keys[i]
  last_near : ∀ c ∈ last, (c + 1 = low ∨ c = high) ∧ c < keys.length
  last_none : last = none → low = 0 ∧ high = keys.length

/-- What the search ends with. -/
def Found (keys : List κ) (x : κ) : Probe → Prop
  | .hit m => keys[m]? = some x
  | .miss last => ∃ p, Gap keys x p ∧ (∀ c ∈ last, (c + 1 = p ∨ c = p) ∧ c < keys.length) ∧
      (last = none → keys = [])

/-- A place of the list, without the key or with it, unless `P`. -/
def Placed (keys : List κ) (x : κ) (P : Prop) : Probe → Prop
  | .hit m => keys[m]? = some x
  | .miss last => (∀ c ∈ last, c < keys.length) ∧ (last = none → P)

variable {keys : List κ} {x : κ}

/-- On any list the search ends at a place with the key, or with a place of the list unless it had
none to look at. -/
theorem probe_place (keys : List κ) (x : κ) (low high : Nat) (last : Option Nat)
    (hhigh : high ≤ keys.length) (hlast : ∀ c ∈ last, c < keys.length) :
    Placed keys x (last = none ∧ high ≤ low) (probe keys x low high last hhigh) := by
  -- once a place has been looked at, there is a last one
  have hmono : ∀ {P Q : Prop} {r : Probe} {c : Nat}, Placed keys x (some c = none ∧ Q) r →
      Placed keys x P r := by
    intro P Q r c h
    cases r with
    | hit m => exact h
    | miss last => exact ⟨h.1, fun hnone => absurd (h.2 hnone).1 (Option.some_ne_none _)⟩
  fun_induction probe keys x low high last hhigh with
  | case1 low high last hhigh hlt hm heq =>
      rw [Placed, List.getElem?_eq_getElem hm, heq]
  | case2 low high last hhigh hlt hm hne hless ih =>
      exact hmono (ih fun c hc => Option.some.inj hc ▸ hm)
  | case3 low high last hhigh hlt hm hne hless ih =>
      exact hmono (ih fun c hc => Option.some.inj hc ▸ hm)
  | case4 low high last hhigh hlt => exact ⟨hlast, fun hnone => ⟨hnone, Nat.le_of_not_lt hlt⟩⟩

theorem getElem_le (hsorted : keys.Pairwise (· ≤ ·)) {i j : Nat} (hi : i < keys.length)
    (hj : j < keys.length) (hij : i ≤ j) : keys[i] ≤ keys[j] := by
  rcases Nat.lt_or_eq_of_le hij with hlt | rfl
  · exact List.pairwise_iff_getElem.1 hsorted i j hi hj hlt
  · exact le_refl _

/-- From any stage of the search on. -/
theorem probe_from (hsorted : keys.Pairwise (· ≤ ·)) (low high : Nat) (last : Option Nat)
    (hhigh : high ≤ keys.length) (h : Narrowed keys x low high last) :
    Found keys x (probe keys x low high last hhigh) := by
  fun_induction probe keys x low high last hhigh with
  | case1 low high last hhigh hlt hm heq =>
      rw [Found, List.getElem?_eq_getElem hm, heq]
  | case2 low high last hhigh hlt hm hne hless ih =>
      refine ih ⟨by omega, fun i hi him => ?_, h.behind, fun c hc => ?_, fun hnone => ?_⟩
      · exact lt_of_le_of_lt (getElem_le hsorted hi hm (Nat.le_of_lt_succ him)) hless
      · obtain rfl := Option.some.inj hc
        exact ⟨.inl rfl, hm⟩
      · cases hnone
  | case3 low high last hhigh hlt hm hne hless ih =>
      have hgreater : x < keys[(high - 1 + low) / 2] :=
        lt_of_le_of_ne (le_of_not_gt hless) hne
      refine ih ⟨by omega, h.before, fun i hi him => ?_, fun c hc => ?_, fun hnone => ?_⟩
      · exact lt_of_lt_of_le hgreater (getElem_le hsorted hm hi him)
      · obtain rfl := Option.some.inj hc
        exact ⟨.inr rfl, hm⟩
      · cases hnone
  | case4 low high last hhigh hlt =>
      have heq : low = high := Nat.le_antisymm h.le (Nat.le_of_not_lt hlt)
      refine ⟨low, ⟨by omega, h.before, fun i hi hle => ?_⟩, fun c hc => ?_, fun hnone => ?_⟩
      · exact h.behind i hi (by omega)
      · obtain ⟨hnear, hlen⟩ := h.last_near c hc
        exact ⟨by omega, hlen⟩
      · obtain ⟨hzero, hall⟩ := h.last_none hnone
        exact List.eq_nil_of_length_eq_zero (by omega)

theorem probe_spec (hsorted : keys.Pairwise (· ≤ ·)) (x : κ) :
    Found keys x (probe keys x 0 keys.length none (Nat.le_refl _)) := by
  refine probe_from hsorted 0 keys.length none (Nat.le_refl _) ⟨Nat.zero_le _, ?_, ?_, ?_, ?_⟩
  · exact fun i _ hi => absurd hi (Nat.not_lt_zero i)
  · exact fun i hi hle => absurd hi (Nat.not_lt.2 hle)
  · exact fun c hc => by cases hc
  · exact fun _ => ⟨rfl, rfl⟩

theorem firstOf_le (keys : List κ) (x : κ) (m : Nat) : firstOf keys x m ≤ m := by
  induction m with
  | zero => exact Nat.le_refl 0
  | succ m ih =>
      rw [firstOf]
      split
      · exact Nat.le_succ_of_le ih
      · exact Nat.le_refl _

theorem firstOf_spec (hsorted : keys.Pairwise (· ≤ ·)) {m : Nat} (hm : keys[m]? = some x) :
    First keys x (firstOf keys x m) := by
  induction m with
  | zero => exact ⟨fun i _ hi => absurd hi (Nat.not_lt_zero i), hm⟩
  | succ m ih =>
      rw [firstOf]
      by_cases hprev : keys[m]? = some x
      · rw [if_pos hprev]
        exact ih hprev
      · rw [if_neg hprev]
        obtain ⟨hlen, hx⟩ := List.getElem?_eq_some_iff.1 hm
        have hlen' : m < keys.length := by omega
        have hle : keys[m] ≤ x := by
          rw [← hx]
          exact getElem_le hsorted hlen' hlen (Nat.le_succ m)
        have hne : keys[m] ≠ x := by
          rw [List.getElem?_eq_getElem hlen'] at hprev
          exact fun heq => hprev (congrArg some heq)
        refine ⟨fun i hi him => ?_, hm⟩
        exact lt_of_le_of_lt (getElem_le hsorted hi hlen' (Nat.le_of_lt_succ him))
          (lt_of_le_of_ne hle hne)

/-- There is one such place at most. -/
theorem First.unique {p q : Nat} (hp : First keys x p) (hq : First keys x q) : p = q := by
  have hnot : ∀ {i j}, First keys x i → First keys x j → ¬ i < j := by
    intro i j hi hj hij
    obtain ⟨hlen, heq⟩ := List.getElem?_eq_some_iff.1 hi.there
    exact absurd heq (ne_of_lt (hj.before i hlen hij))
  have h1 := hnot hp hq
  have h2 := hnot hq hp
  omega

/-- A key that is there has no gap. -/
theorem Gap.not_mem {p : Nat} (h : Gap keys x p) : x ∉ keys := by
  intro hx
  obtain ⟨i, hi, heq⟩ := List.mem_iff_getElem.1 hx
  rcases Nat.lt_or_ge i p with hlt | hge
  · exact absurd heq (ne_of_lt (h.before i hi hlt))
  · exact absurd heq.symm (ne_of_lt (h.behind i hi hge))

theorem Gap.unique {p q : Nat} (hp : Gap keys x p) (hq : Gap keys x q) : p = q := by
  have hnot : ∀ {i j}, Gap keys x i → Gap keys x j → ¬ i < j := by
    intro i j hi hj hij
    have hlen : i < keys.length := Nat.lt_of_lt_of_le hij hj.le_length
    exact absurd (hj.before i hlen hij) (lt_asymm (hi.behind i hlen (Nat.le_refl i)))
  have h1 := hnot hp hq
  have h2 := hnot hq hp
  omega

/-! ## All items with a key -/

section Items

universe v

variable {α : Type v} {f : α → κ} {q : α → Bool} {items : List α}

/-- Among items with no smaller key, those with the key stand at the front. -/
theorem takeWhile_eq_filter (hq : ∀ a, q a = true ↔ f a = x)
    (hsorted : (items.map f).Pairwise (· ≤ ·)) (hlow : ∀ a ∈ items, x ≤ f a) :
    items.takeWhile q = items.filter q := by
  induction items with
  | nil => rfl
  | cons a items ih =>
      obtain ⟨ha, hrest⟩ := List.pairwise_cons.1 hsorted
      by_cases heq : f a = x
      · rw [List.takeWhile_cons_of_pos ((hq a).2 heq), List.filter_cons_of_pos ((hq a).2 heq),
          ih hrest fun b hb => hlow b (List.mem_cons_of_mem _ hb)]
      · -- the first greater key ends the items with the key
        have hgreater : x < f a := lt_of_le_of_ne (hlow a List.mem_cons_self) (Ne.symm heq)
        have hnone : ∀ b ∈ a :: items, ¬ q b = true := by
          intro b hb hqb
          rcases List.mem_cons.1 hb with rfl | hb
          · exact heq ((hq b).1 hqb)
          · have hle : f a ≤ f b := ha (f b) (List.mem_map_of_mem hb)
            exact absurd ((hq b).1 hqb).symm (ne_of_lt (lt_of_lt_of_le hgreater hle))
        rw [List.filter_eq_nil_iff.2 hnone,
          List.takeWhile_cons_of_neg (hnone a List.mem_cons_self)]

/-- The items from the first with the key on, as long as they have it, are all that have it. -/
theorem First.takeWhile_drop (hq : ∀ a, q a = true ↔ f a = x)
    (hsorted : (items.map f).Pairwise (· ≤ ·)) {p : Nat} (h : First (items.map f) x p) :
    (items.drop p).takeWhile q = items.filter q := by
  induction items generalizing p with
  | nil => simp
  | cons a items ih =>
      obtain ⟨ha, hrest⟩ := List.pairwise_cons.1 hsorted
      cases p with
      | zero =>
          have heq : f a = x := Option.some.inj h.there
          rw [List.drop_zero]
          refine takeWhile_eq_filter hq hsorted fun b hb => ?_
          rcases List.mem_cons.1 hb with rfl | hb
          · exact le_of_eq heq.symm
          · rw [← heq]
            exact ha (f b) (List.mem_map_of_mem hb)
      | succ p =>
          have hless : f a < x := h.before 0 (Nat.succ_pos _) (Nat.succ_pos _)
          have htail : First (items.map f) x p := by
            refine ⟨fun i hi hip => ?_, h.there⟩
            exact h.before (i + 1) (Nat.succ_lt_succ hi) (Nat.succ_lt_succ hip)
          rw [List.drop_succ_cons, ih hrest htail,
            List.filter_cons_of_neg fun hqa => ne_of_lt hless ((hq a).1 hqa)]

/-- The item there is the one that a scan of the whole list finds first. -/
theorem First.getElem?_eq_find? (hq : ∀ a, q a = true ↔ f a = x) {p : Nat}
    (h : First (items.map f) x p) : items[p]? = items.find? q := by
  obtain ⟨hlen, heq⟩ := List.getElem?_eq_some_iff.1 h.there
  have hlen' : p < items.length := by rwa [List.length_map] at hlen
  rw [List.getElem_map] at heq
  rw [List.getElem?_eq_getElem hlen']
  refine (List.find?_eq_some_iff_getElem.2 ⟨(hq _).2 heq, p, hlen', rfl, fun i hi => ?_⟩).symm
  have hbefore := h.before i (Nat.lt_trans hi hlen) hi
  rw [List.getElem_map] at hbefore
  rw [Bool.not_eq_true', Bool.eq_false_iff]
  exact fun hqi => ne_of_lt hbefore ((hq _).1 hqi)

/-- A gap means that no item has the key. -/
theorem Gap.filter_eq_nil (hq : ∀ a, q a = true ↔ f a = x) {p : Nat}
    (h : Gap (items.map f) x p) : items.filter q = [] := by
  refine List.filter_eq_nil_iff.2 fun a ha hqa => h.not_mem ?_
  rw [← (hq a).1 hqa]
  exact List.mem_map_of_mem ha

end Items

/-! ## Keeping the keys sorted -/

/-- A key may be put at any place with no greater key before it and no smaller one behind. -/
theorem pairwise_insertIdx (hsorted : keys.Pairwise (· ≤ ·)) {p : Nat}
    (hbefore : ∀ i (h : i < keys.length), i < p → keys[i] ≤ x)
    (hbehind : ∀ i (h : i < keys.length), p ≤ i → x ≤ keys[i]) :
    (keys.insertIdx p x).Pairwise (· ≤ ·) := by
  induction keys generalizing p with
  | nil =>
      cases p with
      | zero => exact List.pairwise_singleton _ _
      | succ p => exact List.Pairwise.nil
  | cons k ks ih =>
      obtain ⟨hk, hks⟩ := List.pairwise_cons.1 hsorted
      cases p with
      | zero =>
          rw [List.insertIdx_zero]
          refine List.pairwise_cons.2 ⟨fun y hy => ?_, hsorted⟩
          obtain ⟨i, hi, rfl⟩ := List.mem_iff_getElem.1 hy
          exact hbehind i hi (Nat.zero_le i)
      | succ p =>
          rw [List.insertIdx_succ_cons]
          have hrest : (ks.insertIdx p x).Pairwise (· ≤ ·) := by
            refine ih hks (fun i hi hip => ?_) fun i hi hip => ?_
            · exact hbefore (i + 1) (Nat.succ_lt_succ hi) (Nat.succ_lt_succ hip)
            · exact hbehind (i + 1) (Nat.succ_lt_succ hi) (Nat.succ_le_succ hip)
          refine List.pairwise_cons.2 ⟨fun y hy => ?_, hrest⟩
          rcases List.eq_or_mem_of_mem_insertIdx hy with rfl | hy
          · exact hbefore 0 (Nat.succ_pos _) (Nat.succ_pos _)
          · exact hk y hy

theorem pairwise_insertIdx_first (hsorted : keys.Pairwise (· ≤ ·)) {p : Nat}
    (h : First keys x p) : (keys.insertIdx p x).Pairwise (· ≤ ·) := by
  obtain ⟨hlen, heq⟩ := List.getElem?_eq_some_iff.1 h.there
  refine pairwise_insertIdx hsorted (fun i hi hip => le_of_lt (h.before i hi hip)) ?_
  intro i hi hip
  rw [← heq]
  exact getElem_le hsorted hlen hi hip

theorem pairwise_insertIdx_gap (hsorted : keys.Pairwise (· ≤ ·)) {p : Nat}
    (h : Gap keys x p) : (keys.insertIdx p x).Pairwise (· ≤ ·) :=
  pairwise_insertIdx hsorted (fun i hi hip => le_of_lt (h.before i hi hip))
    fun i hi hip => le_of_lt (h.behind i hi hip)

end IotClient.Foundation.Searching
