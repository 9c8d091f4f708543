import IotClient.Chart.ChartData
import IotClient.Foundation.Runs
import IotClient.Foundation.Searching

/-!
# Looking up, adding and removing entries

The methods of `DataSet` and `BaseDataSet` that look entries up by their index on the x-axis, and
those that add and remove them. An entry object stands in a data set once, so a place in the list
says which object is meant.

* `getEntryIndex_spec`: on a sorted data set the binary search returns the first entry at the index;
  without one, `UP` and `DOWN` return the neighbours and `CLOSEST` one of the two.
* `removeEntryAt_spec`: removing by an index removes a neighbour when there is no entry at it.
* `lookups_of_run`, `ranged_of_run`: after any sequence of updates in order, lookups find what a scan
  finds; after any with bounded values, the range is that of the values.
-/

set_option autoImplicit false

namespace IotClient.Chart.ChartData

open IotClient.Foundation.Extremes IotClient.Foundation.Runs IotClient.Foundation.Searching

/-! ## Looking up -/

/-- `DataSet.Rounding`. -/
inductive Rounding where
  | UP
  | DOWN
  | CLOSEST
deriving DecidableEq, Repr

section LookingUp

variable {F : Type}

/-- The x-indices of the entries. -/
def LineDataSet.xIndices (set : LineDataSet F) : List Int :=
  set.mYVals.map Entry.mXIndex

/-- The loop that `getEntryIndex` and `getEntriesForXIndex` share. The variable `high` of the source
is one less. -/
def LineDataSet.search (set : LineDataSet F) (xIndex : Int) : Probe :=
  probe set.xIndices xIndex 0 set.xIndices.length none (Nat.le_refl _)

/-- `getEntryIndex`. -/
def LineDataSet.getEntryIndex (set : LineDataSet F) (xIndex : Int) (rounding : Rounding) : Int :=
  match set.search xIndex with
  | .hit m => firstOf set.xIndices xIndex m
  | .miss none => -1
  | .miss (some closest) =>
      match rounding with
      | .UP =>
          if set.xIndices[closest]?.any (· < xIndex) && closest + 1 < set.mYVals.length then
            closest + 1
          else closest
      | .DOWN =>
          if set.xIndices[closest]?.any (xIndex < ·) && 0 < closest then (closest : Int) - 1
          else closest
      | .CLOSEST => closest

/-- `getEntryForXIndex`. -/
def LineDataSet.getEntryForXIndex (set : LineDataSet F) (xIndex : Int)
    (rounding : Rounding) : Option (Entry F) :=
  let index := set.getEntryIndex xIndex rounding
  if index > -1 then set.mYVals[index.toNat]? else none

/-- `getEntriesForXIndex`: from the first entry at the index on, as long as they are at it. -/
def LineDataSet.getEntriesForXIndex (set : LineDataSet F) (xIndex : Int) : List (Entry F) :=
  match set.search xIndex with
  | .hit m =>
      (set.mYVals.drop (firstOf set.xIndices xIndex m)).takeWhile fun e => e.mXIndex == xIndex
  | .miss _ => []

/-- `getYValForXIndex`; `none` is `Float.NaN`. -/
def LineDataSet.getYValForXIndex (set : LineDataSet F) (xIndex : Int) : Option F :=
  match set.getEntryForXIndex xIndex .CLOSEST with
  | some e => if e.mXIndex = xIndex then some e.mVal else none
  | none => none

/-- The entries stand in the order of their x-indices. -/
def LineDataSet.Sorted (set : LineDataSet F) : Prop := set.xIndices.Pairwise (· ≤ ·)

variable {set : LineDataSet F}

@[simp] theorem length_xIndices : set.xIndices.length = set.mYVals.length := List.length_map _

/-- The neighbours of a gap. -/
theorem any_lt_iff {x : Int} {p c : Nat} (h : Gap set.xIndices x p) (hc : c < set.mYVals.length) :
    set.xIndices[c]?.any (· < x) = decide (c < p) ∧
      set.xIndices[c]?.any (x < ·) = decide (p ≤ c) := by
  have hlen : c < set.xIndices.length := by
    rw [length_xIndices]
    exact hc
  rw [List.getElem?_eq_getElem hlen, Option.any_some, Option.any_some]
  rcases Nat.lt_or_ge c p with hlt | hge
  · have hless := h.before c hlen hlt
    rw [decide_eq_true hless, decide_eq_true hlt, decide_eq_false (by omega),
      decide_eq_false (by omega)]
    exact ⟨rfl, rfl⟩
  · have hgreater := h.behind c hlen hge
    rw [decide_eq_true hgreater, decide_eq_true hge, decide_eq_false (by omega),
      decide_eq_false (by omega)]
    exact ⟨rfl, rfl⟩

/-- Where a lookup in a sorted data set ends. -/
theorem getEntryIndex_cases (h : set.Sorted) (xIndex : Int) :
    (∃ p, First set.xIndices xIndex p ∧ ∀ rounding, set.getEntryIndex xIndex rounding = p) ∨
      ∃ p, Gap set.xIndices xIndex p ∧
        set.getEntryIndex xIndex .UP = min (p : Int) (set.mYVals.length - 1) ∧
        set.getEntryIndex xIndex .DOWN = max ((p : Int) - 1) (min 0 (set.mYVals.length - 1)) ∧
        (set.getEntryIndex xIndex .CLOSEST = set.getEntryIndex xIndex .UP ∨
          set.getEntryIndex xIndex .CLOSEST = set.getEntryIndex xIndex .DOWN) := by
  have hspec : Found set.xIndices xIndex (set.search xIndex) := probe_spec h xIndex
  simp only [LineDataSet.getEntryIndex]
  cases hsearch : set.search xIndex with
  | hit m =>
      rw [hsearch] at hspec
      exact .inl ⟨_, firstOf_spec h hspec, fun _ => rfl⟩
  | miss last =>
      rw [hsearch] at hspec
      obtain ⟨p, hgap, hnear, hnone⟩ := hspec
      have hp := hgap.le_length
      rw [length_xIndices] at hp
      refine .inr ⟨p, hgap, ?_⟩
      cases last with
      | none =>
          have hlen : set.mYVals.length = 0 := by rw [← length_xIndices, hnone rfl, List.length_nil]
          rw [hlen] at hp ⊢
          obtain rfl : p = 0 := by omega
          exact ⟨rfl, rfl, .inl rfl⟩
      | some closest =>
          obtain ⟨hside, hclosest⟩ := hnear closest rfl
          rw [length_xIndices] at hclosest
          obtain ⟨hless, hgreater⟩ := any_lt_iff hgap hclosest
          simp only [hless, hgreater, Bool.and_eq_true, decide_eq_true_eq]
          rcases hside with hbefore | hthere
          · -- the place looked at last is the last before the gap
            rw [if_neg (show ¬ (p ≤ closest ∧ 0 < closest) by omega)]
            refine ⟨?_, by omega, .inr rfl⟩
            split
            · omega
            · omega
          · -- it is the first behind the gap
            rw [if_neg (show ¬ (closest < p ∧ closest + 1 < set.mYVals.length) by omega)]
            refine ⟨by omega, ?_, .inl rfl⟩
            split
            · omega
            · omega

/-- On a sorted data set: the first entry at the index if there is one. Otherwise, with `p` the
number of entries before the index, `UP` returns the first entry behind it and `DOWN` the last before
it, as far as there are such entries, and `CLOSEST` one of these two, not always the closer. -/
theorem getEntryIndex_spec (h : set.Sorted) (xIndex : Int) :
    (∃ p, First set.xIndices xIndex p ∧ ∀ rounding, set.getEntryIndex xIndex rounding = p) ∨
      ∃ p, Gap set.xIndices xIndex p ∧
        set.getEntryIndex xIndex .UP = min (p : Int) (set.mYVals.length - 1) ∧
        set.getEntryIndex xIndex .DOWN = max ((p : Int) - 1) (min 0 (set.mYVals.length - 1)) ∧
        (set.getEntryIndex xIndex .CLOSEST = set.getEntryIndex xIndex .UP ∨
          set.getEntryIndex xIndex .CLOSEST = set.getEntryIndex xIndex .DOWN) :=
  getEntryIndex_cases h xIndex

/-- Entries at 0, 10 and 20. -/
def threeEntries : LineDataSet Int := ⟨[⟨5, 0⟩, ⟨6, 10⟩, ⟨7, 20⟩], "", .LEFT, 5, 7⟩

/-- Between them, the index 9 is rounded up to the entry at 10, and to the closest at 0. -/
theorem getEntryIndex_nine :
    ∃ p, Gap threeEntries.xIndices 9 p ∧ threeEntries.getEntryIndex 9 .UP = min (p : Int) 2 ∧
      threeEntries.getEntryIndex 9 .UP = 1 ∧ threeEntries.getEntryIndex 9 .CLOSEST = 0 := by
  have hsorted : threeEntries.Sorted := by
    simp [LineDataSet.Sorted, LineDataSet.xIndices, threeEntries]
  have hup : threeEntries.getEntryIndex 9 .UP = 1 := by decide +kernel
  have hclosest : threeEntries.getEntryIndex 9 .CLOSEST = 0 := by decide +kernel
  rcases getEntryIndex_spec hsorted 9 with ⟨p, -, hindex⟩ | ⟨p, hgap, hp, -⟩
  · rw [hindex .UP] at hup
    rw [hindex .CLOSEST] at hclosest
    omega
  · exact ⟨p, hgap, hp, hup, hclosest⟩

/-- Every lookup in entries ends at one of them, sorted or not. -/
theorem getEntryIndex_mem (hne : set.mYVals ≠ []) (xIndex : Int) (rounding : Rounding) :
    0 ≤ set.getEntryIndex xIndex rounding ∧
      set.getEntryIndex xIndex rounding < set.mYVals.length := by
  have hpos : 0 < set.mYVals.length := List.length_pos_iff.2 hne
  have hplaced := probe_place set.xIndices xIndex 0 _ none (Nat.le_refl _) (by simp)
  rw [LineDataSet.getEntryIndex]
  cases hsearch : set.search xIndex with
  | hit m =>
      rw [LineDataSet.search] at hsearch
      rw [hsearch, Placed] at hplaced
      have hlen := (List.getElem?_eq_some_iff.1 hplaced).1
      rw [length_xIndices] at hlen
      have hle := firstOf_le set.xIndices xIndex m
      dsimp only
      omega
  | miss last =>
      rw [LineDataSet.search] at hsearch
      rw [hsearch, Placed] at hplaced
      cases last with
      | none =>
          have hstuck := (hplaced.2 rfl).2
          rw [length_xIndices] at hstuck
          omega
      | some closest =>
          -- the place looked at last is inside, and a neighbour is taken only if there is one
          have hclosest := hplaced.1 closest rfl
          rw [length_xIndices] at hclosest
          cases rounding with
          | UP =>
              dsimp only
              split
              · rename_i hnext
                have := of_decide_eq_true (Bool.and_eq_true _ _ ▸ hnext).2
                omega
              · omega
          | DOWN =>
              dsimp only
              split
              · rename_i hprev
                have := of_decide_eq_true (Bool.and_eq_true _ _ ▸ hprev).2
                omega
              · omega
          | CLOSEST =>
              dsimp only
              omega

/-- On a sorted data set the entries at an index are those that a scan of the whole list finds. -/
theorem getEntriesForXIndex_eq_filter (h : set.Sorted) (xIndex : Int) :
    set.getEntriesForXIndex xIndex = set.mYVals.filter fun e => e.mXIndex == xIndex := by
  have hspec : Found set.xIndices xIndex (set.search xIndex) := probe_spec h xIndex
  rw [LineDataSet.getEntriesForXIndex]
  cases hsearch : set.search xIndex with
  | hit m =>
      rw [hsearch] at hspec
      exact (firstOf_spec h hspec).takeWhile_drop (fun e => beq_iff_eq) h
  | miss last =>
      rw [hsearch] at hspec
      obtain ⟨p, hgap, -⟩ := hspec
      exact (hgap.filter_eq_nil fun e => beq_iff_eq).symm

/-- On a sorted data set the value at an index is that of the first entry that a scan of the whole
list finds there, and NaN only if it finds none. -/
theorem getYValForXIndex_eq_find? (h : set.Sorted) (xIndex : Int) :
    set.getYValForXIndex xIndex =
      (set.mYVals.find? fun e => e.mXIndex == xIndex).map Entry.mVal := by
  have hq : ∀ e : Entry F, (e.mXIndex == xIndex) = true ↔ e.mXIndex = xIndex :=
    fun _ => beq_iff_eq
  rw [LineDataSet.getYValForXIndex, LineDataSet.getEntryForXIndex]
  rcases getEntryIndex_cases h xIndex with ⟨p, hfirst, hindex⟩ | ⟨p, hgap, -⟩
  · rw [hindex .CLOSEST]
    rw [if_pos (show (p : Int) > -1 by omega), Int.toNat_natCast, hfirst.getElem?_eq_find? hq]
    cases hfind : set.mYVals.find? fun e => e.mXIndex == xIndex with
    | none => rfl
    | some e =>
        have hat := List.find?_some hfind
        exact if_pos ((hq e).1 hat)
  · -- whichever neighbour of the gap it is, it is at another index
    have hnone : ∀ e ∈ set.mYVals, e.mXIndex ≠ xIndex := by
      intro e he heq
      exact hgap.not_mem (heq ▸ List.mem_map_of_mem he)
    rw [List.find?_eq_none.2 fun e he hqe => hnone e he ((hq e).1 hqe)]
    split
    · rename_i e hentry
      split at hentry
      · exact if_neg (hnone e (List.mem_of_getElem? hentry))
      · cases hentry
    · rfl

end LookingUp

/-! ## Adding and removing -/

section Updating

variable {F : Type} [LinearOrder F] [Zero F] [Neg F]

/-- How `addEntry` and `addEntryOrdered` begin: the range is widened by the value, which is all of it
when there are no entries. -/
def LineDataSet.widen (set : LineDataSet F) (val : F) : LineDataSet F :=
  if set.mYVals.length = 0 then { set with mYMin := val, mYMax := val }
  else { set with mYMin := lower set.mYMin val, mYMax := raise set.mYMax val }

/-- `addEntry`. It answers `true`, as the entry is not null. -/
def LineDataSet.addEntry (set : LineDataSet F) (e : Entry F) : LineDataSet F :=
  { set.widen e.mVal with mYVals := set.mYVals ++ [e] }

/-- `addEntryOrdered`. -/
def LineDataSet.addEntryOrdered (set : LineDataSet F) (e : Entry F) : LineDataSet F :=
  if set.xIndices.getLast?.any (e.mXIndex < ·) then
    -- there is a last entry, so the index is not negative
    let closestIndex := set.getEntryIndex e.mXIndex .UP
    { set.widen e.mVal with mYVals := set.mYVals.insertIdx closestIndex.toNat e }
  else
    { set.widen e.mVal with mYVals := set.mYVals ++ [e] }

/-- `removeEntry(T)` of the entry at a place; a place beyond the entries is an object that is not
one of them. It answers whether the entry was removed. -/
def LineDataSet.removeEntry (MAX_VALUE : F) (set : LineDataSet F) (place : Nat) :
    Except JavaException (LineDataSet F × Bool) :=
  if place < set.mYVals.length then do
    let mYVals := set.mYVals.eraseIdx place
    let set ← { set with mYVals }.calcMinMax MAX_VALUE 0 mYVals.length
    return (set, true)
  else .ok (set, false)

/-- `removeEntry(int)`. -/
def LineDataSet.removeEntryAt (MAX_VALUE : F) (set : LineDataSet F) (xIndex : Int) :
    Except JavaException (LineDataSet F × Bool) :=
  let index := set.getEntryIndex xIndex .CLOSEST
  if index > -1 then set.removeEntry MAX_VALUE index.toNat else .ok (set, false)

/-- `removeFirst`. -/
def LineDataSet.removeFirst (MAX_VALUE : F) (set : LineDataSet F) :
    Except JavaException (LineDataSet F × Bool) :=
  match set.mYVals[0]? with
  | none => .error .indexOutOfBounds
  | some _ => set.removeEntry MAX_VALUE 0

/-- `removeLast`. -/
def LineDataSet.removeLast (MAX_VALUE : F) (set : LineDataSet F) :
    Except JavaException (LineDataSet F × Bool) :=
  if set.mYVals.length = 0 then .error .indexOutOfBounds
  else set.removeEntry MAX_VALUE (set.mYVals.length - 1)

/-- `notifyDataSetChanged`. Without entries `calcMinMax` returns before it reads its end. -/
def LineDataSet.notifyDataSetChanged (MAX_VALUE : F) (set : LineDataSet F) :
    Except JavaException (LineDataSet F) :=
  set.calcMinMax MAX_VALUE 0 (set.mYVals.length - 1)

/-- `clear`. -/
def LineDataSet.clear (MAX_VALUE : F) (set : LineDataSet F) :
    Except JavaException (LineDataSet F) :=
  { set with mYVals := [] }.notifyDataSetChanged MAX_VALUE

/-- `setYVals`. -/
def LineDataSet.setYVals (MAX_VALUE : F) (set : LineDataSet F) (yVals : List (Entry F)) :
    Except JavaException (LineDataSet F) :=
  { set with mYVals := yVals }.notifyDataSetChanged MAX_VALUE

/-- A call that changes a data set. -/
inductive Update (F : Type) where
  | addEntry (e : Entry F)
  | addEntryOrdered (e : Entry F)
  | removeEntry (place : Nat)
  | removeEntryAt (xIndex : Int)
  | removeFirst
  | removeLast
  | clear
  | setYVals (yVals : List (Entry F))
deriving DecidableEq

/-- What a call leaves, its answer aside. -/
def LineDataSet.update (MAX_VALUE : F) (set : LineDataSet F) :
    Update F → Except JavaException (LineDataSet F)
  | .addEntry e => .ok (set.addEntry e)
  | .addEntryOrdered e => .ok (set.addEntryOrdered e)
  | .removeEntry place => Prod.fst <$> set.removeEntry MAX_VALUE place
  | .removeEntryAt xIndex => Prod.fst <$> set.removeEntryAt MAX_VALUE xIndex
  | .removeFirst => Prod.fst <$> set.removeFirst MAX_VALUE
  | .removeLast => Prod.fst <$> set.removeLast MAX_VALUE
  | .clear => set.clear MAX_VALUE
  | .setYVals yVals => set.setYVals MAX_VALUE yVals

/-- A data set under its updates. An exception comes before any change (`tracks_update`). -/
def dataSet (MAX_VALUE : F) (start : LineDataSet F) : Machine (LineDataSet F) (Update F) where
  init := start
  step := fun set u =>
    match set.update MAX_VALUE u with
    | .ok t => some t
    | .error _ => some set

/-- The values that an update brings. -/
def Update.values : Update F → List F
  | .addEntry e => [e.mVal]
  | .addEntryOrdered e => [e.mVal]
  | .setYVals yVals => yVals.map Entry.mVal
  | _ => []

/-- The update keeps to the order of the x-indices. -/
def LineDataSet.InOrder (set : LineDataSet F) : Update F → Prop
  | .addEntry e => ∀ x ∈ set.xIndices, x ≤ e.mXIndex
  | .setYVals yVals => (yVals.map Entry.mXIndex).Pairwise (· ≤ ·)
  | _ => True

instance (set : LineDataSet F) : DecidablePred set.InOrder
  | .addEntry e => inferInstanceAs (Decidable (∀ x ∈ set.xIndices, x ≤ e.mXIndex))
  | .setYVals yVals =>
      inferInstanceAs (Decidable ((yVals.map Entry.mXIndex).Pairwise (· ≤ ·)))
  | .addEntryOrdered _ | .removeEntry _ | .removeEntryAt _ | .removeFirst | .removeLast | .clear =>
      .isTrue trivial

/-- The value is smaller in magnitude than `MAX_VALUE`. -/
def Bounded (MAX_VALUE v : F) : Prop := -MAX_VALUE < v ∧ v < MAX_VALUE

/-- The values are smaller in magnitude than `MAX_VALUE`, and the range is theirs if there are
any. -/
structure LineDataSet.Tracks (MAX_VALUE : F) (set : LineDataSet F) : Prop where
  bounded : ∀ v ∈ set.values, Bounded MAX_VALUE v
  ranged : set.mYVals ≠ [] → set.Ranged

variable {MAX_VALUE : F} {set : LineDataSet F}

omit [Zero F] [Neg F] in
/-- Widening the range by a value that is added keeps it that of the values. -/
theorem ranged_widen {e : Entry F} {mYVals : List (Entry F)}
    (hranged : set.mYVals ≠ [] → set.Ranged)
    (hmem : ∀ v, v ∈ mYVals.map Entry.mVal ↔ v = e.mVal ∨ v ∈ set.values) :
    LineDataSet.Ranged { set.widen e.mVal with mYVals } := by
  have hvalues : {v | v ∈ mYVals.map Entry.mVal} = insert e.mVal {v | v ∈ set.values} :=
    Set.ext hmem
  rw [LineDataSet.widen]
  by_cases hempty : set.mYVals.length = 0
  · have hnil : {v | v ∈ set.values} = ∅ := by
      rw [LineDataSet.values, List.eq_nil_of_length_eq_zero hempty]
      exact Set.eq_empty_of_forall_notMem fun v hv => by cases hv
    rw [hnil] at hvalues
    rw [if_pos hempty]
    constructor
    · show IsLeast {v | v ∈ mYVals.map Entry.mVal} e.mVal
      rw [hvalues]
      simp
    · show IsGreatest {v | v ∈ mYVals.map Entry.mVal} e.mVal
      rw [hvalues]
      simp
  · obtain ⟨hleast, hgreatest⟩ :=
      hranged fun hnil => hempty (by rw [hnil, List.length_nil])
    rw [if_neg hempty]
    constructor
    · show IsLeast {v | v ∈ mYVals.map Entry.mVal} (lower set.mYMin e.mVal)
      rw [hvalues, lower_eq_min, min_comm]
      exact hleast.insert e.mVal
    · show IsGreatest {v | v ∈ mYVals.map Entry.mVal} (raise set.mYMax e.mVal)
      rw [hvalues, raise_eq_max, max_comm]
      exact hgreatest.insert e.mVal

/-- A scan up to the last place is a scan of all entries. -/
theorem calcMinMax_last (MAX_VALUE : F) (set : LineDataSet F) :
    set.calcMinMax MAX_VALUE 0 (set.mYVals.length - 1) =
      set.calcMinMax MAX_VALUE 0 set.mYVals.length := by
  have hend : (if set.mYVals.length - 1 = 0 ∨ set.mYVals.length ≤ set.mYVals.length - 1 then
      set.mYVals.length - 1 else set.mYVals.length - 1) =
      if set.mYVals.length = 0 ∨ set.mYVals.length ≤ set.mYVals.length then
        set.mYVals.length - 1 else set.mYVals.length := by
    rw [ite_self, if_pos (Or.inr (Nat.le_refl _))]
  rw [LineDataSet.calcMinMax, LineDataSet.calcMinMax]
  dsimp only
  rw [hend]

/-- A scan of no entries changes nothing. -/
theorem calcMinMax_of_nil (MAX_VALUE : F) (h : set.mYVals = []) (start e : Nat) :
    set.calcMinMax MAX_VALUE start e = .ok set := by
  rw [LineDataSet.calcMinMax, if_pos (by rw [h, List.length_nil])]
  rfl

/-- A scan up to the last entry or beyond ends without an exception. -/
theorem calcMinMax_returns (MAX_VALUE : F) (set : LineDataSet F) {e : Nat}
    (he : set.mYVals.length ≤ e) :
    ∃ t, set.calcMinMax MAX_VALUE 0 e = .ok t ∧ set.SameEntries t := by
  by_cases hempty : set.mYVals.length = 0
  · have hnil := List.eq_nil_of_length_eq_zero hempty
    exact ⟨set, calcMinMax_of_nil MAX_VALUE hnil 0 e, rfl, rfl, rfl⟩
  · rw [LineDataSet.calcMinMax]
    have hend : set.mYVals.length = set.mYVals.length - 1 + 1 := by omega
    rw [if_neg hempty, if_pos (Or.inr he)]
    dsimp only
    rw [scanEntries_eq hend]
    by_cases hstart :
        ((set.mYVals.drop 0).map Entry.mVal).foldl lower MAX_VALUE = MAX_VALUE
    · exact ⟨_, if_pos hstart, rfl, rfl, rfl⟩
    · exact ⟨_, if_neg hstart, rfl, rfl, rfl⟩

/-- Recalculating the range of entries with bounded values. -/
theorem tracks_calcMinMax (MAX_VALUE : F) (set : LineDataSet F)
    (hbounded : ∀ v ∈ set.values, Bounded MAX_VALUE v) {e : Nat} (he : set.mYVals.length ≤ e) :
    ∃ t, set.calcMinMax MAX_VALUE 0 e = .ok t ∧ set.SameEntries t ∧ t.Tracks MAX_VALUE := by
  by_cases hempty : set.mYVals = []
  · exact ⟨set, calcMinMax_of_nil MAX_VALUE hempty 0 e, ⟨rfl, rfl, rfl⟩, hbounded,
      fun hne => absurd hempty hne⟩
  · have hplot : set.Plottable MAX_VALUE :=
      ⟨hempty, fun v hv => (hbounded v hv).1, fun v hv => (hbounded v hv).2⟩
    obtain ⟨t, ht, hsame, hranged⟩ := LineDataSet.calcMinMax_of_le hplot he
    refine ⟨t, ht, hsame, fun v hv => hbounded v ?_, fun _ => hranged⟩
    rw [LineDataSet.values, ← hsame.1]
    exact hv

omit [LinearOrder F] [Zero F] [Neg F] in
theorem mem_values_insertIdx {i : Nat} (hi : i ≤ set.mYVals.length) (e : Entry F) (v : F) :
    v ∈ (set.mYVals.insertIdx i e).map Entry.mVal ↔ v = e.mVal ∨ v ∈ set.values := by
  rw [List.map_insertIdx, List.mem_insertIdx (by rwa [List.length_map])]
  rfl

omit [LinearOrder F] [Zero F] [Neg F] in
theorem mem_values_concat (e : Entry F) (v : F) :
    v ∈ (set.mYVals ++ [e]).map Entry.mVal ↔ v = e.mVal ∨ v ∈ set.values := by
  rw [← List.insertIdx_length_self]
  exact mem_values_insertIdx (Nat.le_refl _) e v

omit [LinearOrder F] [Zero F] [Neg F] in
/-- Where `addEntryOrdered` inserts there is an entry to insert before. -/
theorem insertion_place {x : Int} (h : set.xIndices.getLast?.any (x < ·) = true) :
    (set.getEntryIndex x .UP).toNat < set.mYVals.length := by
  have hne : set.mYVals ≠ [] := by
    intro hnil
    simp [LineDataSet.xIndices, hnil] at h
  have hmem := getEntryIndex_mem hne x .UP
  omega

omit [Zero F] in
/-- Either way of adding an entry. -/
theorem tracks_added {e : Entry F} (h : set.Tracks MAX_VALUE) (he : Bounded MAX_VALUE e.mVal)
    {mYVals : List (Entry F)}
    (hmem : ∀ v, v ∈ mYVals.map Entry.mVal ↔ v = e.mVal ∨ v ∈ set.values) :
    LineDataSet.Tracks MAX_VALUE { set.widen e.mVal with mYVals } := by
  refine ⟨fun v hv => ?_, fun _ => ranged_widen h.ranged hmem⟩
  rcases (hmem v).1 hv with rfl | hv
  · exact he
  · exact h.bounded v hv

/-- An entry that is there is removed, and the range scanned. -/
theorem removeEntry_of_lt {place : Nat} (hplace : place < set.mYVals.length) {t : LineDataSet F}
    (ht : LineDataSet.calcMinMax MAX_VALUE { set with mYVals := set.mYVals.eraseIdx place } 0
      (set.mYVals.eraseIdx place).length = .ok t) :
    set.removeEntry MAX_VALUE place = .ok (t, true) := by
  rw [LineDataSet.removeEntry, if_pos hplace]
  dsimp only
  rw [ht]
  rfl

/-- Removing an entry never throws, answers whether there was one, and recalculates the range. -/
theorem tracks_removeEntry (h : set.Tracks MAX_VALUE) (place : Nat) :
    ∃ t, set.removeEntry MAX_VALUE place = .ok (t, decide (place < set.mYVals.length)) ∧
      LineDataSet.SameEntries { set with mYVals := set.mYVals.eraseIdx place } t ∧
      t.Tracks MAX_VALUE := by
  by_cases hplace : place < set.mYVals.length
  · obtain ⟨t, ht, hsame, htracks⟩ := tracks_calcMinMax MAX_VALUE
      { set with mYVals := set.mYVals.eraseIdx place }
      (fun v hv => h.bounded v (((List.eraseIdx_sublist _ _).map _).subset hv)) (Nat.le_refl _)
    rw [removeEntry_of_lt hplace ht, decide_eq_true hplace]
    exact ⟨t, rfl, hsame, htracks⟩
  · -- an object that is not one of the entries
    rw [LineDataSet.removeEntry, if_neg hplace, decide_eq_false hplace]
    refine ⟨set, rfl, ⟨?_, rfl, rfl⟩, h⟩
    exact (List.eraseIdx_of_length_le (Nat.le_of_not_lt hplace)).symm

/-- The range of a data set that loses its last entry stays. -/
theorem emptied_removeEntry {place : Nat} {t : LineDataSet F} {removed : Bool}
    (h : set.removeEntry MAX_VALUE place = .ok (t, removed)) (hempty : t.mYVals = []) :
    t.mYMin = set.mYMin ∧ t.mYMax = set.mYMax := by
  by_cases hplace : place < set.mYVals.length
  · obtain ⟨s, hs, hsame⟩ := calcMinMax_returns MAX_VALUE
      { set with mYVals := set.mYVals.eraseIdx place } (Nat.le_refl _)
    obtain rfl : s = t :=
      congrArg Prod.fst (Except.ok.inj ((removeEntry_of_lt hplace hs).symm.trans h))
    have hnil : set.mYVals.eraseIdx place = [] := hsame.1.symm.trans hempty
    -- the scan of no entries returns before it assigns the range
    rw [calcMinMax_of_nil MAX_VALUE hnil] at hs
    obtain rfl := Except.ok.inj hs
    exact ⟨rfl, rfl⟩
  · have hset : set.removeEntry MAX_VALUE place = .ok (set, false) := if_neg hplace
    obtain rfl : t = set := congrArg Prod.fst (Except.ok.inj (h.symm.trans hset))
    exact ⟨rfl, rfl⟩

/-- Replacing all entries recalculates the range too. -/
theorem tracks_setYVals {yVals : List (Entry F)}
    (hbounded : ∀ v ∈ yVals.map Entry.mVal, Bounded MAX_VALUE v) (set : LineDataSet F) :
    ∃ t, set.setYVals MAX_VALUE yVals = .ok t ∧
      LineDataSet.SameEntries { set with mYVals := yVals } t ∧ t.Tracks MAX_VALUE := by
  rw [LineDataSet.setYVals, LineDataSet.notifyDataSetChanged, calcMinMax_last]
  exact tracks_calcMinMax MAX_VALUE { set with mYVals := yVals } hbounded (Nat.le_refl _)

/-- `removeEntry(int)` removes an entry of every data set with entries, and answers so: the first at
the index, or, without one, a neighbour of the place where it would stand. With bounded values the
range is then that of the values left. -/
theorem removeEntryAt_spec (hsorted : set.Sorted) (hne : set.mYVals ≠ []) (xIndex : Int) :
    ∃ t place, set.removeEntryAt MAX_VALUE xIndex = .ok (t, true) ∧ place < set.mYVals.length ∧
      t.mYVals = set.mYVals.eraseIdx place ∧
      ((∀ v ∈ set.values, Bounded MAX_VALUE v) → t.mYVals ≠ [] → t.Ranged) ∧
      (First set.xIndices xIndex place ∨
        ∃ p, Gap set.xIndices xIndex p ∧ (place + 1 = p ∨ place = p)) := by
  obtain ⟨hnonneg, hlt⟩ := getEntryIndex_mem hne xIndex .CLOSEST
  obtain ⟨t, ht, hsame⟩ := calcMinMax_returns MAX_VALUE
    { set with mYVals := set.mYVals.eraseIdx (set.getEntryIndex xIndex .CLOSEST).toNat }
    (Nat.le_refl _)
  refine ⟨t, (set.getEntryIndex xIndex .CLOSEST).toNat, ?_, by omega, hsame.1, ?_, ?_⟩
  · rw [LineDataSet.removeEntryAt, if_pos (show set.getEntryIndex xIndex .CLOSEST > -1 by omega)]
    exact removeEntry_of_lt (by omega) ht
  · intro hbounded
    -- the values that are left are bounded, so the scan has found their range
    obtain ⟨t', ht', -, htracks⟩ := tracks_calcMinMax MAX_VALUE
      { set with mYVals := set.mYVals.eraseIdx (set.getEntryIndex xIndex .CLOSEST).toNat }
      (fun v hv => hbounded v (((List.eraseIdx_sublist _ _).map _).subset hv)) (Nat.le_refl _)
    obtain rfl := Except.ok.inj (ht.symm.trans ht')
    exact htracks.ranged
  · rcases getEntryIndex_cases hsorted xIndex with ⟨p, hfirst, hindex⟩ | ⟨p, hgap, hup, hdown, hor⟩
    · rw [hindex .CLOSEST, Int.toNat_natCast]
      exact .inl hfirst
    · -- `CLOSEST` is one of the two neighbours of the gap
      refine .inr ⟨p, hgap, ?_⟩
      have hp := hgap.le_length
      rw [length_xIndices] at hp
      omega

/-- There is no entry at 9, and the one at 0 is removed. -/
theorem removeEntryAt_nine : ∃ t, threeEntries.removeEntryAt 100 9 = .ok (t, true) ∧
    t.mYVals = [⟨6, 10⟩, ⟨7, 20⟩] ∧ (t.mYVals ≠ [] → t.Ranged) := by
  have hsorted : threeEntries.Sorted := by
    simp [LineDataSet.Sorted, LineDataSet.xIndices, threeEntries]
  have hbounded : ∀ v ∈ threeEntries.values, Bounded 100 v := by
    simp [threeEntries, LineDataSet.values, Bounded]
  obtain ⟨t, place, ht, -, -, hranged, -⟩ :=
    removeEntryAt_spec hsorted (by simp [threeEntries]) 9
  have hrun : (threeEntries.removeEntryAt 100 9).toOption.map (·.1.mYVals) =
      some [⟨6, 10⟩, ⟨7, 20⟩] := by decide +kernel
  rw [ht] at hrun
  exact ⟨t, ht, Option.some.inj hrun, hranged hbounded⟩

/-! ## Every sequence of updates -/

/-- A scan changes the range only. -/
theorem calcMinMax_entries {t : LineDataSet F} {start e : Nat}
    (h : set.calcMinMax MAX_VALUE start e = .ok t) : t.mYVals = set.mYVals := by
  rw [LineDataSet.calcMinMax] at h
  dsimp only at h
  split at h
  · obtain rfl := Except.ok.inj h
    rfl
  · generalize scanEntries set.mYVals _ _ _ _ = scan at h
    cases scan with
    | error ex => cases h
    | ok range =>
        change (if range.1 = MAX_VALUE then _ else _) = _ at h
        split at h
        · obtain rfl := Except.ok.inj h
          rfl
        · obtain rfl := Except.ok.inj h
          rfl

theorem removeEntry_entries {t : LineDataSet F} {place : Nat}
    (h : Prod.fst <$> set.removeEntry MAX_VALUE place = .ok t) :
    t.mYVals = set.mYVals.eraseIdx place := by
  by_cases hplace : place < set.mYVals.length
  · obtain ⟨s, hs, hsame⟩ := calcMinMax_returns MAX_VALUE
      { set with mYVals := set.mYVals.eraseIdx place } (Nat.le_refl _)
    rw [removeEntry_of_lt hplace hs] at h
    obtain rfl := Except.ok.inj h
    exact hsame.1
  · rw [LineDataSet.removeEntry, if_neg hplace] at h
    obtain rfl := Except.ok.inj h
    exact (List.eraseIdx_of_length_le (Nat.le_of_not_lt hplace)).symm

/-- What an update does to the entries. -/
theorem update_entries {start t : LineDataSet F} {u : Update F}
    (h : (dataSet MAX_VALUE start).step set u = some t) :
    t.mYVals.Sublist set.mYVals ∨
      (∃ e, u = .addEntry e ∧ t = set.addEntry e) ∨
      (∃ e, u = .addEntryOrdered e ∧ t = set.addEntryOrdered e) ∨
      ∃ yVals, u = .setYVals yVals ∧ t.mYVals = yVals := by
  have hremoved : ∀ place, Prod.fst <$> set.removeEntry MAX_VALUE place = .ok t →
      t.mYVals.Sublist set.mYVals := by
    intro place hplace
    rw [removeEntry_entries hplace]
    exact List.eraseIdx_sublist _ _
  simp only [dataSet] at h
  cases hu : set.update MAX_VALUE u with
  | error ex =>
      -- a call that throws changes nothing
      rw [hu] at h
      obtain rfl := Option.some.inj h
      exact .inl (List.Sublist.refl _)
  | ok s =>
      rw [hu] at h
      obtain rfl := Option.some.inj h
      cases u with
      | addEntry e => exact .inr (.inl ⟨e, rfl, (Except.ok.inj hu).symm⟩)
      | addEntryOrdered e => exact .inr (.inr (.inl ⟨e, rfl, (Except.ok.inj hu).symm⟩))
      | removeEntry place => exact .inl (hremoved place hu)
      | removeEntryAt xIndex =>
          simp only [LineDataSet.update, LineDataSet.removeEntryAt] at hu
          split at hu
          · exact .inl (hremoved _ hu)
          · obtain rfl := Except.ok.inj hu
            exact .inl (List.Sublist.refl _)
      | removeFirst =>
          simp only [LineDataSet.update, LineDataSet.removeFirst] at hu
          split at hu
          · cases hu
          · exact .inl (hremoved _ hu)
      | removeLast =>
          simp only [LineDataSet.update, LineDataSet.removeLast] at hu
          split at hu
          · cases hu
          · exact .inl (hremoved _ hu)
      | clear =>
          rw [LineDataSet.update, LineDataSet.clear, LineDataSet.notifyDataSetChanged] at hu
          have hnil : s.mYVals = [] := calcMinMax_entries hu
          rw [hnil]
          exact .inl (List.nil_sublist _)
      | setYVals yVals =>
          rw [LineDataSet.update, LineDataSet.setYVals, LineDataSet.notifyDataSetChanged] at hu
          exact .inr (.inr (.inr ⟨yVals, rfl, calcMinMax_entries hu⟩))

omit [LinearOrder F] [Zero F] [Neg F] in
theorem sorted_concat {e : Entry F} (h : set.Sorted) (hlast : ∀ x ∈ set.xIndices, x ≤ e.mXIndex) :
    ((set.mYVals ++ [e]).map Entry.mXIndex).Pairwise (· ≤ ·) := by
  rw [List.map_append, List.map_singleton]
  refine List.pairwise_append.2 ⟨h, List.pairwise_singleton _ _, fun x hx y hy => ?_⟩
  obtain rfl := List.mem_singleton.1 hy
  exact hlast x hx

omit [Zero F] [Neg F] in
/-- `addEntryOrdered` finds the place where the order is kept. -/
theorem sorted_addEntryOrdered (h : set.Sorted) (e : Entry F) : (set.addEntryOrdered e).Sorted := by
  rw [LineDataSet.addEntryOrdered]
  split
  · rename_i hgreater
    have hplace := insertion_place hgreater
    show (List.map _ (List.insertIdx _ _ _)).Pairwise (· ≤ ·)
    rw [List.map_insertIdx]
    rcases getEntryIndex_cases h e.mXIndex with ⟨p, hfirst, hindex⟩ | ⟨p, hgap, hup, -⟩
    · rw [hindex .UP, Int.toNat_natCast]
      exact pairwise_insertIdx_first h hfirst
    · -- the last entry is behind the gap, so there is an entry behind it
      have hp : p < set.mYVals.length := by
        rw [List.getLast?_eq_getElem?, length_xIndices, (any_lt_iff hgap (by omega)).2] at hgreater
        have := of_decide_eq_true hgreater
        omega
      rw [hup, show (min (p : Int) (set.mYVals.length - 1)).toNat = p by omega]
      exact pairwise_insertIdx_gap h hgap
  · -- no entry is behind the new one, so it is added at the end
    rename_i hnot
    refine sorted_concat h fun x hx => ?_
    obtain ⟨i, hi, rfl⟩ := List.mem_iff_getElem.1 hx
    have hlast : set.xIndices.length - 1 < set.xIndices.length := by omega
    rw [List.getLast?_eq_getElem?, List.getElem?_eq_getElem hlast, Option.any_some,
      decide_eq_true_eq] at hnot
    have hle := getElem_le h hi hlast (by omega)
    omega

theorem sorted_step {start t : LineDataSet F} {u : Update F} (h : set.Sorted)
    (hu : set.InOrder u) (hstep : (dataSet MAX_VALUE start).step set u = some t) : t.Sorted := by
  rcases update_entries hstep with hsub | ⟨e, rfl, rfl⟩ | ⟨e, rfl, rfl⟩ | ⟨yVals, rfl, hentries⟩
  · exact List.Pairwise.sublist (hsub.map _) h
  · exact sorted_concat h hu
  · exact sorted_addEntryOrdered h e
  · rw [LineDataSet.Sorted, LineDataSet.xIndices, hentries]
    exact hu

/-- In every sequence of updates that keeps to the order, looking up by binary search finds what a
scan of all entries finds. -/
theorem lookups_of_run {start : LineDataSet F} (hstart : start.Sorted) {us : List (Update F)}
    (h : RunUnder (dataSet MAX_VALUE start) LineDataSet.InOrder us set) (xIndex : Int) :
    set.getEntriesForXIndex xIndex = (set.mYVals.filter fun e => e.mXIndex == xIndex) ∧
      set.getYValForXIndex xIndex =
        (set.mYVals.find? fun e => e.mXIndex == xIndex).map Entry.mVal := by
  have hsorted : set.Sorted := h.invariant hstart fun s u t hs hu hst => sorted_step hs hu hst
  exact ⟨getEntriesForXIndex_eq_filter hsorted xIndex, getYValForXIndex_eq_find? hsorted xIndex⟩

/-- An entry added in order behind the others, one added between them, and the one behind removed. -/
theorem lookups_of_run_three : ∃ s : LineDataSet Int, s.mYVals = [⟨7, 1⟩, ⟨-3, 2⟩] ∧
    s.getYValForXIndex 2 = (s.mYVals.find? fun e => e.mXIndex == (2 : Int)).map Entry.mVal := by
  obtain ⟨s, hs, hentries⟩ := exists_run_of_exec
    ((dataSet 100 ⟨[⟨7, 1⟩], "", .LEFT, 7, 7⟩).restrict fun s u => decide (s.InOrder u))
    [.addEntry ⟨5, 4⟩, .addEntryOrdered ⟨-3, 2⟩, .removeEntryAt 5] (fun s => s.mYVals)
    (v := [(⟨7, 1⟩ : Entry Int), ⟨-3, 2⟩]) (by decide +kernel)
  have hrun := runUnder_of_restrict (G := LineDataSet.InOrder)
    (fun s u h => of_decide_eq_true h) hs
  have hstart : LineDataSet.Sorted (F := Int) ⟨[⟨7, 1⟩], "", .LEFT, 7, 7⟩ :=
    List.pairwise_singleton _ _
  exact ⟨s, hentries, (lookups_of_run hstart hrun 2).2⟩

/-- An update with bounded values ends without an exception, or throws one on an empty data set. -/
theorem tracks_update (h : set.Tracks MAX_VALUE) {u : Update F}
    (hu : ∀ v ∈ u.values, Bounded MAX_VALUE v) :
    (∃ t, set.update MAX_VALUE u = .ok t ∧ t.Tracks MAX_VALUE) ∨
      (set.mYVals = [] ∧ (u = .removeFirst ∨ u = .removeLast) ∧
        set.update MAX_VALUE u = .error .indexOutOfBounds) := by
  have hremoved : ∀ place, ∃ t, Prod.fst <$> set.removeEntry MAX_VALUE place = .ok t ∧
      t.Tracks MAX_VALUE := by
    intro place
    obtain ⟨t, ht, -, htracks⟩ := tracks_removeEntry h place
    exact ⟨t, by rw [ht]; rfl, htracks⟩
  cases u with
  | addEntry e =>
      refine .inl ⟨_, rfl, tracks_added h (hu e.mVal List.mem_cons_self) ?_⟩
      exact mem_values_concat e
  | addEntryOrdered e =>
      refine .inl ⟨_, rfl, ?_⟩
      rw [LineDataSet.addEntryOrdered]
      split
      · rename_i hgreater
        refine tracks_added h (hu e.mVal List.mem_cons_self) ?_
        exact mem_values_insertIdx (Nat.le_of_lt (insertion_place hgreater)) e
      · exact tracks_added h (hu e.mVal List.mem_cons_self) (mem_values_concat e)
  | removeEntry place => exact .inl (hremoved place)
  | removeEntryAt xIndex =>
      rw [LineDataSet.update, LineDataSet.removeEntryAt]
      split
      · exact .inl (hremoved _)
      · exact .inl ⟨set, rfl, h⟩
  | removeFirst =>
      rw [LineDataSet.update, LineDataSet.removeFirst]
      cases hentries : set.mYVals with
      | nil => exact .inr ⟨rfl, .inl rfl, rfl⟩
      | cons e es => exact .inl (hremoved 0)
  | removeLast =>
      rw [LineDataSet.update, LineDataSet.removeLast]
      by_cases hempty : set.mYVals.length = 0
      · rw [if_pos hempty]
        exact .inr ⟨List.eq_nil_of_length_eq_zero hempty, .inr rfl, rfl⟩
      · rw [if_neg hempty]
        exact .inl (hremoved _)
  | clear =>
      have hnone : ∀ v ∈ ([] : List (Entry F)).map Entry.mVal, Bounded MAX_VALUE v := by simp
      obtain ⟨t, ht, -, htracks⟩ := tracks_setYVals hnone set
      exact .inl ⟨t, ht, htracks⟩
  | setYVals yVals =>
      obtain ⟨t, ht, -, htracks⟩ := tracks_setYVals hu set
      exact .inl ⟨t, ht, htracks⟩

/-- In every sequence of updates of a new data set, all values smaller in magnitude than
`MAX_VALUE`, the range is that of the values whenever there are any. -/
theorem ranged_of_run {yVals : List (Entry F)} {label : String} {start : LineDataSet F}
    (hnew : LineDataSet.new MAX_VALUE yVals label = .ok start)
    (hyVals : ∀ e ∈ yVals, Bounded MAX_VALUE e.mVal) {us : List (Update F)}
    (h : RunUnder (dataSet MAX_VALUE start) (fun _ u => ∀ v ∈ u.values, Bounded MAX_VALUE v) us
      set) (hne : set.mYVals ≠ []) : set.Ranged := by
  have hstart : start.Tracks MAX_VALUE := by
    obtain ⟨t, ht, -, htracks⟩ := tracks_calcMinMax MAX_VALUE
      { mYVals := yVals, mLabel := label, mAxisDependency := .LEFT, mYMin := 0, mYMax := 0 }
      (fun v hv => by
        obtain ⟨e, he, rfl⟩ := List.mem_map.1 hv
        exact hyVals e he) (Nat.le_refl _)
    rw [LineDataSet.new, ht] at hnew
    obtain rfl := Except.ok.inj hnew
    exact htracks
  refine (h.invariant (I := LineDataSet.Tracks MAX_VALUE) hstart ?_).ranged hne
  intro s u t hs hu hst
  simp only [dataSet] at hst
  rcases tracks_update hs hu with ⟨t', ht', htracks⟩ | ⟨-, -, herror⟩
  · rw [ht'] at hst
    obtain rfl := Option.some.inj hst
    exact htracks
  · -- an update that throws leaves the data set as it was
    rw [herror] at hst
    obtain rfl := Option.some.inj hst
    exact hs

/-- The range after a negative value, a positive one and the removal of the negative one. -/
theorem ranged_of_run_three :
    ∃ s : LineDataSet Int, s.mYVals = [⟨5, 4⟩] ∧ s.Ranged := by
  obtain ⟨s, hs, hentries⟩ := exists_run_of_exec
    ((dataSet 100 ⟨[], "", .LEFT, 0, 0⟩).restrict fun _ u =>
      u.values.all fun v => decide (-100 < v) && decide (v < 100))
    [.addEntry ⟨5, 4⟩, .addEntryOrdered ⟨-3, 2⟩, .removeEntryAt 1] (fun s => s.mYVals)
    (v := [(⟨5, 4⟩ : Entry Int)]) (by decide +kernel)
  have hrun := runUnder_of_restrict (G := fun _ u => ∀ v ∈ u.values, Bounded (100 : Int) v)
    (fun _ u hu v hv => by
      have := List.all_eq_true.1 hu v hv
      rw [Bool.and_eq_true, decide_eq_true_eq, decide_eq_true_eq] at this
      exact this) hs
  refine ⟨s, hentries, ?_⟩
  have hnew : LineDataSet.new 100 [] "" = .ok (⟨[], "", .LEFT, 0, 0⟩ : LineDataSet Int) := rfl
  exact ranged_of_run hnew (by simp) hrun (by simp [hentries])

end Updating

end IotClient.Chart.ChartData
