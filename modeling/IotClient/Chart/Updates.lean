import IotClient.Chart.DataSet

/-!
# Changing the data of a chart

The methods of `ChartData` that add and remove data sets and entries, change the labels, and
recalculate. Adding adjusts the count and the ranges to what is added, removing recalculates the
ranges up to the count. A data set object stands in the chart data once, so a data set is its value
here, and only these methods change it; an index is not negative.

After any sequence of changes the count is the number of values, and every value is within the range
of all values and within that of its axis (`covers_of_run`).
-/

set_option autoImplicit false

namespace IotClient.Chart.ChartData

open IotClient.Foundation.Extremes IotClient.Foundation.JavaText IotClient.Foundation.Runs

namespace LineData

/-! ## The methods -/

section Methods

variable {F : Type} [LinearOrder F] [Zero F] [Neg F]

/-- `getYMin(AxisDependency)`. -/
def getYMin (d : LineData F) : AxisDependency → F
  | .LEFT => d.mLeftAxisMin
  | .RIGHT => d.mRightAxisMin

/-- `getYMax(AxisDependency)`. -/
def getYMax (d : LineData F) : AxisDependency → F
  | .LEFT => d.mLeftAxisMax
  | .RIGHT => d.mRightAxisMax

/-- The two assignments to the range of an axis. -/
def setAxis (d : LineData F) (dependency : AxisDependency) (yMin yMax : F) : LineData F :=
  match dependency with
  | .LEFT => { d with mLeftAxisMin := yMin, mLeftAxisMax := yMax }
  | .RIGHT => { d with mRightAxisMin := yMin, mRightAxisMax := yMax }

/-- How `addDataSet` and `addEntry` adjust the ranges to values from `yMin` to `yMax` on an axis:
the first values are the range, later ones widen it. -/
def adjust (d : LineData F) (isFirst : Bool) (dependency : AxisDependency) (yMin yMax : F) :
    LineData F :=
  if isFirst then { d with mYMin := yMin, mYMax := yMax }.setAxis dependency yMin yMax
  else
    { d with mYMin := lower d.mYMin yMin, mYMax := raise d.mYMax yMax }.setAxis dependency
      (lower (d.getYMin dependency) yMin) (raise (d.getYMax dependency) yMax)

/-- `handleEmptyAxis(getFirstLeft(), getFirstRight())`. -/
def fillAxes (d : LineData F) : LineData F :=
  d.handleEmptyAxis (getFirst .LEFT d.mDataSets) (getFirst .RIGHT d.mDataSets)

/-- `addDataSet`. -/
def addDataSet (d : LineData F) (set : LineDataSet F) : LineData F :=
  let d := { d with mYValCount := d.mYValCount + set.mYVals.length }
  let d := d.adjust (d.mDataSets.length ≤ 0) set.mAxisDependency set.mYMin set.mYMax
  { d with mDataSets := d.mDataSets ++ [set] }.fillAxes

/-- `removeDataSet`, of the data set at an index. It answers whether there was one. -/
def removeDataSet (MAX_VALUE : F) (d : LineData F) (index : Nat) :
    Except JavaException (LineData F × Bool) :=
  match d.mDataSets[index]? with
  | none => .ok (d, false)
  | some set => do
      let mYValCount := d.mYValCount - set.mYVals.length
      let d ← { d with mDataSets := d.mDataSets.eraseIdx index, mYValCount }.calcMinMax MAX_VALUE 0
        mYValCount
      return (d, true)

/-- `addEntry`. -/
def addEntry (d : LineData F) (e : Entry F) (dataSetIndex : Nat) : LineData F :=
  match d.mDataSets[dataSetIndex]? with
  | none => d
  | some set =>
      let d := { d with mDataSets := d.mDataSets.set dataSetIndex (set.addEntry e) }
      let d := d.adjust (d.mYValCount = 0) set.mAxisDependency e.mVal e.mVal
      { d with mYValCount := d.mYValCount + 1 }.fillAxes

/-- `removeEntry(Entry, int)` of the entry at a place of a data set; a place beyond the entries is
an object that is not one of them. -/
def removeEntry (MAX_VALUE : F) (d : LineData F) (place dataSetIndex : Nat) :
    Except JavaException (LineData F × Bool) :=
  match d.mDataSets[dataSetIndex]? with
  | none => .ok (d, false)
  | some set => do
      let (changed, removed) ← set.removeEntry MAX_VALUE place
      let d := { d with mDataSets := d.mDataSets.set dataSetIndex changed }
      if removed then
        let mYValCount := d.mYValCount - 1
        let d ← { d with mYValCount }.calcMinMax MAX_VALUE 0 mYValCount
        return (d, true)
      else return (d, false)

/-- `removeEntry(int, int)`. -/
def removeEntryAt (MAX_VALUE : F) (d : LineData F) (xIndex : Int) (dataSetIndex : Nat) :
    Except JavaException (LineData F × Bool) :=
  match d.mDataSets[dataSetIndex]? with
  | none => .ok (d, false)
  | some set =>
      match set.getEntryForXIndex xIndex .CLOSEST with
      | none => .ok (d, false)
      | some e =>
          if e.mXIndex ≠ xIndex then .ok (d, false)
          else d.removeEntry MAX_VALUE (set.getEntryIndex xIndex .CLOSEST).toNat dataSetIndex

/-- `setXVals`, which leaves the greatest length as it is. -/
def setXVals (d : LineData F) (xVals : List JavaString) : LineData F := { d with mXVals := xVals }

/-- `addXValue`. -/
def addXValue (d : LineData F) (xVal : JavaString) : LineData F :=
  { d with
    mXValMaximumLength := raise d.mXValMaximumLength xVal.length
    mXVals := d.mXVals ++ [xVal] }

/-- `removeXValue`. -/
def removeXValue (d : LineData F) (index : Nat) : Except JavaException (LineData F) :=
  if index < d.mXVals.length then .ok { d with mXVals := d.mXVals.eraseIdx index }
  else .error .indexOutOfBounds

/-- `notifyDataChanged`. -/
def notifyDataChanged (MAX_VALUE : F) (d : LineData F) : Except JavaException (LineData F) :=
  d.init MAX_VALUE

/-- `clearValues`. -/
def clearValues (MAX_VALUE : F) (d : LineData F) : Except JavaException (LineData F) :=
  { d with mDataSets := [] }.notifyDataChanged MAX_VALUE

/-- A call that changes the chart data. -/
inductive Change (F : Type) where
  | addDataSet (set : LineDataSet F)
  | removeDataSet (index : Nat)
  | addEntry (e : Entry F) (dataSetIndex : Nat)
  | removeEntry (place dataSetIndex : Nat)
  | removeEntryAt (xIndex : Int) (dataSetIndex : Nat)
  | setXVals (xVals : List JavaString)
  | addXValue (xVal : JavaString)
  | removeXValue (index : Nat)
  | notifyDataChanged
  | clearValues

/-- What a call leaves, its answer aside. -/
def change (MAX_VALUE : F) (d : LineData F) : Change F → Except JavaException (LineData F)
  | .addDataSet set => .ok (d.addDataSet set)
  | .removeDataSet index => Prod.fst <$> d.removeDataSet MAX_VALUE index
  | .addEntry e dataSetIndex => .ok (d.addEntry e dataSetIndex)
  | .removeEntry place dataSetIndex => Prod.fst <$> d.removeEntry MAX_VALUE place dataSetIndex
  | .removeEntryAt xIndex dataSetIndex => Prod.fst <$> d.removeEntryAt MAX_VALUE xIndex dataSetIndex
  | .setXVals xVals => .ok (d.setXVals xVals)
  | .addXValue xVal => .ok (d.addXValue xVal)
  | .removeXValue index => d.removeXValue index
  | .notifyDataChanged => d.notifyDataChanged MAX_VALUE
  | .clearValues => d.clearValues MAX_VALUE

/-- Chart data under its changes. An exception comes before any change (`change_keeps`). -/
def chart (MAX_VALUE : F) (start : LineData F) : Machine (LineData F) (Change F) where
  init := start
  step := fun d c =>
    match d.change MAX_VALUE c with
    | .ok r => some r
    | .error _ => some d

end Methods

/-! ## What the ranges are to be -/

section Ranges

variable {F : Type} [LinearOrder F]

/-- What is added is bounded, a data set that is added has its range, and labels that are set are no
longer than the greatest length. -/
def Sound [Neg F] (MAX_VALUE : F) (d : LineData F) : Change F → Prop
  | .addDataSet set => set.Tracks MAX_VALUE
  | .addEntry e _ => Bounded MAX_VALUE e.mVal
  | .setXVals xVals => ∀ xVal ∈ xVals, xVal.length ≤ d.mXValMaximumLength
  | _ => True

/-- The number of values of some data sets. -/
def total (sets : List (LineDataSet F)) : Nat := (sets.map fun set => set.mYVals.length).sum

/-- The values of the data sets on the axes that `q` holds of. -/
def valuesOn (q : AxisDependency → Prop) (sets : List (LineDataSet F)) : Set F :=
  {v | ∃ set ∈ sets, q set.mAxisDependency ∧ v ∈ set.values}

/-- There is a data set on the axis. -/
def Occupied (dependency : AxisDependency) (sets : List (LineDataSet F)) : Prop :=
  ∃ set ∈ sets, set.mAxisDependency = dependency

/-- The count is that of the values, and every data set has its range. -/
structure Counted [Neg F] (MAX_VALUE : F) (d : LineData F) : Prop where
  count : d.mYValCount = total d.mDataSets
  tracks : ∀ set ∈ d.mDataSets, set.Tracks MAX_VALUE
  labels : ∀ xVal ∈ d.mXVals, xVal.length ≤ d.mXValMaximumLength

/-- Every value is within the range of all values and within that of its axis. -/
structure Covers (d : LineData F) : Prop where
  whole : ∀ v ∈ valuesOn (fun _ => True) d.mDataSets, d.mYMin ≤ v ∧ v ≤ d.mYMax
  axis : ∀ dependency, ∀ v ∈ valuesOn (· = dependency) d.mDataSets,
    d.getYMin dependency ≤ v ∧ v ≤ d.getYMax dependency

end Ranges

/-! ## The axes -/

section Axes

variable {F : Type} {d : LineData F} {dependency other : AxisDependency} {low high : F}
  {sets : List (LineDataSet F)}

@[simp] theorem getYMin_setAxis : (d.setAxis dependency low high).getYMin dependency = low := by
  cases dependency <;> rfl

@[simp] theorem getYMax_setAxis : (d.setAxis dependency low high).getYMax dependency = high := by
  cases dependency <;> rfl

/-- The other axis keeps its range. -/
theorem setAxis_of_ne (h : other ≠ dependency) :
    (d.setAxis dependency low high).getYMin other = d.getYMin other ∧
      (d.setAxis dependency low high).getYMax other = d.getYMax other := by
  cases dependency <;> cases other <;> first | exact absurd rfl h | exact ⟨rfl, rfl⟩

theorem setAxis_frame (d : LineData F) (dependency : AxisDependency) (low high : F) :
    (d.setAxis dependency low high).mDataSets = d.mDataSets ∧
      (d.setAxis dependency low high).mYMin = d.mYMin ∧
      (d.setAxis dependency low high).mYMax = d.mYMax ∧
      (d.setAxis dependency low high).mYValCount = d.mYValCount ∧
      (d.setAxis dependency low high).mXVals = d.mXVals ∧
      (d.setAxis dependency low high).mXValMaximumLength = d.mXValMaximumLength := by
  cases dependency <;> exact ⟨rfl, rfl, rfl, rfl, rfl, rfl⟩

theorem getFirst_eq_none_iff : getFirst dependency sets = none ↔ ¬ Occupied dependency sets := by
  rw [getFirst, List.find?_eq_none]
  constructor
  · rintro h ⟨set, hset, hdep⟩
    exact h set hset (decide_eq_true hdep)
  · intro h set hset hdep
    exact h ⟨set, hset, of_decide_eq_true hdep⟩

/-- Of two axes with data sets on neither there are no data sets. -/
theorem occupied_of_ne_nil (hne : sets ≠ []) (h : ¬ Occupied dependency sets) :
    ∃ other, other ≠ dependency ∧ Occupied other sets ∧
      ∀ set ∈ sets, set.mAxisDependency = other := by
  have hother : ∀ set ∈ sets, set.mAxisDependency ≠ dependency :=
    fun set hset hdep => h ⟨set, hset, hdep⟩
  obtain ⟨set, hset⟩ := List.exists_mem_of_ne_nil sets hne
  refine ⟨set.mAxisDependency, hother set hset, ⟨set, hset, rfl⟩, fun s hs => ?_⟩
  have hs' := hother s hs
  have hset' := hother set hset
  -- there are only two axes, and neither data set is on this one
  generalize s.mAxisDependency = a at hs' ⊢
  generalize set.mAxisDependency = b at hset' ⊢
  cases dependency with
  | LEFT => cases a <;> cases b <;> first | rfl | exact absurd rfl hs' | exact absurd rfl hset'
  | RIGHT => cases a <;> cases b <;> first | rfl | exact absurd rfl hs' | exact absurd rfl hset'

theorem fillAxes_frame (d : LineData F) :
    d.fillAxes.mDataSets = d.mDataSets ∧ d.fillAxes.mYMin = d.mYMin ∧
      d.fillAxes.mYMax = d.mYMax ∧ d.fillAxes.mYValCount = d.mYValCount ∧
      d.fillAxes.mXVals = d.mXVals ∧ d.fillAxes.mXValMaximumLength = d.mXValMaximumLength := by
  rw [fillAxes]
  cases getFirst .LEFT d.mDataSets with
  | none => exact ⟨rfl, rfl, rfl, rfl, rfl, rfl⟩
  | some first =>
      cases getFirst .RIGHT d.mDataSets with
      | none => exact ⟨rfl, rfl, rfl, rfl, rfl, rfl⟩
      | some first' => exact ⟨rfl, rfl, rfl, rfl, rfl, rfl⟩

/-- An axis with data sets keeps its range. -/
theorem fillAxes_of_occupied (h : Occupied dependency d.mDataSets) :
    d.fillAxes.getYMin dependency = d.getYMin dependency ∧
      d.fillAxes.getYMax dependency = d.getYMax dependency := by
  rw [fillAxes]
  cases hleft : getFirst .LEFT d.mDataSets with
  | none =>
      cases dependency with
      | LEFT => exact absurd h (getFirst_eq_none_iff.1 hleft)
      | RIGHT => exact ⟨rfl, rfl⟩
  | some first =>
      cases hright : getFirst .RIGHT d.mDataSets with
      | none =>
          cases dependency with
          | LEFT => exact ⟨rfl, rfl⟩
          | RIGHT => exact absurd h (getFirst_eq_none_iff.1 hright)
      | some first' => exact ⟨rfl, rfl⟩

end Axes

/-! ## More values on an axis -/

section Growing

variable {F : Type} {sets sets' : List (LineDataSet F)} {dependency : AxisDependency} {B : Set F}

/-- `sets'` has the values `B` on an axis besides those of `sets`. -/
def Grown (sets sets' : List (LineDataSet F)) (dependency : AxisDependency) (B : Set F) : Prop :=
  ∀ q : AxisDependency → Prop,
    valuesOn q sets' = {v | v ∈ valuesOn q sets ∨ (q dependency ∧ v ∈ B)}

theorem grown_concat (sets : List (LineDataSet F)) (set : LineDataSet F) :
    Grown sets (sets ++ [set]) set.mAxisDependency {v | v ∈ set.values} := by
  intro q
  ext v
  simp only [valuesOn, List.mem_append, List.mem_singleton, Set.mem_ofPred_eq]
  constructor
  · rintro ⟨s, hs | rfl, hq, hv⟩
    · exact .inl ⟨s, hs, hq, hv⟩
    · exact .inr ⟨hq, hv⟩
  · rintro (⟨s, hs, hq, hv⟩ | ⟨hq, hv⟩)
    · exact ⟨s, .inl hs, hq, hv⟩
    · exact ⟨set, .inr rfl, hq, hv⟩

/-- The data sets before an index, at it and behind it. -/
theorem split_at {i : Nat} {set : LineDataSet F} (h : sets[i]? = some set) :
    sets = sets.take i ++ set :: sets.drop (i + 1) := by
  obtain ⟨hi, rfl⟩ := List.getElem?_eq_some_iff.1 h
  rw [List.getElem_cons_drop, List.take_append_drop]

theorem mem_set_iff {i : Nat} {set : LineDataSet F} (h : sets[i]? = some set)
    (t s : LineDataSet F) :
    s ∈ sets.set i t ↔ s = t ∨ s ∈ sets.eraseIdx i := by
  have hi := (List.getElem?_eq_some_iff.1 h).1
  rw [List.set_eq_take_append_cons_drop, if_pos hi, List.eraseIdx_eq_take_drop_succ]
  simp only [List.mem_append, List.mem_cons]
  constructor
  · rintro (hs | rfl | hs)
    · exact .inr (.inl hs)
    · exact .inl rfl
    · exact .inr (.inr hs)
  · rintro (rfl | hs | hs)
    · exact .inr (.inl rfl)
    · exact .inl hs
    · exact .inr (.inr hs)

theorem mem_split_iff {i : Nat} {set : LineDataSet F} (h : sets[i]? = some set)
    (s : LineDataSet F) : s ∈ sets ↔ s = set ∨ s ∈ sets.eraseIdx i := by
  have hset : sets.set i set = sets := by
    obtain ⟨hi, rfl⟩ := List.getElem?_eq_some_iff.1 h
    exact List.set_getElem_self hi
  rw [← mem_set_iff h set s, hset]

theorem grown_set {i : Nat} {set t : LineDataSet F} {x : F} (h : sets[i]? = some set)
    (ht : t.mAxisDependency = set.mAxisDependency)
    (hvalues : ∀ v, v ∈ t.values ↔ v = x ∨ v ∈ set.values) :
    Grown sets (sets.set i t) set.mAxisDependency {x} := by
  intro q
  ext v
  simp only [valuesOn, Set.mem_ofPred_eq, Set.mem_singleton_iff]
  constructor
  · rintro ⟨s, hs, hq, hv⟩
    rcases (mem_set_iff h t s).1 hs with rfl | hs
    · rw [ht] at hq
      rcases (hvalues v).1 hv with rfl | hv
      · exact .inr ⟨hq, rfl⟩
      · exact .inl ⟨set, (mem_split_iff h set).2 (.inl rfl), hq, hv⟩
    · exact .inl ⟨s, (mem_split_iff h s).2 (.inr hs), hq, hv⟩
  · rintro (⟨s, hs, hq, hv⟩ | ⟨hq, rfl⟩)
    · rcases (mem_split_iff h s).1 hs with rfl | hs
      · exact ⟨t, (mem_set_iff h t t).2 (.inl rfl), ht ▸ hq, (hvalues v).2 (.inr hv)⟩
      · exact ⟨s, (mem_set_iff h t s).2 (.inr hs), hq, hv⟩
    · exact ⟨t, (mem_set_iff h t t).2 (.inl rfl), ht ▸ hq, (hvalues v).2 (.inl rfl)⟩

theorem total_set {i : Nat} {set : LineDataSet F} (h : sets[i]? = some set)
    (t : LineDataSet F) :
    total (sets.set i t) + set.mYVals.length = total sets + t.mYVals.length := by
  have hi := (List.getElem?_eq_some_iff.1 h).1
  have hsplit := congrArg total (split_at h)
  rw [List.set_eq_take_append_cons_drop, if_pos hi]
  simp only [total, List.map_append, List.map_cons, List.sum_append, List.sum_cons] at hsplit ⊢
  omega

theorem total_eraseIdx {i : Nat} {set : LineDataSet F} (h : sets[i]? = some set) :
    total (sets.eraseIdx i) + set.mYVals.length = total sets := by
  have hsplit := congrArg total (split_at h)
  rw [List.eraseIdx_eq_take_drop_succ]
  simp only [total, List.map_append, List.map_cons, List.sum_append, List.sum_cons] at hsplit ⊢
  omega

theorem length_le_total {set : LineDataSet F} (h : set ∈ sets) :
    set.mYVals.length ≤ total sets := by
  obtain ⟨i, hi⟩ := List.mem_iff_getElem?.1 h
  have htotal := total_eraseIdx hi
  omega

end Growing

/-! ## Adjusting the ranges -/

section Adjusting

variable {F : Type} [LinearOrder F] {d r : LineData F} {dependency : AxisDependency} {low high : F}
  {B : Set F}

/-- `r` has these ranges of all values and of an axis, and that of the other axis from `d`. -/
structure Moved (d r : LineData F) (dependency : AxisDependency) (low high axisLow axisHigh : F) :
    Prop where
  mYMin : r.mYMin = low
  mYMax : r.mYMax = high
  axisMin : r.getYMin dependency = axisLow
  axisMax : r.getYMax dependency = axisHigh
  others : ∀ other, other ≠ dependency →
    r.getYMin other = d.getYMin other ∧ r.getYMax other = d.getYMax other

/-- The ranges of all values and of an axis begin anew. -/
abbrev Begun (d r : LineData F) (dependency : AxisDependency) (low high : F) : Prop :=
  Moved d r dependency low high low high

/-- The ranges of all values and of an axis are widened. -/
abbrev Widened (d r : LineData F) (dependency : AxisDependency) (low high : F) : Prop :=
  Moved d r dependency (lower d.mYMin low) (raise d.mYMax high)
    (lower (d.getYMin dependency) low) (raise (d.getYMax dependency) high)

omit [LinearOrder F] in
theorem moved_setAxis (d : LineData F) (dependency : AxisDependency)
    (low high axisLow axisHigh : F) :
    Moved d ({ d with mYMin := low, mYMax := high }.setAxis dependency axisLow axisHigh) dependency
      low high axisLow axisHigh := by
  refine ⟨(setAxis_frame _ _ _ _).2.1, (setAxis_frame _ _ _ _).2.2.1, getYMin_setAxis,
    getYMax_setAxis, fun other hother => ?_⟩
  obtain ⟨hmin, hmax⟩ := setAxis_of_ne (d := { d with mYMin := low, mYMax := high }) hother
  rw [hmin, hmax]
  cases other <;> exact ⟨rfl, rfl⟩

theorem begun_adjust (d : LineData F) (dependency : AxisDependency) (low high : F) :
    Begun d (d.adjust true dependency low high) dependency low high := by
  rw [adjust, if_pos rfl]
  exact moved_setAxis d dependency low high low high

theorem widened_adjust (d : LineData F) (dependency : AxisDependency) (low high : F) :
    Widened d (d.adjust false dependency low high) dependency low high := by
  rw [adjust, if_neg Bool.false_ne_true]
  exact moved_setAxis d dependency _ _ _ _

theorem adjust_frame (d : LineData F) (isFirst : Bool) (dependency : AxisDependency)
    (low high : F) :
    (d.adjust isFirst dependency low high).mDataSets = d.mDataSets ∧
      (d.adjust isFirst dependency low high).mYValCount = d.mYValCount ∧
      (d.adjust isFirst dependency low high).mXVals = d.mXVals ∧
      (d.adjust isFirst dependency low high).mXValMaximumLength = d.mXValMaximumLength := by
  rw [adjust]
  split
  · obtain ⟨hsets, -, -, hcount, hlabels, hlength⟩ :=
      setAxis_frame { d with mYMin := low, mYMax := high } dependency low high
    exact ⟨hsets, hcount, hlabels, hlength⟩
  · obtain ⟨hsets, -, -, hcount, hlabels, hlength⟩ :=
      setAxis_frame { d with mYMin := lower d.mYMin low, mYMax := raise d.mYMax high } dependency
        (lower (d.getYMin dependency) low) (raise (d.getYMax dependency) high)
    exact ⟨hsets, hcount, hlabels, hlength⟩

omit [LinearOrder F] in
/-- An axis of a value has data sets. -/
theorem occupied_of_mem {sets : List (LineDataSet F)} {v : F}
    (h : v ∈ valuesOn (· = dependency) sets) : Occupied dependency sets := by
  obtain ⟨set, hset, hdep, -⟩ := h
  exact ⟨set, hset, hdep⟩

/-- Filling the axes without data sets changes no range that a value is to be within. -/
theorem covers_fillAxes (h : r.Covers) : r.fillAxes.Covers := by
  obtain ⟨hsets, hmin, hmax, -⟩ := fillAxes_frame r
  constructor
  · rw [hsets, hmin, hmax]
    exact h.whole
  · intro dependency v hv
    rw [hsets] at hv
    obtain ⟨haxisMin, haxisMax⟩ := fillAxes_of_occupied (occupied_of_mem hv)
    rw [haxisMin, haxisMax]
    exact h.axis dependency v hv

theorem covers_begun (hd : ∀ v, v ∉ valuesOn (fun _ => True) d.mDataSets)
    (hgrown : Grown d.mDataSets r.mDataSets dependency B)
    (hB : ∀ v ∈ B, low ≤ v ∧ v ≤ high) (hr : Begun d r dependency low high) :
    r.Covers := by
  constructor
  · intro v hv
    rw [hgrown] at hv
    rw [hr.mYMin, hr.mYMax]
    rcases hv with hv | ⟨-, hv⟩
    · -- there was no value before
      exact absurd hv (hd v)
    · exact hB v hv
  · intro other v hv
    rw [hgrown] at hv
    rcases hv with ⟨s, hs, -, hv⟩ | ⟨rfl, hv⟩
    · exact absurd ⟨s, hs, trivial, hv⟩ (hd v)
    · rw [hr.axisMin, hr.axisMax]
      exact hB v hv

theorem covers_widened (hd : d.Covers) (hgrown : Grown d.mDataSets r.mDataSets dependency B)
    (hB : ∀ v ∈ B, low ≤ v ∧ v ≤ high) (hr : Widened d r dependency low high) : r.Covers := by
  constructor
  · intro v hv
    rw [hgrown] at hv
    rw [hr.mYMin, hr.mYMax]
    -- a value that was there is within the old range, a new one between `low` and `high`
    rcases hv with hv | ⟨-, hv⟩
    · obtain ⟨hlow, hhigh⟩ := hd.whole v hv
      exact ⟨(lower_le_left _ _).trans hlow, hhigh.trans (le_raise_left _ _)⟩
    · obtain ⟨hlow, hhigh⟩ := hB v hv
      exact ⟨(lower_le_right _ _).trans hlow, hhigh.trans (le_raise_right _ _)⟩
  · intro other v hv
    rw [hgrown] at hv
    by_cases hother : other = dependency
    · subst hother
      rw [hr.axisMin, hr.axisMax]
      rcases hv with hv | ⟨-, hv⟩
      · obtain ⟨hlow, hhigh⟩ := hd.axis other v hv
        exact ⟨(lower_le_left _ _).trans hlow, hhigh.trans (le_raise_left _ _)⟩
      · obtain ⟨hlow, hhigh⟩ := hB v hv
        exact ⟨(lower_le_right _ _).trans hlow, hhigh.trans (le_raise_right _ _)⟩
    · -- nothing was added on the other axis, and its range is as before
      obtain ⟨hmin, hmax⟩ := hr.others other hother
      rw [hmin, hmax]
      rcases hv with hv | ⟨heq, -⟩
      · exact hd.axis other v hv
      · exact absurd heq.symm hother

end Adjusting

/-! ## Recalculating the ranges -/

section Recalculating

variable {F : Type} [LinearOrder F] {d r : LineData F} {sets ts : List (LineDataSet F)}
  {dependency : AxisDependency}

/-- The part of `calcMinMax` about one axis. -/
def scanAxis (d : LineData F) (dependency : AxisDependency) : LineData F :=
  match getFirst dependency d.mDataSets with
  | some first =>
      d.setAxis dependency (axisRange dependency first d.mDataSets).1
        (axisRange dependency first d.mDataSets).2
  | none => d

theorem scanAxis_frame (d : LineData F) (dependency : AxisDependency) :
    (d.scanAxis dependency).mDataSets = d.mDataSets ∧
      (d.scanAxis dependency).mYMin = d.mYMin ∧
      (d.scanAxis dependency).mYMax = d.mYMax ∧
      (d.scanAxis dependency).mYValCount = d.mYValCount ∧
      (d.scanAxis dependency).mXVals = d.mXVals ∧
      (d.scanAxis dependency).mXValMaximumLength = d.mXValMaximumLength := by
  rw [scanAxis]
  cases getFirst dependency d.mDataSets with
  | none => exact ⟨rfl, rfl, rfl, rfl, rfl, rfl⟩
  | some first => exact setAxis_frame _ _ _ _

theorem scanAxis_of_first {first : LineDataSet F}
    (h : getFirst dependency d.mDataSets = some first) :
    (d.scanAxis dependency).getYMin dependency = (axisRange dependency first d.mDataSets).1 ∧
      (d.scanAxis dependency).getYMax dependency = (axisRange dependency first d.mDataSets).2 := by
  rw [scanAxis, h]
  exact ⟨getYMin_setAxis, getYMax_setAxis⟩

theorem scanAxis_of_ne {other : AxisDependency} (h : other ≠ dependency) :
    (d.scanAxis dependency).getYMin other = d.getYMin other ∧
      (d.scanAxis dependency).getYMax other = d.getYMax other := by
  rw [scanAxis]
  cases getFirst dependency d.mDataSets with
  | none => exact ⟨rfl, rfl⟩
  | some first => exact setAxis_of_ne h

/-- Both axes are scanned, and then filled. -/
theorem calcAxes_eq (d : LineData F) :
    d.calcAxes = ((d.scanAxis .LEFT).scanAxis .RIGHT).fillAxes := by
  rw [fillAxes, (scanAxis_frame _ _).1, (scanAxis_frame _ _).1, scanAxis,
    (scanAxis_frame _ _).1, scanAxis, calcAxes]
  cases getFirst .LEFT d.mDataSets with
  | none =>
      cases getFirst .RIGHT d.mDataSets with
      | none => rfl
      | some first' => rfl
  | some first =>
      dsimp only
      cases getFirst .RIGHT d.mDataSets with
      | none => rfl
      | some first' => rfl

/-- An axis with data sets ends with their range. -/
theorem scanned_of_first {first : LineDataSet F}
    (h : getFirst dependency d.mDataSets = some first) :
    ((d.scanAxis .LEFT).scanAxis .RIGHT).getYMin dependency =
        (axisRange dependency first d.mDataSets).1 ∧
      ((d.scanAxis .LEFT).scanAxis .RIGHT).getYMax dependency =
        (axisRange dependency first d.mDataSets).2 := by
  cases dependency with
  | LEFT =>
      obtain ⟨hmin, hmax⟩ := scanAxis_of_ne (d := d.scanAxis .LEFT)
        (show AxisDependency.LEFT ≠ .RIGHT by decide)
      rw [hmin, hmax]
      exact scanAxis_of_first h
  | RIGHT =>
      have hsets := (scanAxis_frame d .LEFT).1
      rw [← hsets] at h ⊢
      exact scanAxis_of_first h

/-- The range of an axis reaches over those of the data sets on it. -/
theorem axisRange_le {set : LineDataSet F} (hset : set ∈ sets)
    (hdep : set.mAxisDependency = dependency) (first : LineDataSet F) :
    (axisRange dependency first sets).1 ≤ set.mYMin ∧
      set.mYMax ≤ (axisRange dependency first sets).2 := by
  have hmem : set ∈ sets.filter (·.mAxisDependency = dependency) :=
    List.mem_filter.2 ⟨hset, decide_eq_true hdep⟩
  rw [axisRange_eq]
  constructor
  · exact (isLeast_foldl_lower _ _).2 (.inr (List.mem_map_of_mem hmem))
  · exact (isGreatest_foldl_raise _ _).2 (.inr (List.mem_map_of_mem hmem))

variable [Zero F] [Neg F] {MAX_VALUE : F} {e : Nat}

/-- A scan up to `e` of data sets that are no longer. -/
theorem scanDataSets_tracks (hbounded : ∀ set ∈ sets, ∀ v ∈ set.values, Bounded MAX_VALUE v)
    (he : ∀ set ∈ sets, set.mYVals.length ≤ e) (mYMin mYMax : F) :
    ∃ ts, scanDataSets MAX_VALUE 0 e sets mYMin mYMax =
        .ok (ts, (ts.map (·.mYMin)).foldl lower mYMin, (ts.map (·.mYMax)).foldl raise mYMax) ∧
      List.Forall₂ LineDataSet.SameEntries sets ts ∧ ∀ t ∈ ts, t.Tracks MAX_VALUE := by
  induction sets generalizing mYMin mYMax with
  | nil => exact ⟨[], rfl, .nil, fun t ht => absurd ht List.not_mem_nil⟩
  | cons set rest ih =>
      obtain ⟨t, ht, hsame, htracks⟩ := tracks_calcMinMax MAX_VALUE set
        (hbounded set List.mem_cons_self) (he set List.mem_cons_self)
      -- the scan of the rest starts with the range that the first data set has widened
      obtain ⟨ts, hts, hsames, hall⟩ :=
        ih (fun s hs => hbounded s (List.mem_cons_of_mem _ hs))
          (fun s hs => he s (List.mem_cons_of_mem _ hs)) (lower mYMin t.mYMin)
          (raise mYMax t.mYMax)
      refine ⟨t :: ts, ?_, .cons hsame hsames, fun s hs => ?_⟩
      · rw [scanDataSets, ht]
        show scanDataSets MAX_VALUE 0 e rest (lower mYMin t.mYMin) (raise mYMax t.mYMax) >>= _ = _
        rw [hts]
        rfl
      · rcases List.mem_cons.1 hs with rfl | hs
        · exact htracks
        · exact hall s hs

omit [LinearOrder F] [Zero F] [Neg F] in
theorem ne_nil_of_mem_values {set : LineDataSet F} {v : F} (h : v ∈ set.values) :
    set.mYVals ≠ [] := by
  rintro hnil
  rw [LineDataSet.values, hnil] at h
  cases h

omit [Zero F] in
theorem mem_le_of_tracks {set : LineDataSet F} (h : set.Tracks MAX_VALUE) {v : F}
    (hv : v ∈ set.values) : set.mYMin ≤ v ∧ v ≤ set.mYMax := by
  have hranged := h.ranged (ne_nil_of_mem_values hv)
  exact ⟨hranged.least.2 hv, hranged.greatest.2 hv⟩

omit [Zero F] in
/-- Scanning the axes covers all values that the range of all values covers. -/
theorem covers_calcAxes (htracks : ∀ t ∈ d.mDataSets, t.Tracks MAX_VALUE)
    (hwhole : ∀ t ∈ d.mDataSets, t.mYVals ≠ [] → d.mYMin ≤ t.mYMin ∧ t.mYMax ≤ d.mYMax) :
    d.calcAxes.Covers := by
  have hsets : ((d.scanAxis .LEFT).scanAxis .RIGHT).mDataSets = d.mDataSets := by
    rw [(scanAxis_frame _ _).1, (scanAxis_frame _ _).1]
  rw [calcAxes_eq]
  refine covers_fillAxes ⟨?_, ?_⟩
  · rw [hsets, (scanAxis_frame _ _).2.1, (scanAxis_frame _ _).2.1, (scanAxis_frame _ _).2.2.1,
      (scanAxis_frame _ _).2.2.1]
    rintro v ⟨t, ht, -, hv⟩
    obtain ⟨hlow, hhigh⟩ := mem_le_of_tracks (htracks t ht) hv
    obtain ⟨hmin, hmax⟩ := hwhole t ht (ne_nil_of_mem_values hv)
    exact ⟨hmin.trans hlow, hhigh.trans hmax⟩
  · rw [hsets]
    rintro dependency v ⟨t, ht, hdep, hv⟩
    obtain ⟨hlow, hhigh⟩ := mem_le_of_tracks (htracks t ht) hv
    obtain ⟨first, hfirst⟩ := exists_getFirst ⟨t, ht, hdep⟩
    obtain ⟨haxisMin, haxisMax⟩ := scanned_of_first hfirst
    obtain ⟨hmin, hmax⟩ := axisRange_le ht hdep first
    rw [haxisMin, haxisMax]
    exact ⟨hmin.trans hlow, hhigh.trans hmax⟩

/-- What a recalculation of `d` leads to. -/
structure Recalculated (MAX_VALUE : F) (d r : LineData F) : Prop where
  same : List.Forall₂ LineDataSet.SameEntries d.mDataSets r.mDataSets
  tracks : ∀ t ∈ r.mDataSets, t.Tracks MAX_VALUE
  covers : r.Covers
  count : r.mYValCount = d.mYValCount
  xVals : r.mXVals = d.mXVals
  length : r.mXValMaximumLength = d.mXValMaximumLength

omit [Zero F] in
theorem recalculated_nil {low high : F} (h : d.mDataSets = []) :
    Recalculated MAX_VALUE d { d with mYMin := low, mYMax := high } := by
  have hnone : ∀ set, set ∉ d.mDataSets := by
    intro set hset
    rw [h] at hset
    cases hset
  refine ⟨?_, fun t ht => absurd ht (hnone t), ⟨?_, ?_⟩, rfl, rfl, rfl⟩
  · exact List.forall₂_same.2 fun set _ => ⟨rfl, rfl, rfl⟩
  · rintro v ⟨set, hset, -⟩
    exact absurd hset (hnone set)
  · rintro dependency v ⟨set, hset, -⟩
    exact absurd hset (hnone set)

/-- Recalculating up to an end that no data set is longer than. -/
theorem recalculated (hbounded : ∀ set ∈ d.mDataSets, ∀ v ∈ set.values, Bounded MAX_VALUE v)
    (he : ∀ set ∈ d.mDataSets, set.mYVals.length ≤ e) :
    ∃ r, d.calcMinMax MAX_VALUE 0 e = .ok r ∧ Recalculated MAX_VALUE d r := by
  by_cases hempty : d.mDataSets = []
  · refine ⟨{ d with mYMin := 0, mYMax := 0 }, ?_, recalculated_nil hempty⟩
    rw [calcMinMax, if_pos (by rw [hempty]; exact Nat.one_pos)]
    rfl
  obtain ⟨ts, hscan, hsame, htracks⟩ := scanDataSets_tracks hbounded he MAX_VALUE (-MAX_VALUE)
  have hsize : ¬ d.mDataSets.length < 1 := by
    have := List.length_pos_iff.2 hempty
    omega
  -- the scan starts at `MAX_VALUE`, which is above every value
  have hlow : ∀ t ∈ ts, (ts.map (·.mYMin)).foldl lower MAX_VALUE ≤ t.mYMin :=
    fun t ht => (isLeast_foldl_lower _ _).2 (.inr (List.mem_map_of_mem ht))
  have hhigh : ∀ t ∈ ts, t.mYMax ≤ (ts.map (·.mYMax)).foldl raise (-MAX_VALUE) :=
    fun t ht => (isGreatest_foldl_raise _ _).2 (.inr (List.mem_map_of_mem ht))
  have hfound : ∀ t ∈ ts, t.mYVals ≠ [] →
      (ts.map (·.mYMin)).foldl lower MAX_VALUE ≠ MAX_VALUE := by
    intro t ht hne
    have hmin := ((htracks t ht).ranged hne).least.1
    exact ne_of_lt (lt_of_le_of_lt (hlow t ht) ((htracks t ht).bounded _ hmin).2)
  have hends : ∃ low high,
      d.calcMinMax MAX_VALUE 0 e =
          .ok { d with mDataSets := ts, mYMin := low, mYMax := high }.calcAxes ∧
        ((∃ t ∈ ts, t.mYVals ≠ []) → low = (ts.map (·.mYMin)).foldl lower MAX_VALUE ∧
          high = (ts.map (·.mYMax)).foldl raise (-MAX_VALUE)) := by
    by_cases hstart : (ts.map (·.mYMin)).foldl lower MAX_VALUE = MAX_VALUE
    · refine ⟨0, 0, ?_, ?_⟩
      · rw [calcMinMax, if_neg hsize, hscan]
        exact if_pos hstart
      · rintro ⟨t, ht, hne⟩
        exact absurd hstart (hfound t ht hne)
    · refine ⟨_, _, ?_, fun _ => ⟨rfl, rfl⟩⟩
      rw [calcMinMax, if_neg hsize, hscan]
      exact if_neg hstart
  obtain ⟨low, high, hcalc, hrange⟩ := hends
  obtain ⟨hxVals, hsets, -⟩ :=
    calcAxes_frame { d with mDataSets := ts, mYMin := low, mYMax := high }
  refine ⟨_, hcalc, ?_⟩
  constructor
  · rw [hsets]
    exact hsame
  · rw [hsets]
    exact htracks
  · refine covers_calcAxes htracks fun t ht hne => ?_
    obtain ⟨rfl, rfl⟩ := hrange ⟨t, ht, hne⟩
    exact ⟨hlow t ht, hhigh t ht⟩
  · rw [calcAxes_eq, (fillAxes_frame _).2.2.2.1, (scanAxis_frame _ _).2.2.2.1,
      (scanAxis_frame _ _).2.2.2.1]
  · exact hxVals
  · rw [calcAxes_eq, (fillAxes_frame _).2.2.2.2.2, (scanAxis_frame _ _).2.2.2.2.2,
      (scanAxis_frame _ _).2.2.2.2.2]

end Recalculating

/-! ## One change -/

section Changing

variable {F : Type} [LinearOrder F] {d r a : LineData F} {dependency : AxisDependency}
  {low high : F} {set : LineDataSet F}

omit [LinearOrder F] in
/-- The data sets, the count and the labels are not read for the range of an axis. -/
theorem getYMin_update (d : LineData F) (dependency : AxisDependency)
    (mDataSets : List (LineDataSet F)) (mYValCount : Nat) :
    { d with mDataSets, mYValCount }.getYMin dependency = d.getYMin dependency ∧
      { d with mDataSets, mYValCount }.getYMax dependency = d.getYMax dependency := by
  cases dependency <;> exact ⟨rfl, rfl⟩

omit [LinearOrder F] in
theorem Moved.update {low high axisLow axisHigh : F} (mDataSets mDataSets' : List (LineDataSet F))
    (mYValCount mYValCount' : Nat)
    (h : Moved { d with mDataSets, mYValCount } r dependency low high axisLow axisHigh) :
    Moved d { r with mDataSets := mDataSets', mYValCount := mYValCount' } dependency low high
      axisLow axisHigh := by
  refine ⟨h.mYMin, h.mYMax, ?_, ?_, fun other hother => ?_⟩
  · rw [(getYMin_update r dependency mDataSets' mYValCount').1]
    exact h.axisMin
  · rw [(getYMin_update r dependency mDataSets' mYValCount').2]
    exact h.axisMax
  · rw [(getYMin_update r other mDataSets' mYValCount').1,
      (getYMin_update r other mDataSets' mYValCount').2,
      ← (getYMin_update d other mDataSets mYValCount).1,
      ← (getYMin_update d other mDataSets mYValCount).2]
    exact h.others other hother

/-- What `addDataSet` and `addEntry` do before they fill the axes. -/
structure Adjusted (d a : LineData F) (isFirst : Prop) (dependency : AxisDependency)
    (low high : F) (mDataSets : List (LineDataSet F)) (mYValCount : Nat) : Prop where
  sets : a.mDataSets = mDataSets
  count : a.mYValCount = mYValCount
  xVals : a.mXVals = d.mXVals
  length : a.mXValMaximumLength = d.mXValMaximumLength
  begun : isFirst → Begun d a dependency low high
  widened : ¬ isFirst → Widened d a dependency low high

theorem adjusted (d : LineData F) (mDataSets : List (LineDataSet F)) (mYValCount : Nat)
    {isFirst : Bool} {P : Prop} (hfirst : isFirst = true ↔ P) (dependency : AxisDependency)
    (low high : F) {a : LineData F}
    (ha : a = { { d with mDataSets, mYValCount }.adjust isFirst dependency low high with
      mDataSets := a.mDataSets, mYValCount := a.mYValCount }) :
    Adjusted d a P dependency low high a.mDataSets a.mYValCount := by
  obtain ⟨-, -, hxVals, hlength⟩ :=
    adjust_frame { d with mDataSets, mYValCount } isFirst dependency low high
  refine ⟨rfl, rfl, ?_, ?_, fun h => ?_, fun h => ?_⟩
  · rw [ha]
    exact hxVals
  · rw [ha]
    exact hlength
  · rw [ha, hfirst.2 h]
    exact Moved.update mDataSets _ mYValCount _ (begun_adjust _ dependency low high)
  · rw [ha, Bool.eq_false_iff.2 (mt hfirst.1 h), Widened,
      ← (getYMin_update d dependency mDataSets mYValCount).1,
      ← (getYMin_update d dependency mDataSets mYValCount).2]
    exact Moved.update mDataSets _ mYValCount _ (widened_adjust _ dependency low high)

theorem Adjusted.congr {P : Prop} {mDataSets mDataSets' : List (LineDataSet F)} {n n' : Nat}
    (h : Adjusted d a P dependency low high mDataSets n) (hsets : mDataSets = mDataSets')
    (hn : n = n') : Adjusted d a P dependency low high mDataSets' n' := by
  subst hsets hn
  exact h

theorem addDataSet_eq (d : LineData F) (set : LineDataSet F) :
    ∃ a, d.addDataSet set = a.fillAxes ∧
      Adjusted d a (d.mDataSets = []) set.mAxisDependency set.mYMin set.mYMax
        (d.mDataSets ++ [set]) (d.mYValCount + set.mYVals.length) := by
  have hfirst : decide (d.mDataSets.length ≤ 0) = true ↔ d.mDataSets = [] := by
    rw [decide_eq_true_eq, Nat.le_zero, List.length_eq_zero_iff]
  obtain ⟨hsets, hcount, -⟩ := adjust_frame
    { d with mYValCount := d.mYValCount + set.mYVals.length } (decide (d.mDataSets.length ≤ 0))
    set.mAxisDependency set.mYMin set.mYMax
  refine ⟨_, rfl, ?_⟩
  refine Adjusted.congr (adjusted d d.mDataSets (d.mYValCount + set.mYVals.length) hfirst
    set.mAxisDependency set.mYMin set.mYMax rfl) (congrArg (· ++ [set]) hsets) hcount

theorem addEntry_eq (e : Entry F) {i : Nat} (h : d.mDataSets[i]? = some set) :
    ∃ a, d.addEntry e i = a.fillAxes ∧
      Adjusted d a (d.mYValCount = 0) set.mAxisDependency e.mVal e.mVal
        (d.mDataSets.set i (set.addEntry e)) (d.mYValCount + 1) := by
  have hfirst : decide (d.mYValCount = 0) = true ↔ d.mYValCount = 0 := decide_eq_true_iff
  obtain ⟨hsets, hcount, -⟩ := adjust_frame
    { d with mDataSets := d.mDataSets.set i (set.addEntry e) } (decide (d.mYValCount = 0))
    set.mAxisDependency e.mVal e.mVal
  rw [addEntry, h]
  refine ⟨_, rfl, ?_⟩
  exact Adjusted.congr (adjusted d (d.mDataSets.set i (set.addEntry e)) d.mYValCount hfirst
    set.mAxisDependency e.mVal e.mVal rfl) hsets (congrArg (· + 1) hcount)

end Changing

/-! ## Every sequence of changes -/

section Running

variable {F : Type} [LinearOrder F] [Zero F] [Neg F] {MAX_VALUE : F} {d r a : LineData F}
  {dependency : AxisDependency} {low high : F} {set : LineDataSet F}
  {sets ts : List (LineDataSet F)}

/-! ### Adding -/

omit [Zero F] [Neg F] in
theorem covers_added {P : Prop} {n : Nat} {B : Set F}
    (h : Adjusted d a P dependency low high sets n) (hcovers : d.Covers)
    (hgrown : Grown d.mDataSets sets dependency B) (hB : ∀ v ∈ B, low ≤ v ∧ v ≤ high)
    (hfirst : P → ∀ v, v ∉ valuesOn (fun _ => True) d.mDataSets) : a.fillAxes.Covers := by
  rw [← h.sets] at hgrown
  refine covers_fillAxes ?_
  by_cases hP : P
  · exact covers_begun (hfirst hP) hgrown hB (h.begun hP)
  · exact covers_widened hcovers hgrown hB (h.widened hP)

omit [Zero F] in
/-- The count and the labels after something has been added. -/
theorem counted_added {P : Prop} {n : Nat} (h : Adjusted d a P dependency low high sets n)
    (hd : d.Counted MAX_VALUE) (hn : n = total sets)
    (htracks : ∀ set ∈ sets, set.Tracks MAX_VALUE) : a.fillAxes.Counted MAX_VALUE := by
  obtain ⟨hsets, -, -, hcount, hxVals, hlength⟩ := fillAxes_frame a
  refine ⟨?_, ?_, ?_⟩
  · rw [hcount, hsets, h.count, h.sets, hn]
  · rw [hsets, h.sets]
    exact htracks
  · rw [hxVals, hlength, h.xVals, h.length]
    exact hd.labels

omit [Zero F] [Neg F] in
theorem addEntry_dependency (set : LineDataSet F) (e : Entry F) :
    (set.addEntry e).mAxisDependency = set.mAxisDependency := by
  rw [LineDataSet.addEntry, LineDataSet.widen]
  split <;> rfl

omit [LinearOrder F] [Zero F] [Neg F] in
/-- Without a count there are no values. -/
theorem not_mem_of_total (h : total sets = 0) (q : AxisDependency → Prop) (v : F) :
    v ∉ valuesOn q sets := by
  rintro ⟨set, hset, -, hv⟩
  have hlen := length_le_total hset
  have hpos : 0 < set.values.length := List.length_pos_of_mem hv
  rw [LineDataSet.values, List.length_map] at hpos
  omega

omit [Zero F] in
theorem addDataSet_keeps (hd : d.Counted MAX_VALUE) (hcovers : d.Covers)
    (hset : set.Tracks MAX_VALUE) :
    (d.addDataSet set).Counted MAX_VALUE ∧ (d.addDataSet set).Covers := by
  obtain ⟨a, heq, ha⟩ := addDataSet_eq d set
  rw [heq]
  constructor
  · refine counted_added ha hd ?_ fun s hs => ?_
    · rw [hd.count]
      simp [total]
    · rcases List.mem_append.1 hs with hs | hs
      · exact hd.tracks s hs
      · obtain rfl := List.mem_singleton.1 hs
        exact hset
  · refine covers_added ha hcovers (grown_concat _ _) (fun v hv => mem_le_of_tracks hset hv) ?_
    rintro hnil v ⟨s, hs, -⟩
    rw [hnil] at hs
    cases hs

omit [Zero F] in
theorem addEntry_keeps (hd : d.Counted MAX_VALUE) (hcovers : d.Covers) {e : Entry F}
    (he : Bounded MAX_VALUE e.mVal) (i : Nat) :
    (d.addEntry e i).Counted MAX_VALUE ∧ (d.addEntry e i).Covers := by
  cases hi : d.mDataSets[i]? with
  | none =>
      rw [addEntry, hi]
      exact ⟨hd, hcovers⟩
  | some set =>
      obtain ⟨a, heq, ha⟩ := addEntry_eq e hi
      have hgrown : Grown d.mDataSets (d.mDataSets.set i (set.addEntry e)) set.mAxisDependency
          {e.mVal} := grown_set hi (addEntry_dependency set e) (mem_values_concat e)
      have htotal := total_set hi (set.addEntry e)
      have hlength : (set.addEntry e).mYVals.length = set.mYVals.length + 1 :=
        List.length_append
      have hmem : set ∈ d.mDataSets := List.mem_of_getElem? hi
      rw [heq]
      constructor
      · refine counted_added ha hd ?_ fun s hs => ?_
        · rw [hd.count]
          omega
        · rcases (mem_set_iff hi _ s).1 hs with rfl | hs
          · exact tracks_added (hd.tracks set hmem) he (mem_values_concat e)
          · exact hd.tracks s ((mem_split_iff hi s).2 (.inr hs))
      · refine covers_added ha hcovers hgrown (fun v hv => ?_) fun hzero v => ?_
        · rw [Set.mem_singleton_iff.1 hv]
          exact ⟨le_refl _, le_refl _⟩
        · exact not_mem_of_total (hd.count.symm.trans hzero) _ v

/-! ### Removing -/

omit [LinearOrder F] [Zero F] [Neg F] in
theorem total_same (h : List.Forall₂ LineDataSet.SameEntries sets ts) : total ts = total sets := by
  induction h with
  | nil => rfl
  | cons hsame _ ih =>
      simp only [total, List.map_cons, List.sum_cons] at ih ⊢
      rw [ih, hsame.1]

omit [Zero F] in
theorem counted_recalculated (h : Recalculated MAX_VALUE d r)
    (hcount : d.mYValCount = total d.mDataSets)
    (hlabels : ∀ xVal ∈ d.mXVals, xVal.length ≤ d.mXValMaximumLength) :
    r.Counted MAX_VALUE := by
  refine ⟨?_, h.tracks, ?_⟩
  · rw [h.count, hcount, total_same h.same]
  · rw [h.xVals, h.length]
    exact hlabels

/-- The chart data with the data sets that are left. -/
abbrev left (d : LineData F) (sets : List (LineDataSet F)) : LineData F :=
  { d with mDataSets := sets, mYValCount := total sets }

/-- `d` has become `r` because something was removed, and `sets` are left: the ranges were
recalculated up to the count. A data set left without values keeps its range. -/
structure Removed (MAX_VALUE : F) (d r : LineData F) (sets : List (LineDataSet F)) : Prop where
  ranges : (d.left sets).calcMinMax MAX_VALUE 0 (total sets) = .ok r
  tracks : ∀ t ∈ sets, t.Tracks MAX_VALUE
  emptied : ∀ t ∈ sets, t.mYVals = [] →
    ∃ set ∈ d.mDataSets, t.mYMin = set.mYMin ∧ t.mYMax = set.mYMax

/-- What a removal leaves and answers. -/
inductive Removal (MAX_VALUE : F) (d : LineData F) :
    Except JavaException (LineData F × Bool) → Prop where
  | nothing : Removal MAX_VALUE d (.ok (d, false))
  | removed {r : LineData F} {sets : List (LineDataSet F)} (h : Removed MAX_VALUE d r sets) :
      Removal MAX_VALUE d (.ok (r, true))

theorem Removed.keeps (h : Removed MAX_VALUE d r sets) (hd : d.Counted MAX_VALUE) :
    r.Counted MAX_VALUE ∧ r.Covers := by
  obtain ⟨r', hr', hrecalculated⟩ := recalculated (d := d.left sets)
    (fun s hs => (h.tracks s hs).bounded) fun s hs => length_le_total hs
  obtain rfl := Except.ok.inj (h.ranges.symm.trans hr')
  exact ⟨counted_recalculated hrecalculated rfl hd.labels, hrecalculated.covers⟩

/-- Recalculating what is left ends without an exception. -/
theorem exists_removed (d : LineData F) (sets : List (LineDataSet F))
    (htracks : ∀ t ∈ sets, t.Tracks MAX_VALUE)
    (hemptied : ∀ t ∈ sets, t.mYVals = [] →
      ∃ set ∈ d.mDataSets, t.mYMin = set.mYMin ∧ t.mYMax = set.mYMax) :
    ∃ r, (d.left sets).calcMinMax MAX_VALUE 0 (total sets) = .ok r ∧
      Removed MAX_VALUE d r sets := by
  obtain ⟨r, hr, -⟩ := recalculated (d := d.left sets) (fun s hs => (htracks s hs).bounded)
    fun s hs => length_le_total hs
  exact ⟨r, hr, hr, htracks, hemptied⟩

theorem removal_removeDataSet (hd : d.Counted MAX_VALUE) (i : Nat) :
    Removal MAX_VALUE d (d.removeDataSet MAX_VALUE i) := by
  rw [removeDataSet]
  cases hi : d.mDataSets[i]? with
  | none => exact .nothing
  | some set =>
      have htotal := total_eraseIdx hi
      have hcount : d.mYValCount - set.mYVals.length = total (d.mDataSets.eraseIdx i) := by
        rw [hd.count]
        omega
      have hsub := List.eraseIdx_sublist d.mDataSets i
      obtain ⟨r, hr, hremoved⟩ := exists_removed d (d.mDataSets.eraseIdx i)
        (fun s hs => hd.tracks s (hsub.subset hs)) fun s hs _ => ⟨s, hsub.subset hs, rfl, rfl⟩
      dsimp only
      rw [hcount, hr]
      exact .removed hremoved

theorem removal_removeEntry (hd : d.Counted MAX_VALUE) (place i : Nat) :
    Removal MAX_VALUE d (d.removeEntry MAX_VALUE place i) := by
  rw [removeEntry]
  cases hi : d.mDataSets[i]? with
  | none => exact .nothing
  | some set =>
      have hmem : set ∈ d.mDataSets := List.mem_of_getElem? hi
      obtain ⟨t, ht, hsame, htracks⟩ := tracks_removeEntry (hd.tracks set hmem) place
      dsimp only
      rw [ht]
      by_cases hplace : place < set.mYVals.length
      · have htotal := total_set hi t
        have hle := length_le_total hmem
        have hlength : t.mYVals.length = set.mYVals.length - 1 := by
          rw [hsame.1]
          exact List.length_eraseIdx_of_lt hplace
        -- the data set has lost one value, and so has the count
        have hcount : d.mYValCount - 1 = total (d.mDataSets.set i t) := by
          rw [hd.count]
          omega
        have hothers : ∀ s ∈ d.mDataSets.eraseIdx i, s ∈ d.mDataSets :=
          fun s hs => (mem_split_iff hi s).2 (.inr hs)
        obtain ⟨r, hr, hremoved⟩ := exists_removed d (d.mDataSets.set i t)
          (fun s hs => by
            rcases (mem_set_iff hi _ s).1 hs with rfl | hs
            · exact htracks
            · exact hd.tracks s (hothers s hs))
          (fun s hs hempty => by
            rcases (mem_set_iff hi _ s).1 hs with rfl | hs
            · exact ⟨set, hmem, emptied_removeEntry ht hempty⟩
            · exact ⟨s, hothers s hs, rfl, rfl⟩)
        rw [decide_eq_true hplace]
        show Removal MAX_VALUE d (calcMinMax MAX_VALUE
          { d with mDataSets := d.mDataSets.set i t, mYValCount := d.mYValCount - 1 } 0
          (d.mYValCount - 1) >>= _)
        rw [hcount, hr]
        exact .removed hremoved
      · -- an object that is not one of the entries
        have hset : set.removeEntry MAX_VALUE place = .ok (set, false) := if_neg hplace
        obtain rfl : t = set := congrArg Prod.fst (Except.ok.inj (ht.symm.trans hset))
        have hsets : d.mDataSets.set i t = d.mDataSets := by
          obtain ⟨hlt, rfl⟩ := List.getElem?_eq_some_iff.1 hi
          exact List.set_getElem_self hlt
        rw [decide_eq_false hplace]
        show Removal MAX_VALUE d (.ok ({ d with mDataSets := d.mDataSets.set i t }, false))
        rw [hsets]
        exact .nothing

theorem removal_removeEntryAt (hd : d.Counted MAX_VALUE) (xIndex : Int) (i : Nat) :
    Removal MAX_VALUE d (d.removeEntryAt MAX_VALUE xIndex i) := by
  rw [removeEntryAt]
  cases d.mDataSets[i]? with
  | none => exact .nothing
  | some set =>
      dsimp only
      cases set.getEntryForXIndex xIndex .CLOSEST with
      | none => exact .nothing
      | some e =>
          dsimp only
          split
          · exact .nothing
          · exact removal_removeEntry hd _ i

/-! ### Changing the labels and recalculating all -/

omit [Zero F] [Neg F] in
/-- The labels are not read for the ranges. -/
theorem covers_labels (h : d.Covers) (mXVals : List JavaString) (mXValMaximumLength : Nat) :
    Covers { d with mXVals, mXValMaximumLength } := by
  refine ⟨h.whole, fun dependency => ?_⟩
  cases dependency with
  | LEFT => exact h.axis .LEFT
  | RIGHT => exact h.axis .RIGHT

omit [LinearOrder F] [Zero F] [Neg F] in
theorem count_eq_total (sets : List (LineDataSet F)) (n : Nat) :
    sets.foldl (fun count set => count + set.mYVals.length) n = n + total sets := by
  induction sets generalizing n with
  | nil => rfl
  | cons set rest ih =>
      rw [List.foldl_cons, ih, total, total, List.map_cons, List.sum_cons, Nat.add_assoc]

/-- `init` throws before any change, or recalculates all. -/
theorem init_cases (MAX_VALUE : F) (d : LineData F) :
    (∃ ex, d.init MAX_VALUE = .error ex) ∨
      d.init MAX_VALUE = calcXValMaximumLength <$>
        (d.left d.mDataSets).calcMinMax MAX_VALUE 0 (total d.mDataSets) := by
  rw [init]
  cases d.checkLegal with
  | error ex => exact .inl ⟨ex, rfl⟩
  | ok _ =>
      have hcount : d.calcYValueCount = d.left d.mDataSets := by
        rw [calcYValueCount, count_eq_total, Nat.zero_add]
      right
      show calcMinMax MAX_VALUE d.calcYValueCount 0 d.calcYValueCount.mYValCount >>= _ = _
      rw [hcount]
      cases (d.left d.mDataSets).calcMinMax MAX_VALUE 0 (total d.mDataSets) <;> rfl

theorem init_keeps (hbounded : ∀ set ∈ d.mDataSets, ∀ v ∈ set.values, Bounded MAX_VALUE v) :
    (∃ ex, d.init MAX_VALUE = .error ex) ∨
      ∃ r, d.init MAX_VALUE = .ok r ∧ r.Counted MAX_VALUE ∧ r.Covers := by
  rcases init_cases MAX_VALUE d with herror | heq
  · exact .inl herror
  · obtain ⟨r, hr, h⟩ := recalculated (d := d.left d.mDataSets) (e := total d.mDataSets) hbounded
      fun s hs => length_le_total hs
    refine .inr ⟨r.calcXValMaximumLength, ?_, ⟨?_, h.tracks, fun xVal hx => ?_⟩,
      covers_labels h.covers _ _⟩
    · rw [heq, hr]
      rfl
    · show r.mYValCount = total r.mDataSets
      rw [h.count]
      exact (total_same h.same).symm
    · exact (isGreatest_foldl_raise 1 (r.mXVals.map List.length)).2
        (.inr (List.mem_map_of_mem hx))

/-- A change ends with the count kept and the values covered, or throws. -/
theorem change_keeps (hd : d.Counted MAX_VALUE) (hcovers : d.Covers) {c : Change F}
    (hc : d.Sound MAX_VALUE c) :
    (∃ ex, d.change MAX_VALUE c = .error ex) ∨
      ∃ r, d.change MAX_VALUE c = .ok r ∧ r.Counted MAX_VALUE ∧ r.Covers := by
  have hremoval : ∀ result, Removal MAX_VALUE d result →
      ∃ r, Prod.fst <$> result = .ok r ∧ r.Counted MAX_VALUE ∧ r.Covers := by
    intro result hresult
    cases hresult with
    | nothing => exact ⟨d, rfl, hd, hcovers⟩
    | removed h => exact ⟨_, rfl, h.keeps hd⟩
  cases c with
  | addDataSet set => exact .inr ⟨_, rfl, addDataSet_keeps hd hcovers hc⟩
  | removeDataSet index => exact .inr (hremoval _ (removal_removeDataSet hd index))
  | addEntry e dataSetIndex => exact .inr ⟨_, rfl, addEntry_keeps hd hcovers hc dataSetIndex⟩
  | removeEntry place dataSetIndex =>
      exact .inr (hremoval _ (removal_removeEntry hd place dataSetIndex))
  | removeEntryAt xIndex dataSetIndex =>
      exact .inr (hremoval _ (removal_removeEntryAt hd xIndex dataSetIndex))
  | setXVals xVals =>
      exact .inr ⟨_, rfl, ⟨hd.count, hd.tracks, hc⟩, covers_labels hcovers _ _⟩
  | addXValue xVal =>
      refine .inr ⟨_, rfl, ⟨hd.count, hd.tracks, fun x hx => ?_⟩, covers_labels hcovers _ _⟩
      rcases List.mem_append.1 hx with hx | hx
      · exact (hd.labels x hx).trans (le_raise_left _ _)
      · obtain rfl := List.mem_singleton.1 hx
        exact le_raise_right _ _
  | removeXValue index =>
      rw [change, removeXValue]
      by_cases hindex : index < d.mXVals.length
      · rw [if_pos hindex]
        refine .inr ⟨_, rfl, ⟨hd.count, hd.tracks, fun x hx => ?_⟩, covers_labels hcovers _ _⟩
        exact hd.labels x ((List.eraseIdx_sublist _ _).subset hx)
      · rw [if_neg hindex]
        exact .inl ⟨_, rfl⟩
  -- both recalculate all, whatever the ranges and the count were
  | notifyDataChanged => exact init_keeps fun s hs => (hd.tracks s hs).bounded
  | clearValues => exact init_keeps fun s hs => absurd hs List.not_mem_nil

/-- In every run the count is kept and the values are covered. -/
theorem counted_of_run {xVals : List JavaString} {start : LineData F}
    (hnew : LineData.new MAX_VALUE xVals sets = .ok start)
    (hsets : ∀ set ∈ sets, ∀ v ∈ set.values, Bounded MAX_VALUE v) {cs : List (Change F)}
    (h : RunUnder (chart MAX_VALUE start) (fun d c => d.Sound MAX_VALUE c) cs d) :
    d.Counted MAX_VALUE ∧ d.Covers := by
  have hstart : start.Counted MAX_VALUE ∧ start.Covers := by
    rcases init_keeps (d := ⟨xVals, sets, 0, 0, 0, 0, 0, 0, 0, 0⟩) hsets with
      ⟨ex, herror⟩ | ⟨r, hr, hkept⟩
    · cases hnew.symm.trans herror
    · obtain rfl := Except.ok.inj (hnew.symm.trans hr)
      exact hkept
  refine h.invariant (I := fun d => d.Counted MAX_VALUE ∧ d.Covers) hstart ?_
  rintro d c r ⟨hcounted, hcovers⟩ hc hstep
  simp only [chart] at hstep
  rcases change_keeps hcounted hcovers hc with ⟨ex, herror⟩ | ⟨r', hr', hkept⟩
  · -- a change that throws leaves the data as they were
    rw [herror] at hstep
    obtain rfl := Option.some.inj hstep
    exact ⟨hcounted, hcovers⟩
  · rw [hr'] at hstep
    obtain rfl := Option.some.inj hstep
    exact hkept

/-- After any sequence of changes of new chart data, the count is the number of values, every data
set has its range, no label is longer than the greatest length, and every value is within the range
of all values and within that of its axis. -/
theorem covers_of_run {xVals : List JavaString} {start : LineData F}
    (hnew : LineData.new MAX_VALUE xVals sets = .ok start)
    (hsets : ∀ set ∈ sets, ∀ v ∈ set.values, Bounded MAX_VALUE v) {cs : List (Change F)}
    (h : RunUnder (chart MAX_VALUE start) (fun d c => d.Sound MAX_VALUE c) cs d) :
    d.Counted MAX_VALUE ∧ d.Covers :=
  counted_of_run hnew hsets h

/-- Values 0 and 100 on the left axis. -/
def leftSet : LineDataSet Int := ⟨[⟨0, 0⟩, ⟨100, 1⟩], "", .LEFT, 0, 100⟩

/-- Values 40 and 60 on the right axis. -/
def rightSet : LineDataSet Int := ⟨[⟨40, 0⟩, ⟨60, 1⟩], "", .RIGHT, 40, 60⟩

/-- Chart data with the first of them. -/
def leftChart : LineData Int := ⟨[[], []], [leftSet], 0, 100, 0, 100, 0, 100, 2, 1⟩

theorem new_leftChart : LineData.new 1000 [[], []] [leftSet] = .ok leftChart := by
  decide +kernel

theorem bounded_leftSet : ∀ v ∈ leftSet.values, Bounded 1000 v := by
  simp [leftSet, LineDataSet.values, Bounded]

theorem tracks_rightSet : rightSet.Tracks 1000 := by
  refine ⟨by simp [rightSet, LineDataSet.values, Bounded], fun _ => ⟨⟨?_, ?_⟩, ⟨?_, ?_⟩⟩⟩ <;>
    simp [rightSet, LineDataSet.values, lowerBounds, upperBounds]

/-- An entry, a data set on the other axis, and the removal of the first entry. -/
theorem covers_of_run_three : ∃ d : LineData Int,
    d.mYValCount = 4 ∧ d.mYMin = -5 ∧ d.Counted 1000 ∧ d.Covers := by
  obtain ⟨d, hd, hvalues⟩ := exists_run_of_exec (chart 1000 leftChart)
    [.addEntry ⟨-5, 2⟩ 0, .addDataSet rightSet, .removeEntryAt 0 0]
    (fun d => (d.mYValCount, d.mYMin)) (v := (4, (-5 : Int))) (by decide +kernel)
  have hrun := runUnder_of_forall (G := fun d c => LineData.Sound 1000 d c) hd (by
    rintro c hc s
    simp only [List.mem_cons, List.not_mem_nil, or_false] at hc
    rcases hc with rfl | rfl | rfl
    · exact ⟨by simp, by simp⟩
    · exact tracks_rightSet
    · exact trivial)
  have hsets : ∀ set ∈ [leftSet], ∀ v ∈ set.values, Bounded 1000 v := by
    simpa using bounded_leftSet
  exact ⟨d, congrArg Prod.fst hvalues, congrArg Prod.snd hvalues,
    covers_of_run new_leftChart hsets hrun⟩

end Running

end LineData

end IotClient.Chart.ChartData
