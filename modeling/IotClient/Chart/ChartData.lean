import Mathlib.Data.List.Forall2
import IotClient.Foundation.Extremes
import IotClient.Foundation.JavaText

/-!
# Line data and its range

The part of the chart library that a line chart's data goes through: `LineDataSet` scans its
entries for their range (`DataSet.calcMinMax`), and `LineData` checks the lengths of its data sets,
counts their values and scans the data sets for the range of all values and of each axis
(`ChartData.init`).

Values are exact ordered numbers, so no value is a NaN; `MAX_VALUE` is `Float.MAX_VALUE`, with which
the scans start.

* `calcMinMax_of_le`: the scan of a data set is given the count over all data sets as its end and
  ends at the last entry.
* `LineData.new_of_plottable`: line data on nonempty data sets, none longer than the labels, passes
  the length check, and its ranges are those of its values.
-/

set_option autoImplicit false

namespace IotClient.Chart.ChartData

open IotClient.Foundation.Extremes IotClient.Foundation.JavaText

/-- What the modelled methods may throw. -/
inductive JavaException where
  | illegalArgument (message : String)
  | indexOutOfBounds
  | stringIndexOutOfBounds
deriving DecidableEq, Repr

/-- `Entry`: a value and its index on the x-axis. -/
structure Entry (F : Type) where
  mVal : F
  mXIndex : Int
deriving DecidableEq, Repr

/-- `YAxis.AxisDependency`. -/
inductive AxisDependency where
  | LEFT
  | RIGHT
deriving DecidableEq, Repr

/-- `LineDataSet`: its entries, its label, its axis and the range of its values. -/
structure LineDataSet (F : Type) where
  mYVals : List (Entry F)
  mLabel : String
  mAxisDependency : AxisDependency
  mYMin : F
  mYMax : F
deriving DecidableEq

variable {F : Type} [LinearOrder F] [Zero F] [Neg F]

/-! ## The range of a data set -/

/-- The loop of `DataSet.calcMinMax` over the entries `i` to `endValue`. -/
def scanEntries (mYVals : List (Entry F)) (i endValue : Nat) (mYMin mYMax : F) :
    Except JavaException (F × F) :=
  if i ≤ endValue then
    match mYVals[i]? with
    | none => .error .indexOutOfBounds
    | some e => scanEntries mYVals (i + 1) endValue (lower mYMin e.mVal) (raise mYMax e.mVal)
  else .ok (mYMin, mYMax)
termination_by endValue + 1 - i

/-- `DataSet.calcMinMax`. -/
def LineDataSet.calcMinMax (MAX_VALUE : F) (set : LineDataSet F) (start e : Nat) :
    Except JavaException (LineDataSet F) := do
  let yValCount := set.mYVals.length
  if yValCount = 0 then return set
  let endValue := if e = 0 ∨ yValCount ≤ e then yValCount - 1 else e
  let (mYMin, mYMax) ← scanEntries set.mYVals start endValue MAX_VALUE (-MAX_VALUE)
  if mYMin = MAX_VALUE then
    return { set with mYMin := 0, mYMax := 0 }
  else
    return { set with mYMin := mYMin, mYMax := mYMax }

/-- The constructor of `LineDataSet`, through that of `DataSet`. -/
def LineDataSet.new (MAX_VALUE : F) (yVals : List (Entry F)) (label : String) :
    Except JavaException (LineDataSet F) :=
  LineDataSet.calcMinMax MAX_VALUE
    { mYVals := yVals, mLabel := label, mAxisDependency := .LEFT, mYMin := 0, mYMax := 0 }
    0 yVals.length

/-! ## The range of the line data -/

/-- `LineData`: the labels of the x-axis, the data sets, the ranges of all values and of the values
of each axis, the number of values, and the length of the longest label. -/
structure LineData (F : Type) where
  mXVals : List JavaString
  mDataSets : List (LineDataSet F)
  mYMin : F
  mYMax : F
  mLeftAxisMin : F
  mLeftAxisMax : F
  mRightAxisMin : F
  mRightAxisMax : F
  mYValCount : Nat
  mXValMaximumLength : Nat
deriving DecidableEq

/-- The loop of `ChartData.calcMinMax`: every data set is scanned, and its range widens the range
so far. -/
def scanDataSets (MAX_VALUE : F) (start e : Nat) :
    List (LineDataSet F) → F → F → Except JavaException (List (LineDataSet F) × F × F)
  | [], mYMin, mYMax => .ok ([], mYMin, mYMax)
  | set :: rest, mYMin, mYMax => do
      let set ← set.calcMinMax MAX_VALUE start e
      let (scanned, mYMin, mYMax) ←
        scanDataSets MAX_VALUE start e rest (lower mYMin set.mYMin) (raise mYMax set.mYMax)
      return (set :: scanned, mYMin, mYMax)

/-- `ChartData.getFirstLeft` and `ChartData.getFirstRight`. -/
def getFirst (dependency : AxisDependency) (sets : List (LineDataSet F)) :
    Option (LineDataSet F) :=
  sets.find? (·.mAxisDependency = dependency)

/-- The range of an axis: that of its first data set, widened by those of all data sets on it. -/
def axisRange (dependency : AxisDependency) (first : LineDataSet F)
    (sets : List (LineDataSet F)) : F × F :=
  sets.foldl
    (fun range dataSet =>
      if dataSet.mAxisDependency = dependency then
        (lower range.1 dataSet.mYMin, raise range.2 dataSet.mYMax)
      else range)
    (first.mYMin, first.mYMax)

namespace LineData

/-- `ChartData.handleEmptyAxis`. -/
def handleEmptyAxis (d : LineData F) (firstLeft firstRight : Option (LineDataSet F)) :
    LineData F :=
  match firstLeft, firstRight with
  | none, _ => { d with mLeftAxisMin := d.mRightAxisMin, mLeftAxisMax := d.mRightAxisMax }
  | some _, none => { d with mRightAxisMin := d.mLeftAxisMin, mRightAxisMax := d.mLeftAxisMax }
  | some _, some _ => d

/-- The part of `ChartData.calcMinMax` after its loop: the ranges of the two axes. -/
def calcAxes (d : LineData F) : LineData F :=
  let firstLeft := getFirst .LEFT d.mDataSets
  let d := match firstLeft with
    | some first =>
        { d with
          mLeftAxisMin := (axisRange .LEFT first d.mDataSets).1
          mLeftAxisMax := (axisRange .LEFT first d.mDataSets).2 }
    | none => d
  let firstRight := getFirst .RIGHT d.mDataSets
  let d := match firstRight with
    | some first =>
        { d with
          mRightAxisMin := (axisRange .RIGHT first d.mDataSets).1
          mRightAxisMax := (axisRange .RIGHT first d.mDataSets).2 }
    | none => d
  d.handleEmptyAxis firstLeft firstRight

/-- `ChartData.calcMinMax`. -/
def calcMinMax (MAX_VALUE : F) (d : LineData F) (start e : Nat) :
    Except JavaException (LineData F) := do
  if d.mDataSets.length < 1 then return { d with mYMin := 0, mYMax := 0 }
  let (sets, mYMin, mYMax) ←
    scanDataSets MAX_VALUE start e d.mDataSets MAX_VALUE (-MAX_VALUE)
  if mYMin = MAX_VALUE then
    return { d with mDataSets := sets, mYMin := 0, mYMax := 0 }.calcAxes
  else
    return { d with mDataSets := sets, mYMin := mYMin, mYMax := mYMax }.calcAxes

/-- `ChartData.checkLegal`. -/
def checkLegal (d : LineData F) : Except JavaException Unit :=
  if d.mDataSets.any (fun set => d.mXVals.length < set.mYVals.length) then
    .error (.illegalArgument ("One or more of the DataSet Entry arrays are longer than the " ++
      "x-values array of this ChartData object."))
  else .ok ()

/-- `ChartData.calcYValueCount`. -/
def calcYValueCount (d : LineData F) : LineData F :=
  { d with mYValCount := d.mDataSets.foldl (fun count set => count + set.mYVals.length) 0 }

/-- `ChartData.calcXValMaximumLength`. -/
def calcXValMaximumLength (d : LineData F) : LineData F :=
  { d with mXValMaximumLength := (d.mXVals.map List.length).foldl raise 1 }

/-- `ChartData.init`. -/
def init (MAX_VALUE : F) (d : LineData F) : Except JavaException (LineData F) := do
  d.checkLegal
  let d := d.calcYValueCount
  let d ← d.calcMinMax MAX_VALUE 0 d.mYValCount
  return d.calcXValMaximumLength

/-- The constructor of `LineData`, through that of `ChartData`. -/
def new (MAX_VALUE : F) (xVals : List JavaString) (sets : List (LineDataSet F)) :
    Except JavaException (LineData F) :=
  init MAX_VALUE
    { mXVals := xVals, mDataSets := sets, mYMin := 0, mYMax := 0, mLeftAxisMin := 0,
      mLeftAxisMax := 0, mRightAxisMin := 0, mRightAxisMax := 0, mYValCount := 0,
      mXValMaximumLength := 0 }

end LineData

/-! ## What a scan of one data set finds -/

/-- The values of a data set. -/
def LineDataSet.values (set : LineDataSet F) : List F := set.mYVals.map Entry.mVal

/-- A data set whose range is that of its values. -/
structure LineDataSet.Ranged (set : LineDataSet F) : Prop where
  least : IsLeast {v | v ∈ set.values} set.mYMin
  greatest : IsGreatest {v | v ∈ set.values} set.mYMax

/-- A data set that a chart can show: there are entries, and their values are smaller in magnitude
than `MAX_VALUE`. -/
structure LineDataSet.Plottable (MAX_VALUE : F) (set : LineDataSet F) : Prop where
  nonempty : set.mYVals ≠ []
  above : ∀ v ∈ set.values, -MAX_VALUE < v
  below : ∀ v ∈ set.values, v < MAX_VALUE

/-- `t` is `set` except for its range. -/
def LineDataSet.SameEntries (set t : LineDataSet F) : Prop :=
  t.mYVals = set.mYVals ∧ t.mLabel = set.mLabel ∧ t.mAxisDependency = set.mAxisDependency

omit [Zero F] in
theorem LineDataSet.Plottable.of_sameEntries {MAX_VALUE : F} {set t : LineDataSet F}
    (h : set.Plottable MAX_VALUE) (hsame : set.SameEntries t) : t.Plottable MAX_VALUE := by
  have hvalues : t.values = set.values := congrArg (List.map Entry.mVal) hsame.1
  refine ⟨?_, ?_, ?_⟩
  · rw [hsame.1]
    exact h.nonempty
  · rw [hvalues]
    exact h.above
  · rw [hvalues]
    exact h.below

omit [Zero F] [Neg F] in
/-- From the entry `i` the loop scans the rest of the entries. -/
theorem scanEntries_eq {mYVals : List (Entry F)} {endValue : Nat}
    (hend : mYVals.length = endValue + 1) (i : Nat) (mYMin mYMax : F) :
    scanEntries mYVals i endValue mYMin mYMax =
      .ok (((mYVals.drop i).map Entry.mVal).foldl lower mYMin,
        ((mYVals.drop i).map Entry.mVal).foldl raise mYMax) := by
  fun_induction scanEntries mYVals i endValue mYMin mYMax with
  | case1 i mYMin mYMax hi hnone =>
      have hlen : mYVals.length ≤ i := List.getElem?_eq_none_iff.1 hnone
      omega
  | case2 i mYMin mYMax hi e he ih =>
      obtain ⟨hlt, rfl⟩ := List.getElem?_eq_some_iff.1 he
      rw [ih, List.drop_eq_getElem_cons hlt, List.map_cons, List.foldl_cons, List.foldl_cons]
  | case3 i mYMin mYMax hi =>
      rw [List.drop_of_length_le (by omega)]
      rfl

/-- The scan of a plottable data set finds its range: an end of zero, or beyond the last entry, is
the last entry. -/
theorem LineDataSet.calcMinMax_of_le {MAX_VALUE : F} {set : LineDataSet F}
    (h : set.Plottable MAX_VALUE) {e : Nat} (he : set.mYVals.length ≤ e) :
    ∃ t, set.calcMinMax MAX_VALUE 0 e = .ok t ∧ set.SameEntries t ∧ t.Ranged := by
  have hpos : 0 < set.mYVals.length := List.length_pos_iff.2 h.nonempty
  have hne : set.values ≠ [] := fun hnil => h.nonempty (List.map_eq_nil_iff.1 hnil)
  have hend : set.mYVals.length = set.mYVals.length - 1 + 1 := by omega
  have hscan := scanEntries_eq hend 0 MAX_VALUE (-MAX_VALUE)
  rw [List.drop_zero] at hscan
  have hleast : IsLeast {v | v ∈ set.values} (set.values.foldl lower MAX_VALUE) :=
    isLeast_foldl_lower_of_lt hne h.below
  have hgreatest : IsGreatest {v | v ∈ set.values} (set.values.foldl raise (-MAX_VALUE)) :=
    isGreatest_foldl_raise_of_lt hne h.above
  refine ⟨{ set with
    mYMin := set.values.foldl lower MAX_VALUE
    mYMax := set.values.foldl raise (-MAX_VALUE) }, ?_, ⟨rfl, rfl, rfl⟩, ⟨hleast, hgreatest⟩⟩
  rw [LineDataSet.calcMinMax, if_neg (show ¬ set.mYVals.length = 0 by omega), if_pos (Or.inr he)]
  dsimp only
  rw [hscan]
  exact if_neg (h.below _ hleast.1).ne

/-- The constructor finds the range of its entries. -/
theorem LineDataSet.new_of_plottable {MAX_VALUE : F} {yVals : List (Entry F)} {label : String}
    (h : LineDataSet.Plottable MAX_VALUE ⟨yVals, label, .LEFT, 0, 0⟩) :
    ∃ t, LineDataSet.new MAX_VALUE yVals label = .ok t ∧
      LineDataSet.SameEntries ⟨yVals, label, .LEFT, 0, 0⟩ t ∧ t.Ranged :=
  LineDataSet.calcMinMax_of_le h (Nat.le_refl _)

/-! ## What the scan of all data sets finds -/

/-- The loop over the data sets scans each of them, and folds their ranges. -/
theorem scanDataSets_spec {MAX_VALUE : F} {e : Nat} {sets : List (LineDataSet F)}
    (hsets : ∀ set ∈ sets, set.Plottable MAX_VALUE ∧ set.mYVals.length ≤ e) (mYMin mYMax : F) :
    ∃ ts, scanDataSets MAX_VALUE 0 e sets mYMin mYMax =
        .ok (ts, (ts.map (·.mYMin)).foldl lower mYMin, (ts.map (·.mYMax)).foldl raise mYMax) ∧
      List.Forall₂ LineDataSet.SameEntries sets ts ∧
      ∀ t ∈ ts, t.Plottable MAX_VALUE ∧ t.Ranged := by
  induction sets generalizing mYMin mYMax with
  | nil =>
      refine ⟨[], rfl, .nil, ?_⟩
      intro t ht
      cases ht
  | cons set rest ih =>
      obtain ⟨hplot, hlen⟩ := hsets set List.mem_cons_self
      obtain ⟨t, ht, hsame, hranged⟩ := LineDataSet.calcMinMax_of_le hplot hlen
      -- the scan goes on with the range widened by this data set
      obtain ⟨ts, hts, hsames, hrangeds⟩ :=
        ih (fun s hs => hsets s (List.mem_cons_of_mem _ hs)) (lower mYMin t.mYMin)
          (raise mYMax t.mYMax)
      refine ⟨t :: ts, ?_, .cons hsame hsames, ?_⟩
      · rw [scanDataSets, ht]
        show scanDataSets MAX_VALUE 0 e rest (lower mYMin t.mYMin) (raise mYMax t.mYMax) >>= _ = _
        rw [hts]
        rfl
      · intro s hs
        rcases List.mem_cons.1 hs with rfl | hs
        · exact ⟨hplot.of_sameEntries hsame, hranged⟩
        · exact hrangeds s hs

omit [Zero F] [Neg F] in
/-- The range of an axis folds the ranges of the data sets on it. -/
theorem axisRange_eq (dependency : AxisDependency) (first : LineDataSet F)
    (sets : List (LineDataSet F)) :
    axisRange dependency first sets =
      (((sets.filter (·.mAxisDependency = dependency)).map (·.mYMin)).foldl lower first.mYMin,
        ((sets.filter (·.mAxisDependency = dependency)).map (·.mYMax)).foldl raise
          first.mYMax) := by
  rw [axisRange]
  generalize first.mYMin = low
  generalize first.mYMax = high
  induction sets generalizing low high with
  | nil => rfl
  | cons set rest ih =>
      rw [List.foldl_cons]
      by_cases hset : set.mAxisDependency = dependency
      · rw [if_pos hset, ih, List.filter_cons_of_pos (by simpa using hset)]
        rfl
      · rw [if_neg hset, ih, List.filter_cons_of_neg (by simpa using hset)]

/-- All values of some data sets. -/
def allValues (sets : List (LineDataSet F)) : Set F := {v | ∃ set ∈ sets, v ∈ set.values}

omit [LinearOrder F] [Zero F] [Neg F] in
theorem mem_of_getFirst {dependency : AxisDependency} {sets : List (LineDataSet F)}
    {first : LineDataSet F} (h : getFirst dependency sets = some first) :
    first ∈ sets.filter (·.mAxisDependency = dependency) := by
  rw [getFirst] at h
  have hpred := List.find?_some h
  exact List.mem_filter.2 ⟨List.mem_of_find?_eq_some h, hpred⟩

omit [Zero F] [Neg F] in
/-- The range of an axis with data sets on it is that of all their values. -/
theorem axisRange_of_ranged {dependency : AxisDependency} {sets : List (LineDataSet F)}
    (hsets : ∀ set ∈ sets, set.Ranged) {first : LineDataSet F}
    (hfirst : getFirst dependency sets = some first) :
    IsLeast (allValues (sets.filter (·.mAxisDependency = dependency)))
        (axisRange dependency first sets).1 ∧
      IsGreatest (allValues (sets.filter (·.mAxisDependency = dependency)))
        (axisRange dependency first sets).2 := by
  have hmem := mem_of_getFirst hfirst
  have hranged : ∀ set ∈ sets.filter (·.mAxisDependency = dependency), set.Ranged :=
    fun set hset => hsets set (List.mem_filter.1 hset).1
  rw [axisRange_eq]
  constructor
  · refine isLeast_parts (fun set hset => (hranged set hset).least) ?_
    exact isLeast_foldl_lower_of_mem (List.mem_map_of_mem hmem)
  · refine isGreatest_parts (fun set hset => (hranged set hset).greatest) ?_
    exact isGreatest_foldl_raise_of_mem (List.mem_map_of_mem hmem)

namespace LineData

/-- The ranges of the line data are those of the values of its data sets. -/
structure Ranged (d : LineData F) : Prop where
  least : IsLeast (allValues d.mDataSets) d.mYMin
  greatest : IsGreatest (allValues d.mDataSets) d.mYMax
  leftLeast : (∃ set ∈ d.mDataSets, set.mAxisDependency = .LEFT) →
    IsLeast (allValues (d.mDataSets.filter (·.mAxisDependency = .LEFT))) d.mLeftAxisMin
  leftGreatest : (∃ set ∈ d.mDataSets, set.mAxisDependency = .LEFT) →
    IsGreatest (allValues (d.mDataSets.filter (·.mAxisDependency = .LEFT))) d.mLeftAxisMax

omit [Zero F] in
/-- The range of all values, once every data set has its own. -/
theorem extremes_of_ranged {MAX_VALUE : F} {ts : List (LineDataSet F)} (hne : ts ≠ [])
    (hts : ∀ t ∈ ts, t.Plottable MAX_VALUE ∧ t.Ranged) :
    IsLeast (allValues ts) ((ts.map (·.mYMin)).foldl lower MAX_VALUE) ∧
      IsGreatest (allValues ts) ((ts.map (·.mYMax)).foldl raise (-MAX_VALUE)) := by
  constructor
  · refine isLeast_parts (fun t ht => (hts t ht).2.least) ?_
    refine isLeast_foldl_lower_of_lt (fun hnil => hne (List.map_eq_nil_iff.1 hnil)) ?_
    intro v hv
    obtain ⟨t, ht, rfl⟩ := List.mem_map.1 hv
    exact (hts t ht).1.below _ (hts t ht).2.least.1
  · refine isGreatest_parts (fun t ht => (hts t ht).2.greatest) ?_
    refine isGreatest_foldl_raise_of_lt (fun hnil => hne (List.map_eq_nil_iff.1 hnil)) ?_
    intro v hv
    obtain ⟨t, ht, rfl⟩ := List.mem_map.1 hv
    exact (hts t ht).1.above _ (hts t ht).2.greatest.1

omit [Zero F] [Neg F] in
theorem calcAxes_frame (d : LineData F) :
    d.calcAxes.mXVals = d.mXVals ∧ d.calcAxes.mDataSets = d.mDataSets ∧
      d.calcAxes.mYMin = d.mYMin ∧ d.calcAxes.mYMax = d.mYMax := by
  rw [calcAxes]
  cases hleft : getFirst .LEFT d.mDataSets with
  | none =>
      cases getFirst .RIGHT d.mDataSets with
      | none => simp [handleEmptyAxis]
      | some first => simp [handleEmptyAxis]
  | some first =>
      cases getFirst .RIGHT d.mDataSets with
      | none => simp [handleEmptyAxis]
      | some first' => simp [handleEmptyAxis]

omit [Zero F] [Neg F] in
/-- With a data set on the left axis, nothing after its own computation changes its range. -/
theorem calcAxes_left {d : LineData F} {first : LineDataSet F}
    (hfirst : getFirst .LEFT d.mDataSets = some first) :
    d.calcAxes.mLeftAxisMin = (axisRange .LEFT first d.mDataSets).1 ∧
      d.calcAxes.mLeftAxisMax = (axisRange .LEFT first d.mDataSets).2 := by
  rw [calcAxes]
  cases hright : getFirst .RIGHT d.mDataSets with
  | none => simp [handleEmptyAxis, hfirst, hright]
  | some first' => simp [handleEmptyAxis, hfirst, hright]

omit [LinearOrder F] [Zero F] [Neg F] in
theorem exists_getFirst {dependency : AxisDependency} {sets : List (LineDataSet F)}
    (h : ∃ set ∈ sets, set.mAxisDependency = dependency) :
    ∃ first, getFirst dependency sets = some first := by
  obtain ⟨set, hset, hdep⟩ := h
  rw [getFirst, ← Option.isSome_iff_exists, List.find?_isSome]
  exact ⟨set, hset, decide_eq_true hdep⟩

omit [Zero F] [Neg F] in
/-- Computing the axes completes the ranges. -/
theorem ranged_calcAxes {d : LineData F} (hsets : ∀ set ∈ d.mDataSets, set.Ranged)
    (hleast : IsLeast (allValues d.mDataSets) d.mYMin)
    (hgreatest : IsGreatest (allValues d.mDataSets) d.mYMax) : d.calcAxes.Ranged := by
  obtain ⟨-, hdata, hmin, hmax⟩ := calcAxes_frame d
  -- the axis is scanned from its first data set on
  have hleft : (∃ set ∈ d.mDataSets, set.mAxisDependency = .LEFT) →
      IsLeast (allValues (d.mDataSets.filter (·.mAxisDependency = .LEFT)))
          d.calcAxes.mLeftAxisMin ∧
        IsGreatest (allValues (d.mDataSets.filter (·.mAxisDependency = .LEFT)))
          d.calcAxes.mLeftAxisMax := by
    intro h
    obtain ⟨first, hfirst⟩ := exists_getFirst h
    obtain ⟨haxisMin, haxisMax⟩ := calcAxes_left hfirst
    rw [haxisMin, haxisMax]
    exact axisRange_of_ranged hsets hfirst
  refine ⟨?_, ?_, ?_, ?_⟩
  · rw [hdata, hmin]
    exact hleast
  · rw [hdata, hmax]
    exact hgreatest
  · rw [hdata]
    exact fun h => (hleft h).1
  · rw [hdata]
    exact fun h => (hleft h).2

/-- `ChartData.calcMinMax` up to the last value finds all ranges. -/
theorem calcMinMax_spec {MAX_VALUE : F} {d : LineData F} {e : Nat} (hne : d.mDataSets ≠ [])
    (hsets : ∀ set ∈ d.mDataSets, set.Plottable MAX_VALUE ∧ set.mYVals.length ≤ e) :
    ∃ r, d.calcMinMax MAX_VALUE 0 e = .ok r ∧ r.mXVals = d.mXVals ∧
      List.Forall₂ LineDataSet.SameEntries d.mDataSets r.mDataSets ∧ r.Ranged := by
  obtain ⟨ts, hscan, hsame, hts⟩ := scanDataSets_spec hsets MAX_VALUE (-MAX_VALUE)
  have hne' : ts ≠ [] := by
    rintro rfl
    exact hne (List.forall₂_nil_right_iff.1 hsame)
  obtain ⟨hleast, hgreatest⟩ := extremes_of_ranged hne' hts
  -- the scan has met a value, so its minimum is no longer the one it started with
  have hlow : (ts.map (·.mYMin)).foldl lower MAX_VALUE ≠ MAX_VALUE := by
    obtain ⟨t, ht, hv⟩ := hleast.1
    exact ((hts t ht).1.below _ hv).ne
  have hsize : ¬ d.mDataSets.length < 1 := by
    have := List.length_pos_iff.2 hne
    omega
  refine ⟨{ d with
    mDataSets := ts
    mYMin := (ts.map LineDataSet.mYMin).foldl lower MAX_VALUE
    mYMax := (ts.map LineDataSet.mYMax).foldl raise (-MAX_VALUE) }.calcAxes, ?_, ?_, ?_, ?_⟩
  · rw [calcMinMax, if_neg hsize, hscan]
    exact if_neg hlow
  · exact (calcAxes_frame _).1
  · rw [(calcAxes_frame _).2.1]
    exact hsame
  · exact ranged_calcAxes (fun t ht => (hts t ht).2) hleast hgreatest

omit [LinearOrder F] [Zero F] [Neg F] in
/-- Counting never goes down, and counts every data set. -/
theorem le_count (sets : List (LineDataSet F)) (count : Nat) :
    count ≤ sets.foldl (fun count set => count + set.mYVals.length) count ∧
      ∀ set ∈ sets, set.mYVals.length ≤
        sets.foldl (fun count set => count + set.mYVals.length) count := by
  induction sets generalizing count with
  | nil =>
      refine ⟨Nat.le_refl _, ?_⟩
      intro set hset
      cases hset
  | cons set rest ih =>
      obtain ⟨hcount, hrest⟩ := ih (count + set.mYVals.length)
      rw [List.foldl_cons]
      refine ⟨by omega, ?_⟩
      intro s hs
      rcases List.mem_cons.1 hs with rfl | hs
      · omega
      · exact hrest s hs

/-- Line data on nonempty data sets that are no longer than the labels passes the length check, and
its ranges are those of its values. -/
theorem new_of_plottable {MAX_VALUE : F} {xVals : List JavaString} {sets : List (LineDataSet F)}
    (hne : sets ≠ []) (hsets : ∀ set ∈ sets, set.Plottable MAX_VALUE)
    (hlen : ∀ set ∈ sets, set.mYVals.length ≤ xVals.length) :
    ∃ d, new MAX_VALUE xVals sets = .ok d ∧ d.mXVals = xVals ∧
      List.Forall₂ LineDataSet.SameEntries sets d.mDataSets ∧ d.Ranged := by
  let start : LineData F :=
    { mXVals := xVals, mDataSets := sets, mYMin := 0, mYMax := 0, mLeftAxisMin := 0,
      mLeftAxisMax := 0, mRightAxisMin := 0, mRightAxisMax := 0, mYValCount := 0,
      mXValMaximumLength := 0 }
  have hlegal : start.checkLegal = .ok () := by
    rw [checkLegal]
    refine if_neg ?_
    rw [List.any_eq_true]
    rintro ⟨set, hset, hlong⟩
    exact absurd (of_decide_eq_true hlong) (not_lt.2 (hlen set hset))
  -- The end of every scan is the count over all data sets.
  have hcounted : ∀ set ∈ start.calcYValueCount.mDataSets, set.Plottable MAX_VALUE ∧
      set.mYVals.length ≤ start.calcYValueCount.mYValCount :=
    fun set hset => ⟨hsets set hset, (le_count sets 0).2 set hset⟩
  obtain ⟨r, hr, hxVals, hsame, hranged⟩ :=
    calcMinMax_spec (d := start.calcYValueCount) hne hcounted
  refine ⟨r.calcXValMaximumLength, ?_, hxVals, hsame, ?_⟩
  · show start.init MAX_VALUE = _
    rw [init, hlegal]
    show start.calcYValueCount.calcMinMax MAX_VALUE 0 start.calcYValueCount.mYValCount >>= _ = _
    rw [hr]
    rfl
  · exact ⟨hranged.least, hranged.greatest, hranged.leftLeast, hranged.leftGreatest⟩

end LineData

end IotClient.Chart.ChartData
