import IotClient.Chart.ChartData

/-!
# The seven-day chart

`ShowTempInfoActivity` shows the highest and the lowest temperature of the last days. When its
records have arrived, `onPostExecute` fills the labels and two series in three loops over the
records, and `LineChartManager.initDoubleLineChart` makes the line data of the chart from them.

* `addXValues_spec`, `addEntries_eq`: what the three loops fill in.
* `onPostExecute_covers`: the labels, the series and the ranges of the chart are those of the
  records, for any number of records.
-/

set_option autoImplicit false

namespace IotClient.Chart.SevenDays

open IotClient.Foundation.Extremes IotClient.Foundation.JavaText
open IotClient.Chart.ChartData

/-- `TempJson`: a day with its highest and its lowest temperature. -/
structure TempJson (F : Type) where
  newtime : JavaString
  tempmax : F
  tempmin : F
deriving DecidableEq

/-- The fields of `ShowTempInfoActivity` that the chart is made from, and the data of the chart. -/
structure Activity (F : Type) where
  tempJsonsList : List (TempJson F)
  xValues : List JavaString
  yValue : List (Entry F)
  yValue1 : List (Entry F)
  linchart_temp : Option (LineData F)

variable {F : Type}

/-- The activity when the task has received the records. -/
def Activity.received (tempJsonsList : List (TempJson F)) : Activity F :=
  ⟨tempJsonsList, [], [], [], none⟩

/-- `'-'`. -/
def dash : UInt16 := 45

/-- The loop over `tempJsonsList` that adds the labels. -/
def addXValues : List (TempJson F) → List JavaString → Except JavaException (List JavaString)
  | [], xValues => .ok xValues
  | tempJson :: rest, xValues =>
      let xvalue := remove dash tempJson.newtime
      match substring xvalue (xvalue.length - 2) xvalue.length with
      | some label => addXValues rest (xValues ++ [label])
      | none => .error .stringIndexOutOfBounds

/-- The loops that add the entries of a series; `getTemp` is `getTempmax` or `getTempmin`. -/
def addEntries (getTemp : TempJson F → F) (tempJsonsList : List (TempJson F)) (i : Nat)
    (yValue : List (Entry F)) : List (Entry F) :=
  if h : i < tempJsonsList.length then
    addEntries getTemp tempJsonsList (i + 1) (yValue ++ [⟨getTemp tempJsonsList[i], i⟩])
  else yValue
termination_by tempJsonsList.length - i

section Chart

variable [LinearOrder F] [Zero F] [Neg F]

/-- `LineChartManager.initDoubleLineChart`, up to the data it hands to the chart. -/
def initDoubleLineChart (MAX_VALUE : F) (lineName lineName1 : String) (xValues : List JavaString)
    (yValue yValue1 : List (Entry F)) : Except JavaException (LineData F) := do
  let dataSet ← LineDataSet.new MAX_VALUE yValue lineName
  let dataSet1 ← LineDataSet.new MAX_VALUE yValue1 lineName1
  LineData.new MAX_VALUE xValues [dataSet, dataSet1]

/-- `UploadTempMaxAsyncTask.onPostExecute`. -/
def onPostExecute (MAX_VALUE : F) (a : Activity F) (result : Bool) :
    Except JavaException (Activity F) := do
  if result then
    let xValues ← addXValues a.tempJsonsList a.xValues
    let yValue := addEntries TempJson.tempmax a.tempJsonsList 0 a.yValue
    let yValue1 := addEntries TempJson.tempmin a.tempJsonsList 0 a.yValue1
    let lineData ← initDoubleLineChart MAX_VALUE "最高温度" "最低温度" xValues yValue yValue1
    return { a with
      xValues := xValues, yValue := yValue, yValue1 := yValue1, linchart_temp := some lineData }
  else
    return a

end Chart

/-! ## The three loops -/

/-- The label of a record: the last two characters of its date without dashes. -/
def IsLabel (tempJson : TempJson F) (label : JavaString) : Prop :=
  label <:+ remove dash tempJson.newtime ∧ label.length = 2

/-- The first loop adds the label of each record. -/
theorem addXValues_spec {tempJsonsList : List (TempJson F)}
    (h : ∀ r ∈ tempJsonsList, 2 ≤ (remove dash r.newtime).length) (xValues : List JavaString) :
    ∃ labels, addXValues tempJsonsList xValues = .ok (xValues ++ labels) ∧
      List.Forall₂ IsLabel tempJsonsList labels := by
  induction tempJsonsList generalizing xValues with
  | nil =>
      refine ⟨[], ?_, .nil⟩
      rw [List.append_nil]
      rfl
  | cons r rest ih =>
      obtain ⟨label, hlabel, hsuffix, hlen⟩ := substring_last (h r List.mem_cons_self)
      obtain ⟨labels, hlabels, hall⟩ :=
        ih (fun r hr => h r (List.mem_cons_of_mem _ hr)) (xValues ++ [label])
      refine ⟨label :: labels, ?_, .cons ⟨hsuffix, hlen⟩ hall⟩
      rw [List.append_assoc, List.singleton_append] at hlabels
      unfold addXValues
      dsimp only
      rw [show ((2 : Nat) : Int) = 2 from rfl] at hlabel
      rw [hlabel]
      exact hlabels

/-- From the index `i` the other loops add the entries of the records left. -/
theorem addEntries_eq (getTemp : TempJson F → F) (tempJsonsList : List (TempJson F)) (i : Nat)
    (yValue : List (Entry F)) :
    addEntries getTemp tempJsonsList i yValue =
      yValue ++ (tempJsonsList.drop i).mapIdx fun k r => ⟨getTemp r, (i + k : Nat)⟩ := by
  fun_induction addEntries getTemp tempJsonsList i yValue with
  | case1 i yValue h ih =>
      rw [ih, List.drop_eq_getElem_cons h, List.mapIdx_cons, List.append_assoc]
      simp [Nat.add_assoc, Nat.add_comm 1]
  | case2 i yValue h =>
      rw [List.drop_of_length_le (not_lt.1 h)]
      simp

/-! ## The chart -/

/-- The entries of a series: one a record, in order. -/
def series (getTemp : TempJson F → F) (tempJsonsList : List (TempJson F)) : List (Entry F) :=
  tempJsonsList.mapIdx fun i r => ⟨getTemp r, i⟩

theorem addEntries_series (getTemp : TempJson F → F) (tempJsonsList : List (TempJson F)) :
    addEntries getTemp tempJsonsList 0 [] = series getTemp tempJsonsList := by
  rw [addEntries_eq, List.nil_append, List.drop_zero]
  simp only [Nat.zero_add, series]

theorem series_values (getTemp : TempJson F → F) (tempJsonsList : List (TempJson F)) :
    (series getTemp tempJsonsList).map Entry.mVal = tempJsonsList.map getTemp := by
  rw [series]
  apply List.ext_getElem?
  intro i
  rw [List.getElem?_map, List.getElem?_mapIdx, List.getElem?_map, Option.map_map]
  rfl

/-- All temperatures of the records. -/
def temperatures (tempJsonsList : List (TempJson F)) : Set F :=
  {v | ∃ r ∈ tempJsonsList, v = r.tempmax ∨ v = r.tempmin}

/-- All values of the two series are the temperatures of the records. -/
theorem allValues_series {tempJsonsList : List (TempJson F)} {t t1 : LineDataSet F}
    (ht : t.mYVals = series TempJson.tempmax tempJsonsList)
    (ht1 : t1.mYVals = series TempJson.tempmin tempJsonsList) :
    allValues [t, t1] = temperatures tempJsonsList := by
  have hmax : t.values = tempJsonsList.map TempJson.tempmax := by
    rw [LineDataSet.values, ht, series_values]
  have hmin : t1.values = tempJsonsList.map TempJson.tempmin := by
    rw [LineDataSet.values, ht1, series_values]
  ext v
  constructor
  · rintro ⟨set, hset, hv⟩
    rcases List.mem_pair.1 hset with rfl | rfl
    · rw [hmax] at hv
      obtain ⟨r, hr, rfl⟩ := List.mem_map.1 hv
      exact ⟨r, hr, Or.inl rfl⟩
    · rw [hmin] at hv
      obtain ⟨r, hr, rfl⟩ := List.mem_map.1 hv
      exact ⟨r, hr, Or.inr rfl⟩
  · rintro ⟨r, hr, rfl | rfl⟩
    · refine ⟨t, List.mem_pair.2 (Or.inl rfl), ?_⟩
      rw [hmax]
      exact List.mem_map_of_mem hr
    · refine ⟨t1, List.mem_pair.2 (Or.inr rfl), ?_⟩
      rw [hmin]
      exact List.mem_map_of_mem hr

section Chart

variable [LinearOrder F] [Zero F] [Neg F]

/-- The line data shows the records: a label for each, the two series, and as the range of all
values and of the left axis the least and the greatest of all temperatures. -/
structure Covers (tempJsonsList : List (TempJson F)) (data : LineData F) : Prop where
  labels : List.Forall₂ IsLabel tempJsonsList data.mXVals
  series : data.mDataSets.map LineDataSet.mYVals =
    [tempJsonsList.mapIdx fun i r => ⟨r.tempmax, i⟩,
      tempJsonsList.mapIdx fun i r => ⟨r.tempmin, i⟩]
  yMin : IsLeast (temperatures tempJsonsList) data.mYMin
  yMax : IsGreatest (temperatures tempJsonsList) data.mYMax
  leftMin : IsLeast (temperatures tempJsonsList) data.mLeftAxisMin
  leftMax : IsGreatest (temperatures tempJsonsList) data.mLeftAxisMax

theorem plottable_series {MAX_VALUE : F} {getTemp : TempJson F → F}
    {tempJsonsList : List (TempJson F)} (hne : tempJsonsList ≠ [])
    (h : ∀ r ∈ tempJsonsList, -MAX_VALUE < getTemp r ∧ getTemp r < MAX_VALUE) (label : String) :
    LineDataSet.Plottable MAX_VALUE ⟨series getTemp tempJsonsList, label, .LEFT, 0, 0⟩ := by
  have hvalues : LineDataSet.values ⟨series getTemp tempJsonsList, label, .LEFT, (0 : F), 0⟩ =
      tempJsonsList.map getTemp := series_values getTemp tempJsonsList
  refine ⟨?_, ?_, ?_⟩
  · exact fun hnil => hne (List.mapIdx_eq_nil_iff.1 hnil)
  · rw [hvalues]
    intro v hv
    obtain ⟨r, hr, rfl⟩ := List.mem_map.1 hv
    exact (h r hr).1
  · rw [hvalues]
    intro v hv
    obtain ⟨r, hr, rfl⟩ := List.mem_map.1 hv
    exact (h r hr).2

/-- The chart built from the two series covers their records. -/
theorem initDoubleLineChart_covers {MAX_VALUE : F} {tempJsonsList : List (TempJson F)}
    (hne : tempJsonsList ≠ [])
    (hmax : ∀ r ∈ tempJsonsList, -MAX_VALUE < r.tempmax ∧ r.tempmax < MAX_VALUE)
    (hmin : ∀ r ∈ tempJsonsList, -MAX_VALUE < r.tempmin ∧ r.tempmin < MAX_VALUE)
    {labels : List JavaString} (hlabels : List.Forall₂ IsLabel tempJsonsList labels)
    (lineName lineName1 : String) :
    ∃ data, initDoubleLineChart MAX_VALUE lineName lineName1 labels
        (series TempJson.tempmax tempJsonsList) (series TempJson.tempmin tempJsonsList) =
          .ok data ∧ Covers tempJsonsList data := by
  have hplot := plottable_series hne hmax lineName
  have hplot1 := plottable_series hne hmin lineName1
  obtain ⟨s, hs, hsame, -⟩ := LineDataSet.new_of_plottable hplot
  obtain ⟨s1, hs1, hsame1, -⟩ := LineDataSet.new_of_plottable hplot1
  have hlen : ∀ set ∈ [s, s1], set.mYVals.length ≤ labels.length := by
    intro set hset
    rw [← hlabels.length_eq]
    rcases List.mem_pair.1 hset with rfl | rfl
    · rw [hsame.1]
      exact List.length_mapIdx.le
    · rw [hsame1.1]
      exact List.length_mapIdx.le
  have hplots : ∀ set ∈ [s, s1], set.Plottable MAX_VALUE := by
    intro set hset
    rcases List.mem_pair.1 hset with rfl | rfl
    · exact hplot.of_sameEntries hsame
    · exact hplot1.of_sameEntries hsame1
  obtain ⟨data, hdata, hxVals, hsets, hranged⟩ :=
    LineData.new_of_plottable (List.cons_ne_nil s [s1]) hplots hlen
  -- The data sets of the line data are the two series, both on the left axis.
  obtain ⟨t, rest, ht, hrest, hdatasets⟩ := List.forall₂_cons_left_iff.1 hsets
  obtain ⟨t1, rest1, ht1, hrest1, rfl⟩ := List.forall₂_cons_left_iff.1 hrest
  obtain rfl := List.forall₂_nil_left_iff.1 hrest1
  have htvals : t.mYVals = series TempJson.tempmax tempJsonsList := ht.1.trans hsame.1
  have ht1vals : t1.mYVals = series TempJson.tempmin tempJsonsList := ht1.1.trans hsame1.1
  have htaxis : t.mAxisDependency = .LEFT := ht.2.2.trans hsame.2.2
  have ht1axis : t1.mAxisDependency = .LEFT := ht1.2.2.trans hsame1.2.2
  have hvalues : allValues data.mDataSets = temperatures tempJsonsList := by
    rw [hdatasets]
    exact allValues_series htvals ht1vals
  have hleft : data.mDataSets.filter (·.mAxisDependency = .LEFT) = data.mDataSets := by
    rw [hdatasets]
    simp [htaxis, ht1axis]
  have hexists : ∃ set ∈ data.mDataSets, set.mAxisDependency = .LEFT := by
    rw [hdatasets]
    exact ⟨t, List.mem_cons_self, htaxis⟩
  have hleast := hranged.leftLeast hexists
  have hgreatest := hranged.leftGreatest hexists
  rw [hleft, hvalues] at hleast hgreatest
  refine ⟨data, ?_, ?_⟩
  · rw [initDoubleLineChart, hs]
    show LineDataSet.new MAX_VALUE _ lineName1 >>= _ = _
    rw [hs1]
    exact hdata
  · refine ⟨?_, ?_, ?_, ?_, hleast, hgreatest⟩
    · rw [hxVals]
      exact hlabels
    · rw [hdatasets, List.map_cons, List.map_singleton, htvals, ht1vals]
      rfl
    · rw [← hvalues]
      exact hranged.least
    · rw [← hvalues]
      exact hranged.greatest

/-- The seven-day chart covers its data, for any number of records whose dates keep two characters
and whose temperatures are smaller in magnitude than `MAX_VALUE`: the task completes, and the chart
has the labels, the series and the ranges of the records. -/
theorem onPostExecute_covers (MAX_VALUE : F) (tempJsonsList : List (TempJson F))
    (hne : tempJsonsList ≠ [])
    (hnewtime : ∀ r ∈ tempJsonsList, 2 ≤ (remove dash r.newtime).length)
    (hmax : ∀ r ∈ tempJsonsList, -MAX_VALUE < r.tempmax ∧ r.tempmax < MAX_VALUE)
    (hmin : ∀ r ∈ tempJsonsList, -MAX_VALUE < r.tempmin ∧ r.tempmin < MAX_VALUE) :
    ∃ a data, onPostExecute MAX_VALUE (.received tempJsonsList) true = .ok a ∧
      a.linchart_temp = some data ∧ Covers tempJsonsList data := by
  obtain ⟨labels, hadd, hlabels⟩ := addXValues_spec hnewtime []
  rw [List.nil_append] at hadd
  obtain ⟨data, hdata, hcovers⟩ :=
    initDoubleLineChart_covers hne hmax hmin hlabels "最高温度" "最低温度"
  refine ⟨⟨tempJsonsList, labels, series TempJson.tempmax tempJsonsList,
    series TempJson.tempmin tempJsonsList, some data⟩, data, ?_, rfl, hcovers⟩
  unfold onPostExecute Activity.received
  rw [if_pos rfl]
  dsimp only
  rw [hadd, addEntries_series, addEntries_series]
  show initDoubleLineChart MAX_VALUE _ _ labels _ _ >>= _ = _
  rw [hdata]
  rfl

end Chart

/-- Two days, "08-01" with 31 and 24 degrees and "08-02" with 33 and 22 degrees. -/
def twoDays : List (TempJson Int) :=
  [⟨[48, 56, 45, 48, 49], 31, 24⟩, ⟨[48, 56, 45, 48, 50], 33, 22⟩]

/-- The chart of two days. -/
theorem twoDays_covered :
    ∃ a data, onPostExecute 1000 (.received twoDays) true = .ok a ∧
      a.linchart_temp = some data ∧ Covers twoDays data :=
  onPostExecute_covers 1000 twoDays (by decide) (by decide) (by decide) (by decide)

end IotClient.Chart.SevenDays
