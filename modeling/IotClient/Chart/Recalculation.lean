import IotClient.Chart.Updates

/-!
# When the ranges need no recalculation

`addDataSet` and `addEntry` adjust the ranges of the chart data to what is added, and do not look at
the data sets that are there. The ranges are exact when `calcMinMax` would leave them as they are.
`exact_of_run_iff` says which sequences of changes keep them exact throughout: three kinds of
additions do not, and every other change does.

A data set without values has a range too, that of a new data set or the one it had when it lost its
last entry, and `calcMinMax` reads it like any other.
-/

set_option autoImplicit false

namespace IotClient.Chart.ChartData

open IotClient.Foundation.Extremes IotClient.Foundation.JavaText IotClient.Foundation.Runs

/-- The scan of the data sets does not end at its start: the range of the data set begins below
`MAX_VALUE` and ends above `-MAX_VALUE`. -/
def LineDataSet.Limited {F : Type} [LinearOrder F] [Neg F] (MAX_VALUE : F)
    (set : LineDataSet F) : Prop :=
  set.mYMin < MAX_VALUE ∧ -MAX_VALUE < set.mYMax

namespace LineData

/-! ## What is to be exact -/

section Exactness

variable {F : Type} [LinearOrder F]

/-- The change is sound, and a data set that is added is limited. -/
def Proper [Neg F] (MAX_VALUE : F) (d : LineData F) (c : Change F) : Prop :=
  d.Sound MAX_VALUE c ∧ ∀ set, c = .addDataSet set → set.Limited MAX_VALUE

/-- A recalculation up to the count changes nothing. -/
def Exact [Zero F] [Neg F] (MAX_VALUE : F) (d : LineData F) : Prop :=
  d.calcMinMax MAX_VALUE 0 d.mYValCount = .ok d

/-- The ends `f` of the ranges of the data sets on the axes that `q` holds of. -/
def endsOn (f : LineDataSet F → F) (q : AxisDependency → Prop) (sets : List (LineDataSet F)) :
    Set F :=
  {x | ∃ set ∈ sets, q set.mAxisDependency ∧ f set = x}

/-- The value, or another data set on the axes that `q` holds of, reaches as far as the range of
`set` does. -/
structure Reaches (q : AxisDependency → Prop) (v : F) (set : LineDataSet F)
    (others : List (LineDataSet F)) : Prop where
  below : v ≤ set.mYMin ∨ ∃ x ∈ endsOn LineDataSet.mYMin q others, x ≤ set.mYMin
  above : set.mYMax ≤ v ∨ ∃ x ∈ endsOn LineDataSet.mYMax q others, set.mYMax ≤ x

/-- An addition keeps the ranges exact: a data set is the first one, or its axis has another, or it
reaches over the whole range so far; the first value of all is the range of every other data set; and
a value for a data set without values, when there are others, leaves the range of its axis no wider
than it has to be. -/
def Tight (d : LineData F) : Change F → Prop
  | .addDataSet set =>
      d.mDataSets = [] ∨ Occupied set.mAxisDependency d.mDataSets ∨
        (set.mYMin ≤ d.mYMin ∧ d.mYMax ≤ set.mYMax)
  | .addEntry e dataSetIndex =>
      ∀ set ∈ d.mDataSets[dataSetIndex]?,
        (d.mYValCount = 0 → ∀ other ∈ d.mDataSets.eraseIdx dataSetIndex,
          e.mVal ≤ other.mYMin ∧ other.mYMax ≤ e.mVal) ∧
        (d.mYValCount ≠ 0 → set.mYVals = [] →
          Reaches (· = set.mAxisDependency) e.mVal set (d.mDataSets.eraseIdx dataSetIndex))
  | _ => True

/-- The range over some data sets, from the least of their beginnings to the greatest of their
ends. -/
structure Hull (q : AxisDependency → Prop) (sets : List (LineDataSet F)) (low high : F) : Prop where
  least : IsLeast (endsOn LineDataSet.mYMin q sets) low
  greatest : IsGreatest (endsOn LineDataSet.mYMax q sets) high

/-- The ranges are those over the data sets. Without data sets they are zero, and the range of an
axis without data sets is that of all. -/
structure Spanned [Zero F] (d : LineData F) : Prop where
  empty : d.mDataSets = [] → d.mYMin = 0 ∧ d.mYMax = 0
  whole : d.mDataSets ≠ [] → Hull (fun _ => True) d.mDataSets d.mYMin d.mYMax
  axis : ∀ dependency, Occupied dependency d.mDataSets →
    Hull (· = dependency) d.mDataSets (d.getYMin dependency) (d.getYMax dependency)
  copied : ∀ dependency, d.mDataSets ≠ [] → ¬ Occupied dependency d.mDataSets →
    d.getYMin dependency = d.mYMin ∧ d.getYMax dependency = d.mYMax

end Exactness

/-! ## The range over some data sets -/

section Hulls

variable {F : Type} {f : LineDataSet F → F} {q : AxisDependency → Prop} {t : LineDataSet F}
  {sets others : List (LineDataSet F)} {dependency : AxisDependency}

theorem endsOn_of_mem_iff (h : ∀ s, s ∈ sets ↔ s = t ∨ s ∈ others) (hq : q t.mAxisDependency) :
    endsOn f q sets = insert (f t) (endsOn f q others) := by
  ext x
  constructor
  · rintro ⟨s, hs, hqs, rfl⟩
    rcases (h s).1 hs with rfl | hs
    · exact .inl rfl
    · exact .inr ⟨s, hs, hqs, rfl⟩
  · rintro (rfl | ⟨s, hs, hqs, rfl⟩)
    · exact ⟨t, (h t).2 (.inl rfl), hq, rfl⟩
    · exact ⟨s, (h s).2 (.inr hs), hqs, rfl⟩

theorem endsOn_of_not (h : ∀ s, s ∈ sets ↔ s = t ∨ s ∈ others) (hq : ¬ q t.mAxisDependency) :
    endsOn f q sets = endsOn f q others := by
  ext x
  constructor
  · rintro ⟨s, hs, hqs, rfl⟩
    rcases (h s).1 hs with rfl | hs
    · exact absurd hqs hq
    · exact ⟨s, hs, hqs, rfl⟩
  · rintro ⟨s, hs, hqs, rfl⟩
    exact ⟨s, (h s).2 (.inr hs), hqs, rfl⟩

theorem occupied_of_mem_iff (h : ∀ s, s ∈ sets ↔ s = t ∨ s ∈ others) :
    Occupied dependency sets ↔ t.mAxisDependency = dependency ∨ Occupied dependency others := by
  constructor
  · rintro ⟨s, hs, hdep⟩
    rcases (h s).1 hs with rfl | hs
    · exact .inl hdep
    · exact .inr ⟨s, hs, hdep⟩
  · rintro (hdep | ⟨s, hs, hdep⟩)
    · exact ⟨t, (h t).2 (.inl rfl), hdep⟩
    · exact ⟨s, (h s).2 (.inr hs), hdep⟩

theorem endsOn_eq_filter (f : LineDataSet F → F) (dependency : AxisDependency)
    (sets : List (LineDataSet F)) :
    endsOn f (· = dependency) sets =
      {x | x ∈ (sets.filter (·.mAxisDependency = dependency)).map f} := by
  ext x
  constructor
  · rintro ⟨s, hs, hdep, rfl⟩
    exact List.mem_map_of_mem (List.mem_filter.2 ⟨hs, decide_eq_true hdep⟩)
  · intro hx
    obtain ⟨s, hs, rfl⟩ := List.mem_map.1 hx
    obtain ⟨hs, hdep⟩ := List.mem_filter.1 hs
    exact ⟨s, hs, of_decide_eq_true hdep, rfl⟩

theorem endsOn_true (f : LineDataSet F → F) (sets : List (LineDataSet F)) :
    endsOn f (fun _ => True) sets = {x | x ∈ sets.map f} := by
  ext x
  constructor
  · rintro ⟨s, hs, -, rfl⟩
    exact List.mem_map_of_mem hs
  · intro hx
    obtain ⟨s, hs, rfl⟩ := List.mem_map.1 hx
    exact ⟨s, hs, trivial, rfl⟩

theorem endsOn_of_all (h : ∀ set ∈ sets, set.mAxisDependency = dependency) :
    endsOn f (· = dependency) sets = endsOn f (fun _ => True) sets := by
  ext x
  constructor
  · rintro ⟨s, hs, -, rfl⟩
    exact ⟨s, hs, trivial, rfl⟩
  · rintro ⟨s, hs, -, rfl⟩
    exact ⟨s, hs, h s hs, rfl⟩

variable [LinearOrder F] {low high low' high' : F}

theorem Hull.unique (h : Hull q sets low high) (h' : Hull q sets low' high') :
    low = low' ∧ high = high' :=
  ⟨h.least.unique h'.least, h.greatest.unique h'.greatest⟩

/-- An axis that all data sets are on has the range of all. -/
theorem Hull.of_all (h : Hull (· = dependency) sets low high)
    (hall : ∀ set ∈ sets, set.mAxisDependency = dependency) :
    Hull (fun _ => True) sets low high := by
  constructor
  · rw [← endsOn_of_all hall]
    exact h.least
  · rw [← endsOn_of_all hall]
    exact h.greatest

end Hulls

/-! ## Recalculating -/

section Recalculating

variable {F : Type} [LinearOrder F] {d r : LineData F} {sets : List (LineDataSet F)}
  {set t : LineDataSet F} {dependency : AxisDependency}

omit [LinearOrder F] in
/-- An axis without data sets is given the range of the other one. -/
theorem copied_fillAxes (d : LineData F) {other : AxisDependency}
    (hempty : ¬ Occupied dependency d.mDataSets) (hother : other ≠ dependency) :
    d.fillAxes.getYMin dependency = d.fillAxes.getYMin other ∧
      d.fillAxes.getYMax dependency = d.fillAxes.getYMax other := by
  rw [fillAxes]
  cases hleft : getFirst .LEFT d.mDataSets with
  | none => cases dependency <;> cases other <;> exact ⟨rfl, rfl⟩
  | some first =>
      cases dependency with
      | LEFT =>
          rw [getFirst_eq_none_iff.2 hempty] at hleft
          cases hleft
      | RIGHT =>
          rw [getFirst_eq_none_iff.2 hempty]
          cases other <;> exact ⟨rfl, rfl⟩

/-- Filling the axes completes the ranges, and changes none that there is. -/
theorem spanned_fillAxes_iff [Zero F] (hne : r.mDataSets ≠ []) :
    r.fillAxes.Spanned ↔
      Hull (fun _ => True) r.mDataSets r.mYMin r.mYMax ∧
        ∀ dependency, Occupied dependency r.mDataSets →
          Hull (· = dependency) r.mDataSets (r.getYMin dependency) (r.getYMax dependency) := by
  obtain ⟨hsets, hmin, hmax, -⟩ := fillAxes_frame r
  constructor
  · intro h
    constructor
    · have hwhole := h.whole (by rwa [hsets])
      rwa [hsets, hmin, hmax] at hwhole
    · intro dependency hocc
      have haxis := h.axis dependency (by rwa [hsets])
      rwa [hsets, (fillAxes_of_occupied hocc).1, (fillAxes_of_occupied hocc).2] at haxis
  · rintro ⟨hwhole, haxis⟩
    constructor
    · intro hnil
      rw [hsets] at hnil
      exact absurd hnil hne
    · intro _
      rw [hsets, hmin, hmax]
      exact hwhole
    · intro dependency hocc
      rw [hsets] at hocc ⊢
      rw [(fillAxes_of_occupied hocc).1, (fillAxes_of_occupied hocc).2]
      exact haxis dependency hocc
    · -- the other axis has all the data sets
      intro dependency _ hempty
      rw [hsets] at hempty
      obtain ⟨other, hother, hocc, hall⟩ := occupied_of_ne_nil hne hempty
      obtain ⟨hlow, hhigh⟩ := copied_fillAxes r hempty hother
      rw [hlow, hhigh, (fillAxes_of_occupied hocc).1, (fillAxes_of_occupied hocc).2, hmin, hmax]
      exact ((haxis other hocc).of_all hall).unique hwhole

/-- The scan of the axes finds the ranges over the data sets on them. -/
theorem hull_axisRange {first : LineDataSet F} (hfirst : getFirst dependency sets = some first) :
    Hull (· = dependency) sets (axisRange dependency first sets).1
      (axisRange dependency first sets).2 := by
  have hmem := mem_of_getFirst hfirst
  rw [axisRange_eq]
  constructor
  · rw [endsOn_eq_filter]
    exact isLeast_foldl_lower_of_mem (List.mem_map_of_mem hmem)
  · rw [endsOn_eq_filter]
    exact isGreatest_foldl_raise_of_mem (List.mem_map_of_mem hmem)

/-- With the range of all, scanning the axes completes the ranges. -/
theorem spanned_calcAxes [Zero F] (hne : d.mDataSets ≠ [])
    (hwhole : Hull (fun _ => True) d.mDataSets d.mYMin d.mYMax) : d.calcAxes.Spanned := by
  have hsets : ((d.scanAxis .LEFT).scanAxis .RIGHT).mDataSets = d.mDataSets := by
    rw [(scanAxis_frame _ _).1, (scanAxis_frame _ _).1]
  rw [calcAxes_eq, spanned_fillAxes_iff (by rwa [hsets]), hsets]
  constructor
  · rw [(scanAxis_frame _ _).2.1, (scanAxis_frame _ _).2.1, (scanAxis_frame _ _).2.2.1,
      (scanAxis_frame _ _).2.2.1]
    exact hwhole
  · intro dependency hocc
    obtain ⟨first, hfirst⟩ := exists_getFirst hocc
    rw [(scanned_of_first hfirst).1, (scanned_of_first hfirst).2]
    exact hull_axisRange hfirst

/-- The data sets, and so all that is spanned over them, leave one value for every range. -/
theorem Spanned.unique [Zero F] (hd : d.Spanned) (hr : r.Spanned) (hsets : r.mDataSets = d.mDataSets)
    (hne : d.mDataSets ≠ []) :
    (r.mYMin = d.mYMin ∧ r.mYMax = d.mYMax) ∧
      ∀ dependency, r.getYMin dependency = d.getYMin dependency ∧
        r.getYMax dependency = d.getYMax dependency := by
  have hne' : r.mDataSets ≠ [] := by rwa [hsets]
  have hwhole := hr.whole hne'
  rw [hsets] at hwhole
  obtain ⟨hmin, hmax⟩ := hwhole.unique (hd.whole hne)
  refine ⟨⟨hmin, hmax⟩, fun dependency => ?_⟩
  by_cases hocc : Occupied dependency d.mDataSets
  · have haxis := hr.axis dependency (by rwa [hsets])
    rw [hsets] at haxis
    exact haxis.unique (hd.axis dependency hocc)
  · obtain ⟨hrmin, hrmax⟩ := hr.copied dependency hne' (by rwa [hsets])
    obtain ⟨hdmin, hdmax⟩ := hd.copied dependency hne hocc
    rw [hrmin, hrmax, hdmin, hdmax]
    exact ⟨hmin, hmax⟩

variable [Zero F] [Neg F] {MAX_VALUE : F} {e : Nat}

/-- A data set that has its range keeps it when it is scanned. -/
theorem calcMinMax_of_tracks (h : set.Tracks MAX_VALUE) (he : set.mYVals.length ≤ e) :
    set.calcMinMax MAX_VALUE 0 e = .ok set := by
  by_cases hempty : set.mYVals = []
  · exact calcMinMax_of_nil MAX_VALUE hempty 0 e
  · obtain ⟨t, ht, ⟨hvals, hlabel, hdep⟩, htracks⟩ := tracks_calcMinMax MAX_VALUE set h.bounded he
    -- a range of values has one least and one greatest value, so the scan finds what is there
    have hset := h.ranged hempty
    have hscanned := htracks.ranged (by rwa [hvals])
    rw [ht]
    cases t with
    | mk mYVals mLabel mAxisDependency mYMin mYMax =>
        obtain rfl : mYVals = set.mYVals := hvals
        obtain rfl : mLabel = set.mLabel := hlabel
        obtain rfl : mAxisDependency = set.mAxisDependency := hdep
        obtain rfl : mYMin = set.mYMin := hscanned.least.unique hset.least
        obtain rfl : mYMax = set.mYMax := hscanned.greatest.unique hset.greatest
        rfl

theorem scanDataSets_of_tracks
    (h : ∀ set ∈ sets, set.Tracks MAX_VALUE ∧ set.mYVals.length ≤ e) (mYMin mYMax : F) :
    scanDataSets MAX_VALUE 0 e sets mYMin mYMax =
      .ok (sets, (sets.map (·.mYMin)).foldl lower mYMin,
        (sets.map (·.mYMax)).foldl raise mYMax) := by
  induction sets generalizing mYMin mYMax with
  | nil => rfl
  | cons set rest ih =>
      obtain ⟨htracks, hlength⟩ := h set List.mem_cons_self
      rw [scanDataSets, calcMinMax_of_tracks htracks hlength]
      show scanDataSets MAX_VALUE 0 e rest (lower mYMin set.mYMin) (raise mYMax set.mYMax) >>= _ = _
      rw [ih fun s hs => h s (List.mem_cons_of_mem _ hs)]
      rfl

omit [Neg F] in
theorem spanned_of_empty (h : d.mDataSets = []) (hmin : d.mYMin = 0) (hmax : d.mYMax = 0) :
    d.Spanned := by
  refine ⟨fun _ => ⟨hmin, hmax⟩, fun hne => absurd h hne, fun dependency hocc => ?_,
    fun dependency hne => absurd h hne⟩
  obtain ⟨set, hset, -⟩ := hocc
  rw [h] at hset
  cases hset

theorem calcMinMax_of_empty (h : d.mDataSets = []) :
    d.calcMinMax MAX_VALUE 0 e = .ok { d with mYMin := 0, mYMax := 0 } := by
  rw [calcMinMax, if_pos (by rw [h]; exact Nat.one_pos)]
  rfl

/-- A recalculation of data sets that have their ranges spans all ranges over them. -/
theorem spanned_calcMinMax (h : ∀ set ∈ d.mDataSets,
      set.Tracks MAX_VALUE ∧ set.Limited MAX_VALUE ∧ set.mYVals.length ≤ e) :
    ∃ r, d.calcMinMax MAX_VALUE 0 e = .ok r ∧ r.Spanned ∧ r.mDataSets = d.mDataSets := by
  by_cases hempty : d.mDataSets = []
  · exact ⟨_, calcMinMax_of_empty hempty, spanned_of_empty hempty rfl rfl, rfl⟩
  have hsize : ¬ d.mDataSets.length < 1 := by
    have := List.length_pos_iff.2 hempty
    omega
  have hscan := scanDataSets_of_tracks (fun set hset => ⟨(h set hset).1, (h set hset).2.2⟩)
    MAX_VALUE (-MAX_VALUE)
  have hhull : Hull (fun _ => True) d.mDataSets
      ((d.mDataSets.map (·.mYMin)).foldl lower MAX_VALUE)
      ((d.mDataSets.map (·.mYMax)).foldl raise (-MAX_VALUE)) := by
    constructor
    · rw [endsOn_true]
      refine isLeast_foldl_lower_of_lt (by simpa using hempty) fun x hx => ?_
      obtain ⟨set, hset, rfl⟩ := List.mem_map.1 hx
      exact (h set hset).2.1.1
    · rw [endsOn_true]
      refine isGreatest_foldl_raise_of_lt (by simpa using hempty) fun x hx => ?_
      obtain ⟨set, hset, rfl⟩ := List.mem_map.1 hx
      exact (h set hset).2.1.2
  -- the scan ends below its start, so the range is not set to zero
  have hfound : (d.mDataSets.map (·.mYMin)).foldl lower MAX_VALUE ≠ MAX_VALUE := by
    obtain ⟨set, hset, -, hmin⟩ := hhull.least.1
    rw [← hmin]
    exact (h set hset).2.1.1.ne
  refine ⟨_, ?_, spanned_calcAxes (d := { d with
    mYMin := (d.mDataSets.map (·.mYMin)).foldl lower MAX_VALUE
    mYMax := (d.mDataSets.map (·.mYMax)).foldl raise (-MAX_VALUE) }) hempty hhull,
    (calcAxes_frame _).2.1⟩
  rw [calcMinMax, if_neg hsize, hscan]
  exact if_neg hfound

/-- Exact ranges are those over the data sets. -/
theorem exact_iff_spanned (hd : d.Counted MAX_VALUE)
    (hlimited : ∀ set ∈ d.mDataSets, set.Limited MAX_VALUE) :
    d.Exact MAX_VALUE ↔ d.Spanned := by
  rw [Exact]
  have hlength : ∀ set ∈ d.mDataSets, set.mYVals.length ≤ d.mYValCount :=
    fun set hset => hd.count ▸ length_le_total hset
  obtain ⟨r, hr, hspanned, hsets⟩ := spanned_calcMinMax fun set hset =>
    ⟨hd.tracks set hset, hlimited set hset, hlength set hset⟩
  obtain ⟨r', hr', hrecalculated⟩ :=
    recalculated (fun set hset => (hd.tracks set hset).bounded) hlength
  obtain rfl := Except.ok.inj (hr.symm.trans hr')
  rw [hr]
  constructor
  · intro h
    rw [← Except.ok.inj h]
    exact hspanned
  · -- the recalculated ranges are spanned over the same data sets, and so they are the same
    intro h
    refine congrArg Except.ok ?_
    by_cases hempty : d.mDataSets = []
    · obtain ⟨hmin, hmax⟩ := h.empty hempty
      obtain rfl := Except.ok.inj (hr.symm.trans (calcMinMax_of_empty hempty))
      cases d with
      | mk =>
          dsimp only at hmin hmax ⊢
          rw [hmin, hmax]
    · obtain ⟨⟨hmin, hmax⟩, haxes⟩ := h.unique hspanned hsets hempty
      obtain ⟨hleftMin, hleftMax⟩ := haxes .LEFT
      obtain ⟨hrightMin, hrightMax⟩ := haxes .RIGHT
      have hxVals := hrecalculated.xVals
      have hcount := hrecalculated.count
      have hlen := hrecalculated.length
      cases d
      cases r
      rw [mk.injEq]
      exact ⟨hxVals, hsets, hmin, hmax, hleftMin, hleftMax, hrightMin, hrightMax, hcount, hlen⟩

end Recalculating

/-! ## Adding -/

section Adding

variable {F : Type} [LinearOrder F] {d a : LineData F} {sets sets' others : List (LineDataSet F)}
  {set t : LineDataSet F} {q : AxisDependency → Prop} {v low high : F}

/-- Another data set widens the range over those there are. -/
theorem Hull.insert (h : Hull q others low high) (hmem : ∀ s, s ∈ sets ↔ s = t ∨ s ∈ others)
    (hq : q t.mAxisDependency) : Hull q sets (lower low t.mYMin) (raise high t.mYMax) := by
  rw [lower_eq_min, raise_eq_max, min_comm, max_comm]
  constructor
  · rw [endsOn_of_mem_iff hmem hq]
    exact h.least.insert t.mYMin
  · rw [endsOn_of_mem_iff hmem hq]
    exact h.greatest.insert t.mYMax

theorem hull_of_not_iff (hmem : ∀ s, s ∈ sets ↔ s = t ∨ s ∈ others) (hq : ¬ q t.mAxisDependency) :
    Hull q sets low high ↔ Hull q others low high := by
  constructor
  · rintro ⟨hleast, hgreatest⟩
    rw [endsOn_of_not hmem hq] at hleast hgreatest
    exact ⟨hleast, hgreatest⟩
  · rintro ⟨hleast, hgreatest⟩
    rw [← endsOn_of_not hmem hq] at hleast hgreatest
    exact ⟨hleast, hgreatest⟩

/-- The range over one data set is its own. -/
theorem hull_alone_iff (hmem : ∀ s, s ∈ sets ↔ s = t ∨ s ∈ others) (hq : q t.mAxisDependency)
    (hnone : ∀ s ∈ others, ¬ q s.mAxisDependency) :
    Hull q sets low high ↔ low = t.mYMin ∧ high = t.mYMax := by
  have hends : ∀ f : LineDataSet F → F, endsOn f q sets = {f t} := by
    intro f
    have hempty : endsOn f q others = ∅ := Set.eq_empty_of_forall_notMem fun x hx => by
      obtain ⟨s, hs, hqs, -⟩ := hx
      exact hnone s hs hqs
    rw [endsOn_of_mem_iff hmem hq, hempty, insert_empty_eq]
  constructor
  · rintro ⟨hleast, hgreatest⟩
    rw [hends] at hleast hgreatest
    exact ⟨hleast.unique isLeast_singleton, hgreatest.unique isGreatest_singleton⟩
  · rintro ⟨rfl, rfl⟩
    constructor
    · rw [hends]
      exact isLeast_singleton
    · rw [hends]
      exact isGreatest_singleton

theorem addDataSet_spanned_iff [Zero F] (hd : d.Spanned) (set : LineDataSet F) :
    (d.addDataSet set).Spanned ↔ d.Tight (.addDataSet set) := by
  obtain ⟨a, heq, ha⟩ := addDataSet_eq d set
  have hmem : ∀ s, s ∈ a.mDataSets ↔ s = set ∨ s ∈ d.mDataSets := by
    intro s
    rw [ha.sets, List.mem_append, List.mem_singleton, or_comm]
  have hocc : ∀ dependency, Occupied dependency a.mDataSets ↔
      set.mAxisDependency = dependency ∨ Occupied dependency d.mDataSets :=
    fun _ => occupied_of_mem_iff hmem
  rw [heq, spanned_fillAxes_iff (List.ne_nil_of_mem ((hmem set).2 (.inl rfl)))]
  by_cases hfirst : d.mDataSets = []
  · -- the first data set is all there is
    have hnone : ∀ s, s ∉ d.mDataSets := fun s hs => by
      rw [hfirst] at hs
      cases hs
    have hbegun := ha.begun hfirst
    refine iff_of_true ⟨?_, fun dependency hdep => ?_⟩ (.inl hfirst)
    · exact (hull_alone_iff hmem trivial fun s hs => absurd hs (hnone s)).2
        ⟨hbegun.mYMin, hbegun.mYMax⟩
    · rcases (hocc dependency).1 hdep with rfl | ⟨s, hs, -⟩
      · exact (hull_alone_iff (q := (· = set.mAxisDependency)) hmem rfl
          fun s hs => absurd hs (hnone s)).2 ⟨hbegun.axisMin, hbegun.axisMax⟩
      · exact absurd hs (hnone s)
  have hwidened := ha.widened hfirst
  have hwhole := (hd.whole hfirst).insert hmem trivial
  -- without another data set, the axis had the range of all
  have hnew : ¬ Occupied set.mAxisDependency d.mDataSets →
      (Hull (· = set.mAxisDependency) a.mDataSets (a.getYMin set.mAxisDependency)
          (a.getYMax set.mAxisDependency) ↔
        set.mYMin ≤ d.mYMin ∧ d.mYMax ≤ set.mYMax) := by
    intro hempty
    obtain ⟨hmin, hmax⟩ := hd.copied _ hfirst hempty
    rw [hull_alone_iff (q := (· = set.mAxisDependency)) hmem rfl
      fun s hs hdep => hempty ⟨s, hs, hdep⟩, hwidened.axisMin, hwidened.axisMax, hmin, hmax,
      lower_eq_min, raise_eq_max, min_eq_right_iff, max_eq_right_iff]
  constructor
  · rintro ⟨-, haxis⟩
    right
    by_cases hold : Occupied set.mAxisDependency d.mDataSets
    · exact .inl hold
    · exact .inr ((hnew hold).1 (haxis _ ((hocc _).2 (.inl rfl))))
  · intro htight
    have htight := htight.resolve_left hfirst
    refine ⟨?_, fun dependency hdep => ?_⟩
    · rw [hwidened.mYMin, hwidened.mYMax]
      exact hwhole
    by_cases hsame : set.mAxisDependency = dependency
    · subst hsame
      by_cases hold : Occupied set.mAxisDependency d.mDataSets
      · rw [hwidened.axisMin, hwidened.axisMax]
        exact (hd.axis _ hold).insert hmem rfl
      · exact (hnew hold).2 (htight.resolve_left hold)
    · obtain ⟨hmin, hmax⟩ := hwidened.others dependency (Ne.symm hsame)
      rw [hmin, hmax, hull_of_not_iff hmem hsame]
      exact hd.axis dependency (((hocc dependency).1 hdep).resolve_left hsame)

theorem addEntry_of_nil (h : set.mYVals = []) (e : Entry F) :
    (set.addEntry e).mYMin = e.mVal ∧ (set.addEntry e).mYMax = e.mVal := by
  rw [LineDataSet.addEntry, LineDataSet.widen, if_pos (by rw [h, List.length_nil])]
  exact ⟨rfl, rfl⟩

theorem addEntry_of_ne_nil (h : set.mYVals ≠ []) (e : Entry F) :
    (set.addEntry e).mYMin = lower set.mYMin e.mVal ∧
      (set.addEntry e).mYMax = raise set.mYMax e.mVal := by
  rw [LineDataSet.addEntry, LineDataSet.widen, if_neg (mt List.eq_nil_of_length_eq_zero h)]
  exact ⟨rfl, rfl⟩

theorem mDataSets_addDataSet (d : LineData F) (set : LineDataSet F) :
    (d.addDataSet set).mDataSets = d.mDataSets ++ [set] := by
  obtain ⟨a, heq, ha⟩ := addDataSet_eq d set
  rw [heq, (fillAxes_frame a).1, ha.sets]

/-- A data set that is without values after an entry has been added is not the one it was added
to. -/
theorem mem_of_addEntry {e : Entry F} {i : Nat} (h : set ∈ (d.addEntry e i).mDataSets)
    (hempty : set.mYVals = []) : set ∈ d.mDataSets := by
  cases hi : d.mDataSets[i]? with
  | none =>
      rw [addEntry, hi] at h
      exact h
  | some old =>
      obtain ⟨a, heq, ha⟩ := addEntry_eq e hi
      rw [heq, (fillAxes_frame a).1, ha.sets] at h
      rcases (mem_set_iff hi _ set).1 h with rfl | h
      · exact absurd hempty (List.concat_ne_nil _ _)
      · exact (mem_split_iff hi set).2 (.inr h)

/-- `t` stands among `others` in the place of `set`. -/
structure Replaced (sets sets' others : List (LineDataSet F)) (set t : LineDataSet F) : Prop where
  old : ∀ s, s ∈ sets ↔ s = set ∨ s ∈ others
  new : ∀ s, s ∈ sets' ↔ s = t ∨ s ∈ others
  dependency : t.mAxisDependency = set.mAxisDependency

theorem replaced_addEntry {i : Nat} (h : sets[i]? = some set) (e : Entry F) :
    Replaced sets (sets.set i (set.addEntry e)) (sets.eraseIdx i) set (set.addEntry e) :=
  ⟨mem_split_iff h, mem_set_iff h _, addEntry_dependency set e⟩

omit [LinearOrder F] in
theorem Replaced.occupied_iff (h : Replaced sets sets' others set t) (dependency : AxisDependency) :
    Occupied dependency sets' ↔ Occupied dependency sets := by
  rw [occupied_of_mem_iff h.new, occupied_of_mem_iff h.old, h.dependency]

/-- The other axis keeps its range. -/
theorem Replaced.hull_of_ne (h : Replaced sets sets' others set t) {dependency : AxisDependency}
    (hne : dependency ≠ set.mAxisDependency) :
    Hull (· = dependency) sets' low high ↔ Hull (· = dependency) sets low high := by
  have hne' : ¬ t.mAxisDependency = dependency := h.dependency.symm ▸ Ne.symm hne
  rw [hull_of_not_iff (q := (· = dependency)) h.new hne',
    hull_of_not_iff (q := (· = dependency)) h.old (Ne.symm hne)]

/-- A further value widens the range over the data sets as it widens that of its own. -/
theorem Replaced.hull_lowered (h : Replaced sets sets' others set t) (hq : q set.mAxisDependency)
    (hmin : t.mYMin = lower set.mYMin v) (hmax : t.mYMax = raise set.mYMax v)
    (hhull : Hull q sets low high) : Hull q sets' (lower low v) (raise high v) := by
  obtain ⟨hleast, hgreatest⟩ := hhull
  rw [endsOn_of_mem_iff h.old hq] at hleast hgreatest
  have hq' : q t.mAxisDependency := h.dependency.symm ▸ hq
  constructor
  · rw [endsOn_of_mem_iff h.new hq', hmin]
    exact isLeast_insert_lower hleast v
  · rw [endsOn_of_mem_iff h.new hq', hmax]
    exact isGreatest_insert_raise hgreatest v

/-- The first value takes the place of the range that its data set had without values. -/
theorem Replaced.hull_refilled_iff (h : Replaced sets sets' others set t)
    (hq : q set.mAxisDependency) (hmin : t.mYMin = v) (hmax : t.mYMax = v)
    (hhull : Hull q sets low high) :
    Hull q sets' (lower low v) (raise high v) ↔ Reaches q v set others := by
  obtain ⟨hleast, hgreatest⟩ := hhull
  rw [endsOn_of_mem_iff h.old hq] at hleast hgreatest
  have hq' : q t.mAxisDependency := h.dependency.symm ▸ hq
  constructor
  · rintro ⟨hleast', hgreatest'⟩
    rw [endsOn_of_mem_iff h.new hq'] at hleast' hgreatest'
    rw [hmin, isLeast_insert_iff hleast] at hleast'
    rw [hmax, isGreatest_insert_iff hgreatest] at hgreatest'
    exact ⟨hleast', hgreatest'⟩
  · intro hreaches
    constructor
    · rw [endsOn_of_mem_iff h.new hq', hmin, isLeast_insert_iff hleast]
      exact hreaches.below
    · rw [endsOn_of_mem_iff h.new hq', hmax, isGreatest_insert_iff hgreatest]
      exact hreaches.above

omit [LinearOrder F] in
/-- What a data set on the axis reaches is reached among all. -/
theorem endsOn_subset (f : LineDataSet F → F) (q : AxisDependency → Prop)
    (sets : List (LineDataSet F)) : endsOn f q sets ⊆ endsOn f (fun _ => True) sets := by
  rintro x ⟨s, hs, -, rfl⟩
  exact ⟨s, hs, trivial, rfl⟩

theorem Reaches.all (h : Reaches q v set others) : Reaches (fun _ => True) v set others := by
  refine ⟨h.below.imp_right ?_, h.above.imp_right ?_⟩
  · rintro ⟨x, hx, hle⟩
    exact ⟨x, endsOn_subset _ _ _ hx, hle⟩
  · rintro ⟨x, hx, hle⟩
    exact ⟨x, endsOn_subset _ _ _ hx, hle⟩

/-- The first value of all is the range exactly of what it is the only value of. -/
theorem Replaced.hull_first_iff (h : Replaced sets sets' others set t) (hq : q set.mAxisDependency)
    (hmin : t.mYMin = v) (hmax : t.mYMax = v) :
    Hull q sets' v v ↔
      ∀ other ∈ others, q other.mAxisDependency → v ≤ other.mYMin ∧ other.mYMax ≤ v := by
  have hq' : q t.mAxisDependency := h.dependency.symm ▸ hq
  constructor
  · rintro ⟨hleast, hgreatest⟩ other hother hqo
    exact ⟨hleast.2 ⟨other, (h.new other).2 (.inr hother), hqo, rfl⟩,
      hgreatest.2 ⟨other, (h.new other).2 (.inr hother), hqo, rfl⟩⟩
  · intro hothers
    refine ⟨⟨⟨t, (h.new t).2 (.inl rfl), hq', hmin⟩, ?_⟩, ⟨t, (h.new t).2 (.inl rfl), hq', hmax⟩, ?_⟩
    · rintro x ⟨s, hs, hqs, rfl⟩
      rcases (h.new s).1 hs with rfl | hs
      · exact hmin.ge
      · exact (hothers s hs hqs).1
    · rintro x ⟨s, hs, hqs, rfl⟩
      rcases (h.new s).1 hs with rfl | hs
      · exact hmax.le
      · exact (hothers s hs hqs).2

variable [Zero F]

/-- The ranges after an entry has been added: those of all values and of its axis decide. -/
theorem spanned_moved_iff {axisLow axisHigh : F} (hd : d.Spanned)
    (h : Replaced d.mDataSets a.mDataSets others set t)
    (ha : Moved d a set.mAxisDependency low high axisLow axisHigh) :
    a.fillAxes.Spanned ↔
      Hull (fun _ => True) a.mDataSets low high ∧
        Hull (· = set.mAxisDependency) a.mDataSets axisLow axisHigh := by
  rw [spanned_fillAxes_iff (List.ne_nil_of_mem ((h.new t).2 (.inl rfl))), ha.mYMin, ha.mYMax]
  -- the range of the other axis is left as it was, and its data sets are the same
  refine and_congr_right fun _ => ⟨fun haxis => ?_, fun haxis dependency hocc => ?_⟩
  · have hset := haxis set.mAxisDependency
      ((h.occupied_iff _).2 ⟨set, (h.old set).2 (.inl rfl), rfl⟩)
    rwa [ha.axisMin, ha.axisMax] at hset
  · by_cases hdep : dependency = set.mAxisDependency
    · rw [hdep, ha.axisMin, ha.axisMax]
      exact haxis
    · obtain ⟨hmin, hmax⟩ := ha.others dependency hdep
      rw [hmin, hmax, h.hull_of_ne hdep]
      exact hd.axis dependency ((h.occupied_iff dependency).1 hocc)

theorem addEntry_spanned_iff [Neg F] {MAX_VALUE : F} (hcounted : d.Counted MAX_VALUE)
    (hd : d.Spanned) (e : Entry F) (i : Nat) :
    (d.addEntry e i).Spanned ↔ d.Tight (.addEntry e i) := by
  cases hi : d.mDataSets[i]? with
  | none =>
      rw [addEntry, hi]
      refine iff_of_true hd fun set hset => ?_
      rw [hi] at hset
      cases hset
  | some set =>
      obtain ⟨a, heq, ha⟩ := addEntry_eq e hi
      have hreplaced := replaced_addEntry hi e
      rw [← ha.sets] at hreplaced
      have hmem : set ∈ d.mDataSets := List.mem_of_getElem? hi
      have hne : d.mDataSets ≠ [] := List.ne_nil_of_mem hmem
      have htight : d.Tight (.addEntry e i) ↔
          (d.mYValCount = 0 → ∀ other ∈ d.mDataSets.eraseIdx i,
            e.mVal ≤ other.mYMin ∧ other.mYMax ≤ e.mVal) ∧
          (d.mYValCount ≠ 0 → set.mYVals = [] →
            Reaches (· = set.mAxisDependency) e.mVal set (d.mDataSets.eraseIdx i)) := by
        simp only [Tight, hi, Option.mem_some_iff, forall_eq']
      have hwhole := hd.whole hne
      have haxis := hd.axis set.mAxisDependency ⟨set, hmem, rfl⟩
      rw [heq, htight]
      by_cases hempty : set.mYVals = []
      · obtain ⟨hmin, hmax⟩ := addEntry_of_nil hempty e
        by_cases hcount : d.mYValCount = 0
        · -- the first value of all
          rw [spanned_moved_iff hd hreplaced (ha.begun hcount),
            hreplaced.hull_first_iff trivial hmin hmax,
            hreplaced.hull_first_iff (q := (· = set.mAxisDependency)) rfl hmin hmax]
          simp only [hcount, ne_eq, not_true_eq_false, false_implies, and_true, true_implies]
          exact ⟨fun h => h.1, fun h => ⟨h, fun other hother _ => h other hother⟩⟩
        · -- the first value of its data set
          rw [spanned_moved_iff hd hreplaced (ha.widened hcount),
            hreplaced.hull_refilled_iff trivial hmin hmax hwhole,
            hreplaced.hull_refilled_iff (q := (· = set.mAxisDependency)) rfl hmin hmax haxis]
          simp only [hcount, hempty, ne_eq, not_false_eq_true, false_implies, true_and,
            true_implies]
          exact ⟨fun h => h.2, fun h => ⟨h.all, h⟩⟩
      · have hcount : d.mYValCount ≠ 0 := by
          have hle := length_le_total hmem
          have hpos := List.length_pos_iff.2 hempty
          rw [hcounted.count]
          omega
        obtain ⟨hmin, hmax⟩ := addEntry_of_ne_nil hempty e
        rw [spanned_moved_iff hd hreplaced (ha.widened hcount)]
        refine iff_of_true ⟨hreplaced.hull_lowered trivial hmin hmax hwhole,
          hreplaced.hull_lowered (q := (· = set.mAxisDependency)) rfl hmin hmax haxis⟩
          ⟨fun h => absurd h hcount, fun _ h => absurd h hempty⟩

end Adding

/-! ## Every sequence of changes -/

section Running

variable {F : Type} [LinearOrder F] [Zero F] [Neg F] {MAX_VALUE : F} {d r : LineData F}
  {sets : List (LineDataSet F)} {set : LineDataSet F}

omit [Zero F] in
/-- A data set with values is limited as they are. -/
theorem limited_of_tracks (h : set.Tracks MAX_VALUE) (hne : set.mYVals ≠ []) :
    set.Limited MAX_VALUE :=
  ⟨(h.bounded _ (h.ranged hne).least.1).2, (h.bounded _ (h.ranged hne).greatest.1).1⟩

omit [Neg F] in
/-- The labels are not read for the ranges. -/
theorem spanned_labels (h : d.Spanned) (mXVals : List JavaString) (mXValMaximumLength : Nat) :
    Spanned { d with mXVals, mXValMaximumLength } := by
  refine ⟨h.empty, h.whole, fun dependency => ?_, fun dependency => ?_⟩
  · cases dependency with
    | LEFT => exact h.axis .LEFT
    | RIGHT => exact h.axis .RIGHT
  · cases dependency with
    | LEFT => exact h.copied .LEFT
    | RIGHT => exact h.copied .RIGHT

/-- A removal recalculates all ranges. -/
theorem Removed.spanned (h : Removed MAX_VALUE d r sets)
    (hlimited : ∀ set ∈ d.mDataSets, set.Limited MAX_VALUE) :
    r.Spanned ∧ ∀ set ∈ r.mDataSets, set.Limited MAX_VALUE := by
  have hleft : ∀ t ∈ sets, t.Limited MAX_VALUE := by
    intro t ht
    by_cases hempty : t.mYVals = []
    · -- a data set left without values has kept its range
      obtain ⟨set, hset, hmin, hmax⟩ := h.emptied t ht hempty
      rw [LineDataSet.Limited, hmin, hmax]
      exact hlimited set hset
    · exact limited_of_tracks (h.tracks t ht) hempty
  obtain ⟨r', hr', hspanned, hsets⟩ := spanned_calcMinMax (d := d.left sets) fun t ht =>
    ⟨h.tracks t ht, hleft t ht, length_le_total ht⟩
  obtain rfl := Except.ok.inj (h.ranges.symm.trans hr')
  rw [hsets]
  exact ⟨hspanned, hleft⟩

/-- `init` throws, or leaves all ranges spanned over the data sets as they are. -/
theorem spanned_init (MAX_VALUE : F) (d : LineData F)
    (h : ∀ set ∈ d.mDataSets, set.Tracks MAX_VALUE ∧ set.Limited MAX_VALUE) :
    (∃ ex, d.init MAX_VALUE = .error ex) ∨
      ∃ r, d.init MAX_VALUE = .ok r ∧ r.Spanned ∧ r.mDataSets = d.mDataSets := by
  rcases init_cases MAX_VALUE d with herror | heq
  · exact .inl herror
  · obtain ⟨r, hr, hspanned, hsets⟩ :=
      spanned_calcMinMax (d := d.left d.mDataSets) (e := total d.mDataSets) fun set hset =>
        ⟨(h set hset).1, (h set hset).2, length_le_total hset⟩
    refine .inr ⟨r.calcXValMaximumLength, ?_, spanned_labels hspanned _ _, hsets⟩
    rw [heq, hr]
    rfl

/-- The count is kept, the values are covered, the data sets are limited, and the ranges are
exact. -/
structure Settled (MAX_VALUE : F) (d : LineData F) : Prop where
  counted : d.Counted MAX_VALUE
  covers : d.Covers
  limited : ∀ set ∈ d.mDataSets, set.Limited MAX_VALUE
  spanned : d.Spanned

/-- A proper change of settled chart data throws, or the data stay limited and the change is tight
if and only if the ranges stay exact. -/
theorem change_spanned_iff (hd : d.Settled MAX_VALUE) {c : Change F} (hc : d.Proper MAX_VALUE c) :
    (∃ ex, d.change MAX_VALUE c = .error ex ∧ d.Tight c) ∨
      ∃ r, d.change MAX_VALUE c = .ok r ∧ (∀ set ∈ r.mDataSets, set.Limited MAX_VALUE) ∧
        (d.Tight c ↔ r.Spanned) := by
  have hremoval : ∀ result, Removal MAX_VALUE d result →
      ∃ r, Prod.fst <$> result = .ok r ∧ (∀ set ∈ r.mDataSets, set.Limited MAX_VALUE) ∧
        r.Spanned := by
    intro result hresult
    cases hresult with
    | nothing => exact ⟨d, rfl, hd.limited, hd.spanned⟩
    | removed h => exact ⟨_, rfl, (h.spanned hd.limited).2, (h.spanned hd.limited).1⟩
  -- only the two additions can leave ranges that are not spanned
  cases c with
  | addDataSet set =>
      refine .inr ⟨_, rfl, fun s hs => ?_, (addDataSet_spanned_iff hd.spanned set).symm⟩
      rw [mDataSets_addDataSet] at hs
      rcases List.mem_append.1 hs with hs | hs
      · exact hd.limited s hs
      · obtain rfl := List.mem_singleton.1 hs
        exact hc.2 s rfl
  | removeDataSet index =>
      obtain ⟨r, hr, hlimited, hspanned⟩ := hremoval _ (removal_removeDataSet hd.counted index)
      exact .inr ⟨r, hr, hlimited, iff_of_true trivial hspanned⟩
  | addEntry e dataSetIndex =>
      refine .inr ⟨_, rfl, fun s hs => ?_,
        (addEntry_spanned_iff hd.counted hd.spanned e dataSetIndex).symm⟩
      have hcounted := (addEntry_keeps hd.counted hd.covers hc.1 dataSetIndex).1
      by_cases hempty : s.mYVals = []
      · exact hd.limited s (mem_of_addEntry hs hempty)
      · exact limited_of_tracks (hcounted.tracks s hs) hempty
  | removeEntry place dataSetIndex =>
      obtain ⟨r, hr, hlimited, hspanned⟩ :=
        hremoval _ (removal_removeEntry hd.counted place dataSetIndex)
      exact .inr ⟨r, hr, hlimited, iff_of_true trivial hspanned⟩
  | removeEntryAt xIndex dataSetIndex =>
      obtain ⟨r, hr, hlimited, hspanned⟩ :=
        hremoval _ (removal_removeEntryAt hd.counted xIndex dataSetIndex)
      exact .inr ⟨r, hr, hlimited, iff_of_true trivial hspanned⟩
  | setXVals xVals =>
      exact .inr ⟨_, rfl, hd.limited, iff_of_true trivial (spanned_labels hd.spanned _ _)⟩
  | addXValue xVal =>
      exact .inr ⟨_, rfl, hd.limited, iff_of_true trivial (spanned_labels hd.spanned _ _)⟩
  | removeXValue index =>
      rw [change, removeXValue]
      by_cases hindex : index < d.mXVals.length
      · rw [if_pos hindex]
        exact .inr ⟨_, rfl, hd.limited, iff_of_true trivial (spanned_labels hd.spanned _ _)⟩
      · rw [if_neg hindex]
        exact .inl ⟨_, rfl, trivial⟩
  | notifyDataChanged =>
      rcases spanned_init MAX_VALUE d fun set hset =>
        ⟨hd.counted.tracks set hset, hd.limited set hset⟩ with
        ⟨ex, herror⟩ | ⟨r, hr, hspanned, hsets⟩
      · exact .inl ⟨ex, herror, trivial⟩
      · refine .inr ⟨r, hr, ?_, iff_of_true trivial hspanned⟩
        rw [hsets]
        exact hd.limited
  | clearValues =>
      rcases spanned_init MAX_VALUE { d with mDataSets := [] }
        fun set hset => absurd hset List.not_mem_nil with ⟨ex, herror⟩ | ⟨r, hr, hspanned, hsets⟩
      · exact .inl ⟨ex, herror, trivial⟩
      · refine .inr ⟨r, hr, fun set hset => ?_, iff_of_true trivial hspanned⟩
        rw [hsets] at hset
        cases hset

/-- Settled chart data stay settled with a change that is tight, and with no other. -/
theorem Settled.step (hd : d.Settled MAX_VALUE) {start : LineData F} {c : Change F}
    (hc : d.Proper MAX_VALUE c) (hstep : (chart MAX_VALUE start).step d c = some r) :
    (d.Tight c ↔ r.Exact MAX_VALUE) ∧ (d.Tight c → r.Settled MAX_VALUE) := by
  simp only [chart] at hstep
  rcases change_spanned_iff hd hc with ⟨ex, herror, htight⟩ | ⟨t, ht, hlimited, hiff⟩
  · -- a change that throws leaves the data as they were, and is always tight
    rw [herror] at hstep
    obtain rfl := Option.some.inj hstep
    exact ⟨iff_of_true htight ((exact_iff_spanned hd.counted hd.limited).2 hd.spanned),
      fun _ => hd⟩
  · rw [ht] at hstep
    obtain rfl := Option.some.inj hstep
    rcases change_keeps hd.counted hd.covers hc.1 with ⟨ex, herror⟩ | ⟨t', ht', hcounted, hcovers⟩
    · cases ht.symm.trans herror
    · obtain rfl := Except.ok.inj (ht.symm.trans ht')
      rw [exact_iff_spanned hcounted hlimited]
      exact ⟨hiff, fun htight => ⟨hcounted, hcovers, hlimited, hiff.1 htight⟩⟩

/-- New chart data are settled. -/
theorem settled_new {xVals : List JavaString} {start : LineData F}
    (hnew : LineData.new MAX_VALUE xVals sets = .ok start)
    (hsets : ∀ set ∈ sets, set.Tracks MAX_VALUE ∧ set.Limited MAX_VALUE) :
    start.Settled MAX_VALUE := by
  have hkeeps := init_keeps (d := ⟨xVals, sets, 0, 0, 0, 0, 0, 0, 0, 0⟩)
    fun set hset => (hsets set hset).1.bounded
  rcases hkeeps with ⟨ex, herror⟩ | ⟨r, hr, hcounted, hcovers⟩
  · cases hnew.symm.trans herror
  obtain rfl := Except.ok.inj (hnew.symm.trans hr)
  rcases spanned_init MAX_VALUE ⟨xVals, sets, 0, 0, 0, 0, 0, 0, 0, 0⟩ hsets with
    ⟨ex, herror⟩ | ⟨r, hr, hspanned, hdata⟩
  · cases hnew.symm.trans herror
  obtain rfl := Except.ok.inj (hnew.symm.trans hr)
  refine ⟨hcounted, hcovers, fun set hset => ?_, hspanned⟩
  rw [hdata] at hset
  exact (hsets set hset).2

/-- Among the sequences of changes of new chart data, those whose additions all are tight are those
after which, and all along which, a recalculation would change nothing. -/
theorem exact_of_run_iff {xVals : List JavaString} {start : LineData F}
    (hnew : LineData.new MAX_VALUE xVals sets = .ok start)
    (hsets : ∀ set ∈ sets, set.Tracks MAX_VALUE ∧ set.Limited MAX_VALUE)
    (cs : List (Change F)) (d : LineData F) :
    RunUnder (chart MAX_VALUE start) (fun d c => d.Proper MAX_VALUE c ∧ d.Tight c) cs d ↔
      RunUnder (chart MAX_VALUE start) (fun d c => d.Proper MAX_VALUE c) cs d ∧
        Always (chart MAX_VALUE start) (Exact MAX_VALUE) cs := by
  have hstart := settled_new hnew hsets
  refine always_iff ((exact_iff_spanned hstart.counted hstart.limited).2 hstart.spanned) ?_ cs d
  intro cs d c r hrun _ hc hstep
  -- the changes before this one were tight, which has kept the data settled
  have hd : d.Settled MAX_VALUE := by
    refine hrun.invariant hstart ?_
    intro d c r hd hc hstep
    exact (hd.step hc.1 hstep).2 hc.2
  exact (hd.step hc hstep).1

theorem tracks_leftSet : leftSet.Tracks 1000 := by
  refine ⟨bounded_leftSet, fun _ => ⟨⟨?_, ?_⟩, ⟨?_, ?_⟩⟩⟩ <;>
    simp [leftSet, LineDataSet.values, lowerBounds, upperBounds]

/-- The first data set on the right axis lies within the range so far, and the axis keeps the range
of the left one, which a recalculation would change. -/
theorem exact_of_run_iff_inside : ∃ d,
    RunUnder (chart 1000 leftChart) (fun d c => d.Proper 1000 c) [.addDataSet rightSet] d ∧
      d.getYMax .RIGHT = 100 ∧
      ¬ Always (chart 1000 leftChart) (Exact 1000) [.addDataSet rightSet] := by
  obtain ⟨d, hd, hvalue⟩ := exists_run_of_exec (chart 1000 leftChart)
    [.addDataSet rightSet] (fun d => d.getYMax .RIGHT) (v := (100 : Int)) (by decide +kernel)
  have hrun := runUnder_of_forall (G := fun d c => LineData.Proper 1000 d c) hd (by
    rintro c hc s
    obtain rfl := List.mem_singleton.1 hc
    refine ⟨tracks_rightSet, fun set hset => ?_⟩
    obtain rfl := Change.addDataSet.inj hset
    simp [LineDataSet.Limited, rightSet])
  have hsets : ∀ set ∈ [leftSet], set.Tracks 1000 ∧ set.Limited 1000 := by
    intro set hset
    obtain rfl := List.mem_singleton.1 hset
    exact ⟨tracks_leftSet, by simp [LineDataSet.Limited, leftSet]⟩
  refine ⟨d, hrun, hvalue, fun halways => ?_⟩
  have htight := (exact_of_run_iff new_leftChart hsets _ d).2 ⟨hrun, halways⟩
  rw [← List.nil_append [Change.addDataSet rightSet]] at htight
  obtain ⟨s, hs, ⟨-, hcase⟩, -⟩ := htight.last
  obtain rfl : s = leftChart := run_unique hs.toRun .start
  rcases hcase with hnil | ⟨set, hset, hdep⟩ | ⟨hlow, -⟩
  · cases hnil
  · obtain rfl := List.mem_singleton.1 hset
    cases hdep
  · simp [rightSet, leftChart] at hlow

end Running

end LineData

end IotClient.Chart.ChartData
