import IotClient.Lists.Screens

/-!
# The device that a tap opens

A row shows a record of the list that the adapter was built with, and a tap on it reads the record
with the same index from the list of the field, which every later response replaces. So a tap opens
the device that its row shows exactly when the list of the last body that has arrived has, in that
row, a record of the same device as the list of the last body that had arrived at the last
`setAdapter` (`RowKept`). `opens_iff` says so of every run of the three screens whose rows open a
device; that a tap never meets the adapter without a listener, which `onLoadMore` of the temperature
screen binds, is the invariant `ListensWhenTapped`.
-/

set_option autoImplicit false

namespace IotClient.Lists.Tap

open IotClient.Foundation.Runs
open IotClient.Lists.Screens

/-- The screens whose rows open a device. -/
inductive DeviceScreen where
  | temperature
  | sensirion
  | doorSwitch
deriving DecidableEq, Repr

/-- Their code. -/
def DeviceScreen.code : DeviceScreen → ScreenCode
  | .temperature => temperatureFragment
  | .sensirion => sensirionFragment
  | .doorSwitch => doorSwitchFragment

/-- What a tap on one of their rows starts. -/
def DeviceScreen.detail : DeviceScreen → Detail
  | .temperature => ⟨"ShowTempInfoActivity", "tdevice"⟩
  | .sensirion => ⟨"HistorySensirActivity", "sdevice"⟩
  | .doorSwitch => ⟨"HistoryDoorActivity", "device"⟩

theorem DeviceScreen.itemClick (screen : DeviceScreen) :
    screen.code.itemClick = some screen.detail := by
  cases screen <;> rfl

variable {R : Type} {code : ScreenCode} {device : R → String} {detail : Detail}

/-- The device of the record in row `i` of a list. -/
def rowDevice (device : R → String) (list : Option (List R)) (i : Nat) : Option String :=
  (list.bind fun list => list[i]?).map device

/-- The answers since the last `setAdapter` have left the device of the tapped row as it was. -/
def RowKept (device : R → String) : Guard (ListScreen R) (Event R) := fun s e =>
  ∀ i log, e = .onItemClick i → s.binds.getLast? = some log →
    rowDevice device (fieldAfter s.answers) i = rowDevice device (fieldAfter log) i

/-- A tap on a row opens the device of the record that the row displays, and does not crash. -/
def OpensShown (code : ScreenCode) (detail : Detail) (device : R → String) :
    Guard (ListScreen R) (Event R) :=
  fun s e => ∀ i adapter x t, e = .onItemClick i → s.adapter = some adapter →
    adapter.row i = some x → s.step code device e = some t →
      t.crashed = false ∧ t.started = s.started ++ [⟨detail, device x⟩]

/-- An adapter bound to a visible list has the listener, unless a dialog is showing. -/
def ListensWhenTapped (detail : Detail) (s : ListScreen R) : Prop :=
  ∀ adapter, s.adapter = some adapter → s.panel.listVisible = true → s.dialogShowing = false →
    adapter.onItemClickListener = some detail

theorem execute_dialogShowing (s : ListScreen R) : s.execute.dialogShowing = true := by
  simp [ListScreen.execute, ListScreen.dialogShowing]

theorem onLoadMore_dialogShowing (s : ListScreen R) :
    (s.onLoadMore code).dialogShowing = true := by
  rw [ListScreen.onLoadMore]
  cases code.loadingListener <;> exact execute_dialogShowing s

theorem listensWhenTapped_step {s t : ListScreen R} {e : Event R}
    (hcode : code.itemClick = some detail) (hs : ListensWhenTapped detail s)
    (h : s.step code device e = some t) : ListensWhenTapped detail t := by
  obtain ⟨-, ⟨-, rfl⟩ | ⟨-, rfl⟩ | ⟨-, -, -, rfl⟩ | ⟨r, -, -, rfl⟩ | ⟨task, rest, -, -, rfl⟩ |
    ⟨r, a, -, -, rfl⟩ | ⟨i, adapter, x, -, -, -, -, -, rfl⟩⟩ := step_cases h
  · intro adapter _ _ hdialog
    rw [execute_dialogShowing] at hdialog
    cases hdialog
  · intro adapter _ _ hdialog
    rw [onLoadMore_dialogShowing] at hdialog
    cases hdialog
  · exact hs
  · exact hs
  · -- the one event that takes a dialog away binds an adapter with the listener or hides the list
    intro adapter hadapter hvisible _
    cases hresult : task.result with
    | true =>
        obtain rfl : (⟨s.newList, code.itemClick⟩ : Adapter R) = adapter := by
          simpa [ListScreen.onPostExecute, hresult, ListScreen.setAdapter] using hadapter
        exact hcode
    | false =>
        simp [ListScreen.onPostExecute, hresult, Panel.onFailure] at hvisible
  · cases a <;> exact hs
  · cases adapter.onItemClickListener with
    | none => exact hs
    | some detail' =>
        show ListensWhenTapped detail (s.onItemClick device detail' i)
        rw [ListScreen.onItemClick]
        split <;> exact hs

theorem listensWhenTapped_of_run (hcode : code.itemClick = some detail) {es : List (Event R)}
    {s : ListScreen R} (h : Run (machine code device) es s) : ListensWhenTapped detail s := by
  apply h.invariant
  · intro adapter hadapter
    cases hadapter
  · intro s e t hs _ hst
    exact listensWhenTapped_step hcode hs hst

/-! ## One tap -/

/-- The handler opens the device in its row of the field, or crashes when the field has no such
row. -/
theorem onItemClick_opens (s : ListScreen R) (i : Nat) (d : String) (hs : s.crashed = false) :
    ((s.onItemClick device detail i).crashed = false ∧
      (s.onItemClick device detail i).started = s.started ++ [⟨detail, d⟩]) ↔
    rowDevice device s.newList i = some d := by
  rw [ListScreen.onItemClick, rowDevice]
  cases s.newList.bind fun list => list[i]? with
  | none => simp
  | some y => simp [hs]

theorem opensShown_iff {s t : ListScreen R} {e : Event R} (hs : Tracked s)
    (hlistens : ListensWhenTapped detail s) (hst : s.step code device e = some t) :
    RowKept device s e ↔ OpensShown code detail device s e := by
  -- in a tap the row is shown by the adapter of the last `setAdapter`, which has a listener
  have htap : ∀ i adapter x u log, e = .onItemClick i → s.adapter = some adapter →
      adapter.row i = some x → s.step code device e = some u → s.binds.getLast? = some log →
      s.crashed = false ∧ u = s.onItemClick device detail i ∧
        rowDevice device (fieldAfter log) i = some (device x) := by
    rintro i adapter x u log rfl hadapter hx hu hlog
    obtain ⟨log', hlog', hlist⟩ := hs.adapter adapter hadapter
    obtain rfl := Option.some.inj (hlog.symm.trans hlog')
    have hrow : rowDevice device (fieldAfter log) i = some (device x) := by
      rw [← hlist]
      simpa [rowDevice, Adapter.row] using congrArg (Option.map device) hx
    have hcrashed := not_crashed_of_step hu
    obtain ⟨adapter', x', hdialog, hvisible, hadapter', -, rfl⟩ := step_onItemClick hu
    obtain rfl := Option.some.inj (hadapter.symm.trans hadapter')
    refine ⟨hcrashed, ?_, hrow⟩
    rw [hlistens adapter hadapter hvisible hdialog]
  constructor
  · -- the field has, in that row, a record of the device that the row shows
    intro hkept i adapter x u he hadapter hx hu
    obtain ⟨log, hlog, -⟩ := hs.adapter adapter hadapter
    obtain ⟨hcrashed, rfl, hrow⟩ := htap i adapter x u log he hadapter hx hu hlog
    rw [onItemClick_opens s i (device x) hcrashed, hs.newList, hkept i log he hlog]
    exact hrow
  · -- the device opened is read from the field, and it is the one shown
    intro hopens i log he hlog
    subst he
    have hcrashed := not_crashed_of_step hst
    obtain ⟨adapter, x, -, -, hadapter, hx, -⟩ := step_onItemClick hst
    obtain ⟨-, rfl, hrow⟩ := htap i adapter x t log rfl hadapter hx hst hlog
    have hopened := hopens i adapter x _ rfl hadapter hx hst
    rw [onItemClick_opens s i (device x) hcrashed, hs.newList] at hopened
    rw [hopened, hrow]

/-! ## Runs -/

/-- On the screens whose rows open a device, the runs in which every tap opens the device that its
row shows are the runs in which every tap finds the device of its row kept. -/
theorem opens_iff (screen : DeviceScreen) (device : R → String) (es : List (Event R))
    (s : ListScreen R) :
    RunUnder (machine screen.code device) (RowKept device) es s ↔
      RunUnder (machine screen.code device)
        (OpensShown screen.code screen.detail device) es s := by
  apply runUnder_congr
  intro es s e t hrun hst
  have htracked := tracked_of_run hrun.toRun
  have hlistens := listensWhenTapped_of_run screen.itemClick hrun.toRun
  exact opensShown_iff htracked hlistens hst

/-- A refresh that shows the devices `1` and `2`, a load-more whose own request is still unanswered
when its refresh has shown them again, and then the answer to that request in another order. -/
def reordered : List (Event String) :=
  [.execute, .doInBackground, .respond 0 (.body (some ["1", "2"])), .waitEnds, .onPostExecute,
    .onLoadMore, .doInBackground, .respond 2 (.body (some ["1", "2"])), .waitEnds, .onPostExecute,
    .respond 1 (.body (some ["2", "1"]))]

/-- The tap on the row of device `1` opens device `2`. -/
theorem tap_opens_other_device :
    ∃ s, Run (machine temperatureFragment id) (reordered ++ [.onItemClick 0]) s ∧
      s.started = [⟨⟨"ShowTempInfoActivity", "tdevice"⟩, "2"⟩] ∧
      ¬ RunUnder (machine temperatureFragment id)
        (OpensShown temperatureFragment DeviceScreen.temperature.detail id)
        (reordered ++ [.onItemClick 0]) s := by
  have hlast : ((machine temperatureFragment id).exec (reordered ++ [.onItemClick 0])).map
      (fun s => s.started) = some [⟨⟨"ShowTempInfoActivity", "tdevice"⟩, "2"⟩] := by decide
  -- before the tap the row shows device `1`, but the tap would open device `2`
  have hexec : ((machine temperatureFragment id).exec reordered).map (fun s =>
      (s.started, s.adapter.bind (fun adapter => adapter.row 0),
        (s.step temperatureFragment id (.onItemClick 0)).map fun t => t.started)) =
          some ([], some "1", some [⟨⟨"ShowTempInfoActivity", "tdevice"⟩, "2"⟩]) := by decide
  obtain ⟨s, hrun, hstarted⟩ := exists_run_of_exec _ _ _ hlast
  refine ⟨s, hrun, hstarted, not_runUnder_snoc _ _ _ hexec ?_ s⟩
  intro u hu hopens
  simp only [Prod.mk.injEq] at hu
  obtain ⟨hnone, hrow, htap⟩ := hu
  obtain ⟨adapter, hadapter, hx⟩ := Option.bind_eq_some_iff.1 hrow
  obtain ⟨t, hst, hopened⟩ := Option.map_eq_some_iff.1 htap
  have hshown := (hopens 0 adapter "1" t rfl hadapter hx hst).2
  rw [hopened, hnone] at hshown
  exact absurd hshown (by decide)

end IotClient.Lists.Tap
