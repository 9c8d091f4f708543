import IotClient.Foundation.Register
import IotClient.Foundation.Runs
import Mathlib.Algebra.Ring.Int.Defs

/-!
# The seven list screens

The temperature, temperature-humidity, door and GPS fragments and the three history activities share
one pattern. A refresh is an `AsyncTask`: `onPreExecute` shows a dialog, `doInBackground` calls
`requestDataFromServer` and waits, and `onPostExecute` binds the list field to a new adapter when the
flag `UploadSuccess` was true at the end of the wait, and shows the error page otherwise. The
response handler, on a thread of its own, writes the field and the flag.

What the copies do differently is in `ScreenCode`, one value for each screen. The tasks run on the
serial executor, one at a time in the order of their `execute` calls; every handler is one step here,
and `Lists/Handlers.lean` takes the handlers that run on threads of their own access by access. The
state records, beside the fields of the code, which answers had been handled at three moments: now
(`answers`), at the end of each wait (`Ended.seen`) and at each `setAdapter` (`binds`).

* `step_cases`: what each event does.
* `tracked_of_run`: the field is what the last body that arrived parsed to, and the flag says whether
  any body so far was a non-empty list.
-/

set_option autoImplicit false

namespace IotClient.Lists.Screens

open IotClient.Foundation.Register
open IotClient.Foundation.Runs

/-! ## The panel of a screen -/

/-- The orientation of a list. -/
inductive Orientation where
  | vertical
  | horizontal
deriving DecidableEq, Repr

/-- The offsets around a row. -/
structure Rect where
  left : Int
  top : Int
  right : Int
  bottom : Int
deriving DecidableEq, Repr

/-- `RecycleViewDivider`. -/
structure RecycleViewDivider where
  mOrientation : Orientation
  mDividerHeight : Int
deriving DecidableEq, Repr

/-- `RecycleViewDivider.getItemOffsets`. -/
def RecycleViewDivider.getItemOffsets (d : RecycleViewDivider) : Rect :=
  match d.mOrientation with
  | .vertical => ⟨0, 0, 0, d.mDividerHeight⟩
  | .horizontal => ⟨0, 0, d.mDividerHeight, 0⟩

/-- The visibilities of the list and of the error page, and the decorations of the list. -/
structure Panel where
  listVisible : Bool
  errorPageVisible : Bool
  decorations : List RecycleViewDivider
deriving DecidableEq, Repr

/-- The listener for pulling and scrolling that a screen gives its list. -/
inductive LoadingListener where
  | none
  | refreshes
  | refreshesAndRebinds
deriving DecidableEq, Repr

/-- The activity that a tap starts, and the name of the extra that carries the device. -/
structure Detail where
  activity : String
  extra : String
deriving DecidableEq, Repr

/-- The thread that calls the response handler: a thread of the client, when the request is sent with
`HttpUtils`, or the main thread, when it is sent with `OkHttpUtils`. -/
inductive HandlerThread where
  | dispatcher
  | main
deriving DecidableEq, Repr

/-- What the copies of the pattern do differently. -/
structure ScreenCode where
  /-- The decorations added when the screen is created. -/
  createdWith : List RecycleViewDivider
  loadingListener : LoadingListener
  handlerThread : HandlerThread
  /-- The success branch calls `toString` on the list. -/
  toStringAfterBind : Bool
  /-- `getItemCount` of the adapter counts a null list as empty. -/
  getItemCountChecksNull : Bool
  /-- The success branch shows the list. -/
  showsList : Bool
  /-- The success branch hides the error page. -/
  hidesErrorPage : Bool
  /-- The decorations added by the success branch. -/
  successAdds : List RecycleViewDivider
  /-- What the `OnItemClickListener` of the success branch starts, if it sets one. -/
  itemClick : Option Detail

/-- The handlers on the main thread, and no others, call `toString` on the list after their null
check. -/
def ScreenCode.toStringInHandler (code : ScreenCode) : Bool := code.handlerThread == .main

/-- The divider of all the lists. -/
def divider : RecycleViewDivider := ⟨.vertical, 10⟩

/-- `TemperatureFragment`, with `TemperSensorAdapter`. -/
def temperatureFragment : ScreenCode where
  createdWith := [divider]
  loadingListener := .refreshesAndRebinds
  handlerThread := .dispatcher
  toStringAfterBind := true
  getItemCountChecksNull := true
  showsList := true
  hidesErrorPage := true
  successAdds := []
  itemClick := some ⟨"ShowTempInfoActivity", "tdevice"⟩

/-- `SensirionFragment`, with `SensirionAdapter`. -/
def sensirionFragment : ScreenCode where
  createdWith := [divider]
  loadingListener := .refreshes
  handlerThread := .dispatcher
  toStringAfterBind := false
  getItemCountChecksNull := false
  showsList := true
  hidesErrorPage := true
  successAdds := []
  itemClick := some ⟨"HistorySensirActivity", "sdevice"⟩

/-- `DoorSwitchFragment`, with `DoorSwitchAdapter`. -/
def doorSwitchFragment : ScreenCode where
  createdWith := [divider]
  loadingListener := .refreshes
  handlerThread := .dispatcher
  toStringAfterBind := false
  getItemCountChecksNull := false
  showsList := true
  hidesErrorPage := true
  successAdds := []
  itemClick := some ⟨"HistoryDoorActivity", "device"⟩

/-- `GPSFragment`, with `GPSAdapter`. -/
def gpsFragment : ScreenCode where
  createdWith := [divider]
  loadingListener := .none
  handlerThread := .dispatcher
  toStringAfterBind := false
  getItemCountChecksNull := false
  showsList := true
  hidesErrorPage := true
  successAdds := []
  itemClick := none

/-- `HistoryTempActivity`, with `HistempAdapter`. -/
def historyTempActivity : ScreenCode where
  createdWith := []
  loadingListener := .refreshes
  handlerThread := .main
  toStringAfterBind := false
  getItemCountChecksNull := true
  showsList := false
  hidesErrorPage := true
  successAdds := [divider]
  itemClick := none

/-- `HistorySensirActivity`, with `HisSensirAdapter`. -/
def historySensirActivity : ScreenCode where
  createdWith := []
  loadingListener := .refreshes
  handlerThread := .main
  toStringAfterBind := false
  getItemCountChecksNull := false
  showsList := false
  hidesErrorPage := false
  successAdds := [divider]
  itemClick := none

/-- `HistoryDoorActivity`, with `HisdoorAdapter`. -/
def historyDoorActivity : ScreenCode where
  createdWith := []
  loadingListener := .refreshes
  handlerThread := .main
  toStringAfterBind := false
  getItemCountChecksNull := false
  showsList := false
  hidesErrorPage := false
  successAdds := [divider]
  itemClick := none

/-- The layouts show the list and hide the error page. -/
def ScreenCode.createdPanel (code : ScreenCode) : Panel := ⟨true, false, code.createdWith⟩

/-- What the success branch of `onPostExecute` does to the panel. -/
def Panel.onSuccess (code : ScreenCode) (p : Panel) : Panel where
  listVisible := if code.showsList then true else p.listVisible
  errorPageVisible := if code.hidesErrorPage then false else p.errorPageVisible
  decorations := p.decorations ++ code.successAdds

/-- What the failure branch of `onPostExecute` does to the panel. -/
def Panel.onFailure (p : Panel) : Panel :=
  { p with listVisible := false, errorPageVisible := true }

/-! ## The state -/

variable {R : Type}

/-- How a request ends: with a body and the list that it parses to, which may be null, or with a
failure. -/
inductive Answer (R : Type) where
  | body (list : Option (List R))
  | failure
deriving DecidableEq, Repr

/-- What an answer writes into the list field. -/
def Answer.written : Answer R → Option (Option (List R))
  | .body list => some list
  | .failure => none

/-- The condition under which the handler sets `UploadSuccess`. -/
def Answer.nonEmpty : Answer R → Bool
  | .body (some (_ :: _)) => true
  | .body (some []) | .body none | .failure => false

/-- Some answer of the log carried a non-empty list. -/
def someNonEmpty (log : Log (Answer R)) : Bool := log.any fun entry => entry.2.nonEmpty

/-- The request `r` was answered with a non-empty list. -/
def returnedNonEmpty (log : Log (Answer R)) (r : Nat) : Bool :=
  log.any fun entry => entry.1 == r && entry.2.nonEmpty

/-- The list field after the answers of the log; it starts as an empty list. -/
def fieldAfter (log : Log (Answer R)) : Option (List R) := value Answer.written (some []) log

/-- A bound adapter: the list object it was built with, and its click listener. -/
structure Adapter (R : Type) where
  list : Option (List R)
  onItemClickListener : Option Detail

/-- `getItemCount`; `none` is a `NullPointerException`. -/
def Adapter.getItemCount (code : ScreenCode) (a : Adapter R) : Option Nat :=
  match a.list with
  | some list => some list.length
  | none => if code.getItemCountChecksNull then some 0 else none

/-- The record that row `i` displays. -/
def Adapter.row (a : Adapter R) (i : Nat) : Option R := a.list.bind fun list => list[i]?

/-- A task whose wait is over and whose `onPostExecute` is still to come. -/
structure Ended (R : Type) where
  request : Nat
  result : Bool
  seen : Log (Answer R)

/-- An activity started for a device. -/
structure Intent where
  detail : Detail
  device : String
deriving DecidableEq, Repr

/-- A list screen. The field `progressDialog` holds the dialog of the last refresh, here only whether
it is showing; `abandoned` counts the showing dialogs that the field held before. -/
structure ListScreen (R : Type) where
  newList : Option (List R)
  uploadSuccess : Bool
  adapter : Option (Adapter R)
  panel : Panel
  progressDialog : Option Bool
  abandoned : Nat
  queued : Nat
  running : Option Nat
  ended : List (Ended R)
  issued : Nat
  inFlight : List Nat
  answers : Log (Answer R)
  binds : List (Log (Answer R))
  started : List Intent
  crashed : Bool

/-- Some loading dialog is showing. -/
def ListScreen.dialogShowing (s : ListScreen R) : Bool :=
  s.progressDialog == some true || decide (0 < s.abandoned)

/-! ## The handlers -/

/-- `execute`: `onPreExecute` puts a new dialog into the field, and the task is queued. -/
def ListScreen.execute (s : ListScreen R) : ListScreen R :=
  { s with
    progressDialog := some true
    abandoned := s.abandoned + if s.progressDialog = some true then 1 else 0
    queued := s.queued + 1 }

/-- `requestDataFromServer`. -/
def ListScreen.requestDataFromServer (s : ListScreen R) : ListScreen R :=
  { s with issued := s.issued + 1, inFlight := s.inFlight ++ [s.issued] }

/-- A new adapter for the list of the field. -/
def ListScreen.setAdapter (s : ListScreen R) (listener : Option Detail) : ListScreen R :=
  { s with adapter := some ⟨s.newList, listener⟩, binds := s.binds ++ [s.answers] }

/-- `onLoadMore`. On the temperature screen it issues a request of its own beside the refresh, and
binds the present list to an adapter without a listener. -/
def ListScreen.onLoadMore (code : ScreenCode) (s : ListScreen R) : ListScreen R :=
  match code.loadingListener with
  | .refreshesAndRebinds => s.execute.requestDataFromServer.setAdapter none
  | .refreshes | .none => s.execute

/-- The start of `doInBackground` of the next task. -/
def ListScreen.doInBackground (s : ListScreen R) : ListScreen R :=
  { s.requestDataFromServer with queued := s.queued - 1, running := some s.issued }

/-- The end of the wait of `doInBackground`, which returns the flag. -/
def ListScreen.waitEnds (s : ListScreen R) (r : Nat) : ListScreen R :=
  { s with running := none, ended := s.ended ++ [⟨r, s.uploadSuccess, s.answers⟩] }

/-- `onResponse` and `onFailure` of the request `r`. -/
def ListScreen.respond (code : ScreenCode) (s : ListScreen R) (r : Nat) (a : Answer R) :
    ListScreen R :=
  let s := { s with inFlight := s.inFlight.erase r, answers := s.answers ++ [(r, a)] }
  match a with
  | .failure => s
  | .body list => { s with
      newList := list
      uploadSuccess := s.uploadSuccess || a.nonEmpty
      -- the handlers that call `toString` do so behind their null check
      crashed := code.toStringInHandler && list.isNone }

/-- `onPostExecute`. The list laid out after the success branch asks its adapter for the number of
rows. -/
def ListScreen.onPostExecute (code : ScreenCode) (s : ListScreen R) (task : Ended R)
    (rest : List (Ended R)) : ListScreen R :=
  let s := { s with ended := rest, progressDialog := s.progressDialog.map fun _ => false }
  if task.result then
    -- the adapter is built with the list object that the field holds now
    { s.setAdapter code.itemClick with
      panel := s.panel.onSuccess code
      crashed := (code.toStringAfterBind && s.newList.isNone) ||
        (Adapter.getItemCount code ⟨s.newList, code.itemClick⟩).isNone }
  else { s with panel := s.panel.onFailure }

/-- `onItemClick`, which reads the list of the field. -/
def ListScreen.onItemClick (device : R → String) (s : ListScreen R) (detail : Detail)
    (position : Nat) : ListScreen R :=
  match s.newList.bind fun list => list[position]? with
  | some x => { s with started := s.started ++ [⟨detail, device x⟩] }
  | none => { s with crashed := true }

/-! ## The machine -/

/-- What happens to a screen. `execute` is the refresh of its creation or of the reload button. -/
inductive Event (R : Type) where
  | execute
  | onRefresh
  | onLoadMore
  | doInBackground
  | waitEnds
  | onPostExecute
  | respond (r : Nat) (a : Answer R)
  | onItemClick (position : Nat)

/-- One event. A list can be pulled or scrolled once it has an adapter, and a row can be tapped while
the list is visible and no dialog is showing. -/
def ListScreen.step (code : ScreenCode) (device : R → String) (s : ListScreen R) (e : Event R) :
    Option (ListScreen R) :=
  if s.crashed then none
  else match e with
    | .execute => some s.execute
    | .onRefresh =>
        if code.loadingListener ≠ .none ∧ s.adapter.isSome then some s.execute else none
    | .onLoadMore =>
        if code.loadingListener ≠ .none ∧ s.adapter.isSome then some (s.onLoadMore code) else none
    | .doInBackground =>
        if 0 < s.queued ∧ s.running = none then some s.doInBackground else none
    | .waitEnds => s.running.map s.waitEnds
    | .onPostExecute =>
        match s.ended with
        | [] => none
        | task :: rest => some (s.onPostExecute code task rest)
    | .respond r a => if r ∈ s.inFlight then some (s.respond code r a) else none
    | .onItemClick i =>
        if s.dialogShowing = false ∧ s.panel.listVisible = true then
          -- only a row of the bound adapter can be tapped
          s.adapter.bind fun adapter => (adapter.row i).map fun _ =>
            match adapter.onItemClickListener with
            | some detail => s.onItemClick device detail i
            | none => s
        else none

/-- A screen that has just been created with a network connection. The other branch of the source,
which shows the error page at once and starts no refresh, is not modelled. -/
def machine (code : ScreenCode) (device : R → String) : Machine (ListScreen R) (Event R) where
  init :=
    { newList := some [], uploadSuccess := false, adapter := none, panel := code.createdPanel,
      progressDialog := none, abandoned := 0, queued := 0, running := none, ended := [],
      issued := 0, inFlight := [], answers := [], binds := [], started := [], crashed := false }
  step := ListScreen.step code device

variable {code : ScreenCode} {device : R → String}

/-- Nothing happens on a screen that has crashed. -/
theorem not_crashed_of_step {s t : ListScreen R} {e : Event R}
    (h : s.step code device e = some t) : s.crashed = false := by
  have hclean := (Option.ite_none_left_eq_some.1 h).1
  simpa using hclean

theorem step_onPostExecute {s t : ListScreen R} (h : s.step code device .onPostExecute = some t) :
    ∃ task rest, s.ended = task :: rest ∧ t = s.onPostExecute code task rest := by
  obtain ⟨-, h⟩ := Option.ite_none_left_eq_some.1 h
  cases hended : s.ended with
  | nil =>
      rw [hended] at h
      cases h
  | cons task rest =>
      rw [hended] at h
      exact ⟨task, rest, rfl, (Option.some.inj h).symm⟩

theorem step_respond {s t : ListScreen R} {r : Nat} {a : Answer R}
    (h : s.step code device (.respond r a) = some t) :
    r ∈ s.inFlight ∧ t = s.respond code r a := by
  obtain ⟨-, h⟩ := Option.ite_none_left_eq_some.1 h
  obtain ⟨hr, h⟩ := Option.ite_none_right_eq_some.1 h
  exact ⟨hr, (Option.some.inj h).symm⟩

/-- A tap hits a row of the bound adapter. -/
theorem step_onItemClick {s t : ListScreen R} {i : Nat}
    (h : s.step code device (.onItemClick i) = some t) :
    ∃ adapter x, s.dialogShowing = false ∧ s.panel.listVisible = true ∧
      s.adapter = some adapter ∧ adapter.row i = some x ∧
      t = match adapter.onItemClickListener with
        | some detail => s.onItemClick device detail i
        | none => s := by
  obtain ⟨-, h⟩ := Option.ite_none_left_eq_some.1 h
  obtain ⟨⟨hdialog, hvisible⟩, h⟩ := Option.ite_none_right_eq_some.1 h
  obtain ⟨adapter, hadapter, h⟩ := Option.bind_eq_some_iff.1 h
  obtain ⟨x, hx, rfl⟩ := Option.map_eq_some_iff.1 h
  exact ⟨adapter, x, hdialog, hvisible, hadapter, hx, rfl⟩

/-- What one event does. -/
theorem step_cases {s t : ListScreen R} {e : Event R} (h : s.step code device e = some t) :
    s.crashed = false ∧
    (((e = .execute ∨ e = .onRefresh) ∧ t = s.execute) ∨
    (e = .onLoadMore ∧ t = s.onLoadMore code) ∨
    (e = .doInBackground ∧ 0 < s.queued ∧ s.running = none ∧ t = s.doInBackground) ∨
    (∃ r, e = .waitEnds ∧ s.running = some r ∧ t = s.waitEnds r) ∨
    (∃ task rest, e = .onPostExecute ∧ s.ended = task :: rest ∧
      t = s.onPostExecute code task rest) ∨
    (∃ r a, e = .respond r a ∧ r ∈ s.inFlight ∧ t = s.respond code r a) ∨
    (∃ i adapter x, e = .onItemClick i ∧ s.dialogShowing = false ∧ s.panel.listVisible = true ∧
      s.adapter = some adapter ∧ adapter.row i = some x ∧
      t = match adapter.onItemClickListener with
        | some detail => s.onItemClick device detail i
        | none => s)) := by
  refine ⟨not_crashed_of_step h, ?_⟩
  have hstep := h
  unfold ListScreen.step at h
  obtain ⟨-, h⟩ := Option.ite_none_left_eq_some.1 h
  cases e with
  | execute =>
      obtain rfl := Option.some.inj h
      exact Or.inl ⟨Or.inl rfl, rfl⟩
  | onRefresh =>
      obtain ⟨-, h⟩ := Option.ite_none_right_eq_some.1 h
      obtain rfl := Option.some.inj h
      exact Or.inl ⟨Or.inr rfl, rfl⟩
  | onLoadMore =>
      obtain ⟨-, h⟩ := Option.ite_none_right_eq_some.1 h
      obtain rfl := Option.some.inj h
      exact Or.inr (Or.inl ⟨rfl, rfl⟩)
  | doInBackground =>
      obtain ⟨⟨hqueued, hrunning⟩, h⟩ := Option.ite_none_right_eq_some.1 h
      obtain rfl := Option.some.inj h
      exact Or.inr (Or.inr (Or.inl ⟨rfl, hqueued, hrunning, rfl⟩))
  | waitEnds =>
      obtain ⟨r, hr, rfl⟩ := Option.map_eq_some_iff.1 h
      exact Or.inr (Or.inr (Or.inr (Or.inl ⟨r, rfl, hr, rfl⟩)))
  | onPostExecute =>
      obtain ⟨task, rest, hended, rfl⟩ := step_onPostExecute hstep
      exact Or.inr (Or.inr (Or.inr (Or.inr (Or.inl ⟨task, rest, rfl, hended, rfl⟩))))
  | respond r a =>
      obtain ⟨hr, rfl⟩ := step_respond hstep
      exact Or.inr (Or.inr (Or.inr (Or.inr (Or.inr (Or.inl ⟨r, a, rfl, hr, rfl⟩)))))
  | onItemClick i =>
      obtain ⟨adapter, x, hdialog, hvisible, hadapter, hx, rfl⟩ := step_onItemClick hstep
      exact Or.inr (Or.inr (Or.inr (Or.inr (Or.inr (Or.inr
        ⟨i, adapter, x, rfl, hdialog, hvisible, hadapter, hx, rfl⟩)))))

/-! ## What the fields say about the answers -/

@[simp] theorem someNonEmpty_snoc (log : Log (Answer R)) (r : Nat) (a : Answer R) :
    someNonEmpty (log ++ [(r, a)]) = (someNonEmpty log || a.nonEmpty) := by
  simp [someNonEmpty]

theorem fieldAfter_body (log : Log (Answer R)) (r : Nat) (list : Option (List R)) :
    fieldAfter (log ++ [(r, .body list)]) = list := by
  simp [fieldAfter, value_snoc, Answer.written]

theorem fieldAfter_failure (log : Log (Answer R)) (r : Nat) :
    fieldAfter (log ++ [(r, .failure)]) = fieldAfter log := by
  simp [fieldAfter, value_snoc, Answer.written]

/-- The field, the flag, the results of the tasks and the bound adapter, as functions of the answers
handled so far, by the end of the wait and by the last `setAdapter`. -/
structure Tracked (s : ListScreen R) : Prop where
  newList : s.newList = fieldAfter s.answers
  uploadSuccess : s.uploadSuccess = someNonEmpty s.answers
  results : ∀ task ∈ s.ended, task.result = someNonEmpty task.seen
  adapter : ∀ a, s.adapter = some a →
    ∃ log, s.binds.getLast? = some log ∧ a.list = fieldAfter log
  binds : ∀ log ∈ s.binds, log <+: s.answers
  chain : s.binds.Pairwise (· <+: ·)

theorem Tracked.execute {s : ListScreen R} (h : Tracked s) : Tracked s.execute :=
  ⟨h.newList, h.uploadSuccess, h.results, h.adapter, h.binds, h.chain⟩

theorem Tracked.requestDataFromServer {s : ListScreen R} (h : Tracked s) :
    Tracked s.requestDataFromServer :=
  ⟨h.newList, h.uploadSuccess, h.results, h.adapter, h.binds, h.chain⟩

theorem Tracked.setAdapter {s : ListScreen R} (h : Tracked s) (listener : Option Detail) :
    Tracked (s.setAdapter listener) where
  newList := h.newList
  uploadSuccess := h.uploadSuccess
  results := h.results
  adapter := by
    intro a ha
    obtain rfl := Option.some.inj ha
    exact ⟨s.answers, by simp [ListScreen.setAdapter], h.newList⟩
  binds := by
    intro log hlog
    rcases List.mem_append.1 hlog with hlog | hlog
    · exact h.binds log hlog
    · rw [List.mem_singleton.1 hlog]
      exact List.prefix_refl s.answers
  chain := by
    refine List.pairwise_append.2 ⟨h.chain, List.pairwise_singleton _ _, ?_⟩
    intro p hp q hq
    rw [List.mem_singleton.1 hq]
    exact h.binds p hp

theorem Tracked.respond {s : ListScreen R} (h : Tracked s) (r : Nat) (a : Answer R) :
    Tracked (s.respond code r a) := by
  have hbinds : ∀ log ∈ s.binds, log <+: s.answers ++ [(r, a)] := by
    intro log hlog
    exact (h.binds log hlog).trans (List.prefix_append _ _)
  cases a with
  | failure =>
      refine ⟨?_, ?_, h.results, h.adapter, hbinds, h.chain⟩
      · -- a failure writes neither the field nor the flag
        exact h.newList.trans (fieldAfter_failure s.answers r).symm
      · simp [ListScreen.respond, h.uploadSuccess, Answer.nonEmpty]
  | body list =>
      refine ⟨?_, ?_, h.results, h.adapter, hbinds, h.chain⟩
      · -- a body replaces the field, whatever request it answers
        exact (fieldAfter_body s.answers r list).symm
      · simp [ListScreen.respond, h.uploadSuccess]

theorem tracked_step {s t : ListScreen R} {e : Event R} (hs : Tracked s)
    (h : s.step code device e = some t) : Tracked t := by
  obtain ⟨-, ⟨-, rfl⟩ | ⟨-, rfl⟩ | ⟨-, -, -, rfl⟩ | ⟨r, -, -, rfl⟩ | ⟨task, rest, -, hended, rfl⟩ |
    ⟨r, a, -, -, rfl⟩ | ⟨i, adapter, x, -, -, -, -, -, rfl⟩⟩ := step_cases h
  · exact hs.execute
  · rw [ListScreen.onLoadMore]
    cases code.loadingListener with
    | none => exact hs.execute
    | refreshes => exact hs.execute
    -- the own request of `onLoadMore`, and the rebinding of the present list
    | refreshesAndRebinds => exact hs.execute.requestDataFromServer.setAdapter none
  · obtain ⟨hlist, hflag, hresults, hadapter, hbinds, hchain⟩ := hs.requestDataFromServer
    exact ⟨hlist, hflag, hresults, hadapter, hbinds, hchain⟩
  · refine ⟨hs.newList, hs.uploadSuccess, ?_, hs.adapter, hs.binds, hs.chain⟩
    intro task htask
    rcases List.mem_append.1 htask with htask | htask
    · exact hs.results task htask
    · -- the task that ends now has read the flag of this state
      rw [List.mem_singleton.1 htask]
      exact hs.uploadSuccess
  · -- the task that reports leaves the queue, the others keep their results
    have hresults : ∀ task ∈ rest, task.result = someNonEmpty task.seen := by
      intro task' htask'
      apply hs.results
      rw [hended]
      exact List.mem_cons_of_mem _ htask'
    rw [ListScreen.onPostExecute]
    split
    · have hs' : Tracked { s with
          ended := rest, progressDialog := s.progressDialog.map fun _ => false } :=
        ⟨hs.newList, hs.uploadSuccess, hresults, hs.adapter, hs.binds, hs.chain⟩
      obtain ⟨hlist, hflag, hresults', hadapter, hbinds, hchain⟩ :=
        hs'.setAdapter code.itemClick
      exact ⟨hlist, hflag, hresults', hadapter, hbinds, hchain⟩
    · exact ⟨hs.newList, hs.uploadSuccess, hresults, hs.adapter, hs.binds, hs.chain⟩
  · exact hs.respond r a
  · -- a tap starts an activity or crashes, and writes neither the field nor the flag
    cases adapter.onItemClickListener with
    | none => exact hs
    | some detail =>
        show Tracked (s.onItemClick device detail i)
        rw [ListScreen.onItemClick]
        split
        · exact ⟨hs.newList, hs.uploadSuccess, hs.results, hs.adapter, hs.binds, hs.chain⟩
        · exact ⟨hs.newList, hs.uploadSuccess, hs.results, hs.adapter, hs.binds, hs.chain⟩

theorem tracked_of_run {es : List (Event R)} {s : ListScreen R}
    (h : Run (machine code device) es s) : Tracked s := by
  apply h.invariant
  · refine ⟨rfl, rfl, ?_, ?_, ?_, List.Pairwise.nil⟩
    · intro task htask
      cases htask
    · intro a ha
      cases ha
    · intro log hlog
      cases hlog
  · intro s e t hs _ hst
    exact tracked_step hs hst

end IotClient.Lists.Screens
