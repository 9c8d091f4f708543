import IotClient.Lists.Handlers

/-!
# What a refresh reports

A refresh should take its success branch exactly when its own request returned a non-empty list
before its wait ended, bind a list that is neither null nor empty, and dereference no null list
(`Reports`). The code decides by a flag that is never reset, binds whatever the field holds by then,
and its handlers read the field again after they have assigned it. As long as no list is stored
between the store of a handler and its call of `size` (`Undisturbed`), a refresh reports what its
request returned exactly when

* once any request of the screen has returned a non-empty list by the end of the wait, its own
  request has too, and the last body that was stored is a non-empty list, and is not null when the
  temperature screen logs it, and
* on the history screens, whose handler calls `toString` behind its null check, no body parses to
  null (`Informed`).

`reports_iff` says so of every run of every screen.
-/

set_option autoImplicit false

namespace IotClient.Lists.Refresh

open IotClient.Foundation.Register
open IotClient.Foundation.Runs
open IotClient.Lists.Handlers
open IotClient.Lists.Screens

variable {R : Type} {code : ScreenCode} {device : R → String}

/-- The condition under which an event of a screen is reported as its own request was answered. -/
structure Informed (code : ScreenCode) (s : Threads R) (e : ThreadEvent R) : Prop where
  own : ∀ task rest, e = .screen .onPostExecute → s.screen.ended = task :: rest →
    someNonEmpty task.seen = true → returnedNonEmpty task.seen task.request = true
  last : ∀ task rest, e = .screen .onPostExecute → s.screen.ended = task :: rest →
    someNonEmpty task.seen = true → ∃ x xs, fieldAfter s.stored = some (x :: xs)
  logged : e = .logList → ∃ list, fieldAfter s.stored = some list
  body : ∀ r, e = .screen (.respond r (.body none)) → code.toStringInHandler = false

/-- A refresh reports what its own request returned, binds a non-empty list when it succeeds, and no
handler or adapter dereferences a null list. A request has returned when its handler has run to its
end. -/
structure Reports (code : ScreenCode) (device : R → String) (s : Threads R)
    (e : ThreadEvent R) : Prop where
  outcome : ∀ task rest, e = .screen .onPostExecute → s.screen.ended = task :: rest →
    (task.result = true ↔ returnedNonEmpty task.seen task.request = true)
  bound : ∀ task rest t, e = .screen .onPostExecute → s.screen.ended = task :: rest →
    task.result = true → s.step code device e = some t →
    ∃ x xs listener, t.screen.adapter = some ⟨some (x :: xs), listener⟩
  noNull : ∀ t, (∀ i, e ≠ .screen (.onItemClick i)) → s.step code device e = some t →
    t.screen.crashed = false

/-! ## The branches of `onPostExecute` -/

theorem someNonEmpty_of_returned {log : Log (Answer R)} {r : Nat}
    (h : returnedNonEmpty log r = true) : someNonEmpty log = true := by
  simp only [returnedNonEmpty, someNonEmpty, List.any_eq_true, Bool.and_eq_true] at h ⊢
  obtain ⟨entry, hmem, -, hne⟩ := h
  exact ⟨entry, hmem, hne⟩

/-- The success branch binds the list of the field. -/
theorem onPostExecute_adapter {task : Ended R} (h : task.result = true) (s : ListScreen R)
    (rest : List (Ended R)) :
    (s.onPostExecute code task rest).adapter = some ⟨s.newList, code.itemClick⟩ := by
  simp [ListScreen.onPostExecute, h, ListScreen.setAdapter]

/-- The success branch crashes only on a null list. -/
theorem onPostExecute_crashed {s : ListScreen R} (hs : s.crashed = false) {task : Ended R}
    {rest : List (Ended R)} (h : task.result = true → ∃ list, s.newList = some list) :
    (s.onPostExecute code task rest).crashed = false := by
  cases hresult : task.result with
  | false => simpa [ListScreen.onPostExecute, hresult] using hs
  | true =>
      obtain ⟨list, hlist⟩ := h hresult
      simp [ListScreen.onPostExecute, hresult, ListScreen.setAdapter, Adapter.getItemCount, hlist]

theorem onLoadMore_crashed (s : ListScreen R) : (s.onLoadMore code).crashed = s.crashed := by
  rw [ListScreen.onLoadMore]
  cases code.loadingListener <;> rfl

theorem respond_crashed {s : ListScreen R} (hs : s.crashed = false) (r : Nat) (a : Answer R) :
    (s.respond code r a).crashed = true ↔ a = .body none ∧ code.toStringInHandler = true := by
  match a with
  | .failure => simp [ListScreen.respond, hs]
  | .body none => simp [ListScreen.respond]
  | .body (some list) => simp [ListScreen.respond]

/-- The step of `onPostExecute` on the screen of the threads. -/
theorem screen_onPostExecute {s t : Threads R} {task : Ended R} {rest : List (Ended R)}
    (hended : s.screen.ended = task :: rest)
    (h : s.step code device (.screen .onPostExecute) = some t) :
    t.screen = s.screen.onPostExecute (withoutLog code) task rest := by
  obtain ⟨u, -, -, hu, rfl⟩ := threads_screen h
  obtain ⟨task', rest', hended', rfl⟩ := step_onPostExecute hu
  rw [hended] at hended'
  cases hended'
  rfl

/-! ## One step -/

theorem reports_of_informed {s : Threads R} {e : ThreadEvent R} (hs : Tracked code s)
    (h : Informed code s e) : Reports code device s e := by
  -- the result that a task brings along is the flag, that is, any non-empty answer it had seen
  have hresult : ∀ task rest, s.screen.ended = task :: rest →
      task.result = someNonEmpty task.seen := by
    intro task rest hended
    apply hs.results
    rw [hended]
    exact List.mem_cons_self
  have hlist : ∀ task rest, e = .screen .onPostExecute → s.screen.ended = task :: rest →
      task.result = true → ∃ x xs, s.screen.newList = some (x :: xs) := by
    intro task rest he hended htrue
    rw [hresult task rest hended] at htrue
    rw [hs.newList]
    exact h.last task rest he hended htrue
  refine ⟨?_, ?_, ?_⟩
  · intro task rest he hended
    rw [hresult task rest hended]
    -- an answer of the own request is in particular some answer
    exact ⟨h.own task rest he hended, someNonEmpty_of_returned⟩
  · intro task rest u he hended htrue hu
    obtain ⟨x, xs, hnew⟩ := hlist task rest he hended htrue
    subst he
    -- the success branch binds what the field holds
    rw [screen_onPostExecute hended hu, onPostExecute_adapter htrue, hnew]
    exact ⟨x, xs, _, rfl⟩
  · intro u hclick hu
    obtain ⟨se, v, rfl, -, -, hv, rfl⟩ | ⟨r, list, -, hcrashed, -, -, rfl⟩ |
      ⟨i, handler, -, hcrashed, hhandler, rfl⟩ | ⟨he, -, -, rfl⟩ := threads_cases hu
    · show v.crashed = false
      obtain ⟨hcrashed, ⟨-, rfl⟩ | ⟨-, rfl⟩ | ⟨-, -, -, rfl⟩ | ⟨r, -, -, rfl⟩ |
        ⟨task, rest, he, hended, rfl⟩ | ⟨r, a, he, -, rfl⟩ | ⟨i, adapter, x, he, -⟩⟩ :=
        step_cases hv
      · exact hcrashed
      · rw [onLoadMore_crashed]
        exact hcrashed
      · exact hcrashed
      · exact hcrashed
      · apply onPostExecute_crashed hcrashed
        intro htrue
        obtain ⟨x, xs, hnew⟩ := hlist task rest (congrArg _ he) hended htrue
        exact ⟨x :: xs, hnew⟩
      · -- a handler of one step crashes on a null list only where it calls `toString`
        rw [← Bool.not_eq_true, respond_crashed hcrashed]
        rintro ⟨rfl, htoString⟩
        rw [show (withoutLog code).toStringInHandler = code.toStringInHandler from rfl,
          h.body r (congrArg _ he)] at htoString
        cases htoString
      · exact absurd (congrArg _ he) (hclick i)
    · exact hcrashed
    · -- a handler that finds its own list does not call `size` on null
      exact (hs.access hcrashed hhandler).2
    · obtain ⟨list, hlogged⟩ := h.logged he
      show s.screen.newList.isNone = false
      rw [hs.newList, hlogged]
      rfl

theorem informed_of_reports {s t : Threads R} {e : ThreadEvent R} (hs : Tracked code s)
    (hst : s.step code device e = some t) (h : Reports code device s e) : Informed code s e := by
  have hresult : ∀ task rest, s.screen.ended = task :: rest → someNonEmpty task.seen = true →
      task.result = true := by
    intro task rest hended hseen
    rw [← hseen]
    apply hs.results
    rw [hended]
    exact List.mem_cons_self
  refine ⟨?_, ?_, ?_, ?_⟩
  · intro task rest he hended hseen
    exact (h.outcome task rest he hended).1 (hresult task rest hended hseen)
  · intro task rest he hended hseen
    have htrue := hresult task rest hended hseen
    obtain ⟨x, xs, listener, hadapter⟩ := h.bound task rest t he hended htrue hst
    subst he
    -- the list that the adapter got is the list of the field
    rw [screen_onPostExecute hended hst, onPostExecute_adapter htrue] at hadapter
    rw [← hs.newList]
    exact ⟨x, xs, by simpa using congrArg (Option.map Adapter.list) hadapter⟩
  · intro he
    subst he
    have hclean := h.noNull t (fun i => by simp) hst
    obtain ⟨-, -, rfl⟩ := threads_logList hst
    rw [← hs.newList]
    exact Option.isSome_iff_exists.1 (Option.isNone_eq_false_iff.1 hclean)
  · intro r he
    subst he
    have hclean := h.noNull t (fun i => by simp) hst
    obtain ⟨u, -, -, hu, rfl⟩ := threads_screen hst
    cases htoString : code.toStringInHandler with
    | false => rfl
    | true =>
        -- `toString` of the null list, behind the null check
        have hcrashed := not_crashed_of_step hu
        obtain ⟨-, rfl⟩ := step_respond hu
        have hcrash : (s.screen.respond (withoutLog code) r (.body none)).crashed = true :=
          (respond_crashed hcrashed r _).2 ⟨rfl, htoString⟩
        rw [show (s.screen.respond (withoutLog code) r (.body none)).crashed = false from hclean]
          at hcrash
        cases hcrash

/-! ## Runs -/

/-- On every screen the runs with undisturbed handlers whose refreshes report what their own requests
returned are the runs with undisturbed handlers whose steps all meet `Informed`. -/
theorem reports_iff (code : ScreenCode) (device : R → String) (es : List (ThreadEvent R))
    (s : Threads R) :
    RunUnder (threads code device) (fun s e => Undisturbed s e ∧ Informed code s e) es s ↔
      RunUnder (threads code device) (fun s e => Undisturbed s e ∧ Reports code device s e)
        es s := by
  apply runUnder_congr
  intro es s e t hrun hst
  have htracked := tracked_of_run (fun s e h => h.1) hrun
  constructor
  · rintro ⟨hundisturbed, hinformed⟩
    exact ⟨hundisturbed, reports_of_informed htracked hinformed⟩
  · rintro ⟨hundisturbed, hreports⟩
    exact ⟨hundisturbed, informed_of_reports htracked hst hreports⟩

/-- A refresh that returns one record, and a second one whose request is not answered in time. -/
def secondUnanswered : List (ThreadEvent String) :=
  [.screen .execute, .screen .doInBackground, .store 0 (some ["1"]), .access 0, .access 0,
    .access 0, .screen .waitEnds, .screen .onPostExecute, .logList, .screen .execute,
    .screen .doInBackground, .screen .waitEnds]

/-- On the temperature screen the second refresh takes the success branch although its request has
returned nothing. -/
theorem second_refresh_succeeds_unanswered :
    ∃ s, Run (threads temperatureFragment id) (secondUnanswered ++ [.screen .onPostExecute]) s ∧
      ¬ RunUnder (threads temperatureFragment id) (Reports temperatureFragment id)
        (secondUnanswered ++ [.screen .onPostExecute]) s := by
  have hlast : ((threads temperatureFragment id).exec
      (secondUnanswered ++ [.screen .onPostExecute])).map (fun s => s.screen.crashed) =
        some false := by decide
  have hexec : ((threads temperatureFragment id).exec secondUnanswered).map (fun s =>
      s.screen.ended.map fun task => (task.result, returnedNonEmpty task.seen task.request)) =
        some [(true, false)] := by decide
  obtain ⟨s, hrun, -⟩ := exists_run_of_exec _ _ _ hlast
  refine ⟨s, hrun, not_runUnder_snoc _ _ _ hexec ?_ s⟩
  intro u hended hreports
  obtain ⟨task, htask, hpair⟩ := List.map_eq_singleton_iff.1 hended
  obtain ⟨hresult, hreturned⟩ := Prod.mk.inj hpair
  have houtcome := (hreports.outcome task [] rfl htask).1 hresult
  rw [hreturned] at houtcome
  cases houtcome

/-- On the sensirion screen two refreshes are answered at once, and a body that parses to null lands
between the two reads of the other handler, which then calls `size` on null. -/
def disturbed : List (ThreadEvent String) :=
  [.screen .execute, .screen .execute, .screen .doInBackground, .screen .waitEnds,
    .screen .doInBackground, .store 0 (some ["1"]), .access 0, .store 1 none, .access 0]

example : ((threads sensirionFragment id).exec disturbed).map (fun s => s.screen.crashed) =
    some true := by decide

end IotClient.Lists.Refresh
