import IotClient.Lists.Screens

/-!
# The panel of a history screen

The panel of a screen is a fold of the results passed to `onPostExecute` (`panel_of_run`), when the
screen was created with a network connection; without one it starts with the error page. On a
history screen it should depend on the last result and on whether there was any success: the list or
the error page, and one divider as soon as there is a row to divide (`settledPanel`). The three
activities add a divider with every success, and none of them shows a list that a failure has
hidden. So the panel is settled exactly when there was one success at most, and a last success has no
failure before it (`ShownOnce`, `history_iff`).
-/

set_option autoImplicit false

namespace IotClient.Lists.History

open IotClient.Foundation.Runs
open IotClient.Lists.Screens

variable {R : Type} {code : ScreenCode} {device : R → String}

/-! ## The panel as a fold of the results -/

/-- What `onPostExecute` does to the panel. -/
def applyResult (code : ScreenCode) (p : Panel) (result : Bool) : Panel :=
  if result then p.onSuccess code else p.onFailure

/-- The panel after the results of the completed refreshes. -/
def panelAfter (code : ScreenCode) (results : List Bool) : Panel :=
  results.foldl (applyResult code) code.createdPanel

theorem panelAfter_snoc (results : List Bool) (result : Bool) :
    panelAfter code (results ++ [result]) = applyResult code (panelAfter code results) result := by
  simp [panelAfter]

/-- Only `onPostExecute` changes the panel, by the result of the task that it reports. -/
theorem step_panel {s t : ListScreen R} {e : Event R} (h : s.step code device e = some t) :
    t.panel = s.panel ∨
      ∃ task rest, e = .onPostExecute ∧ s.ended = task :: rest ∧
        t.panel = applyResult code s.panel task.result := by
  obtain ⟨-, ⟨-, rfl⟩ | ⟨-, rfl⟩ | ⟨-, -, -, rfl⟩ | ⟨r, -, -, rfl⟩ | ⟨task, rest, he, hended, rfl⟩ |
    ⟨r, a, -, -, rfl⟩ | ⟨i, adapter, x, -, -, -, -, -, rfl⟩⟩ := step_cases h
  · exact Or.inl rfl
  · left
    rw [ListScreen.onLoadMore]
    cases code.loadingListener <;> rfl
  · exact Or.inl rfl
  · exact Or.inl rfl
  · right
    refine ⟨task, rest, he, hended, ?_⟩
    rw [ListScreen.onPostExecute, applyResult]
    split <;> rfl
  · left
    cases a <;> rfl
  · left
    cases adapter.onItemClickListener with
    | none => rfl
    | some detail =>
        show (s.onItemClick device detail i).panel = s.panel
        rw [ListScreen.onItemClick]
        split <;> rfl

/-- The panel of a screen that was created with a network connection is the fold of the results of
its completed refreshes. -/
theorem panel_of_run {es : List (Event R)} {s : ListScreen R}
    (h : Run (machine code device) es s) : ∃ results, s.panel = panelAfter code results := by
  apply h.invariant (I := fun s => ∃ results, s.panel = panelAfter code results)
  · exact ⟨[], rfl⟩
  · rintro s e t ⟨results, hs⟩ - hst
    rcases step_panel hst with hpanel | ⟨task, rest, -, -, hpanel⟩
    · exact ⟨results, hpanel.trans hs⟩
    · refine ⟨results ++ [task.result], ?_⟩
      rw [hpanel, hs, panelAfter_snoc]

/-! ## The three activities -/

/-- The history screens. -/
inductive HistoryActivity where
  | temp
  | sensir
  | door
deriving DecidableEq, Repr

/-- Their code. -/
def HistoryActivity.screenCode : HistoryActivity → ScreenCode
  | .temp => historyTempActivity
  | .sensir => historySensirActivity
  | .door => historyDoorActivity

/-- The panel that depends on the last result and on whether there was a success. -/
def settledPanel (results : List Bool) (last : Bool) : Panel where
  listVisible := last
  errorPageVisible := !last
  decorations := if true ∈ results ++ [last] then [divider] else []

/-- One success at most, and no failure before a last success. -/
def ShownOnce (results : List Bool) (last : Bool) : Prop :=
  (results ++ [last]).count true ≤ 1 ∧ (last = true → false ∉ results)

/-- The gap that the decorations of a panel add under each row. -/
def Panel.gap (p : Panel) : Int := (p.decorations.map fun d => d.getItemOffsets.bottom).sum

/-- No success of a history screen shows the list again. -/
theorem listVisible_panelAfter (activity : HistoryActivity) (results : List Bool) :
    (panelAfter activity.screenCode results).listVisible = true ↔ false ∉ results := by
  induction results using List.reverseRecOn with
  | nil => cases activity <;> simp [panelAfter, ScreenCode.createdPanel]
  | append_singleton results result ih =>
    rw [panelAfter_snoc]
    cases result with
    | false => simp [applyResult, Panel.onFailure]
    | true =>
        -- none of the three success branches makes the list visible
        have hkeeps : activity.screenCode.showsList = false := by
          cases activity <;> rfl
        simpa [applyResult, Panel.onSuccess, hkeeps] using ih

/-- Every success of a history screen adds a divider. -/
theorem decorations_panelAfter (activity : HistoryActivity) (results : List Bool) :
    (panelAfter activity.screenCode results).decorations =
      List.replicate (results.count true) divider := by
  induction results using List.reverseRecOn with
  | nil => cases activity <;> rfl
  | append_singleton results result ih =>
    rw [panelAfter_snoc, List.count_append]
    cases result with
    | false => simpa [applyResult, Panel.onFailure] using ih
    | true =>
        -- each of them adds a new divider
        have hadds : activity.screenCode.successAdds = [divider] := by
          cases activity <;> rfl
        simp [applyResult, Panel.onSuccess, hadds, ih, List.replicate_succ']

/-- The error page is shown after a failure and hidden as long as there was none. -/
theorem errorPageVisible_panelAfter (activity : HistoryActivity) (results : List Bool)
    (last : Bool) (h : last = true → false ∉ results) :
    (panelAfter activity.screenCode (results ++ [last])).errorPageVisible = !last := by
  rw [panelAfter_snoc]
  cases last with
  | false => simp [applyResult, Panel.onFailure]
  | true =>
      have hhidden : (panelAfter activity.screenCode results).errorPageVisible = false := by
        have hnone := h rfl
        clear h
        induction results using List.reverseRecOn with
        | nil => cases activity <;> rfl
        | append_singleton results result ih =>
          rw [List.mem_append, not_or] at hnone
          obtain rfl : result = true := by simpa using hnone.2
          rw [panelAfter_snoc]
          simp [applyResult, Panel.onSuccess, ih hnone.1]
      simp [applyResult, Panel.onSuccess, hhidden]

/-- The gap under the rows of a history screen grows by the height of the divider with every
success. -/
theorem gap_panelAfter (activity : HistoryActivity) (results : List Bool) :
    Panel.gap (panelAfter activity.screenCode results) = 10 * results.count true := by
  rw [Panel.gap, decorations_panelAfter]
  simp [divider, RecycleViewDivider.getItemOffsets, Int.mul_comm]

/-- The dividers are settled exactly when there was one success at most. -/
theorem replicate_eq_settled (results : List Bool) :
    List.replicate (results.count true) divider = (if true ∈ results then [divider] else []) ↔
      results.count true ≤ 1 := by
  by_cases hmem : true ∈ results
  · have hpos := List.count_pos_iff.2 hmem
    rw [if_pos hmem]
    constructor
    · intro h
      -- two dividers are not one
      have hlength := congrArg List.length h
      simp only [List.length_replicate, List.length_singleton] at hlength
      omega
    · intro hle
      obtain hone : results.count true = 1 := by omega
      rw [hone, List.replicate_one]
  · rw [if_neg hmem, List.count_eq_zero.2 hmem]
    simp

/-- After a non-empty sequence of results the panel of a history screen is settled exactly when
there was one success at most and a last success has no failure before it. Two such sequences that
end in the same result, and both contain a success if either does, lead to the same panel. -/
theorem history_iff (activity : HistoryActivity) (results : List Bool) (last : Bool) :
    (panelAfter activity.screenCode (results ++ [last]) = settledPanel results last ↔
      ShownOnce results last) ∧
    ∀ others, ShownOnce results last → ShownOnce others last →
      (true ∈ results ++ [last] ↔ true ∈ others ++ [last]) →
      panelAfter activity.screenCode (results ++ [last]) =
        panelAfter activity.screenCode (others ++ [last]) := by
  have hiff : ∀ results : List Bool,
      panelAfter activity.screenCode (results ++ [last]) = settledPanel results last ↔
        ShownOnce results last := by
    intro results
    have hdecorations : (panelAfter activity.screenCode (results ++ [last])).decorations =
        (settledPanel results last).decorations ↔ (results ++ [last]).count true ≤ 1 := by
      rw [decorations_panelAfter, ← replicate_eq_settled, settledPanel]
    have hlist : (panelAfter activity.screenCode (results ++ [last])).listVisible = last ↔
        (last = true → false ∉ results) := by
      have h := listVisible_panelAfter activity (results ++ [last])
      cases last with
      | false => simpa using h
      | true => simpa using h
    constructor
    · intro h
      exact ⟨hdecorations.1 (by rw [h]), hlist.1 (by rw [h]; rfl)⟩
    · rintro ⟨hcount, hlast⟩
      have hvisible := hlist.2 hlast
      have herror := errorPageVisible_panelAfter activity results last hlast
      have hadded := hdecorations.2 hcount
      -- a panel is its two visibilities and its decorations
      generalize panelAfter activity.screenCode (results ++ [last]) = p at *
      cases p
      exact (Panel.mk.injEq ..).mpr ⟨hvisible, herror, hadded⟩
  refine ⟨hiff results, fun others hresults hothers hmem => ?_⟩
  rw [(hiff results).2 hresults, (hiff others).2 hothers, settledPanel, settledPanel]
  simp only [hmem]

/-- A failure followed by a success leaves the list of the door history hidden, and so differs from
a single success; two successes leave two dividers. -/
theorem history_depends_on_more :
    panelAfter historyDoorActivity [false, true] ≠ panelAfter historyDoorActivity [true] ∧
      (panelAfter historyDoorActivity [false, true]).listVisible = false ∧
      (panelAfter historyDoorActivity [false, true]).errorPageVisible = true ∧
      (panelAfter historyDoorActivity [true, true]).decorations.length = 2 := by
  decide

/-- A failure between a success and the last failure changes nothing. -/
theorem history_same_panel :
    panelAfter historyDoorActivity ([true, false] ++ [false]) =
      panelAfter historyDoorActivity ([true] ++ [false]) :=
  (history_iff .door [true, false] false).2 [true] ⟨by decide, by decide⟩ ⟨by decide, by decide⟩
    (by decide)

end IotClient.Lists.History
