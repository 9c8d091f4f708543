import IotClient.Video.Fragment

/-!
# What the video panel shows

The handlers of `VideoFragment` switch between the stream view and the error page. All of them set
both visibilities but one: the broadcast that finds a network shows the stream view and leaves the
error page as it is, while the branch for old levels hides it. And nothing cancels an open, so one
that was in flight when the camera was switched off, or the network lost, shows the stream view
again when it succeeds.

These are the only ways to go wrong (`reflects_iff`): the panel follows the last control event
exactly in the runs in which a broadcast that finds a network finds the error page hidden, and no
open from before the last switch-off or loss succeeds while the stream view is hidden. The runs
`networkBack` and `offBeforeOpened` fail in the two ways (`panel_not_reflected`).
-/

set_option autoImplicit false

namespace IotClient.Video.Fragment

open IotClient.Foundation.Runs
open IotClient.Video.MjpegView (newView)

/-! ## The property and the condition -/

/-- `SUCCESS_OFF`, or a broadcast that finds no network. -/
def Event.hides : Event → Bool
  | .successOff => true
  | .onReceive networks => networks == 0
  | _ => false

/-- The fragment, with the number of the opens that were started before the most recent
`SUCCESS_OFF` or loss of the network. -/
def panelMachine : Machine (VideoFragment × Nat) Event :=
  fragmentMachine.observed 0 fun s e cancelled => if e.hides then s.started else cancelled

/-- The number changes nothing: the runs are those of the fragment. -/
theorem run_panelMachine_iff (es : List Event) (s : VideoFragment) :
    Run fragmentMachine es s ↔ ∃ cancelled, Run panelMachine es (s, cancelled) :=
  run_observed_iff 0 _ es s

/-- Exactly one of the stream view and the error page is visible. -/
def VideoFragment.OneVisible (s : VideoFragment) : Prop := s.streamVisible = !s.errorPageVisible

/-- After the event exactly one of the two is visible, and if the event is the success of an open
from before the most recent `SUCCESS_OFF` or loss, it has not made the stream view visible. -/
def Reflects : Guard (VideoFragment × Nat) Event := fun s e =>
  ∀ t, fragmentMachine.step s.1 e = some t →
    t.OneVisible ∧
      ∀ stream, e = .openSucceeds stream → stream < s.2 →
        t.streamVisible = true → s.1.streamVisible = true

/-- A broadcast that finds a network finds the error page hidden. -/
def FindsErrorPageHidden : Guard (VideoFragment × Nat) Event := fun s e =>
  ∀ networks, e = .onReceive networks → networks ≠ 0 → s.1.errorPageVisible = false

/-- No open from before the most recent `SUCCESS_OFF` or loss succeeds while the stream view is
hidden. -/
def NoLateSuccess : Guard (VideoFragment × Nat) Event := fun s e =>
  ∀ stream, e = .openSucceeds stream → s.1.streamVisible = false → s.2 ≤ stream

/-! ## What the handlers show -/

theorem busyWait_visible (s : VideoFragment) (rounds : Nat) :
    (s.busyWait rounds).streamVisible = s.streamVisible ∧
      (s.busyWait rounds).errorPageVisible = s.errorPageVisible := by
  induction rounds generalizing s with
  | zero => exact ⟨rfl, rfl⟩
  | succ rounds ih => exact ih s.loadIpCam

/-- Before its first view the fragment is as it was at the start, and afterwards exactly one of the
stream view and the error page is visible. -/
def Settled (s : VideoFragment) : Prop := s = fragmentMachine.init ∨ s.OneVisible

/-- Only a broadcast that finds a network can leave both visible, and does when it finds the error
page visible. -/
theorem oneVisible_step_iff {s t : VideoFragment} {e : Event} (hs : Settled s)
    (h : s.step e = some t) :
    t.OneVisible ↔
      ∀ networks, e = .onReceive networks → networks ≠ 0 → s.errorPageVisible = false := by
  have hother : (∀ networks, e ≠ .onReceive networks) → t.OneVisible →
      (t.OneVisible ↔
        ∀ networks, e = .onReceive networks → networks ≠ 0 → s.errorPageVisible = false) := by
    intro hne hone
    refine ⟨fun _ networks he => absurd he (hne networks), fun _ => hone⟩
  cases e with
  | onCreateView =>
      obtain ⟨-, h⟩ := Option.ite_none_left_eq_some.1 h
      obtain rfl := Option.some.inj h
      exact hother (fun _ => by simp) rfl
  | onDestroyView =>
      obtain ⟨hregistered, h⟩ := Option.ite_none_right_eq_some.1 h
      obtain rfl := Option.some.inj h
      rcases hs with rfl | hs
      · cases hregistered
      · exact hother (fun _ => by simp) hs
  | onReceive networks =>
      obtain ⟨-, h⟩ := Option.ite_none_right_eq_some.1 h
      obtain rfl := Option.some.inj h
      rw [VideoFragment.onReceive]
      by_cases hnetworks : networks = 0
      · rw [if_pos hnetworks]
        refine ⟨fun _ n hn hne => ?_, fun _ => rfl⟩
        rw [← Event.onReceive.inj hn] at hne
        exact absurd hnetworks hne
      · rw [if_neg hnetworks]
        show true = !s.errorPageVisible ↔ _
        rw [Bool.true_eq, Bool.not_eq_true']
        exact ⟨fun hhidden _ _ _ => hhidden, fun hhidden => hhidden networks rfl hnetworks⟩
  | successOn rounds =>
      obtain ⟨-, h⟩ := Option.ite_none_left_eq_some.1 h
      obtain rfl := Option.some.inj h
      apply hother (fun _ => by simp)
      rw [VideoFragment.OneVisible, VideoFragment.successOn, (busyWait_visible _ _).1,
        (busyWait_visible _ _).2]
      rfl
  | successOff =>
      obtain ⟨-, h⟩ := Option.ite_none_left_eq_some.1 h
      obtain rfl := Option.some.inj h
      exact hother (fun _ => by simp) rfl
  | openSucceeds stream =>
      obtain ⟨-, h⟩ := Option.ite_none_right_eq_some.1 h
      obtain rfl := Option.some.inj h
      exact hother (fun _ => by simp) rfl
  | openFails stream =>
      obtain ⟨-, h⟩ := Option.ite_none_right_eq_some.1 h
      obtain rfl := Option.some.inj h
      exact hother (fun _ => by simp) rfl
  | view k event =>
      obtain ⟨-, h⟩ := Option.ite_none_right_eq_some.1 h
      obtain ⟨w, hw, rfl⟩ := Option.map_eq_some_iff.1 h
      rcases hs with rfl | hs
      · -- there is no view yet
        cases hw
      · exact hother (fun _ => by simp) hs

/-- The success of an open always leaves the stream view visible. -/
theorem streamVisible_of_openSucceeds {s t : VideoFragment} {stream : Nat}
    (h : s.step (.openSucceeds stream) = some t) : t.streamVisible = true := by
  obtain ⟨-, h⟩ := Option.ite_none_right_eq_some.1 h
  obtain rfl := Option.some.inj h
  rfl

/-! ## Runs -/

theorem settled_of_run {es : List Event} {s : VideoFragment × Nat}
    (h : RunUnder panelMachine Reflects es s) : Settled s.1 := by
  apply h.invariant (I := fun s => Settled s.1)
  · exact Or.inl rfl
  · intro s e t _ hg hst
    obtain ⟨u, hu, rfl⟩ := Option.map_eq_some_iff.1 hst
    exact Or.inr (hg u hu).1

/-- The video panel reflects the last control event exactly in the runs in which every broadcast
that finds a network finds the error page hidden, and no open from before the most recent
`SUCCESS_OFF` or loss of the network succeeds while the stream view is hidden. -/
theorem reflects_iff (es : List Event) (s : VideoFragment × Nat) :
    RunUnder panelMachine Reflects es s ↔
      RunUnder panelMachine (fun s e => FindsErrorPageHidden s e ∧ NoLateSuccess s e) es s := by
  apply runUnder_congr
  intro es s e t hrun hst
  obtain ⟨u, hu, -⟩ := Option.map_eq_some_iff.1 hst
  have hone := oneVisible_step_iff (settled_of_run hrun) hu
  constructor
  · intro h
    -- a success shows the stream view, so a late one must have found it shown
    obtain ⟨hvisible, hlate⟩ := h u hu
    refine ⟨hone.1 hvisible, ?_⟩
    rintro stream rfl hhidden
    by_contra hlt
    have hshown := hlate stream rfl (Nat.lt_of_not_le hlt) (streamVisible_of_openSucceeds hu)
    rw [hhidden] at hshown
    cases hshown
  · rintro ⟨hfinds, hlate⟩ u' hu'
    obtain rfl : u = u' := Option.some.inj (hu.symm.trans hu')
    refine ⟨hone.2 hfinds, ?_⟩
    rintro stream rfl hlt -
    by_contra hhidden
    have hle := hlate stream rfl (Bool.eq_false_iff.2 hhidden)
    exact absurd hlt (Nat.not_lt.2 hle)

/-! ## The two ways to go wrong -/

/-- The network is lost and comes back. -/
def networkBack : List Event := [.onCreateView, .onReceive 0] ++ [.onReceive 1]

/-- The camera is switched off before the open of `initView` succeeds. -/
def offBeforeOpened : List Event := [.onCreateView, .successOff] ++ [.openSucceeds 0]

/-- Both are visible when the network is back, and the open that succeeds after the switch-off shows
the stream view that was hidden. -/
theorem panel_not_reflected :
    (∃ s, Run panelMachine networkBack s ∧ s.1.streamVisible = true ∧
      s.1.errorPageVisible = true ∧ ¬ RunUnder panelMachine Reflects networkBack s) ∧
    (∃ s, Run panelMachine offBeforeOpened s ∧ s.1.streamVisible = true ∧
      ¬ RunUnder panelMachine Reflects offBeforeOpened s) := by
  have hback : (panelMachine.exec networkBack).map
      (fun s => (s.1.streamVisible, s.1.errorPageVisible)) = some (true, true) := by decide
  have hopened : (panelMachine.exec offBeforeOpened).map (fun s => s.1.streamVisible) =
      some true := by decide
  have hlost : (panelMachine.exec [.onCreateView, .onReceive 0]).map id =
      some (⟨[newView], true, false, true, [0], 1⟩, 1) := by decide
  have hoff : (panelMachine.exec [.onCreateView, .successOff]).map id =
      some (⟨[newView], true, false, true, [0], 1⟩, 1) := by decide
  obtain ⟨s, hs, hshown⟩ := exists_run_of_exec _ _ _ hback
  obtain ⟨t, ht, hagain⟩ := exists_run_of_exec _ _ _ hopened
  obtain ⟨hstream, herror⟩ := Prod.mk.inj hshown
  refine ⟨⟨s, hs, hstream, herror, not_runUnder_snoc _ _ _ hlost ?_ s⟩,
    ⟨t, ht, hagain, not_runUnder_snoc _ _ _ hoff ?_ t⟩⟩
  · -- the broadcast leaves both visible
    rintro s rfl hreflects
    obtain ⟨hone, -⟩ := hreflects _ rfl
    cases hone
  · -- the open was started first, and the stream view was hidden since
    rintro s rfl hreflects
    obtain ⟨-, hlate⟩ := hreflects _ rfl
    have hshown := hlate 0 rfl (by decide) rfl
    cases hshown

end IotClient.Video.Fragment
