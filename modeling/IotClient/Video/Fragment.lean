import IotClient.Foundation.Attempts
import IotClient.Video.MjpegView

/-!
# The video panel

`VideoFragment` builds a stream view with every `onCreateView` and starts stream opens from five
places: the view's creation, a connectivity broadcast that finds a network, and `SUCCESS_ON`, whose
busy wait calls `loadIpCam` as often as ten milliseconds allow. An open that succeeds hands its
stream to the view that the field `mjpegView` names then.

Every view of a run has a run of its own (`views_reached`), so what a guard gives for one view it
gives for all views of the fragment (`onePlayer_views`). Nothing in the fragment keeps two opens
from succeeding one after the other, and then the first stream stays open beside the second, read by
two threads (`second_open_two_players`); from whatever state a success breaks the guard, such a
state can be reached (`defect_of_not_stopped`).
-/

set_option autoImplicit false

namespace IotClient.Video.Fragment

open IotClient.Foundation.Attempts (Issued)
open IotClient.Foundation.Runs
open IotClient.Video.MjpegView

/-- `VideoFragment`. The head of `views` is the view that the field `mjpegView` names, the others
are those it named before. `opens` has the numbers of the opens in flight; an open's stream has the
same number. -/
structure VideoFragment where
  views : List MjpegViewDefault
  registered : Bool
  streamVisible : Bool
  errorPageVisible : Bool
  opens : List Nat
  started : Nat
deriving DecidableEq, Repr

/-- What happens to the fragment. `onReceive` has the number of networks found, `successOn` the
number of rounds that the busy wait takes, and `view` an event of the `k`-th view. -/
inductive Event where
  | onCreateView
  | onDestroyView
  | onReceive (networks : Nat)
  | successOn (rounds : Nat)
  | successOff
  | openSucceeds (stream : Nat)
  | openFails (stream : Nat)
  | view (k : Nat) (event : ViewEvent)
deriving DecidableEq, Repr

/-- `loadIpCam` starts an open. -/
def VideoFragment.loadIpCam (s : VideoFragment) : VideoFragment :=
  { s with opens := s.opens ++ [s.started], started := s.started + 1 }

/-- The busy wait of `SUCCESS_ON`. -/
def VideoFragment.busyWait (s : VideoFragment) : Nat → VideoFragment
  | 0 => s
  | rounds + 1 => s.loadIpCam.busyWait rounds

/-- `initView` on a newly inflated layout, which shows the stream view and hides the error page. -/
def VideoFragment.initView (s : VideoFragment) : VideoFragment :=
  VideoFragment.loadIpCam
    { s with views := newView :: s.views, streamVisible := true, errorPageVisible := false }

/-- `NetWorkStateReceiver.onReceive`, in the branch of the supported API levels. -/
def VideoFragment.onReceive (s : VideoFragment) (networks : Nat) : VideoFragment :=
  if networks = 0 then { s with streamVisible := false, errorPageVisible := true }
  -- the error page is left as it is here, unlike in the branch for old levels
  else { s with streamVisible := true }.loadIpCam

/-- `SUCCESS_ON` in `handleMessage`. -/
def VideoFragment.successOn (s : VideoFragment) (rounds : Nat) : VideoFragment :=
  { s with errorPageVisible := false, streamVisible := true }.loadIpCam.busyWait rounds

/-- `SUCCESS_OFF` in `handleMessage`. -/
def VideoFragment.successOff (s : VideoFragment) : VideoFragment :=
  { s with errorPageVisible := true, streamVisible := false }

/-- `subscribe`, when the open succeeds. -/
def VideoFragment.onNext (s : VideoFragment) (stream : Nat) : VideoFragment :=
  { s with
    views := s.views.modifyHead fun mjpegView => mjpegView.setSource stream
    errorPageVisible := false
    streamVisible := true
    opens := s.opens.erase stream }

/-- `subscribe`, when the open fails. -/
def VideoFragment.onError (s : VideoFragment) (stream : Nat) : VideoFragment :=
  { s with streamVisible := false, errorPageVisible := true, opens := s.opens.erase stream }

/-- The `k`-th view takes an event. -/
def VideoFragment.onView (s : VideoFragment) (k : Nat) (event : ViewEvent) : Option VideoFragment :=
  (s.views[k]?.bind fun v => v.step event).map fun w => { s with views := s.views.set k w }

/-- One event. Messages and open streams need a view that was created, broadcasts a registered
receiver. -/
def VideoFragment.step (s : VideoFragment) : Event → Option VideoFragment
  | .onCreateView => if s.registered then none else some { s.initView with registered := true }
  | .onDestroyView => if s.registered then some { s with registered := false } else none
  | .onReceive networks => if s.registered then some (s.onReceive networks) else none
  | .successOn rounds => if s.views = [] then none else some (s.successOn rounds)
  | .successOff => if s.views = [] then none else some s.successOff
  | .openSucceeds stream => if stream ∈ s.opens then some (s.onNext stream) else none
  | .openFails stream => if stream ∈ s.opens then some (s.onError stream) else none
  | .view k event => if event.outside then s.onView k event else none

/-- The fragment before its first `onCreateView`. -/
def fragmentMachine : Machine VideoFragment Event where
  init := ⟨[], false, false, false, [], 0⟩
  step := VideoFragment.step

/-! ## The views of a run -/

/-- A successful open meets the guard `G` at the view that takes the stream. -/
def AtView (G : Guard MjpegViewDefault ViewEvent) : Guard VideoFragment Event := fun s e =>
  ∀ stream, e = .openSucceeds stream → ∀ v ∈ s.views.head?, G v (.setSource stream)

@[simp] theorem busyWait_views (s : VideoFragment) (rounds : Nat) :
    (s.busyWait rounds).views = s.views := by
  induction rounds generalizing s with
  | zero => rfl
  | succ rounds ih => exact ih s.loadIpCam

/-- A step builds a view, or hands a stream to the current one, or lets one view take an event, or
leaves the views as they are. -/
theorem views_step {s t : VideoFragment} {e : Event} (h : s.step e = some t) :
    (e = .onCreateView ∧ t.views = newView :: s.views) ∨
    (∃ stream, e = .openSucceeds stream ∧
      t.views = s.views.modifyHead fun v => v.setSource stream) ∨
    (∃ k event v w, e = .view k event ∧ event.outside = true ∧ s.views[k]? = some v ∧
      v.step event = some w ∧ t.views = s.views.set k w) ∨
    t.views = s.views := by
  cases e with
  | onCreateView =>
      obtain ⟨-, h⟩ := Option.ite_none_left_eq_some.1 h
      obtain rfl := Option.some.inj h
      exact .inl ⟨rfl, rfl⟩
  | onDestroyView =>
      obtain ⟨-, h⟩ := Option.ite_none_right_eq_some.1 h
      obtain rfl := Option.some.inj h
      exact .inr (.inr (.inr rfl))
  | onReceive networks =>
      obtain ⟨-, h⟩ := Option.ite_none_right_eq_some.1 h
      obtain rfl := Option.some.inj h
      right; right; right
      rw [VideoFragment.onReceive]
      split <;> rfl
  | successOn rounds =>
      obtain ⟨-, h⟩ := Option.ite_none_left_eq_some.1 h
      obtain rfl := Option.some.inj h
      right; right; right
      rw [VideoFragment.successOn, busyWait_views]
      rfl
  | successOff =>
      obtain ⟨-, h⟩ := Option.ite_none_left_eq_some.1 h
      obtain rfl := Option.some.inj h
      exact .inr (.inr (.inr rfl))
  | openSucceeds stream =>
      obtain ⟨-, h⟩ := Option.ite_none_right_eq_some.1 h
      obtain rfl := Option.some.inj h
      exact .inr (.inl ⟨stream, rfl, rfl⟩)
  | openFails stream =>
      obtain ⟨-, h⟩ := Option.ite_none_right_eq_some.1 h
      obtain rfl := Option.some.inj h
      exact .inr (.inr (.inr rfl))
  | view k event =>
      obtain ⟨hout, h⟩ := Option.ite_none_right_eq_some.1 h
      obtain ⟨w, hw, rfl⟩ := Option.map_eq_some_iff.1 h
      obtain ⟨v, hv, hvw⟩ := Option.bind_eq_some_iff.1 hw
      exact .inr (.inr (.inl ⟨k, event, v, w, rfl, hout, hv, hvw, rfl⟩))

/-- Every view of a run has a run of its own, under the guard that governs its `setSource` calls. -/
theorem views_reached {G : Guard MjpegViewDefault ViewEvent}
    (hG : ∀ v event, event.outside = true → G v event) {es : List Event} {s : VideoFragment}
    (h : RunUnder fragmentMachine (AtView G) es s) :
    ∀ v ∈ s.views, ∃ fs, RunUnder viewMachine G fs v := by
  apply h.invariant (I := fun s => ∀ v ∈ s.views, ∃ fs, RunUnder viewMachine G fs v)
  · intro v hv
    cases hv
  · intro s e t hs hg hst
    rcases views_step hst with ⟨-, hviews⟩ | ⟨stream, rfl, hviews⟩ |
      ⟨k, event, v, w, rfl, hout, hv, hvw, hviews⟩ | hviews <;> rw [hviews]
    · intro v hv
      rcases List.mem_cons.1 hv with rfl | hv
      · -- a view starts its own run when it is built
        exact ⟨[], .start⟩
      · exact hs v hv
    · -- only the current view takes the stream
      cases hold : s.views with
      | nil =>
          intro v hv
          cases hv
      | cons current earlier =>
          rw [hold] at hs
          have hg := hg stream rfl current (by rw [hold]; rfl)
          obtain ⟨fs, hfs⟩ := hs current List.mem_cons_self
          intro v hv
          rcases List.mem_cons.1 hv with rfl | hv
          · exact ⟨_, hfs.snoc hg rfl⟩
          · exact hs v (List.mem_cons_of_mem _ hv)
    · intro u hu
      rcases List.mem_or_eq_of_mem_set hu with hu | rfl
      · exact hs u hu
      · obtain ⟨fs, hfs⟩ := hs v (List.mem_of_getElem? hv)
        exact ⟨_, hfs.snoc (hG v event hout) hvw⟩
    · exact hs

/-! ## One player in each view -/

theorem stopped_of_outside (v : MjpegViewDefault) (event : ViewEvent)
    (h : event.outside = true) : Stopped v event := by
  intro source hsource
  subst hsource
  cases h

/-- Every view of every run is in order when each open that succeeds finds the threads of its view
dead, or never started, and no current stream there. -/
theorem onePlayer_views : ∀ es s, RunUnder fragmentMachine (AtView Stopped) es s →
    ∀ v ∈ s.views, OnePlayer v := by
  intro es s h v hv
  obtain ⟨fs, hfs⟩ := views_reached stopped_of_outside h v hv
  exact onePlayer_of_run hfs

/-- The view is created, the connectivity broadcast that a new receiver gets starts a second open,
and both opens succeed. -/
def openedTwice : List Event :=
  [.onCreateView, .onReceive 1, .view 0 .surfaceCreated, .openSucceeds 0, .view 0 (.threadReads 1),
    .openSucceeds 1, .view 0 (.threadReads 1), .view 0 (.threadReads 2)]

/-- Two threads read from the second stream, and the first is neither current nor closed. -/
theorem second_open_two_players :
    ∃ s, Run fragmentMachine openedTwice s ∧ ∃ v ∈ s.views, ¬ OnePlayer v ∧
      v.threads.count .looping = 2 ∧ v.mIn = some 1 ∧ 0 ∈ v.handed ∧ 0 ∉ v.closed := by
  have hexec : (fragmentMachine.exec openedTwice).map (fun s => s.views) =
      some [⟨[.created, .looping, .looping], some 2, true, true, true, some 1, 0, 0, [0, 1], []⟩] := by
    decide
  obtain ⟨s, hrun, hs⟩ := exists_run_of_exec _ _ _ hexec
  refine ⟨s, hrun, _, by rw [hs]; exact List.mem_cons_self, ?_, rfl, rfl, by decide, by decide⟩
  intro h
  exact absurd (h.thread 1 2 rfl rfl) (by decide)

/-- The surface of the first stream is destroyed, and its thread joined, before the second open
succeeds. -/
def joinedBetween : List Event :=
  [.onCreateView, .view 0 .surfaceCreated, .openSucceeds 0, .view 0 (.threadReads 1),
    .view 0 (.surfaceDestroyed true), .onReceive 1, .view 0 .surfaceCreated, .openSucceeds 1,
    .view 0 (.threadReads 2)]

/-- The check that an open succeeds only where everything before it has stopped. -/
def findsStopped (s : VideoFragment) : Event → Bool
  | .openSucceeds _ =>
      s.views.head?.all fun v => v.mIn == none && v.threads.all fun p => p.alive == false
  | _ => true

/-- One thread at a time reads the streams when the first is joined before the second starts. -/
theorem one_player_joined :
    ∃ s, RunUnder fragmentMachine (AtView Stopped) joinedBetween s ∧
      s.views.map (fun v => (v.threads, v.handed, v.closed)) =
        [([.created, .dead, .looping], [0, 1], [0])] ∧ ∀ v ∈ s.views, OnePlayer v := by
  have hexec : ((fragmentMachine.restrict findsStopped).exec joinedBetween).map
      (fun s => s.views.map fun v => (v.threads, v.handed, v.closed)) =
        some [([.created, .dead, .looping], [0, 1], [0])] := by decide
  obtain ⟨s, hrun, hs⟩ := exists_run_of_exec _ _ _ hexec
  have hguard : RunUnder fragmentMachine (AtView Stopped) joinedBetween s := by
    apply runUnder_of_restrict _ hrun
    rintro u e hcheck stream rfl v hv source -
    rw [Option.mem_def] at hv
    simpa [findsStopped, hv] using hcheck
  exact ⟨s, hguard, hs, onePlayer_views _ s hguard⟩

/-! ## The condition is exact -/

/-- The opens in flight and the opens completed are numbered apart, and only streams of completed
opens were handed to the views. -/
def Numbered (s : VideoFragment) : Prop :=
  ∃ done, Issued s.started s.opens done ∧ ∀ v ∈ s.views, ∀ x ∈ v.handed, x ∈ done

/-- A stream in flight was handed to no view. -/
theorem Numbered.not_handed {s : VideoFragment} (h : Numbered s) {stream : Nat}
    (hmem : stream ∈ s.opens) {v : MjpegViewDefault} (hv : v ∈ s.views) : stream ∉ v.handed := by
  obtain ⟨done, hissued, hhanded⟩ := h
  intro hstream
  exact hissued.not_mem_inFlight (hhanded v hv stream hstream) hmem

theorem Numbered.loadIpCam {s : VideoFragment} (h : Numbered s) : Numbered s.loadIpCam := by
  obtain ⟨done, hissued, hhanded⟩ := h
  exact ⟨done, hissued.issue, hhanded⟩

theorem Numbered.busyWait {s : VideoFragment} (h : Numbered s) (rounds : Nat) :
    Numbered (s.busyWait rounds) := by
  induction rounds generalizing s with
  | zero => exact h
  | succ rounds ih => exact ih h.loadIpCam

theorem Numbered.onNext {s : VideoFragment} (h : Numbered s) {stream : Nat}
    (hmem : stream ∈ s.opens) (hresume : ∀ v ∈ s.views, v.resume = true) :
    Numbered (s.onNext stream) := by
  obtain ⟨done, hissued, hhanded⟩ := h
  refine ⟨done ++ [stream], hissued.complete hmem, ?_⟩
  intro v hv x hx
  cases hviews : s.views with
  | nil => simp [VideoFragment.onNext, hviews] at hv
  | cons current earlier =>
      rw [hviews] at hhanded hresume
      simp only [VideoFragment.onNext, hviews, List.modifyHead_cons] at hv
      rcases List.mem_cons.1 hv with rfl | hv
      · -- the current view has the stream besides those it had
        rw [setSource_eq (hresume current List.mem_cons_self)] at hx
        rcases List.mem_append.1 hx with hx | hx
        · exact List.mem_append_left _ (hhanded current List.mem_cons_self x hx)
        · exact List.mem_append_right _ hx
      · exact List.mem_append_left _ (hhanded v (List.mem_cons_of_mem _ hv) x hx)

theorem numbered_step {s t : VideoFragment} {e : Event} (hs : Numbered s)
    (hresume : ∀ v ∈ s.views, v.resume = true) (h : s.step e = some t) : Numbered t := by
  cases e with
  | onCreateView =>
      obtain ⟨-, h⟩ := Option.ite_none_left_eq_some.1 h
      obtain rfl := Option.some.inj h
      obtain ⟨done, hissued, hhanded⟩ := hs
      refine ⟨done, hissued.issue, ?_⟩
      intro v hv x hx
      rcases List.mem_cons.1 hv with rfl | hv
      · -- the new view was handed nothing
        cases hx
      · exact hhanded v hv x hx
  | onDestroyView =>
      obtain ⟨-, h⟩ := Option.ite_none_right_eq_some.1 h
      obtain rfl := Option.some.inj h
      exact hs
  | onReceive networks =>
      obtain ⟨-, h⟩ := Option.ite_none_right_eq_some.1 h
      obtain rfl := Option.some.inj h
      rw [VideoFragment.onReceive]
      split
      · exact hs
      · exact hs.loadIpCam
  | successOn rounds =>
      obtain ⟨-, h⟩ := Option.ite_none_left_eq_some.1 h
      obtain rfl := Option.some.inj h
      apply Numbered.busyWait
      exact hs.loadIpCam
  | successOff =>
      obtain ⟨-, h⟩ := Option.ite_none_left_eq_some.1 h
      obtain rfl := Option.some.inj h
      exact hs
  | openSucceeds stream =>
      obtain ⟨hmem, h⟩ := Option.ite_none_right_eq_some.1 h
      obtain rfl := Option.some.inj h
      exact hs.onNext hmem hresume
  | openFails stream =>
      obtain ⟨hmem, h⟩ := Option.ite_none_right_eq_some.1 h
      obtain rfl := Option.some.inj h
      obtain ⟨done, hissued, hhanded⟩ := hs
      refine ⟨done ++ [stream], hissued.complete hmem, ?_⟩
      intro v hv x hx
      exact List.mem_append_left _ (hhanded v hv x hx)
  | view k event =>
      obtain ⟨hout, h⟩ := Option.ite_none_right_eq_some.1 h
      obtain ⟨w, hw, rfl⟩ := Option.map_eq_some_iff.1 h
      obtain ⟨v, hv, hvw⟩ := Option.bind_eq_some_iff.1 hw
      obtain ⟨done, hissued, hhanded⟩ := hs
      refine ⟨done, hissued, ?_⟩
      intro u hu x hx
      rcases List.mem_or_eq_of_mem_set hu with hu | rfl
      · exact hhanded u hu x hx
      · rcases step_cases hvw with ⟨source, rfl, -⟩ | ⟨-, hsettles⟩
        · cases hout
        · -- from outside a view is handed nothing
          rw [hsettles.handed] at hx
          exact hhanded v (List.mem_of_getElem? hv) x hx

theorem numbered_of_run {es : List Event} {s : VideoFragment} (h : Run fragmentMachine es s) :
    Numbered s := by
  have hresume : ∀ {es s}, Run fragmentMachine es s → ∀ v ∈ s.views, v.resume = true := by
    intro es s h v hv
    obtain ⟨fs, hfs⟩ := views_reached (G := unguarded) (fun _ _ _ => trivial)
      (h.mono fun _ _ _ _ _ _ _ => trivial) v hv
    exact resume_of_run hfs
  induction h with
  | start =>
      refine ⟨[], Issued.empty, ?_⟩
      intro v hv
      cases hv
  | snoc hrun _ hst ih => exact numbered_step ih (hresume hrun) hst

/-- Every stream is new to the view that takes it. -/
theorem fresh_of_run {es : List Event} {s : VideoFragment} (h : Run fragmentMachine es s) :
    RunUnder fragmentMachine (AtView Fresh) es s := by
  apply h.congr_of
  rintro es s e t hrun hst - stream rfl v hv source hsource
  obtain rfl := ViewEvent.setSource.inj hsource
  obtain ⟨hmem, -⟩ := Option.ite_none_right_eq_some.1 hst
  exact (numbered_of_run hrun).not_handed hmem (List.mem_of_mem_head? hv)

/-- The events of the current view, as events of the fragment. -/
theorem execFrom_view {v w : MjpegViewDefault} {events : List ViewEvent}
    (hout : ∀ event ∈ events, event.outside = true) (h : viewMachine.execFrom v events = some w)
    {s : VideoFragment} {earlier : List MjpegViewDefault} (hs : s.views = v :: earlier) :
    fragmentMachine.execFrom s (events.map (Event.view 0)) =
      some { s with views := w :: earlier } := by
  induction events generalizing v s with
  | nil =>
      obtain rfl := Option.some.inj h
      rw [← hs]
      rfl
  | cons event events ih =>
      obtain ⟨u, hu, hw⟩ := Option.bind_eq_some_iff.1 h
      have hstep : fragmentMachine.step s (.view 0 event) =
          some { s with views := u :: earlier } := by
        have hu : v.step event = some u := hu
        have hevent := hout event List.mem_cons_self
        simp [fragmentMachine, VideoFragment.step, VideoFragment.onView, hevent, hs, hu]
      show (fragmentMachine.step s (.view 0 event)).bind _ = _
      rw [hstep]
      exact ih (fun e he => hout e (List.mem_cons_of_mem _ he)) hw rfl

/-- From every reachable state in which a success breaks the guard, the success leads to a view that
is not in order, at once or when its threads next test `mRun`. -/
theorem defect_of_not_stopped {es : List Event} {s : VideoFragment} {stream : Nat}
    (h : Run fragmentMachine es s) (hmem : stream ∈ s.opens)
    (hbad : ¬ AtView Stopped s (.openSucceeds stream)) :
    ∃ events t, Run fragmentMachine (es ++ .openSucceeds stream :: events) t ∧
      ∃ v ∈ t.views, ¬ OnePlayer v := by
  have hstep : fragmentMachine.step s (.openSucceeds stream) = some (s.onNext stream) := by
    simp [fragmentMachine, VideoFragment.step, hmem]
  -- the guard can only fail at a current view
  cases hviews : s.views with
  | nil =>
      exfalso
      apply hbad
      intro _ _ v hv
      rw [hviews] at hv
      cases hv
  | cons v earlier =>
      have hv : v ∈ s.views := by
        rw [hviews]
        exact List.mem_cons_self
      obtain ⟨fs, hfs⟩ := views_reached
        (fun _ event hout source hsource => by subst hsource; cases hout) (fresh_of_run h) v hv
      have hresume := resume_of_run hfs.toRun
      have hopen := open_of_run hfs
      have hnew : (s.onNext stream).views = v.setSource stream :: earlier := by
        simp [VideoFragment.onNext, hviews]
      by_cases hdead : ∀ p ∈ v.threads, p.alive = false
      · -- all threads are dead, so there is a current stream
        cases hmIn : v.mIn with
        | none =>
            exfalso
            apply hbad
            intro _ _ u hu _ _
            rw [hviews] at hu
            obtain rfl := Option.some.inj hu
            exact ⟨hmIn, hdead⟩
        | some x =>
            obtain ⟨hhanded, hclosed⟩ := hopen.current x hmIn
            have hne : x ≠ stream := by
              rintro rfl
              exact (numbered_of_run h).not_handed hmem hv hhanded
            refine ⟨[], s.onNext stream, h.snoc trivial hstep, v.setSource stream, ?_, ?_⟩
            · rw [hnew]
              exact List.mem_cons_self
            · exact setSource_leaks hresume hhanded hne hclosed
      · obtain ⟨p, hp⟩ := not_forall.1 hdead
        obtain ⟨hp, halive⟩ := Classical.not_imp.1 hp
        rw [Bool.not_eq_false] at halive
        obtain ⟨i, hi⟩ := List.mem_iff_getElem?.1 hp
        obtain ⟨w, hexec, hbad⟩ := setSource_two_players hresume
          (by rw [hi]; exact halive) stream
        obtain ⟨u, hu, hexec⟩ := Option.bind_eq_some_iff.1 hexec
        obtain rfl : v.setSource stream = u := Option.some.inj hu
        have hview := execFrom_view (by simp [ViewEvent.outside]) hexec hnew
        have hrun := Run.append (h.snoc trivial hstep) hview
        rw [← List.append_cons] at hrun
        refine ⟨_, _, hrun, w, ?_, hbad⟩
        exact List.mem_cons_self

end IotClient.Video.Fragment
