import Mathlib.Algebra.Group.Nat.Defs
import Mathlib.Algebra.Order.Group.Unbundled.Int
import IotClient.Foundation.Transducers

/-!
# Recognising taps on a list

`RecyclerViewClickListener.onInterceptTouchEvent` sees every touch event of a list. It remembers
where and when the finger went down and whether it moved since, sets one of two flags when the
finger goes up, and consumes the flag in the same call.

The list itself (`findChildViewUnder`, `getChildLayoutPosition`) comes with the event, as it may
differ from one event to the next. Coordinates lie in screen range, so their differences do not
overflow and are integers here. A reading of the clock is any `long`, and the difference of two
readings is that of Java, which wraps.

* `onInterceptTouchEvent_of_not_up`: no event but UP fires anything.
* `tracks_others`: during a gesture the fields record its DOWN event and whether it moved.
* `onInterceptTouchEvent_gestures`: the answers to any sequence of gestures are those of each
  gesture alone, long clicks being told by what a `long` leaves of the advance of the clock.
-/

set_option autoImplicit false

namespace IotClient.Widgets.RecyclerViewClickListener

open IotClient.Foundation.Transducers

variable {F V : Type}

/-! ## Touch events -/

/-- `MotionEvent.getAction`: the three actions that the listener names, and the others (CANCEL,
the pointer actions) by their code. -/
inductive Action where
  | ACTION_DOWN
  | ACTION_MOVE
  | ACTION_UP
  | other (code : Nat)
deriving DecidableEq, Repr

/-- What the listener asks the list: the child view under a point, and the position of a child. -/
structure RecyclerView (F V : Type) where
  findChildViewUnder : F → F → Option V
  getChildLayoutPosition : V → Int

/-- A call of `onInterceptTouchEvent`: the event, the list at that time and the reading of the
clock. -/
structure MotionEvent (F V : Type) where
  action : Action
  x : F
  y : F
  currentTimeMillis : Int64
  rv : RecyclerView F V

/-- A call of the `OnItemClickListener`. -/
inductive Callback (V : Type) where
  | onItemClick (view : V) (position : Int)
  | onItemLongClick (view : V) (position : Int)
deriving DecidableEq, Repr

/-- What one call of `onInterceptTouchEvent` does: the callback it fires and the value it
returns. -/
structure Answer (V : Type) where
  callback : Option (Callback V)
  intercepted : Bool
deriving DecidableEq

/-! ## The listener -/

/-- The fields of `RecyclerViewClickListener`, without the callback object. -/
structure Listener where
  mLastDownX : Int
  mLastDownY : Int
  touchSlop : Int
  isSingleTapUp : Bool
  isLongPressUp : Bool
  isMove : Bool
  mDownTime : Int64
deriving DecidableEq, Repr

/-- The constructor. -/
def Listener.new (touchSlop : Int) : Listener := ⟨0, 0, touchSlop, false, false, false, 0⟩

/-- `(int) e.getX()` and `(int) e.getY()` are farther than `touchSlop` from the point `x0`, `y0`
in one direction. -/
def beyondSlop (toInt : F → Int) (touchSlop x0 y0 : Int) (e : MotionEvent F V) : Bool :=
  decide (touchSlop < |toInt e.x - x0|) || decide (touchSlop < |toInt e.y - y0|)

/-- The `switch` on the action. -/
def Listener.record (toInt : F → Int) (l : Listener) (e : MotionEvent F V) : Listener :=
  match e.action with
  | .ACTION_DOWN =>
      { l with
        mLastDownX := toInt e.x
        mLastDownY := toInt e.y
        mDownTime := e.currentTimeMillis
        isMove := false }
  | .ACTION_MOVE =>
      if beyondSlop toInt l.touchSlop l.mLastDownX l.mLastDownY e then { l with isMove := true }
      else l
  | .ACTION_UP =>
      if l.isMove then l
      else if 1000 < e.currentTimeMillis - l.mDownTime then { l with isLongPressUp := true }
      else { l with isSingleTapUp := true }
  | .other _ => l

/-- The part after the `switch`: a flag that is set is cleared and fires its callback on the child
under the point. -/
def Listener.fire (l : Listener) (e : MotionEvent F V) : Listener × Answer V :=
  if l.isSingleTapUp then
    match e.rv.findChildViewUnder e.x e.y with
    | some childView =>
        ({ l with isSingleTapUp := false },
          ⟨some (.onItemClick childView (e.rv.getChildLayoutPosition childView)), true⟩)
    | none => ({ l with isSingleTapUp := false }, ⟨none, false⟩)
  else if l.isLongPressUp then
    match e.rv.findChildViewUnder e.x e.y with
    | some childView =>
        ({ l with isLongPressUp := false },
          ⟨some (.onItemLongClick childView (e.rv.getChildLayoutPosition childView)), true⟩)
    | none => ({ l with isLongPressUp := false }, ⟨none, false⟩)
  else (l, ⟨none, false⟩)

/-- `RecyclerViewClickListener.onInterceptTouchEvent`. -/
def onInterceptTouchEvent (toInt : F → Int) (l : Listener) (e : MotionEvent F V) :
    Listener × Answer V :=
  (l.record toInt e).fire e

/-! ## Gestures -/

/-- A gesture: a DOWN event, any events that are neither DOWN nor UP, and possibly an UP event. -/
structure Gesture (F V : Type) where
  down : MotionEvent F V
  others : List (MotionEvent F V)
  up : Option (MotionEvent F V)
  down_action : down.action = .ACTION_DOWN
  others_action : ∀ e ∈ others, e.action ≠ .ACTION_DOWN ∧ e.action ≠ .ACTION_UP
  up_action : ∀ e ∈ up, e.action = .ACTION_UP

namespace Gesture

/-- The events of a gesture in order. -/
def events (g : Gesture F V) : List (MotionEvent F V) := g.down :: g.others ++ g.up.toList

/-- How far the clock has advanced from DOWN to UP. -/
def advance (g : Gesture F V) (up : MotionEvent F V) : Int :=
  up.currentTimeMillis.toInt - g.down.currentTimeMillis.toInt

/-- The advance that is left of it in a `long`. -/
def longAdvance (g : Gesture F V) (up : MotionEvent F V) : Int := (g.advance up).bmod (2 ^ 64)

/-- The advance fits in a `long`, as it does for all readings from 0 on. -/
def ClockInRange (g : Gesture F V) : Prop :=
  ∀ up ∈ g.up, -2 ^ 63 ≤ g.advance up ∧ g.advance up < 2 ^ 63

variable (toInt : F → Int) (touchSlop : Int)

/-- Among the events there is a MOVE farther than `touchSlop` from the point of `down`. -/
def MovedFrom (down : MotionEvent F V) (es : List (MotionEvent F V)) : Prop :=
  ∃ e ∈ es, e.action = .ACTION_MOVE ∧
    (touchSlop < |toInt e.x - toInt down.x| ∨ touchSlop < |toInt e.y - toInt down.y|)

instance (down : MotionEvent F V) (es : List (MotionEvent F V)) :
    Decidable (MovedFrom toInt touchSlop down es) :=
  inferInstanceAs (Decidable (∃ e ∈ es, e.action = .ACTION_MOVE ∧
    (touchSlop < |toInt e.x - toInt down.x| ∨ touchSlop < |toInt e.y - toInt down.y|)))

/-- The callback that the UP event `up` of a gesture is due: none when the finger moved or no child
is under the point, else a long click when more than 1000 ms have passed since DOWN. How much has
passed is told by `elapsed`. -/
def recognised (elapsed : Gesture F V → MotionEvent F V → Int) (g : Gesture F V)
    (up : MotionEvent F V) : Option (Callback V) :=
  if MovedFrom toInt touchSlop g.down g.others then none
  else (up.rv.findChildViewUnder up.x up.y).map fun childView =>
    if 1000 < elapsed g up then
      .onItemLongClick childView (up.rv.getChildLayoutPosition childView)
    else .onItemClick childView (up.rv.getChildLayoutPosition childView)

/-- The answers that the events of a gesture are due, whatever came before it: only its UP event
may fire a callback, and the call that fires one returns true. -/
def expected (elapsed : Gesture F V → MotionEvent F V → Int) (g : Gesture F V) :
    List (Answer V) :=
  (g.down :: g.others).map (fun _ => ⟨none, false⟩) ++
    g.up.toList.map fun up =>
      ⟨g.recognised toInt touchSlop elapsed up, (g.recognised toInt touchSlop elapsed up).isSome⟩

/-- In range nothing of the advance is lost. -/
theorem longAdvance_eq {g : Gesture F V} (h : g.ClockInRange) {up : MotionEvent F V}
    (hup : up ∈ g.up) : g.longAdvance up = g.advance up := by
  obtain ⟨hlow, hhigh⟩ := h up hup
  exact Int.bmod_eq_of_le hlow hhigh

/-- The comparison of the code is about what a `long` leaves of the advance. -/
theorem elapsed_iff (g : Gesture F V) (up : MotionEvent F V) :
    1000 < up.currentTimeMillis - g.down.currentTimeMillis ↔ 1000 < g.longAdvance up := by
  rw [Int64.lt_iff_toInt_lt, Int64.toInt_sub, longAdvance, advance]
  rfl

/-- In range a gesture is due the answers that the advance of the clock asks for. -/
theorem expected_longAdvance {g : Gesture F V} (h : g.ClockInRange) :
    g.expected toInt touchSlop longAdvance = g.expected toInt touchSlop advance := by
  have hmap : ∀ up ∈ g.up.toList,
      g.recognised toInt touchSlop longAdvance up = g.recognised toInt touchSlop advance up := by
    intro up hup
    rw [recognised, recognised, longAdvance_eq h (Option.mem_toList.1 hup)]
  rw [expected, expected]
  congr 1
  refine List.map_congr_left fun up hup => ?_
  rw [hmap up hup]

end Gesture

/-! ## The flags -/

variable {toInt : F → Int} {touchSlop : Int}

/-- Between two calls no flag is set, and the slop is the one of the constructor. -/
structure Idle (touchSlop : Int) (l : Listener) : Prop where
  slop : l.touchSlop = touchSlop
  noSingleTap : l.isSingleTapUp = false
  noLongPress : l.isLongPressUp = false

theorem idle_new (touchSlop : Int) : Idle touchSlop (Listener.new touchSlop) := ⟨rfl, rfl, rfl⟩

theorem fire_idle {l : Listener} (h : Idle touchSlop l) (e : MotionEvent F V) :
    l.fire e = (l, ⟨none, false⟩) := by
  rw [Listener.fire, h.noSingleTap, h.noLongPress]
  rfl

/-- Only an UP event sets a flag. -/
theorem idle_record {l : Listener} (h : Idle touchSlop l) {e : MotionEvent F V}
    (he : e.action ≠ .ACTION_UP) : Idle touchSlop (l.record toInt e) := by
  rw [Listener.record]
  cases haction : e.action with
  | ACTION_DOWN => exact ⟨h.slop, h.noSingleTap, h.noLongPress⟩
  | ACTION_MOVE =>
      show Idle touchSlop (if _ then _ else _)
      split_ifs
      · exact ⟨h.slop, h.noSingleTap, h.noLongPress⟩
      · exact h
  | ACTION_UP => exact absurd haction he
  | other code => exact h

/-- A call for another event than UP fires nothing. -/
theorem onInterceptTouchEvent_of_not_up {l : Listener} (h : Idle touchSlop l)
    {e : MotionEvent F V} (he : e.action ≠ .ACTION_UP) :
    onInterceptTouchEvent toInt l e = (l.record toInt e, ⟨none, false⟩) :=
  fire_idle (idle_record h he) e

/-! ## During a gesture -/

/-- After the events `seen` of a gesture the fields hold the point and the time of its DOWN event,
and whether one of `seen` moved away from that point. -/
structure Tracks (toInt : F → Int) (touchSlop : Int) (down : MotionEvent F V)
    (seen : List (MotionEvent F V)) (l : Listener) : Prop extends Idle touchSlop l where
  downX : l.mLastDownX = toInt down.x
  downY : l.mLastDownY = toInt down.y
  downTime : l.mDownTime = down.currentTimeMillis
  moved : l.isMove = true ↔ Gesture.MovedFrom toInt touchSlop down seen

/-- DOWN starts afresh, whatever the fields held. -/
theorem tracks_down {l : Listener} (h : Idle touchSlop l) {down : MotionEvent F V}
    (hdown : down.action = .ACTION_DOWN) :
    Tracks toInt touchSlop down [] (l.record toInt down) := by
  rw [Listener.record, hdown]
  refine { slop := h.slop, noSingleTap := h.noSingleTap, noLongPress := h.noLongPress,
           downX := rfl, downY := rfl, downTime := rfl, moved := ?_ }
  constructor
  · intro hmove
    cases hmove
  · rintro ⟨e, he, -⟩
    cases he

theorem movedFrom_snoc {down e : MotionEvent F V} {seen : List (MotionEvent F V)} :
    Gesture.MovedFrom toInt touchSlop down (seen ++ [e]) ↔
      Gesture.MovedFrom toInt touchSlop down seen ∨ e.action = .ACTION_MOVE ∧
        (touchSlop < |toInt e.x - toInt down.x| ∨ touchSlop < |toInt e.y - toInt down.y|) := by
  unfold Gesture.MovedFrom
  simp only [List.mem_append, List.mem_singleton, or_and_right, exists_or, exists_eq_left]

/-- Every event up to UP is added to what the fields track. -/
theorem tracks_record {l : Listener} {down e : MotionEvent F V} {seen : List (MotionEvent F V)}
    (h : Tracks toInt touchSlop down seen l)
    (he : e.action ≠ .ACTION_DOWN ∧ e.action ≠ .ACTION_UP) :
    Tracks toInt touchSlop down (seen ++ [e]) (l.record toInt e) := by
  have hidle : Idle touchSlop (l.record toInt e) := idle_record h.toIdle he.2
  cases haction : e.action with
  | ACTION_DOWN => exact absurd haction he.1
  | ACTION_UP => exact absurd haction he.2
  | ACTION_MOVE =>
      have hrecord : l.record toInt e =
          if beyondSlop toInt l.touchSlop l.mLastDownX l.mLastDownY e then
            { l with isMove := true } else l := by
        rw [Listener.record, haction]
      have hbeyond : beyondSlop toInt l.touchSlop l.mLastDownX l.mLastDownY e = true ↔
          touchSlop < |toInt e.x - toInt down.x| ∨ touchSlop < |toInt e.y - toInt down.y| := by
        rw [beyondSlop]
        rw [h.slop, h.downX, h.downY, Bool.or_eq_true, decide_eq_true_eq, decide_eq_true_eq]
      rw [hrecord] at hidle ⊢
      split_ifs at hidle ⊢ with hfar
      · -- the flag is set, and this event is why
        refine { hidle with downX := h.downX, downY := h.downY, downTime := h.downTime,
                            moved := ?_ }
        exact ⟨fun _ => movedFrom_snoc.2 (.inr ⟨haction, hbeyond.1 hfar⟩), fun _ => rfl⟩
      · refine { hidle with downX := h.downX, downY := h.downY, downTime := h.downTime,
                            moved := ?_ }
        rw [h.moved, movedFrom_snoc]
        constructor
        · exact Or.inl
        · rintro (hseen | ⟨-, hmoved⟩)
          · exact hseen
          · exact absurd (hbeyond.2 hmoved) hfar
  | other code =>
      have hrecord : l.record toInt e = l := by
        rw [Listener.record, haction]
      rw [hrecord]
      refine { h with moved := ?_ }
      rw [h.moved, movedFrom_snoc, haction]
      constructor
      · exact Or.inl
      · rintro (hseen | ⟨hmove, -⟩)
        · exact hseen
        · cases hmove

/-- The events between DOWN and UP fire nothing, and the fields track them all. -/
theorem tracks_others {down : MotionEvent F V} {es : List (MotionEvent F V)}
    (hes : ∀ e ∈ es, e.action ≠ .ACTION_DOWN ∧ e.action ≠ .ACTION_UP) {l : Listener}
    {seen : List (MotionEvent F V)} (h : Tracks toInt touchSlop down seen l) :
    answers (onInterceptTouchEvent toInt) l es = es.map (fun _ => ⟨none, false⟩) ∧
      Tracks toInt touchSlop down (seen ++ es)
        (stateAfter (onInterceptTouchEvent toInt) l es) := by
  induction es generalizing l seen with
  | nil =>
      refine ⟨rfl, ?_⟩
      rw [List.append_nil]
      exact h
  | cons e es ih =>
      have he := hes e List.mem_cons_self
      have hcall : onInterceptTouchEvent toInt l e = (l.record toInt e, ⟨none, false⟩) :=
        onInterceptTouchEvent_of_not_up h.toIdle he.2
      obtain ⟨hanswers, htracks⟩ :=
        ih (fun e he => hes e (List.mem_cons_of_mem _ he)) (tracks_record h he)
      rw [List.append_assoc, List.singleton_append] at htracks
      rw [answers, stateAfter_cons, hcall, hanswers]
      exact ⟨rfl, htracks⟩

/-- At UP the callback is the one that the gesture is due, and its flag is consumed. -/
theorem onInterceptTouchEvent_up {l : Listener} {g : Gesture F V}
    (h : Tracks toInt touchSlop g.down g.others l) {up : MotionEvent F V}
    (hup : up.action = .ACTION_UP) :
    (onInterceptTouchEvent toInt l up).2 =
        ⟨g.recognised toInt touchSlop Gesture.longAdvance up,
          (g.recognised toInt touchSlop Gesture.longAdvance up).isSome⟩ ∧
      Idle touchSlop (onInterceptTouchEvent toInt l up).1 := by
  have hrecord : l.record toInt up =
      if l.isMove then l
      else if 1000 < up.currentTimeMillis - l.mDownTime then { l with isLongPressUp := true }
      else { l with isSingleTapUp := true } := by
    rw [Listener.record, hup]
  rw [onInterceptTouchEvent, hrecord, h.downTime]
  by_cases hmoved : Gesture.MovedFrom toInt touchSlop g.down g.others
  · -- a gesture that moved sets no flag
    rw [if_pos (h.moved.2 hmoved), fire_idle h.toIdle]
    rw [Gesture.recognised, if_pos hmoved]
    exact ⟨rfl, h.toIdle⟩
  · have hmove : ¬ l.isMove = true := fun hm => hmoved (h.moved.1 hm)
    rw [if_neg hmove]
    rw [Gesture.recognised, if_neg hmoved]
    simp only [g.elapsed_iff up]
    split_ifs with hlong
    · rw [Listener.fire, h.noSingleTap]
      cases up.rv.findChildViewUnder up.x up.y with
      | none => exact ⟨rfl, h.slop, rfl, rfl⟩
      | some childView => exact ⟨rfl, h.slop, rfl, rfl⟩
    · rw [Listener.fire]
      cases up.rv.findChildViewUnder up.x up.y with
      | none => exact ⟨rfl, h.slop, rfl, h.noLongPress⟩
      | some childView => exact ⟨rfl, h.slop, rfl, h.noLongPress⟩

/-- A gesture that starts with no flag set is answered as it is due, and ends with no flag set,
whatever the other fields held at its start. -/
theorem answers_gesture (g : Gesture F V) {l : Listener} (h : Idle touchSlop l) :
    answers (onInterceptTouchEvent toInt) l g.events =
        g.expected toInt touchSlop Gesture.longAdvance ∧
      Idle touchSlop (stateAfter (onInterceptTouchEvent toInt) l g.events) := by
  have hnotUp : g.down.action ≠ .ACTION_UP := by
    rw [g.down_action]
    decide
  have hdown : onInterceptTouchEvent toInt l g.down = (l.record toInt g.down, ⟨none, false⟩) :=
    onInterceptTouchEvent_of_not_up h hnotUp
  -- DOWN overwrites whatever the last gesture has left
  have hfresh : Tracks toInt touchSlop g.down [] (l.record toInt g.down) :=
    tracks_down h g.down_action
  obtain ⟨hothers, htracks⟩ := tracks_others g.others_action hfresh
  rw [List.nil_append] at htracks
  have hstart : answers (onInterceptTouchEvent toInt) l (g.down :: g.others) =
      (g.down :: g.others).map (fun _ => ⟨none, false⟩) := by
    rw [answers, hdown, hothers]
    rfl
  have hstate : stateAfter (onInterceptTouchEvent toInt) l (g.down :: g.others) =
      stateAfter (onInterceptTouchEvent toInt) (l.record toInt g.down) g.others := by
    rw [stateAfter_cons, hdown]
  unfold Gesture.events Gesture.expected
  rw [answers_append, stateAfter_append, hstart, hstate]
  cases hup : g.up with
  | none => exact ⟨rfl, htracks.toIdle⟩
  | some up =>
      obtain ⟨hanswer, hidle⟩ := onInterceptTouchEvent_up htracks (g.up_action up hup)
      refine ⟨?_, hidle⟩
      rw [Option.toList_some, List.map_singleton, answers, answers, hanswer]

/-- Taps are recognised gesture by gesture, for all readings of the clock. For every sequence of
gestures given to a fresh listener, the answers are those that each gesture alone is due when the
advance of the clock is taken as a `long`, so those that the advance itself asks for wherever it
fits in a `long`; a call returns true exactly when it fires a callback; and no gesture fires more
than one. -/
theorem onInterceptTouchEvent_gestures (toInt : F → Int) (touchSlop : Int)
    (gs : List (Gesture F V)) :
    answers (onInterceptTouchEvent toInt) (Listener.new touchSlop) (gs.flatMap Gesture.events) =
        gs.flatMap (Gesture.expected toInt touchSlop Gesture.longAdvance) ∧
      (∀ g ∈ gs, g.ClockInRange → g.expected toInt touchSlop Gesture.longAdvance =
        g.expected toInt touchSlop Gesture.advance) ∧
      (∀ a ∈ gs.flatMap (Gesture.expected toInt touchSlop Gesture.longAdvance),
        a.intercepted = a.callback.isSome) ∧
      ∀ g ∈ gs,
        ((g.expected toInt touchSlop Gesture.longAdvance).filterMap Answer.callback).length ≤ 1 := by
  refine ⟨?_, fun g _ h => Gesture.expected_longAdvance toInt touchSlop h, ?_, ?_⟩
  · exact answers_flatMap (idle_new touchSlop) (fun g l h => answers_gesture g h) gs
  · intro a ha
    obtain ⟨g, -, ha⟩ := List.mem_flatMap.1 ha
    rcases List.mem_append.1 ha with ha | ha
    · obtain ⟨e, -, rfl⟩ := List.mem_map.1 ha
      rfl
    · obtain ⟨up, -, rfl⟩ := List.mem_map.1 ha
      rfl
  · intro g _
    rw [Gesture.expected, List.filterMap_append]
    -- only the UP event has an answer with a callback
    have hquiet : ((g.down :: g.others).map
        (fun _ => (⟨none, false⟩ : Answer V))).filterMap Answer.callback = [] := by
      rw [List.filterMap_eq_nil_iff]
      intro a ha
      obtain ⟨e, -, rfl⟩ := List.mem_map.1 ha
      rfl
    rw [hquiet, List.nil_append]
    refine (List.length_filterMap_le _ _).trans ?_
    rw [List.length_map]
    cases g.up with
    | none => exact Nat.zero_le 1
    | some up => exact Nat.le_refl 1

/-- A list whose only child is at position 4. -/
def oneChild : RecyclerView Int Unit := ⟨fun _ _ => some (), fun _ => 4⟩

/-- The finger moves away, and the list takes the gesture over. -/
def scroll : Gesture Int Unit where
  down := ⟨.ACTION_DOWN, 10, 10, 5000, oneChild⟩
  others := [⟨.ACTION_MOVE, 10, 90, 5100, oneChild⟩, ⟨.other 3, 10, 95, 5200, oneChild⟩]
  up := none
  down_action := rfl
  others_action := by decide
  up_action := by simp

/-- The finger trembles, and goes up after a second and a half. -/
def longPress : Gesture Int Unit where
  down := ⟨.ACTION_DOWN, 10, 10, 6000, oneChild⟩
  others := [⟨.ACTION_MOVE, 12, 9, 6100, oneChild⟩]
  up := some ⟨.ACTION_UP, 12, 9, 7500, oneChild⟩
  down_action := rfl
  others_action := by decide
  up_action := by simp

/-- The clock is set from the least of all readings to 0 while the finger is down. -/
def clockSet : Gesture Int Unit where
  down := ⟨.ACTION_DOWN, 10, 10, Int64.minValue, oneChild⟩
  others := []
  up := some ⟨.ACTION_UP, 10, 10, 0, oneChild⟩
  down_action := rfl
  others_action := by decide
  up_action := by simp

-- the scroll fires nothing and is forgotten
example : answers (onInterceptTouchEvent id) (Listener.new 8)
    (scroll.events ++ longPress.events) =
      [⟨none, false⟩, ⟨none, false⟩, ⟨none, false⟩, ⟨none, false⟩, ⟨none, false⟩,
        ⟨some (.onItemLongClick () 4), true⟩] := by decide

/-- When the clock is set so far that the difference wraps, the code sees a click although the clock
has advanced by more than 1000 ms. -/
theorem clockSet_click :
    answers (onInterceptTouchEvent id) (Listener.new 8) clockSet.events =
        [⟨none, false⟩, ⟨some (.onItemClick () 4), true⟩] ∧
      clockSet.expected id 8 Gesture.advance =
        [⟨none, false⟩, ⟨some (.onItemLongClick () 4), true⟩] := by decide

end IotClient.Widgets.RecyclerViewClickListener
