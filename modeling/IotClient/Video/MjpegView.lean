import IotClient.Foundation.Runs

/-!
# The stream view and its playback threads

`MjpegViewDefault` has one field for the current playback thread and one for the current stream, but
every `setSource` builds and starts a new thread: the constructor already sets `resume`, so the branch
that would start the present thread is never taken (`setSource_eq`). The state below keeps every
thread that the view has built, and every stream that it was handed or has closed.

The view is in order when at most one of its threads is in its read loop, and every stream that it
was handed is the current one or has been closed (`OnePlayer`). A view whose `setSource` calls all
find the earlier threads dead and no current stream stays in order (`onePlayer_of_run`). Both
conditions are needed: a call that finds a current stream leaves it open for ever
(`setSource_leaks`), and one that finds a thread alive can end with two threads in the loop
(`setSource_two_players`).
-/

set_option autoImplicit false

namespace IotClient.Video.MjpegView

open IotClient.Foundation.Runs

/-- Where a playback thread is. A thread that was built but never started is not alive. -/
inductive Phase where
  | created
  | started
  | looping
  | dead
deriving DecidableEq, Repr

/-- Started, and not yet out of `run`. -/
def Phase.alive : Phase → Bool
  | .started | .looping => true
  | .created | .dead => false

/-- `MjpegViewDefault`. Streams are numbered. The field `thread` is an index into the threads built
so far; `handed` and `closed` have the streams given to `setSource` and those closed. -/
structure MjpegViewDefault where
  threads : List Phase
  thread : Option Nat
  mRun : Bool
  surfaceDone : Bool
  resume : Bool
  mIn : Option Nat
  dispWidth : Nat
  dispHeight : Nat
  handed : List Nat
  closed : List Nat
deriving DecidableEq, Repr

/-- `init`: a new thread takes the field. -/
def MjpegViewDefault.init (v : MjpegViewDefault) : MjpegViewDefault :=
  { v with
    threads := v.threads ++ [.created], thread := some v.threads.length, resume := true }

/-- The constructor. -/
def newView : MjpegViewDefault :=
  MjpegViewDefault.init ⟨[], none, false, false, false, none, 0, 0, [], []⟩

/-- `thread.start()` on the thread of the field. -/
def MjpegViewDefault.start (v : MjpegViewDefault) : MjpegViewDefault :=
  match v.thread with
  | none => v
  | some i => { v with threads := v.threads.set i .started }

/-- `_startPlayback`. -/
def MjpegViewDefault.startPlayback (v : MjpegViewDefault) : MjpegViewDefault :=
  if v.mIn.isSome && v.thread.isSome then MjpegViewDefault.start { v with mRun := true } else v

/-- `_resumePlayback`. -/
def MjpegViewDefault.resumePlayback (v : MjpegViewDefault) : MjpegViewDefault :=
  (MjpegViewDefault.init { v with mRun := true }).start

/-- `_setSource`. -/
def MjpegViewDefault.setSource (v : MjpegViewDefault) (source : Nat) : MjpegViewDefault :=
  let v := { v with mIn := some source, handed := v.handed ++ [source] }
  -- the stream before is neither closed nor its thread stopped
  if v.resume then v.resumePlayback else v.startPlayback

/-- The thread of the field has ended when its `join` returns in time. -/
def MjpegViewDefault.join (v : MjpegViewDefault) (inTime : Bool) : List Phase :=
  match v.thread with
  -- there is no thread to join after `surfaceDestroyed`
  | none => v.threads
  | some i => if inTime && v.threads[i]?.any Phase.alive then v.threads.set i .dead else v.threads

/-- `_stopPlayback`; `inTime` is false when the `join` times out. -/
def MjpegViewDefault.stopPlayback (v : MjpegViewDefault) (inTime : Bool) : MjpegViewDefault :=
  { v with
    mRun := false, threads := v.join inTime, closed := v.closed ++ v.mIn.toList, mIn := none }

/-- `_surfaceDestroyed`. -/
def MjpegViewDefault.surfaceDestroyed (v : MjpegViewDefault) (inTime : Bool) : MjpegViewDefault :=
  { MjpegViewDefault.stopPlayback { v with surfaceDone := false } inTime with thread := none }

/-- What happens to a view. `threadReads i` is the test of `mRun` by the thread `i`, at the head of
its loop; `threadDies i` is its end by an uncaught exception. -/
inductive ViewEvent where
  | setSource (source : Nat)
  | stopPlayback (inTime : Bool)
  | surfaceCreated
  | surfaceChanged (width height : Nat)
  | surfaceDestroyed (inTime : Bool)
  | threadReads (i : Nat)
  | threadDies (i : Nat)
deriving DecidableEq, Repr

/-- All events but `setSource` come to the view from the system, or from its own threads. -/
def ViewEvent.outside : ViewEvent → Bool
  | .setSource _ => false
  | _ => true

/-- One event. -/
def MjpegViewDefault.step (v : MjpegViewDefault) : ViewEvent → Option MjpegViewDefault
  | .setSource source => some (v.setSource source)
  | .stopPlayback inTime => some (v.stopPlayback inTime)
  | .surfaceCreated => some { v with surfaceDone := true }
  | .surfaceChanged width height =>
      some (if v.thread.isSome then { v with dispWidth := width, dispHeight := height } else v)
  | .surfaceDestroyed inTime => some (v.surfaceDestroyed inTime)
  | .threadReads i =>
      if v.threads[i]?.any Phase.alive then
        some { v with threads := v.threads.set i (if v.mRun then .looping else .dead) }
      else none
  | .threadDies i =>
      if v.threads[i]?.any Phase.alive then some { v with threads := v.threads.set i .dead }
      else none

/-- A view from its construction on. -/
def viewMachine : Machine MjpegViewDefault ViewEvent where
  init := newView
  step := MjpegViewDefault.step

/-! ## What one event does -/

/-- `setSource` on a view that was constructed: a new thread is started beside the earlier ones. -/
theorem setSource_eq {v : MjpegViewDefault} (h : v.resume = true) (source : Nat) :
    v.setSource source = { v with
      mIn := some source
      handed := v.handed ++ [source]
      mRun := true
      threads := v.threads ++ [.started]
      thread := some v.threads.length } := by
  simp [MjpegViewDefault.setSource, h, MjpegViewDefault.resumePlayback, MjpegViewDefault.init,
    MjpegViewDefault.start]

/-- What an event other than `setSource` leaves of the threads and the streams: one thread that is
alive may be in another phase, and the current stream may be closed and given up. -/
structure Settles (v w : MjpegViewDefault) : Prop where
  resume : w.resume = v.resume
  handed : w.handed = v.handed
  threads : w.threads = v.threads ∨
    ∃ i q, v.threads[i]?.any Phase.alive = true ∧ w.threads = v.threads.set i q
  streams : w.mIn = v.mIn ∧ w.closed = v.closed ∨
    w.mIn = none ∧ w.closed = v.closed ++ v.mIn.toList

theorem join_cases (v : MjpegViewDefault) (inTime : Bool) :
    v.join inTime = v.threads ∨
      ∃ i q, v.threads[i]?.any Phase.alive = true ∧ v.join inTime = v.threads.set i q := by
  rw [MjpegViewDefault.join]
  cases v.thread with
  | none => exact .inl rfl
  | some i =>
      cases hjoin : inTime && v.threads[i]?.any Phase.alive with
      | false =>
          left
          simp only [hjoin]
          rfl
      | true =>
          right
          rw [Bool.and_eq_true] at hjoin
          refine ⟨i, .dead, hjoin.2, ?_⟩
          simp only [hjoin.1, hjoin.2]
          rfl

theorem step_cases {v w : MjpegViewDefault} {e : ViewEvent} (h : v.step e = some w) :
    (∃ source, e = .setSource source ∧ w = v.setSource source) ∨
      (e.outside = true ∧ Settles v w) := by
  cases e with
  | setSource source => exact .inl ⟨source, rfl, (Option.some.inj h).symm⟩
  | stopPlayback inTime =>
      obtain rfl := Option.some.inj h
      exact .inr ⟨rfl, rfl, rfl, join_cases v inTime, .inr ⟨rfl, rfl⟩⟩
  | surfaceCreated =>
      obtain rfl := Option.some.inj h
      exact .inr ⟨rfl, rfl, rfl, .inl rfl, .inl ⟨rfl, rfl⟩⟩
  | surfaceChanged width height =>
      obtain rfl := Option.some.inj h
      right
      split
      · exact ⟨rfl, rfl, rfl, .inl rfl, .inl ⟨rfl, rfl⟩⟩
      · exact ⟨rfl, rfl, rfl, .inl rfl, .inl ⟨rfl, rfl⟩⟩
  | surfaceDestroyed inTime =>
      obtain rfl := Option.some.inj h
      exact .inr ⟨rfl, rfl, rfl, join_cases v inTime, .inr ⟨rfl, rfl⟩⟩
  | threadReads i =>
      obtain ⟨halive, h⟩ := Option.ite_none_right_eq_some.1 h
      obtain rfl := Option.some.inj h
      exact .inr ⟨rfl, rfl, rfl, .inr ⟨i, _, halive, rfl⟩, .inl ⟨rfl, rfl⟩⟩
  | threadDies i =>
      obtain ⟨halive, h⟩ := Option.ite_none_right_eq_some.1 h
      obtain rfl := Option.some.inj h
      exact .inr ⟨rfl, rfl, rfl, .inr ⟨i, _, halive, rfl⟩, .inl ⟨rfl, rfl⟩⟩

/-- The constructor sets `resume`, and nothing clears it. -/
theorem resume_of_run {es : List ViewEvent} {v : MjpegViewDefault} (h : Run viewMachine es v) :
    v.resume = true := by
  apply h.invariant (I := fun v => v.resume = true)
  · rfl
  · intro v e w hv _ hst
    rcases step_cases hst with ⟨source, -, rfl⟩ | ⟨-, hsettles⟩
    · rw [setSource_eq hv]
      exact hv
    · rw [hsettles.resume]
      exact hv

/-! ## Order -/

/-- At most one thread is in its read loop, and every stream that the view was handed is the current
one or closed. -/
structure OnePlayer (v : MjpegViewDefault) : Prop where
  thread : ∀ i j : Nat,
    v.threads[i]? = some Phase.looping → v.threads[j]? = some Phase.looping → i = j
  stream : ∀ x ∈ v.handed, v.mIn = some x ∨ x ∈ v.closed

/-- A `setSource` finds the earlier threads dead or never started, and no current stream. -/
def Stopped : Guard MjpegViewDefault ViewEvent := fun v e =>
  ∀ source, e = .setSource source → v.mIn = none ∧ ∀ p ∈ v.threads, p.alive = false

/-- Only the last thread that was built is alive, and the streams are in order. -/
structure Sole (v : MjpegViewDefault) : Prop where
  last : ∀ (i : Nat) p, v.threads[i]? = some p → p.alive = true → i + 1 = v.threads.length
  stream : ∀ x ∈ v.handed, v.mIn = some x ∨ x ∈ v.closed

theorem Sole.onePlayer {v : MjpegViewDefault} (h : Sole v) : OnePlayer v where
  thread := by
    intro i j hi hj
    have hi := h.last i .looping hi rfl
    have hj := h.last j .looping hj rfl
    omega
  stream := h.stream

/-- A thread that was alive before may be put into another phase. -/
theorem last_set {threads : List Phase} {i : Nat} (q : Phase)
    (h : ∀ (j : Nat) p, threads[j]? = some p → p.alive = true → j + 1 = threads.length)
    (hi : threads[i]?.any Phase.alive = true) :
    ∀ (j : Nat) p, (threads.set i q)[j]? = some p → p.alive = true →
      j + 1 = (threads.set i q).length := by
  intro j p hj hp
  rw [List.length_set]
  by_cases hij : i = j
  · subst hij
    cases hphase : threads[i]? with
    | none => simp [hphase] at hi
    | some p' =>
        rw [hphase] at hi
        exact h i p' hphase hi
  · rw [List.getElem?_set_ne hij] at hj
    exact h j p hj hp

/-- A thread started beside threads that are all dead, or were never started, is the only one. -/
theorem last_started {threads : List Phase} (h : ∀ p ∈ threads, p.alive = false) :
    ∀ (i : Nat) p, (threads ++ [Phase.started])[i]? = some p → p.alive = true →
      i + 1 = (threads ++ [Phase.started]).length := by
  intro i p hi hp
  -- the earlier threads are not alive, so `i` is the new one
  rcases Nat.lt_or_ge i threads.length with hlt | hge
  · rw [List.getElem?_append_left hlt] at hi
    have hfalse := h p (List.mem_of_getElem? hi)
    rw [hp] at hfalse
    cases hfalse
  · rw [List.getElem?_append_right hge] at hi
    have hzero : i - threads.length < [Phase.started].length := (List.getElem?_eq_some_iff.1 hi).1
    simp only [List.length_singleton] at hzero
    simp only [List.length_append, List.length_singleton]
    omega

theorem Sole.settles {v w : MjpegViewDefault} (h : Sole v) (hvw : Settles v w) : Sole w where
  last := by
    rcases hvw.threads with hthreads | ⟨i, q, halive, hthreads⟩ <;> rw [hthreads]
    · exact h.last
    · -- the thread that moves was alive, so it is the last one
      exact last_set q h.last halive
  stream := by
    intro x hx
    rw [hvw.handed] at hx
    rcases hvw.streams with ⟨hmIn, hclosed⟩ | ⟨-, hclosed⟩ <;> rw [hclosed]
    · rw [hmIn]
      exact h.stream x hx
    · right
      -- the current stream is closed now, the others were closed before
      rcases h.stream x hx with hcurrent | hbefore
      · rw [hcurrent]
        exact List.mem_append_right _ (List.mem_singleton_self x)
      · exact List.mem_append_left _ hbefore

theorem Sole.setSource {v : MjpegViewDefault} (hv : Sole v) (hresume : v.resume = true)
    (hnone : v.mIn = none) (hdead : ∀ p ∈ v.threads, p.alive = false) (source : Nat) :
    Sole (v.setSource source) := by
  rw [setSource_eq hresume]
  refine ⟨last_started hdead, ?_⟩
  intro x hx
  rcases List.mem_append.1 hx with hx | hx
  · right
    rcases hv.stream x hx with hcurrent | hclosed
    · rw [hnone] at hcurrent
      cases hcurrent
    · exact hclosed
  · left
    rw [List.mem_singleton.1 hx]

theorem sole_newView : Sole newView where
  last := by
    intro i p hi hp
    cases i with
    | zero => rfl
    | succ i => simp [newView, MjpegViewDefault.init] at hi
  stream := by
    intro x hx
    cases hx

/-- A view whose `setSource` calls find the earlier threads dead and no current stream is in
order. -/
theorem onePlayer_of_run {es : List ViewEvent} {v : MjpegViewDefault}
    (h : RunUnder viewMachine Stopped es v) : OnePlayer v := by
  have hsole : Sole v := by
    induction h with
    | start => exact sole_newView
    | snoc hrun hg hst ih =>
        rcases step_cases hst with ⟨source, rfl, rfl⟩ | ⟨-, hsettles⟩
        · -- the guard is what a stop before every start would give
          obtain ⟨hnone, hdead⟩ := hg source rfl
          exact ih.setSource (resume_of_run hrun.toRun) hnone hdead source
        · exact ih.settles hsettles
  exact hsole.onePlayer

/-! ## What breaks the order -/

/-- A `setSource` has a stream that the view was not handed before. -/
def Fresh : Guard MjpegViewDefault ViewEvent := fun v e =>
  ∀ source, e = .setSource source → source ∉ v.handed

/-- The current stream was handed to the view and is open, and only handed streams are closed. -/
structure Open (v : MjpegViewDefault) : Prop where
  current : ∀ x, v.mIn = some x → x ∈ v.handed ∧ x ∉ v.closed
  closed : ∀ x ∈ v.closed, x ∈ v.handed

theorem Open.settles {v w : MjpegViewDefault} (h : Open v) (hvw : Settles v w) : Open w := by
  rcases hvw.streams with ⟨hmIn, hclosed⟩ | ⟨hmIn, hclosed⟩
  · refine ⟨?_, ?_⟩
    · rw [hmIn, hclosed, hvw.handed]
      exact h.current
    · rw [hclosed, hvw.handed]
      exact h.closed
  · refine ⟨?_, ?_⟩
    · intro x hx
      rw [hmIn] at hx
      cases hx
    · intro x hx
      rw [hclosed] at hx
      rw [hvw.handed]
      rcases List.mem_append.1 hx with hx | hx
      · exact h.closed x hx
      · exact (h.current x (Option.mem_toList.1 hx)).1

theorem Open.setSource {v : MjpegViewDefault} (h : Open v) (hresume : v.resume = true)
    {source : Nat} (hfresh : source ∉ v.handed) : Open (v.setSource source) := by
  rw [setSource_eq hresume]
  refine ⟨?_, ?_⟩
  · intro x hx
    obtain rfl := Option.some.inj hx
    refine ⟨List.mem_append_right _ (List.mem_singleton_self _), ?_⟩
    -- a closed stream was handed before, the new one was not
    intro hclosed
    exact hfresh (h.closed _ hclosed)
  · intro x hx
    exact List.mem_append_left _ (h.closed x hx)

theorem open_of_run {es : List ViewEvent} {v : MjpegViewDefault}
    (h : RunUnder viewMachine Fresh es v) : Open v := by
  induction h with
  | start =>
      refine ⟨?_, ?_⟩
      · intro x hx
        cases hx
      · intro x hx
        cases hx
  | snoc hrun hg hst ih =>
      rcases step_cases hst with ⟨source, rfl, rfl⟩ | ⟨-, hsettles⟩
      · exact ih.setSource (resume_of_run hrun.toRun) (hg source rfl)
      · exact ih.settles hsettles

/-- A `setSource` that finds another current stream, not yet closed, leaves it open. -/
theorem setSource_leaks {v : MjpegViewDefault} (hresume : v.resume = true) {x source : Nat}
    (hx : x ∈ v.handed) (hne : x ≠ source) (hopen : x ∉ v.closed) :
    ¬ OnePlayer (v.setSource source) := by
  rw [setSource_eq hresume]
  intro h
  rcases h.stream x (List.mem_append_left _ hx) with hcurrent | hclosed
  · exact hne (Option.some.inj hcurrent).symm
  · exact hopen hclosed

/-- A thread that tests a true `mRun` goes round its loop. -/
theorem threadReads_loop {v : MjpegViewDefault} {i : Nat} (hrun : v.mRun = true)
    (halive : v.threads[i]?.any Phase.alive = true) :
    viewMachine.step v (.threadReads i) = some { v with threads := v.threads.set i .looping } := by
  simp [viewMachine, MjpegViewDefault.step, hrun, halive]

/-- A `setSource` that finds a thread alive leads to two threads in the loop, as soon as that thread
and the new one have tested `mRun`. -/
theorem setSource_two_players {v : MjpegViewDefault} (hresume : v.resume = true) {i : Nat}
    (halive : v.threads[i]?.any Phase.alive = true) (source : Nat) :
    ∃ w, viewMachine.execFrom v
      [.setSource source, .threadReads i, .threadReads v.threads.length] = some w ∧
        ¬ OnePlayer w := by
  -- a thread that exists is another one than the new thread
  have hlt : i < v.threads.length := by
    by_contra hge
    rw [List.getElem?_eq_none (Nat.le_of_not_lt hge)] at halive
    cases halive
  have hne : v.threads.length ≠ i := Nat.ne_of_gt hlt
  have hset := setSource_eq hresume source
  have hlength : v.threads.length < (v.setSource source).threads.length := by
    rw [hset]
    simp
  -- the earlier thread tests `mRun`, which `setSource` has made true
  have hold := threadReads_loop (v := v.setSource source) (i := i) (by rw [hset]) (by
    rw [hset]
    show (v.threads ++ [Phase.started])[i]?.any Phase.alive = true
    rw [List.getElem?_append_left hlt]
    exact halive)
  -- and so does the new one
  have hnew := threadReads_loop (i := v.threads.length)
    (v := { v.setSource source with threads := (v.setSource source).threads.set i .looping })
    (by rw [hset]) (by
      show ((v.setSource source).threads.set i .looping)[v.threads.length]?.any _ = true
      rw [List.getElem?_set_ne hne.symm, hset]
      simp [Phase.alive])
  refine ⟨{ v.setSource source with
    threads := ((v.setSource source).threads.set i .looping).set v.threads.length .looping },
    ?_, ?_⟩
  · show (viewMachine.step (v.setSource source) _).bind _ = _
    rw [hold]
    show (viewMachine.step _ _).bind _ = _
    rw [hnew]
    rfl
  · intro h
    apply hne
    apply h.thread
    · show (((v.setSource source).threads.set i .looping).set v.threads.length .looping)[_]? = _
      rw [List.getElem?_set_self]
      rwa [List.length_set]
    · show (((v.setSource source).threads.set i .looping).set v.threads.length .looping)[i]? = _
      rw [List.getElem?_set_ne hne, List.getElem?_set_self (Nat.lt_trans hlt hlength)]

end IotClient.Video.MjpegView
