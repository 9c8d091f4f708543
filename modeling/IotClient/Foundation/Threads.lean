import IotClient.Foundation.Runs

/-!
# Threads over a shared state

A program has a shared state and starts any number of threads on it. The code of a thread is a list
of instructions, which the threads take in every order, one instruction of one thread at a time. An
instruction may block, return, or throw; an exception ends its thread, and so does a failure from
outside. Besides its threads the program has outside events, which change the shared state.

* `steps_of_step`: what one step can do.
* `code_of_run`: what a thread has behind it and ahead of it is its code.
* `alone_of_run`: a thread that runs alone keeps what its own instructions keep.
-/

set_option autoImplicit false

namespace IotClient.Foundation.Threads

open IotClient.Foundation.Runs

universe u

/-- How an instruction ends. -/
inductive Outcome (α : Type u) where
  | blocks
  | throws
  | returns (a : α)

/-- What has ended a thread: an exception of its own instruction, or a failure from outside. -/
inductive Ending where
  | threw
  | failed
deriving DecidableEq, Repr

/-- A thread, with what it was started for, the instructions behind it and ahead of it, and its
local memory. -/
structure Thread (κ ι μ : Type) where
  kind : κ
  done : List ι
  todo : List ι
  memory : μ
  ended : Option Ending
deriving DecidableEq

/-- No instruction of the thread is to come. -/
def Thread.Over {κ ι μ : Type} (t : Thread κ ι μ) : Prop := t.ended ≠ none ∨ t.todo = []

/-- A program over the shared state `σ`. An instruction knows the number of its thread; `fails` says
what is left of the shared state when the outside makes an instruction throw, if it can. -/
structure Program (σ κ ι μ η : Type) where
  init : σ
  code : κ → List ι
  starts : σ → κ → Option μ
  perform : σ → Nat → μ → ι → Outcome (σ × μ)
  fails : σ → μ → ι → Option σ
  outside : σ → η → Option σ

/-- The shared state and the threads, in the order of their starts. -/
structure Config (σ κ ι μ : Type) where
  shared : σ
  threads : List (Thread κ ι μ)

inductive Event (κ η : Type) where
  | start (kind : κ)
  | run (i : Nat)
  | fail (i : Nat)
  | outside (event : η)
deriving DecidableEq

variable {σ κ ι μ η : Type}

/-- A new thread. -/
def Program.thread (P : Program σ κ ι μ η) (kind : κ) (memory : μ) : Thread κ ι μ :=
  ⟨kind, [], P.code kind, memory, none⟩

/-- The thread, once it was ended. -/
def Thread.stop (t : Thread κ ι μ) (ending : Ending) : Thread κ ι μ :=
  { t with ended := some ending }

/-- The thread, once the instruction `x` before `rest` has returned. -/
def Thread.advance (t : Thread κ ι μ) (x : ι) (rest : List ι) (memory : μ) : Thread κ ι μ :=
  { t with done := t.done ++ [x], todo := rest, memory := memory }

/-- The next instruction of the `i`-th thread. -/
def Config.runThread (P : Program σ κ ι μ η) (s : Config σ κ ι μ) (i : Nat) (t : Thread κ ι μ) :
    Option (Config σ κ ι μ) :=
  match t.todo with
  | [] => none
  | x :: rest =>
      match P.perform s.shared i t.memory x with
      | .blocks => none
      | .throws => some { s with threads := s.threads.set i (t.stop .threw) }
      | .returns (shared, memory) => some ⟨shared, s.threads.set i (t.advance x rest memory)⟩

/-- An outside failure of the next instruction of the `i`-th thread. -/
def Config.failThread (P : Program σ κ ι μ η) (s : Config σ κ ι μ) (i : Nat) (t : Thread κ ι μ) :
    Option (Config σ κ ι μ) :=
  match t.todo with
  | [] => none
  | x :: _ =>
      (P.fails s.shared t.memory x).map fun shared => ⟨shared, s.threads.set i (t.stop .failed)⟩

def Config.step (P : Program σ κ ι μ η) (s : Config σ κ ι μ) :
    Event κ η → Option (Config σ κ ι μ)
  | .start kind =>
      (P.starts s.shared kind).map fun memory =>
        { s with threads := s.threads ++ [P.thread kind memory] }
  | .run i => s.threads[i]?.bind fun t => if t.ended = none then s.runThread P i t else none
  | .fail i => s.threads[i]?.bind fun t => if t.ended = none then s.failThread P i t else none
  | .outside event => (P.outside s.shared event).map fun shared => { s with shared := shared }

/-- All interleavings of the threads of a program. -/
def Program.machine (P : Program σ κ ι μ η) : Machine (Config σ κ ι μ) (Event κ η) where
  init := ⟨P.init, []⟩
  step := Config.step P

/-! ## What a step can do -/

/-- The steps of a program. -/
inductive Steps (P : Program σ κ ι μ η) (s : Config σ κ ι μ) :
    Event κ η → Config σ κ ι μ → Prop where
  | started {kind : κ} {memory : μ} (hstart : P.starts s.shared kind = some memory) :
      Steps P s (.start kind) { s with threads := s.threads ++ [P.thread kind memory] }
  | returned {i : Nat} {t : Thread κ ι μ} {x : ι} {rest : List ι} {shared : σ} {memory : μ}
      (ht : s.threads[i]? = some t) (hended : t.ended = none) (htodo : t.todo = x :: rest)
      (hperform : P.perform s.shared i t.memory x = .returns (shared, memory)) :
      Steps P s (.run i) ⟨shared, s.threads.set i (t.advance x rest memory)⟩
  | threw {i : Nat} {t : Thread κ ι μ} {x : ι} {rest : List ι}
      (ht : s.threads[i]? = some t) (hended : t.ended = none) (htodo : t.todo = x :: rest)
      (hperform : P.perform s.shared i t.memory x = .throws) :
      Steps P s (.run i) { s with threads := s.threads.set i (t.stop .threw) }
  | failed {i : Nat} {t : Thread κ ι μ} {x : ι} {rest : List ι} {shared : σ}
      (ht : s.threads[i]? = some t) (hended : t.ended = none) (htodo : t.todo = x :: rest)
      (hfails : P.fails s.shared t.memory x = some shared) :
      Steps P s (.fail i) ⟨shared, s.threads.set i (t.stop .failed)⟩
  | outside {event : η} {shared : σ} (houtside : P.outside s.shared event = some shared) :
      Steps P s (.outside event) { s with shared := shared }

variable {P : Program σ κ ι μ η} {s s' : Config σ κ ι μ} {e : Event κ η}

theorem steps_of_step (h : P.machine.step s e = some s') : Steps P s e s' := by
  cases e with
  | start kind =>
      obtain ⟨memory, hstart, rfl⟩ := Option.map_eq_some_iff.1 h
      exact .started hstart
  | run i =>
      obtain ⟨t, ht, h⟩ := Option.bind_eq_some_iff.1 h
      obtain ⟨hended, h⟩ := Option.ite_none_right_eq_some.1 h
      rw [Config.runThread] at h
      cases htodo : t.todo with
      | nil =>
          rw [htodo] at h
          cases h
      | cons x rest =>
          rw [htodo] at h
          dsimp only at h
          -- an instruction that blocks is no step
          cases hperform : P.perform s.shared i t.memory x with
          | blocks =>
              rw [hperform] at h
              cases h
          | throws =>
              rw [hperform] at h
              cases h
              exact .threw ht hended htodo hperform
          | returns a =>
              rw [hperform] at h
              cases h
              exact .returned ht hended htodo hperform
  | fail i =>
      obtain ⟨t, ht, h⟩ := Option.bind_eq_some_iff.1 h
      obtain ⟨hended, h⟩ := Option.ite_none_right_eq_some.1 h
      rw [Config.failThread] at h
      cases htodo : t.todo with
      | nil =>
          rw [htodo] at h
          cases h
      | cons x rest =>
          rw [htodo] at h
          obtain ⟨shared, hfails, rfl⟩ := Option.map_eq_some_iff.1 h
          exact .failed ht hended htodo hfails
  | outside event =>
      obtain ⟨shared, houtside, rfl⟩ := Option.map_eq_some_iff.1 h
      exact .outside houtside

/-- The threads after one of them was set. -/
theorem getElem?_set_cases {ts : List (Thread κ ι μ)} {i j : Nat} {t t' : Thread κ ι μ}
    (h : (ts.set i t)[j]? = some t') : (j = i ∧ t' = t) ∨ (j ≠ i ∧ ts[j]? = some t') := by
  by_cases hij : i = j
  · subst hij
    rw [List.getElem?_set_self'] at h
    obtain ⟨_, _, ht⟩ := Option.map_eq_some_iff.1 h
    exact Or.inl ⟨rfl, ht.symm⟩
  · rw [List.getElem?_set_ne hij] at h
    exact Or.inr ⟨fun hji => hij hji.symm, h⟩

/-- The threads after one was started. -/
theorem getElem?_started_cases {ts : List (Thread κ ι μ)} {j : Nat} {t t' : Thread κ ι μ}
    (h : (ts ++ [t])[j]? = some t') : (j = ts.length ∧ t' = t) ∨ ts[j]? = some t' := by
  rcases Nat.lt_trichotomy j ts.length with hj | rfl | hj
  · rw [List.getElem?_append_left hj] at h
    exact Or.inr h
  · rw [List.getElem?_concat_length] at h
    exact Or.inl ⟨rfl, (Option.some.inj h).symm⟩
  · rw [List.getElem?_eq_none (by rw [List.length_append, List.length_singleton]; omega)] at h
    cases h

/-! ## What the threads have behind them -/

/-- The instructions that the `i`-th thread has behind it. -/
def doneBy (ts : List (Thread κ ι μ)) (i : Nat) : List ι := ts[i]?.elim [] Thread.done

theorem doneBy_eq {ts : List (Thread κ ι μ)} {i : Nat} {t : Thread κ ι μ} (ht : ts[i]? = some t) :
    doneBy ts i = t.done := by
  rw [doneBy, ht]
  rfl

theorem doneBy_started (ts : List (Thread κ ι μ)) (kind : κ) (memory : μ) :
    doneBy (ts ++ [P.thread kind memory]) = doneBy ts := by
  funext j
  rcases Nat.lt_trichotomy j ts.length with hj | rfl | hj
  · rw [doneBy, List.getElem?_append_left hj, doneBy]
  · rw [doneBy, List.getElem?_concat_length, doneBy, List.getElem?_eq_none (Nat.le_refl _)]
    rfl
  · rw [doneBy, doneBy, List.getElem?_eq_none (Nat.le_of_lt hj), List.getElem?_eq_none]
    rw [List.length_append, List.length_singleton]
    exact hj

/-- Setting a thread changes only what it has behind itself. -/
theorem doneBy_set {ts : List (Thread κ ι μ)} {i : Nat} {t : Thread κ ι μ} (ht : ts[i]? = some t)
    (t' : Thread κ ι μ) : doneBy (ts.set i t') = Function.update (doneBy ts) i t'.done := by
  funext j
  by_cases hij : j = i
  · rw [hij, Function.update_self, doneBy, List.getElem?_set_self', ht]
    rfl
  · rw [Function.update_of_ne hij, doneBy, List.getElem?_set_ne (Ne.symm hij), doneBy]

theorem doneBy_stop {ts : List (Thread κ ι μ)} {i : Nat} {t : Thread κ ι μ}
    (ht : ts[i]? = some t) (ending : Ending) : doneBy (ts.set i (t.stop ending)) = doneBy ts := by
  rw [doneBy_set ht]
  show Function.update (doneBy ts) i t.done = doneBy ts
  rw [← doneBy_eq ht, Function.update_eq_self]

theorem doneBy_advance {ts : List (Thread κ ι μ)} {i : Nat} {t : Thread κ ι μ}
    (ht : ts[i]? = some t) (x : ι) (rest : List ι) (memory : μ) :
    doneBy (ts.set i (t.advance x rest memory)) =
      Function.update (doneBy ts) i (doneBy ts i ++ [x]) := by
  rw [doneBy_set ht, doneBy_eq ht]
  rfl

/-- A thread that has an instruction to come is not over. -/
theorem not_over {t : Thread κ ι μ} {x : ι} {rest : List ι} (hended : t.ended = none)
    (htodo : t.todo = x :: rest) : ¬ t.Over := by
  rintro (hover | hover)
  · exact hover hended
  · rw [htodo] at hover
    cases hover

/-- Only a thread that was not ended takes an instruction. -/
theorem ended_of_run_step {i : Nat} {t : Thread κ ι μ}
    (h : P.machine.step s (.run i) = some s') (ht : s.threads[i]? = some t) :
    t.ended = none := by
  cases steps_of_step h with
  | returned ht' hended _ _ =>
      rw [Option.some.inj (ht.symm.trans ht')]
      exact hended
  | threw ht' hended _ _ =>
      rw [Option.some.inj (ht.symm.trans ht')]
      exact hended

/-- The threads that run after one was stopped are others. -/
theorem running_of_stop {ts : List (Thread κ ι μ)} {i j : Nat} {t t' : Thread κ ι μ}
    {ending : Ending} (h : (ts.set i (t.stop ending))[j]? = some t') (hrunning : ¬ t'.Over) :
    j ≠ i ∧ ts[j]? = some t' := by
  rcases getElem?_set_cases h with ⟨-, rfl⟩ | hj
  · exact absurd (Or.inl (Option.some_ne_none ending)) hrunning
  · exact hj

/-! ## Runs -/

/-- A thread has its code behind it and ahead of it. -/
theorem code_of_run {G : Guard (Config σ κ ι μ) (Event κ η)} {es : List (Event κ η)}
    (h : RunUnder P.machine G es s) :
    ∀ t ∈ s.threads, t.done ++ t.todo = P.code t.kind := by
  apply h.invariant (I := fun s => ∀ t ∈ s.threads, t.done ++ t.todo = P.code t.kind)
  · intro t ht
    cases ht
  · intro s e s' hs _ hst
    cases steps_of_step hst with
    | started hstart =>
        intro t ht
        rcases List.mem_append.1 ht with ht | ht
        · exact hs t ht
        · obtain rfl := List.mem_singleton.1 ht
          rfl
    | @returned i t x rest shared memory ht _ htodo _ =>
        intro t' ht'
        rcases List.mem_or_eq_of_mem_set ht' with ht' | rfl
        · exact hs t' ht'
        · -- the instruction has moved from ahead of the thread to behind it
          have hcode := hs t (List.mem_of_getElem? ht)
          rw [htodo] at hcode
          show t.done ++ [x] ++ rest = P.code t.kind
          rw [← hcode, List.append_assoc, List.singleton_append]
    | @threw i t x rest ht _ _ _ =>
        intro t' ht'
        rcases List.mem_or_eq_of_mem_set ht' with ht' | rfl
        · exact hs t' ht'
        · exact hs t (List.mem_of_getElem? ht)
    | @failed i t x rest shared ht _ _ _ =>
        intro t' ht'
        rcases List.mem_or_eq_of_mem_set ht' with ht' | rfl
        · exact hs t' ht'
        · exact hs t (List.mem_of_getElem? ht)
    | outside _ => exact hs

/-! ## Threads that run alone -/

/-- A thread is started only when all others are over, and so for an outside event that is not
quiet. -/
def Alone (quiet : η → Prop) : Guard (Config σ κ ι μ) (Event κ η) := fun s e =>
  (∃ i, e = .run i ∨ e = .fail i) ∨ (∃ event, e = .outside event ∧ quiet event) ∨
    ∀ t ∈ s.threads, t.Over

/-- The number of the thread that runs, and what holds of it. -/
def OnlyRunning (I : σ → Nat → Thread κ ι μ → Prop) (s : Config σ κ ι μ) : Prop :=
  ∀ i t, s.threads[i]? = some t → ¬ t.Over →
    I s.shared i t ∧ ∀ j t', s.threads[j]? = some t' → ¬ t'.Over → j = i

section Alone

variable {I : σ → Nat → Thread κ ι μ → Prop} {J : σ → Prop}

/-- A thread started when all others are over is the only one that runs. -/
theorem onlyRunning_started {kind : κ} {memory : μ} (hover : ∀ t ∈ s.threads, t.Over)
    (hnew : I s.shared s.threads.length (P.thread kind memory)) :
    OnlyRunning I { s with threads := s.threads ++ [P.thread kind memory] } := by
  intro i t ht hrunning
  rcases getElem?_started_cases ht with ⟨rfl, rfl⟩ | ht
  · refine ⟨hnew, ?_⟩
    intro j t' ht' hrunning'
    rcases getElem?_started_cases ht' with ⟨rfl, -⟩ | ht'
    · rfl
    · exact absurd (hover t' (List.mem_of_getElem? ht')) hrunning'
  · exact absurd (hover t (List.mem_of_getElem? ht)) hrunning

/-- The only thread that runs takes an instruction. -/
theorem onlyRunning_returned {i : Nat} {t : Thread κ ι μ} {x : ι} {rest : List ι} {shared : σ}
    {memory : μ} (honly : ∀ j t', s.threads[j]? = some t' → ¬ t'.Over → j = i)
    (hnew : I shared i (t.advance x rest memory)) :
    OnlyRunning I ⟨shared, s.threads.set i (t.advance x rest memory)⟩ := by
  intro j t' ht' hrunning'
  rcases getElem?_set_cases ht' with ⟨rfl, rfl⟩ | ⟨hj, ht'⟩
  · refine ⟨hnew, ?_⟩
    intro k t'' ht'' hrunning''
    rcases getElem?_set_cases ht'' with ⟨rfl, -⟩ | ⟨-, ht''⟩
    · rfl
    · exact honly k t'' ht'' hrunning''
  · exact absurd (honly j t' ht' hrunning') hj

/-- When the only thread that runs is stopped, none runs. -/
theorem onlyRunning_stopped {i : Nat} {t : Thread κ ι μ} {shared : σ} {ending : Ending}
    (honly : ∀ j t', s.threads[j]? = some t' → ¬ t'.Over → j = i) :
    OnlyRunning I ⟨shared, s.threads.set i (t.stop ending)⟩ := by
  intro j t' ht' hrunning'
  obtain ⟨hj, ht'⟩ := running_of_stop ht' hrunning'
  exact absurd (honly j t' ht' hrunning') hj

/-- What holds of a new thread, and is kept by its own instructions and by the quiet outside events,
holds of every thread that runs, in every run that lets each run alone. On the way it may rely on
what holds of the shared state in every run. -/
theorem alone_of_run {quiet : η → Prop} (hshared : ∀ es s, Run P.machine es s → J s.shared)
    (hstart : ∀ u kind memory i, P.starts u kind = some memory → I u i (P.thread kind memory))
    (hperform : ∀ u i t x rest u' memory, J u → I u i t → t.todo = x :: rest →
      P.perform u i t.memory x = .returns (u', memory) → I u' i (t.advance x rest memory))
    (houtside : ∀ u event u' i t, quiet event → P.outside u event = some u' → I u i t → I u' i t)
    {es : List (Event κ η)} (h : RunUnder P.machine (Alone quiet) es s) : OnlyRunning I s := by
  induction h with
  | start =>
      intro i t ht
      cases ht
  | @snoc es s e s' hrun hg hst hs =>
      cases steps_of_step hst with
      | started hstarts =>
          rcases hg with ⟨i, he | he⟩ | ⟨event, he, -⟩ | hover
          · cases he
          · cases he
          · cases he
          · exact onlyRunning_started hover (hstart _ _ _ _ hstarts)
      | returned ht hended htodo hp =>
          obtain ⟨hI, honly⟩ := hs _ _ ht (not_over hended htodo)
          exact onlyRunning_returned honly
            (hperform _ _ _ _ _ _ _ (hshared es s hrun.toRun) hI htodo hp)
      | threw ht hended htodo _ =>
          exact onlyRunning_stopped (hs _ _ ht (not_over hended htodo)).2
      | failed ht hended htodo _ =>
          exact onlyRunning_stopped (hs _ _ ht (not_over hended htodo)).2
      | outside hout =>
          intro i t ht hrunning
          -- with a thread running, the event is quiet
          rcases hg with ⟨j, he | he⟩ | ⟨event', he, hquiet⟩ | hover
          · cases he
          · cases he
          · cases he
            obtain ⟨hI, honly⟩ := hs i t ht hrunning
            exact ⟨houtside _ _ _ _ _ hquiet hout hI, honly⟩
          · exact absurd (hover t (List.mem_of_getElem? ht)) hrunning

end Alone

end IotClient.Foundation.Threads
