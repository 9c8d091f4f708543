import Mathlib.Data.List.Induction
import Mathlib.Tactic.Common

/-!
# Runs of event machines

An event machine has one initial state and a partial step: `none` says that the event cannot occur
in the state. A run is a finite list of events, taken one after another from the initial state.

`RunUnder M G es s` is a run whose every step meets the guard `G` in the state it is taken in. The
rules below are the only inductions over runs that a client of this file needs: an invariant is
shown for the initial state and for one guarded step (`RunUnder.invariant`), two guards that agree
on the steps of the runs under the first have the same runs (`runUnder_congr`), a guard that says
exactly when a step ends in `P` singles out the runs through `P` (`always_iff`), a machine that
matches guarded steps by steps of a second machine has its runs matched (`Simulation.exists_run`),
and a history variable leaves the runs as they are (`run_observed_iff`).
-/

set_option autoImplicit false

namespace IotClient.Foundation.Runs

universe u v w x

/-- An event machine with a partial step. -/
structure Machine (σ : Type u) (ε : Type v) where
  init : σ
  step : σ → ε → Option σ

variable {σ : Type u} {ε : Type v}

/-- A requirement on a step, read in the state the event is taken in. -/
abbrev Guard (σ : Type u) (ε : Type v) := σ → ε → Prop

/-- The guard that every step meets. -/
def unguarded : Guard σ ε := fun _ _ => True

/-- A run of `M` whose steps all meet `G`, with the events taken and the state reached. -/
inductive RunUnder (M : Machine σ ε) (G : Guard σ ε) : List ε → σ → Prop where
  | start : RunUnder M G [] M.init
  | snoc {es : List ε} {s t : σ} {e : ε} :
      RunUnder M G es s → G s e → M.step s e = some t → RunUnder M G (es ++ [e]) t

/-- A run with no requirement on its steps. -/
abbrev Run (M : Machine σ ε) : List ε → σ → Prop := RunUnder M unguarded

/-- The guard that holds of a step when the state after it satisfies `P`. -/
def After (M : Machine σ ε) (P : σ → Prop) : Guard σ ε := fun s e => ∀ t, M.step s e = some t → P t

/-- `P` holds in every state that the events `es` pass through. -/
def Always (M : Machine σ ε) (P : σ → Prop) (es : List ε) : Prop :=
  ∀ pre post t, es = pre ++ post → Run M pre t → P t

/-- The state after the events `es`, taken from `s`. -/
def Machine.execFrom (M : Machine σ ε) (s : σ) : List ε → Option σ
  | [] => some s
  | e :: es => (M.step s e).bind fun t => M.execFrom t es

/-- The state after the events `es`, taken from the initial state. -/
def Machine.exec (M : Machine σ ε) (es : List ε) : Option σ := M.execFrom M.init es

namespace RunUnder

variable {M : Machine σ ε} {G H : Guard σ ε} {es : List ε} {s t : σ}

theorem mono (hGH : ∀ s e, G s e → H s e) (h : RunUnder M G es s) : RunUnder M H es s := by
  induction h with
  | start => exact .start
  | snoc _ hg hstep ih => exact .snoc ih (hGH _ _ hg) hstep

theorem toRun (h : RunUnder M G es s) : Run M es s :=
  h.mono fun _ _ _ => trivial

/-- An invariant of the initial state that every guarded step keeps holds in every state reached. -/
theorem invariant {I : σ → Prop} (hinit : I M.init)
    (hstep : ∀ s e t, I s → G s e → M.step s e = some t → I t) (h : RunUnder M G es s) : I s := by
  induction h with
  | start => exact hinit
  | snoc _ hg hst ih => exact hstep _ _ _ ih hg hst

/-- The invariant rule for a property of the state and of the events taken so far. -/
theorem invariant_trace {I : List ε → σ → Prop} (hinit : I [] M.init)
    (hstep : ∀ es s e t, I es s → G s e → M.step s e = some t → I (es ++ [e]) t)
    (h : RunUnder M G es s) : I es s := by
  induction h with
  | start => exact hinit
  | snoc _ hg hst ih => exact hstep _ _ _ _ ih hg hst

/-- The states of a run before its last events are reached by runs under the same guard. -/
theorem of_append {fs : List ε} (h : RunUnder M G (es ++ fs) t) : ∃ s, RunUnder M G es s := by
  induction fs using List.reverseRecOn generalizing t with
  | nil => exact ⟨t, by simpa using h⟩
  | append_singleton fs f ih =>
    rw [← List.append_assoc] at h
    generalize hgs : es ++ fs ++ [f] = gs at h
    cases h with
    | start => simp at hgs
    | snoc hrun _ _ =>
      obtain ⟨rfl, -⟩ := List.append_inj' hgs rfl
      exact ih hrun

theorem last {e : ε} (h : RunUnder M G (es ++ [e]) t) :
    ∃ s, RunUnder M G es s ∧ G s e ∧ M.step s e = some t := by
  generalize hgs : es ++ [e] = gs at h
  cases h with
  | start => simp at hgs
  | snoc hrun hg hst =>
    obtain ⟨rfl, he⟩ := List.append_inj' hgs rfl
    obtain rfl : e = _ := by simpa using he
    exact ⟨_, hrun, hg, hst⟩

/-- A guard that follows from `G` on the steps of the runs under `G` governs these runs. -/
theorem congr_of (hGH : ∀ es s e t, RunUnder M G es s → M.step s e = some t → G s e → H s e)
    (h : RunUnder M G es s) : RunUnder M H es s := by
  induction h with
  | start => exact .start
  | snoc hrun hg hst ih => exact .snoc ih (hGH _ _ _ _ hrun hst hg) hst

end RunUnder

section Rules

variable {M : Machine σ ε} {G H : Guard σ ε}

/-- Two guards govern the same runs when they agree on every step of the runs under the first. -/
theorem runUnder_congr
    (hGH : ∀ es s e t, RunUnder M G es s → M.step s e = some t → (G s e ↔ H s e))
    (es : List ε) (s : σ) : RunUnder M G es s ↔ RunUnder M H es s := by
  constructor
  · exact RunUnder.congr_of fun es s e t hrun hst => (hGH es s e t hrun hst).1
  · intro h
    induction h with
    | start => exact .start
    | snoc _ hh hst ih => exact .snoc ih ((hGH _ _ _ _ ih hst).2 hh) hst

/-- Runs are deterministic: the events determine the state. -/
theorem run_unique {es : List ε} {s t : σ} (hs : Run M es s) (ht : Run M es t) : s = t := by
  induction hs generalizing t with
  | start =>
    generalize hgs : ([] : List ε) = gs at ht
    cases ht with
    | start => rfl
    | snoc => simp at hgs
  | snoc _ _ hst ih =>
    obtain ⟨s', hrun', -, hst'⟩ := ht.last
    obtain rfl := ih hrun'
    rw [hst] at hst'
    exact Option.some.inj hst'

/-- A run under two guards passes only through states of `P` when the second guard asks `P` of the
state after each step, and the initial state is one of them. -/
theorem runUnder_after_iff {P : σ → Prop} (hinit : P M.init) (es : List ε) (s : σ) :
    RunUnder M (fun s e => G s e ∧ After M P s e) es s ↔ RunUnder M G es s ∧ Always M P es := by
  constructor
  · intro h
    refine ⟨h.mono fun _ _ hg => hg.1, fun pre post t hes ht => ?_⟩
    subst hes
    obtain ⟨t', ht'⟩ := h.of_append
    rw [run_unique ht ht'.toRun]
    exact ht'.invariant hinit fun _ _ t _ hg hst => hg.2 t hst
  · rintro ⟨hrun, hall⟩
    induction hrun with
    | start => exact .start
    | @snoc es s t e hrun hg hst ih =>
      have hearlier : Always M P es := by
        intro pre post u hes hu
        apply hall pre (post ++ [e]) u _ hu
        rw [hes, List.append_assoc]
      apply RunUnder.snoc (ih hearlier) _ hst
      refine ⟨hg, fun u hu => ?_⟩
      exact hall (es ++ [e]) [] u (by simp) (hrun.toRun.snoc trivial hu)

/-- When from the states of `P` the second of two guards says exactly that the step ends in `P`, it
singles out, among the runs under the first, those that pass only through states of `P`. -/
theorem always_iff {C : Guard σ ε} {P : σ → Prop} (hinit : P M.init)
    (hstep : ∀ es s e t, RunUnder M (fun s e => G s e ∧ C s e) es s → P s → G s e →
      M.step s e = some t → (C s e ↔ P t)) (es : List ε) (s : σ) :
    RunUnder M (fun s e => G s e ∧ C s e) es s ↔ RunUnder M G es s ∧ Always M P es := by
  have hP : ∀ {es s}, RunUnder M (fun s e => G s e ∧ C s e) es s → P s := by
    intro es s h
    induction h with
    | start => exact hinit
    | snoc hrun hg hst ih => exact (hstep _ _ _ _ hrun ih hg.1 hst).1 hg.2
  rw [← runUnder_after_iff hinit]
  apply runUnder_congr
  intro es s e t hrun hst
  apply and_congr_right
  intro hg
  rw [hstep es s e t hrun (hP hrun) hg hst]
  constructor
  · intro ht u hu
    obtain rfl := Option.some.inj (hst.symm.trans hu)
    exact ht
  · intro hafter
    exact hafter t hst

/-- `always_iff` for runs without a further guard. -/
theorem run_always_iff {C : Guard σ ε} {P : σ → Prop} (hinit : P M.init)
    (hstep : ∀ es s e t, RunUnder M C es s → P s → M.step s e = some t → (C s e ↔ P t))
    (es : List ε) (s : σ) : RunUnder M C es s ↔ Run M es s ∧ Always M P es := by
  have hC : ∀ {es s}, RunUnder M (fun s e => unguarded s e ∧ C s e) es s ↔ RunUnder M C es s :=
    ⟨fun h => h.mono fun _ _ hg => hg.2, fun h => h.mono fun _ _ hg => ⟨trivial, hg⟩⟩
  rw [← hC]
  apply always_iff hinit
  intro es s e t hrun hs _ hst
  exact hstep es s e t (hC.1 hrun) hs hst

theorem execFrom_append (s : σ) (es fs : List ε) :
    M.execFrom s (es ++ fs) = (M.execFrom s es).bind fun t => M.execFrom t fs := by
  induction es generalizing s with
  | nil => rfl
  | cons e es ih =>
    simp only [List.cons_append, Machine.execFrom]
    cases M.step s e with
    | none => rfl
    | some t => simpa using ih t

/-- Executing the events of a machine gives a run, and every run is so obtained. -/
theorem run_iff_exec (es : List ε) (s : σ) : Run M es s ↔ M.exec es = some s := by
  constructor
  · intro h
    induction h with
    | start => rfl
    | snoc _ _ hst ih =>
      rw [Machine.exec] at ih ⊢
      rw [execFrom_append, ih]
      simp [Machine.execFrom, hst]
  · intro h
    induction es using List.reverseRecOn generalizing s with
    | nil =>
      obtain rfl : M.init = s := Option.some.inj h
      exact .start
    | append_singleton es e ih =>
      rw [Machine.exec, execFrom_append] at h
      obtain ⟨t, ht, hlast⟩ := Option.bind_eq_some_iff.1 h
      have hst : M.step t e = some s := by
        simpa [Machine.execFrom] using hlast
      exact .snoc (ih t ht) trivial hst

/-- A run continues with the events that its state can execute. -/
theorem Run.append {es fs : List ε} {s t : σ} (h : Run M es s) (hf : M.execFrom s fs = some t) :
    Run M (es ++ fs) t := by
  rw [run_iff_exec, Machine.exec] at h ⊢
  rw [execFrom_append, h]
  exact hf

/-- What an execution computes about its last state is so of the state that its run reaches. -/
theorem exists_run_of_exec {α : Type w} (M : Machine σ ε) (es : List ε) (f : σ → α) {v : α}
    (h : (M.exec es).map f = some v) : ∃ s, Run M es s ∧ f s = v := by
  obtain ⟨s, hs, hv⟩ := Option.map_eq_some_iff.1 h
  exact ⟨s, (run_iff_exec es s).2 hs, hv⟩

/-- No guarded run takes a last event that the guard forbids in the state which the events before it
lead to. -/
theorem not_runUnder_snoc {α : Type w} (es : List ε) (e : ε) (f : σ → α) {v : α}
    (h : (M.exec es).map f = some v) (hbad : ∀ s, f s = v → ¬ G s e) (t : σ) :
    ¬ RunUnder M G (es ++ [e]) t := by
  intro hrun
  obtain ⟨s, hs, hv⟩ := exists_run_of_exec M es f h
  obtain ⟨s', hs', hg, -⟩ := hrun.last
  obtain rfl := run_unique hs hs'.toRun
  exact hbad s hv hg

/-- A guard that every event meets in every state holds of the whole run. -/
theorem runUnder_of_forall {es : List ε} {s : σ} (h : Run M es s) (hes : ∀ e ∈ es, ∀ s, G s e) :
    RunUnder M G es s := by
  induction h with
  | start => exact .start
  | snoc _ _ hst ih =>
    exact .snoc (ih fun e he => hes e (List.mem_append_left _ he))
      (hes _ (List.mem_append_right _ List.mem_cons_self) _) hst

/-- The machine `M` that takes only the steps that pass a check. -/
def Machine.restrict (M : Machine σ ε) (check : σ → ε → Bool) : Machine σ ε where
  init := M.init
  step := fun s e => if check s e then M.step s e else none

/-- An execution whose steps pass a check for the guard is a guarded run. -/
theorem runUnder_of_restrict {check : σ → ε → Bool} (hcheck : ∀ s e, check s e = true → G s e)
    {es : List ε} {s : σ} (h : Run (M.restrict check) es s) : RunUnder M G es s := by
  induction h with
  | start => exact .start
  | snoc _ _ hst ih =>
    obtain ⟨hc, hst'⟩ := Option.ite_none_right_eq_some.1 hst
    exact .snoc ih (hcheck _ _ hc) hst'

end Rules

/-! ## Simulations -/

/-- The machine `C`, on steps that meet `G`, is matched by the machine `A`: a step of `C` between
related states is answered by finitely many steps of `A`, possibly none. -/
structure Simulation {τ : Type w} {δ : Type x} (C : Machine σ ε) (G : Guard σ ε)
    (A : Machine τ δ) where
  rel : σ → τ → Prop
  rel_init : rel C.init A.init
  rel_step : ∀ s a e t, rel s a → G s e → C.step s e = some t →
    ∃ ds b, A.execFrom a ds = some b ∧ rel t b

/-- Every guarded run of the simulated machine has a related run of the simulating one. -/
theorem Simulation.exists_run {τ : Type w} {δ : Type x} {C : Machine σ ε} {G : Guard σ ε}
    {A : Machine τ δ} (S : Simulation C G A) {es : List ε} {s : σ} (h : RunUnder C G es s) :
    ∃ ds a, Run A ds a ∧ S.rel s a := by
  induction h with
  | start => exact ⟨[], A.init, .start, S.rel_init⟩
  | snoc _ hg hst ih =>
    obtain ⟨ds, a, hrun, hrel⟩ := ih
    obtain ⟨ds', b, hexec, hrel'⟩ := S.rel_step _ _ _ _ hrel hg hst
    exact ⟨ds ++ ds', b, hrun.append hexec, hrel'⟩

/-- One step of the simulating machine as an execution. -/
theorem execFrom_single {M : Machine σ ε} {s t : σ} {e : ε} (h : M.step s e = some t) :
    M.execFrom s [e] = some t := by
  simp [Machine.execFrom, h]

/-- A machine that can take one event only at each place of a run has one run of each length. -/
theorem exists_run_iff_of_schedule {M : Machine σ ε} {I : Nat → σ → Prop} {expected : Nat → ε}
    (hinit : I 0 M.init)
    (htake : ∀ k s, I k s → ∃ t, M.step s (expected k) = some t ∧ I (k + 1) t)
    (honly : ∀ k s e t, I k s → M.step s e = some t → e = expected k) (es : List ε) :
    (∃ s, Run M es s) ↔ es = (List.range es.length).map expected := by
  have hall : ∀ n, ∃ s, Run M ((List.range n).map expected) s ∧ I n s := by
    intro n
    induction n with
    | zero => exact ⟨M.init, .start, hinit⟩
    | succ n ih =>
      obtain ⟨s, hrun, hs⟩ := ih
      obtain ⟨t, hstep, ht⟩ := htake n s hs
      refine ⟨t, ?_, ht⟩
      rw [List.range_succ, List.map_append]
      exact hrun.snoc trivial hstep
  constructor
  · rintro ⟨s, hrun⟩
    induction hrun with
    | start => rfl
    | @snoc es s t e hrun _ hstep ih =>
      obtain ⟨s', hrun', hs'⟩ := hall es.length
      rw [← ih] at hrun'
      obtain rfl := run_unique hrun hrun'
      rw [List.length_append, List.length_singleton, List.range_succ, List.map_append, ← ih,
        honly _ _ _ _ hs' hstep]
      rfl
  · intro hes
    obtain ⟨s, hrun, -⟩ := hall es.length
    rw [← hes] at hrun
    exact ⟨s, hrun⟩

/-! ## History variables -/

section History

variable {γ : Type w}

/-- The machine `M` with a history variable, which every step updates and no step reads. -/
def Machine.observed (M : Machine σ ε) (start : γ) (note : σ → ε → γ → γ) :
    Machine (σ × γ) ε where
  init := (M.init, start)
  step := fun s e => (M.step s.1 e).map fun t => (t, note s.1 e s.2)

/-- A history variable neither adds nor removes runs. -/
theorem run_observed_iff {M : Machine σ ε} (start : γ) (note : σ → ε → γ → γ) (es : List ε)
    (s : σ) : Run M es s ↔ ∃ g, Run (M.observed start note) es (s, g) := by
  constructor
  · intro h
    induction h with
    | start => exact ⟨start, .start⟩
    | @snoc es s t e _ _ hst ih =>
      obtain ⟨g, hrun⟩ := ih
      refine ⟨note s e g, hrun.snoc trivial ?_⟩
      show (M.step s e).map _ = _
      rw [hst]
      rfl
  · rintro ⟨g, h⟩
    have hrun : ∀ {es x}, Run (M.observed start note) es x → Run M es x.1 := by
      intro es x hx
      induction hx with
      | start => exact .start
      | snoc _ _ hst ih =>
        obtain ⟨t, ht, rfl⟩ := Option.map_eq_some_iff.1 hst
        exact ih.snoc trivial ht
    exact hrun h

end History

end IotClient.Foundation.Runs
