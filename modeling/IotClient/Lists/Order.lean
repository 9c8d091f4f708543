import IotClient.Foundation.Attempts
import IotClient.Lists.Screens

/-!
# The order of the responses

Every request has a client and a callback of its own, and the callback assigns the list field
whatever the field holds: nothing in the code compares requests. So the field is a register that is
written in the order of arrival. `arrivalOrder_of_run` states what follows for every run of a list
screen: the field always holds the response that arrived last; the responses never go back to an
earlier request exactly when they arrive in the order of issue; and then the lists bound to the
adapter do not go back either.
-/

set_option autoImplicit false

namespace IotClient.Lists.Order

open IotClient.Foundation.Attempts (Issued)
open IotClient.Foundation.Register
open IotClient.Foundation.Runs
open IotClient.Lists.Screens

variable {R : Type} {code : ScreenCode} {device : R → String}

/-- The answer that an event brings, with its request. -/
def answerOf : Event R → Option (Nat × Answer R)
  | .respond r a => some (r, a)
  | .execute | .onRefresh | .onLoadMore | .doInBackground | .waitEnds | .onPostExecute
  | .onItemClick _ => none

/-- The answers that events bring, in the order of arrival. -/
def arrived (es : List (Event R)) : Log (Answer R) := es.filterMap answerOf

theorem arrived_snoc (es : List (Event R)) (e : Event R) :
    arrived (es ++ [e]) = arrived es ++ (answerOf e).toList := by
  rw [arrived, List.filterMap_append]
  cases h : answerOf e <;> simp [arrived, h]

theorem onLoadMore_answers (s : ListScreen R) : (s.onLoadMore code).answers = s.answers := by
  rw [ListScreen.onLoadMore]
  cases code.loadingListener <;> rfl

theorem onPostExecute_answers (s : ListScreen R) (task : Ended R) (rest : List (Ended R)) :
    (s.onPostExecute code task rest).answers = s.answers := by
  rw [ListScreen.onPostExecute]
  split <;> rfl

theorem onItemClick_answers (s : ListScreen R) (detail : Detail) (i : Nat) :
    (s.onItemClick device detail i).answers = s.answers := by
  rw [ListScreen.onItemClick]
  split <;> rfl

theorem respond_answers (s : ListScreen R) (r : Nat) (a : Answer R) :
    (s.respond code r a).answers = s.answers ++ [(r, a)] := by
  cases a <;> rfl

/-- The log of a screen grows by the answer of the event. -/
theorem step_answers {s t : ListScreen R} {e : Event R} (h : s.step code device e = some t) :
    t.answers = s.answers ++ (answerOf e).toList := by
  obtain ⟨-, ⟨rfl | rfl, rfl⟩ | ⟨rfl, rfl⟩ | ⟨rfl, -, -, rfl⟩ | ⟨r, rfl, -, rfl⟩ |
    ⟨task, rest, rfl, -, rfl⟩ | ⟨r, a, rfl, -, rfl⟩ | ⟨i, adapter, x, rfl, -, -, -, -, rfl⟩⟩ :=
    step_cases h
  · exact (List.append_nil _).symm
  · exact (List.append_nil _).symm
  · rw [onLoadMore_answers]
    exact (List.append_nil _).symm
  · exact (List.append_nil _).symm
  · exact (List.append_nil _).symm
  · rw [onPostExecute_answers]
    exact (List.append_nil _).symm
  · exact respond_answers s r a
  · cases adapter.onItemClickListener with
    | none => exact (List.append_nil _).symm
    | some detail => exact (onItemClick_answers s detail i).trans (List.append_nil _).symm

/-- The log of a screen is made of the answers of its run. -/
theorem answers_of_run {es : List (Event R)} {s : ListScreen R}
    (h : Run (machine code device) es s) : s.answers = arrived es := by
  apply h.invariant_trace (I := fun es s => s.answers = arrived es)
  · rfl
  · intro es s e t hs _ hst
    rw [arrived_snoc, ← hs]
    exact step_answers hst

/-! ## Requests are numbered in the order of issue -/

/-- The requests in flight and the requests answered are numbered apart, so no request is answered
twice. -/
def Numbered (s : ListScreen R) : Prop := Issued s.issued s.inFlight (s.answers.map Prod.fst)

theorem Numbered.requestDataFromServer {s : ListScreen R} (h : Numbered s) :
    Numbered s.requestDataFromServer :=
  h.issue

theorem Numbered.respond {s : ListScreen R} (h : Numbered s) {r : Nat} (hr : r ∈ s.inFlight)
    (a : Answer R) : Numbered (s.respond code r a) := by
  have hanswered : (s.answers ++ [(r, a)]).map Prod.fst = s.answers.map Prod.fst ++ [r] :=
    List.map_append
  have hcomplete := h.complete hr
  rw [← hanswered] at hcomplete
  -- the handler writes the field and the flag besides, whichever answer it gets
  cases a <;> exact hcomplete

theorem numbered_step {s t : ListScreen R} {e : Event R} (hs : Numbered s)
    (h : s.step code device e = some t) : Numbered t := by
  obtain ⟨-, ⟨-, rfl⟩ | ⟨-, rfl⟩ | ⟨-, -, -, rfl⟩ | ⟨r, -, -, rfl⟩ | ⟨task, rest, -, -, rfl⟩ |
    ⟨r, a, -, hr, rfl⟩ | ⟨i, adapter, x, -, -, -, -, -, rfl⟩⟩ := step_cases h
  · exact hs
  · rw [ListScreen.onLoadMore]
    cases code.loadingListener with
    | none => exact hs
    | refreshes => exact hs
    | refreshesAndRebinds => exact hs.requestDataFromServer
  · exact hs.requestDataFromServer
  · exact hs
  · rw [ListScreen.onPostExecute]
    split <;> exact hs
  · exact hs.respond hr a
  · cases adapter.onItemClickListener with
    | none => exact hs
    | some detail =>
        show Numbered (s.onItemClick device detail i)
        rw [ListScreen.onItemClick]
        split <;> exact hs

theorem numbered_of_run {es : List (Event R)} {s : ListScreen R}
    (h : Run (machine code device) es s) : Numbered s := by
  apply h.invariant
  · exact Issued.empty
  · intro s e t hs _ hst
    exact numbered_step hs hst

/-- No request of a run is answered twice. -/
theorem answered_once {es : List (Event R)} {s : ListScreen R}
    (h : Run (machine code device) es s) : (s.answers.map Prod.fst).Nodup :=
  (List.nodup_append.1 (numbered_of_run h).nodup).2.1

/-! ## Runs -/

/-- The requests whose responses have been stored, in the order of arrival. -/
abbrev stored (log : Log (Answer R)) : List Nat := writers Answer.written log

/-- A response that is stored was issued after all the responses stored before it. -/
def Forwards : Guard (ListScreen R) (Event R) := fun s e =>
  ∀ r list, e = .respond r (.body list) → ∀ j ∈ stored s.answers, j < r

/-- The responses are stored in the order of arrival, each over whatever was stored before. -/
structure ArrivalOrder (code : ScreenCode) (device : R → String) (es : List (Event R))
    (s : ListScreen R) : Prop where
  /-- The field holds the list of the last response of the run. -/
  newList : s.newList = fieldAfter (arrived es)
  /-- No request is answered twice. -/
  once : (stored (arrived es)).Nodup
  /-- A response replaces what is stored when it arrives, also the response of a later request. -/
  replaces : ∀ pre r list post t, es = pre ++ .respond r (.body list) :: post →
    Run (machine code device) (pre ++ [.respond r (.body list)]) t →
      t.newList = list ∧ writer Answer.written t.answers = some r
  /-- The responses never go backwards exactly when they arrive in the order of issue. -/
  forwards : RunUnder (machine code device) Forwards es s ↔
    (stored (arrived es)).Pairwise (· < ·)
  /-- Then the lists bound to the adapter never go backwards. -/
  binds : (stored (arrived es)).Pairwise (· < ·) → s.binds.Pairwise (NotBefore Answer.written)

theorem stored_snoc (log : Log (Answer R)) (e : Event R) :
    stored (log ++ (answerOf e).toList) = stored log ++
      ((answerOf e).bind fun entry => (Answer.written entry.2).map fun _ => entry.1).toList := by
  cases h : answerOf e with
  | none => simp
  | some entry => exact writers_snoc Answer.written log entry.1 entry.2

theorem forwards_iff {es : List (Event R)} {s : ListScreen R}
    (h : Run (machine code device) es s) :
    RunUnder (machine code device) Forwards es s ↔ (stored (arrived es)).Pairwise (· < ·) := by
  induction h with
  | start => exact ⟨fun _ => List.Pairwise.nil, fun _ => .start⟩
  | @snoc es s t e hrun _ hst ih =>
    -- the responses so far are in order, and the new one is above them
    have hsnoc : (stored (arrived (es ++ [e]))).Pairwise (· < ·) ↔
        (stored (arrived es)).Pairwise (· < ·) ∧ Forwards s e := by
      rw [arrived_snoc, stored_snoc, List.pairwise_append, Forwards, answers_of_run hrun]
      match e with
      | .respond r (.body list) =>
        simp only [answerOf, Answer.written, Option.bind_some, Option.map_some, Option.toList_some]
        constructor
        · rintro ⟨hsorted, -, habove⟩
          refine ⟨hsorted, ?_⟩
          rintro r' list' he j hj
          obtain ⟨rfl, -⟩ : r = r' ∧ list = list' := by simpa using he
          exact habove j hj r (List.mem_singleton_self r)
        · rintro ⟨hsorted, habove⟩
          refine ⟨hsorted, List.pairwise_singleton _ _, ?_⟩
          intro j hj r' hr'
          obtain rfl := List.mem_singleton.1 hr'
          exact habove r' list rfl j hj
      | .respond r .failure => simp [answerOf, Answer.written]
      | .execute | .onRefresh | .onLoadMore | .doInBackground | .waitEnds | .onPostExecute
      | .onItemClick i => simp [answerOf]
    rw [hsnoc, ← ih]
    constructor
    · intro h
      -- the guard of the last step is read in the state before it
      obtain ⟨s', hrun', hg, -⟩ := h.last
      obtain rfl := run_unique hrun hrun'.toRun
      exact ⟨hrun', hg⟩
    · rintro ⟨hrun', hg⟩
      exact hrun'.snoc hg hst

/-- In every run of a list screen the responses are stored in the order of arrival. -/
theorem arrivalOrder_of_run (code : ScreenCode) (device : R → String) {es : List (Event R)}
    {s : ListScreen R} (h : Run (machine code device) es s) : ArrivalOrder code device es s := by
  have hanswers := answers_of_run h
  have htracked := tracked_of_run h
  refine ⟨?_, ?_, ?_, forwards_iff h, ?_⟩
  · rw [← hanswers]
    exact htracked.newList
  · rw [← hanswers]
    exact List.Nodup.sublist (writers_sublist Answer.written s.answers) (answered_once h)
  · rintro pre r list post t - ht
    have ht' := answers_of_run ht
    rw [arrived_snoc] at ht'
    rw [(tracked_of_run ht).newList, ht']
    exact ⟨fieldAfter_body _ r list, writer_snoc Answer.written rfl _ r⟩
  · intro hsorted
    rw [← hanswers] at hsorted
    exact snapshots_monotone Answer.written htracked.chain htracked.binds hsorted

/-- On the temperature screen a refresh shows the answer to request 0, a load-more issues request 1
at once and its refresh issues request 2; request 2 is answered and bound, then request 1 is
answered, and the next load-more binds its list. -/
def overtaken : List (Event String) :=
  [.execute, .doInBackground, .respond 0 (.body (some ["1"])), .waitEnds, .onPostExecute,
    .onLoadMore, .doInBackground, .respond 2 (.body (some ["1", "2"])), .waitEnds, .onPostExecute,
    .respond 1 (.body (some ["1"])), .onLoadMore]

/-- The response of request 1 replaces that of request 2, in the field and on the screen. -/
theorem earlier_response_replaces_later :
    ∃ s, Run (machine temperatureFragment id) overtaken s ∧ s.newList = some ["1"] ∧
      stored (arrived overtaken) = [0, 2, 1] ∧ ¬ s.binds.Pairwise (NotBefore Answer.written) := by
  have hexec : ((machine temperatureFragment id).exec overtaken).map (fun s =>
      (s.newList, s.binds.map (writer Answer.written))) =
        some (some ["1"], [some 0, some 0, some 2, some 1]) := by decide
  obtain ⟨s, hrun, hs⟩ := exists_run_of_exec _ _ _ hexec
  obtain ⟨hlist, hwriters⟩ := Prod.mk.inj hs
  refine ⟨s, hrun, hlist, by decide, fun hpairwise => ?_⟩
  have hmap : (s.binds.map (writer Answer.written)).Pairwise
      fun p q => ∀ i ∈ p, ∀ j ∈ q, i ≤ j := List.pairwise_map.2 hpairwise
  rw [hwriters] at hmap
  exact absurd hmap (by decide)

/-- The theorem at that run. -/
theorem arrivalOrder_overtaken :
    ∃ s, Run (machine temperatureFragment id) overtaken s ∧
      ArrivalOrder temperatureFragment id overtaken s := by
  have hexec : ((machine temperatureFragment id).exec overtaken).map (fun s => s.crashed) =
      some false := by decide
  obtain ⟨s, hrun, -⟩ := exists_run_of_exec _ _ _ hexec
  exact ⟨s, hrun, arrivalOrder_of_run temperatureFragment id hrun⟩

end IotClient.Lists.Order
