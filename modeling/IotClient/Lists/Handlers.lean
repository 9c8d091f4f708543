import IotClient.Lists.Screens

/-!
# The response handlers of the fragments, access by access

The fragments send their requests with a client of its own each, so their response handlers run on
threads of their own and at the same time. A handler assigns the list field, reads the field again
for its null check, reads it a third time for its call of `size`, and sets the flag. Here each of
these accesses is a step, and any number of handlers may be between two of them. `onPostExecute` of
the temperature screen reads the field twice as well, for the adapter and for its log.

* `tracked_of_run`: as long as no list is stored between the store of a handler and its call of
  `size`, the field and the flag are what the stored bodies and the completed handlers say.
* `sequential`: the screen whose handlers are one step is the special case of handlers that run one
  after another.
-/

set_option autoImplicit false

namespace IotClient.Lists.Handlers

open IotClient.Foundation.Register
open IotClient.Foundation.Runs
open IotClient.Lists.Screens

variable {R : Type}

/-- What a handler that has stored its list does next. -/
inductive Point where
  | nullCheck
  | size
  | setFlag
deriving DecidableEq, Repr

/-- A handler that has stored its list, which is `list`. -/
structure Handler (R : Type) where
  request : Nat
  list : Option (List R)
  point : Point

/-- A screen and its running handlers. `screen.answers` has the requests whose handlers have run to
their end, `stored` has the bodies that were stored, both in order; `logging` says that
`onPostExecute` is in front of the log of the list. -/
structure Threads (R : Type) where
  screen : ListScreen R
  stored : Log (Answer R)
  handlers : List (Handler R)
  logging : Bool

/-- What happens to a screen: an event that is one step, the store of a handler, a further access of
the handler `i`, or the log of `onPostExecute`. -/
inductive ThreadEvent (R : Type) where
  | screen (e : Event R)
  | store (r : Nat) (list : Option (List R))
  | access (i : Nat)
  | logList

/-- The code of a screen up to the log of the list. -/
def withoutLog (code : ScreenCode) : ScreenCode := { code with toStringAfterBind := false }

/-- The main thread takes the event. -/
def onMainThread (code : ScreenCode) : Event R → Bool
  | .doInBackground | .waitEnds => false
  | .respond _ _ => code.handlerThread == .main
  | .execute | .onRefresh | .onLoadMore | .onPostExecute | .onItemClick _ => true

/-- The body that an event stores. -/
def bodyOf : Event R → Log (Answer R)
  | .respond r (.body list) => [(r, .body list)]
  | .respond _ .failure | .execute | .onRefresh | .onLoadMore | .doInBackground | .waitEnds
  | .onPostExecute | .onItemClick _ => []

/-- The event ends in front of the log of the list. -/
def logsNext (code : ScreenCode) (s : ListScreen R) : Event R → Bool
  | .onPostExecute => code.toStringAfterBind && s.ended.head?.any fun task => task.result
  | .execute | .onRefresh | .onLoadMore | .doInBackground | .waitEnds | .respond _ _
  | .onItemClick _ => false

namespace Threads

/-- The handler `i` returns. -/
def finish (s : Threads R) (i : Nat) (h : Handler R) : Threads R :=
  { s with
    screen := { s.screen with answers := s.screen.answers ++ [(h.request, .body h.list)] }
    handlers := s.handlers.eraseIdx i }

/-- The handler `i` goes on to its next access. -/
def goOn (s : Threads R) (i : Nat) (h : Handler R) (point : Point) : Threads R :=
  { s with handlers := s.handlers.set i { h with point := point } }

/-- The next access of the handler `i`. Its reads see what the field holds by then. -/
def access (s : Threads R) (i : Nat) (h : Handler R) : Threads R :=
  match h.point, s.screen.newList with
  | .nullCheck, none => s.finish i h
  | .nullCheck, some _ => s.goOn i h .size
  | .size, none => { s with screen := { s.screen with crashed := true } }
  | .size, some [] => s.finish i h
  | .size, some (_ :: _) => s.goOn i h .setFlag
  | .setFlag, _ => finish { s with screen := { s.screen with uploadSuccess := true } } i h

/-- The assignment of a handler on a thread of its own. -/
def store (s : Threads R) (r : Nat) (list : Option (List R)) : Threads R :=
  { s with
    screen := { s.screen with newList := list, inFlight := s.screen.inFlight.erase r }
    stored := s.stored ++ [(r, .body list)]
    handlers := s.handlers ++ [⟨r, list, .nullCheck⟩] }

/-- The log of `onPostExecute` calls `toString` on the list of the field. -/
def logList (s : Threads R) : Threads R :=
  { s with screen := { s.screen with crashed := s.screen.newList.isNone }, logging := false }

/-- One event. A body is handled by one step on the main thread only. -/
def step (code : ScreenCode) (device : R → String) (s : Threads R) :
    ThreadEvent R → Option (Threads R)
  | .screen e =>
      if (s.logging ∧ onMainThread code e) ∨ (code.handlerThread = .dispatcher ∧ bodyOf e ≠ [])
      then none
      else (ListScreen.step (withoutLog code) device s.screen e).map fun t =>
        { s with
          screen := t
          stored := s.stored ++ bodyOf e
          logging := s.logging || logsNext code s.screen e }
  | .store r list =>
      if s.screen.crashed = false ∧ code.handlerThread = .dispatcher ∧ r ∈ s.screen.inFlight then
        some (s.store r list)
      else none
  | .access i =>
      if s.screen.crashed then none else s.handlers[i]?.map fun h => s.access i h
  | .logList => if s.screen.crashed = false ∧ s.logging then some s.logList else none

end Threads

/-- A screen that has just been created. -/
def threads (code : ScreenCode) (device : R → String) : Machine (Threads R) (ThreadEvent R) where
  init := ⟨(machine code device).init, [], [], false⟩
  step := Threads.step code device

variable {code : ScreenCode} {device : R → String}

theorem threads_screen {s t : Threads R} {e : Event R}
    (h : s.step code device (.screen e) = some t) :
    ∃ u, ¬ (s.logging ∧ onMainThread code e) ∧
      ¬ (code.handlerThread = .dispatcher ∧ bodyOf e ≠ []) ∧
      ListScreen.step (withoutLog code) device s.screen e = some u ∧
      t = { s with
        screen := u
        stored := s.stored ++ bodyOf e
        logging := s.logging || logsNext code s.screen e } := by
  obtain ⟨hfree, h⟩ := Option.ite_none_left_eq_some.1 h
  obtain ⟨u, hu, rfl⟩ := Option.map_eq_some_iff.1 h
  rw [not_or] at hfree
  exact ⟨u, hfree.1, hfree.2, hu, rfl⟩

theorem threads_logList {s t : Threads R} (h : s.step code device .logList = some t) :
    s.screen.crashed = false ∧ s.logging = true ∧ t = s.logList := by
  obtain ⟨⟨hcrashed, hlogging⟩, h⟩ := Option.ite_none_right_eq_some.1 h
  exact ⟨hcrashed, hlogging, (Option.some.inj h).symm⟩

/-- What one event does. -/
theorem threads_cases {s t : Threads R} {e : ThreadEvent R}
    (h : s.step code device e = some t) :
    (∃ se u, e = .screen se ∧ ¬ (s.logging ∧ onMainThread code se) ∧
      ¬ (code.handlerThread = .dispatcher ∧ bodyOf se ≠ []) ∧
      ListScreen.step (withoutLog code) device s.screen se = some u ∧
      t = { s with
        screen := u
        stored := s.stored ++ bodyOf se
        logging := s.logging || logsNext code s.screen se }) ∨
    (∃ r list, e = .store r list ∧ s.screen.crashed = false ∧ code.handlerThread = .dispatcher ∧
      r ∈ s.screen.inFlight ∧ t = s.store r list) ∨
    (∃ i h, e = .access i ∧ s.screen.crashed = false ∧ s.handlers[i]? = some h ∧
      t = s.access i h) ∨
    (e = .logList ∧ s.screen.crashed = false ∧ s.logging = true ∧ t = s.logList) := by
  cases e with
  | screen se =>
      obtain ⟨u, hfree, hthread, hu, rfl⟩ := threads_screen h
      exact Or.inl ⟨se, u, rfl, hfree, hthread, hu, rfl⟩
  | store r list =>
      obtain ⟨⟨hcrashed, hthread, hr⟩, h⟩ := Option.ite_none_right_eq_some.1 h
      exact Or.inr (Or.inl ⟨r, list, rfl, hcrashed, hthread, hr, (Option.some.inj h).symm⟩)
  | access i =>
      obtain ⟨hcrashed, h⟩ := Option.ite_none_left_eq_some.1 h
      obtain ⟨handler, hhandler, rfl⟩ := Option.map_eq_some_iff.1 h
      exact Or.inr (Or.inr (Or.inl ⟨i, handler, rfl, by simpa using hcrashed, hhandler, rfl⟩))
  | logList =>
      obtain ⟨hcrashed, hlogging, rfl⟩ := threads_logList h
      exact Or.inr (Or.inr (Or.inr ⟨rfl, hcrashed, hlogging, rfl⟩))

/-! ## Handlers that find their own list -/

/-- No list is stored between the store of a handler and its call of `size`. -/
def Undisturbed : Guard (Threads R) (ThreadEvent R) := fun s e =>
  ∀ r list, e = .store r list → ∀ h ∈ s.handlers, h.point = .setFlag

/-- What a handler knows of its list, and of the field while it reads it. -/
def Handler.Own (field : Option (List R)) (h : Handler R) : Prop :=
  match h.point with
  | .nullCheck => field = h.list
  | .size => field = h.list ∧ h.list.isSome = true
  | .setFlag => (Answer.body h.list).nonEmpty = true

/-- The field, the flag and the results of the tasks, as functions of the bodies stored and of the
answers whose handlers have run to their end. -/
structure Tracked (code : ScreenCode) (s : Threads R) : Prop where
  newList : s.screen.newList = fieldAfter s.stored
  uploadSuccess : s.screen.uploadSuccess = someNonEmpty s.screen.answers
  results : ∀ task ∈ s.screen.ended, task.result = someNonEmpty task.seen
  own : ∀ h ∈ s.handlers, h.Own s.screen.newList
  dispatcher : code.handlerThread = .main → s.handlers = []

theorem Tracked.finish {s : Threads R} (hs : Tracked code s) {i : Nat} {h : Handler R}
    (hflag : s.screen.uploadSuccess =
      (someNonEmpty s.screen.answers || (Answer.body h.list).nonEmpty)) :
    Tracked code (s.finish i h) where
  newList := hs.newList
  uploadSuccess := hflag.trans (someNonEmpty_snoc _ _ _).symm
  results := hs.results
  own := fun g hg => hs.own g (List.mem_of_mem_eraseIdx hg)
  dispatcher := by
    intro hmain
    show s.handlers.eraseIdx i = []
    rw [hs.dispatcher hmain, List.eraseIdx_nil]

theorem Tracked.goOn {s : Threads R} (hs : Tracked code s) {i : Nat} {h : Handler R}
    {point : Point} (hown : Handler.Own s.screen.newList { h with point := point }) :
    Tracked code (s.goOn i h point) where
  newList := hs.newList
  uploadSuccess := hs.uploadSuccess
  results := hs.results
  own := by
    intro g hg
    rcases List.mem_or_eq_of_mem_set hg with hg | rfl
    · exact hs.own g hg
    · exact hown
  dispatcher := by
    intro hmain
    show s.handlers.set i _ = []
    rw [hs.dispatcher hmain, List.set_nil]

/-- A handler that finds its own list sets the flag exactly when the list is not empty, and never
calls `size` on null. -/
theorem Tracked.access {s : Threads R} (hs : Tracked code s) (hcrashed : s.screen.crashed = false)
    {i : Nat} {h : Handler R} (hh : s.handlers[i]? = some h) :
    Tracked code (s.access i h) ∧ (s.access i h).screen.crashed = false := by
  obtain ⟨r, list, point⟩ := h
  have hown := hs.own _ (List.mem_of_getElem? hh)
  have hflag := hs.uploadSuccess
  cases point with
  | nullCheck =>
      obtain rfl : s.screen.newList = list := hown
      -- a handler whose list is null returns, and has answered nothing
      cases hfield : s.screen.newList with
      | none =>
          rw [Threads.access, hfield]
          refine ⟨hs.finish ?_, hcrashed⟩
          rw [hflag]
          exact (Bool.or_false _).symm
      | some xs =>
          rw [Threads.access, hfield]
          exact ⟨hs.goOn ⟨hfield, rfl⟩, hcrashed⟩
  | size =>
      obtain ⟨hfield, hsome⟩ : s.screen.newList = list ∧ list.isSome = true := hown
      -- the field is still the list of the handler, so `size` is not called on null
      match list, hsome with
      | some [], _ =>
          rw [Threads.access, hfield]
          refine ⟨hs.finish ?_, hcrashed⟩
          rw [hflag]
          exact (Bool.or_false _).symm
      | some (x :: xs), _ =>
          rw [Threads.access, hfield]
          exact ⟨hs.goOn rfl, hcrashed⟩
  | setFlag =>
      have hnonEmpty : (Answer.body list).nonEmpty = true := hown
      refine ⟨⟨hs.newList, ?_, hs.results, ?_, ?_⟩, hcrashed⟩
      · show true = someNonEmpty (s.screen.answers ++ [(r, .body list)])
        rw [someNonEmpty_snoc, hnonEmpty, Bool.or_true]
      · exact fun g hg => hs.own g (List.mem_of_mem_eraseIdx hg)
      · intro hmain
        show s.handlers.eraseIdx i = []
        rw [hs.dispatcher hmain, List.eraseIdx_nil]

theorem Tracked.store {s : Threads R} (hs : Tracked code s)
    (hthread : code.handlerThread = .dispatcher) (r : Nat) (list : Option (List R))
    (hlate : ∀ h ∈ s.handlers, h.point = .setFlag) : Tracked code (s.store r list) where
  newList := (fieldAfter_body s.stored r list).symm
  uploadSuccess := hs.uploadSuccess
  results := hs.results
  own := by
    intro g hg
    rcases List.mem_append.1 hg with hg | hg
    · -- the others have read the field for the last time
      have hown := hs.own g hg
      rw [Handler.Own, hlate g hg] at hown ⊢
      exact hown
    · rw [List.mem_singleton.1 hg]
      rfl
  dispatcher := by
    intro hmain
    rw [hthread] at hmain
    cases hmain

/-- What an event of one step that is no answer leaves as it is. A task that ends with it has read
the flag. -/
structure Frame (s t : ListScreen R) : Prop where
  newList : t.newList = s.newList
  uploadSuccess : t.uploadSuccess = s.uploadSuccess
  answers : t.answers = s.answers
  ended : ∀ task ∈ t.ended, task ∈ s.ended ∨ task.result = s.uploadSuccess ∧ task.seen = s.answers

theorem Frame.refl (s : ListScreen R) : Frame s s := ⟨rfl, rfl, rfl, fun _ => Or.inl⟩

theorem frame_onItemClick (s : ListScreen R) (detail : Detail) (i : Nat) :
    Frame s (s.onItemClick device detail i) := by
  rw [ListScreen.onItemClick]
  split <;> exact ⟨rfl, rfl, rfl, fun _ => Or.inl⟩

theorem frame_of_step {s t : ListScreen R} {e : Event R} (h : s.step code device e = some t)
    (he : ∀ r a, e ≠ .respond r a) : Frame s t := by
  obtain ⟨-, ⟨-, rfl⟩ | ⟨-, rfl⟩ | ⟨-, -, -, rfl⟩ | ⟨r, -, -, rfl⟩ |
    ⟨task, rest, -, hended, rfl⟩ | ⟨r, a, ha, -, -⟩ | ⟨i, adapter, x, -, -, -, -, -, rfl⟩⟩ :=
    step_cases h
  · exact ⟨rfl, rfl, rfl, fun _ => Or.inl⟩
  · rw [ListScreen.onLoadMore]
    cases code.loadingListener <;> exact ⟨rfl, rfl, rfl, fun _ => Or.inl⟩
  · exact ⟨rfl, rfl, rfl, fun _ => Or.inl⟩
  · refine ⟨rfl, rfl, rfl, ?_⟩
    intro task htask
    rcases List.mem_append.1 htask with htask | htask
    · exact Or.inl htask
    · rw [List.mem_singleton.1 htask]
      exact Or.inr ⟨rfl, rfl⟩
  · have hrest : ∀ task' ∈ rest, task' ∈ s.ended ∨
        task'.result = s.uploadSuccess ∧ task'.seen = s.answers := by
      intro task' htask'
      rw [hended]
      exact Or.inl (List.mem_cons_of_mem _ htask')
    rw [ListScreen.onPostExecute]
    split <;> exact ⟨rfl, rfl, rfl, hrest⟩
  · exact absurd ha (he r a)
  · cases adapter.onItemClickListener with
    | none => exact Frame.refl s
    | some detail => exact frame_onItemClick s detail i

/-- An event of one step keeps what is tracked; a body that it stores is stored on the main thread,
where no other handler runs. -/
theorem tracked_screen {s : Threads R} {t : ListScreen R} {e : Event R} (hs : Tracked code s)
    (hthread : ¬ (code.handlerThread = .dispatcher ∧ bodyOf e ≠ []))
    (h : ListScreen.step (withoutLog code) device s.screen e = some t) (logging : Bool) :
    Tracked code
      { s with screen := t, stored := s.stored ++ bodyOf e, logging := logging } := by
  by_cases hrespond : ∃ r a, e = .respond r a
  · obtain ⟨r, a, rfl⟩ := hrespond
    obtain ⟨-, rfl⟩ := step_respond h
    cases a with
    | failure =>
        refine ⟨?_, ?_, hs.results, hs.own, hs.dispatcher⟩
        · rw [show bodyOf (Event.respond r Answer.failure : Event R) = [] from rfl, List.append_nil]
          exact hs.newList
        · show s.screen.uploadSuccess = someNonEmpty (s.screen.answers ++ [(r, .failure)])
          rw [someNonEmpty_snoc, hs.uploadSuccess]
          exact (Bool.or_false _).symm
    | body list =>
        -- a handler on a thread of its own is not one step
        have hmain : code.handlerThread = .main := by
          cases hcode : code.handlerThread with
          | main => rfl
          | dispatcher => exact absurd ⟨hcode, List.cons_ne_nil _ _⟩ hthread
        refine ⟨(fieldAfter_body s.stored r list).symm, ?_, hs.results, ?_, hs.dispatcher⟩
        · show (s.screen.uploadSuccess || (Answer.body list).nonEmpty) =
            someNonEmpty (s.screen.answers ++ [(r, .body list)])
          rw [someNonEmpty_snoc, hs.uploadSuccess]
        · intro g hg
          rw [show s.handlers = [] from hs.dispatcher hmain] at hg
          cases hg
  · -- no other event stores a body
    have hframe := frame_of_step h fun r a he => hrespond ⟨r, a, he⟩
    have hbody : bodyOf e = [] := by
      cases e with
      | respond r a => exact absurd ⟨r, a, rfl⟩ hrespond
      | _ => rfl
    rw [hbody, List.append_nil]
    refine ⟨hframe.newList.trans hs.newList, ?_, ?_, ?_, hs.dispatcher⟩
    · show t.uploadSuccess = someNonEmpty t.answers
      rw [hframe.uploadSuccess, hframe.answers, hs.uploadSuccess]
    · intro task htask
      rcases hframe.ended task htask with hold | ⟨hresult, hseen⟩
      · exact hs.results task hold
      · rw [hresult, hseen, hs.uploadSuccess]
    · show ∀ h ∈ s.handlers, h.Own t.newList
      rw [hframe.newList]
      exact hs.own

theorem tracked_step {s t : Threads R} {e : ThreadEvent R} (hs : Tracked code s)
    (hg : Undisturbed s e) (h : s.step code device e = some t) : Tracked code t := by
  obtain ⟨se, u, -, -, hthread, hu, rfl⟩ | ⟨r, list, he, -, hthread, -, rfl⟩ |
    ⟨i, handler, -, hcrashed, hhandler, rfl⟩ | ⟨-, -, -, rfl⟩ := threads_cases h
  · exact tracked_screen hs hthread hu _
  · exact hs.store hthread r list (hg r list he)
  · exact (hs.access hcrashed hhandler).1
  · exact ⟨hs.newList, hs.uploadSuccess, hs.results, hs.own, hs.dispatcher⟩

/-- In runs whose handlers are undisturbed the field and the flag are what the bodies and the
completed handlers say. -/
theorem tracked_of_run {G : Guard (Threads R) (ThreadEvent R)}
    (hG : ∀ s e, G s e → Undisturbed s e) {es : List (ThreadEvent R)} {s : Threads R}
    (h : RunUnder (threads code device) G es s) : Tracked code s := by
  apply h.invariant
  · refine ⟨rfl, rfl, ?_, ?_, fun _ => rfl⟩
    · intro task htask
      cases htask
    · intro g hg
      cases hg
  · intro s e t hs hg hst
    exact tracked_step hs (hG s e hg) hst

/-! ## Handlers one after another -/

/-- A screen on which no handler is running. While the log is still to come, the screen has
crashed. -/
structure Resting (s : ListScreen R) (a : Threads R) : Prop where
  screen : a.screen = s
  handlers : a.handlers = []
  logging : a.logging = true → s.crashed = true

/-- A handler on a thread of its own that takes all its steps at once is the handler in one step. -/
theorem resting_respond (hthread : code.handlerThread = .dispatcher) {s : ListScreen R}
    {a : Threads R} (hs : Resting s a) (hcrashed : s.crashed = false) {r : Nat}
    (hr : r ∈ s.inFlight) (list : Option (List R)) :
    ∃ es b, (threads code device).execFrom a es = some b ∧
      Resting (s.respond code r (.body list)) b := by
  obtain ⟨screen, stored, handlers, logging⟩ := a
  obtain ⟨rfl, rfl, hlogging⟩ := hs
  obtain rfl : logging = false := by
    cases logging with
    | false => rfl
    | true =>
        rw [hlogging rfl] at hcrashed
        cases hcrashed
  have htoString : code.toStringInHandler = false := by
    rw [ScreenCode.toStringInHandler, hthread]
    rfl
  replace hcrashed : screen.crashed = false := hcrashed
  replace hr : r ∈ screen.inFlight := hr
  -- how many accesses the handler makes depends on its list
  have hdone : Resting (screen.respond code r (.body list))
      ⟨screen.respond code r (.body list), stored ++ [(r, .body list)], [], false⟩ :=
    ⟨rfl, rfl, fun h => nomatch h⟩
  match list with
  | none =>
      refine ⟨[.store r none, .access 0], _, ?_, hdone⟩
      simp [Machine.execFrom, threads, hthread, hr, Threads.step, Threads.store, Threads.access,
        Threads.finish, ListScreen.respond, Answer.nonEmpty, hcrashed, htoString]
  | some [] =>
      refine ⟨[.store r (some []), .access 0, .access 0], _, ?_, hdone⟩
      simp [Machine.execFrom, threads, hthread, hr, Threads.step, Threads.store, Threads.access,
        Threads.finish, Threads.goOn, ListScreen.respond, Answer.nonEmpty, hcrashed, htoString]
  | some (x :: xs) =>
      refine ⟨[.store r (some (x :: xs)), .access 0, .access 0, .access 0], _, ?_, hdone⟩
      simp [Machine.execFrom, threads, hthread, hr, Threads.step, Threads.store, Threads.access,
        Threads.finish, Threads.goOn, ListScreen.respond, Answer.nonEmpty, hcrashed, htoString]

/-- Only `onPostExecute` has a log behind its binding. -/
theorem step_withoutLog {e : Event R} (he : e ≠ .onPostExecute) (s : ListScreen R) :
    ListScreen.step (withoutLog code) device s e = ListScreen.step code device s e := by
  cases e with
  | onPostExecute => exact absurd rfl he
  | _ => rfl

/-- An event of one step on a screen where no handler runs. -/
theorem step_resting {s t : ListScreen R} {a : Threads R} {e : Event R} (hs : Resting s a)
    (hlogging : a.logging = false) (hthread : code.handlerThread = .main ∨ bodyOf e = [])
    (h : ListScreen.step (withoutLog code) device s e = some t) :
    Threads.step code device a (.screen e) =
      some ⟨t, a.stored ++ bodyOf e, [], logsNext code s e⟩ := by
  obtain ⟨screen, stored, handlers, logging⟩ := a
  obtain ⟨rfl, rfl, -⟩ := hs
  obtain rfl : logging = false := hlogging
  have hfree : ¬ ((false = true ∧ onMainThread code e = true) ∨
      (code.handlerThread = .dispatcher ∧ bodyOf e ≠ [])) := by
    rintro (⟨hfalse, -⟩ | ⟨hdispatcher, hbody⟩)
    · cases hfalse
    · rcases hthread with hmain | hnone
      · rw [hmain] at hdispatcher
        cases hdispatcher
      · exact hbody hnone
  rw [Threads.step, if_neg hfree, h]
  rfl

/-- The log adds a crash on a null list to the handler, and nothing else. -/
theorem onPostExecute_eq (s : ListScreen R) (task : Ended R) (rest : List (Ended R)) :
    s.onPostExecute code task rest =
      { s.onPostExecute (withoutLog code) task rest with
        crashed := (code.toStringAfterBind && task.result && s.newList.isNone) ||
          (s.onPostExecute (withoutLog code) task rest).crashed } := by
  rw [ListScreen.onPostExecute, ListScreen.onPostExecute]
  cases hresult : task.result with
  | false => simp
  | true =>
      rw [if_pos rfl, if_pos rfl, Bool.and_true]
      rfl

/-- `onPostExecute` and its log are the handler in one step. -/
theorem resting_onPostExecute {s : ListScreen R} {a : Threads R} (hs : Resting s a)
    (hcrashed : s.crashed = false) (hlogging : a.logging = false) {task : Ended R}
    {rest : List (Ended R)} (hended : s.ended = task :: rest) :
    ∃ es b, (threads code device).execFrom a es = some b ∧
      Resting (s.onPostExecute code task rest) b := by
  have hstep : ListScreen.step (withoutLog code) device s .onPostExecute =
      some (s.onPostExecute (withoutLog code) task rest) := by
    rw [ListScreen.step, hcrashed]
    simp [hended]
  have hfirst : Threads.step code device a (.screen .onPostExecute) = _ :=
    step_resting hs hlogging (Or.inr rfl) hstep
  have hlogs : logsNext code s (.onPostExecute : Event R) =
      (code.toStringAfterBind && task.result) := by
    rw [logsNext, hended]
    rfl
  have hlist : (s.onPostExecute (withoutLog code) task rest).newList = s.newList := by
    rw [ListScreen.onPostExecute]
    split <;> rfl
  rw [onPostExecute_eq, ← hlogs]
  generalize s.onPostExecute (withoutLog code) task rest = u at hfirst hlist
  cases hnext : logsNext code s (.onPostExecute : Event R) with
  | false =>
      rw [hnext] at hfirst
      refine ⟨[.screen .onPostExecute], _, execFrom_single hfirst, ?_, rfl, ?_⟩
      · rw [Bool.false_and, Bool.false_or]
      · intro hlogging
        cases hlogging
  | true =>
      rw [hnext] at hfirst
      cases hclean : u.crashed with
      | true =>
          -- the adapter has met a null list before the log could
          refine ⟨[.screen .onPostExecute], _, execFrom_single hfirst, ?_, rfl, fun _ => ?_⟩
          · rw [Bool.or_true, ← hclean]
          · exact Bool.or_true _
      | false =>
          have hsecond : Threads.step code device ⟨u, a.stored ++ [], [], true⟩ .logList =
              some (Threads.logList ⟨u, a.stored ++ [], [], true⟩) := if_pos ⟨hclean, rfl⟩
          refine ⟨[.screen .onPostExecute, .logList],
            Threads.logList ⟨u, a.stored ++ [], [], true⟩, ?_, ?_, rfl, ?_⟩
          · rw [Machine.execFrom]
            show (Threads.step code device a (.screen .onPostExecute)).bind _ = _
            rw [hfirst]
            exact execFrom_single hsecond
          · rw [Threads.logList, hlist, Bool.true_and, Bool.or_false]
          · intro hlogging
            cases hlogging

/-- Every run of the screen whose handlers are one step is a run of the screen whose handlers are
taken access by access, one after another. -/
def sequential (code : ScreenCode) (device : R → String) :
    Simulation (machine code device) unguarded (threads code device) where
  rel := Resting
  rel_init := ⟨rfl, rfl, fun h => nomatch h⟩
  rel_step := by
    intro s a e t hs _ hst
    replace hst : s.step code device e = some t := hst
    have hcrashed := not_crashed_of_step hst
    have hlogging : a.logging = false := by
      cases h : a.logging with
      | false => rfl
      | true =>
          rw [hs.logging h] at hcrashed
          cases hcrashed
    by_cases hpost : e = .onPostExecute
    · subst hpost
      obtain ⟨task, rest, hended, rfl⟩ := step_onPostExecute hst
      exact resting_onPostExecute hs hcrashed hlogging hended
    · by_cases hbody : code.handlerThread = .dispatcher ∧ bodyOf e ≠ []
      · obtain ⟨hthread, hbody⟩ := hbody
        match e, hbody with
        | .respond r (.body list), _ =>
            obtain ⟨hr, rfl⟩ := step_respond hst
            exact resting_respond hthread hs hcrashed hr list
      · have hthread : code.handlerThread = .main ∨ bodyOf e = [] := by
          cases hcode : code.handlerThread with
          | main => exact Or.inl rfl
          | dispatcher => exact Or.inr (not_not.1 fun h => hbody ⟨hcode, h⟩)
        have hstep := step_resting hs hlogging hthread
          ((step_withoutLog hpost s).trans hst)
        refine ⟨[.screen e], _, execFrom_single hstep, rfl, rfl, ?_⟩
        intro hnext
        -- only `onPostExecute` ends in front of the log
        cases e with
        | onPostExecute => exact absurd rfl hpost
        | _ => cases hnext

/-- So what the screen reaches with handlers of one step it reaches with threads. -/
theorem exists_threads_run {es : List (Event R)} {s : ListScreen R}
    (h : Run (machine code device) es s) :
    ∃ fs a, Run (threads code device) fs a ∧ a.screen = s := by
  obtain ⟨fs, a, hrun, hrest⟩ := (sequential code device).exists_run h
  exact ⟨fs, a, hrun, hrest.screen⟩

end IotClient.Lists.Handlers
