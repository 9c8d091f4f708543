import IotClient.Foundation.Runs

/-!
# A mailbox with queued and direct posts

One consumer handles one message at a time. A queued post waits its turn; a direct post is handed
to the consumer at once and is possible only when the consumer is idle. The mailbox keeps the log
of all posts and the log of all deliveries.

`Accounted` compares the two logs: among the queued posts, and among the direct posts, the messages
delivered, then in hand, then waiting are exactly the messages posted, in post order. It holds in
every state of every run (`accounted_of_run`), so no message is lost, duplicated or reordered
within its kind (`perm_of_accounted`).
-/

set_option autoImplicit false

namespace IotClient.Foundation.Mailbox

open IotClient.Foundation.Runs

universe u

/-- A posted message, with the way it was posted. -/
structure Entry (μ : Type u) where
  direct : Bool
  msg : μ
deriving DecidableEq

/-- The messages waiting and in hand, and the logs of deliveries and posts. -/
structure Box (μ : Type u) where
  queue : List (Entry μ)
  inHand : Option (Entry μ)
  delivered : List (Entry μ)
  posted : List (Entry μ)
deriving DecidableEq

/-- What may happen to a mailbox. -/
inductive Action (μ : Type u) where
  | post (m : μ)
  | postDirect (m : μ)
  | take
  | done

variable {μ : Type u}

/-- The mailbox with nothing posted. -/
def Box.empty : Box μ := ⟨[], none, [], []⟩

/-- One action on a mailbox. -/
def Box.step (b : Box μ) : Action μ → Option (Box μ)
  | .post m =>
      some { b with queue := b.queue ++ [⟨false, m⟩], posted := b.posted ++ [⟨false, m⟩] }
  | .postDirect m =>
      match b.inHand with
      | none => some { b with inHand := some ⟨true, m⟩, posted := b.posted ++ [⟨true, m⟩] }
      | some _ => none
  | .take =>
      match b.inHand, b.queue with
      | none, x :: rest => some { b with queue := rest, inHand := some x }
      | _, _ => none
  | .done =>
      match b.inHand with
      | some x => some { b with inHand := none, delivered := b.delivered ++ [x] }
      | none => none

/-- The mailbox as an event machine. -/
def machine (μ : Type u) : Machine (Box μ) (Action μ) where
  init := .empty
  step := Box.step

/-- What one action does to a mailbox. -/
theorem step_cases {b c : Box μ} {a : Action μ} (h : b.step a = some c) :
    (∃ m, a = .post m ∧
      c = { b with queue := b.queue ++ [⟨false, m⟩], posted := b.posted ++ [⟨false, m⟩] }) ∨
    (∃ m, a = .postDirect m ∧ b.inHand = none ∧
      c = { b with inHand := some ⟨true, m⟩, posted := b.posted ++ [⟨true, m⟩] }) ∨
    (∃ x rest, a = .take ∧ b.inHand = none ∧ b.queue = x :: rest ∧
      c = { b with queue := rest, inHand := some x }) ∨
    (∃ x, a = .done ∧ b.inHand = some x ∧
      c = { b with inHand := none, delivered := b.delivered ++ [x] }) := by
  rcases b with ⟨queue, inHand, delivered, posted⟩
  cases a with
  | post m => exact Or.inl ⟨m, rfl, (Option.some.inj h).symm⟩
  | postDirect m =>
      cases inHand with
      | none => exact Or.inr (Or.inl ⟨m, rfl, rfl, (Option.some.inj h).symm⟩)
      | some x => simp [Box.step] at h
  | take =>
      cases inHand with
      | some x => simp [Box.step] at h
      | none =>
          cases queue with
          | nil => simp [Box.step] at h
          | cons x rest =>
              exact Or.inr (Or.inr (Or.inl ⟨x, rest, rfl, rfl, rfl, (Option.some.inj h).symm⟩))
  | done =>
      cases inHand with
      | none => simp [Box.step] at h
      | some x => exact Or.inr (Or.inr (Or.inr ⟨x, rfl, rfl, (Option.some.inj h).symm⟩))

/-- The messages delivered, in hand and waiting, in this order. -/
def Box.flow (b : Box μ) : List (Entry μ) := b.delivered ++ b.inHand.toList ++ b.queue

/-- The posts of one kind. -/
def kind (d : Bool) (xs : List (Entry μ)) : List (Entry μ) := xs.filter fun x => x.direct == d

@[simp]
theorem kind_append (d : Bool) (xs ys : List (Entry μ)) :
    kind d (xs ++ ys) = kind d xs ++ kind d ys :=
  List.filter_append ..

/-- Only queued posts wait, and within each kind the flow is the log of posts. -/
structure Accounted (b : Box μ) : Prop where
  queued : ∀ x ∈ b.queue, x.direct = false
  flow : ∀ d, kind d b.posted = kind d b.flow

theorem accounted_empty : Accounted (Box.empty : Box μ) where
  queued := by simp [Box.empty]
  flow := fun _ => rfl

theorem kind_true_queue {b : Box μ} (h : Accounted b) : kind true b.queue = [] := by
  rw [kind, List.filter_eq_nil_iff]
  intro x hx
  simp [h.queued x hx]

theorem accounted_step {b c : Box μ} {a : Action μ} (hb : Accounted b)
    (h : b.step a = some c) : Accounted c := by
  obtain ⟨m, rfl, rfl⟩ | ⟨m, rfl, hnone, rfl⟩ | ⟨x, rest, rfl, hnone, hq, rfl⟩ | ⟨x, rfl, hx, rfl⟩ :=
    step_cases h
  · refine ⟨?_, fun d => ?_⟩
    · intro x hx
      rcases List.mem_append.1 hx with hx | hx
      · exact hb.queued x hx
      · simp [List.mem_singleton.1 hx]
    · have hflow := hb.flow d
      simp only [Box.flow, kind_append] at hflow ⊢
      simp [hflow]
  · -- a direct entry overtakes those in the queue, which are all of the other kind
    refine ⟨hb.queued, fun d => ?_⟩
    have hflow := hb.flow d
    simp only [Box.flow, hnone, Option.toList_none, List.append_nil, kind_append] at hflow
    simp only [Box.flow, Option.toList_some, kind_append, hflow]
    cases d with
    | false => simp [kind]
    | true => simp [kind_true_queue hb]
  · refine ⟨fun y hy => hb.queued y (by simp [hq, hy]), fun d => ?_⟩
    rw [hb.flow d]
    simp [Box.flow, hnone, hq]
  · refine ⟨hb.queued, fun d => ?_⟩
    rw [hb.flow d]
    simp [Box.flow, hx]

/-- In every state of every run the deliveries account for the posts. -/
theorem accounted_of_run {G : Guard (Box μ) (Action μ)} {as : List (Action μ)} {b : Box μ}
    (h : RunUnder (machine μ) G as b) : Accounted b :=
  h.invariant accounted_empty fun _ _ _ hI _ hst => accounted_step hI hst

/-- No post is lost and none is delivered twice. -/
theorem perm_of_accounted {b : Box μ} (h : Accounted b) : b.posted.Perm b.flow := by
  have split : ∀ xs : List (Entry μ), xs.Perm (kind true xs ++ kind false xs) := fun xs => by
    have hp := (List.filter_append_perm (fun x : Entry μ => x.direct) xs).symm
    simpa [kind] using hp
  calc
    b.posted.Perm (kind true b.posted ++ kind false b.posted) := split _
    _ = kind true b.flow ++ kind false b.flow := by rw [h.flow, h.flow]
    List.Perm _ b.flow := (split _).symm

end IotClient.Foundation.Mailbox
