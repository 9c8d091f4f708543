import IotClient.Foundation.Attempts

/-!
# Progress dialogs

The login and the registration screen keep their progress dialog in one field, which every attempt
assigns, and send `DISMISS` messages to a handler. A message names no dialog: when it is handled, the
dialog that the field holds by then is dismissed. Dialogs have the numbers of the attempts that show
them.

* `begin_showDialog_iff`: an attempt may show its dialog when no message waits.
* `close_send_iff`: an answer dismisses the dialog of its attempt when the field still holds it.
* `ownDialogs_handleMessage`: handling a message only carries out what has been scheduled.
-/

set_option autoImplicit false

namespace IotClient.Account.ProgressDialogs

open IotClient.Foundation.Attempts

/-- The field `pd`, the number of `DISMISS` messages that wait for the handler, and the dialogs that
it has dismissed, in order. -/
structure Dialogs where
  pd : Option Nat
  messages : Nat
  dismissed : List Nat
deriving DecidableEq, Repr

namespace Dialogs

/-- Before the first attempt. -/
def empty : Dialogs := ⟨none, 0, []⟩

/-- `pd = ProgressDialog.show(...)`. -/
def showDialog (d : Dialogs) (r : Nat) : Dialogs := { d with pd := some r }

/-- `handler.sendEmptyMessage(DISMISS)` and its delayed form, `n` times. -/
def send (d : Dialogs) (n : Nat) : Dialogs := { d with messages := d.messages + n }

/-- `handleMessage`: the dialog that the field holds is dismissed. -/
def handleMessage (d : Dialogs) : Option Dialogs :=
  if d.messages = 0 then none
  else some { d with messages := d.messages - 1, dismissed := d.dismissed ++ d.pd.toList }

/-- The dismissals of the dialog `r`: those carried out, and those that the waiting messages will
carry out on it as the field stands. -/
def scheduled (d : Dialogs) (r : Nat) : Nat :=
  d.dismissed.count r + if d.pd = some r then d.messages else 0

/-- The field and the log have only dialogs of the attempts below `n`. -/
structure Below (d : Dialogs) (n : Nat) : Prop where
  pd : ∀ r, d.pd = some r → r < n
  dismissed : ∀ r ∈ d.dismissed, r < n

theorem below_empty (n : Nat) : Below empty n where
  pd := by
    intro r hr
    cases hr
  dismissed := by
    intro r hr
    cases hr

theorem Below.showDialog {d : Dialogs} {n : Nat} (h : d.Below n) :
    (d.showDialog n).Below (n + 1) where
  pd := by
    intro r hr
    obtain rfl := Option.some.inj hr
    exact Nat.lt_succ_self n
  dismissed := by
    intro r hr
    exact Nat.lt_succ_of_lt (h.dismissed r hr)

theorem Below.send {d : Dialogs} {n : Nat} (h : d.Below n) (m : Nat) : (d.send m).Below n :=
  ⟨h.pd, h.dismissed⟩

theorem Below.handleMessage {d d' : Dialogs} {n : Nat} (h : d.Below n)
    (hd : d.handleMessage = some d') : d'.Below n := by
  obtain ⟨-, hd⟩ := Option.ite_none_left_eq_some.1 hd
  obtain rfl := Option.some.inj hd
  refine ⟨h.pd, ?_⟩
  intro r hr
  rcases List.mem_append.1 hr with hr | hr
  · exact h.dismissed r hr
  · exact h.pd r (Option.mem_toList.1 hr)

/-- An event that begins and answers nothing at most handles a message. -/
theorem Below.of_other {d d' : Dialogs} {n : Nat} (h : d.Below n)
    (hd : d' = d ∨ d.handleMessage = some d') : d'.Below n := by
  rcases hd with rfl | hhandled
  · exact h
  · exact h.handleMessage hhandled

end Dialogs

variable {S O K : Type}

/-- The dialog of every attempt that has been answered has exactly one dismissal, carried out or
scheduled, and that of an attempt in flight has none. -/
def OwnDialogs (d : Dialogs) (l : Ledger S O K) : Prop :=
  ∀ r < l.attempts, d.scheduled r = if r ∈ l.closed.map Prod.fst then 1 else 0

theorem ownDialogs_empty : OwnDialogs Dialogs.empty (Ledger.empty : Ledger S O K) := by
  intro r hr
  cases hr

variable {d : Dialogs} {l : Ledger S O K}

/-- A new dialog takes over the messages that wait, so there may be none. -/
theorem ownDialogs_showDialog_iff (hl : Numbered l) (hd : d.Below l.attempts) (h : OwnDialogs d l)
    (request : Option S) :
    OwnDialogs (d.showDialog l.attempts) (l.begin request) ↔ d.messages = 0 := by
  have hnew : l.attempts ∉ l.closed.map Prod.fst := by
    intro hmem
    exact Nat.lt_irrefl _ (hl.lt _ (List.mem_append_right _ hmem))
  have hcount : d.dismissed.count l.attempts = 0 :=
    List.count_eq_zero.2 fun hmem => Nat.lt_irrefl _ (hd.dismissed _ hmem)
  constructor
  · intro hown
    -- the new dialog would get the messages of the others
    have hthis := hown l.attempts (Nat.lt_succ_self _)
    rw [Dialogs.scheduled] at hthis
    show d.messages = 0
    rw [show (d.showDialog l.attempts).dismissed = d.dismissed from rfl, hcount,
      if_pos (show (d.showDialog l.attempts).pd = some l.attempts from rfl),
      if_neg (show l.attempts ∉ (l.begin request).closed.map Prod.fst from hnew)] at hthis
    exact (Nat.zero_add _).symm.trans hthis
  · intro hnone r hr
    have hboth : ∀ b : Prop, [Decidable b] → (if b then d.messages else 0) = 0 := by
      intro b _
      rw [hnone, ite_self]
    rcases Nat.lt_succ_iff_lt_or_eq.1 hr with hr | rfl
    · -- without messages the dialog that the field held loses nothing
      have hbefore := h r hr
      rw [Dialogs.scheduled, hboth] at hbefore
      rw [Dialogs.scheduled]
      exact (congrArg (d.dismissed.count r + ·) (hboth _)).trans hbefore
    · rw [Dialogs.scheduled,
        if_neg (show l.attempts ∉ (l.begin request).closed.map Prod.fst from hnew)]
      exact (congrArg (d.dismissed.count l.attempts + ·) (hboth _)).trans hcount

/-- The messages of an answer go to the dialog that the field holds, so this has to be that of the
attempt. -/
theorem ownDialogs_send_iff (hl : Numbered l) (h : OwnDialogs d l) {r : Nat} {s : S}
    (hr : l.request r = some s) (o : O) (k : K) (n : Nat) :
    OwnDialogs (d.send n) (l.close r o k) ↔ d.pd = some r ∧ n = 1 := by
  have hflight : r ∈ l.inFlight.map Prod.fst := List.mem_map_of_mem (mem_of_request hr)
  have hlt : r < l.attempts := hl.lt r (List.mem_append_left _ hflight)
  have hopen : r ∉ l.closed.map Prod.fst := fun hclosed => hl.not_mem_inFlight hclosed hflight
  have hsend : ∀ q, (d.send n).scheduled q = d.scheduled q + if d.pd = some q then n else 0 := by
    intro q
    rw [Dialogs.scheduled, Dialogs.scheduled, Nat.add_assoc]
    show _ + (if d.pd = some q then d.messages + n else 0) = _
    split_ifs <;> rfl
  have hzero : d.scheduled r = 0 := by
    rw [h r hlt, if_neg hopen]
  have hclosed : ∀ q,
      q ∈ (l.close r o k).closed.map Prod.fst ↔ q ∈ l.closed.map Prod.fst ∨ q = r := by
    intro q
    rw [closed_close, List.mem_append, List.mem_singleton]
  constructor
  · -- with the answer the dialog of the attempt has exactly one dismissal
    intro hown
    have hthis := hown r hlt
    rw [hsend, hzero, if_pos ((hclosed r).2 (Or.inr rfl)), Nat.zero_add] at hthis
    by_cases hpd : d.pd = some r
    · rw [if_pos hpd] at hthis
      exact ⟨hpd, hthis⟩
    · rw [if_neg hpd] at hthis
      cases hthis
  · rintro ⟨hpd, rfl⟩ q hq
    rw [hsend]
    by_cases hqr : q = r
    · rw [hqr, hzero, if_pos hpd, if_pos ((hclosed r).2 (Or.inr rfl))]
    · -- the other dialogs are not touched
      have hother : d.pd ≠ some q := by
        rw [hpd]
        exact fun heq => hqr (Option.some.inj heq).symm
      rw [if_neg hother, Nat.add_zero, h q hq]
      simp only [hclosed, hqr, or_false]

/-- A message that is handled turns a scheduled dismissal into one carried out. -/
theorem scheduled_handleMessage {d' : Dialogs} (hd : d.handleMessage = some d') (r : Nat) :
    d'.scheduled r = d.scheduled r := by
  obtain ⟨hpos, hd⟩ := Option.ite_none_left_eq_some.1 hd
  obtain rfl := Option.some.inj hd
  rw [Dialogs.scheduled, Dialogs.scheduled]
  show (d.dismissed ++ d.pd.toList).count r + (if d.pd = some r then d.messages - 1 else 0) = _
  rw [List.count_append]
  by_cases hpd : d.pd = some r
  · -- one message less waits, and one dismissal more is done
    rw [if_pos hpd, if_pos hpd, hpd, Option.toList_some, List.count_singleton_self]
    omega
  · rw [if_neg hpd, if_neg hpd, List.count_eq_zero.2 fun hmem => hpd (Option.mem_toList.1 hmem)]

theorem ownDialogs_handleMessage {d' : Dialogs} (h : OwnDialogs d l)
    (hd : d.handleMessage = some d') : OwnDialogs d' l := by
  intro r hr
  rw [scheduled_handleMessage hd, h r hr]

theorem OwnDialogs.of_other {d' : Dialogs} (h : OwnDialogs d l)
    (hd : d' = d ∨ d.handleMessage = some d') : OwnDialogs d' l := by
  rcases hd with rfl | hhandled
  · exact h
  · exact ownDialogs_handleMessage h hhandled

/-! ## Attempts with their dialogs -/

variable {P : O → K → Prop}

/-- A new attempt keeps the ledger sound and the dialogs apart exactly when it issues a request and
no message waits. -/
theorem begin_showDialog_iff (hl : Numbered l) (hd : d.Below l.attempts) (hs : Sound P l)
    (h : OwnDialogs d l) (request : Option S) :
    Sound P (l.begin request) ∧ OwnDialogs (d.showDialog l.attempts) (l.begin request) ↔
      request.isSome = true ∧ d.messages = 0 :=
  and_congr (sound_begin_iff hl hs request) (ownDialogs_showDialog_iff hl hd h request)

/-- A closing does so exactly when it does what its outcome asks for and sends one message while the
field holds the dialog of the attempt. -/
theorem close_send_iff (hl : Numbered l) (hs : Sound P l) (h : OwnDialogs d l) {r : Nat} {s : S}
    (hr : l.request r = some s) (o : O) (k : K) (n : Nat) :
    Sound P (l.close r o k) ∧ OwnDialogs (d.send n) (l.close r o k) ↔
      P o k ∧ d.pd = some r ∧ n = 1 :=
  and_congr (sound_close_iff hl hs hr o k) (ownDialogs_send_iff hl h hr o k n)

end IotClient.Account.ProgressDialogs
