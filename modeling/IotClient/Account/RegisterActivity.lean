import IotClient.Account.ProgressDialogs
import IotClient.Account.Services
import IotClient.Foundation.Runs

/-!
# The registration screen

A tap on the register button checks the two texts, shows the progress dialog, and posts the form with
`RegisterAction` only when a picture has been chosen; nothing is done without one. Both callbacks put
a message on the dialog and send `DISMISS` to the handler after a second, and the handler dismisses
the dialog and finishes the activity. The type of pictures and their text form are parameters.
-/

set_option autoImplicit false

namespace IotClient.Account.RegisterActivity

open IotClient.Account.ProgressDialogs
open IotClient.Account.Services
open IotClient.Foundation.Attempts
open IotClient.Foundation.Runs

variable {B : Type}

/-- The registration screen. -/
structure RegisterScreen (B : Type) where
  edtRegisterAccount : String
  edtPwd : String
  bitmap : Option B
  toasts : List String
  finished : Bool
  dialogs : Dialogs
  ledger : Ledger Request Outcome Reaction

/-- The tap on the register button. -/
def RegisterScreen.onClick (bitmaptoString : B → String) (s : RegisterScreen B) :
    RegisterScreen B :=
  match checkTexts s.edtRegisterAccount s.edtPwd with
  | some toast => { s with toasts := s.toasts ++ [toast] }
  | none => { s with
      dialogs := s.dialogs.showDialog s.ledger.attempts
      ledger := s.ledger.begin (s.bitmap.map fun bitmap =>
        registerRequest "register" s.edtRegisterAccount s.edtPwd (bitmaptoString bitmap)) }

/-- What the callbacks do to the dialog and its handler. -/
def reaction : Option Callback → Reaction
  | none => ⟨[], [], []⟩
  | some (.onSuccess response) => ⟨[.onSuccess response], ["注册成功"], [1000]⟩
  | some (.onFail failMsg) => ⟨[.onFail failMsg], ["注册失败" ++ javaText failMsg], [1000]⟩

/-- The answer `o` to the request of the attempt `r`. -/
def RegisterScreen.answer (J : OrgJson) (s : RegisterScreen B) (r : Nat) (o : Outcome) :
    RegisterScreen B :=
  let k := reaction (registerAction J o)
  { s with ledger := s.ledger.close r o k, dialogs := s.dialogs.send k.dismissals.length }

/-- What happens to the screen. -/
inductive Event (B : Type) where
  | editAccount (text : String)
  | editPwd (text : String)
  | onActivityResult (bitmap : B)
  | onClick
  | answer (r : Nat) (o : Outcome)
  | handleMessage

/-- One event. -/
def RegisterScreen.step (J : OrgJson) (bitmaptoString : B → String) (s : RegisterScreen B) :
    Event B → Option (RegisterScreen B)
  | .editAccount text => if s.finished then none else some { s with edtRegisterAccount := text }
  | .editPwd text => if s.finished then none else some { s with edtPwd := text }
  | .onActivityResult bitmap => if s.finished then none else some { s with bitmap := some bitmap }
  | .onClick => if s.finished then none else some (s.onClick bitmaptoString)
  | .answer r o => (s.ledger.request r).map fun _ => s.answer J r o
  | .handleMessage =>
      s.dialogs.handleMessage.map fun dialogs => { s with dialogs := dialogs, finished := true }

/-- The screen when it is created. -/
def machine (J : OrgJson) (bitmaptoString : B → String) : Machine (RegisterScreen B) (Event B) where
  init := ⟨"", "", none, [], false, .empty, .empty⟩
  step := RegisterScreen.step J bitmaptoString

variable {J : OrgJson} {bitmaptoString : B → String}

/-- What one event does to the attempts and their dialogs. -/
theorem step_ledger {s t : RegisterScreen B} {e : Event B}
    (h : s.step J bitmaptoString e = some t) :
    ((∀ r o, e ≠ .answer r o) ∧ e ≠ .onClick ∧ t.ledger = s.ledger ∧
      (t.dialogs = s.dialogs ∨ s.dialogs.handleMessage = some t.dialogs)) ∨
    (e = .onClick ∧ t = s.onClick bitmaptoString) ∨
    (∃ r o req, e = .answer r o ∧ s.ledger.request r = some req ∧ t = s.answer J r o) := by
  cases e with
  | editAccount text =>
      obtain ⟨-, h⟩ := Option.ite_none_left_eq_some.1 h
      obtain rfl := Option.some.inj h
      exact Or.inl ⟨by simp, by simp, rfl, Or.inl rfl⟩
  | editPwd text =>
      obtain ⟨-, h⟩ := Option.ite_none_left_eq_some.1 h
      obtain rfl := Option.some.inj h
      exact Or.inl ⟨by simp, by simp, rfl, Or.inl rfl⟩
  | onActivityResult bitmap =>
      obtain ⟨-, h⟩ := Option.ite_none_left_eq_some.1 h
      obtain rfl := Option.some.inj h
      exact Or.inl ⟨by simp, by simp, rfl, Or.inl rfl⟩
  | handleMessage =>
      obtain ⟨dialogs, hdialogs, rfl⟩ := Option.map_eq_some_iff.1 h
      exact Or.inl ⟨by simp, by simp, rfl, Or.inr hdialogs⟩
  | onClick =>
      obtain ⟨-, h⟩ := Option.ite_none_left_eq_some.1 h
      exact Or.inr (Or.inl ⟨rfl, (Option.some.inj h).symm⟩)
  | answer r o =>
      obtain ⟨req, hreq, rfl⟩ := Option.map_eq_some_iff.1 h
      exact Or.inr (Or.inr ⟨r, o, req, rfl, hreq, rfl⟩)

theorem answer_ledger (s : RegisterScreen B) (r : Nat) (o : Outcome) :
    (s.answer J r o).ledger = s.ledger.close r o (reaction (registerAction J o)) := rfl

theorem answer_dialogs (s : RegisterScreen B) (r : Nat) (o : Outcome) :
    (s.answer J r o).dialogs =
      s.dialogs.send (reaction (registerAction J o)).dismissals.length := rfl

/-- A tap begins an attempt exactly when the texts pass the checks, and the attempt issues a request
exactly when a picture has been chosen. -/
theorem onClick_ledger (s : RegisterScreen B) :
    (s.onClick bitmaptoString).ledger =
      if checkTexts s.edtRegisterAccount s.edtPwd = none then
        s.ledger.begin (s.bitmap.map fun bitmap =>
          registerRequest "register" s.edtRegisterAccount s.edtPwd (bitmaptoString bitmap))
      else s.ledger := by
  rw [RegisterScreen.onClick]
  cases checkTexts s.edtRegisterAccount s.edtPwd <;> simp

/-- An attempt shows its dialog, with or without a picture. -/
theorem onClick_dialogs (s : RegisterScreen B) :
    (s.onClick bitmaptoString).dialogs =
      if checkTexts s.edtRegisterAccount s.edtPwd = none then
        s.dialogs.showDialog s.ledger.attempts else s.dialogs := by
  rw [RegisterScreen.onClick]
  cases checkTexts s.edtRegisterAccount s.edtPwd <;> simp

end IotClient.Account.RegisterActivity
