import IotClient.Account.ProgressDialogs
import IotClient.Account.Services
import IotClient.Foundation.Runs

/-!
# The login screen

A tap on the login button reads both texts into the fields `wyt_account` and `wyt_pwd`, checks them,
and posts them with `LoginService`. The progress dialog is cancelable, so further taps may follow
while earlier requests are unanswered. The success callback stores what the two fields hold by then,
or clears the store, and finishes the activity; a finished activity takes no more input, but answers
and the messages of its handler still come in.

Beside the fields of the code the state records the texts that each tap read (`taps`) and the pairs
of the requests that were answered with success (`accepted`).
-/

set_option autoImplicit false

namespace IotClient.Account.LoginActivity

open IotClient.Account.ProgressDialogs
open IotClient.Account.Services
open IotClient.Foundation.Attempts
open IotClient.Foundation.Runs

/-- The login screen. -/
structure LoginScreen where
  edtAccount : String
  edtPwd : String
  keepPassword : Bool
  wytAccount : Option String
  wytPwd : Option String
  sp : SharedPreferences
  toasts : List String
  finished : Bool
  dialogs : Dialogs
  ledger : Ledger Request Outcome Reaction
  taps : List (String × String)
  accepted : List (String × String)

/-- `TextUtils.isEmpty`. -/
def isEmpty (s : Option String) : Bool := s.getD "" == ""

/-- `initView`: the remembered pair fills the fields, when both of its texts are there. -/
def initView (sp : SharedPreferences) : Except ClassCastException LoginScreen := do
  let username ← getString sp "username" none
  let password ← getString sp "password" none
  let empty := isEmpty username || isEmpty password
  return {
    edtAccount := if empty then "" else username.getD "",
    edtPwd := if empty then "" else password.getD "",
    -- the box is ticked when a pair was remembered
    keepPassword := !empty, wytAccount := none, wytPwd := none, sp := sp, toasts := [],
    finished := false, dialogs := .empty, ledger := .empty, taps := [], accepted := [] }

/-- A screen as `initView` leaves it, with the store that it was created on. -/
structure Created where
  sp : SharedPreferences
  screen : LoginScreen
  created : initView sp = .ok screen

/-- The tap on the login button. -/
def LoginScreen.onClick (s : LoginScreen) : LoginScreen :=
  let s := { s with
    wytAccount := some s.edtAccount
    wytPwd := some s.edtPwd
    taps := s.taps ++ [(s.edtAccount, s.edtPwd)] }
  match checkTexts s.edtAccount s.edtPwd with
  | some toast => { s with toasts := s.toasts ++ [toast] }
  | none => { s with
      dialogs := s.dialogs.showDialog s.ledger.attempts
      ledger := s.ledger.begin (some (loginRequest "login" s.edtAccount s.edtPwd "")) }

/-- What the callbacks do to the dialog and its handler. In `onFail` the comparison `s==s2` is one of
references with a fresh string, and takes its second branch. -/
def reaction : Option Callback → Reaction
  | none => ⟨[], [], []⟩
  | some (.onSuccess response) => ⟨[.onSuccess response], ["恭喜你登录成功"], [0]⟩
  | some (.onFail s) => ⟨[.onFail s], ["你的信息不匹配!" ++ javaText s], [1000]⟩

/-- The store after the success callback. -/
def LoginScreen.remember (s : LoginScreen) : SharedPreferences :=
  if s.keepPassword then putString (putString s.sp "username" s.wytAccount) "password" s.wytPwd
  else deleteAllShare s.sp

/-- The answer `o` to the request `req` of the attempt `r`. -/
def LoginScreen.answer (J : OrgJson) (s : LoginScreen) (r : Nat) (req : Request) (o : Outcome) :
    LoginScreen :=
  let callback := loginService J o
  let s := { s with
    ledger := s.ledger.close r o (reaction callback)
    dialogs := s.dialogs.send (reaction callback).dismissals.length }
  match callback with
  | some (.onSuccess _) => { s with
      -- the fields are those of the latest tap, not those of the request
      sp := s.remember, finished := true, accepted := s.accepted ++ req.sent.toList }
  | some (.onFail _) | none => s

/-- What happens to the screen. -/
inductive Event where
  | editAccount (text : String)
  | editPwd (text : String)
  | toggleKeepPassword
  | onClick
  | answer (r : Nat) (o : Outcome)
  | handleMessage

/-- One event. -/
def LoginScreen.step (J : OrgJson) (s : LoginScreen) : Event → Option LoginScreen
  | .editAccount text => if s.finished then none else some { s with edtAccount := text }
  | .editPwd text => if s.finished then none else some { s with edtPwd := text }
  | .toggleKeepPassword =>
      if s.finished then none else some { s with keepPassword := !s.keepPassword }
  | .onClick => if s.finished then none else some s.onClick
  | .answer r o => (s.ledger.request r).map fun req => s.answer J r req o
  | .handleMessage => s.dialogs.handleMessage.map fun dialogs => { s with dialogs := dialogs }

/-- The screen created on a store. -/
def machine (J : OrgJson) (c : Created) : Machine LoginScreen Event where
  init := c.screen
  step := LoginScreen.step J

variable {J : OrgJson}

/-- What one event does. -/
theorem step_cases {s t : LoginScreen} {e : Event} (h : s.step J e = some t) :
    (∃ text, e = .editAccount text ∧ t = { s with edtAccount := text }) ∨
    (∃ text, e = .editPwd text ∧ t = { s with edtPwd := text }) ∨
    (e = .toggleKeepPassword ∧ t = { s with keepPassword := !s.keepPassword }) ∨
    (e = .onClick ∧ t = s.onClick) ∨
    (∃ r o req, e = .answer r o ∧ s.ledger.request r = some req ∧ t = s.answer J r req o) ∨
    (∃ dialogs, e = .handleMessage ∧ s.dialogs.handleMessage = some dialogs ∧
      t = { s with dialogs := dialogs }) := by
  cases e with
  | editAccount text =>
      obtain ⟨-, h⟩ := Option.ite_none_left_eq_some.1 h
      exact Or.inl ⟨text, rfl, (Option.some.inj h).symm⟩
  | editPwd text =>
      obtain ⟨-, h⟩ := Option.ite_none_left_eq_some.1 h
      exact Or.inr (Or.inl ⟨text, rfl, (Option.some.inj h).symm⟩)
  | toggleKeepPassword =>
      obtain ⟨-, h⟩ := Option.ite_none_left_eq_some.1 h
      exact Or.inr (Or.inr (Or.inl ⟨rfl, (Option.some.inj h).symm⟩))
  | onClick =>
      obtain ⟨-, h⟩ := Option.ite_none_left_eq_some.1 h
      exact Or.inr (Or.inr (Or.inr (Or.inl ⟨rfl, (Option.some.inj h).symm⟩)))
  | answer r o =>
      obtain ⟨req, hreq, rfl⟩ := Option.map_eq_some_iff.1 h
      exact Or.inr (Or.inr (Or.inr (Or.inr (Or.inl ⟨r, o, req, rfl, hreq, rfl⟩))))
  | handleMessage =>
      obtain ⟨dialogs, hdialogs, rfl⟩ := Option.map_eq_some_iff.1 h
      exact Or.inr (Or.inr (Or.inr (Or.inr (Or.inr ⟨dialogs, rfl, hdialogs, rfl⟩))))

/-- What one event does to the attempts and their dialogs. -/
theorem step_ledger {s t : LoginScreen} {e : Event} (h : s.step J e = some t) :
    ((∀ r o, e ≠ .answer r o) ∧ e ≠ .onClick ∧ t.ledger = s.ledger ∧
      (t.dialogs = s.dialogs ∨ s.dialogs.handleMessage = some t.dialogs)) ∨
    (e = .onClick ∧ t = s.onClick) ∨
    (∃ r o req, e = .answer r o ∧ s.ledger.request r = some req ∧ t = s.answer J r req o) := by
  obtain ⟨text, rfl, rfl⟩ | ⟨text, rfl, rfl⟩ | ⟨rfl, rfl⟩ | ⟨rfl, rfl⟩ |
    ⟨r, o, req, rfl, hreq, rfl⟩ | ⟨dialogs, rfl, hdialogs, rfl⟩ := step_cases h
  · exact Or.inl ⟨by simp, by simp, rfl, Or.inl rfl⟩
  · exact Or.inl ⟨by simp, by simp, rfl, Or.inl rfl⟩
  · exact Or.inl ⟨by simp, by simp, rfl, Or.inl rfl⟩
  · exact Or.inr (Or.inl ⟨rfl, rfl⟩)
  · exact Or.inr (Or.inr ⟨r, o, req, rfl, hreq, rfl⟩)
  · exact Or.inl ⟨by simp, by simp, rfl, Or.inr hdialogs⟩

/-! ## The screen after `initView` -/

/-- `initView` reads the store and leaves everything else as it is created. -/
theorem Created.fields (c : Created) :
    c.screen.sp = c.sp ∧ c.screen.ledger = Ledger.empty ∧ c.screen.taps = [] ∧
      c.screen.wytAccount = none ∧ c.screen.wytPwd = none ∧ c.screen.accepted = [] ∧
      c.screen.dialogs = .empty := by
  obtain ⟨sp, screen, created⟩ := c
  rw [initView] at created
  cases huser : getString sp "username" none with
  | error e => simp [huser, bind, Except.bind] at created
  | ok username =>
      cases hpass : getString sp "password" none with
      | error e => simp [huser, hpass, bind, Except.bind] at created
      | ok password =>
          simp only [huser, hpass, bind, Except.bind, pure, Except.pure, Except.ok.injEq] at created
          subst created
          exact ⟨rfl, rfl, rfl, rfl, rfl, rfl, rfl⟩

/-! ## What an answer changes -/

theorem answer_ledger (s : LoginScreen) (r : Nat) (req : Request) (o : Outcome) :
    (s.answer J r req o).ledger = s.ledger.close r o (reaction (loginService J o)) := by
  rw [LoginScreen.answer]
  cases loginService J o with
  | none => rfl
  | some callback => cases callback <;> rfl

theorem answer_dialogs (s : LoginScreen) (r : Nat) (req : Request) (o : Outcome) :
    (s.answer J r req o).dialogs =
      s.dialogs.send (reaction (loginService J o)).dismissals.length := by
  rw [LoginScreen.answer]
  cases loginService J o with
  | none => rfl
  | some callback => cases callback <;> rfl

/-- An answer with the success callback. -/
theorem answer_success {o : Outcome} {response : String}
    (h : loginService J o = some (.onSuccess response)) (s : LoginScreen) (r : Nat)
    (req : Request) :
    (s.answer J r req o).sp = s.remember ∧
      (s.answer J r req o).accepted = s.accepted ++ req.sent.toList := by
  rw [LoginScreen.answer, h]
  exact ⟨rfl, rfl⟩

/-- An answer without it leaves the store alone. -/
theorem answer_other {o : Outcome} (h : ∀ response, loginService J o ≠ some (.onSuccess response))
    (s : LoginScreen) (r : Nat) (req : Request) :
    (s.answer J r req o).sp = s.sp ∧ (s.answer J r req o).accepted = s.accepted := by
  rw [LoginScreen.answer]
  match hcallback : loginService J o with
  | none => exact ⟨rfl, rfl⟩
  | some (.onFail m) => exact ⟨rfl, rfl⟩
  | some (.onSuccess response) => exact absurd hcallback (h response)

theorem answer_fields (s : LoginScreen) (r : Nat) (req : Request) (o : Outcome) :
    (s.answer J r req o).taps = s.taps ∧ (s.answer J r req o).wytAccount = s.wytAccount ∧
      (s.answer J r req o).wytPwd = s.wytPwd := by
  rw [LoginScreen.answer]
  match loginService J o with
  | none => exact ⟨rfl, rfl, rfl⟩
  | some (.onFail m) => exact ⟨rfl, rfl, rfl⟩
  | some (.onSuccess response) => exact ⟨rfl, rfl, rfl⟩

/-- A tap changes neither the store nor what was accepted. -/
theorem onClick_fields (s : LoginScreen) :
    s.onClick.sp = s.sp ∧ s.onClick.accepted = s.accepted ∧
      s.onClick.taps = s.taps ++ [(s.edtAccount, s.edtPwd)] ∧
      s.onClick.wytAccount = some s.edtAccount ∧ s.onClick.wytPwd = some s.edtPwd := by
  rw [LoginScreen.onClick]
  cases checkTexts s.edtAccount s.edtPwd <;> simp

/-- A tap begins an attempt, with the request for the texts, exactly when they pass the checks. -/
theorem onClick_ledger (s : LoginScreen) :
    s.onClick.ledger = if checkTexts s.edtAccount s.edtPwd = none then
      s.ledger.begin (some (loginRequest "login" s.edtAccount s.edtPwd "")) else s.ledger := by
  rw [LoginScreen.onClick]
  cases checkTexts s.edtAccount s.edtPwd <;> simp

/-- An attempt shows its dialog. -/
theorem onClick_dialogs (s : LoginScreen) :
    s.onClick.dialogs = if checkTexts s.edtAccount s.edtPwd = none then
      s.dialogs.showDialog s.ledger.attempts else s.dialogs := by
  rw [LoginScreen.onClick]
  cases checkTexts s.edtAccount s.edtPwd <;> simp

end IotClient.Account.LoginActivity
