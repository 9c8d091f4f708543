import IotClient.Account.LoginActivity
import IotClient.Account.RegisterActivity

/-!
# Attempts that are answered

An attempt that passes the checks should issue a request, every outcome of the exchange should call
exactly one callback, the success callback for a status of 1, and send one `DISMISS` message
(`AnsweredOnce`), and this should dismiss the dialog of the attempt (`OwnDialogs`). The services call
nothing for a body that they cannot read or whose status is neither 0 nor 1, `RegisterAction` besides
asks for an integer error code, the registration screen issues no request without a picture, and the
message of an attempt dismisses the dialog of a later one that has begun meanwhile. `answered_iff`
states that these are all the exceptions: a run of either screen answers every attempt exactly when
its steps avoid them.
-/

set_option autoImplicit false

namespace IotClient.Account.Answered

open IotClient.Account.LoginActivity (LoginScreen Created)
open IotClient.Account.ProgressDialogs
open IotClient.Account.RegisterActivity (RegisterScreen)
open IotClient.Account.Services
open IotClient.Foundation.Attempts
open IotClient.Foundation.Runs

variable {J : OrgJson}

/-- The status of a body that the services call a callback for. -/
def KnownStatus (J : OrgJson) (body : String) : Prop :=
  J.status body = some 0 ∨ J.status body = some 1

/-- An outcome that `LoginService` calls a callback for: a transport error, or a JSON object with
the status 0 or 1. -/
def LoginReadable (J : OrgJson) : Outcome → Prop
  | .error _ => True
  | .response body => KnownStatus J body

/-- An outcome that `RegisterAction` calls a callback for: the error code has to read as an integer
besides. -/
def RegisterReadable (J : OrgJson) : Outcome → Prop
  | .error _ => True
  | .response body => KnownStatus J body ∧ (J.errCode body).isSome = true

/-! ## The callbacks of the services -/

theorem callbackOn_isSome (status : Int) (body : String) :
    (callbackOn status body).isSome = true ↔ status = 0 ∨ status = 1 := by
  rw [callbackOn]
  by_cases hone : status = 1
  · simp [hone]
  · by_cases hzero : status = 0
    · simp [hzero]
    · -- any other status calls nothing
      simp [hone, hzero]

theorem callbackOn_isSuccess {status : Int} {body : String} {c : Callback}
    (h : callbackOn status body = some c) : c.isSuccess = true ↔ status = 1 := by
  rw [callbackOn] at h
  by_cases hone : status = 1
  · rw [if_pos hone] at h
    obtain rfl := Option.some.inj h
    exact ⟨fun _ => hone, fun _ => rfl⟩
  · rw [if_neg hone] at h
    obtain ⟨-, h⟩ := Option.ite_none_right_eq_some.1 h
    obtain rfl := Option.some.inj h
    exact ⟨fun h => absurd h Bool.false_ne_true, fun h => absurd h hone⟩

theorem loginService_isSome (o : Outcome) :
    (loginService J o).isSome = true ↔ LoginReadable J o := by
  cases o with
  | error message => simp [loginService, LoginReadable]
  | response body =>
      rw [loginService, LoginReadable, KnownStatus]
      cases J.status body with
      | none => simp
      | some status => simp [callbackOn_isSome]

theorem registerAction_isSome (o : Outcome) :
    (registerAction J o).isSome = true ↔ RegisterReadable J o := by
  cases o with
  | error message => simp [registerAction, RegisterReadable]
  | response body =>
      rw [registerAction, RegisterReadable, KnownStatus]
      cases J.status body with
      | none => simp
      | some status =>
          cases J.errCode body with
          | none => simp
          | some errCode => simp [callbackOn_isSome]

/-- The callback that is called is the right one. -/
theorem isSuccess_iff {o : Outcome} {c : Callback}
    (h : loginService J o = some c ∨ registerAction J o = some c) :
    c.isSuccess = true ↔ J.statusOf o = some 1 := by
  cases o with
  | error message =>
      obtain rfl : .onFail message = c := by
        simpa [loginService, registerAction] using h
      simp [Callback.isSuccess, OrgJson.statusOf]
  | response body =>
      -- both services call on the status that the body reads as
      have hstatus : ∃ status, J.status body = some status ∧ callbackOn status body = some c := by
        rcases h with h | h
        · exact Option.bind_eq_some_iff.1 h
        · obtain ⟨status, hstatus, h⟩ := Option.bind_eq_some_iff.1 h
          obtain ⟨errCode, -, h⟩ := Option.bind_eq_some_iff.1 h
          exact ⟨status, hstatus, h⟩
      obtain ⟨status, hstatus, hcallback⟩ := hstatus
      rw [callbackOn_isSuccess hcallback, OrgJson.statusOf, hstatus, Option.some.injEq]

/-- A reaction with a single dismissal for each callback answers once exactly when a callback is
called. -/
theorem answeredOnce_iff {o : Outcome} {callback : Option Callback} {k : Reaction}
    (hservice : loginService J o = callback ∨ registerAction J o = callback)
    (hcallbacks : k.callbacks = callback.toList)
    (hdismissals : k.dismissals.length = callback.toList.length) :
    AnsweredOnce J o k ↔ callback.isSome = true := by
  cases callback with
  | none =>
      constructor
      · rintro ⟨⟨c, hc, -⟩, -⟩
        rw [hcallbacks] at hc
        cases hc
      · intro h
        cases h
  | some c =>
      refine ⟨fun _ => rfl, fun _ => ⟨⟨c, hcallbacks, isSuccess_iff hservice⟩, hdismissals⟩⟩

theorem login_answeredOnce_iff (o : Outcome) :
    AnsweredOnce J o (LoginActivity.reaction (loginService J o)) ↔ LoginReadable J o := by
  rw [← loginService_isSome]
  apply answeredOnce_iff (Or.inl rfl)
  · match loginService J o with
    | none => rfl
    | some (.onSuccess response) => rfl
    | some (.onFail s) => rfl
  · match loginService J o with
    | none => rfl
    | some (.onSuccess response) => rfl
    | some (.onFail s) => rfl

theorem register_answeredOnce_iff (o : Outcome) :
    AnsweredOnce J o (RegisterActivity.reaction (registerAction J o)) ↔ RegisterReadable J o := by
  rw [← registerAction_isSome]
  apply answeredOnce_iff (Or.inr rfl)
  · match registerAction J o with
    | none => rfl
    | some (.onSuccess response) => rfl
    | some (.onFail s) => rfl
  · match registerAction J o with
    | none => rfl
    | some (.onSuccess response) => rfl
    | some (.onFail s) => rfl

/-! ## The login screen -/

/-- The outcomes of the login screen are readable, an attempt is answered while its dialog is the
latest one, and an attempt begins when no message of an earlier one waits. -/
structure LoginReads (J : OrgJson) (s : LoginScreen) (e : LoginActivity.Event) : Prop where
  handled : e = .onClick → checkTexts s.edtAccount s.edtPwd = none → s.dialogs.messages = 0
  latest : ∀ r o, e = .answer r o → s.dialogs.pd = some r
  readable : ∀ r o, e = .answer r o → LoginReadable J o

/-- Only taps and answers are asked for anything. -/
theorem LoginReads.of_other {s : LoginScreen} {e : LoginActivity.Event} (hclick : e ≠ .onClick)
    (hanswer : ∀ r o, e ≠ .answer r o) : LoginReads J s e where
  handled := fun h => absurd h hclick
  latest := fun r o h => absurd h (hanswer r o)
  readable := fun r o h => absurd h (hanswer r o)

/-- Every login attempt is in flight or answered once, and its answer dismisses its dialog. -/
structure LoginAnswered (J : OrgJson) (s : LoginScreen) : Prop where
  sound : Sound (AnsweredOnce J) s.ledger
  dialogs : OwnDialogs s.dialogs s.ledger

/-- The attempts of the login screen are numbered, and its dialogs are those of attempts. -/
structure LoginNumbered (s : LoginScreen) : Prop where
  ledger : Numbered s.ledger
  dialogs : s.dialogs.Below s.ledger.attempts

theorem login_numbered_of_run {c : Created} {es : List LoginActivity.Event} {s : LoginScreen}
    (h : Run (LoginActivity.machine J c) es s) : LoginNumbered s := by
  apply h.invariant
  · obtain ⟨-, hledger, -, -, -, -, hdialogs⟩ := c.fields
    refine ⟨?_, ?_⟩
    · rw [LoginActivity.machine, hledger]
      exact numbered_empty
    · rw [LoginActivity.machine, hdialogs]
      exact Dialogs.below_empty _
  · intro s e t hs _ hst
    obtain ⟨-, -, hledger, hdialogs⟩ | ⟨-, rfl⟩ | ⟨r, o, req, -, hreq, rfl⟩ :=
      LoginActivity.step_ledger hst
    · refine ⟨?_, ?_⟩
      · rw [hledger]
        exact hs.ledger
      · rw [hledger]
        exact hs.dialogs.of_other hdialogs
    · by_cases hcheck : checkTexts s.edtAccount s.edtPwd = none
      · refine ⟨?_, ?_⟩
        · rw [LoginActivity.onClick_ledger, if_pos hcheck]
          exact numbered_begin hs.ledger _
        · rw [LoginActivity.onClick_ledger, LoginActivity.onClick_dialogs, if_pos hcheck,
            if_pos hcheck]
          exact hs.dialogs.showDialog
      · refine ⟨?_, ?_⟩
        · rw [LoginActivity.onClick_ledger, if_neg hcheck]
          exact hs.ledger
        · rw [LoginActivity.onClick_ledger, LoginActivity.onClick_dialogs, if_neg hcheck,
            if_neg hcheck]
          exact hs.dialogs
    · refine ⟨?_, ?_⟩
      · rw [LoginActivity.answer_ledger]
        exact numbered_close hs.ledger hreq o _
      · rw [LoginActivity.answer_ledger, LoginActivity.answer_dialogs]
        exact hs.dialogs.send _

theorem loginAnswered_iff {s : LoginScreen} :
    LoginAnswered J s ↔ Sound (AnsweredOnce J) s.ledger ∧ OwnDialogs s.dialogs s.ledger := by
  constructor
  · intro h
    exact ⟨h.sound, h.dialogs⟩
  · rintro ⟨hsound, hdialogs⟩
    exact ⟨hsound, hdialogs⟩

theorem login_step_iff {s t : LoginScreen} {e : LoginActivity.Event} (hn : LoginNumbered s)
    (hs : LoginAnswered J s) (hst : s.step J e = some t) : LoginReads J s e ↔ LoginAnswered J t := by
  obtain ⟨hanswer, hclick, hledger, hdialogs⟩ | ⟨rfl, rfl⟩ | ⟨r, o, req, rfl, hreq, rfl⟩ :=
    LoginActivity.step_ledger hst
  · refine ⟨fun _ => ?_, fun _ => .of_other hclick hanswer⟩
    rw [loginAnswered_iff, hledger]
    exact ⟨hs.sound, hs.dialogs.of_other hdialogs⟩
  · rw [loginAnswered_iff, LoginActivity.onClick_ledger, LoginActivity.onClick_dialogs]
    by_cases hcheck : checkTexts s.edtAccount s.edtPwd = none
    · rw [if_pos hcheck, if_pos hcheck,
        begin_showDialog_iff hn.ledger hn.dialogs hs.sound hs.dialogs]
      constructor
      · -- a login attempt always issues its request
        intro hreads
        exact ⟨rfl, hreads.handled rfl hcheck⟩
      · rintro ⟨-, hmessages⟩
        exact ⟨fun _ _ => hmessages, fun r o h => (nomatch h), fun r o h => (nomatch h)⟩
    · -- texts that fail the checks begin no attempt
      rw [if_neg hcheck, if_neg hcheck]
      exact ⟨fun _ => ⟨hs.sound, hs.dialogs⟩, fun _ => ⟨fun _ h => absurd h hcheck,
        fun r o h => (nomatch h), fun r o h => (nomatch h)⟩⟩
  · -- a closing is sound exactly when the service calls a callback for the outcome
    rw [loginAnswered_iff, LoginActivity.answer_ledger, LoginActivity.answer_dialogs,
      close_send_iff hn.ledger hs.sound hs.dialogs hreq, login_answeredOnce_iff]
    constructor
    · intro hreads
      have hreadable := hreads.readable r o rfl
      exact ⟨hreadable, hreads.latest r o rfl, ((login_answeredOnce_iff o).2 hreadable).2⟩
    · rintro ⟨hreadable, hlatest, -⟩
      refine ⟨fun h => (nomatch h), ?_, ?_⟩
      · intro r' o' h
        cases h
        exact hlatest
      · intro r' o' h
        cases h
        exact hreadable

/-! ## The registration screen -/

variable {B : Type} {bitmaptoString : B → String}

/-- What the login screen asks for, and a picture has been chosen for a registration that passes the
checks. -/
structure RegisterReads (J : OrgJson) (s : RegisterScreen B) (e : RegisterActivity.Event B) :
    Prop where
  picture : e = .onClick → checkTexts s.edtRegisterAccount s.edtPwd = none → s.bitmap.isSome = true
  handled : e = .onClick → checkTexts s.edtRegisterAccount s.edtPwd = none →
    s.dialogs.messages = 0
  latest : ∀ r o, e = .answer r o → s.dialogs.pd = some r
  readable : ∀ r o, e = .answer r o → RegisterReadable J o

/-- Every registration attempt is in flight or answered once, and its answer dismisses its dialog. -/
structure RegisterAnswered (J : OrgJson) (s : RegisterScreen B) : Prop where
  sound : Sound (AnsweredOnce J) s.ledger
  dialogs : OwnDialogs s.dialogs s.ledger

/-- The attempts of the registration screen are numbered, and its dialogs are those of attempts. -/
structure RegisterNumbered (s : RegisterScreen B) : Prop where
  ledger : Numbered s.ledger
  dialogs : s.dialogs.Below s.ledger.attempts

theorem register_numbered_of_run {es : List (RegisterActivity.Event B)} {s : RegisterScreen B}
    (h : Run (RegisterActivity.machine J bitmaptoString) es s) : RegisterNumbered s := by
  apply h.invariant
  · exact ⟨numbered_empty, Dialogs.below_empty _⟩
  · intro s e t hs _ hst
    obtain ⟨-, -, hledger, hdialogs⟩ | ⟨-, rfl⟩ | ⟨r, o, req, -, hreq, rfl⟩ :=
      RegisterActivity.step_ledger hst
    · refine ⟨?_, ?_⟩
      · rw [hledger]
        exact hs.ledger
      · rw [hledger]
        exact hs.dialogs.of_other hdialogs
    · by_cases hcheck : checkTexts s.edtRegisterAccount s.edtPwd = none
      · refine ⟨?_, ?_⟩
        · rw [RegisterActivity.onClick_ledger, if_pos hcheck]
          exact numbered_begin hs.ledger _
        · rw [RegisterActivity.onClick_ledger, RegisterActivity.onClick_dialogs, if_pos hcheck,
            if_pos hcheck]
          exact hs.dialogs.showDialog
      · refine ⟨?_, ?_⟩
        · rw [RegisterActivity.onClick_ledger, if_neg hcheck]
          exact hs.ledger
        · rw [RegisterActivity.onClick_ledger, RegisterActivity.onClick_dialogs, if_neg hcheck,
            if_neg hcheck]
          exact hs.dialogs
    · refine ⟨?_, ?_⟩
      · rw [RegisterActivity.answer_ledger]
        exact numbered_close hs.ledger hreq o _
      · rw [RegisterActivity.answer_ledger, RegisterActivity.answer_dialogs]
        exact hs.dialogs.send _

theorem registerAnswered_iff {s : RegisterScreen B} :
    RegisterAnswered J s ↔ Sound (AnsweredOnce J) s.ledger ∧ OwnDialogs s.dialogs s.ledger := by
  constructor
  · intro h
    exact ⟨h.sound, h.dialogs⟩
  · rintro ⟨hsound, hdialogs⟩
    exact ⟨hsound, hdialogs⟩

theorem register_step_iff {s t : RegisterScreen B} {e : RegisterActivity.Event B}
    (hn : RegisterNumbered s) (hs : RegisterAnswered J s)
    (hst : s.step J bitmaptoString e = some t) : RegisterReads J s e ↔ RegisterAnswered J t := by
  obtain ⟨hanswer, hclick, hledger, hdialogs⟩ | ⟨rfl, rfl⟩ | ⟨r, o, req, rfl, hreq, rfl⟩ :=
    RegisterActivity.step_ledger hst
  · refine ⟨fun _ => ?_, fun _ => ⟨fun h => absurd h hclick, fun h => absurd h hclick,
      fun r o h => absurd h (hanswer r o), fun r o h => absurd h (hanswer r o)⟩⟩
    rw [registerAnswered_iff, hledger]
    exact ⟨hs.sound, hs.dialogs.of_other hdialogs⟩
  · rw [registerAnswered_iff, RegisterActivity.onClick_ledger, RegisterActivity.onClick_dialogs]
    by_cases hcheck : checkTexts s.edtRegisterAccount s.edtPwd = none
    · -- the attempt issues a request exactly when there is a picture
      rw [if_pos hcheck, if_pos hcheck,
        begin_showDialog_iff hn.ledger hn.dialogs hs.sound hs.dialogs, Option.isSome_map]
      constructor
      · intro hreads
        exact ⟨hreads.picture rfl hcheck, hreads.handled rfl hcheck⟩
      · rintro ⟨hpicture, hmessages⟩
        exact ⟨fun _ _ => hpicture, fun _ _ => hmessages, fun r o h => (nomatch h),
          fun r o h => (nomatch h)⟩
    · -- texts that fail the checks begin no attempt
      rw [if_neg hcheck, if_neg hcheck]
      exact ⟨fun _ => ⟨hs.sound, hs.dialogs⟩, fun _ => ⟨fun _ h => absurd h hcheck,
        fun _ h => absurd h hcheck, fun r o h => (nomatch h), fun r o h => (nomatch h)⟩⟩
  · rw [registerAnswered_iff, RegisterActivity.answer_ledger, RegisterActivity.answer_dialogs,
      close_send_iff hn.ledger hs.sound hs.dialogs hreq, register_answeredOnce_iff]
    constructor
    · intro hreads
      have hreadable := hreads.readable r o rfl
      exact ⟨hreadable, hreads.latest r o rfl, ((register_answeredOnce_iff o).2 hreadable).2⟩
    · rintro ⟨hreadable, hlatest, -⟩
      refine ⟨fun h => (nomatch h), fun h => (nomatch h), ?_, ?_⟩
      · intro r' o' h
        cases h
        exact hlatest
      · intro r' o' h
        cases h
        exact hreadable

/-! ## Runs -/

/-- On both screens the runs in which every attempt is answered once and its dialog dismissed once
are the runs whose outcomes are readable, whose attempts do not overlap in the dialog and, on the
registration screen, whose attempts have a picture. -/
theorem answered_iff (J : OrgJson) :
    (∀ (c : Created) (es : List LoginActivity.Event) (s : LoginScreen),
      RunUnder (LoginActivity.machine J c) (LoginReads J) es s ↔
        Run (LoginActivity.machine J c) es s ∧
          Always (LoginActivity.machine J c) (LoginAnswered J) es) ∧
    (∀ (B : Type) (bitmaptoString : B → String) (es : List (RegisterActivity.Event B))
      (s : RegisterScreen B),
      RunUnder (RegisterActivity.machine J bitmaptoString) (RegisterReads J) es s ↔
        Run (RegisterActivity.machine J bitmaptoString) es s ∧
          Always (RegisterActivity.machine J bitmaptoString) (RegisterAnswered J) es) := by
  constructor
  · intro c es s
    apply run_always_iff
    · obtain ⟨-, hledger, -, -, -, -, hdialogs⟩ := c.fields
      refine ⟨?_, ?_⟩
      · rw [LoginActivity.machine, hledger]
        exact sound_empty
      · rw [LoginActivity.machine, hledger, hdialogs]
        exact ownDialogs_empty
    · intro es s e t hrun hs hst
      exact login_step_iff (login_numbered_of_run hrun.toRun) hs hst
  · intro B bitmaptoString es s
    apply run_always_iff
    · exact ⟨sound_empty, ownDialogs_empty⟩
    · intro es s e t hrun hs hst
      exact register_step_iff (register_numbered_of_run hrun.toRun) hs hst

/-! ## Attempts that are not answered -/

/-- A registration with a picture whose failure carries its error code in hexadecimal. -/
def hexErrCode : List (RegisterActivity.Event String) :=
  [.editAccount "nick", .editPwd "one", .onActivityResult "png", .onClick,
    .answer 0 (.response "\x7b\"status\":0,\"errCode\":\"0x00000100\"\x7d")]

/-- No callback is called for it, and no dismissal is scheduled. -/
theorem hexErrCode_unanswered :
    ∃ s, Run (RegisterActivity.machine sampleJson (id : String → String)) hexErrCode s ∧
      s.ledger.closed.map (fun entry => entry.2.2) = [⟨[], [], []⟩] ∧
      ¬ RegisterAnswered sampleJson s := by
  have hexec : ((RegisterActivity.machine sampleJson (id : String → String)).exec hexErrCode).map
      (fun s => s.ledger.closed.map fun entry => entry.2.2) = some [⟨[], [], []⟩] := by decide
  obtain ⟨s, hrun, hs⟩ := exists_run_of_exec _ _ _ hexec
  refine ⟨s, hrun, hs, fun hanswered => ?_⟩
  obtain ⟨⟨r, o, k⟩, hclosed, hk⟩ := List.map_eq_singleton_iff.1 hs
  have hmem : (r, o, k) ∈ s.ledger.closed := by
    rw [hclosed]
    exact List.mem_singleton_self _
  obtain ⟨-, hone⟩ := hanswered.sound.answered r o k hmem
  obtain rfl : k = ⟨[], [], []⟩ := hk
  cases hone

/-- A registration without a picture shows the dialog and issues no request. -/
theorem noPicture_unanswered {s : RegisterScreen B} (hn : RegisterNumbered s)
    (hs : RegisterAnswered J s) (hcheck : checkTexts s.edtRegisterAccount s.edtPwd = none)
    (hbitmap : s.bitmap = none) : ¬ RegisterAnswered J (s.onClick bitmaptoString) := by
  intro hanswered
  have hissued := hanswered.sound
  rw [RegisterActivity.onClick_ledger, if_pos hcheck, sound_begin_iff hn.ledger hs.sound,
    hbitmap] at hissued
  cases hissued

/-- A second registration begins while the first one is unanswered; then both fail. -/
def overlapping : List (RegisterActivity.Event String) :=
  [.editAccount "nick", .editPwd "one", .onActivityResult "png", .onClick, .onClick,
    .answer 0 (.error none), .answer 1 (.error none), .handleMessage, .handleMessage]

-- the second dialog is dismissed twice, and the first one never
example : ((RegisterActivity.machine sampleJson (id : String → String)).exec overlapping).map
    (fun s => s.dialogs.dismissed) = some [1, 1] := by decide

end IotClient.Account.Answered
