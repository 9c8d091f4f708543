import IotClient.Account.LoginActivity

/-!
# The remembered credentials

The success callback of one attempt stores the texts that the latest tap read, whichever attempt it
belongs to. So with the box ticked it stores the pair of the request whose success it handles
exactly when the latest tap read the texts of that request (`ReadsSent`). `remembers_iff` says so of
every run, and that in such runs the store holds no pair that the server did not accept, apart from
the one it was opened with. A second tap with another password, while the first request is
unanswered, breaks it (`editedWhilePending`); the registration screen keeps both texts in final
variables of the tap.
-/

set_option autoImplicit false

namespace IotClient.Account.Credentials

open IotClient.Account.LoginActivity
open IotClient.Account.Services
open IotClient.Foundation.Attempts
open IotClient.Foundation.Runs

variable {J : OrgJson}

/-- A success is handled with the box ticked. -/
def Stores (J : OrgJson) (s : LoginScreen) (e : Event) (req : Request) : Prop :=
  ∃ r o response, e = .answer r o ∧ s.ledger.request r = some req ∧
    loginService J o = some (.onSuccess response) ∧ s.keepPassword = true

/-- When a success is stored, the latest tap has read the texts of its request. -/
def ReadsSent (J : OrgJson) : Guard LoginScreen Event := fun s e =>
  ∀ req, Stores J s e req → s.taps.getLast? = req.sent

/-- The pair that the store holds, when it holds both texts. -/
def remembered (sp : SharedPreferences) : Option (String × String) :=
  match sp "username", sp "password" with
  | some (.string username), some (.string password) => some (username, password)
  | _, _ => none

/-- When a success is stored, the pair stored is the pair of its request. -/
def StoresSent (J : OrgJson) : Guard LoginScreen Event := fun s e =>
  ∀ req t, Stores J s e req → s.step J e = some t →
    ∃ pair, req.sent = some pair ∧ remembered t.sp = some pair

/-- The store holds a pair that the server accepted, or the pair that it was opened with. -/
def OnlyAccepted (c : Created) (s : LoginScreen) : Prop :=
  ∀ pair, remembered s.sp = some pair → pair ∈ s.accepted ∨ remembered c.sp = some pair

/-! ## The fields and the requests -/

/-- The two fields hold what the latest tap read, and the requests in flight are login forms. -/
structure Tapped (s : LoginScreen) : Prop where
  account : s.wytAccount = s.taps.getLast?.map Prod.fst
  pwd : s.wytPwd = s.taps.getLast?.map Prod.snd
  sent : ∀ entry ∈ s.ledger.inFlight, entry.2.sent.isSome = true

theorem tapped_step {s t : LoginScreen} {e : Event} (hs : Tapped s) (h : s.step J e = some t) :
    Tapped t := by
  obtain ⟨text, -, rfl⟩ | ⟨text, -, rfl⟩ | ⟨-, rfl⟩ | ⟨-, rfl⟩ | ⟨r, o, req, -, hreq, rfl⟩ |
    ⟨dialogs, -, -, rfl⟩ := step_cases h
  · exact ⟨hs.account, hs.pwd, hs.sent⟩
  · exact ⟨hs.account, hs.pwd, hs.sent⟩
  · exact ⟨hs.account, hs.pwd, hs.sent⟩
  · obtain ⟨-, -, htaps, haccount, hpwd⟩ := onClick_fields s
    refine ⟨?_, ?_, ?_⟩
    · -- the tap reads both texts into the fields before it checks them
      rw [haccount, htaps, List.getLast?_concat]
      rfl
    · rw [hpwd, htaps, List.getLast?_concat]
      rfl
    · intro entry hentry
      rw [onClick_ledger] at hentry
      split at hentry
      · -- the new request is the login form of the two texts
        rcases List.mem_append.1 hentry with hentry | hentry
        · exact hs.sent entry hentry
        · obtain rfl : entry =
              (s.ledger.attempts, loginRequest "login" s.edtAccount s.edtPwd "") := by
            simpa using hentry
          rw [sent_loginRequest]
          rfl
      · exact hs.sent entry hentry
  · obtain ⟨htaps, haccount, hpwd⟩ := answer_fields (J := J) s r req o
    refine ⟨?_, ?_, ?_⟩
    · rw [haccount, htaps]
      exact hs.account
    · rw [hpwd, htaps]
      exact hs.pwd
    · rw [answer_ledger]
      intro entry hentry
      -- an answer takes a request out of flight and puts none in
      exact hs.sent entry (List.mem_filter.1 hentry).1
  · exact ⟨hs.account, hs.pwd, hs.sent⟩

theorem tapped_of_run {c : Created} {es : List Event} {s : LoginScreen}
    (h : Run (machine J c) es s) : Tapped s := by
  apply h.invariant
  · obtain ⟨-, hledger, htaps, haccount, hpwd, -, -⟩ := c.fields
    refine ⟨?_, ?_, ?_⟩
    · show c.screen.wytAccount = _
      rw [haccount]
      show none = c.screen.taps.getLast?.map Prod.fst
      rw [htaps]
      rfl
    · show c.screen.wytPwd = _
      rw [hpwd]
      show none = c.screen.taps.getLast?.map Prod.snd
      rw [htaps]
      rfl
    · show ∀ entry ∈ c.screen.ledger.inFlight, _
      rw [hledger]
      intro entry hentry
      cases hentry
  · intro s e t hs _ hst
    exact tapped_step hs hst

/-! ## One success -/

/-- The box ticked, the store holds the texts of the two fields. -/
theorem remembered_remember {s : LoginScreen} (hs : Tapped s) (hkeep : s.keepPassword = true)
    {pair : String × String} (hlast : s.taps.getLast? = some pair) :
    remembered s.remember = some pair := by
  have haccount := hs.account
  have hpwd := hs.pwd
  rw [hlast] at haccount hpwd
  rw [LoginScreen.remember, if_pos hkeep, haccount, hpwd]
  simp [remembered, putString, Function.update]

/-- Before the first tap there is nothing to store. -/
theorem remembered_remember_none {s : LoginScreen} (hs : Tapped s) (hkeep : s.keepPassword = true)
    (hlast : s.taps.getLast? = none) : remembered s.remember = none := by
  have haccount := hs.account
  rw [hlast] at haccount
  rw [LoginScreen.remember, if_pos hkeep, haccount]
  simp [remembered, putString, Function.update]

/-- The box not ticked, the store is cleared. -/
theorem remembered_cleared {s : LoginScreen} (hkeep : s.keepPassword = false) :
    remembered s.remember = none := by
  rw [LoginScreen.remember, hkeep]
  rfl

/-- What a success that is stored leaves in the store. -/
theorem stored_success {s t : LoginScreen} {e : Event} {req : Request} (hs : Tapped s)
    (hstores : Stores J s e req) (hst : s.step J e = some t) :
    remembered t.sp = s.taps.getLast? ∧ req.sent.isSome = true := by
  obtain ⟨r, o, response, rfl, hreq, hcallback, hkeep⟩ := hstores
  obtain rfl : s.answer J r req o = t := by
    simpa [LoginScreen.step, hreq] using hst
  refine ⟨?_, hs.sent (r, req) (mem_of_request hreq)⟩
  rw [(answer_success hcallback s r req).1]
  cases hlast : s.taps.getLast? with
  | none => exact remembered_remember_none hs hkeep hlast
  | some pair => exact remembered_remember hs hkeep hlast

theorem readsSent_iff {s t : LoginScreen} {e : Event} (hs : Tapped s) (hst : s.step J e = some t) :
    ReadsSent J s e ↔ StoresSent J s e := by
  constructor
  · -- the store takes the pair of the latest tap, which is the pair of the request
    intro hreads req u hstores hu
    obtain ⟨hstored, hsent⟩ := stored_success hs hstores hu
    obtain ⟨pair, hpair⟩ := Option.isSome_iff_exists.1 hsent
    exact ⟨pair, hpair, by rw [hstored, hreads req hstores, hpair]⟩
  · intro hsent req hstores
    obtain ⟨pair, hpair, hremembered⟩ := hsent req t hstores hst
    rw [(stored_success hs hstores hst).1] at hremembered
    rw [hremembered, hpair]

/-- A step that meets the condition stores accepted pairs only. -/
theorem onlyAccepted_step {c : Created} {s t : LoginScreen} {e : Event} (htapped : Tapped s)
    (hs : OnlyAccepted c s) (hg : ReadsSent J s e) (h : s.step J e = some t) :
    OnlyAccepted c t := by
  obtain ⟨text, -, rfl⟩ | ⟨text, -, rfl⟩ | ⟨-, rfl⟩ | ⟨-, rfl⟩ | ⟨r, o, req, he, hreq, ht⟩ |
    ⟨dialogs, -, -, rfl⟩ := step_cases h
  · exact hs
  · exact hs
  · exact hs
  · obtain ⟨hsp, haccepted, -⟩ := onClick_fields s
    intro pair hpair
    rw [haccepted]
    rw [hsp] at hpair
    exact hs pair hpair
  · by_cases hsuccess : ∃ response, loginService J o = some (.onSuccess response)
    · obtain ⟨response, hcallback⟩ := hsuccess
      obtain ⟨hsp, haccepted⟩ := answer_success hcallback s r req
      intro pair hpair
      left
      cases hkeep : s.keepPassword with
      | false =>
          -- the box not ticked, the callback clears the store
          rw [ht, hsp, remembered_cleared hkeep] at hpair
          cases hpair
      | true =>
          -- the pair stored is the pair of the request, which the server has just accepted
          have hstores : Stores J s e req := ⟨r, o, response, he, hreq, hcallback, hkeep⟩
          rw [(stored_success htapped hstores h).1, hg req hstores] at hpair
          rw [ht, haccepted, hpair]
          exact List.mem_append_right _ (List.mem_singleton_self pair)
    · obtain ⟨hsp, haccepted⟩ :=
        answer_other (J := J) (fun response h => hsuccess ⟨response, h⟩) s r req
      intro pair hpair
      rw [ht, haccepted]
      rw [ht, hsp] at hpair
      exact hs pair hpair
  · exact hs

/-! ## Runs -/

theorem onlyAccepted_of_run {c : Created} {es : List Event} {s : LoginScreen}
    (h : RunUnder (machine J c) (ReadsSent J) es s) : OnlyAccepted c s := by
  have hboth : Tapped s ∧ OnlyAccepted c s := by
    apply h.invariant (I := fun s => Tapped s ∧ OnlyAccepted c s)
    · refine ⟨tapped_of_run RunUnder.start (J := J), ?_⟩
      intro pair hpair
      right
      rw [← c.fields.1]
      exact hpair
    · intro s e t hs hg hst
      exact ⟨tapped_step hs.1 hst, onlyAccepted_step hs.1 hs.2 hg hst⟩
  exact hboth.2

/-- The runs in which every success that is stored stores the pair of its own request are the runs
in which the latest tap had read the texts of that request; and in these the store holds accepted
pairs only. -/
theorem remembers_iff (J : OrgJson) (c : Created) (es : List Event) (s : LoginScreen) :
    (RunUnder (machine J c) (ReadsSent J) es s ↔ RunUnder (machine J c) (StoresSent J) es s) ∧
      (RunUnder (machine J c) (ReadsSent J) es s → OnlyAccepted c s) := by
  refine ⟨?_, onlyAccepted_of_run⟩
  apply runUnder_congr
  intro es s e t hrun hst
  exact readsSent_iff (tapped_of_run hrun.toRun) hst

/-! ## A second tap while the first request is unanswered -/

/-- The screen created on an empty store. -/
def emptyStore : Created where
  sp := fun _ => none
  screen :=
    { edtAccount := "", edtPwd := "", keepPassword := false, wytAccount := none, wytPwd := none,
      sp := fun _ => none, toasts := [], finished := false, dialogs := .empty,
      ledger := .empty, taps := [], accepted := [] }
  created := rfl

/-- The password is edited and the button tapped again while the first request is unanswered. -/
def editedWhilePending : List Event :=
  [.editAccount "nick", .editPwd "one", .toggleKeepPassword, .onClick, .editPwd "two", .onClick]

/-- The success of the first request. -/
def firstSucceeds : Event := .answer 0 (.response "\x7b\"status\":1,\"errCode\":0\x7d")

/-- The success of the first request stores the password of the second one, which the server has not
accepted. -/
theorem unaccepted_pair_remembered :
    ∃ s, Run (machine sampleJson emptyStore) (editedWhilePending ++ [firstSucceeds]) s ∧
      remembered s.sp = some ("nick", "two") ∧ s.accepted = [("nick", "one")] ∧
      ¬ RunUnder (machine sampleJson emptyStore) (StoresSent sampleJson)
        (editedWhilePending ++ [firstSucceeds]) s := by
  have hlast : ((machine sampleJson emptyStore).exec (editedWhilePending ++ [firstSucceeds])).map
      (fun s => (remembered s.sp, s.accepted)) =
        some (some ("nick", "two"), [("nick", "one")]) := by decide
  have hexec : ((machine sampleJson emptyStore).exec editedWhilePending).map (fun s =>
      ((s.ledger.request 0).map Request.sent, s.keepPassword,
        (s.step sampleJson firstSucceeds).map fun t => remembered t.sp)) =
          some (some (some ("nick", "one")), true, some (some ("nick", "two"))) := by decide
  obtain ⟨s, hrun, hs⟩ := exists_run_of_exec _ _ _ hlast
  obtain ⟨hremembered, haccepted⟩ := Prod.mk.inj hs
  refine ⟨s, hrun, hremembered, haccepted, not_runUnder_snoc _ _ _ hexec ?_ s⟩
  intro u hu hsent
  simp only [Prod.mk.injEq] at hu
  obtain ⟨hrequest, hkeep, hstep⟩ := hu
  obtain ⟨req, hreq, hpair⟩ := Option.map_eq_some_iff.1 hrequest
  obtain ⟨t, hst, hstored⟩ := Option.map_eq_some_iff.1 hstep
  -- the last event stores a success of the first request
  have hstores : Stores sampleJson u firstSucceeds req := ⟨0, _, _, rfl, hreq, by rfl, hkeep⟩
  obtain ⟨pair, hpair', hpair''⟩ := hsent req t hstores hst
  rw [hpair] at hpair'
  rw [hstored] at hpair''
  exact absurd (hpair'.trans hpair''.symm) (by decide)

/-- The check that a success is handled for the texts of the latest tap. -/
def readsSent (s : LoginScreen) : Event → Bool
  | .answer r _ => s.taps.getLast? == (s.ledger.request r).bind Request.sent
  | _ => true

/-- One attempt at a time remembers the accepted pair. -/
theorem one_attempt_remembered :
    ∃ s, RunUnder (machine sampleJson emptyStore) (ReadsSent sampleJson)
      [.editAccount "nick", .editPwd "one", .toggleKeepPassword, .onClick, firstSucceeds] s ∧
      OnlyAccepted emptyStore s := by
  have hexec : (((machine sampleJson emptyStore).restrict readsSent).exec
      [.editAccount "nick", .editPwd "one", .toggleKeepPassword, .onClick, firstSucceeds]).map
      (fun s => remembered s.sp) = some (some ("nick", "one")) := by decide
  obtain ⟨s, hrun, -⟩ := exists_run_of_exec _ _ _ hexec
  have hguard : RunUnder (machine sampleJson emptyStore) (ReadsSent sampleJson)
      [.editAccount "nick", .editPwd "one", .toggleKeepPassword, .onClick, firstSucceeds] s := by
    apply runUnder_of_restrict _ hrun
    rintro u e hcheck req ⟨r, o, response, rfl, hreq, -, -⟩
    simpa [readsSent, hreq] using hcheck
  exact ⟨s, hguard, (remembers_iff sampleJson emptyStore _ s).2 hguard⟩

end IotClient.Account.Credentials
