import IotClient.Account.Credentials

/-!
# One store for logins and launches

`SplashActivity` finds out at each launch whether it is the first one, by a flag in the store `SP`,
and the login screens remember their credentials in the same store. The app here is that store with
the login screens opened so far, each with its own fields and its own requests in flight, so the
answers of an old screen may come in after later launches.

A success with the box ticked writes the two credentials; with the box not ticked it calls
`deleteAllShare`, which clears the flag too, where `deleteShare` would remove one name. So logins
touch only the credentials, and `isFirst` returns true at most once, exactly in the runs in which no
success is handled with the box not ticked while the store holds another name (`firstOnce_iff`).
`second_first_launch` is such a run on an empty store: launch, login, launch.
-/

set_option autoImplicit false

namespace IotClient.Account.FirstLaunch

open IotClient.Account.Credentials
open IotClient.Account.LoginActivity
open IotClient.Account.Services
open IotClient.Foundation.Attempts
open IotClient.Foundation.Runs

/-! ## The app -/

/-- `StaticClass.SHARE_IS_FIRST`. -/
def SHARE_IS_FIRST : String := "isFirst"

/-- `SplashActivity.isFirst`, with the store it leaves. -/
def isFirst (sp : SharedPreferences) : Except ClassCastException (Bool × SharedPreferences) := do
  let isFirst ← getBoolean sp SHARE_IS_FIRST true
  if isFirst then
    return (true, putBoolean sp SHARE_IS_FIRST false)
  else
    return (false, sp)

/-- The store, the login screens opened so far, and what `isFirst` has returned, in order. -/
structure App where
  sp : SharedPreferences
  screens : List LoginScreen
  firsts : List Bool

/-- What happens to the app: a launch calls `isFirst`, a login screen is created, or something
happens to the login screen `i`. -/
inductive AppEvent where
  | launch
  | onCreate
  | screen (i : Nat) (e : Event)

namespace App

/-- `SplashActivity.handleMessage`. An exception ends the process and its screens. -/
def launch (a : App) : App :=
  match isFirst a.sp with
  | .ok (b, sp) => { a with sp := sp, firsts := a.firsts ++ [b] }
  | .error _ => { a with screens := [] }

/-- `LoginActivity.onCreate`. -/
def onCreate (a : App) : App :=
  match initView a.sp with
  | .ok screen => { a with screens := a.screens ++ [screen] }
  | .error _ => { a with screens := [] }

/-- One event. A login screen reads and writes the store of the app. -/
def step (J : OrgJson) (a : App) : AppEvent → Option App
  | .launch => some a.launch
  | .onCreate => some a.onCreate
  | .screen i e => a.screens[i]?.bind fun s =>
      (LoginScreen.step J { s with sp := a.sp } e).map fun t =>
        { a with sp := t.sp, screens := a.screens.set i t }

end App

/-- The app installed with the store `sp`. -/
def machine (J : OrgJson) (sp : SharedPreferences) : Machine App AppEvent where
  init := ⟨sp, [], []⟩
  step := App.step J

/-! ## The property and the condition -/

/-- The store after a login: unchanged, or both credentials set, or both removed. -/
def Touched (sp sp' : SharedPreferences) : Prop :=
  sp' = sp ∨
  (∃ account pwd, sp' = putString (putString sp "username" (some account)) "password" (some pwd)) ∨
  sp' = deleteShare (deleteShare sp "username") "password"

/-- The login screens touch only the two credentials. -/
def TouchesCredentials (J : OrgJson) : Guard App AppEvent := fun a e =>
  ∀ i le b, e = .screen i le → a.step J e = some b → Touched a.sp b.sp

/-- `firsts`, returned by `isFirst` since the store `sp`, has true at most at the first launch, and
has it there when that store was empty. -/
def FirstOnce (sp : SharedPreferences) (firsts : List Bool) : Prop :=
  (∀ b ∈ firsts.tail, b = false) ∧ ((∀ key, sp key = none) → ∀ b ∈ firsts.head?, b = true)

/-- No success is handled with the box not ticked while the store holds another name than the two
credentials. -/
def UntickedOnBareStore (J : OrgJson) : Guard App AppEvent := fun a e =>
  ∀ i r o s req response, e = .screen i (.answer r o) → a.screens[i]? = some s →
    s.ledger.request r = some req → loginService J o = some (.onSuccess response) →
    s.keepPassword = false →
    ∀ key, key ≠ "username" → key ≠ "password" → a.sp key = none

variable {J : OrgJson}

/-- What one event does. -/
theorem step_cases {a b : App} {e : AppEvent} (h : a.step J e = some b) :
    (e = .launch ∧ b = a.launch) ∨ (e = .onCreate ∧ b = a.onCreate) ∨
    ∃ i le s t, e = .screen i le ∧ a.screens[i]? = some s ∧
      LoginScreen.step J { s with sp := a.sp } le = some t ∧
      b = { a with sp := t.sp, screens := a.screens.set i t } := by
  cases e with
  | launch => exact Or.inl ⟨rfl, (Option.some.inj h).symm⟩
  | onCreate => exact Or.inr (Or.inl ⟨rfl, (Option.some.inj h).symm⟩)
  | screen i le =>
      obtain ⟨s, hs, h⟩ := Option.bind_eq_some_iff.1 h
      obtain ⟨t, ht, rfl⟩ := Option.map_eq_some_iff.1 h
      exact Or.inr (Or.inr ⟨i, le, s, t, rfl, hs, ht, rfl⟩)

/-! ## What a login does to the store -/

/-- A login that touches only the credentials leaves every other name as it was. -/
theorem Touched.frame {sp sp' : SharedPreferences} (h : Touched sp sp') {key : String}
    (husername : key ≠ "username") (hpassword : key ≠ "password") : sp' key = sp key := by
  rcases h with rfl | ⟨account, pwd, rfl⟩ | rfl
  · rfl
  · rw [putString, putString, Function.update_of_ne hpassword, Function.update_of_ne husername]
  · rw [deleteShare, deleteShare, Function.update_of_ne hpassword,
      Function.update_of_ne husername]

/-- The box ticked, a success sets both credentials. -/
theorem touched_remember {s : LoginScreen} (hs : Tapped s) (hkeep : s.keepPassword = true) :
    Touched s.sp s.remember := by
  rw [LoginScreen.remember, if_pos hkeep, hs.account, hs.pwd]
  cases s.taps.getLast? with
  | none => exact Or.inr (Or.inr rfl)
  | some pair => exact Or.inr (Or.inl ⟨pair.1, pair.2, rfl⟩)

/-- The box not ticked, a success clears the store, which removes just the credentials exactly when
the store holds nothing else. -/
theorem touched_remember_iff {s : LoginScreen} (hkeep : s.keepPassword = false) :
    Touched s.sp s.remember ↔
      ∀ key, key ≠ "username" → key ≠ "password" → s.sp key = none := by
  have hcleared : s.remember = fun _ => none := by
    rw [LoginScreen.remember, hkeep]
    rfl
  rw [hcleared]
  constructor
  · intro h key husername hpassword
    exact (h.frame husername hpassword).symm
  · intro hbare
    refine Or.inr (Or.inr ?_)
    funext key
    by_cases hpassword : key = "password"
    · rw [hpassword, deleteShare, Function.update_self]
    · by_cases husername : key = "username"
      · rw [deleteShare, Function.update_of_ne hpassword, husername, deleteShare,
          Function.update_self]
      · rw [deleteShare, Function.update_of_ne hpassword, deleteShare,
          Function.update_of_ne husername, hbare key husername hpassword]

/-- What happens to a login screen touches only the credentials, unless it is a success with the box
not ticked. -/
theorem touched_step {s t : LoginScreen} {le : Event} (hs : Tapped s)
    (hst : s.step J le = some t)
    (hticked : ∀ r o req response, le = .answer r o → s.ledger.request r = some req →
      loginService J o = some (.onSuccess response) → s.keepPassword = false →
      Touched s.sp s.remember) : Touched s.sp t.sp := by
  obtain ⟨text, -, rfl⟩ | ⟨text, -, rfl⟩ | ⟨-, rfl⟩ | ⟨-, rfl⟩ | ⟨r, o, req, he, hreq, rfl⟩ |
    ⟨dialogs, -, -, rfl⟩ := LoginActivity.step_cases hst
  · exact Or.inl rfl
  · exact Or.inl rfl
  · exact Or.inl rfl
  · exact Or.inl (onClick_fields s).1
  · by_cases hsuccess : ∃ response, loginService J o = some (.onSuccess response)
    · obtain ⟨response, hresponse⟩ := hsuccess
      rw [(answer_success hresponse s r req).1]
      cases hkeep : s.keepPassword with
      | true => exact touched_remember hs hkeep
      | false => exact hticked r o req response he hreq hresponse hkeep
    · rw [not_exists] at hsuccess
      exact Or.inl (answer_other hsuccess s r req).1
  · exact Or.inl rfl

/-! ## The fields of the screens -/

/-- Every screen holds in its fields what its latest tap read. -/
def AllTapped (a : App) : Prop := ∀ s ∈ a.screens, Tapped s

theorem tapped_initView {sp : SharedPreferences} {s : LoginScreen} (h : initView sp = .ok s) :
    Tapped s :=
  tapped_of_run (J := sampleJson) (c := ⟨sp, s, h⟩) .start

theorem allTapped_step {a b : App} {e : AppEvent} (ha : AllTapped a) (h : a.step J e = some b) :
    AllTapped b := by
  obtain ⟨-, rfl⟩ | ⟨-, rfl⟩ | ⟨i, le, s, t, -, hs, hst, rfl⟩ := step_cases h
  · rw [App.launch]
    cases isFirst a.sp with
    | ok result => exact ha
    | error e => exact fun s hs => absurd hs List.not_mem_nil
  · rw [App.onCreate]
    cases hview : initView a.sp with
    | ok screen =>
        intro s hs
        rcases List.mem_append.1 hs with hs | hs
        · exact ha s hs
        · rw [List.mem_singleton.1 hs]
          exact tapped_initView hview
    | error e => exact fun s hs => absurd hs List.not_mem_nil
  · have htapped : Tapped { s with sp := a.sp } := by
      have := ha s (List.mem_of_getElem? hs)
      exact ⟨this.account, this.pwd, this.sent⟩
    intro u hu
    rcases List.mem_or_eq_of_mem_set hu with hu | rfl
    · exact ha u hu
    · exact tapped_step htapped hst

theorem allTapped_of_run {sp : SharedPreferences} {es : List AppEvent} {a : App}
    (h : Run (machine J sp) es a) : AllTapped a := by
  apply h.invariant
  · intro s hs
    cases hs
  · intro a e b ha _ hst
    exact allTapped_step ha hst

/-- A step touches only the credentials exactly when it meets the condition. -/
theorem untickedOnBareStore_iff {a b : App} {e : AppEvent} (ha : AllTapped a)
    (hst : a.step J e = some b) : UntickedOnBareStore J a e ↔ TouchesCredentials J a e := by
  constructor
  · intro hbare i le b' he hst'
    subst he
    obtain ⟨he, -⟩ | ⟨he, -⟩ | ⟨i', le', s, t, he, hs, hlogin, rfl⟩ := step_cases hst'
    · cases he
    · cases he
    · cases he
      -- the answering screen, on the store of the app
      have htapped : Tapped { s with sp := a.sp } := by
        have := ha s (List.mem_of_getElem? hs)
        exact ⟨this.account, this.pwd, this.sent⟩
      apply touched_step htapped hlogin
      rintro r o req response rfl hreq hresponse hkeep
      exact (touched_remember_iff hkeep).2 (hbare i r o s req response rfl hs hreq hresponse hkeep)
  · rintro htouches i r o s req response rfl hs hreq hresponse hkeep
    -- the success is a step of the app, so what it does to the store is known
    have hlogin : LoginScreen.step J { s with sp := a.sp } (.answer r o) =
        some (LoginScreen.answer J { s with sp := a.sp } r req o) := by
      show (s.ledger.request r).map _ = _
      rw [hreq]
      rfl
    have hb : a.step J (.screen i (.answer r o)) = some
        { a with
          sp := (LoginScreen.answer J { s with sp := a.sp } r req o).sp
          screens := a.screens.set i (LoginScreen.answer J { s with sp := a.sp } r req o) } := by
      show a.screens[i]?.bind _ = _
      rw [hs]
      show Option.map _ (LoginScreen.step J { s with sp := a.sp } (.answer r o)) = _
      rw [hlogin]
      rfl
    have htouched : Touched a.sp (LoginScreen.answer J { s with sp := a.sp } r req o).sp :=
      htouches i _ _ rfl hb
    rw [(answer_success hresponse { s with sp := a.sp } r req).1] at htouched
    exact (touched_remember_iff (s := { s with sp := a.sp }) hkeep).1 htouched

/-! ## The flag -/

/-- After a call of `isFirst` the flag is set, and the call returned true exactly when it was not
set before. -/
theorem isFirst_ok {sp sp' : SharedPreferences} {b : Bool} (h : isFirst sp = .ok (b, sp')) :
    sp' SHARE_IS_FIRST = some (.boolean false) ∧
      (sp SHARE_IS_FIRST = some (.boolean false) → b = false) ∧
      (sp SHARE_IS_FIRST = none → b = true) := by
  unfold isFirst getBoolean at h
  cases hflag : sp SHARE_IS_FIRST with
  | none =>
      rw [hflag] at h
      cases h
      -- no flag yet, so the launch is the first one and writes it
      refine ⟨Function.update_self _ _ _, ?_, fun _ => rfl⟩
      intro hfalse
      cases hfalse
  | some value =>
      -- a value that is no boolean makes `getBoolean` throw
      rw [hflag] at h
      cases value with
      | string text => cases h
      | int n => cases h
      | boolean flag =>
          cases flag with
          | true =>
              cases h
              refine ⟨Function.update_self _ _ _, ?_, ?_⟩
              · intro hfalse
                cases hfalse
              · intro hnone
                cases hnone
          | false =>
              cases h
              refine ⟨hflag, fun _ => rfl, ?_⟩
              intro hnone
              cases hnone

/-- Since the first launch the flag is set; before it the flag is as it was at the start. -/
structure Flagged (sp : SharedPreferences) (a : App) : Prop where
  set : a.firsts ≠ [] → a.sp SHARE_IS_FIRST = some (.boolean false)
  unset : a.firsts = [] → a.sp SHARE_IS_FIRST = sp SHARE_IS_FIRST
  once : FirstOnce sp a.firsts

theorem firstOnce_snoc {sp : SharedPreferences} {firsts : List Bool} {b : Bool}
    (h : FirstOnce sp firsts) (hagain : firsts ≠ [] → b = false)
    (hnew : firsts = [] → (∀ key, sp key = none) → b = true) : FirstOnce sp (firsts ++ [b]) := by
  cases firsts with
  | nil =>
      refine ⟨fun c hc => ?_, fun hempty c hc => ?_⟩
      · cases hc
      · obtain rfl : b = c := Option.some.inj hc
        exact hnew rfl hempty
  | cons first rest =>
      refine ⟨fun c hc => ?_, h.2⟩
      rcases List.mem_append.1 hc with hc | hc
      · exact h.1 c hc
      · rw [List.mem_singleton.1 hc]
        exact hagain (List.cons_ne_nil first rest)

theorem flagged_launch {sp : SharedPreferences} {a : App} (h : Flagged sp a) :
    Flagged sp a.launch := by
  rw [App.launch]
  cases hfirst : isFirst a.sp with
  | error e => exact ⟨h.set, h.unset, h.once⟩
  | ok result =>
      obtain ⟨b, sp'⟩ := result
      obtain ⟨hset, hagain, hnew⟩ := isFirst_ok hfirst
      refine ⟨fun _ => hset, fun hnil => ?_, ?_⟩
      · exact absurd hnil (List.append_ne_nil_of_right_ne_nil _ (List.cons_ne_nil b []))
      · apply firstOnce_snoc h.once
        · exact fun hne => hagain (h.set hne)
        · -- before the first launch the flag is that of the store at the start
          exact fun hnil hempty => hnew ((h.unset hnil).trans (hempty SHARE_IS_FIRST))

/-- A store whose flag is as before keeps the invariant. -/
theorem Flagged.of_frame {sp : SharedPreferences} {a b : App} (h : Flagged sp a)
    (hfirsts : b.firsts = a.firsts) (hflag : b.sp SHARE_IS_FIRST = a.sp SHARE_IS_FIRST) :
    Flagged sp b := by
  refine ⟨?_, ?_, ?_⟩
  · rw [hfirsts, hflag]
    exact h.set
  · rw [hfirsts, hflag]
    exact h.unset
  · rw [hfirsts]
    exact h.once

theorem flagged_step {sp : SharedPreferences} {a b : App} {e : AppEvent} (h : Flagged sp a)
    (hg : TouchesCredentials J a e) (hst : a.step J e = some b) : Flagged sp b := by
  obtain ⟨-, rfl⟩ | ⟨-, rfl⟩ | ⟨i, le, s, t, he, -, -, ht⟩ := step_cases hst
  · exact flagged_launch h
  · rw [App.onCreate]
    cases initView a.sp with
    | ok screen => exact h.of_frame rfl rfl
    | error e => exact h.of_frame rfl rfl
  · refine h.of_frame ?_ ?_
    · rw [ht]
    · exact (hg i le b he hst).frame (by decide) (by decide)

theorem firstOnce_of_run {sp : SharedPreferences} {es : List AppEvent} {a : App}
    (h : RunUnder (machine J sp) (TouchesCredentials J) es a) : FirstOnce sp a.firsts := by
  have hflagged : Flagged sp a := by
    apply h.invariant
    · refine ⟨fun hne => absurd rfl hne, fun _ => rfl, ?_, ?_⟩
      · intro b hb
        cases hb
      · intro _ b hb
        cases hb
    · intro a e b ha hg hst
      exact flagged_step ha hg hst
  exact hflagged.once

/-- Logins touch only the remembered credentials, and `isFirst` returns true at most once, at the
first launch, exactly in the runs in which no success is handled with the box not ticked while the
store holds another name. -/
theorem firstOnce_iff (J : OrgJson) (sp : SharedPreferences) (es : List AppEvent) (a : App) :
    (RunUnder (machine J sp) (TouchesCredentials J) es a ∧ FirstOnce sp a.firsts) ↔
      RunUnder (machine J sp) (UntickedOnBareStore J) es a := by
  have hguards : RunUnder (machine J sp) (UntickedOnBareStore J) es a ↔
      RunUnder (machine J sp) (TouchesCredentials J) es a := by
    apply runUnder_congr
    intro es a e b hrun hst
    exact untickedOnBareStore_iff (allTapped_of_run hrun.toRun) hst
  constructor
  · intro h
    exact hguards.2 h.1
  · intro h
    have htouches := hguards.1 h
    exact ⟨htouches, firstOnce_of_run htouches⟩

/-! ## A login with the box not ticked between two launches -/

/-- The store of a fresh installation. -/
def emptyPreferences : SharedPreferences := fun _ => none

/-- The first launch, a login with the box not ticked, and the second launch. -/
def loginBetweenLaunches : List AppEvent :=
  [.launch, .onCreate, .screen 0 (.editAccount "nick"), .screen 0 (.editPwd "one"),
    .screen 0 .onClick, .screen 0 firstSucceeds, .launch]

/-- Both launches are first launches, and the login has removed the flag. -/
theorem second_first_launch :
    ∃ a, Run (machine sampleJson emptyPreferences) loginBetweenLaunches a ∧
      a.firsts = [true, true] ∧
      ¬ (RunUnder (machine sampleJson emptyPreferences) (TouchesCredentials sampleJson)
          loginBetweenLaunches a ∧ FirstOnce emptyPreferences a.firsts) := by
  have hexec : ((machine sampleJson emptyPreferences).exec loginBetweenLaunches).map App.firsts =
      some [true, true] := by decide
  obtain ⟨a, hrun, hfirsts⟩ := exists_run_of_exec _ _ _ hexec
  refine ⟨a, hrun, hfirsts, ?_⟩
  rintro ⟨-, htail, -⟩
  rw [hfirsts] at htail
  exact absurd (htail true List.mem_cons_self) (by decide)

end IotClient.Account.FirstLaunch
