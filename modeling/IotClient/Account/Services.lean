import IotClient.Foundation.Attempts
import Mathlib.Algebra.GroupWithZero.Nat
import Mathlib.Logic.Function.Basic

/-!
# The preference store and the account services

`Sputil` keeps one store of typed values under names. `LoginService` and `RegisterAction` post a form
and hand the answer of the server to a success or a failure callback. Both parse the body as a JSON
object and read its `status` with `getInt`; a `JSONException` is caught around the whole reading and
only printed. The JSON library is a parameter (`OrgJson`), with `none` for a `JSONException`.
-/

set_option autoImplicit false

namespace IotClient.Account.Services

/-! ## Sputil -/

/-- A value of the store. -/
inductive Value where
  | string (s : String)
  | boolean (b : Bool)
  | int (n : Int)
deriving DecidableEq, Repr

/-- The contents of the store `SP`. -/
abbrev SharedPreferences := String → Option Value

/-- A value of another type under the name that is read. -/
inductive ClassCastException where
  | wrongType
deriving DecidableEq, Repr

/-- `Sputil.putString`; the editor of the store takes a null text for a removal. -/
def putString (sp : SharedPreferences) (key : String) (value : Option String) : SharedPreferences :=
  Function.update sp key (value.map .string)

/-- `Sputil.getString`. -/
def getString (sp : SharedPreferences) (key : String) (defvalue : Option String) :
    Except ClassCastException (Option String) :=
  match sp key with
  | none => .ok defvalue
  | some (.string s) => .ok (some s)
  | some (.boolean _) | some (.int _) => .error .wrongType

/-- `Sputil.putBoolean`. -/
def putBoolean (sp : SharedPreferences) (key : String) (value : Bool) : SharedPreferences :=
  Function.update sp key (some (.boolean value))

/-- `Sputil.getBoolean`. -/
def getBoolean (sp : SharedPreferences) (key : String) (defvalue : Bool) :
    Except ClassCastException Bool :=
  match sp key with
  | none => .ok defvalue
  | some (.boolean b) => .ok b
  | some (.string _) | some (.int _) => .error .wrongType

/-- `Sputil.deleteShare`. -/
def deleteShare (sp : SharedPreferences) (key : String) : SharedPreferences :=
  Function.update sp key none

/-- `Sputil.deleteAllShare`. -/
def deleteAllShare (_ : SharedPreferences) : SharedPreferences := fun _ => none

/-! ## Requests -/

/-- A posted form. -/
structure Request where
  url : String
  params : List (String × String)
deriving DecidableEq, Repr

/-- The value of a parameter. -/
def Request.param (r : Request) (name : String) : Option String := r.params.lookup name

/-- The account and the password that a request carries. -/
def Request.sent (r : Request) : Option (String × String) :=
  (r.param "account").bind fun account => (r.param "pwd").map fun pwd => (account, pwd)

/-- `Config.URL`. -/
def URL : String := "http://192.168.1.104:8080/IOTProj/OnlyServlet"

/-- The form of `LoginService`. -/
def loginRequest (action account pwd token : String) : Request where
  url := URL
  params := [("action", action), ("account", account), ("pwd", pwd), ("token", token)]

/-- The form of `RegisterAction`. -/
def registerRequest (action account pwd picBase64 : String) : Request where
  url := URL
  params := [("action", action), ("account", account), ("pwd", pwd), ("user_icon", picBase64)]

theorem sent_loginRequest (action account pwd token : String) :
    (loginRequest action account pwd token).sent = some (account, pwd) := by
  simp [loginRequest, Request.sent, Request.param, List.lookup_cons]

/-! ## The checks of both screens -/

/-- `String.length` of Java, in UTF-16 code units. -/
def utf16Length (s : String) : Nat := (s.toList.map fun c => if c.toNat < 0x10000 then 1 else 2).sum

/-- The checks of the account and the password; a text is the toast of the check that failed. -/
def checkTexts (account pwd : String) : Option String :=
  if account = "" then some "账号不能为空"
  else if pwd = "" then some "密码不能为空"
  else if utf16Length account > 20 then some "您输入的账号过长"
  else if utf16Length pwd > 20 then some "您输入的密码过长"
  else none

/-! ## Answers and callbacks -/

/-- `org.json` as the services use it. -/
structure OrgJson where
  Obj : Type
  newJSONObject : String → Option Obj
  getInt : Obj → String → Option Int

/-- The members that `getInt` can read in two bodies; the second one is a failure with an error code
in hexadecimal, which is not an integer. No other text is taken for a JSON object. -/
def sampleJson : OrgJson where
  Obj := List (String × Int)
  newJSONObject := fun body =>
    if body = "\x7b\"status\":1,\"errCode\":0\x7d" then some [("status", 1), ("errCode", 0)]
    else if body = "\x7b\"status\":0,\"errCode\":\"0x00000100\"\x7d" then some [("status", 0)]
    else none
  getInt := fun obj name => obj.lookup name

/-- How the exchange of a request ends. -/
inductive Outcome where
  | error (message : Option String)
  | response (body : String)
deriving DecidableEq, Repr

/-- A call of one of the two callbacks. -/
inductive Callback where
  | onSuccess (response : String)
  | onFail (s : Option String)
deriving DecidableEq, Repr

/-- The call is one of the success callback. -/
def Callback.isSuccess : Callback → Bool
  | .onSuccess _ => true
  | .onFail _ => false

/-- The status of a body, read as the services read it. -/
def OrgJson.status (J : OrgJson) (body : String) : Option Int :=
  (J.newJSONObject body).bind fun obj => J.getInt obj "status"

/-- The error code of a body. -/
def OrgJson.errCode (J : OrgJson) (body : String) : Option Int :=
  (J.newJSONObject body).bind fun obj => J.getInt obj "errCode"

/-- The branches on the status: any other status calls nothing. -/
def callbackOn (status : Int) (body : String) : Option Callback :=
  if status = 1 then some (.onSuccess body)
  else if status = 0 then some (.onFail (some body))
  else none

/-- The callback that `LoginService` calls. -/
def loginService (J : OrgJson) : Outcome → Option Callback
  | .error message => some (.onFail message)
  | .response body => (J.status body).bind fun status => callbackOn status body

/-- The callback that `RegisterAction` calls. It reads the error code before it looks at the
status. -/
def registerAction (J : OrgJson) : Outcome → Option Callback
  | .error message => some (.onFail message)
  | .response body => (J.status body).bind fun status =>
      (J.errCode body).bind fun _ => callbackOn status body

/-- The status that the outcome reads as, if any. -/
def OrgJson.statusOf (J : OrgJson) : Outcome → Option Int
  | .error _ => none
  | .response body => J.status body

/-- What an activity did about an outcome: the callbacks called, the messages put on the progress
dialog, and the delays of the `DISMISS` messages sent to its handler. -/
structure Reaction where
  callbacks : List Callback
  messages : List String
  dismissals : List Nat
deriving DecidableEq, Repr

/-- The text of a Java string reference in a concatenation. -/
def javaText (s : Option String) : String := s.getD "null"

/-- Exactly one callback is called, the success callback exactly when the status reads as 1, and
exactly one dismissal is scheduled. -/
def AnsweredOnce (J : OrgJson) (o : Outcome) (k : Reaction) : Prop :=
  (∃ c, k.callbacks = [c] ∧ (c.isSuccess = true ↔ J.statusOf o = some 1)) ∧ k.dismissals.length = 1

end IotClient.Account.Services
