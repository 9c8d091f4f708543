import IotClient.Foundation.Threads

/-!
# The camera's control sessions

Every press of `btn_reload` or `fab_off` starts a thread that connects to the camera's server, logs
in, and switches the camera on or off. All threads go through the fields `socket`, `out` and `in` of
`VideoFragment`. Their code is straight-line, so that it is given as a list of instructions, one for
each access to a field and for each call on a socket or a stream; an `IOException` ends the thread.

`byteMergerAll_eq` says what the login consists of, `perform_cases` what an instruction can do to
the connections.
-/

set_option autoImplicit false

namespace IotClient.Video.ControlSession

open IotClient.Foundation.Runs
open IotClient.Foundation.Threads

/-! ## The bytes sent -/

def SIGN_ON : List UInt8 := [0x2f, 0x3f, 0x4f, 0x00]

def SIGN_OFF : List UInt8 := [0x2f, 0x3f, 0x5f, 0x00]

def SIGN_CHECK_HEAD : List UInt8 := [0x2f, 0x3f]

/-- `String.getBytes` on ASCII text. -/
def getBytes (text : List Char) : List UInt8 := text.map fun c => UInt8.ofNat c.toNat

def strname : List Char := ['a', 'd', 'm', 'i', 'n', ':']

def strpassword : List Char := ['a', 'd', 'm', 'i', 'n']

/-- `System.arraycopy` of all of `src`. -/
def arraycopy (src dest : List UInt8) (destPos : Nat) : List UInt8 :=
  dest.take destPos ++ src ++ dest.drop (destPos + src.length)

/-- The second loop of `byteMergerAll`. -/
def copyAll : List (List UInt8) → List UInt8 → Nat → List UInt8
  | [], all_byte, _ => all_byte
  | b :: values, all_byte, countLength =>
      copyAll values (arraycopy b all_byte countLength) (countLength + b.length)

/-- `VideoFragment.byteMergerAll`. -/
def byteMergerAll (values : List (List UInt8)) : List UInt8 :=
  let length_byte := values.foldl (fun length b => length + b.length) 0
  copyAll values (List.replicate length_byte 0) 0

theorem arraycopy_after (P src rest : List UInt8) :
    arraycopy src (P ++ rest) P.length = P ++ src ++ rest.drop src.length := by
  rw [arraycopy, List.take_left, List.drop_append, List.drop_eq_nil_of_le (Nat.le_add_right _ _),
    Nat.add_sub_cancel_left, List.nil_append]

/-- The loop writes the arrays one after another. -/
theorem copyAll_eq (values : List (List UInt8)) (P : List UInt8) :
    copyAll values (P ++ List.replicate values.flatten.length 0) P.length =
      P ++ values.flatten := by
  induction values generalizing P with
  | nil => rfl
  | cons b values ih =>
      -- the arrays written so far are the prefix of the next copy
      rw [copyAll, arraycopy_after, List.flatten_cons, List.drop_replicate, List.length_append,
        Nat.add_sub_cancel_left, ← List.length_append, ih, List.append_assoc]

theorem length_byte_eq (values : List (List UInt8)) (n : Nat) :
    values.foldl (fun length b => length + b.length) n = n + values.flatten.length := by
  induction values generalizing n with
  | nil => rfl
  | cons b values ih =>
      rw [List.foldl_cons, ih, List.flatten_cons, List.length_append, Nat.add_assoc]

/-- `byteMergerAll` puts the arrays one after another. -/
theorem byteMergerAll_eq (values : List (List UInt8)) :
    byteMergerAll values = values.flatten := by
  -- the first loop has measured the buffer
  rw [byteMergerAll, length_byte_eq, Nat.zero_add]
  exact copyAll_eq values []

/-- The login. -/
def user : List UInt8 := byteMergerAll [SIGN_CHECK_HEAD, getBytes strname, getBytes strpassword]

/-! ## Sockets and instructions -/

/-- A `Socket`, with its connection once it is connected: the session that opened the connection,
the bytes sent on it, the sessions that have called `close`, the replies that were not read yet, and
whether the server has closed its side. -/
structure Socket where
  opener : Option Nat
  carried : List UInt8
  closers : List Nat
  replies : List UInt8
  hungUp : Bool
  inputShutdown : Bool
  closed : Bool
deriving DecidableEq

/-- `new Socket()`. -/
def newSocket : Socket := ⟨none, [], [], [], false, false, false⟩

/-- `Socket.isConnected`, which closing does not change. -/
def Socket.isConnected (x : Socket) : Bool := x.opener.isSome

/-- Bytes can be sent. -/
def Socket.isOpen (x : Socket) : Bool := x.isConnected && !x.closed

/-- The messages for `mHandler`. -/
inductive Message where
  | CONNECT_SUCCESS
  | CONNECT_FAIL
  | SUCCESS_OFF
  | SUCCESS_ON
deriving DecidableEq, Repr

/-- A call on the socket, or on the stream of the socket, that the thread has loaded. -/
inductive Call where
  | connect
  | reportConnected
  | getOutputStream
  | write (msg : List UInt8)
  | getInputStream
  | read
  | close
  | shutdownInput
deriving DecidableEq

/-- An instruction of a session: `socket = new Socket()`, an access to a field, a message, or a
call. A stream has the name of its socket. -/
inductive Instruction where
  | newSocket
  | loadSocket
  | storeOut
  | loadOut
  | storeIn
  | loadIn
  | sendMessage (what : Message)
  | call (c : Call)
deriving DecidableEq

/-! ## The code of the sessions -/

inductive Button where
  | btn_reload
  | fab_off
deriving DecidableEq, Repr

/-- `VideoFragment.RequestSocket`. -/
def RequestSocket : List Instruction := [.newSocket, .loadSocket, .call .connect]

/-- `VideoFragment.connecttoserver`. -/
def connecttoserver : List Instruction := RequestSocket ++ [.loadSocket, .call .reportConnected]

/-- `SendMsg(socket, msg)`. -/
def SendMsg (msg : List UInt8) : List Instruction :=
  [.loadSocket, .call .getOutputStream, .storeOut, .loadOut, .call (.write msg)]

/-- `ReceiveMsg(socket)`. -/
def ReceiveMsg : List Instruction :=
  [.loadSocket, .call .getInputStream, .storeIn, .loadIn, .call .read]

/-- The end of both sessions. -/
def finish (what : Message) : List Instruction :=
  [.sendMessage what, .loadSocket, .call .close, .loadSocket, .call .shutdownInput]

/-- The threads that `VideoFragment.onClick` starts. -/
def onClick : Button → List Instruction
  | .btn_reload =>
      [.newSocket] ++ connecttoserver ++ SendMsg user ++ ReceiveMsg ++ SendMsg SIGN_ON ++
        ReceiveMsg ++ finish .SUCCESS_ON
  | .fab_off =>
      connecttoserver ++ SendMsg user ++ SendMsg SIGN_OFF ++ ReceiveMsg ++ finish .SUCCESS_OFF

/-! ## The fragment -/

/-- The fields of `VideoFragment` that the sessions share, with the sockets made so far, the bytes
that each session has received on each socket, and the messages sent. -/
structure Fields where
  socket : Option Nat
  out : Option Nat
  in_ : Option Nat
  sockets : Nat → Socket
  made : Nat
  received : List (Nat × Nat × List UInt8)
  messages : List Message

namespace Fields

/-- `socket = new Socket()`. Nothing has happened yet to a socket that was not made. -/
def assignSocket (s : Fields) : Fields := { s with socket := some s.made, made := s.made + 1 }

def setSocket (s : Fields) (c : Nat) (x : Socket) : Fields :=
  { s with sockets := Function.update s.sockets c x }

/-- The buffer of `ReceiveMsg`. -/
def bufferLength : Nat := 1024

/-- `in.read(bytes)`. Once the input is shut down, or the server has closed its side and everything
was read, it returns with nothing. -/
def read (s : Fields) (session c : Nat) : Outcome Fields :=
  let x := s.sockets c
  if x.closed then .throws
  else if x.inputShutdown then .returns s
  else if x.replies = [] then if x.hungUp then .returns s else .blocks
  else
    .returns { s.setSocket c { x with replies := x.replies.drop bufferLength } with
      received := s.received ++ [(session, c, x.replies.take bufferLength)] }

/-- A call of a session on the socket `c`. -/
def call (s : Fields) (session c : Nat) : Call → Outcome Fields
  | .connect =>
      if (s.sockets c).closed || (s.sockets c).isConnected then .throws
      else .returns (s.setSocket c { s.sockets c with opener := some session })
  | .reportConnected =>
      .returns { s with
        messages := s.messages ++
          [if (s.sockets c).isConnected then .CONNECT_SUCCESS else .CONNECT_FAIL] }
  | .getOutputStream => if (s.sockets c).isOpen then .returns s else .throws
  | .write msg =>
      if (s.sockets c).isOpen then
        .returns (s.setSocket c { s.sockets c with carried := (s.sockets c).carried ++ msg })
      else .throws
  | .getInputStream =>
      if (s.sockets c).isOpen && !(s.sockets c).inputShutdown then .returns s else .throws
  | .read => s.read session c
  | .close =>
      .returns (s.setSocket c
        { s.sockets c with closed := true, closers := (s.sockets c).closers ++ [session] })
  | .shutdownInput =>
      if (s.sockets c).isOpen && !(s.sockets c).inputShutdown then
        .returns (s.setSocket c { s.sockets c with inputShutdown := true })
      else .throws

/-- An instruction of a session that has loaded `loaded`. -/
def perform (s : Fields) (session : Nat) (loaded : Option Nat) :
    Instruction → Outcome (Fields × Option Nat)
  | .newSocket => .returns (s.assignSocket, loaded)
  | .loadSocket => .returns (s, s.socket)
  | .storeOut => .returns ({ s with out := loaded }, loaded)
  | .loadOut => .returns (s, s.out)
  | .storeIn => .returns ({ s with in_ := loaded }, loaded)
  | .loadIn => .returns (s, s.in_)
  | .sendMessage what => .returns ({ s with messages := s.messages ++ [what] }, loaded)
  | .call c =>
      match loaded with
      | none => .throws
      | some x =>
          match s.call session x c with
          | .blocks => .blocks
          | .throws => .throws
          | .returns t => .returns (t, loaded)

/-- What is left when the network makes an instruction throw. A socket that could not be connected
is closed. -/
def fails (s : Fields) (loaded : Option Nat) : Instruction → Option Fields
  | .call .connect =>
      loaded.bind fun c =>
        if (s.sockets c).closed || (s.sockets c).isConnected then none
        else some (s.setSocket c { s.sockets c with closed := true })
  | .call (.write _) => some s
  | .call .read => some s
  | _ => none

end Fields

/-- What happens besides the sessions: the view is created, the server replies on a connection, or
closes its side of it. -/
inductive Outside where
  | initView
  | reply (c : Nat) (bytes : List UInt8)
  | hangUp (c : Nat)
deriving DecidableEq

def Fields.outside (s : Fields) : Outside → Option Fields
  | .initView => some s.assignSocket
  | .reply c bytes =>
      if (s.sockets c).isConnected then
        some (s.setSocket c { s.sockets c with replies := (s.sockets c).replies ++ bytes })
      else none
  | .hangUp c =>
      if (s.sockets c).isConnected then
        some (s.setSocket c { s.sockets c with hungUp := true })
      else none

/-- The sessions of one fragment. A button can be pressed once `initView` has run. -/
def sessions : Program Fields Button Instruction (Option Nat) Outside where
  init := ⟨none, none, none, fun _ => newSocket, 0, [], []⟩
  code := onClick
  starts := fun s _ => if s.socket.isSome then some none else none
  perform := Fields.perform
  fails := Fields.fails
  outside := Fields.outside

/-! ## What the instructions do to the connections -/

/-- The connections: who opened each, what was sent on it, who has closed it, and what was received
from where. -/
structure Ledger where
  opener : Nat → Option Nat
  carried : Nat → List UInt8
  closers : Nat → List Nat
  received : List (Nat × Nat × List UInt8)

namespace Ledger

def connect (l : Ledger) (c i : Nat) : Ledger :=
  { l with opener := Function.update l.opener c (some i) }

def write (l : Ledger) (c : Nat) (msg : List UInt8) : Ledger :=
  { l with carried := Function.update l.carried c (l.carried c ++ msg) }

def receive (l : Ledger) (c i : Nat) (bytes : List UInt8) : Ledger :=
  { l with received := l.received ++ [(i, c, bytes)] }

def close (l : Ledger) (c i : Nat) : Ledger :=
  { l with closers := Function.update l.closers c (l.closers c ++ [i]) }

variable {l : Ledger} {c d i j : Nat} {msg bytes : List UInt8}

theorem opener_connect : (l.connect c i).opener d = if d = c then some i else l.opener d :=
  Function.update_apply _ _ _ _

theorem opener_connect_cases (h : (l.connect c i).opener d = some j) :
    (d = c ∧ j = i) ∨ (d ≠ c ∧ l.opener d = some j) := by
  rw [opener_connect] at h
  split_ifs at h with hd
  · exact Or.inl ⟨hd, (Option.some.inj h).symm⟩
  · exact Or.inr ⟨hd, h⟩

theorem carried_write :
    (l.write c msg).carried d = if d = c then l.carried c ++ msg else l.carried d :=
  Function.update_apply _ _ _ _

theorem mem_closers_close :
    j ∈ (l.close c i).closers d ↔ j ∈ l.closers d ∨ d = c ∧ j = i := by
  show j ∈ Function.update l.closers c (l.closers c ++ [i]) d ↔ _
  rw [Function.update_apply]
  split_ifs with hd
  · rw [hd, List.mem_append, List.mem_singleton, and_iff_right rfl]
  · rw [or_iff_left fun h => hd h.1]

theorem mem_received_receive {r : Nat × Nat × List UInt8} :
    r ∈ (l.receive c i bytes).received ↔ r ∈ l.received ∨ r = (i, c, bytes) := by
  show r ∈ l.received ++ [(i, c, bytes)] ↔ _
  rw [List.mem_append, List.mem_singleton]

end Ledger

def Fields.ledger (s : Fields) : Ledger where
  opener := fun c => (s.sockets c).opener
  carried := fun c => (s.sockets c).carried
  closers := fun c => (s.sockets c).closers
  received := s.received

theorem ledger_setSocket (s : Fields) (c : Nat) (x : Socket) :
    (s.setSocket c x).ledger =
      { s.ledger with
        opener := Function.update s.ledger.opener c x.opener
        carried := Function.update s.ledger.carried c x.carried
        closers := Function.update s.ledger.closers c x.closers } := by
  have hcomp : ∀ {α : Type} (f : Socket → α),
      (fun d => f ((s.setSocket c x).sockets d)) =
        Function.update (fun d => f (s.sockets d)) c (f x) := by
    intro α f
    exact Function.comp_update f s.sockets c x
  rw [Fields.ledger, hcomp Socket.opener, hcomp Socket.carried, hcomp Socket.closers]
  rfl

/-- Setting a socket changes nothing in the ledger when the socket has the same part of it. -/
theorem ledger_setSocket_same {s : Fields} {c : Nat} {x : Socket}
    (hopener : x.opener = (s.sockets c).opener) (hcarried : x.carried = (s.sockets c).carried)
    (hclosers : x.closers = (s.sockets c).closers) : (s.setSocket c x).ledger = s.ledger := by
  rw [ledger_setSocket, hopener, hcarried, hclosers]
  show Ledger.mk (Function.update s.ledger.opener c (s.ledger.opener c))
    (Function.update s.ledger.carried c (s.ledger.carried c))
    (Function.update s.ledger.closers c (s.ledger.closers c)) _ = _
  rw [Function.update_eq_self, Function.update_eq_self, Function.update_eq_self]

theorem ledger_connect (s : Fields) (c i : Nat) :
    (s.setSocket c { s.sockets c with opener := some i }).ledger = s.ledger.connect c i := by
  rw [ledger_setSocket]
  show Ledger.mk _ (Function.update s.ledger.carried c (s.ledger.carried c))
    (Function.update s.ledger.closers c (s.ledger.closers c)) _ = _
  rw [Function.update_eq_self, Function.update_eq_self]
  rfl

theorem ledger_write (s : Fields) (c : Nat) (msg : List UInt8) :
    (s.setSocket c { s.sockets c with carried := (s.sockets c).carried ++ msg }).ledger =
      s.ledger.write c msg := by
  rw [ledger_setSocket]
  show Ledger.mk (Function.update s.ledger.opener c (s.ledger.opener c)) _
    (Function.update s.ledger.closers c (s.ledger.closers c)) _ = _
  rw [Function.update_eq_self, Function.update_eq_self]
  rfl

theorem ledger_close (s : Fields) (c i : Nat) :
    (s.setSocket c
      { s.sockets c with closed := true, closers := (s.sockets c).closers ++ [i] }).ledger =
      s.ledger.close c i := by
  rw [ledger_setSocket]
  show Ledger.mk (Function.update s.ledger.opener c (s.ledger.opener c))
    (Function.update s.ledger.carried c (s.ledger.carried c)) _ _ = _
  rw [Function.update_eq_self, Function.update_eq_self]
  rfl

/-- From outside the view is created, or the server's side of a connection changes. -/
theorem outside_cases {s t : Fields} {event : Outside} (h : s.outside event = some t) :
    (event = .initView ∧ t = s.assignSocket) ∨
    (event ≠ .initView ∧ ∃ c replies hungUp,
      t = s.setSocket c { s.sockets c with replies := replies, hungUp := hungUp }) := by
  cases event with
  | initView => exact Or.inl ⟨rfl, (Option.some.inj h).symm⟩
  | reply c bytes =>
      obtain ⟨-, h⟩ := Option.ite_none_right_eq_some.1 h
      exact Or.inr ⟨by simp, c, _, _, (Option.some.inj h).symm⟩
  | hangUp c =>
      obtain ⟨-, h⟩ := Option.ite_none_right_eq_some.1 h
      exact Or.inr ⟨by simp, c, _, _, (Option.some.inj h).symm⟩

/-- A failure closes a socket that could not be connected, or changes nothing. -/
theorem fails_cases {s t : Fields} {loaded : Option Nat} {x : Instruction}
    (h : s.fails loaded x = some t) :
    (∃ c, t = s.setSocket c { s.sockets c with closed := true }) ∨ t = s := by
  rw [Fields.fails.eq_def] at h
  split at h
  · obtain ⟨c, -, h⟩ := Option.bind_eq_some_iff.1 h
    obtain ⟨-, h⟩ := Option.ite_none_left_eq_some.1 h
    exact Or.inl ⟨c, (Option.some.inj h).symm⟩
  · exact Or.inr (Option.some.inj h).symm
  · exact Or.inr (Option.some.inj h).symm
  · cases h

theorem outside_ledger {s t : Fields} {event : Outside} (h : s.outside event = some t) :
    t.ledger = s.ledger := by
  obtain ⟨-, rfl⟩ | ⟨-, c, replies, hungUp, rfl⟩ := outside_cases h
  · rfl
  · exact ledger_setSocket_same rfl rfl rfl

theorem fails_ledger {s t : Fields} {loaded : Option Nat} {x : Instruction}
    (h : s.fails loaded x = some t) : t.ledger = s.ledger := by
  obtain ⟨c, rfl⟩ | rfl := fails_cases h
  · exact ledger_setSocket_same rfl rfl rfl
  · rfl

/-- The call goes out on the connection of the socket `c`: bytes are sent, a reply is read, or the
socket is closed. -/
def Fields.uses (s : Fields) (c : Nat) : Call → Bool
  | .write _ => (s.sockets c).isOpen
  | .read =>
      !(s.sockets c).closed && !(s.sockets c).inputShutdown && !(s.sockets c).replies.isEmpty
  | .close => true
  | _ => false

/-- What a call needs of its socket `c`, apart from `connect` and from `shutdownInput`. -/
def Fields.ready (s : Fields) (c : Nat) : Call → Bool
  | .getOutputStream => (s.sockets c).isOpen
  | .write _ => (s.sockets c).isOpen
  | .getInputStream => (s.sockets c).isOpen && !(s.sockets c).inputShutdown
  | .read => !(s.sockets c).closed
  | _ => true

/-- What a call of the session `i` on the socket `c` can do to the connections. -/
inductive Effect (s : Fields) (i c : Nat) : Call → Ledger → Prop where
  | connected (hopener : s.ledger.opener c = none) :
      Effect s i c .connect (s.ledger.connect c i)
  | wrote (msg : List UInt8) (hopen : (s.sockets c).isOpen = true) :
      Effect s i c (.write msg) (s.ledger.write c msg)
  | received (huses : s.uses c .read = true) (bytes : List UInt8) :
      Effect s i c .read (s.ledger.receive c i bytes)
  | closed : Effect s i c .close (s.ledger.close c i)
  | unchanged {x : Call} (hconnect : x ≠ .connect) (hwrite : ∀ msg, x ≠ .write msg)
      (hclose : x ≠ .close) (huses : s.uses c x = false) : Effect s i c x s.ledger

theorem effect_of_call {s t : Fields} {i c : Nat} {x : Call} (h : s.call i c x = .returns t) :
    Effect s i c x t.ledger := by
  cases x with
  | connect =>
      rw [Fields.call] at h
      split_ifs at h with hused
      cases h
      rw [Bool.or_eq_true, not_or, Socket.isConnected, Option.not_isSome_iff_eq_none] at hused
      rw [ledger_connect]
      exact .connected hused.2
  | reportConnected =>
      cases h
      exact .unchanged (by simp) (by simp) (by simp) rfl
  | getOutputStream =>
      rw [Fields.call] at h
      split_ifs at h
      cases h
      exact .unchanged (by simp) (by simp) (by simp) rfl
  | write msg =>
      rw [Fields.call] at h
      split_ifs at h with hopen
      cases h
      rw [ledger_write]
      exact .wrote msg hopen
  | getInputStream =>
      rw [Fields.call] at h
      split_ifs at h
      cases h
      exact .unchanged (by simp) (by simp) (by simp) rfl
  | read =>
      have hread : s.read i c = .returns t := h
      rw [Fields.read] at hread
      dsimp only at hread
      split_ifs at hread with hclosed hshut hreplies hhungUp
      · cases hread
        exact .unchanged (by simp) (by simp) (by simp) (by simp [Fields.uses, hshut])
      · cases hread
        exact .unchanged (by simp) (by simp) (by simp) (by simp [Fields.uses, hreplies])
      · -- there are bytes to read
        cases hread
        have huses : s.uses c .read = true := by
          simp [Fields.uses, hclosed, hshut, hreplies]
        have hsame : (s.setSocket c { s.sockets c with
            replies := (s.sockets c).replies.drop Fields.bufferLength }).ledger = s.ledger :=
          ledger_setSocket_same rfl rfl rfl
        have hreceived := Effect.received (i := i) huses
          ((s.sockets c).replies.take Fields.bufferLength)
        rw [← hsame] at hreceived
        exact hreceived
  | close =>
      cases h
      rw [ledger_close]
      exact .closed
  | shutdownInput =>
      rw [Fields.call] at h
      split_ifs at h
      cases h
      have hsame : (s.setSocket c { s.sockets c with inputShutdown := true }).ledger = s.ledger :=
        ledger_setSocket_same rfl rfl rfl
      rw [hsame]
      exact .unchanged (by simp) (by simp) (by simp) rfl

/-- Only `connect` opens a connection. -/
theorem Effect.opener_eq {s : Fields} {i c : Nat} {x : Call} {l : Ledger} (h : Effect s i c x l)
    (hx : x ≠ .connect) : l.opener = s.ledger.opener := by
  cases h with
  | connected _ => exact absurd rfl hx
  | wrote _ _ => rfl
  | received _ _ => rfl
  | closed => rfl
  | unchanged _ _ _ _ => rfl

theorem Effect.opener_of_connect {s : Fields} {i c : Nat} {l : Ledger}
    (h : Effect s i c .connect l) : l.opener c = some i := by
  cases h with
  | connected _ => rw [Ledger.opener_connect, if_pos rfl]
  | unchanged hconnect _ _ _ => exact absurd rfl hconnect

/-- The fields of the fragment that name sockets and streams. -/
def Fields.names (s : Fields) : Option Nat × Option Nat × Option Nat := (s.socket, s.out, s.in_)

/-- No call assigns a field. -/
theorem names_of_call {s t : Fields} {i c : Nat} {x : Call} (h : s.call i c x = .returns t) :
    t.names = s.names := by
  cases x with
  | reportConnected =>
      cases h
      rfl
  | close =>
      cases h
      rfl
  | read =>
      have hread : s.read i c = .returns t := h
      rw [Fields.read] at hread
      dsimp only at hread
      split_ifs at hread <;> cases hread <;> rfl
  | _ =>
      rw [Fields.call] at h
      split_ifs at h
      cases h
      rfl

/-- No failure assigns a field. -/
theorem fails_names {s t : Fields} {loaded : Option Nat} {x : Instruction}
    (h : s.fails loaded x = some t) : t.names = s.names := by
  obtain ⟨c, rfl⟩ | rfl := fails_cases h
  · rfl
  · rfl

/-- From outside only the creation of the view assigns a field. -/
theorem outside_names {s t : Fields} {event : Outside} (hevent : event ≠ .initView)
    (h : s.outside event = some t) : t.names = s.names := by
  obtain ⟨hinit, -⟩ | ⟨-, c, replies, hungUp, rfl⟩ := outside_cases h
  · exact absurd hinit hevent
  · rfl

/-- A call is made on the loaded socket, which stays loaded. -/
theorem call_of_perform {s t : Fields} {i : Nat} {loaded m : Option Nat} {x : Call}
    (h : s.perform i loaded (.call x) = .returns (t, m)) :
    ∃ c, loaded = some c ∧ m = some c ∧ s.call i c x = .returns t := by
  cases loaded with
  | none => cases h
  | some c =>
      rw [Fields.perform] at h
      cases hcall : s.call i c x with
      | blocks =>
          rw [hcall] at h
          cases h
      | throws =>
          rw [hcall] at h
          cases h
      | returns u =>
          rw [hcall] at h
          cases h
          exact ⟨c, rfl, rfl, hcall⟩

/-- An instruction is a call on the loaded socket, or leaves the connections as they are. -/
theorem perform_cases {s t : Fields} {i : Nat} {loaded m : Option Nat} {x : Instruction}
    (h : s.perform i loaded x = .returns (t, m)) :
    (∃ c y, x = .call y ∧ loaded = some c ∧ m = some c ∧ s.call i c y = .returns t) ∨
      (∀ y, x ≠ .call y) ∧ t.ledger = s.ledger := by
  cases x with
  | call y =>
      obtain ⟨c, hloaded, hm, hcall⟩ := call_of_perform h
      exact Or.inl ⟨c, y, rfl, hloaded, hm, hcall⟩
  | newSocket =>
      cases h
      exact Or.inr ⟨by simp, rfl⟩
  | loadSocket =>
      cases h
      exact Or.inr ⟨by simp, rfl⟩
  | storeOut =>
      cases h
      exact Or.inr ⟨by simp, rfl⟩
  | loadOut =>
      cases h
      exact Or.inr ⟨by simp, rfl⟩
  | storeIn =>
      cases h
      exact Or.inr ⟨by simp, rfl⟩
  | loadIn =>
      cases h
      exact Or.inr ⟨by simp, rfl⟩
  | sendMessage what =>
      cases h
      exact Or.inr ⟨by simp, rfl⟩

/-- Only a call throws, and it does so on the loaded socket or on null. -/
theorem throws_cases {s : Fields} {i : Nat} {loaded : Option Nat} {x : Instruction}
    (h : s.perform i loaded x = .throws) :
    ∃ y, x = .call y ∧ ∀ c, loaded = some c → s.call i c y = .throws := by
  cases x with
  | call y =>
      refine ⟨y, rfl, ?_⟩
      rintro c rfl
      rw [Fields.perform] at h
      cases hcall : s.call i c y with
      | throws => rfl
      | blocks =>
          rw [hcall] at h
          cases h
      | returns t =>
          rw [hcall] at h
          cases h
  | _ => cases h

/-- A call that throws does not go out on the connection. -/
theorem not_uses_of_throws {s : Fields} {i c : Nat} {x : Call} (h : s.call i c x = .throws) :
    s.uses c x = false := by
  cases x with
  | write msg =>
      rw [Fields.call] at h
      split_ifs at h with hopen
      exact Bool.eq_false_iff.2 hopen
  | read =>
      have hread : s.read i c = .throws := h
      rw [Fields.read] at hread
      dsimp only at hread
      split_ifs at hread with hclosed
      simp [Fields.uses, hclosed]
  | close => cases h
  | _ => rfl

/-- A call that throws has not found its socket ready, unless it is `connect` or `shutdownInput`. -/
theorem not_ready_of_throws {s : Fields} {i c : Nat} {x : Call} (h : s.call i c x = .throws)
    (hconnect : x ≠ .connect) (hshutdown : x ≠ .shutdownInput) : s.ready c x = false := by
  cases x with
  | connect => exact absurd rfl hconnect
  | shutdownInput => exact absurd rfl hshutdown
  | reportConnected => cases h
  | close => cases h
  | read =>
      have hread : s.read i c = .throws := h
      rw [Fields.read] at hread
      dsimp only at hread
      split_ifs at hread with hclosed
      rw [Fields.ready, hclosed]
      rfl
  | _ =>
      rw [Fields.call] at h
      split_ifs at h with hready
      exact Bool.eq_false_iff.2 hready

/-- A call that returns has found its socket ready. -/
theorem ready_of_returns {s t : Fields} {i c : Nat} {x : Call} (h : s.call i c x = .returns t) :
    s.ready c x = true := by
  cases x with
  | read =>
      have hread : s.read i c = .returns t := h
      rw [Fields.read] at hread
      dsimp only at hread
      split_ifs at hread with hclosed
      all_goals exact Bool.not_eq_true' _ ▸ Bool.eq_false_iff.2 hclosed
  | getOutputStream =>
      rw [Fields.call] at h
      split_ifs at h with hready
      exact hready
  | write msg =>
      rw [Fields.call] at h
      split_ifs at h with hready
      exact hready
  | getInputStream =>
      rw [Fields.call] at h
      split_ifs at h with hready
      exact hready
  | _ => rfl

/-! ## Closing and shutting down -/

/-- Which sockets are closed, and which have their input shut down. -/
def Fields.ends (s : Fields) : (Nat → Bool) × (Nat → Bool) :=
  (fun c => (s.sockets c).closed, fun c => (s.sockets c).inputShutdown)

/-- Setting a socket leaves the ends as they are when the socket has the same. -/
theorem ends_setSocket_same {s : Fields} {c : Nat} {x : Socket}
    (hclosed : x.closed = (s.sockets c).closed)
    (hshut : x.inputShutdown = (s.sockets c).inputShutdown) : (s.setSocket c x).ends = s.ends := by
  have hcomp : ∀ (f : Socket → Bool), f x = f (s.sockets c) →
      (fun d => f ((s.setSocket c x).sockets d)) = fun d => f (s.sockets d) := by
    intro f hf
    show (f ∘ Function.update s.sockets c x) = _
    rw [Function.comp_update, hf]
    exact Function.update_eq_self c (f ∘ s.sockets)
  rw [Fields.ends, hcomp Socket.closed hclosed, hcomp Socket.inputShutdown hshut]
  rfl

/-- Only `close` and `shutdownInput` change the ends. -/
theorem ends_of_call {s t : Fields} {i c : Nat} {x : Call} (h : s.call i c x = .returns t)
    (hclose : x ≠ .close) (hshutdown : x ≠ .shutdownInput) : t.ends = s.ends := by
  cases x with
  | close => exact absurd rfl hclose
  | shutdownInput => exact absurd rfl hshutdown
  | reportConnected =>
      cases h
      rfl
  | read =>
      have hread : s.read i c = .returns t := h
      rw [Fields.read] at hread
      dsimp only at hread
      split_ifs at hread
      · cases hread
        rfl
      · cases hread
        rfl
      · cases hread
        exact ends_setSocket_same rfl rfl
  | connect =>
      rw [Fields.call] at h
      split_ifs at h
      cases h
      exact ends_setSocket_same rfl rfl
  | write msg =>
      rw [Fields.call] at h
      split_ifs at h
      cases h
      exact ends_setSocket_same rfl rfl
  | _ =>
      rw [Fields.call] at h
      split_ifs at h
      cases h
      rfl

theorem outside_ends {s t : Fields} {event : Outside} (h : s.outside event = some t) :
    t.ends = s.ends := by
  obtain ⟨-, rfl⟩ | ⟨-, c, replies, hungUp, rfl⟩ := outside_cases h
  · rfl
  · exact ends_setSocket_same rfl rfl

/-- `connect` opens a connection on a socket that has none and was not closed. -/
theorem new_of_connect {s t : Fields} {i c : Nat} (h : s.call i c .connect = .returns t) :
    (s.sockets c).closed = false ∧ (s.sockets c).opener = none := by
  rw [Fields.call] at h
  split_ifs at h with hused
  rw [Bool.or_eq_true, not_or, Socket.isConnected, Option.not_isSome_iff_eq_none] at hused
  exact ⟨Bool.eq_false_iff.2 hused.1, hused.2⟩

/-- Only a connected socket has its input shut down. -/
def Fields.Unshut (s : Fields) : Prop :=
  ∀ c, (s.sockets c).opener = none → (s.sockets c).inputShutdown = false

theorem Fields.Unshut.set {s : Fields} (h : s.Unshut) {c : Nat} {x : Socket}
    (hx : x.opener = none → x.inputShutdown = false) : (s.setSocket c x).Unshut := by
  intro d
  show (Function.update s.sockets c x d).opener = none →
    (Function.update s.sockets c x d).inputShutdown = false
  rw [Function.update_apply]
  split_ifs
  · exact hx
  · exact h d

theorem Fields.Unshut.call {s t : Fields} (h : s.Unshut) {i c : Nat} {x : Call}
    (hcall : s.call i c x = .returns t) : t.Unshut := by
  cases x with
  | reportConnected =>
      cases hcall
      exact h
  | close =>
      cases hcall
      exact h.set (h c)
  | read =>
      have hread : s.read i c = .returns t := hcall
      rw [Fields.read] at hread
      dsimp only at hread
      split_ifs at hread
      · cases hread
        exact h
      · cases hread
        exact h
      · cases hread
        exact h.set (h c)
  | connect =>
      rw [Fields.call] at hcall
      split_ifs at hcall
      cases hcall
      exact h.set fun hopener => (nomatch hopener)
  | write msg =>
      rw [Fields.call] at hcall
      split_ifs at hcall
      cases hcall
      exact h.set (h c)
  | shutdownInput =>
      rw [Fields.call] at hcall
      split_ifs at hcall with hready
      cases hcall
      apply h.set
      -- the socket is open, and so it is connected
      intro hopener
      simp [Socket.isOpen, Socket.isConnected, show (s.sockets c).opener = none from hopener]
        at hready
  | _ =>
      rw [Fields.call] at hcall
      split_ifs at hcall
      cases hcall
      exact h

theorem unshut_of_run {es : List (Event Button Outside)}
    {s : Config Fields Button Instruction (Option Nat)}
    (h : Run sessions.machine es s) : s.shared.Unshut := by
  apply h.invariant (I := fun s => s.shared.Unshut)
  · exact fun _ _ => rfl
  · intro s e s' hs _ hst
    cases steps_of_step hst with
    | started _ => exact hs
    | @returned i t x rest shared memory _ _ _ hperform =>
        cases x with
        | call y =>
            obtain ⟨c, -, -, hcall⟩ := call_of_perform hperform
            exact hs.call hcall
        | _ =>
            cases hperform
            exact hs
    | threw _ _ _ _ => exact hs
    | @failed i t x rest shared _ _ _ hfails =>
        obtain ⟨c, rfl⟩ | rfl := fails_cases hfails
        · exact hs.set (hs c)
        · exact hs
    | @outside event shared houtside =>
        obtain ⟨-, rfl⟩ | ⟨-, c, replies, hungUp, rfl⟩ := outside_cases houtside
        · exact hs
        · exact hs.set (hs c)

end IotClient.Video.ControlSession
