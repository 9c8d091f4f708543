import IotClient.Foundation.Runs
import IotClient.Mqtt.Messages

/-!
# The MQTT service as an event machine

`MQTTService` keeps its client in a static field that `init` replaces on every `onStartCommand`.
The client objects it has created stay alive beside the field: their connect attempts are answered
through the one listener `iMqttActionListener`, and the broker's messages reach the one callback
`mqttCallback` of each of them. The machine below has all of them: the client of the field and the
clients it replaced, the registration of the network receiver, the connectivity of the device with
its broadcasts, and the events posted.

The client library answers by the arguments of an event: whether `connect` and `subscribe` return
normally or throw, and how `disconnect` ends. A connect attempt that was accepted stays in flight
until one `connectSuccess` or `connectFailure` answers it. The application's `minSdkVersion` is 21,
so `onReceive` takes its branch for API level 21 and above.
-/

set_option autoImplicit false

namespace IotClient.Mqtt.Service

open IotClient.Foundation.Runs
open IotClient.Mqtt.Messages

variable {F : Type}

/-- A `MqttAndroidClient` as the service uses it. `inFlight` counts the connect attempts not yet
answered; `subscribed` says that a subscribe was accepted on the present connection. -/
structure MqttAndroidClient where
  callback : Bool
  connected : Bool
  subscribed : Bool
  inFlight : Nat
deriving DecidableEq, Repr

/-- Connecting or connected, with `mqttCallback` attached. -/
def MqttAndroidClient.live (c : MqttAndroidClient) : Bool :=
  c.callback && (c.connected || decide (0 < c.inFlight))

/-- Neither connecting nor connected. -/
def MqttAndroidClient.Idle (c : MqttAndroidClient) : Prop := c.connected = false ∧ c.inFlight = 0

theorem MqttAndroidClient.Idle.not_live {c : MqttAndroidClient} (h : c.Idle) : c.live = false := by
  simp [MqttAndroidClient.live, h.1, h.2]

/-- What the code reads of the connectivity of the device: whether `getActiveNetworkInfo` gives an
available network, and the number of `getAllNetworks`, which the active network is one of. -/
structure Connectivity where
  active : Bool
  networks : Nat
  networks_pos : active = true → 0 < networks

/-- The service, the clients it has created, and what surrounds it. `replaced` has the clients that
the field `client` held before, oldest first. -/
structure MQTTService (F : Type) where
  client : Option MqttAndroidClient
  replaced : List MqttAndroidClient
  netWorkStateReceiver : Bool
  registered : Bool
  destroyed : Bool
  connectivity : Connectivity
  broadcasts : Nat
  posted : List (Reading F)

/-- All the clients the service has created. -/
def MQTTService.clients (s : MQTTService F) : List MqttAndroidClient :=
  s.replaced ++ s.client.toList

/-! ## The methods -/

/-- `isConnectIsNomarl`. -/
def MQTTService.isConnectIsNomarl (s : MQTTService F) : Bool := s.connectivity.active

/-- `doClientConnection`; `accepts` is false when `connect` throws, which the code only prints. -/
def MQTTService.doClientConnection (s : MQTTService F) (accepts : Bool) : MQTTService F :=
  match s.client with
  | none => s
  | some c =>
      -- `connect` is called without looking at attempts already in flight
      if !c.connected && s.isConnectIsNomarl && accepts then
        { s with client := some { c with inFlight := c.inFlight + 1 } }
      else s

/-- `init`: a new client takes the field, whatever the field held. -/
def MQTTService.init (s : MQTTService F) (accepts : Bool) : MQTTService F :=
  MQTTService.doClientConnection
    { s with client := some ⟨true, false, false, 0⟩, replaced := s.clients } accepts

/-- `onStartCommand`. -/
def MQTTService.onStartCommand (s : MQTTService F) (accepts : Bool) : MQTTService F :=
  { s.init accepts with netWorkStateReceiver := true, registered := true }

/-- How a call of `disconnect` ends. A call that returns has ended the connection; `abandons` says
whether it also gives up the connect attempts in flight. -/
inductive Disconnect where
  | throwsMqttException
  | returns (abandons : Bool)
deriving DecidableEq, Repr

/-- The client after a call of `disconnect` that returns. -/
def MqttAndroidClient.disconnect (c : MqttAndroidClient) (abandons : Bool) : MqttAndroidClient :=
  { c with
    connected := false, subscribed := false, inFlight := if abandons then 0 else c.inFlight }

/-- `unregisterReceiver`: the broadcasts not yet received are dropped. -/
def MQTTService.unregister (s : MQTTService F) : MQTTService F :=
  { s with registered := false, broadcasts := 0 }

/-- `onDestroy`. A null client is a `NullPointerException`, and a `MqttException` is caught around
both calls, so that in either case the receiver is not unregistered. -/
def MQTTService.onDestroy (s : MQTTService F) (d : Disconnect) : MQTTService F :=
  match s.client, d with
  | none, _ => { s with destroyed := true }
  | some _, .throwsMqttException => { s with destroyed := true }
  | some c, .returns abandons =>
      -- the receiver is unregistered behind `disconnect`, inside the same `try`
      let s := { s with client := some (c.disconnect abandons), destroyed := true }
      if s.netWorkStateReceiver then s.unregister else s

/-- Which of the created clients an event is about. -/
inductive Which where
  | current
  | replaced (i : Nat)
deriving DecidableEq, Repr

/-- The client an event is about. -/
def MQTTService.get (s : MQTTService F) : Which → Option MqttAndroidClient
  | .current => s.client
  | .replaced i => s.replaced[i]?

/-- The service with that client changed. -/
def MQTTService.set (s : MQTTService F) (c : MqttAndroidClient) : Which → MQTTService F
  | .current => { s with client := some c }
  | .replaced i => { s with replaced := s.replaced.set i c }

/-- A client whose connect attempt succeeded. A second success on one connection changes nothing
of it; a new connection starts without subscriptions. -/
def MqttAndroidClient.onConnected (c : MqttAndroidClient) : MqttAndroidClient :=
  { c with inFlight := c.inFlight - 1, connected := true, subscribed := c.connected && c.subscribed }

/-- `client.subscribe(myTopic, Qos)` on the client of the field, whichever client's attempt
succeeded; it is accepted on a connected client when `accepts`. -/
def MQTTService.subscribe (s : MQTTService F) (accepts : Bool) : MQTTService F :=
  match s.client with
  | none => s
  | some c =>
      if c.connected && accepts then { s with client := some { c with subscribed := true } } else s

/-- A client that lost its connection. -/
def MqttAndroidClient.onLost (c : MqttAndroidClient) : MqttAndroidClient :=
  { c with connected := false, subscribed := false }

/-- `NetWorkStateReceiver.onReceive`. -/
def MQTTService.onReceive (s : MQTTService F) (accepts : Bool) : MQTTService F :=
  if s.connectivity.networks = 0 then s else s.doClientConnection accepts

/-- The posts that one call of `messageArrived` makes. -/
def posts (N : Numbers F) (topic payload : String) : List (Reading F) :=
  match parseMessage N topic payload with
  | .ok (some m) => [m]
  | _ => []

/-- The clients that hand a message of the subscribed topics to `mqttCallback`. -/
def MQTTService.receivers (s : MQTTService F) : List MqttAndroidClient :=
  s.clients.filter fun c => c.callback && c.connected && c.subscribed

/-! ## The machine -/

/-- What happens around the service. -/
inductive Event where
  | onStartCommand (accepts : Bool)
  | connectSuccess (who : Which) (accepts : Bool)
  | connectFailure (who : Which) (accepts : Bool)
  | connectionLost (who : Which)
  | connectivity (c : Connectivity)
  | broadcast (accepts : Bool)
  | message (topic payload : String)
  | onDestroy (d : Disconnect)

/-- One event. `connectionLost` of the callback has an empty body. -/
def MQTTService.step (N : Numbers F) (s : MQTTService F) : Event → Option (MQTTService F)
  | .onStartCommand accepts => if s.destroyed then none else some (s.onStartCommand accepts)
  | .connectSuccess who accepts =>
      (s.get who).bind fun c =>
        if c.inFlight = 0 then none else some ((s.set c.onConnected who).subscribe accepts)
  | .connectFailure who accepts =>
      (s.get who).bind fun c =>
        if c.inFlight = 0 then none
        else some ((s.set { c with inFlight := c.inFlight - 1 } who).doClientConnection accepts)
  | .connectionLost who =>
      (s.get who).bind fun c => if c.connected then some (s.set c.onLost who) else none
  | .connectivity c =>
      some { s with connectivity := c, broadcasts := s.broadcasts + if s.registered then 1 else 0 }
  | .broadcast accepts =>
      if s.registered ∧ 0 < s.broadcasts then
        some (MQTTService.onReceive { s with broadcasts := s.broadcasts - 1 } accepts)
      else none
  | .message topic payload =>
      some { s with posted := s.posted ++ s.receivers.flatMap fun _ => posts N topic payload }
  | .onDestroy d => if s.destroyed then none else some (s.onDestroy d)

/-- The service before its first start, on a device with connectivity `c`. -/
def machine (N : Numbers F) (c : Connectivity) : Machine (MQTTService F) Event where
  init := ⟨none, [], false, false, false, c, 0, []⟩
  step := MQTTService.step N

variable {N : Numbers F}

/-- What one event does. -/
theorem step_cases {s t : MQTTService F} {e : Event} (h : s.step N e = some t) :
    (∃ accepts, e = .onStartCommand accepts ∧ s.destroyed = false ∧ t = s.onStartCommand accepts) ∨
    (∃ who accepts c, e = .connectSuccess who accepts ∧ s.get who = some c ∧ 0 < c.inFlight ∧
      t = (s.set c.onConnected who).subscribe accepts) ∨
    (∃ who accepts c, e = .connectFailure who accepts ∧ s.get who = some c ∧ 0 < c.inFlight ∧
      t = (s.set { c with inFlight := c.inFlight - 1 } who).doClientConnection accepts) ∨
    (∃ who c, e = .connectionLost who ∧ s.get who = some c ∧ c.connected = true ∧
      t = s.set c.onLost who) ∨
    (∃ c, e = .connectivity c ∧ t = { s with
      connectivity := c, broadcasts := s.broadcasts + if s.registered then 1 else 0 }) ∨
    (∃ accepts, e = .broadcast accepts ∧ s.registered = true ∧ 0 < s.broadcasts ∧
      t = MQTTService.onReceive { s with broadcasts := s.broadcasts - 1 } accepts) ∨
    (∃ topic payload, e = .message topic payload ∧ t = { s with
      posted := s.posted ++ s.receivers.flatMap fun _ => posts N topic payload }) ∨
    (∃ d, e = .onDestroy d ∧ s.destroyed = false ∧ t = s.onDestroy d) := by
  cases e with
  | onStartCommand accepts =>
      simp only [MQTTService.step, Option.ite_none_left_eq_some, Option.some.injEq] at h
      obtain ⟨hd, rfl⟩ := h
      exact Or.inl ⟨accepts, rfl, by simpa using hd, rfl⟩
  | connectSuccess who accepts =>
      simp only [MQTTService.step, Option.bind_eq_some_iff, Option.ite_none_left_eq_some,
        Option.some.injEq] at h
      obtain ⟨c, hc, hpos, rfl⟩ := h
      exact Or.inr (Or.inl ⟨who, accepts, c, rfl, hc, by omega, rfl⟩)
  | connectFailure who accepts =>
      simp only [MQTTService.step, Option.bind_eq_some_iff, Option.ite_none_left_eq_some,
        Option.some.injEq] at h
      obtain ⟨c, hc, hpos, rfl⟩ := h
      exact Or.inr (Or.inr (Or.inl ⟨who, accepts, c, rfl, hc, by omega, rfl⟩))
  | connectionLost who =>
      simp only [MQTTService.step, Option.bind_eq_some_iff, Option.ite_none_right_eq_some,
        Option.some.injEq] at h
      obtain ⟨c, hc, hconn, rfl⟩ := h
      exact Or.inr (Or.inr (Or.inr (Or.inl ⟨who, c, rfl, hc, hconn, rfl⟩)))
  | connectivity c =>
      exact Or.inr (Or.inr (Or.inr (Or.inr (Or.inl ⟨c, rfl, (Option.some.inj h).symm⟩))))
  | broadcast accepts =>
      simp only [MQTTService.step, Option.ite_none_right_eq_some, Option.some.injEq] at h
      obtain ⟨⟨hreg, hpos⟩, rfl⟩ := h
      exact Or.inr (Or.inr (Or.inr (Or.inr (Or.inr (Or.inl ⟨accepts, rfl, hreg, hpos, rfl⟩)))))
  | message topic payload =>
      exact Or.inr (Or.inr (Or.inr (Or.inr (Or.inr (Or.inr (Or.inl
        ⟨topic, payload, rfl, (Option.some.inj h).symm⟩))))))
  | onDestroy d =>
      simp only [MQTTService.step, Option.ite_none_left_eq_some, Option.some.injEq] at h
      obtain ⟨hd, rfl⟩ := h
      exact Or.inr (Or.inr (Or.inr (Or.inr (Or.inr (Or.inr (Or.inr
        ⟨d, rfl, by simpa using hd, rfl⟩))))))

/-! ## What the methods leave alone -/

/-- Two states of the service that differ at most in the client of the field and the broadcasts. -/
structure SameFrame (s t : MQTTService F) : Prop where
  replaced : t.replaced = s.replaced
  netWorkStateReceiver : t.netWorkStateReceiver = s.netWorkStateReceiver
  registered : t.registered = s.registered
  destroyed : t.destroyed = s.destroyed
  connectivity : t.connectivity = s.connectivity
  posted : t.posted = s.posted

theorem doClientConnection_frame (s : MQTTService F) (accepts : Bool) :
    SameFrame s (s.doClientConnection accepts) ∧
      (s.doClientConnection accepts).broadcasts = s.broadcasts := by
  rcases s with ⟨- | c, replaced, receiver, registered, destroyed, connectivity, broadcasts, posted⟩
  · exact ⟨⟨rfl, rfl, rfl, rfl, rfl, rfl⟩, rfl⟩
  · simp only [MQTTService.doClientConnection]
    split <;> exact ⟨⟨rfl, rfl, rfl, rfl, rfl, rfl⟩, rfl⟩

/-- `doClientConnection` starts at most one attempt on the client of the field. -/
theorem doClientConnection_client (s : MQTTService F) (accepts : Bool) :
    (s.doClientConnection accepts).client = s.client.map fun c =>
      if !c.connected && s.isConnectIsNomarl && accepts then
        { c with inFlight := c.inFlight + 1 }
      else c := by
  cases hc : s.client with
  | none => simp [MQTTService.doClientConnection, hc]
  | some c =>
      simp only [MQTTService.doClientConnection, hc, Option.map_some]
      split <;> simp [hc]

theorem subscribe_frame (s : MQTTService F) (accepts : Bool) :
    SameFrame s (s.subscribe accepts) ∧ (s.subscribe accepts).broadcasts = s.broadcasts := by
  rcases s with ⟨- | c, replaced, receiver, registered, destroyed, connectivity, broadcasts, posted⟩
  · exact ⟨⟨rfl, rfl, rfl, rfl, rfl, rfl⟩, rfl⟩
  · simp only [MQTTService.subscribe]
    split <;> exact ⟨⟨rfl, rfl, rfl, rfl, rfl, rfl⟩, rfl⟩

theorem subscribe_client (s : MQTTService F) (accepts : Bool) :
    (s.subscribe accepts).client = s.client.map fun c =>
      if c.connected && accepts then { c with subscribed := true } else c := by
  cases hc : s.client with
  | none => simp [MQTTService.subscribe, hc]
  | some c =>
      simp only [MQTTService.subscribe, hc, Option.map_some]
      split <;> simp [hc]

/-- A start: a new client in the field, connecting when there is a network and `connect` accepts,
and the receiver registered. -/
theorem onStartCommand_eq (s : MQTTService F) (accepts : Bool) :
    s.onStartCommand accepts = { s with
      client := some ⟨true, false, false, if s.connectivity.active && accepts then 1 else 0⟩
      replaced := s.clients
      netWorkStateReceiver := true
      registered := true } := by
  rw [MQTTService.onStartCommand, MQTTService.init, MQTTService.doClientConnection]
  cases h : s.connectivity.active && accepts with
  | true => simp [MQTTService.isConnectIsNomarl, h]
  | false => simp [MQTTService.isConnectIsNomarl, h]

/-- The three ends of `onDestroy`. -/
theorem onDestroy_cases (s : MQTTService F) (d : Disconnect) :
    (s.client = none ∧ s.onDestroy d = { s with destroyed := true }) ∨
    (∃ c, s.client = some c ∧ d = .throwsMqttException ∧
      s.onDestroy d = { s with destroyed := true }) ∨
    (∃ c abandons, s.client = some c ∧ d = .returns abandons ∧ s.onDestroy d = { s with
      client := some (c.disconnect abandons)
      destroyed := true
      registered := s.registered && !s.netWorkStateReceiver
      broadcasts := if s.netWorkStateReceiver then 0 else s.broadcasts }) := by
  rcases s with ⟨- | c, replaced, - | -, registered, destroyed, connectivity, broadcasts, posted⟩
  · exact Or.inl ⟨rfl, rfl⟩
  · exact Or.inl ⟨rfl, rfl⟩
  · cases d with
    | throwsMqttException => exact Or.inr (Or.inl ⟨c, rfl, rfl, rfl⟩)
    | returns abandons =>
        exact Or.inr (Or.inr ⟨c, abandons, rfl, rfl, by simp [MQTTService.onDestroy]⟩)
  · cases d with
    | throwsMqttException => exact Or.inr (Or.inl ⟨c, rfl, rfl, rfl⟩)
    | returns abandons =>
        refine Or.inr (Or.inr ⟨c, abandons, rfl, rfl, ?_⟩)
        simp [MQTTService.onDestroy, MQTTService.unregister]

theorem onReceive_frame (s : MQTTService F) (accepts : Bool) :
    SameFrame s (s.onReceive accepts) ∧ (s.onReceive accepts).broadcasts = s.broadcasts := by
  rw [MQTTService.onReceive]
  split
  · exact ⟨⟨rfl, rfl, rfl, rfl, rfl, rfl⟩, rfl⟩
  · exact doClientConnection_frame s accepts

end IotClient.Mqtt.Service
