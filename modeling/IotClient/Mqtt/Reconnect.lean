import IotClient.Mqtt.Service

/-!
# Reconnecting after a lost connection

A service that has been started is dead when there is a network and no connectivity broadcast is
pending, and yet its client is neither subscribed on a connection nor connecting: no later event of
the code then leads to an attempt. `init`, `onFailure` and the broadcast receiver each restore an
attempt (`Linked.doClientConnection`), but the body of `connectionLost` is empty. So a run in which
the library accepts every call is free of dead states exactly when no connection of the current
client is lost with the network up, no broadcast pending and no attempt in flight
(`reconnect_iff`); losing the connection to a restarting broker is such a step (`brokerRestart`).
-/

set_option autoImplicit false

namespace IotClient.Mqtt.Reconnect

open IotClient.Foundation.Runs
open IotClient.Mqtt.Messages
open IotClient.Mqtt.Service

variable {F : Type} {N : Numbers F}

/-- The client library returns normally from the `connect` and `subscribe` calls of the event, and
the event does not end the service. -/
def accepted : Event → Bool
  | .onStartCommand accepts => accepts
  | .connectSuccess _ accepts => accepts
  | .connectFailure _ accepts => accepts
  | .broadcast accepts => accepts
  | .onDestroy _ => false
  | .connectionLost _ | .connectivity _ | .message _ _ => true

/-- Every call to the client library is accepted. -/
def Accepted : Guard (MQTTService F) Event := fun _ e => accepted e = true

/-- The current client loses its connection only without a network, with a broadcast pending or with
another attempt in flight. -/
def LossIsCovered : Guard (MQTTService F) Event := fun s e =>
  e = .connectionLost .current → ∀ c, s.client = some c →
    s.connectivity.active = true → s.broadcasts = 0 → 0 < c.inFlight

/-- With a network and no broadcast pending, the client of a started service is connected with its
subscriptions accepted, or connecting. -/
def NoDeadState (s : MQTTService F) : Prop :=
  ∀ c, s.client = some c → s.connectivity.active = true → s.broadcasts = 0 →
    (c.connected = true ∧ c.subscribed = true) ∨ 0 < c.inFlight

/-- What every started service keeps while its calls are accepted. -/
structure Linked (s : MQTTService F) : Prop where
  registered : ∀ c, s.client = some c → s.registered = true
  subscribed : ∀ c, s.client = some c → c.connected = true → c.subscribed = true

/-- `Linked`, and no dead state. -/
structure Alive (s : MQTTService F) : Prop extends Linked s where
  reachable : ∀ c, s.client = some c → s.connectivity.active = true → s.broadcasts = 0 →
    c.connected = true ∨ 0 < c.inFlight

theorem Alive.noDeadState {s : MQTTService F} (h : Alive s) : NoDeadState s := by
  intro c hc hactive hnone
  rcases h.reachable c hc hactive hnone with hconn | hpos
  · exact Or.inl ⟨hconn, h.subscribed c hc hconn⟩
  · exact Or.inr hpos

/-- `doClientConnection` leaves no dead state behind, whatever it finds. -/
theorem Linked.doClientConnection {s : MQTTService F} (h : Linked s) :
    Alive (s.doClientConnection true) := by
  obtain ⟨hframe, -⟩ := doClientConnection_frame s true
  have hclient : ∀ c', (s.doClientConnection true).client = some c' →
      ∃ c, s.client = some c ∧ c'.connected = c.connected ∧ c'.subscribed = c.subscribed ∧
        (s.connectivity.active = true → c.connected = true ∨ 0 < c'.inFlight) := by
    intro c' hc'
    rw [doClientConnection_client] at hc'
    obtain ⟨c, hc, rfl⟩ := Option.map_eq_some_iff.1 hc'
    refine ⟨c, hc, ?_⟩
    -- a new attempt, unless the client is connected or there is no network
    cases hconn : c.connected with
    | true => simp [hconn]
    | false => cases hactive : s.connectivity.active with
      | true => simp [MQTTService.isConnectIsNomarl, hactive]
      | false => simp [MQTTService.isConnectIsNomarl, hactive, hconn]
  refine ⟨⟨?_, ?_⟩, ?_⟩
  · intro c' hc'
    obtain ⟨c, hc, -⟩ := hclient c' hc'
    rw [hframe.registered]
    exact h.registered c hc
  · intro c' hc' hconn
    obtain ⟨c, hc, hconn', hsub, -⟩ := hclient c' hc'
    rw [hsub]
    apply h.subscribed c hc
    rw [← hconn', hconn]
  · intro c' hc' hactive _
    obtain ⟨c, hc, hconn', -, hreach⟩ := hclient c' hc'
    rw [hframe.connectivity] at hactive
    rw [hconn']
    exact hreach hactive

/-- An accepted `subscribe` keeps a service alive. -/
theorem Alive.subscribe {s : MQTTService F}
    (hreg : ∀ c, s.client = some c → s.registered = true)
    (hreach : ∀ c, s.client = some c → s.connectivity.active = true → s.broadcasts = 0 →
      c.connected = true ∨ 0 < c.inFlight) : Alive (s.subscribe true) := by
  obtain ⟨hframe, hbroadcasts⟩ := subscribe_frame s true
  -- an accepted call keeps the connection of the client, and subscribes it if it has one
  have hclient : ∀ c', (s.subscribe true).client = some c' →
      ∃ c, s.client = some c ∧ c'.connected = c.connected ∧ c'.inFlight = c.inFlight ∧
        (c'.connected = true → c'.subscribed = true) := by
    intro c' hc'
    rw [subscribe_client] at hc'
    obtain ⟨c, hc, rfl⟩ := Option.map_eq_some_iff.1 hc'
    refine ⟨c, hc, ?_⟩
    cases hconn : c.connected <;> simp [hconn]
  refine ⟨⟨?_, ?_⟩, ?_⟩
  · intro c' hc'
    obtain ⟨c, hc, -⟩ := hclient c' hc'
    rw [hframe.registered]
    exact hreg c hc
  · intro c' hc' hconn
    obtain ⟨c, hc, -, -, hsub⟩ := hclient c' hc'
    exact hsub hconn
  · intro c' hc' hactive hnone
    obtain ⟨c, hc, hconn, hflight, -⟩ := hclient c' hc'
    rw [hconn, hflight]
    rw [hframe.connectivity] at hactive
    rw [hbroadcasts] at hnone
    exact hreach c hc hactive hnone

theorem alive_step {s t : MQTTService F} {e : Event} (hs : Alive s) (ha : Accepted s e)
    (hl : LossIsCovered s e) (h : s.step N e = some t) : Alive t := by
  obtain ⟨accepts, rfl, -, rfl⟩ | ⟨who, accepts, c, rfl, hc, hpos, rfl⟩ |
    ⟨who, accepts, c, rfl, hc, hpos, rfl⟩ | ⟨who, c, rfl, hc, hconn, rfl⟩ | ⟨c, rfl, rfl⟩ |
    ⟨accepts, rfl, -, -, rfl⟩ | ⟨topic, payload, rfl, rfl⟩ | ⟨d, rfl, -, rfl⟩ := step_cases h
  · obtain rfl : accepts = true := ha
    rw [onStartCommand_eq]
    refine ⟨⟨fun _ _ => rfl, ?_⟩, ?_⟩
    · intro c hc hconn
      obtain rfl := Option.some.inj hc
      cases hconn
    · intro c hc hactive _
      obtain rfl := Option.some.inj hc
      -- `init` starts an attempt when there is a network
      have hactive : s.connectivity.active = true := hactive
      right
      simp [hactive]
  · obtain rfl : accepts = true := ha
    cases who with
    -- the connection is new, and the subscribe that follows is accepted
    | current =>
      apply Alive.subscribe
      · intro _ _
        exact hs.registered c hc
      · intro c' hc' _ _
        obtain rfl := Option.some.inj hc'
        exact Or.inl rfl
    | replaced i => exact Alive.subscribe hs.registered hs.reachable
  · obtain rfl : accepts = true := ha
    apply Linked.doClientConnection
    cases who with
    | current =>
      refine ⟨fun _ _ => hs.registered c hc, ?_⟩
      intro c' hc' hconn
      obtain rfl := Option.some.inj hc'
      exact hs.subscribed c hc hconn
    | replaced i => exact ⟨hs.registered, hs.subscribed⟩
  · cases who with
    | current =>
      refine ⟨⟨fun _ _ => hs.registered c hc, ?_⟩, ?_⟩
      · intro c' hc' hconn'
        obtain rfl := Option.some.inj hc'
        cases hconn'
      · -- the empty `connectionLost`: only another attempt in flight can help
        intro c' hc' hactive hnone
        obtain rfl := Option.some.inj hc'
        exact Or.inr (hl rfl c hc hactive hnone)
    | replaced i => exact ⟨⟨hs.registered, hs.subscribed⟩, hs.reachable⟩
  · refine ⟨⟨hs.registered, hs.subscribed⟩, ?_⟩
    intro c' hc' _ hnone
    -- a change of the connectivity is followed by a broadcast to the registered receiver
    have hreg := hs.registered c' hc'
    simp [hreg] at hnone
  · obtain rfl : accepts = true := ha
    rw [MQTTService.onReceive]
    split
    · -- without networks there is no active one
      rename_i hzero
      refine ⟨⟨hs.registered, hs.subscribed⟩, ?_⟩
      intro c' _ hactive _
      have := s.connectivity.networks_pos hactive
      have hzero : s.connectivity.networks = 0 := hzero
      omega
    · -- with a network the receiver calls `doClientConnection`
      exact Linked.doClientConnection ⟨hs.registered, hs.subscribed⟩
  · exact ⟨⟨hs.registered, hs.subscribed⟩, hs.reachable⟩
  · cases ha

theorem alive_of_run {c : Connectivity} {es : List Event} {s : MQTTService F}
    (h : RunUnder (machine N c) (fun s e => Accepted s e ∧ LossIsCovered s e) es s) : Alive s := by
  apply h.invariant
  · exact ⟨⟨fun _ hc => (nomatch hc), fun _ hc => (nomatch hc)⟩, fun _ hc => (nomatch hc)⟩
  · intro s e t hs hg hst
    exact alive_step hs hg.1 hg.2 hst

/-- A lost connection that no attempt, broadcast or missing network covers is a dead state. -/
theorem lossIsCovered_of_noDeadState {s t : MQTTService F} {e : Event} (h : s.step N e = some t)
    (ht : NoDeadState t) : LossIsCovered s e := by
  rintro rfl c hc hactive hnone
  simp only [MQTTService.step, MQTTService.get, hc, Option.bind_some,
    Option.ite_none_right_eq_some, Option.some.injEq] at h
  obtain ⟨-, rfl⟩ := h
  rcases ht c.onLost rfl hactive hnone with ⟨hconn, -⟩ | hpos
  · cases hconn
  · exact hpos

/-- When the library accepts every call, a run never passes through a dead state exactly when every
lost connection of the current client is covered. -/
theorem reconnect_iff (N : Numbers F) (c : Connectivity) (es : List Event) (s : MQTTService F) :
    RunUnder (machine N c) (fun s e => Accepted s e ∧ LossIsCovered s e) es s ↔
      RunUnder (machine N c) Accepted es s ∧ Always (machine N c) NoDeadState es := by
  apply always_iff
  · intro c hc
    cases hc
  · intro es s e t hrun _ ha hst
    constructor
    · intro hl
      exact (alive_step (alive_of_run hrun) ha hl hst).noDeadState
    · exact lossIsCovered_of_noDeadState hst

/-! ## A broker restart -/

/-- The client connects and subscribes, and then the broker drops the connection. -/
def brokerRestart : List Event :=
  [.onStartCommand true, .connectSuccess .current true, .connectionLost .current]

/-- After a broker restart the service of a device with a network is dead. -/
theorem dead_after_brokerRestart :
    ∃ s, RunUnder (machine decimalNumbers ⟨true, 1, fun _ => Nat.one_pos⟩) Accepted brokerRestart s ∧
      ¬ NoDeadState s := by
  have hexec : (((machine decimalNumbers ⟨true, 1, fun _ => Nat.one_pos⟩).restrict
      fun _ e => accepted e).exec brokerRestart).map
      (fun s => (s.client, s.connectivity.active, s.broadcasts)) =
        some (some ⟨true, false, false, 0⟩, true, 0) := by decide
  obtain ⟨s, hrun, hs⟩ := exists_run_of_exec _ _ _ hexec
  simp only [Prod.mk.injEq] at hs
  obtain ⟨hclient, hactive, hnone⟩ := hs
  refine ⟨s, runUnder_of_restrict (fun _ _ h => h) hrun, fun h => ?_⟩
  rcases h _ hclient hactive hnone with ⟨hconn, -⟩ | hpos
  · cases hconn
  · cases hpos

end IotClient.Mqtt.Reconnect
