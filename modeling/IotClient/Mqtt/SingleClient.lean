import IotClient.Mqtt.Service

/-!
# At most one live MQTT client

`init` replaces the client of the field without disconnecting it. As long as every `onStartCommand`
finds the clients created so far idle (`StartsIdle`), the replaced clients stay idle for ever,
because only the client of the field is ever connected; so at most one client is live and a broker
message makes at most one post. When besides every `onDestroy` calls a `disconnect` that returns and
leaves no attempt in flight (`EndsClean`), a destroyed service has no live client and no registered
receiver.

The conditions are needed: a start with a network over a live client makes a second live client
(`two_live_of_start`), so that two clients post every message (`second_start_doubles`); a
`disconnect` that throws leaves the receiver registered (`registered_of_throwing_disconnect`), and
one that returns while an attempt goes on leaves a live client (`live_of_pending_disconnect`).
-/

set_option autoImplicit false

namespace IotClient.Mqtt.SingleClient

open IotClient.Foundation.Runs
open IotClient.Mqtt.Messages
open IotClient.Mqtt.Service

variable {F : Type} {N : Numbers F}

/-- Every start of the service finds the clients created so far neither connecting nor connected. -/
def StartsIdle : Guard (MQTTService F) Event := fun s e =>
  ∀ accepts, e = .onStartCommand accepts → ∀ c ∈ s.clients, c.Idle

/-- Every `disconnect` of `onDestroy` returns, and no connect attempt outlives it. -/
def EndsClean : Guard (MQTTService F) Event := fun s e =>
  ∀ d, e = .onDestroy d → ∀ c, s.client = some c →
    ∃ abandons, d = .returns abandons ∧ (abandons = true ∨ c.inFlight = 0)

/-- The replaced clients are idle. -/
def Quiet (s : MQTTService F) : Prop := ∀ c ∈ s.replaced, c.Idle

theorem Quiet.get {s : MQTTService F} (h : Quiet s) {i : Nat} {c : MqttAndroidClient}
    (hc : s.get (.replaced i) = some c) : c.Idle :=
  h c (List.mem_of_getElem? hc)

/-- An event about a client that is not idle is about the client of the field. -/
theorem Quiet.current {s : MQTTService F} (h : Quiet s) {who : Which} {c : MqttAndroidClient}
    (hc : s.get who = some c) (hbusy : ¬ c.Idle) : who = .current := by
  cases who with
  | current => rfl
  | replaced i => exact absurd (h.get hc) hbusy

theorem quiet_step {s t : MQTTService F} {e : Event} (hs : Quiet s) (hg : StartsIdle s e)
    (h : s.step N e = some t) : Quiet t := by
  have keep : ∀ {u : MQTTService F}, u.replaced = s.replaced → Quiet u := by
    intro u hu c hc
    rw [hu] at hc
    exact hs c hc
  obtain ⟨accepts, rfl, -, rfl⟩ | ⟨who, accepts, c, rfl, hc, hpos, rfl⟩ |
    ⟨who, accepts, c, rfl, hc, hpos, rfl⟩ | ⟨who, c, rfl, hc, hconn, rfl⟩ | ⟨c, rfl, rfl⟩ |
    ⟨accepts, rfl, -, -, rfl⟩ | ⟨topic, payload, rfl, rfl⟩ | ⟨d, rfl, -, rfl⟩ := step_cases h
  · -- the one event that grows the list: it adds the client of the field, idle by the guard
    rw [onStartCommand_eq]
    exact hg accepts rfl
  · obtain rfl := hs.current hc fun hidle => by have := hidle.2; omega
    exact keep (subscribe_frame _ accepts).1.replaced
  · obtain rfl := hs.current hc fun hidle => by have := hidle.2; omega
    exact keep (doClientConnection_frame _ accepts).1.replaced
  · obtain rfl := hs.current hc fun hidle => by simp [hidle.1] at hconn
    exact keep rfl
  · exact keep rfl
  · exact keep (onReceive_frame _ accepts).1.replaced
  · exact keep rfl
  · apply keep
    obtain ⟨-, heq⟩ | ⟨c, -, -, heq⟩ | ⟨c, abandons, -, -, heq⟩ := onDestroy_cases s d
    · rw [heq]
    · rw [heq]
    · rw [heq]

/-- With the replaced clients idle at most one created client is live. -/
theorem Quiet.filter_live {s : MQTTService F} (h : Quiet s) :
    (s.clients.filter MqttAndroidClient.live).length ≤ 1 := by
  have hreplaced : s.replaced.filter MqttAndroidClient.live = [] := by
    rw [List.filter_eq_nil_iff]
    intro c hc
    simp [(h c hc).not_live]
  rw [MQTTService.clients, List.filter_append, hreplaced, List.nil_append]
  calc
    (s.client.toList.filter MqttAndroidClient.live).length ≤ s.client.toList.length :=
      List.length_filter_le ..
    _ ≤ 1 := by cases s.client <;> simp

theorem posts_length_le (N : Numbers F) (topic payload : String) :
    (posts N topic payload).length ≤ 1 := by
  rw [posts]
  split <;> simp

/-- A client that receives messages is live. -/
theorem receivers_length_le (s : MQTTService F) :
    s.receivers.length ≤ (s.clients.filter MqttAndroidClient.live).length := by
  have hsub : s.receivers = (s.clients.filter MqttAndroidClient.live).filter
      fun c => c.callback && c.connected && c.subscribed := by
    rw [List.filter_filter]
    refine List.filter_congr fun c _ => ?_
    cases h1 : c.callback <;> cases h2 : c.connected <;> simp [MqttAndroidClient.live, h1, h2]
  rw [hsub]
  exact List.length_filter_le ..

/-- A broker message makes at most one post. -/
theorem Quiet.posted_le {s t : MQTTService F} (h : Quiet s) {topic payload : String}
    (hst : s.step N (.message topic payload) = some t) :
    t.posted.length ≤ s.posted.length + 1 := by
  obtain rfl := Option.some.inj hst
  have hle : s.receivers.length ≤ 1 := (receivers_length_le s).trans h.filter_live
  have hposts := posts_length_le N topic payload
  show (s.posted ++ s.receivers.flatMap fun _ => posts N topic payload).length ≤ _
  rw [List.length_append]
  match hr : s.receivers with
  | [] => simp
  | [c] => simpa using hposts
  | _ :: _ :: _ => simp [hr] at hle

/-- The bookkeeping of the receiver, and the end of the service: a destroyed service is closed. -/
structure Closed (s : MQTTService F) : Prop where
  receiver : s.registered = true → s.netWorkStateReceiver = true
  unstarted : s.client = none → s.registered = false
  client : s.destroyed = true → ∀ c, s.client = some c → c.Idle
  registered : s.destroyed = true → s.registered = false

/-- Methods that change the client of the field only keep a service closed while it is not yet
destroyed. -/
theorem Closed.of_frame {s t : MQTTService F} (h : Closed s) (hf : SameFrame s t)
    (hclient : t.client = none → s.client = none) (hlive : s.destroyed = false) : Closed t where
  receiver := by
    rw [hf.registered, hf.netWorkStateReceiver]
    exact h.receiver
  unstarted := by
    intro hc
    rw [hf.registered]
    exact h.unstarted (hclient hc)
  client := by
    intro hd
    rw [hf.destroyed, hlive] at hd
    cases hd
  registered := by
    intro hd
    rw [hf.destroyed, hlive] at hd
    cases hd

theorem closed_step {s t : MQTTService F} {e : Event} (hq : Quiet s) (hs : Closed s)
    (hg : EndsClean s e) (h : s.step N e = some t) : Closed t := by
  -- a client that is still connecting or connected belongs to a service that is not destroyed
  have hlive : ∀ {c : MqttAndroidClient}, s.client = some c → ¬ c.Idle → s.destroyed = false := by
    intro c hc hbusy
    cases hd : s.destroyed with
    | false => rfl
    | true => exact absurd (hs.client hd c hc) hbusy
  obtain ⟨accepts, rfl, hd, rfl⟩ | ⟨who, accepts, c, rfl, hc, hpos, rfl⟩ |
    ⟨who, accepts, c, rfl, hc, hpos, rfl⟩ | ⟨who, c, rfl, hc, hconn, rfl⟩ | ⟨c, rfl, rfl⟩ |
    ⟨accepts, rfl, hreg, -, rfl⟩ | ⟨topic, payload, rfl, rfl⟩ | ⟨d, rfl, hd, rfl⟩ := step_cases h
  · rw [onStartCommand_eq]
    -- a destroyed service is not started
    refine ⟨fun _ => rfl, fun hnone => ?_, fun ht => ?_, fun ht => ?_⟩
    · cases hnone
    · exact absurd (hd.symm.trans ht) Bool.false_ne_true
    · exact absurd (hd.symm.trans ht) Bool.false_ne_true
  · obtain rfl := hq.current hc fun hidle => by have := hidle.2; omega
    have hd := hlive hc fun hidle => by have := hidle.2; omega
    refine hs.of_frame (t := _) ?_ ?_ hd
    · obtain ⟨hf, -⟩ := subscribe_frame (s.set c.onConnected .current) accepts
      exact ⟨hf.replaced, hf.netWorkStateReceiver, hf.registered, hf.destroyed, hf.connectivity,
        hf.posted⟩
    · intro hnone
      rw [subscribe_client] at hnone
      simp [MQTTService.set] at hnone
  · obtain rfl := hq.current hc fun hidle => by have := hidle.2; omega
    have hd := hlive hc fun hidle => by have := hidle.2; omega
    refine hs.of_frame (t := _) ?_ ?_ hd
    · obtain ⟨hf, -⟩ := doClientConnection_frame
        (s.set { c with inFlight := c.inFlight - 1 } .current) accepts
      exact ⟨hf.replaced, hf.netWorkStateReceiver, hf.registered, hf.destroyed, hf.connectivity,
        hf.posted⟩
    · intro hnone
      rw [doClientConnection_client] at hnone
      simp [MQTTService.set] at hnone
  · obtain rfl := hq.current hc fun hidle => by simp [hidle.1] at hconn
    have hd := hlive hc fun hidle => by simp [hidle.1] at hconn
    refine hs.of_frame ⟨rfl, rfl, rfl, rfl, rfl, rfl⟩ (fun hnone => ?_) hd
    simp [MQTTService.set] at hnone
  · exact ⟨hs.receiver, hs.unstarted, hs.client, hs.registered⟩
  · -- a registered receiver belongs to a service that is not destroyed
    have hd : s.destroyed = false := by
      cases hd : s.destroyed with
      | false => rfl
      | true => simp [hs.registered hd] at hreg
    obtain ⟨hf, -⟩ := onReceive_frame { s with broadcasts := s.broadcasts - 1 } accepts
    refine hs.of_frame (t := _) ⟨hf.replaced, hf.netWorkStateReceiver, hf.registered, hf.destroyed,
      hf.connectivity, hf.posted⟩ (fun hnone => ?_) hd
    rw [MQTTService.onReceive] at hnone
    split at hnone
    · exact hnone
    · rw [doClientConnection_client] at hnone
      simpa using hnone
  · exact ⟨hs.receiver, hs.unstarted, hs.client, hs.registered⟩
  · obtain ⟨hc, heq⟩ | ⟨c, hc, rfl, -⟩ | ⟨c, abandons, hc, rfl, heq⟩ := onDestroy_cases s d
    · rw [heq]
      refine ⟨hs.receiver, hs.unstarted, fun _ c' hc' => ?_, fun _ => hs.unstarted hc⟩
      exact absurd (hc.symm.trans hc') (by simp)
    · -- a `disconnect` that throws is excluded by the guard
      obtain ⟨abandons, h, -⟩ := hg _ rfl c hc
      cases h
    · obtain ⟨abandons', h, hclean⟩ := hg _ rfl c hc
      obtain rfl : abandons = abandons' := by simpa using h
      have hreg : (s.registered && !s.netWorkStateReceiver) = false := by
        cases hreg : s.registered with
        | false => rfl
        | true => simp [hs.receiver hreg]
      rw [heq]
      refine ⟨fun h => ?_, fun hnone => ?_, fun _ c' hc' => ?_, fun _ => hreg⟩
      · exact absurd (hreg.symm.trans h) Bool.false_ne_true
      · cases hnone
      · obtain rfl := Option.some.inj hc'
        refine ⟨rfl, ?_⟩
        -- no attempt outlives the call: it was given up, or there was none
        rcases hclean with rfl | hzero
        · rfl
        · simp [MqttAndroidClient.disconnect, hzero]

/-! ## Runs -/

/-- At most one created client is live, and a broker message makes at most one post. -/
structure OneLive (N : Numbers F) (s : MQTTService F) : Prop where
  live : (s.clients.filter MqttAndroidClient.live).length ≤ 1
  message : ∀ topic payload t, s.step N (.message topic payload) = some t →
    t.posted.length ≤ s.posted.length + 1

/-- A destroyed service has no live client and no registered receiver. -/
def ShutDown (s : MQTTService F) : Prop :=
  s.destroyed = true → (∀ c ∈ s.clients, c.live = false) ∧ s.registered = false

theorem quiet_of_run {c : Connectivity} {es : List Event} {s : MQTTService F}
    (h : RunUnder (machine N c) StartsIdle es s) : Quiet s := by
  refine h.invariant ?_ ?_
  · intro c hc
    simp [machine] at hc
  · intro s e t hI hg hst
    exact quiet_step hI hg hst

theorem shutDown_of_run {c : Connectivity} {es : List Event} {s : MQTTService F}
    (h : RunUnder (machine N c) (fun s e => StartsIdle s e ∧ EndsClean s e) es s) :
    ShutDown s := by
  have hinv : Quiet s ∧ Closed s := by
    refine h.invariant (I := fun s => Quiet s ∧ Closed s) ⟨?_, ?_⟩ ?_
    · intro c hc
      simp [machine] at hc
    · exact ⟨fun h => (nomatch h), fun _ => rfl, fun h => (nomatch h), fun h => (nomatch h)⟩
    · intro s e t hI hg hst
      exact ⟨quiet_step hI.1 hg.1 hst, closed_step hI.1 hI.2 hg.2 hst⟩
  intro hd
  refine ⟨fun c hc => ?_, hinv.2.registered hd⟩
  -- the replaced clients are idle in every state, the last one by the clean end
  rcases List.mem_append.1 hc with hc | hc
  · exact (hinv.1 c hc).not_live
  · exact (hinv.2.client hd c (by simpa using hc)).not_live

/-- When every start finds the earlier clients idle there is one live client at most, and when the
end of the service besides disconnects cleanly nothing is left of it. -/
theorem single_client (N : Numbers F) (c : Connectivity) {es : List Event} {s : MQTTService F}
    (h : RunUnder (machine N c) StartsIdle es s) :
    OneLive N s ∧
      (RunUnder (machine N c) (fun s e => StartsIdle s e ∧ EndsClean s e) es s → ShutDown s) := by
  have hq := quiet_of_run h
  refine ⟨⟨hq.filter_live, fun topic payload t hst => hq.posted_le hst⟩, fun hclean => ?_⟩
  exact shutDown_of_run hclean

/-! ## Steps that break the conditions -/

/-- A start with a network over a live client makes a second one. -/
theorem two_live_of_start {s : MQTTService F} {c : MqttAndroidClient} (hc : c ∈ s.clients)
    (hlive : c.live = true) (hactive : s.connectivity.active = true) :
    2 ≤ ((s.onStartCommand true).clients.filter MqttAndroidClient.live).length := by
  have hold : 0 < (s.clients.filter MqttAndroidClient.live).length :=
    List.length_pos_of_mem (List.mem_filter.2 ⟨hc, hlive⟩)
  -- the replaced clients of the new state are the old clients, and the new client is connecting
  have hnew : (s.onStartCommand true).clients = s.clients ++ [⟨true, false, false, 1⟩] := by
    rw [onStartCommand_eq]
    simp [MQTTService.clients, hactive]
  rw [hnew, List.filter_append, List.length_append]
  simp only [List.filter, MqttAndroidClient.live, Bool.true_and, Bool.false_or]
  exact Nat.succ_le_succ hold

/-- A `disconnect` that throws leaves the receiver of the destroyed service registered. -/
theorem registered_of_throwing_disconnect {s : MQTTService F} (hc : s.client ≠ none)
    (hreg : s.registered = true) : ¬ ShutDown (s.onDestroy .throwsMqttException) := by
  intro h
  obtain ⟨hnone, -⟩ | ⟨c, -, -, heq⟩ | ⟨c, abandons, -, hd, -⟩ :=
    onDestroy_cases s .throwsMqttException
  · exact hc hnone
  · rw [heq] at h
    have := (h rfl).2
    simp [hreg] at this
  · cases hd

/-- A `disconnect` that returns while an attempt goes on leaves a live client. -/
theorem live_of_pending_disconnect {s : MQTTService F} {c : MqttAndroidClient}
    (hc : s.client = some c) (hcallback : c.callback = true) (hpos : 0 < c.inFlight) :
    ¬ ShutDown (s.onDestroy (.returns false)) := by
  intro h
  obtain ⟨hnone, -⟩ | ⟨c', -, hd, -⟩ | ⟨c', abandons, hc', hd, heq⟩ :=
    onDestroy_cases s (.returns false)
  · simp [hc] at hnone
  · cases hd
  · obtain rfl := Option.some.inj (hc.symm.trans hc')
    obtain rfl : false = abandons := by simpa using hd
    rw [heq] at h
    have := (h rfl).1 (c.disconnect false) (by simp [MQTTService.clients])
    simp [MqttAndroidClient.live, MqttAndroidClient.disconnect, hcallback, hpos] at this

/-! ## Two starts -/

/-- A device with one network. -/
def online : Connectivity := ⟨true, 1, fun _ => Nat.one_pos⟩

/-- The service is started again while its client is connected, and the second client connects. -/
def startedTwice : List Event :=
  [.onStartCommand true, .connectSuccess .current true, .onStartCommand true,
    .connectSuccess .current true]

/-- Two clients are live after two starts, and one message is posted twice. -/
theorem second_start_doubles :
    ∃ s, Run (machine decimalNumbers online) startedTwice s ∧ ¬ OneLive decimalNumbers s ∧
      (s.clients.filter MqttAndroidClient.live).length = 2 := by
  have hexec : ((machine decimalNumbers online).exec startedTwice).map
      (fun s => (s.clients.filter MqttAndroidClient.live).length) = some 2 := by decide
  obtain ⟨s, hrun, hs⟩ := exists_run_of_exec _ _ _ hexec
  refine ⟨s, hrun, fun h => ?_, hs⟩
  have := h.live
  omega

/-- A start, a lost connection, a second start and the end of the service. -/
def restarted : List Event :=
  [.onStartCommand true, .connectSuccess .current true, .connectionLost .current,
    .onStartCommand true, .connectSuccess .current true,
    .message "temperature" "1,90,40,lab,08:00,36", .onDestroy (.returns true)]

/-- The check that starts find idle clients and that the service ends by a clean `disconnect`. -/
def runsClean (s : MQTTService Int) : Event → Bool
  | .onStartCommand _ => s.clients.all fun c => !c.connected && c.inFlight == 0
  | .onDestroy d => d == .returns true
  | _ => true

/-- A service restarted after a lost connection has one live client at a time and shuts down. -/
theorem single_client_restarted :
    ∃ s, RunUnder (machine decimalNumbers online) StartsIdle restarted s ∧
      OneLive decimalNumbers s ∧ ShutDown s := by
  have hexec : (((machine decimalNumbers online).restrict runsClean).exec restarted).map
      (fun s => s.posted.length) = some 1 := by decide
  obtain ⟨s, hrun, -⟩ := exists_run_of_exec _ _ _ hexec
  have hguard : RunUnder (machine decimalNumbers online)
      (fun s e => StartsIdle s e ∧ EndsClean s e) restarted s := by
    refine runUnder_of_restrict (fun s e hcheck => ⟨?_, ?_⟩) hrun
    · rintro accepts rfl c hc
      simpa [MqttAndroidClient.Idle] using List.all_eq_true.1 hcheck c hc
    · rintro d rfl c -
      exact ⟨true, by simpa [runsClean] using hcheck, Or.inl rfl⟩
  have hidle := hguard.mono fun _ _ h => h.1
  obtain ⟨hlive, hdown⟩ := single_client decimalNumbers online hidle
  exact ⟨s, hidle, hlive, hdown hguard⟩

end IotClient.Mqtt.SingleClient
