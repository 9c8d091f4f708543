import IotClient.Mqtt.Messages

/-!
# Decoding a sensor message

`MQTTService.messageArrived` as one program over the process state, in source order: the parses of
the common fields, the switch on the topic, the parses of the topic, the setters of its bean and
the post. A parse may throw, and the state stays as it is at that point, so a setter placed before
a later parse would show.

* `messageArrived_run`: the program parses, and only then runs the statements and the post.
* `parseMessage_eq_ok`: which texts parse, and what the reading then holds.
* `messageArrived_all_or_nothing`: an accepted message fills the bean of its topic and posts it
  once, any other message leaves the process as it was.
-/

set_option autoImplicit false

namespace IotClient.Mqtt.Decoding

open IotClient.Mqtt.Messages

variable {F : Type}

/-! ## The program -/

/-- What `messageArrived` can change: the three beans, and the events posted so far, each a
reference to the bean of its topic. -/
structure Process (F : Type) where
  beans : Beans F
  posted : List Topic
deriving DecidableEq

/-- A Java method over the process: it returns or throws, and its effects up to then stay. -/
abbrev Java (F : Type) := EStateM JavaException (Process F)

/-- An expression that may throw and changes nothing. -/
def evaluate {α : Type} : Except JavaException α → Java F α
  | .ok x => pure x
  | .error e => throw e

/-- The statements one after the other. -/
def execute : List (Statement F) → Java F Unit
  | [] => pure ()
  | st :: sts => do
      modify fun p => { p with beans := st p.beans }
      execute sts

/-- `EventBus.getDefault().post`. -/
def post (t : Topic) : Java F Unit := modify fun p => { p with posted := p.posted ++ [t] }

/-- `MqttCallback.messageArrived`. -/
def messageArrived [Zero F] (N : Numbers F) (topic payload : String) : Java F Unit := do
  let sensorArray := split ',' payload
  let device ← evaluate (elementAt sensorArray 0)
  let battery ← evaluate (parseOr N.parseFloat (← evaluate (elementAt sensorArray 1)))
  let strength ← evaluate (parseOr N.parseFloat (← evaluate (elementAt sensorArray 2)))
  let address ← evaluate (elementAt sensorArray 3)
  let time ← evaluate (elementAt sensorArray 4)
  if topic = TOPIC_TEMPER then
    let temperature ← evaluate (parseOr N.parseFloat (← evaluate (elementAt sensorArray 5)))
    execute (statements (.temper device battery strength address time temperature))
    post .temper
  else if topic = TOPIC_SENSIRION then
    let stemperature ← evaluate (parseOr N.parseFloat (← evaluate (elementAt sensorArray 5)))
    let shumidity ← evaluate (parseOr N.parseFloat (← evaluate (elementAt sensorArray 6)))
    execute (statements (.sensir device battery strength address time stemperature shumidity))
    post .sensir
  else if topic = TOPIC_DOOR then
    let disopen ← evaluate (parseOr N.parseInt (← evaluate (elementAt sensorArray 5)))
    execute (statements (.door device battery strength address time disopen))
    post .door
  else
    pure ()

/-! ## Parse first, write afterwards -/

/-- What `messageArrived` writes for a parsed message. -/
def commit [Zero F] : Option (Reading F) → Java F Unit
  | some m => do
      execute (statements m)
      post m.topic
  | none => pure ()

theorem evaluate_bind {α β : Type} (x : Except JavaException α)
    (f : α → Except JavaException β) :
    evaluate (F := F) (x >>= f) = evaluate x >>= fun a => evaluate (f a) := by
  cases x with
  | ok a => rfl
  | error e => rfl

theorem evaluate_pure {α : Type} (a : α) : evaluate (F := F) (pure a) = pure a := rfl

/-- The setters and the post come after the last parse. -/
theorem messageArrived_eq [Zero F] (N : Numbers F) (topic payload : String) :
    messageArrived N topic payload = evaluate (parseMessage N topic payload) >>= commit := by
  unfold messageArrived parseMessage
  by_cases htemper : topic = TOPIC_TEMPER
  · simp only [if_pos htemper, evaluate_bind, evaluate_pure, bind_assoc, pure_bind, commit,
      Reading.topic]
  · by_cases hsensir : topic = TOPIC_SENSIRION
    · simp only [if_neg htemper, if_pos hsensir, evaluate_bind, evaluate_pure, bind_assoc,
        pure_bind, commit, Reading.topic]
    · by_cases hdoor : topic = TOPIC_DOOR
      · simp only [if_neg htemper, if_neg hsensir, if_pos hdoor, evaluate_bind, evaluate_pure,
          bind_assoc, pure_bind, commit, Reading.topic]
      · simp only [if_neg htemper, if_neg hsensir, if_neg hdoor, evaluate_bind, evaluate_pure,
          bind_assoc, pure_bind, commit]

theorem execute_run (sts : List (Statement F)) (p : Process F) :
    (execute sts).run p = .ok () { p with beans := execAll sts p.beans } := by
  induction sts generalizing p with
  | nil => rfl
  | cons st sts ih => exact ih { p with beans := st p.beans }

/-- One run of `messageArrived`: on a parse failure nothing has been written yet. -/
theorem messageArrived_run [Zero F] (N : Numbers F) (topic payload : String) (p : Process F) :
    (messageArrived N topic payload).run p =
      match parseMessage N topic payload with
      | .error e => .error e p
      | .ok none => .ok () p
      | .ok (some m) => .ok () ⟨execAll (statements m) p.beans, p.posted ++ [m.topic]⟩ := by
  rw [messageArrived_eq]
  cases parseMessage N topic payload with
  | error e => rfl
  | ok r =>
      cases r with
      | none => rfl
      | some m =>
          show EStateM.bind (execute (statements m)) (fun _ => post m.topic) p = _
          rw [EStateM.bind, show execute (statements m) p = _ from execute_run (statements m) p]
          rfl

/-! ## Which messages parse -/

theorem sensirion_ne_temper : TOPIC_SENSIRION ≠ TOPIC_TEMPER := by decide

theorem door_ne_temper : TOPIC_DOOR ≠ TOPIC_TEMPER := by decide

theorem door_ne_sensirion : TOPIC_DOOR ≠ TOPIC_SENSIRION := by decide

/-- Field `i` of the split payload as a number; `none` when it is missing or no number. -/
def numberAt {α : Type} (parse : String → Option α) (f : List String) (i : Nat) : Option α :=
  f[i]?.bind parse

/-- The five common fields. -/
structure Common (N : Numbers F) (f : List String) (device : String) (battery strength : F)
    (address time : String) : Prop where
  device : f[0]? = some device
  battery : numberAt N.parseFloat f 1 = some battery
  strength : numberAt N.parseFloat f 2 = some strength
  address : f[3]? = some address
  time : f[4]? = some time

/-- The fields `f` of a message on `topic` have the reading `r`. -/
def Reads (N : Numbers F) (topic : String) (f : List String) : Option (Reading F) → Prop
  | some (.temper device battery strength address time temperature) =>
      topic = TOPIC_TEMPER ∧ Common N f device battery strength address time ∧
        numberAt N.parseFloat f 5 = some temperature
  | some (.sensir device battery strength address time stemperature shumidity) =>
      topic = TOPIC_SENSIRION ∧ Common N f device battery strength address time ∧
        numberAt N.parseFloat f 5 = some stemperature ∧
        numberAt N.parseFloat f 6 = some shumidity
  | some (.door device battery strength address time disopen) =>
      topic = TOPIC_DOOR ∧ Common N f device battery strength address time ∧
        numberAt N.parseInt f 5 = some disopen
  | none =>
      (topic ≠ TOPIC_TEMPER ∧ topic ≠ TOPIC_SENSIRION ∧ topic ≠ TOPIC_DOOR) ∧
        ∃ device battery strength address time, Common N f device battery strength address time

theorem bind_eq_ok {ε α β : Type} {x : Except ε α} {f : α → Except ε β} {b : β} :
    (x >>= f) = .ok b ↔ ∃ a, x = .ok a ∧ f a = .ok b := by
  cases x with
  | ok a =>
      refine ⟨fun h => ⟨a, rfl, h⟩, fun h => ?_⟩
      obtain ⟨a', ha, h⟩ := h
      cases ha
      exact h
  | error e =>
      refine ⟨fun h => ?_, fun h => ?_⟩
      · cases h
      · obtain ⟨a, ha, -⟩ := h
        cases ha

theorem elementAt_bind_eq_ok {β : Type} {f : List String} {i : Nat}
    {k : String → Except JavaException β} {b : β} :
    (elementAt f i >>= k) = .ok b ↔ ∃ x, f[i]? = some x ∧ k x = .ok b := by
  rw [elementAt]
  cases f[i]? with
  | some y => simp [bind_eq_ok]
  | none => simp [bind_eq_ok]

/-- An index and a number parse are one field read as a number. -/
theorem numberAt_bind_eq_ok {α β : Type} {parse : String → Option α} {f : List String} {i : Nat}
    {k : α → Except JavaException β} {b : β} :
    (elementAt f i >>= fun s => parseOr parse s >>= k) = .ok b ↔
      ∃ y, numberAt parse f i = some y ∧ k y = .ok b := by
  unfold elementAt numberAt
  cases f[i]? with
  | none => simp [bind_eq_ok]
  | some x =>
      show (parseOr parse x >>= k) = .ok b ↔ _
      rw [parseOr]
      cases hx : parse x with
      | none => simp [bind_eq_ok, hx]
      | some y => simp [bind_eq_ok, hx]

/-- The parses of the common fields succeed exactly when these fields are there. -/
theorem common_bind_eq_ok (N : Numbers F) {β : Type} {f : List String}
    {k : String → F → F → String → String → Except JavaException β} {b : β} :
    (do
      let device ← elementAt f 0
      let battery ← parseOr N.parseFloat (← elementAt f 1)
      let strength ← parseOr N.parseFloat (← elementAt f 2)
      let address ← elementAt f 3
      let time ← elementAt f 4
      k device battery strength address time) = .ok b ↔
      ∃ device battery strength address time,
        Common N f device battery strength address time ∧
          k device battery strength address time = .ok b := by
  constructor
  · intro h
    obtain ⟨device, h0, h⟩ := elementAt_bind_eq_ok.1 h
    obtain ⟨battery, h1, h⟩ := numberAt_bind_eq_ok.1 h
    obtain ⟨strength, h2, h⟩ := numberAt_bind_eq_ok.1 h
    obtain ⟨address, h3, h⟩ := elementAt_bind_eq_ok.1 h
    obtain ⟨time, h4, h⟩ := elementAt_bind_eq_ok.1 h
    exact ⟨device, battery, strength, address, time, ⟨h0, h1, h2, h3, h4⟩, h⟩
  · rintro ⟨device, battery, strength, address, time, hc, h⟩
    refine elementAt_bind_eq_ok.2 ⟨device, hc.device, ?_⟩
    refine numberAt_bind_eq_ok.2 ⟨battery, hc.battery, ?_⟩
    refine numberAt_bind_eq_ok.2 ⟨strength, hc.strength, ?_⟩
    refine elementAt_bind_eq_ok.2 ⟨address, hc.address, ?_⟩
    exact elementAt_bind_eq_ok.2 ⟨time, hc.time, h⟩

/-- A message parses to a reading exactly when its fields have that reading. -/
theorem parseMessage_eq_ok (N : Numbers F) (topic payload : String) (r : Option (Reading F)) :
    parseMessage N topic payload = .ok r ↔ Reads N topic (split ',' payload) r := by
  refine (common_bind_eq_ok N).trans ?_
  constructor
  · rintro ⟨device, battery, strength, address, time, hc, h⟩
    -- after the common fields, the topic decides which further ones are read
    split_ifs at h with htemper hsensir hdoor
    · obtain ⟨temperature, h5, h⟩ := numberAt_bind_eq_ok.1 h
      cases h
      exact ⟨htemper, hc, h5⟩
    · obtain ⟨stemperature, h5, h⟩ := numberAt_bind_eq_ok.1 h
      obtain ⟨shumidity, h6, h⟩ := numberAt_bind_eq_ok.1 h
      cases h
      exact ⟨hsensir, hc, h5, h6⟩
    · obtain ⟨disopen, h5, h⟩ := numberAt_bind_eq_ok.1 h
      cases h
      exact ⟨hdoor, hc, h5⟩
    · cases h
      exact ⟨⟨htemper, hsensir, hdoor⟩, device, battery, strength, address, time, hc⟩
  · intro h
    cases r with
    | none =>
        obtain ⟨⟨htemper, hsensir, hdoor⟩, device, battery, strength, address, time, hc⟩ := h
        refine ⟨device, battery, strength, address, time, hc, ?_⟩
        rw [if_neg htemper, if_neg hsensir, if_neg hdoor]
        rfl
    | some m =>
        cases m with
        | temper device battery strength address time temperature =>
            obtain ⟨htemper, hc, h5⟩ := h
            refine ⟨device, battery, strength, address, time, hc, ?_⟩
            rw [if_pos htemper]
            exact numberAt_bind_eq_ok.2 ⟨temperature, h5, rfl⟩
        | sensir device battery strength address time stemperature shumidity =>
            obtain ⟨rfl, hc, h5, h6⟩ := h
            refine ⟨device, battery, strength, address, time, hc, ?_⟩
            rw [if_neg sensirion_ne_temper, if_pos rfl]
            refine numberAt_bind_eq_ok.2 ⟨stemperature, h5, ?_⟩
            exact numberAt_bind_eq_ok.2 ⟨shumidity, h6, rfl⟩
        | door device battery strength address time disopen =>
            obtain ⟨rfl, hc, h5⟩ := h
            refine ⟨device, battery, strength, address, time, hc, ?_⟩
            rw [if_neg door_ne_temper, if_neg door_ne_sensirion, if_pos rfl]
            exact numberAt_bind_eq_ok.2 ⟨disopen, h5, rfl⟩

/-- What the fields of a message on `topic` must be for `messageArrived` to complete. -/
structure Accepts (N : Numbers F) (topic : String) (f : List String) : Prop where
  fields : 5 ≤ f.length
  battery : (numberAt N.parseFloat f 1).isSome
  strength : (numberAt N.parseFloat f 2).isSome
  temper : topic = TOPIC_TEMPER → (numberAt N.parseFloat f 5).isSome
  sensir : topic = TOPIC_SENSIRION →
    (numberAt N.parseFloat f 5).isSome ∧ (numberAt N.parseFloat f 6).isSome
  door : topic = TOPIC_DOOR → (numberAt N.parseInt f 5).isSome

/-- The common fields of enough fields. -/
theorem exists_common {N : Numbers F} {f : List String} (hf : 5 ≤ f.length)
    (hbattery : (numberAt N.parseFloat f 1).isSome)
    (hstrength : (numberAt N.parseFloat f 2).isSome) :
    ∃ device battery strength address time,
      Common N f device battery strength address time := by
  obtain ⟨battery, h1⟩ := Option.isSome_iff_exists.1 hbattery
  obtain ⟨strength, h2⟩ := Option.isSome_iff_exists.1 hstrength
  have h0 : f[0]? = some f[0] := List.getElem?_eq_getElem (by omega)
  have h3 : f[3]? = some f[3] := List.getElem?_eq_getElem (by omega)
  have h4 : f[4]? = some f[4] := List.getElem?_eq_getElem (by omega)
  exact ⟨f[0], battery, strength, f[3], f[4], h0, h1, h2, h3, h4⟩

/-- The fields are accepted when they have the common fields and those of their topic. -/
theorem accepts_of_common {N : Numbers F} {topic device address time : String} {f : List String}
    {battery strength : F} (hc : Common N f device battery strength address time)
    (htemper : topic = TOPIC_TEMPER → (numberAt N.parseFloat f 5).isSome)
    (hsensir : topic = TOPIC_SENSIRION →
      (numberAt N.parseFloat f 5).isSome ∧ (numberAt N.parseFloat f 6).isSome)
    (hdoor : topic = TOPIC_DOOR → (numberAt N.parseInt f 5).isSome) : Accepts N topic f := by
  have hlen : 4 < f.length := (List.getElem?_eq_some_iff.1 hc.time).1
  refine ⟨hlen, ?_, ?_, htemper, hsensir, hdoor⟩
  · rw [hc.battery]
    rfl
  · rw [hc.strength]
    rfl

/-- The accepted fields are those with a reading. -/
theorem accepts_iff (N : Numbers F) (topic : String) (f : List String) :
    Accepts N topic f ↔ ∃ r, Reads N topic f r := by
  constructor
  · intro h
    obtain ⟨device, battery, strength, address, time, hc⟩ :=
      exists_common h.fields h.battery h.strength
    by_cases htemper : topic = TOPIC_TEMPER
    · obtain ⟨temperature, h5⟩ := Option.isSome_iff_exists.1 (h.temper htemper)
      exact ⟨some (.temper device battery strength address time temperature), htemper, hc, h5⟩
    · by_cases hsensir : topic = TOPIC_SENSIRION
      · obtain ⟨stemperature, h5⟩ := Option.isSome_iff_exists.1 (h.sensir hsensir).1
        obtain ⟨shumidity, h6⟩ := Option.isSome_iff_exists.1 (h.sensir hsensir).2
        exact ⟨some (.sensir device battery strength address time stemperature shumidity),
          hsensir, hc, h5, h6⟩
      · by_cases hdoor : topic = TOPIC_DOOR
        · obtain ⟨disopen, h5⟩ := Option.isSome_iff_exists.1 (h.door hdoor)
          exact ⟨some (.door device battery strength address time disopen), hdoor, hc, h5⟩
        · -- on another topic the message parses, and nothing is done with it
          exact ⟨none, ⟨htemper, hsensir, hdoor⟩, device, battery, strength, address, time, hc⟩
  · rintro ⟨r, h⟩
    cases r with
    | none =>
        obtain ⟨⟨htemper, hsensir, hdoor⟩, device, battery, strength, address, time, hc⟩ := h
        exact accepts_of_common hc (fun ht => absurd ht htemper) (fun ht => absurd ht hsensir)
          (fun ht => absurd ht hdoor)
    | some m =>
        cases m with
        | temper device battery strength address time temperature =>
            obtain ⟨rfl, hc, h5⟩ := h
            refine accepts_of_common hc (fun _ => ?_)
              (fun ht => absurd ht.symm sensirion_ne_temper)
              (fun ht => absurd ht.symm door_ne_temper)
            rw [h5]
            rfl
        | sensir device battery strength address time stemperature shumidity =>
            obtain ⟨rfl, hc, h5, h6⟩ := h
            refine accepts_of_common hc (fun ht => absurd ht sensirion_ne_temper)
              (fun _ => ?_) (fun ht => absurd ht.symm door_ne_sensirion)
            rw [h5, h6]
            exact ⟨rfl, rfl⟩
        | door device battery strength address time disopen =>
            obtain ⟨rfl, hc, h5⟩ := h
            refine accepts_of_common hc (fun ht => absurd ht door_ne_temper)
              (fun ht => absurd ht door_ne_sensirion) (fun _ => ?_)
            rw [h5]
            rfl

/-! ## What an accepted message leaves -/

/-- The temperature bean holds the fields `f`, each in its own place. -/
structure TemperHolds (N : Numbers F) (f : List String) (m : TemperEventMsg F) : Prop where
  tdevice : f[0]? = m.tdevice
  tbattery : numberAt N.parseFloat f 1 = some m.tbattery
  tstrength : numberAt N.parseFloat f 2 = some m.tstrength
  taddress : f[3]? = m.taddress
  time : f[4]? = m.time
  temperature : numberAt N.parseFloat f 5 = some m.temperature

/-- The temperature-humidity bean holds the fields `f`. -/
structure SensirHolds (N : Numbers F) (f : List String) (m : SensirEventMsg F) : Prop where
  sdevice : f[0]? = m.sdevice
  sbattery : numberAt N.parseFloat f 1 = some m.sbattery
  strength : numberAt N.parseFloat f 2 = some m.strength
  saddress : f[3]? = m.saddress
  stime : f[4]? = m.stime
  stemperature : numberAt N.parseFloat f 5 = some m.stemperature
  shumidity : numberAt N.parseFloat f 6 = some m.shumidity

/-- The door bean holds the fields `f`. -/
structure DoorHolds (N : Numbers F) (f : List String) (m : DoorEventMsg F) : Prop where
  device : f[0]? = m.device
  dbattery : numberAt N.parseFloat f 1 = some m.dbattery
  dstrength : numberAt N.parseFloat f 2 = some m.dstrength
  daddress : f[3]? = m.daddress
  dtime : f[4]? = m.dtime
  disopen : numberAt N.parseInt f 5 = some m.disopen

/-- `q` is `p` after an accepted message with the fields `f`: one post, the bean of the topic
filled with its id kept (a bean created by this message has the id 0), and the other two beans as
they were. Another topic changes nothing. -/
def Decoded (N : Numbers F) (topic : String) (f : List String) (p q : Process F) : Prop :=
  if topic = TOPIC_TEMPER then
    q.posted = p.posted ++ [.temper] ∧ q.beans.sensir = p.beans.sensir ∧
      q.beans.door = p.beans.door ∧
      ∃ m, q.beans.temper = some m ∧ m.tid = (p.beans.temper.map (·.tid)).getD 0 ∧
        TemperHolds N f m
  else if topic = TOPIC_SENSIRION then
    q.posted = p.posted ++ [.sensir] ∧ q.beans.temper = p.beans.temper ∧
      q.beans.door = p.beans.door ∧
      ∃ m, q.beans.sensir = some m ∧ m.sid = (p.beans.sensir.map (·.sid)).getD 0 ∧
        SensirHolds N f m
  else if topic = TOPIC_DOOR then
    q.posted = p.posted ++ [.door] ∧ q.beans.temper = p.beans.temper ∧
      q.beans.sensir = p.beans.sensir ∧
      ∃ m, q.beans.door = some m ∧ m.did = (p.beans.door.map (·.did)).getD 0 ∧
        DoorHolds N f m
  else q = p

/-- A message on another topic changes nothing. -/
theorem decoded_of_reads_none {N : Numbers F} {topic : String} {f : List String}
    (h : Reads N topic f none) (p : Process F) : Decoded N topic f p p := by
  obtain ⟨⟨htemper, hsensir, hdoor⟩, -⟩ := h
  rw [Decoded, if_neg htemper, if_neg hsensir, if_neg hdoor]

section Outcome

variable [Zero F]

/-- The statements of a reading fill the bean of its topic. -/
theorem decoded_of_reads {N : Numbers F} {topic : String} {f : List String} {m : Reading F}
    (h : Reads N topic f (some m)) (p : Process F) :
    Decoded N topic f p ⟨execAll (statements m) p.beans, p.posted ++ [m.topic]⟩ := by
  rcases p with ⟨⟨temper, sensir, door⟩, posted⟩
  rw [Decoded]
  cases m with
  | temper device battery strength address time temperature =>
      obtain ⟨rfl, hc, h5⟩ := h
      rw [if_pos rfl]
      refine ⟨rfl, rfl, rfl, ?_⟩
      -- the bean is made when it is first asked for
      cases temper with
      | none => exact ⟨_, rfl, rfl, hc.device, hc.battery, hc.strength, hc.address, hc.time, h5⟩
      | some old =>
          exact ⟨_, rfl, rfl, hc.device, hc.battery, hc.strength, hc.address, hc.time, h5⟩
  | sensir device battery strength address time stemperature shumidity =>
      obtain ⟨rfl, hc, h5, h6⟩ := h
      rw [if_neg sensirion_ne_temper, if_pos rfl]
      refine ⟨rfl, rfl, rfl, ?_⟩
      cases sensir with
      | none =>
          exact ⟨_, rfl, rfl, hc.device, hc.battery, hc.strength, hc.address, hc.time, h5, h6⟩
      | some old =>
          exact ⟨_, rfl, rfl, hc.device, hc.battery, hc.strength, hc.address, hc.time, h5, h6⟩
  | door device battery strength address time disopen =>
      obtain ⟨rfl, hc, h5⟩ := h
      rw [if_neg door_ne_temper, if_neg door_ne_sensirion, if_pos rfl]
      refine ⟨rfl, rfl, rfl, ?_⟩
      cases door with
      | none => exact ⟨_, rfl, rfl, hc.device, hc.battery, hc.strength, hc.address, hc.time, h5⟩
      | some old =>
          exact ⟨_, rfl, rfl, hc.device, hc.battery, hc.strength, hc.address, hc.time, h5⟩

/-- Decoding is all or nothing, for every topic, payload and prior contents of the beans. When
`messageArrived` completes, its fields were acceptable, and the process is the one decoded from
them; when it throws, they were not, and the process is unchanged. -/
theorem messageArrived_all_or_nothing (N : Numbers F) (topic payload : String) (p : Process F) :
    match (messageArrived N topic payload).run p with
    | .ok _ q => Accepts N topic (split ',' payload) ∧ Decoded N topic (split ',' payload) p q
    | .error _ q => ¬ Accepts N topic (split ',' payload) ∧ q = p := by
  rw [messageArrived_run]
  cases hparse : parseMessage N topic payload with
  | error e =>
      refine ⟨fun h => ?_, rfl⟩
      obtain ⟨r, hr⟩ := (accepts_iff N topic _).1 h
      rw [(parseMessage_eq_ok N topic payload r).2 hr] at hparse
      cases hparse
  | ok r =>
      have hr : Reads N topic (split ',' payload) r :=
        (parseMessage_eq_ok N topic payload r).1 hparse
      have haccepts : Accepts N topic (split ',' payload) := (accepts_iff N topic _).2 ⟨r, hr⟩
      cases r with
      | none => exact ⟨haccepts, decoded_of_reads_none hr p⟩
      | some m => exact ⟨haccepts, decoded_of_reads hr p⟩

-- A blank last field is dropped by the split, so the index fails, not the parse.
example (p : Process Int) :
    (messageArrived decimalNumbers TOPIC_SENSIRION "s1,90,4,a1,t1,20,").run p =
      .error .arrayIndexOutOfBounds p := by
  rw [messageArrived_run]
  rfl

end Outcome

end IotClient.Mqtt.Decoding
