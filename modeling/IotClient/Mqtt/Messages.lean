import Mathlib.Algebra.Ring.Int.Defs
import Mathlib.Data.List.DropRight

/-!
# Sensor messages and the event beans

`MQTTService.messageArrived` splits the payload of a message on commas, parses the fields that the
topic asks for, writes them into the one process-wide bean of the topic (`TemperEventMsg`,
`SensirEventMsg`, `DoorEventMsg`) and posts a reference to that bean on the event bus. This file
has the parsing (`parseMessage`), the beans with their setters, and the statements that
`messageArrived` executes on a bean, one list entry each (`statements`).

The number parsers and the float printer of Java are parameters (`Numbers`).

* `statements_reading`: after its statements a message reads back from its bean, whatever the bean
  held before.
* `statements_frame`: no statement of a message changes what the beans of the other topics hold.
-/

set_option autoImplicit false

namespace IotClient.Mqtt.Messages

/-- Java's `Float.parseFloat`, `Integer.parseInt` and the text of a float, over the float type
`F`. The two parsers are partial: `none` is a `NumberFormatException`. -/
structure Numbers (F : Type) where
  parseFloat : String → Option F
  parseInt : String → Option Int
  floatText : F → String

/-- Numbers on plain decimal texts, with integers for floats. -/
def decimalNumbers : Numbers Int where
  parseFloat := decimal
  parseInt := decimal
  floatText := fun x => toString x ++ ".0"
where
  /-- The value of a text of decimal digits. -/
  decimal (s : String) : Option Int :=
    if s ≠ "" ∧ s.toList.all Char.isDigit then
      some (s.toList.foldl (fun n c => 10 * n + (c.toNat - '0'.toNat : Nat)) 0)
    else none

variable {F : Type}

/-! ## Splitting and parsing -/

/-- What `messageArrived` may throw. -/
inductive JavaException where
  | arrayIndexOutOfBounds
  | numberFormat
deriving DecidableEq, Repr

/-- The pieces of `s` between the separators. -/
def pieces (sep : Char) (s : String) : List String := (s.toList.splitOn sep).map String.ofList

/-- `String.split` on a separator of one character: the trailing empty pieces are dropped, and a
text without the separator is returned whole. -/
def split (sep : Char) (s : String) : List String :=
  if sep ∈ s.toList then (pieces sep s).rdropWhile (· == "") else [s]

/-- `sensorArray[i]`. -/
def elementAt (sensorArray : List String) (i : Nat) : Except JavaException String :=
  match sensorArray[i]? with
  | some x => .ok x
  | none => .error .arrayIndexOutOfBounds

/-- A partial number parser as a call that may throw. -/
def parseOr {α : Type} (parse : String → Option α) (s : String) : Except JavaException α :=
  match parse s with
  | some x => .ok x
  | none => .error .numberFormat

/-- `StaticClass.TOPIC_DOOR`. -/
def TOPIC_DOOR : String := "doorswitch"

/-- `StaticClass.TOPIC_SENSIRION`. -/
def TOPIC_SENSIRION : String := "sensirion"

/-- `StaticClass.TOPIC_TEMPER`. -/
def TOPIC_TEMPER : String := "temperature"

/-- The three topics. -/
inductive Topic where
  | temper
  | sensir
  | door
deriving DecidableEq, Repr

/-- The local variables of `messageArrived` when it reaches the setters of a topic. -/
inductive Reading (F : Type) where
  | temper (device : String) (battery strength : F) (address time : String) (temperature : F)
  | sensir (device : String) (battery strength : F) (address time : String)
      (stemperature shumidity : F)
  | door (device : String) (battery strength : F) (address time : String) (disopen : Int)
deriving DecidableEq

/-- The topic of a reading. -/
def Reading.topic : Reading F → Topic
  | .temper .. => .temper
  | .sensir .. => .sensir
  | .door .. => .door

/-- The part of `messageArrived` before the setters: the five common fields, then the fields of the
topic. A message on another topic parses the common fields and has no reading. -/
def parseMessage (N : Numbers F) (topic payload : String) :
    Except JavaException (Option (Reading F)) := do
  let sensorArray := split ',' payload
  let device ← elementAt sensorArray 0
  let battery ← parseOr N.parseFloat (← elementAt sensorArray 1)
  let strength ← parseOr N.parseFloat (← elementAt sensorArray 2)
  let address ← elementAt sensorArray 3
  let time ← elementAt sensorArray 4
  if topic = TOPIC_TEMPER then
    let temperature ← parseOr N.parseFloat (← elementAt sensorArray 5)
    return some (.temper device battery strength address time temperature)
  else if topic = TOPIC_SENSIRION then
    let stemperature ← parseOr N.parseFloat (← elementAt sensorArray 5)
    let shumidity ← parseOr N.parseFloat (← elementAt sensorArray 6)
    return some (.sensir device battery strength address time stemperature shumidity)
  else if topic = TOPIC_DOOR then
    let disopen ← parseOr N.parseInt (← elementAt sensorArray 5)
    return some (.door device battery strength address time disopen)
  else
    return none

/-- A well-formed message: its payload parses, on one of the three topics, to its reading. -/
structure Message (N : Numbers F) where
  topic : String
  payload : String
  reading : Reading F
  parsed : parseMessage N topic payload = .ok (some reading)

/-! ## The beans -/

/-- `TemperEventMsg`; a text is `none` while it is null. -/
structure TemperEventMsg (F : Type) where
  tid : Int
  tdevice : Option String
  tbattery : F
  tstrength : F
  taddress : Option String
  time : Option String
  temperature : F
deriving DecidableEq

/-- `SensirEventMsg`. -/
structure SensirEventMsg (F : Type) where
  sid : Int
  sdevice : Option String
  sbattery : F
  strength : F
  saddress : Option String
  stime : Option String
  stemperature : F
  shumidity : F
deriving DecidableEq

/-- `DoorEventMsg`. -/
structure DoorEventMsg (F : Type) where
  did : Int
  device : Option String
  dbattery : F
  dstrength : F
  daddress : Option String
  dtime : Option String
  disopen : Int
deriving DecidableEq

/-- The static `instance` fields of the three bean classes; `none` is null. -/
structure Beans (F : Type) where
  temper : Option (TemperEventMsg F)
  sensir : Option (SensirEventMsg F)
  door : Option (DoorEventMsg F)
deriving DecidableEq

/-- The beans before any `getInstance`. -/
def Beans.unset : Beans F := ⟨none, none, none⟩

/-- The values that a bean's getters return, when no text of it is null. -/
def Beans.reading (b : Beans F) : Topic → Option (Reading F)
  | .temper => do
      let m ← b.temper
      return .temper (← m.tdevice) m.tbattery m.tstrength (← m.taddress) (← m.time) m.temperature
  | .sensir => do
      let m ← b.sensir
      return .sensir (← m.sdevice) m.sbattery m.strength (← m.saddress) (← m.stime)
        m.stemperature m.shumidity
  | .door => do
      let m ← b.door
      return .door (← m.device) m.dbattery m.dstrength (← m.daddress) (← m.dtime) m.disopen

/-- A statement of `messageArrived` that touches the beans. -/
abbrev Statement (F : Type) := Beans F → Beans F

/-- A setter call on the temperature bean. -/
def onTemper (f : TemperEventMsg F → TemperEventMsg F) : Statement F :=
  fun b => { b with temper := b.temper.map f }

/-- A setter call on the temperature-humidity bean. -/
def onSensir (f : SensirEventMsg F → SensirEventMsg F) : Statement F :=
  fun b => { b with sensir := b.sensir.map f }

/-- A setter call on the door bean. -/
def onDoor (f : DoorEventMsg F → DoorEventMsg F) : Statement F :=
  fun b => { b with door := b.door.map f }

section Statements

variable [Zero F]

/-- `TemperEventMsg.getInstance`: the first call creates the bean. -/
def temperInstance : Statement F :=
  fun b => { b with temper := b.temper.or (some ⟨0, none, 0, 0, none, none, 0⟩) }

/-- `SensirEventMsg.getInstance`. -/
def sensirInstance : Statement F :=
  fun b => { b with sensir := b.sensir.or (some ⟨0, none, 0, 0, none, none, 0, 0⟩) }

/-- `DoorEventMsg.getInstance`. -/
def doorInstance : Statement F :=
  fun b => { b with door := b.door.or (some ⟨0, none, 0, 0, none, none, 0⟩) }

/-- What `messageArrived` executes between parsing and the post, in source order. -/
def statements : Reading F → List (Statement F)
  | .temper device battery strength address time temperature =>
      [temperInstance,
        onTemper fun m => { m with tdevice := some device },
        onTemper fun m => { m with tbattery := battery },
        onTemper fun m => { m with tstrength := strength },
        onTemper fun m => { m with taddress := some address },
        onTemper fun m => { m with time := some time },
        onTemper fun m => { m with temperature := temperature }]
  | .sensir device battery strength address time stemperature shumidity =>
      [sensirInstance,
        onSensir fun m => { m with sdevice := some device },
        onSensir fun m => { m with sbattery := battery },
        onSensir fun m => { m with strength := strength },
        onSensir fun m => { m with saddress := some address },
        onSensir fun m => { m with stime := some time },
        onSensir fun m => { m with stemperature := stemperature },
        onSensir fun m => { m with shumidity := shumidity }]
  | .door device battery strength address time disopen =>
      [doorInstance,
        onDoor fun m => { m with device := some device },
        onDoor fun m => { m with dbattery := battery },
        onDoor fun m => { m with dstrength := strength },
        onDoor fun m => { m with daddress := some address },
        onDoor fun m => { m with dtime := some time },
        onDoor fun m => { m with disopen := disopen }]

/-- The beans after some statements. -/
def execAll (sts : List (Statement F)) (b : Beans F) : Beans F := sts.foldl (fun b st => st b) b

omit [Zero F] in
@[simp]
theorem execAll_nil (b : Beans F) : execAll [] b = b := rfl

omit [Zero F] in
@[simp]
theorem execAll_cons (st : Statement F) (sts : List (Statement F)) (b : Beans F) :
    execAll (st :: sts) b = execAll sts (st b) := rfl

/-- After its statements a message reads back from the bean of its topic. -/
theorem statements_reading (m : Reading F) (b : Beans F) :
    (execAll (statements m) b).reading m.topic = some m := by
  rcases b with ⟨temper, sensir, door⟩
  cases m with
  | temper => cases temper <;> rfl
  | sensir => cases sensir <;> rfl
  | door => cases door <;> rfl

/-- No statement of a message touches the bean of another topic. -/
theorem statements_frame {m : Reading F} {st : Statement F} (hst : st ∈ statements m) (b : Beans F)
    {t : Topic} (ht : t ≠ m.topic) : (st b).reading t = b.reading t := by
  cases m with
  | temper =>
      simp only [statements, List.mem_cons, List.not_mem_nil, or_false] at hst
      rcases hst with rfl | rfl | rfl | rfl | rfl | rfl | rfl <;>
        cases t <;> first | exact absurd rfl ht | rfl
  | sensir =>
      simp only [statements, List.mem_cons, List.not_mem_nil, or_false] at hst
      rcases hst with rfl | rfl | rfl | rfl | rfl | rfl | rfl | rfl <;>
        cases t <;> first | exact absurd rfl ht | rfl
  | door =>
      simp only [statements, List.mem_cons, List.not_mem_nil, or_false] at hst
      rcases hst with rfl | rfl | rfl | rfl | rfl | rfl | rfl <;>
        cases t <;> first | exact absurd rfl ht | rfl

end Statements

end IotClient.Mqtt.Messages
