import IotClient.Foundation.Mailbox
import IotClient.Mqtt.Messages

/-!
# Delivery of MQTT events

`MQTTService.messageArrived` writes a message into the bean of its topic, one setter at a time, and
posts a reference to the bean. The subscribers read the bean later, on the main thread: a post from
another thread waits in the queue of the event bus, a post on the main thread is delivered at once.

`machine` interleaves single statements of `messageArrived` with single statements of the
subscriber methods. The entries of its mailbox carry the message whose arrival made the post; the
code carries a reference to the bean only, so this is a record kept for the specification and no
statement reads it except for its topic.

Whatever the interleaving, the event bus itself loses no post and repeats none
(`posted_perm_flow`); what can be lost are the contents of an event.

`board` is the specification: a mailbox of immutable messages and a screen that shows each
delivered temperature message of its device. In runs that keep `KeepsUndelivered`, no setter
changes a bean whose event is still queued or being handled, and there the machine refines the
board (`boardSimulation`). Without it two arrivals before one delivery overwrite a message
(`overwritten_before_delivery`).
-/

set_option autoImplicit false

namespace IotClient.Mqtt.Delivery

open IotClient.Foundation.Runs
open IotClient.Foundation.Mailbox
open IotClient.Mqtt.Messages

variable {F : Type}

/-! ## The machine -/

/-- The four texts of `ShowTempInfoActivity`. -/
structure Screen where
  showtemp_temp : String
  showtemp_time : String
  showtemp_electric : String
  showtemp_strength : String
deriving DecidableEq, Repr

/-- The next statement of a subscriber method. All three begin with a log line that prints the
event; the rest is `ShowTempInfoActivity.getMqttMessage`. -/
inductive Stage where
  | log
  | compare
  | temp
  | time
  | electric
  | strength
deriving DecidableEq, Repr

/-- A call of `messageArrived` that has parsed its message: the statements left before the post. -/
structure Call (F : Type) where
  onMain : Bool
  message : Reading F
  rest : List (Statement F)

/-- The beans, the call of `messageArrived` in progress, the event bus, and the activity. `seen` is
what the log line of the method in progress printed, `handed` the same for the methods finished. -/
structure Bus (F : Type) where
  beans : Beans F
  call : Option (Call F)
  box : Box (Reading F)
  stage : Stage
  seen : Option (Reading F)
  handed : List (Option (Reading F))
  screen : Screen

/-- One step of a thread. `messageArrived` calls come one after another, each on the main thread or
on another thread. -/
inductive Event (N : Numbers F) where
  | arrive (onMain : Bool) (m : Message N)
  | statement
  | post
  | deliver
  | handle

/-- The subscriber method returns. -/
def Bus.finish (s : Bus F) : Option (Bus F) :=
  (s.box.step .done).map fun b => { s with box := b, stage := .log, handed := s.handed ++ [s.seen] }

/-- String concatenation prints null as a word. -/
def nullable (x : Option String) : String := x.getD "null"

/-- The next statement of the subscriber method that handles an event of topic `t`, with the device
`d` of the activity. -/
def Bus.handleStatement (N : Numbers F) (d : String) (s : Bus F) (t : Topic) : Option (Bus F) :=
  match s.stage with
  | .log =>
      match t with
      | .temper => some { s with seen := s.beans.reading .temper, stage := .compare }
      | .sensir => Bus.finish { s with seen := s.beans.reading .sensir }
      | .door => Bus.finish { s with seen := s.beans.reading .door }
  | .compare =>
      -- a message for another device ends the method without a text
      if s.beans.temper.bind (·.tdevice) = some d then some { s with stage := .temp } else s.finish
  | .temp =>
      s.beans.temper.map fun m =>
        { s with
          screen := { s.screen with showtemp_temp := N.floatText m.temperature }, stage := .time }
  | .time =>
      s.beans.temper.map fun m =>
        { s with
          screen := { s.screen with showtemp_time := nullable m.time }, stage := .electric }
  | .electric =>
      s.beans.temper.map fun m =>
        { s with
          screen := { s.screen with showtemp_electric := N.floatText m.tbattery }
          stage := .strength }
  | .strength =>
      s.beans.temper.bind fun m => Bus.finish
        { s with screen := { s.screen with showtemp_strength := N.floatText m.tstrength } }

section Machine

variable [Zero F]

/-- One step of the bus, for the activity of device `d`. The main thread is busy while it handles
an event and while it runs `messageArrived` itself. -/
def Bus.step (N : Numbers F) (d : String) (s : Bus F) : Event N → Option (Bus F)
  | .arrive onMain m =>
      match s.call with
      | some _ => none
      | none =>
          if onMain = true ∧ s.box.inHand.isSome then none
          else some { s with call := some ⟨onMain, m.reading, statements m.reading⟩ }
  | .statement =>
      match s.call with
      | some ⟨onMain, m, st :: rest⟩ =>
          some { s with beans := st s.beans, call := some ⟨onMain, m, rest⟩ }
      | _ => none
  | .post =>
      match s.call with
      -- on the main thread the post delivers at once, from another thread it waits
      | some ⟨true, m, []⟩ =>
          (s.box.step (.postDirect m)).map fun b => { s with call := none, box := b }
      | some ⟨false, m, []⟩ => (s.box.step (.post m)).map fun b => { s with call := none, box := b }
      | _ => none
  | .deliver =>
      match s.call with
      -- the main thread is inside `messageArrived`
      | some ⟨true, _, _⟩ => none
      | _ => (s.box.step .take).map fun b => { s with box := b }
  | .handle =>
      match s.box.inHand with
      | some x => s.handleStatement N d x.msg.topic
      | none => none

/-- The bus with the activity of device `d` open and its texts as in the layout. -/
def machine (N : Numbers F) (d : String) (layout : Screen) : Machine (Bus F) (Event N) where
  init := ⟨.unset, none, .empty, .log, none, [], layout⟩
  step := Bus.step N d

end Machine

/-! ## The specification -/

/-- The four texts that a temperature message of device `d` puts on the screen; other messages
leave the screen as it is. -/
def Reading.showOn (N : Numbers F) (d : String) : Reading F → Screen → Screen
  | .temper device battery strength _ time temperature, screen =>
      if device = d then
        ⟨N.floatText temperature, time, N.floatText battery, N.floatText strength⟩
      else screen
  | .sensir .., screen => screen
  | .door .., screen => screen

/-- Temperature messages of device `d`. -/
def Reading.isTemperOf (d : String) : Reading F → Bool
  | .temper device .. => device = d
  | .sensir .. => false
  | .door .. => false

/-- The screen after the deliveries `ms`: the texts of the last temperature message of `d` among
them, or the layout when there is none. -/
def lastShown (N : Numbers F) (d : String) (layout : Screen) (ms : List (Reading F)) : Screen :=
  match (ms.filter (Reading.isTemperOf d)).getLast? with
  | some m => Reading.showOn N d m layout
  | none => layout

/-- A mailbox of immutable messages and the screen. -/
structure Board (F : Type) where
  box : Box (Reading F)
  screen : Screen

/-- The screen changes when a message is done with. -/
def Board.screenAfter (N : Numbers F) (d : String) (a : Board F) : Action (Reading F) → Screen
  | .done =>
      match a.box.inHand with
      | some x => Reading.showOn N d x.msg a.screen
      | none => a.screen
  | _ => a.screen

/-- One action on the board. -/
def Board.step (N : Numbers F) (d : String) (a : Board F) (e : Action (Reading F)) :
    Option (Board F) :=
  (a.box.step e).map fun b => ⟨b, a.screenAfter N d e⟩

/-- The board as an event machine. -/
def board (N : Numbers F) (d : String) (layout : Screen) :
    Machine (Board F) (Action (Reading F)) where
  init := ⟨.empty, layout⟩
  step := Board.step N d

theorem showOn_of_not_isTemperOf (N : Numbers F) {d : String} {m : Reading F}
    (h : Reading.isTemperOf d m = false) (screen : Screen) :
    Reading.showOn N d m screen = screen := by
  cases m with
  | temper device =>
      have hne : device ≠ d := by simpa [Reading.isTemperOf] using h
      simp [Reading.showOn, hne]
  | sensir => rfl
  | door => rfl

theorem showOn_of_isTemperOf (N : Numbers F) {d : String} {m : Reading F}
    (h : Reading.isTemperOf d m = true) (screen screen' : Screen) :
    Reading.showOn N d m screen = Reading.showOn N d m screen' := by
  cases m with
  | temper device =>
      have he : device = d := by simpa [Reading.isTemperOf] using h
      simp [Reading.showOn, he]
  | sensir => simp [Reading.isTemperOf] at h
  | door => simp [Reading.isTemperOf] at h

theorem lastShown_append (N : Numbers F) (d : String) (layout : Screen) (ms : List (Reading F))
    (m : Reading F) :
    lastShown N d layout (ms ++ [m]) = Reading.showOn N d m (lastShown N d layout ms) := by
  cases h : Reading.isTemperOf d m with
  | true =>
      simp only [lastShown, List.filter_append, List.filter_cons, h, if_true, List.filter_nil,
        List.getLast?_append, List.getLast?_singleton, Option.some_or]
      exact showOn_of_isTemperOf N h _ _
  | false =>
      -- a message that is not for `d` neither shows nor counts as the last one
      rw [showOn_of_not_isTemperOf N h]
      simp [lastShown, List.filter_append, h]

theorem Board.screenAfter_done {N : Numbers F} {d : String} {a : Board F} {x : Entry (Reading F)}
    (hx : a.box.inHand = some x) :
    a.screenAfter N d .done = Reading.showOn N d x.msg a.screen := by
  simp [Board.screenAfter, hx]

/-- The board shows the last delivered temperature message of its device. -/
theorem board_screen_of_run {N : Numbers F} {d : String} {layout : Screen}
    {es : List (Action (Reading F))} {a : Board F} (h : Run (board N d layout) es a) :
    a.screen = lastShown N d layout (a.box.delivered.map (·.msg)) := by
  apply h.invariant (I := fun a => a.screen = lastShown N d layout (a.box.delivered.map (·.msg)))
  · rfl
  · intro a e b ha _ hst
    obtain ⟨box', hbox, rfl⟩ := Option.map_eq_some_iff.1 hst
    obtain ⟨m, rfl, rfl⟩ | ⟨m, rfl, -, rfl⟩ | ⟨x, rest, rfl, -, -, rfl⟩ | ⟨x, rfl, hx, rfl⟩ :=
      step_cases hbox
    · exact ha
    · exact ha
    · exact ha
    · -- only a message that is done with is delivered and shown
      rw [Board.screenAfter_done hx, ha, List.map_append, List.map_singleton, lastShown_append]

/-! ## Refinement -/

/-- An event of topic `t` is queued or being handled. -/
def Bus.Undelivered (s : Bus F) (t : Topic) : Prop :=
  ∃ x : Entry (Reading F), (x ∈ s.box.queue ∨ s.box.inHand = some x) ∧ x.msg.topic = t

/-- No statement of `messageArrived` changes what the bean of its topic reads as while an event of
that topic is queued or being handled. -/
def KeepsUndelivered (N : Numbers F) : Guard (Bus F) (Event N) := fun s e =>
  e = .statement → ∀ c st rest, s.call = some c → c.rest = st :: rest →
    s.Undelivered c.message.topic →
      (st s.beans).reading c.message.topic = s.beans.reading c.message.topic

/-- The screen in the middle of `getMqttMessage`, between the screen before and the one after. -/
def midScreen : Stage → Screen → Screen → Screen
  | .log, old, _ => old
  | .compare, old, _ => old
  | .temp, old, _ => old
  | .time, old, new => { old with showtemp_temp := new.showtemp_temp }
  | .electric, old, new =>
      { old with showtemp_temp := new.showtemp_temp, showtemp_time := new.showtemp_time }
  | .strength, old, new => { new with showtemp_strength := old.showtemp_strength }

/-- A subscriber method that handles `m` at its next statement `stage`: what it has read so far
came from `m`, and only `getMqttMessage` on a message of `d` gets past the comparison. -/
structure Handling (d : String) (m : Reading F) (stage : Stage) (seen : Option (Reading F)) :
    Prop where
  seen : stage ≠ .log → seen = some m ∧ m.topic = .temper
  device : stage ≠ .log → stage ≠ .compare → Reading.isTemperOf d m = true

section Refinement

variable [Zero F]

/-- The part of the refinement relation that speaks neither of the method in progress nor of the
screen: the deliveries finished handed over the messages that made the posts, the call in progress
will leave its message in its bean, and every bean with an undelivered event still holds the message
of that event. -/
structure Settled (s : Bus F) (a : Board F) : Prop where
  box : a.box = s.box
  handed : s.handed = s.box.delivered.map fun x => some x.msg
  call : ∀ c, s.call = some c → c.rest <:+ statements c.message ∧
    (execAll c.rest s.beans).reading c.message.topic = some c.message ∧
    (c.onMain = true → s.box.inHand = none)
  content : ∀ x : Entry (Reading F), (x ∈ s.box.queue ∨ s.box.inHand = some x) →
    s.beans.reading x.msg.topic = some x.msg

/-- The bus matches the board. -/
structure Matches (N : Numbers F) (d : String) (s : Bus F) (a : Board F) : Prop
    extends Settled s a where
  idle : s.box.inHand = none → s.stage = .log ∧ s.screen = a.screen
  busy : ∀ x, s.box.inHand = some x → Handling d x.msg s.stage s.seen ∧
    s.screen = midScreen s.stage a.screen (Reading.showOn N d x.msg a.screen)

variable {N : Numbers F} {d : String}

omit [Zero F] in
/-- A temperature bean that reads back as a message holds its fields. -/
theorem temper_of_reading {b : Beans F} {m : Reading F} (ht : m.topic = .temper)
    (h : b.reading m.topic = some m) :
    ∃ bean device address time, b.temper = some bean ∧ bean.tdevice = some device ∧
      bean.time = some time ∧
      m = .temper device bean.tbattery bean.tstrength address time bean.temperature := by
  rw [ht] at h
  cases hb : b.temper with
  | none => simp [Beans.reading, hb] at h
  | some bean =>
      simp only [Beans.reading, hb, Option.bind_eq_bind, Option.bind_some, Option.pure_def,
        Option.bind_eq_some_iff, Option.some.injEq] at h
      obtain ⟨device, hd, address, -, time, htime, rfl⟩ := h
      exact ⟨bean, device, address, time, rfl, hd, htime, rfl⟩

theorem matches_init (N : Numbers F) (d : String) (layout : Screen) :
    Matches N d (machine N d layout).init (board N d layout).init where
  box := rfl
  handed := rfl
  idle := fun _ => ⟨rfl, rfl⟩
  busy := fun x h => by simp [machine, Box.empty] at h
  call := fun c h => by simp [machine] at h
  content := fun x h => by simp [machine, Box.empty] at h

/-- What one step of the bus does. -/
theorem bus_step_cases {s t : Bus F} {e : Event N} (h : s.step N d e = some t) :
    (∃ onMain m, e = .arrive onMain m ∧ s.call = none ∧
      (onMain = true → s.box.inHand = none) ∧
      t = { s with call := some ⟨onMain, m.reading, statements m.reading⟩ }) ∨
    (∃ onMain m st rest, e = .statement ∧ s.call = some ⟨onMain, m, st :: rest⟩ ∧
      t = { s with beans := st s.beans, call := some ⟨onMain, m, rest⟩ }) ∨
    (∃ m b, e = .post ∧ s.call = some ⟨true, m, []⟩ ∧ s.box.step (.postDirect m) = some b ∧
      t = { s with call := none, box := b }) ∨
    (∃ m b, e = .post ∧ s.call = some ⟨false, m, []⟩ ∧ s.box.step (.post m) = some b ∧
      t = { s with call := none, box := b }) ∨
    (∃ b, e = .deliver ∧ (∀ c, s.call = some c → c.onMain = false) ∧
      s.box.step .take = some b ∧ t = { s with box := b }) ∨
    (∃ x, e = .handle ∧ s.box.inHand = some x ∧
      s.handleStatement N d x.msg.topic = some t) := by
  cases e with
  | arrive onMain m =>
      cases hc : s.call with
      | some c => simp [Bus.step, hc] at h
      | none =>
          simp only [Bus.step, hc, Option.ite_none_left_eq_some, Option.some.injEq] at h
          obtain ⟨hidle, rfl⟩ := h
          refine Or.inl ⟨onMain, m, rfl, rfl, fun hm => ?_, rfl⟩
          simpa [hm] using hidle
  | statement =>
      rcases hc : s.call with - | ⟨onMain, m, - | ⟨st, rest⟩⟩
      · simp [Bus.step, hc] at h
      · simp [Bus.step, hc] at h
      · simp only [Bus.step, hc, Option.some.injEq] at h
        exact Or.inr (Or.inl ⟨onMain, m, st, rest, rfl, rfl, h.symm⟩)
  | post =>
      rcases hc : s.call with - | ⟨- | -, m, - | ⟨st, rest⟩⟩
      · simp [Bus.step, hc] at h
      · simp only [Bus.step, hc, Option.map_eq_some_iff] at h
        obtain ⟨b, hb, rfl⟩ := h
        exact Or.inr (Or.inr (Or.inr (Or.inl ⟨m, b, rfl, rfl, hb, rfl⟩)))
      · simp [Bus.step, hc] at h
      · simp only [Bus.step, hc, Option.map_eq_some_iff] at h
        obtain ⟨b, hb, rfl⟩ := h
        exact Or.inr (Or.inr (Or.inl ⟨m, b, rfl, rfl, hb, rfl⟩))
      · simp [Bus.step, hc] at h
  | deliver =>
      have hcall : ∀ c, s.call = some c → c.onMain = false := by
        intro c hc
        rcases c with ⟨- | -, m, rest⟩
        · rfl
        · simp [Bus.step, hc] at h
      have hbox : (s.box.step .take).map (fun b => { s with box := b }) = some t := by
        rcases hc : s.call with - | ⟨- | -, m, rest⟩
        · simpa [Bus.step, hc] using h
        · simpa [Bus.step, hc] using h
        · simp [Bus.step, hc] at h
      obtain ⟨b, hb, rfl⟩ := Option.map_eq_some_iff.1 hbox
      exact Or.inr (Or.inr (Or.inr (Or.inr (Or.inl ⟨b, rfl, hcall, hb, rfl⟩))))
  | handle =>
      cases hx : s.box.inHand with
      | none => simp [Bus.step, hx] at h
      | some x =>
          refine Or.inr (Or.inr (Or.inr (Or.inr (Or.inr ⟨x, rfl, rfl, ?_⟩))))
          simpa [Bus.step, hx] using h

omit [Zero F] in
/-- A statement of a subscriber method leaves the bus alone, or is done with the event in hand; it
leaves `messageArrived` alone. -/
theorem handleStatement_frame {s t : Bus F} {topic : Topic}
    (h : s.handleStatement N d topic = some t) :
    (t.box = s.box ∨ s.box.step .done = some t.box) ∧ t.call = s.call := by
  have hfinish : ∀ {u t : Bus F}, u.finish = some t →
      (t.box = u.box ∨ u.box.step .done = some t.box) ∧ t.call = u.call := by
    intro u t hu
    obtain ⟨b, hb, rfl⟩ := Option.map_eq_some_iff.1 hu
    exact ⟨Or.inr hb, rfl⟩
  cases hst : s.stage with
  | log =>
      cases topic with
      | temper =>
          simp only [Bus.handleStatement, hst, Option.some.injEq] at h
          obtain rfl := h
          exact ⟨Or.inl rfl, rfl⟩
      | sensir =>
          simp only [Bus.handleStatement, hst] at h
          have hf := hfinish h
          exact hf
      | door =>
          simp only [Bus.handleStatement, hst] at h
          have hf := hfinish h
          exact hf
  | compare =>
      simp only [Bus.handleStatement, hst] at h
      split at h
      · obtain rfl := Option.some.inj h
        exact ⟨Or.inl rfl, rfl⟩
      · exact hfinish h
  | strength =>
      simp only [Bus.handleStatement, hst, Option.bind_eq_some_iff] at h
      obtain ⟨bean, -, h⟩ := h
      have hf := hfinish h
      exact hf
  | temp =>
      simp only [Bus.handleStatement, hst, Option.map_eq_some_iff] at h
      obtain ⟨bean, -, rfl⟩ := h
      exact ⟨Or.inl rfl, rfl⟩
  | time =>
      simp only [Bus.handleStatement, hst, Option.map_eq_some_iff] at h
      obtain ⟨bean, -, rfl⟩ := h
      exact ⟨Or.inl rfl, rfl⟩
  | electric =>
      simp only [Bus.handleStatement, hst, Option.map_eq_some_iff] at h
      obtain ⟨bean, -, rfl⟩ := h
      exact ⟨Or.inl rfl, rfl⟩

/-- The event bus inside the machine is a mailbox: whatever the threads do, it goes through the
actions of one. -/
def mailboxSimulation (N : Numbers F) (d : String) (layout : Screen) :
    Simulation (machine N d layout) unguarded (Foundation.Mailbox.machine (Reading F)) where
  rel := fun s b => s.box = b
  rel_init := rfl
  rel_step := by
    rintro s b e t rfl - hst
    obtain ⟨onMain, m, -, -, -, rfl⟩ | ⟨onMain, m, st, rest, -, -, rfl⟩ | ⟨m, b, -, -, hb, rfl⟩ |
      ⟨m, b, -, -, hb, rfl⟩ | ⟨b, -, -, hb, rfl⟩ | ⟨x, -, -, hhandle⟩ := bus_step_cases hst
    · exact ⟨[], s.box, rfl, rfl⟩
    · exact ⟨[], s.box, rfl, rfl⟩
    · exact ⟨[.postDirect m], b, execFrom_single hb, rfl⟩
    · exact ⟨[.post m], b, execFrom_single hb, rfl⟩
    · exact ⟨[.take], b, execFrom_single hb, rfl⟩
    · rcases (handleStatement_frame hhandle).1 with hbox | hdone
      · exact ⟨[], s.box, rfl, hbox⟩
      · exact ⟨[.done], t.box, execFrom_single hdone, rfl⟩

/-- In every run, of whatever interleaving, the deliveries account for the posts. -/
theorem box_accounted_of_run {layout : Screen} {es : List (Event N)} {s : Bus F}
    (h : Run (machine N d layout) es s) : Accounted s.box := by
  obtain ⟨as, b, hrun, hbox⟩ := (mailboxSimulation N d layout).exists_run h
  have hbox : s.box = b := hbox
  rw [hbox]
  exact accounted_of_run hrun

/-- No event is lost on the bus and none is delivered twice, also in the runs that overwrite the
contents of an event. -/
theorem posted_perm_flow {layout : Screen} {es : List (Event N)} {s : Bus F}
    (h : Run (machine N d layout) es s) : s.box.posted.Perm s.box.flow :=
  perm_of_accounted (box_accounted_of_run h)

/-- A new call has all its statements before it. -/
theorem matches_arrive {s : Bus F} {a : Board F} (hs : Matches N d s a) (onMain : Bool)
    (m : Reading F) (hmain : onMain = true → s.box.inHand = none) :
    Matches N d { s with call := some ⟨onMain, m, statements m⟩ } a where
  box := hs.box
  handed := hs.handed
  idle := hs.idle
  busy := hs.busy
  call := by
    intro c hc
    obtain rfl := Option.some.inj hc
    exact ⟨List.suffix_rfl, statements_reading m s.beans, hmain⟩
  content := hs.content

/-- A statement that spares the bean of an undelivered event of its own topic spares every bean
with an undelivered event. -/
theorem matches_statement {s : Bus F} {a : Board F} (hs : Matches N d s a) {onMain : Bool}
    {m : Reading F} {st : Statement F} {rest : List (Statement F)}
    (hcall : s.call = some ⟨onMain, m, st :: rest⟩)
    (hkeep : s.Undelivered m.topic → (st s.beans).reading m.topic = s.beans.reading m.topic) :
    Matches N d { s with beans := st s.beans, call := some ⟨onMain, m, rest⟩ } a where
  box := hs.box
  handed := hs.handed
  idle := hs.idle
  busy := hs.busy
  call := by
    intro c hc
    obtain rfl := Option.some.inj hc
    obtain ⟨hsuffix, hread, hmain⟩ := hs.call _ hcall
    exact ⟨(List.suffix_cons st rest).trans hsuffix, hread, hmain⟩
  content := by
    intro x hx
    have hold := hs.content x hx
    by_cases ht : x.msg.topic = m.topic
    · -- the bean that the call writes is spared by the guard
      show (st s.beans).reading x.msg.topic = some x.msg
      rw [← hold, ht]
      exact hkeep ⟨x, hx, ht⟩
    · -- the beans of the other topics are not written at all
      have hmem : st ∈ statements m := (hs.call _ hcall).1.subset List.mem_cons_self
      exact (statements_frame hmem s.beans ht).trans hold

/-- A call with no statement left has its message in the bean of its topic. -/
theorem reading_of_finished {s : Bus F} {a : Board F} (hs : Settled s a) {onMain : Bool}
    {m : Reading F} (hcall : s.call = some ⟨onMain, m, []⟩) :
    s.beans.reading m.topic = some m :=
  (hs.call _ hcall).2.1

theorem matches_postDirect {s : Bus F} {a : Board F} (hs : Matches N d s a) {m : Reading F}
    {b : Box (Reading F)} (hcall : s.call = some ⟨true, m, []⟩)
    (hb : s.box.step (.postDirect m) = some b) :
    Matches N d { s with call := none, box := b } ⟨b, a.screen⟩ := by
  obtain ⟨_, h, -⟩ | ⟨_, h, hnone, rfl⟩ | ⟨_, _, h, -⟩ | ⟨_, h, -⟩ := step_cases hb <;> cases h
  obtain ⟨hstage, hscreen⟩ := hs.idle hnone
  refine ⟨⟨rfl, hs.handed, fun c hc => (nomatch hc), ?_⟩, fun h => (nomatch h), ?_⟩
  · rintro x (hx | hx)
    · exact hs.content x (Or.inl hx)
    · obtain rfl := Option.some.inj hx
      exact reading_of_finished hs.toSettled hcall
  · intro x hx
    refine ⟨⟨fun h => absurd hstage h, fun h => absurd hstage h⟩, ?_⟩
    show s.screen = midScreen s.stage a.screen _
    rw [hstage]
    exact hscreen

theorem matches_post {s : Bus F} {a : Board F} (hs : Matches N d s a) {m : Reading F}
    {b : Box (Reading F)} (hcall : s.call = some ⟨false, m, []⟩)
    (hb : s.box.step (.post m) = some b) :
    Matches N d { s with call := none, box := b } ⟨b, a.screen⟩ := by
  obtain ⟨_, h, rfl⟩ | ⟨_, h, -⟩ | ⟨_, _, h, -⟩ | ⟨_, h, -⟩ := step_cases hb <;> cases h
  refine ⟨⟨rfl, hs.handed, fun c hc => (nomatch hc), ?_⟩, hs.idle, hs.busy⟩
  rintro x (hx | hx)
  · rcases List.mem_append.1 hx with hx | hx
    · exact hs.content x (Or.inl hx)
    · obtain rfl := List.mem_singleton.1 hx
      -- all statements of the call are done, so its bean holds its message
      exact reading_of_finished hs.toSettled hcall
  · exact hs.content x (Or.inr hx)

theorem matches_deliver {s : Bus F} {a : Board F} (hs : Matches N d s a) {b : Box (Reading F)}
    (hcall : ∀ c, s.call = some c → c.onMain = false) (hb : s.box.step .take = some b) :
    Matches N d { s with box := b } ⟨b, a.screen⟩ := by
  -- of the four actions of a mailbox only `take` is a delivery
  obtain ⟨_, h, -⟩ | ⟨_, h, -⟩ | ⟨x, rest, -, hnone, hq, rfl⟩ | ⟨_, h, -⟩ := step_cases hb
  · cases h
  · cases h
  · obtain ⟨hstage, hscreen⟩ := hs.idle hnone
    refine ⟨⟨rfl, hs.handed, fun c hc => ?_, ?_⟩, fun h => (nomatch h), fun y _ => ?_⟩
    · obtain ⟨hsuffix, hread, -⟩ := hs.call c hc
      exact ⟨hsuffix, hread, fun hm => by simp [hcall c hc] at hm⟩
    · rintro y (hy | hy)
      · exact hs.content y (Or.inl (by rw [hq]; exact List.mem_cons_of_mem x hy))
      · obtain rfl := Option.some.inj hy
        exact hs.content x (Or.inl (by rw [hq]; exact List.mem_cons_self))
    · refine ⟨⟨fun h => absurd hstage h, fun h => absurd hstage h⟩, ?_⟩
      show s.screen = midScreen s.stage a.screen _
      rw [hstage]
      exact hscreen
  · cases h

/-- A method that returns has handed its event over, and the board is done with the message. -/
theorem matches_finish (layout : Screen) {s t : Bus F} {a : Board F} {x : Entry (Reading F)}
    (ht : s.finish = some t) (hs : Settled s a) (hx : s.box.inHand = some x)
    (hseen : s.seen = some x.msg)
    (hscreen : s.screen = Reading.showOn N d x.msg a.screen) :
    ∃ ds b, (board N d layout).execFrom a ds = some b ∧ Matches N d t b := by
  obtain ⟨box', hbox, rfl⟩ := Option.map_eq_some_iff.1 ht
  -- the board answers the end of the method by being done with the message
  refine ⟨[.done], ⟨box', a.screenAfter N d .done⟩, ?_, ?_⟩
  · apply execFrom_single
    show (a.box.step .done).map _ = _
    rw [hs.box, hbox]
    rfl
  · rw [Board.screenAfter_done (by rw [hs.box]; exact hx)]
    obtain ⟨_, h, -⟩ | ⟨_, h, -⟩ | ⟨_, _, h, -⟩ | ⟨y, -, hy, rfl⟩ := step_cases hbox
    · cases h
    · cases h
    · cases h
    · -- the event that is done with is the one the method handled
      obtain rfl : x = y := Option.some.inj (hx.symm.trans hy)
      refine ⟨⟨rfl, ?_, fun c hc => ?_, fun z hz => ?_⟩, fun _ => ⟨rfl, hscreen⟩,
        fun z hz => (nomatch hz)⟩
      · show s.handed ++ [s.seen] = _
        rw [hs.handed, hseen]
        simp
      · obtain ⟨hsuffix, hread, -⟩ := hs.call c hc
        exact ⟨hsuffix, hread, fun _ => rfl⟩
      · rcases hz with hz | hz
        · exact hs.content z (Or.inl hz)
        · exact (nomatch hz)

/-- A statement of `getMqttMessage` after which the method goes on. -/
theorem matches_continue (layout : Screen) {s t : Bus F} {a : Board F} {x : Entry (Reading F)}
    (hst : some t = some s) (hs : Settled t a) (hx : t.box.inHand = some x)
    (hhandling : Handling d x.msg t.stage t.seen)
    (hscreen : t.screen = midScreen t.stage a.screen (Reading.showOn N d x.msg a.screen)) :
    ∃ ds b, (board N d layout).execFrom a ds = some b ∧ Matches N d s b := by
  obtain rfl := Option.some.inj hst
  refine ⟨[], a, rfl, hs, fun h => ?_, fun y hy => ?_⟩
  · rw [hx] at h
    cases h
  · obtain rfl := Option.some.inj (hx.symm.trans hy)
    exact ⟨hhandling, hscreen⟩

/-- The log line of a subscriber method. -/
theorem matches_log (layout : Screen) {s t : Bus F} {a : Board F} {x : Entry (Reading F)}
    (hs : Matches N d s a) (hx : s.box.inHand = some x) (hstage : s.stage = .log)
    (h : s.handleStatement N d x.msg.topic = some t) :
    ∃ ds b, (board N d layout).execFrom a ds = some b ∧ Matches N d t b := by
  have hread := hs.content x (Or.inr hx)
  have hscreen := (hs.busy x hx).2
  rw [hstage] at hscreen
  -- only the subscriber of temperatures does more than log
  cases htopic : x.msg.topic with
  | temper =>
      rw [htopic] at hread h
      simp only [Bus.handleStatement, hstage] at h
      exact matches_continue layout h ⟨hs.box, hs.handed, hs.call, hs.content⟩ hx
        ⟨fun _ => ⟨hread, htopic⟩, fun _ h => absurd rfl h⟩ hscreen
  | sensir =>
      rw [htopic] at hread h
      simp only [Bus.handleStatement, hstage] at h
      refine matches_finish layout h ⟨hs.box, hs.handed, hs.call, hs.content⟩ hx hread ?_
      refine hscreen.trans (showOn_of_not_isTemperOf N ?_ _).symm
      cases hm : x.msg <;> simp_all [Reading.topic, Reading.isTemperOf]
  | door =>
      rw [htopic] at hread h
      simp only [Bus.handleStatement, hstage] at h
      refine matches_finish layout h ⟨hs.box, hs.handed, hs.call, hs.content⟩ hx hread ?_
      refine hscreen.trans (showOn_of_not_isTemperOf N ?_ _).symm
      cases hm : x.msg <;> simp_all [Reading.topic, Reading.isTemperOf]

/-- The comparison and the four `setText` calls of `getMqttMessage`. The bean they read still holds
the message in hand, so each text comes from that message. -/
theorem matches_getMqttMessage (layout : Screen) {s t : Bus F} {a : Board F}
    {x : Entry (Reading F)} (hs : Matches N d s a) (hx : s.box.inHand = some x)
    (hstage : s.stage ≠ .log) (h : s.handleStatement N d x.msg.topic = some t) :
    ∃ ds b, (board N d layout).execFrom a ds = some b ∧ Matches N d t b := by
  obtain ⟨hhandling, hscreen⟩ := hs.busy x hx
  obtain ⟨hseen, htopic⟩ := hhandling.seen hstage
  obtain ⟨bean, device, address, time, hbean, hdevice, htime, hm⟩ :=
    temper_of_reading htopic (hs.content x (Or.inr hx))
  have hsettled : ∀ stage screen, Settled { s with stage := stage, screen := screen } a :=
    fun _ _ => ⟨hs.box, hs.handed, hs.call, hs.content⟩
  have hof : Reading.isTemperOf d x.msg = decide (device = d) := by rw [hm]; rfl
  have hshow : device = d → Reading.showOn N d x.msg a.screen =
      ⟨N.floatText bean.temperature, time, N.floatText bean.tbattery,
        N.floatText bean.tstrength⟩ := by
    intro hd
    rw [hm, Reading.showOn, if_pos hd]
  have hd : s.stage ≠ .compare → device = d := fun hc => by
    simpa [hof] using hhandling.device hstage hc
  cases hst : s.stage with
  | log => exact absurd hst hstage
  | compare =>
      rw [hst] at hscreen
      simp only [Bus.handleStatement, hst, hbean, Option.bind_some, hdevice,
        Option.some.injEq] at h
      -- only a message of the device of the activity goes on to the four texts
      by_cases hdd : device = d
      · rw [if_pos hdd] at h
        exact matches_continue layout h (hsettled .temp s.screen) hx
          ⟨fun _ => ⟨hseen, htopic⟩, fun _ _ => by simp [hof, hdd]⟩ hscreen
      · rw [if_neg hdd] at h
        refine matches_finish layout h hs.toSettled hx hseen ?_
        exact hscreen.trans (showOn_of_not_isTemperOf N (by simp [hof, hdd]) _).symm
  | temp =>
      have hdd := hd (by simp [hst])
      rw [hst] at hscreen
      simp only [Bus.handleStatement, hst, hbean, Option.map_some] at h
      refine matches_continue layout h (hsettled .time _) hx
        ⟨fun _ => ⟨hseen, htopic⟩, fun _ _ => by simp [hof, hdd]⟩ ?_
      simp [hscreen, midScreen, hshow hdd]
  | time =>
      have hdd := hd (by simp [hst])
      rw [hst] at hscreen
      simp only [Bus.handleStatement, hst, hbean, Option.map_some] at h
      refine matches_continue layout h (hsettled .electric _) hx
        ⟨fun _ => ⟨hseen, htopic⟩, fun _ _ => by simp [hof, hdd]⟩ ?_
      simp [hscreen, midScreen, hshow hdd, htime, nullable]
  | electric =>
      have hdd := hd (by simp [hst])
      rw [hst] at hscreen
      simp only [Bus.handleStatement, hst, hbean, Option.map_some] at h
      refine matches_continue layout h (hsettled .strength _) hx
        ⟨fun _ => ⟨hseen, htopic⟩, fun _ _ => by simp [hof, hdd]⟩ ?_
      simp [hscreen, midScreen, hshow hdd]
  | strength =>
      have hdd := hd (by simp [hst])
      rw [hst] at hscreen
      simp only [Bus.handleStatement, hst, hbean, Option.bind_some] at h
      refine matches_finish layout h ⟨hs.box, hs.handed, hs.call, hs.content⟩ hx hseen ?_
      simp [hscreen, midScreen, hshow hdd]

/-- In runs that keep the undelivered events the bus refines the board. -/
def boardSimulation (N : Numbers F) (d : String) (layout : Screen) :
    Simulation (machine N d layout) (KeepsUndelivered N) (board N d layout) where
  rel := Matches N d
  rel_init := matches_init N d layout
  rel_step := by
    intro s a e t hs hkeep hstep
    have hsingle : ∀ {act b}, s.box.step act = some b → act ≠ .done →
        (board N d layout).execFrom a [act] = some ⟨b, a.screen⟩ := by
      intro act b hb hne
      apply execFrom_single
      show (a.box.step act).map _ = _
      rw [hs.box, hb]
      cases act <;> first | rfl | exact absurd rfl hne
    obtain ⟨onMain, m, rfl, -, hmain, rfl⟩ | ⟨onMain, m, st, rest, rfl, hcall, rfl⟩ |
      ⟨m, b, rfl, hcall, hb, rfl⟩ | ⟨m, b, rfl, hcall, hb, rfl⟩ | ⟨b, rfl, hcall, hb, rfl⟩ |
      ⟨x, rfl, hx, hhandle⟩ := bus_step_cases hstep
    · -- `messageArrived` is nothing on the board until its post
      exact ⟨[], a, rfl, matches_arrive hs onMain m.reading hmain⟩
    · exact ⟨[], a, rfl, matches_statement hs hcall (hkeep rfl _ st rest hcall rfl)⟩
    · exact ⟨[.postDirect m], _, hsingle hb (fun h => nomatch h), matches_postDirect hs hcall hb⟩
    · exact ⟨[.post m], _, hsingle hb (fun h => nomatch h), matches_post hs hcall hb⟩
    · exact ⟨[.take], _, hsingle hb (fun h => nomatch h), matches_deliver hs hcall hb⟩
    · by_cases hstage : s.stage = .log
      · exact matches_log layout hs hx hstage hhandle
      · exact matches_getMqttMessage layout hs hx hstage hhandle

/-! ## Deliveries of a run -/

omit [Zero F] in
/-- The messages whose arrival a run contains, in order. -/
def arrivals (es : List (Event N)) : List (Reading F) :=
  es.filterMap fun e =>
    match e with
    | .arrive _ m => some m.reading
    | _ => none

/-- Every delivery handed its subscriber the message whose arrival made the post; every message
that arrived was posted, in order, but for the one in progress; every post was delivered, is in
hand or waits, in post order; and between two methods the activity shows the last temperature
message of its device among the deliveries. -/
structure Faithful (N : Numbers F) (d : String) (layout : Screen) (es : List (Event N))
    (s : Bus F) : Prop where
  handed : s.handed = s.box.delivered.map fun x => some x.msg
  posted : s.box.posted.map (·.msg) ++ (s.call.map (·.message)).toList = arrivals es
  accounted : ∀ k, kind k s.box.posted = kind k s.box.flow
  screen : s.box.inHand = none →
    s.screen = lastShown N d layout (s.box.delivered.map (·.msg))

/-- What has been posted and what is in progress are the arrivals of the run. -/
theorem posted_of_run {layout : Screen} {es : List (Event N)} {s : Bus F}
    (h : Run (machine N d layout) es s) :
    s.box.posted.map (·.msg) ++ (s.call.map (·.message)).toList = arrivals es := by
  refine h.invariant_trace (I := fun es s =>
    s.box.posted.map (·.msg) ++ (s.call.map (·.message)).toList = arrivals es) rfl ?_
  intro es s e t hI _ hst
  have happend : ∀ e : Event N, arrivals (es ++ [e]) = arrivals es ++ arrivals [e] := fun e =>
    List.filterMap_append ..
  rw [happend, ← hI]
  -- a message is posted by the call it arrived with, so the two lists move together
  obtain ⟨onMain, m, rfl, hcall, -, rfl⟩ | ⟨onMain, m, st, rest, rfl, hcall, rfl⟩ |
    ⟨m, b, rfl, hcall, hb, rfl⟩ | ⟨m, b, rfl, hcall, hb, rfl⟩ | ⟨b, rfl, -, hb, rfl⟩ |
    ⟨x, rfl, hx, hhandle⟩ := bus_step_cases hst
  · simp [arrivals, hcall]
  · simp [arrivals, hcall]
  · obtain ⟨_, h, -⟩ | ⟨_, h, -, rfl⟩ | ⟨_, _, h, -⟩ | ⟨_, h, -⟩ := step_cases hb <;> cases h
    simp [arrivals, hcall]
  · obtain ⟨_, h, rfl⟩ | ⟨_, h, -⟩ | ⟨_, _, h, -⟩ | ⟨_, h, -⟩ := step_cases hb <;> cases h
    simp [arrivals, hcall]
  · obtain ⟨_, h, -⟩ | ⟨_, h, -⟩ | ⟨_, _, -, -, -, rfl⟩ | ⟨_, h, -⟩ := step_cases hb
    · cases h
    · cases h
    · simp [arrivals]
    · cases h
  · obtain ⟨hbox, hcall⟩ := handleStatement_frame hhandle
    have hposted : t.box.posted = s.box.posted := by
      rcases hbox with hbox | hdone
      · rw [hbox]
      · obtain ⟨_, h, -⟩ | ⟨_, h, -⟩ | ⟨_, _, h, -⟩ | ⟨_, -, -, heq⟩ := step_cases hdone
        · cases h
        · cases h
        · cases h
        · rw [heq]
    simp [arrivals, hposted, hcall]

/-- In a run in which no setter of `messageArrived` changes a bean whose event is still queued or
being handled, every delivery is faithful. -/
theorem faithful_of_keepsUndelivered (N : Numbers F) (d : String) (layout : Screen)
    {es : List (Event N)} {s : Bus F}
    (h : RunUnder (machine N d layout) (KeepsUndelivered N) es s) : Faithful N d layout es s := by
  obtain ⟨_, a, hrun, hmatch⟩ := (boardSimulation N d layout).exists_run h
  have hmatch : Matches N d s a := hmatch
  refine ⟨hmatch.handed, posted_of_run h.toRun, (box_accounted_of_run h.toRun).flow, ?_⟩
  intro hidle
  rw [(hmatch.idle hidle).2, board_screen_of_run hrun, hmatch.box]

end Refinement

/-! ## Two arrivals before one delivery -/

/-- A temperature message of device `1`. -/
def firstMessage : Message decimalNumbers where
  topic := "temperature"
  payload := "1,90,40,lab,08:00,36"
  reading := .temper "1" 90 40 "lab" "08:00" 36
  parsed := by rfl

/-- A temperature message of device `2`. -/
def secondMessage : Message decimalNumbers where
  topic := "temperature"
  payload := "2,80,30,dorm,08:01,25"
  reading := .temper "2" 80 30 "dorm" "08:01" 25
  parsed := by rfl

/-- The arrival of a message off the main thread, up to its post. -/
def arrival (m : Message decimalNumbers) : List (Event decimalNumbers) :=
  .arrive false m :: List.replicate 7 .statement ++ [.post]

/-- The texts of an activity that has shown nothing. -/
def blankScreen : Screen := ⟨"", "", "", ""⟩

/-- Both messages arrive before the event of the first one is delivered. -/
def twoArrivals : List (Event decimalNumbers) :=
  arrival firstMessage ++ arrival secondMessage ++ [.deliver, .handle, .handle]

/-- The subscriber of the first event is handed the second message, and the activity of device `1`
never shows the message of its device. -/
theorem overwritten_before_delivery :
    ∃ s, Run (machine decimalNumbers "1" blankScreen) twoArrivals s ∧
      ¬ Faithful decimalNumbers "1" blankScreen twoArrivals s := by
  have hexec : ((machine decimalNumbers "1" blankScreen).exec twoArrivals).map
      (fun s => (s.handed, s.box.delivered)) =
        some ([some secondMessage.reading], [⟨false, firstMessage.reading⟩]) := by decide
  obtain ⟨s, hrun, hs⟩ := exists_run_of_exec _ _ _ hexec
  obtain ⟨hhanded, hdelivered⟩ := Prod.mk.inj hs
  refine ⟨s, hrun, fun hfaithful => ?_⟩
  have h := hfaithful.handed
  rw [hhanded, hdelivered] at h
  exact absurd h (by decide)

/-- The first message is delivered before the second one arrives. -/
def oneByOne : List (Event decimalNumbers) :=
  arrival firstMessage ++ [.deliver] ++ List.replicate 6 .handle ++ arrival secondMessage

/-- The check that `messageArrived` writes only while nothing is queued or being handled. -/
def writesAlone (s : Bus Int) : Event decimalNumbers → Bool
  | .statement => s.box.queue.isEmpty && s.box.inHand.isNone
  | _ => true

/-- Messages that are delivered one by one are delivered faithfully. -/
theorem faithful_oneByOne :
    ∃ s, RunUnder (machine decimalNumbers "1" blankScreen) (KeepsUndelivered decimalNumbers)
      oneByOne s ∧ Faithful decimalNumbers "1" blankScreen oneByOne s := by
  have hexec : (((machine decimalNumbers "1" blankScreen).restrict writesAlone).exec oneByOne).map
      (fun s => s.handed) = some [some firstMessage.reading] := by decide
  obtain ⟨s, hrun, -⟩ := exists_run_of_exec _ _ _ hexec
  have hguard : RunUnder (machine decimalNumbers "1" blankScreen)
      (KeepsUndelivered decimalNumbers) oneByOne s := by
    refine runUnder_of_restrict (fun s e hcheck => ?_) hrun
    rintro rfl c st rest - - ⟨x, hx | hx, -⟩
    · simp [writesAlone, List.ne_nil_of_mem hx] at hcheck
    · simp [writesAlone, hx] at hcheck
  exact ⟨s, hguard, faithful_of_keepsUndelivered decimalNumbers "1" blankScreen hguard⟩

end IotClient.Mqtt.Delivery
