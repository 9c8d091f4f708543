import IotClient.Video.ControlSession

/-!
# Control sessions that do not mix

Each session should talk on the connection that it opened, and on no other. The sessions find their
socket and its streams in fields that every other session assigns too, so two sessions that overlap
can go out on one connection.

What goes out on the connections is right exactly in the runs in which each write, each read of a
reply and each `close` of a session is made on the connection that the session opened, and in which
no session that has opened one comes to a socket that is not connected, closed or shut down
(`separate_iff`). Sessions of which each is started after the last one has ended always do so
(`own_of_alone`). In the run `overlapping` the login of a session that switches the camera on goes
out on the connection of one that switches it off (`login_on_other_connection`); in the run
`displaced` a session dies with its login sent, because another one has put a new socket in its way.
-/

set_option autoImplicit false

namespace IotClient.Video.ControlSession

open IotClient.Foundation.Runs
open IotClient.Foundation.Threads

abbrev State := Config Fields Button Instruction (Option Nat)

/-! ## The property and the condition -/

/-- The bytes that a session has written when it has these instructions behind it. -/
def sent (done : List Instruction) : List UInt8 :=
  done.flatMap fun
    | .call (.write msg) => msg
    | _ => []

/-- The bytes of a whole session. -/
def sequence : Button → List UInt8
  | .btn_reload => SIGN_CHECK_HEAD ++ getBytes (strname ++ strpassword) ++ SIGN_ON
  | .fab_off => SIGN_CHECK_HEAD ++ getBytes (strname ++ strpassword) ++ SIGN_OFF

/-- The session is over, and it was not the network that has ended it. -/
def Completed (t : Thread Button Instruction (Option Nat)) : Prop :=
  t.Over ∧ t.ended ≠ some .failed

/-- Every connection carries what the session that opened it has written so far. Once this session
has called `close`, and whenever it is over without a failure of the network, the connection carries
all bytes of the session and was closed by it. And what a session has received came from the
connection that it opened. -/
structure Separate (s : State) : Prop where
  connections : ∀ c i, (s.shared.sockets c).opener = some i →
    ∃ t, s.threads[i]? = some t ∧ (s.shared.sockets c).carried = sent t.done ∧
      (.call .close ∈ t.done ∨ Completed t →
        (s.shared.sockets c).carried = sequence t.kind ∧ i ∈ (s.shared.sockets c).closers)
  replies : ∀ i c bytes, (i, c, bytes) ∈ s.shared.received →
    (s.shared.sockets c).opener = some i

/-- A session writes, reads a reply and closes on the connection that it opened, and it finds the
socket of each of its calls ready. -/
def Own : Guard State (Event Button Outside) := fun s e =>
  ∀ i t x rest c, e = .run i → s.threads[i]? = some t → t.todo = .call x :: rest →
    t.memory = some c →
      (s.shared.uses c x = true → (s.shared.sockets c).opener = some i) ∧
        s.shared.ready c x = true

/-! ## What stands before an instruction -/

/-- What a session has behind it when it comes to an instruction. -/
def before (done : List Instruction) : Instruction → Bool
  | .newSocket => decide (.call .connect ∉ done ∧ .loadSocket ∉ done)
  | .storeOut => decide (.loadSocket ∈ done)
  | .loadOut => decide (.call .connect ∈ done ∧ .storeOut ∈ done)
  | .storeIn => decide (.loadSocket ∈ done)
  | .loadIn => decide (.call .connect ∈ done ∧ .storeIn ∈ done)
  | .call .connect =>
      decide (.loadSocket ∈ done ∧ .call .connect ∉ done ∧ .call .close ∉ done ∧
        .storeOut ∉ done ∧ .storeIn ∉ done ∧ sent done = [])
  | .call (.write msg) =>
      decide (.loadSocket ∈ done ∧ .call .connect ∈ done ∧ .call .close ∉ done ∧ msg ≠ [])
  | .call .reportConnected => decide (.loadSocket ∈ done)
  | .call .shutdownInput => decide (.loadSocket ∈ done ∧ .call .close ∈ done)
  | .call _ => decide (.loadSocket ∈ done ∧ .call .connect ∈ done ∧ .call .close ∉ done)
  | _ => true

/-- A split of the code of a session. -/
def placed (button : Button) (done todo : List Instruction) : Bool :=
  (decide (.call .close ∉ done) || sent done == sequence button) &&
    (decide (.call .close ∈ done) || !todo.isEmpty) && todo.head?.all (before done)

theorem placed_at (button : Button) :
    (List.range ((onClick button).length + 1)).all
      (fun k => placed button ((onClick button).take k) ((onClick button).drop k)) = true := by
  cases button with
  | btn_reload => decide
  | fab_off => decide

theorem placed_of_code {button : Button} {done todo : List Instruction}
    (h : done ++ todo = onClick button) : placed button done todo = true := by
  have hlength : done.length < (onClick button).length + 1 := by
    rw [← h, List.length_append]
    omega
  have hplaced := List.all_eq_true.1 (placed_at button) _ (List.mem_range.2 hlength)
  rw [← h, List.take_left, List.drop_left] at hplaced
  exact hplaced

theorem before_of_code {button : Button} {done rest : List Instruction} {x : Instruction}
    (h : done ++ x :: rest = onClick button) : before done x = true :=
  (Bool.and_eq_true_iff.1 (placed_of_code h)).2

theorem sent_of_closed {button : Button} {done todo : List Instruction}
    (h : done ++ todo = onClick button) (hclose : .call .close ∈ done) :
    sent done = sequence button := by
  obtain ⟨hplaced, -⟩ := Bool.and_eq_true_iff.1 (placed_of_code h)
  rcases Bool.or_eq_true_iff.1 (Bool.and_eq_true_iff.1 hplaced).1 with hopen | hsent
  · exact absurd hclose (of_decide_eq_true hopen)
  · exact eq_of_beq hsent

/-- A session has called `close` when it is through with its code. -/
theorem closed_of_through {button : Button} {done : List Instruction}
    (h : done ++ [] = onClick button) : .call .close ∈ done := by
  obtain ⟨hplaced, -⟩ := Bool.and_eq_true_iff.1 (placed_of_code h)
  rcases Bool.or_eq_true_iff.1 (Bool.and_eq_true_iff.1 hplaced).2 with hclosed | hrest
  · exact of_decide_eq_true hclosed
  · cases hrest

/-- A session comes to its calls, and stores a stream, with a socket loaded. -/
theorem load_before_call {done : List Instruction} {x : Call}
    (h : before done (.call x) = true) : .loadSocket ∈ done := by
  cases x with
  | reportConnected => exact of_decide_eq_true h
  | _ => exact (of_decide_eq_true h).1

theorem sent_append (done : List Instruction) (x : Instruction) :
    sent (done ++ [x]) = sent done ++ sent [x] := List.flatMap_append

/-! ## Connections and sessions -/

/-- The sessions, with the instructions `done` behind them, have opened and closed the connections
of the ledger. -/
structure Tracked (l : Ledger) (done : Nat → List Instruction) : Prop where
  fresh : ∀ c, l.opener c = none → l.carried c = []
  opened : ∀ c i, l.opener c = some i → .call .connect ∈ done i
  unique : ∀ c d i, l.opener c = some i → l.opener d = some i → c = d
  connected : ∀ i, .call .connect ∈ done i → ∃ c, l.opener c = some i
  closers : ∀ c i, i ∈ l.closers c → .call .close ∈ done i

/-- The property of the connections, with the instructions `done` behind the sessions. -/
structure Kept (l : Ledger) (done : Nat → List Instruction) : Prop where
  carried : ∀ c i, l.opener c = some i → l.carried c = sent (done i)
  closed : ∀ c i, l.opener c = some i → .call .close ∈ done i → i ∈ l.closers c
  replies : ∀ i c bytes, (i, c, bytes) ∈ l.received → l.opener c = some i

variable {u : Fields} {l m : Ledger} {done : Nat → List Instruction} {i c : Nat}

/-- The instructions behind the sessions, once the `i`-th one has taken `x`. -/
abbrev taken (done : Nat → List Instruction) (i : Nat) (x : Instruction) :
    Nat → List Instruction :=
  Function.update done i (done i ++ [x])

theorem taken_of_ne {j : Nat} (hj : j ≠ i) (x : Instruction) : taken done i x j = done j :=
  Function.update_of_ne hj _ _

theorem mem_taken {j : Nat} {x y : Instruction} :
    y ∈ taken done i x j ↔ y ∈ done j ∨ j = i ∧ y = x := by
  by_cases hj : j = i
  · subst hj
    simp [taken]
  · simp [taken, hj]

theorem mem_taken_of_ne {j : Nat} {x y : Instruction} (hxy : y ≠ x) :
    y ∈ taken done i x j ↔ y ∈ done j := by
  rw [mem_taken]
  exact or_iff_left fun h => hxy h.2

theorem sent_taken_self (x : Instruction) :
    sent (taken done i x i) = sent (done i) ++ sent [x] := by
  rw [taken, Function.update_self, sent_append]

/-- An instruction that writes nothing. -/
theorem sent_taken {x : Instruction} (hx : sent [x] = []) (j : Nat) :
    sent (taken done i x j) = sent (done j) := by
  by_cases hj : j = i
  · rw [hj, sent_taken_self, hx, List.append_nil]
  · rw [taken_of_ne hj]

theorem sent_eq_nil {x : Instruction} (hx : ∀ msg, x ≠ .call (.write msg)) : sent [x] = [] := by
  cases x with
  | call y =>
      cases y with
      | write msg => exact absurd rfl (hx msg)
      | _ => rfl
  | _ => rfl

/-- An instruction that neither connects nor closes. -/
theorem Tracked.take (h : Tracked l done) {x : Instruction} (hconnect : x ≠ .call .connect)
    (hclose : x ≠ .call .close) : Tracked l (taken done i x) where
  fresh := h.fresh
  opened := fun c j hc => (mem_taken_of_ne hconnect.symm).2 (h.opened c j hc)
  unique := h.unique
  connected := fun j hj => h.connected j ((mem_taken_of_ne hconnect.symm).1 hj)
  closers := fun c j hj => (mem_taken_of_ne hclose.symm).2 (h.closers c j hj)

/-- An instruction that neither writes nor closes. -/
theorem Kept.take (h : Kept l done) {x : Instruction} (hwrite : ∀ msg, x ≠ .call (.write msg))
    (hclose : x ≠ .call .close) : Kept l (taken done i x) where
  carried := fun c j hc => by rw [sent_taken (sent_eq_nil hwrite)]; exact h.carried c j hc
  closed := fun c j hc hj => h.closed c j hc ((mem_taken_of_ne hclose.symm).1 hj)
  replies := h.replies

theorem opener_of_isOpen (hopen : (u.sockets c).isOpen = true) :
    ∃ k, u.ledger.opener c = some k :=
  Option.isSome_iff_exists.1 (Bool.and_eq_true_iff.1 hopen).1

/-- Every call keeps track of the connections. -/
theorem Tracked.effect (h : Tracked u.ledger done) {x : Call}
    (hbefore : before (done i) (.call x) = true) (heffect : Effect u i c x m) :
    Tracked m (taken done i (.call x)) := by
  cases heffect with
  | connected hopener =>
      obtain ⟨-, hconnect, -⟩ := of_decide_eq_true hbefore
      -- the session has not opened a connection before
      have hnew : ∀ d, u.ledger.opener d ≠ some i := fun d hd => hconnect (h.opened d i hd)
      refine ⟨?_, ?_, ?_, ?_, ?_⟩
      · intro d hd
        rw [Ledger.opener_connect] at hd
        split_ifs at hd
        exact h.fresh d hd
      · intro d j hd
        rcases Ledger.opener_connect_cases hd with ⟨-, rfl⟩ | ⟨-, hd⟩
        · exact mem_taken.2 (Or.inr ⟨rfl, rfl⟩)
        · exact mem_taken.2 (Or.inl (h.opened d j hd))
      · intro d d' j hd hd'
        rcases Ledger.opener_connect_cases hd with ⟨rfl, rfl⟩ | ⟨-, hold⟩
        · rcases Ledger.opener_connect_cases hd' with ⟨rfl, -⟩ | ⟨-, hold'⟩
          · rfl
          · exact absurd hold' (hnew d')
        · rcases Ledger.opener_connect_cases hd' with ⟨-, rfl⟩ | ⟨-, hold'⟩
          · exact absurd hold (hnew d)
          · exact h.unique d d' j hold hold'
      · intro j hj
        rcases mem_taken.1 hj with hj | ⟨rfl, -⟩
        · obtain ⟨d, hd⟩ := h.connected j hj
          refine ⟨d, ?_⟩
          rw [Ledger.opener_connect, if_neg]
          · exact hd
          · rintro rfl
            rw [hopener] at hd
            cases hd
        · exact ⟨c, by rw [Ledger.opener_connect, if_pos rfl]⟩
      · intro d j hj
        exact (mem_taken_of_ne (by simp)).2 (h.closers d j hj)
  | wrote msg hopen =>
      apply Tracked.take _ (by simp) (by simp)
      refine ⟨?_, h.opened, h.unique, h.connected, h.closers⟩
      intro d hd
      rw [Ledger.carried_write, if_neg]
      · exact h.fresh d hd
      · rintro rfl
        obtain ⟨k, hk⟩ := opener_of_isOpen hopen
        rw [show u.ledger.opener d = none from hd] at hk
        cases hk
  | received huses bytes =>
      apply Tracked.take _ (by simp) (by simp)
      exact ⟨h.fresh, h.opened, h.unique, h.connected, h.closers⟩
  | closed =>
      refine ⟨h.fresh, ?_, h.unique, ?_, ?_⟩
      · intro d j hd
        exact mem_taken.2 (Or.inl (h.opened d j hd))
      · intro j hj
        exact h.connected j ((mem_taken_of_ne (by simp)).1 hj)
      · intro d j hj
        rcases Ledger.mem_closers_close.1 hj with hj | ⟨-, rfl⟩
        · exact mem_taken.2 (Or.inl (h.closers d j hj))
        · exact mem_taken.2 (Or.inr ⟨rfl, rfl⟩)
  | unchanged hconnect hwrite hclose huses =>
      exact h.take (by simpa using hconnect) (by simpa using hclose)

/-- A call keeps the property exactly when, if it goes out on a connection, it does so on the one
that its session opened. -/
theorem kept_effect_iff (ht : Tracked u.ledger done) (hk : Kept u.ledger done) {x : Call}
    (hbefore : before (done i) (.call x) = true) (heffect : Effect u i c x m) :
    (u.uses c x = true → u.ledger.opener c = some i) ↔ Kept m (taken done i (.call x)) := by
  cases heffect with
  | connected hopener =>
      obtain ⟨-, hconnect, hclose, -, -, hsent⟩ := of_decide_eq_true hbefore
      refine ⟨fun _ => ⟨?_, ?_, ?_⟩, ?_⟩
      · intro d j hd
        rcases Ledger.opener_connect_cases hd with ⟨rfl, rfl⟩ | ⟨-, hd⟩
        · rw [sent_taken_self, hsent]
          exact ht.fresh d hopener
        · rw [sent_taken rfl]
          exact hk.carried d j hd
      · intro d j hd hj
        rcases Ledger.opener_connect_cases hd with ⟨rfl, rfl⟩ | ⟨-, hd⟩
        · exact absurd ((mem_taken_of_ne (by simp)).1 hj) hclose
        · exact hk.closed d j hd ((mem_taken_of_ne (by simp)).1 hj)
      · intro j d bytes hmem
        have hd := hk.replies j d bytes hmem
        rw [Ledger.opener_connect, if_neg]
        · exact hd
        · rintro rfl
          rw [hopener] at hd
          cases hd
      · intro _ huses
        cases huses
  | wrote msg hopen =>
      obtain ⟨-, -, -, hmsg⟩ := of_decide_eq_true hbefore
      obtain ⟨k, hopener⟩ := opener_of_isOpen hopen
      constructor
      · intro hown
        have hi := hown hopen
        refine ⟨?_, ?_, hk.replies⟩
        · intro d j hd
          rw [Ledger.carried_write]
          split_ifs with hdc
          · subst hdc
            obtain rfl : i = j := Option.some.inj (hi.symm.trans hd)
            rw [sent_taken_self, hk.carried d i hi]
            exact congrArg (sent (done i) ++ ·) (List.append_nil msg).symm
          · have hj : j ≠ i := by
              rintro rfl
              exact hdc (ht.unique d c j hd hi)
            rw [taken_of_ne hj]
            exact hk.carried d j hd
        · intro d j hd hj
          exact hk.closed d j hd ((mem_taken_of_ne (by simp)).1 hj)
      · intro hkept _
        -- the connection has more bytes, and so must have its opener
        have hcarried := hkept.carried c k hopener
        rw [Ledger.carried_write, if_pos rfl, hk.carried c k hopener] at hcarried
        by_cases hki : k = i
        · rw [← hki]
          exact hopener
        · rw [taken_of_ne hki] at hcarried
          exact absurd (List.append_right_eq_self.1 hcarried) hmsg
  | received huses bytes =>
      constructor
      · intro hown
        apply Kept.take _ (by simp) (by simp)
        refine ⟨hk.carried, hk.closed, ?_⟩
        intro j d bytes' hmem
        rcases Ledger.mem_received_receive.1 hmem with hmem | hmem
        · exact hk.replies j d bytes' hmem
        · obtain ⟨rfl, rfl, -⟩ : j = i ∧ d = c ∧ bytes' = bytes := by simpa using hmem
          exact hown huses
      · intro hkept _
        exact hkept.replies i c bytes (Ledger.mem_received_receive.2 (Or.inr rfl))
  | closed =>
      obtain ⟨-, hconnect, hclose⟩ := of_decide_eq_true hbefore
      constructor
      · intro hown
        refine ⟨?_, ?_, hk.replies⟩
        · intro d j hd
          rw [sent_taken rfl]
          exact hk.carried d j hd
        · intro d j hd hj
          apply Ledger.mem_closers_close.2
          rcases mem_taken.1 hj with hj | ⟨rfl, -⟩
          · exact Or.inl (hk.closed d j hd hj)
          · exact Or.inr ⟨ht.unique d c j hd (hown rfl), rfl⟩
      · intro hkept _
        -- the session has opened a connection, and has closed nothing before
        obtain ⟨d, hd⟩ := ht.connected i hconnect
        have hcloser := hkept.closed d i hd (mem_taken.2 (Or.inr ⟨rfl, rfl⟩))
        rcases Ledger.mem_closers_close.1 hcloser with hcloser | ⟨rfl, -⟩
        · exact absurd (ht.closers d i hcloser) hclose
        · exact hd
  | unchanged hconnect hwrite hclose huses =>
      refine ⟨fun _ => hk.take (by simpa using hwrite) (by simpa using hclose), ?_⟩
      intro _ huses'
      rw [huses] at huses'
      cases huses'

/-! ## What the sessions have loaded -/

/-- No null has been loaded or stored. -/
structure Named (u : Fields) (t : Thread Button Instruction (Option Nat)) : Prop where
  socket : u.socket.isSome
  memory : .loadSocket ∈ t.done → t.memory.isSome
  out : .storeOut ∈ t.done → u.out.isSome
  in_ : .storeIn ∈ t.done → u.in_.isSome

theorem mem_of_mem_snoc {done : List Instruction} {x y : Instruction} (hxy : y ≠ x)
    (h : y ∈ done ++ [x]) : y ∈ done :=
  (List.mem_append.1 h).resolve_right fun hy => hxy (List.mem_singleton.1 hy)

theorem mem_snoc {done : List Instruction} {x y : Instruction} (h : y ∈ done) : y ∈ done ++ [x] :=
  List.mem_append_left _ h

theorem Named.of_names {u v : Fields} {t : Thread Button Instruction (Option Nat)}
    (h : Named u t) (hnames : v.names = u.names) : Named v t := by
  obtain ⟨hsocket, hfields⟩ := Prod.mk.inj hnames
  obtain ⟨hout, hin⟩ := Prod.mk.inj hfields
  exact ⟨hsocket ▸ h.socket, h.memory, fun hd => hout ▸ h.out hd, fun hd => hin ▸ h.in_ hd⟩

theorem Named.stop {u : Fields} {t : Thread Button Instruction (Option Nat)} (h : Named u t)
    (ending : Ending) : Named u (t.stop ending) :=
  ⟨h.socket, h.memory, h.out, h.in_⟩

/-- The fields of the fragment hold no null after an instruction either. -/
theorem Named.fields {u v : Fields} {t t' : Thread Button Instruction (Option Nat)}
    {x : Instruction} {rest : List Instruction} {m : Option Nat} (h : Named u t)
    (hcode : t.done ++ x :: rest = onClick t.kind)
    (hperform : u.perform i t.memory x = .returns (v, m)) (h' : Named u t') : Named v t' := by
  have hbefore := before_of_code hcode
  cases x with
  | call y =>
      obtain ⟨c, -, -, hcall⟩ := call_of_perform hperform
      exact h'.of_names (names_of_call hcall)
  | newSocket =>
      cases hperform
      exact ⟨rfl, h'.memory, h'.out, h'.in_⟩
  | storeOut =>
      cases hperform
      exact ⟨h'.socket, h'.memory, fun _ => h.memory (of_decide_eq_true hbefore), h'.in_⟩
  | storeIn =>
      cases hperform
      exact ⟨h'.socket, h'.memory, h'.out, fun _ => h.memory (of_decide_eq_true hbefore)⟩
  | _ =>
      cases hperform
      exact ⟨h'.socket, h'.memory, h'.out, h'.in_⟩

theorem Named.advance {u v : Fields} {t : Thread Button Instruction (Option Nat)}
    {x : Instruction} {rest : List Instruction} {m : Option Nat} (h : Named u t)
    (hcode : t.done ++ x :: rest = onClick t.kind)
    (hperform : u.perform i t.memory x = .returns (v, m)) : Named v (t.advance x rest m) := by
  have hfields := h.fields hcode hperform h
  have hbefore := before_of_code hcode
  cases x with
  | call y =>
      obtain ⟨c, -, rfl, -⟩ := call_of_perform hperform
      exact ⟨hfields.socket, fun _ => rfl, fun hd => hfields.out (mem_of_mem_snoc (by simp) hd),
        fun hd => hfields.in_ (mem_of_mem_snoc (by simp) hd)⟩
  | loadSocket =>
      cases hperform
      exact ⟨h.socket, fun _ => h.socket, fun hd => h.out (mem_of_mem_snoc (by simp) hd),
        fun hd => h.in_ (mem_of_mem_snoc (by simp) hd)⟩
  | storeOut =>
      cases hperform
      have hmemory := h.memory (of_decide_eq_true hbefore)
      exact ⟨h.socket, fun _ => hmemory, fun _ => hmemory,
        fun hd => h.in_ (mem_of_mem_snoc (by simp) hd)⟩
  | loadOut =>
      cases hperform
      have hout := h.out (of_decide_eq_true hbefore).2
      exact ⟨h.socket, fun _ => hout, fun _ => hout,
        fun hd => h.in_ (mem_of_mem_snoc (by simp) hd)⟩
  | storeIn =>
      cases hperform
      have hmemory := h.memory (of_decide_eq_true hbefore)
      exact ⟨h.socket, fun _ => hmemory, fun hd => h.out (mem_of_mem_snoc (by simp) hd),
        fun _ => hmemory⟩
  | loadIn =>
      cases hperform
      have hin := h.in_ (of_decide_eq_true hbefore).2
      exact ⟨h.socket, fun _ => hin, fun hd => h.out (mem_of_mem_snoc (by simp) hd),
        fun _ => hin⟩
  | newSocket =>
      cases hperform
      exact ⟨rfl, fun hd => h.memory (mem_of_mem_snoc (by simp) hd),
        fun hd => h.out (mem_of_mem_snoc (by simp) hd),
        fun hd => h.in_ (mem_of_mem_snoc (by simp) hd)⟩
  | sendMessage what =>
      cases hperform
      exact ⟨h.socket, fun hd => h.memory (mem_of_mem_snoc (by simp) hd),
        fun hd => h.out (mem_of_mem_snoc (by simp) hd),
        fun hd => h.in_ (mem_of_mem_snoc (by simp) hd)⟩

theorem named_of_run {es : List (Event Button Outside)} {s : State}
    (h : Run sessions.machine es s) : ∀ t ∈ s.threads, Named s.shared t := by
  induction h with
  | start =>
      intro t ht
      cases ht
  | @snoc es s e s' hrun _ hst hs =>
      have hcode := code_of_run hrun
      cases steps_of_step hst with
      | @started kind memory hstart =>
          have hsocket : s.shared.socket.isSome = true :=
            (Option.ite_none_right_eq_some.1 hstart).1
          intro t ht
          rcases List.mem_append.1 ht with ht | ht
          · exact hs t ht
          · -- a new session has nothing behind it
            obtain rfl := List.mem_singleton.1 ht
            exact ⟨hsocket, fun hd => (nomatch hd), fun hd => (nomatch hd),
              fun hd => (nomatch hd)⟩
      | @returned i t x rest shared memory ht _ htodo hperform =>
          have hmem := List.mem_of_getElem? ht
          have hsplit := hcode t hmem
          rw [htodo] at hsplit
          intro t' ht'
          rcases List.mem_or_eq_of_mem_set ht' with ht' | rfl
          · exact (hs t hmem).fields hsplit hperform (hs t' ht')
          · exact (hs t hmem).advance hsplit hperform
      | @threw i t x rest ht _ _ _ =>
          intro t' ht'
          rcases List.mem_or_eq_of_mem_set ht' with ht' | rfl
          · exact hs t' ht'
          · exact (hs t (List.mem_of_getElem? ht)).stop _
      | @failed i t x rest shared ht _ _ hfails =>
          intro t' ht'
          rcases List.mem_or_eq_of_mem_set ht' with ht' | rfl
          · exact (hs t' ht').of_names (fails_names hfails)
          · exact ((hs t (List.mem_of_getElem? ht)).of_names (fails_names hfails)).stop _
      | @outside event shared houtside =>
          intro t ht
          obtain ⟨-, rfl⟩ | ⟨hevent, -⟩ := outside_cases houtside
          · -- the new view makes a socket
            exact ⟨rfl, (hs t ht).memory, (hs t ht).out, (hs t ht).in_⟩
          · exact (hs t ht).of_names (outside_names hevent houtside)

/-! ## Steps -/

section Steps

variable {s s' : State} {e : Event Button Outside}

/-- What stands before the instruction that a thread comes to. -/
theorem before_of_todo (hcode : ∀ t ∈ s.threads, t.done ++ t.todo = onClick t.kind)
    {t : Thread Button Instruction (Option Nat)} {x : Instruction} {rest : List Instruction}
    (ht : s.threads[i]? = some t) (htodo : t.todo = x :: rest) :
    before (doneBy s.threads i) x = true := by
  have hsplit := hcode t (List.mem_of_getElem? ht)
  rw [htodo] at hsplit
  rw [doneBy_eq ht]
  exact before_of_code hsplit

theorem tracked_step (hcode : ∀ t ∈ s.threads, t.done ++ t.todo = onClick t.kind)
    (h : Tracked s.shared.ledger (doneBy s.threads)) (hst : Steps sessions s e s') :
    Tracked s'.shared.ledger (doneBy s'.threads) := by
  cases hst with
  | started hstart =>
      dsimp only
      rw [doneBy_started]
      exact h
  | @returned i t x rest shared memory ht hended htodo hperform =>
      dsimp only
      rw [doneBy_advance ht]
      rcases perform_cases hperform with ⟨c, y, rfl, -, -, hcall⟩ | ⟨hcall, hledger⟩
      · exact h.effect (before_of_todo hcode ht htodo) (effect_of_call hcall)
      · rw [hledger]
        exact h.take (hcall _) (hcall _)
  | threw ht hended htodo hperform =>
      dsimp only
      rw [doneBy_stop ht]
      exact h
  | failed ht hended htodo hfails =>
      dsimp only
      rw [doneBy_stop ht, fails_ledger hfails]
      exact h
  | outside houtside =>
      dsimp only
      rw [outside_ledger houtside]
      exact h

/-- A session with a connection that its own exception has ended has closed the connection. -/
def Finished (ts : List (Thread Button Instruction (Option Nat))) : Prop :=
  ∀ t ∈ ts, t.ended = some .threw → .call .connect ∈ t.done → .call .close ∈ t.done

/-- Setting a thread that was not ended. -/
theorem finished_set_iff {ts : List (Thread Button Instruction (Option Nat))} {i : Nat}
    {t t' : Thread Button Instruction (Option Nat)} (hf : Finished ts) (ht : ts[i]? = some t) :
    Finished (ts.set i t') ↔
      (t'.ended = some .threw → .call .connect ∈ t'.done → .call .close ∈ t'.done) := by
  constructor
  · intro h
    exact h t' (List.mem_set (List.getElem?_eq_some_iff.1 ht).1 t')
  · intro h t'' ht''
    rcases List.mem_or_eq_of_mem_set ht'' with ht'' | rfl
    · exact hf t'' ht''
    · exact h

theorem own_of_not_run (he : ∀ i, e ≠ .run i) : Own s e :=
  fun i _ _ _ _ h => absurd h (he i)

/-- For a thread that comes to a call, the condition is about this call. -/
theorem own_run_iff {t : Thread Button Instruction (Option Nat)} {x : Call}
    {rest : List Instruction} (ht : s.threads[i]? = some t) (htodo : t.todo = .call x :: rest)
    (hmemory : t.memory = some c) :
    Own s (.run i) ↔
      (s.shared.uses c x = true → s.shared.ledger.opener c = some i) ∧
        s.shared.ready c x = true := by
  constructor
  · intro hown
    exact hown i t x rest c rfl ht htodo hmemory
  · intro h i' t' x' rest' c' he ht' htodo' hmemory'
    cases he
    obtain rfl : t = t' := Option.some.inj (ht.symm.trans ht')
    obtain rfl : c = c' := Option.some.inj (hmemory.symm.trans hmemory')
    rw [htodo] at htodo'
    cases htodo'
    exact h

/-- A call that throws is allowed exactly when its session has opened no connection, or has closed
it. -/
theorem ready_iff_of_throws {x : Call} {done : List Instruction}
    (hthrows : u.call i c x = .throws) (hbefore : before done (.call x) = true) :
    u.ready c x = true ↔ (.call .connect ∈ done → .call .close ∈ done) := by
  by_cases hconnect : x = .connect
  · subst hconnect
    obtain ⟨-, hnot, -⟩ := of_decide_eq_true hbefore
    exact ⟨fun _ h => absurd h hnot, fun _ => rfl⟩
  by_cases hshutdown : x = .shutdownInput
  · subst hshutdown
    exact ⟨fun _ _ => (of_decide_eq_true hbefore).2, fun _ => rfl⟩
  -- all other calls stand between the two
  have hbetween : .call .connect ∈ done ∧ .call .close ∉ done := by
    cases x with
    | connect => exact absurd rfl hconnect
    | shutdownInput => exact absurd rfl hshutdown
    | reportConnected => cases hthrows
    | write msg =>
        obtain ⟨-, hopened, hclosed, -⟩ := of_decide_eq_true hbefore
        exact ⟨hopened, hclosed⟩
    | _ => exact (of_decide_eq_true hbefore).2
  rw [not_ready_of_throws hthrows hconnect hshutdown]
  exact ⟨fun h => (nomatch h), fun h => absurd (h hbetween.1) hbetween.2⟩

/-- A step keeps the property exactly when it meets the condition. -/
theorem own_iff_kept (hcode : ∀ t ∈ s.threads, t.done ++ t.todo = onClick t.kind)
    (hnamed : ∀ t ∈ s.threads, Named s.shared t)
    (ht : Tracked s.shared.ledger (doneBy s.threads)) (hk : Kept s.shared.ledger (doneBy s.threads))
    (hf : Finished s.threads) (hst : Steps sessions s e s') :
    Own s e ↔ Kept s'.shared.ledger (doneBy s'.threads) ∧ Finished s'.threads := by
  cases hst with
  | started hstart =>
      dsimp only
      rw [doneBy_started]
      refine ⟨fun _ => ⟨hk, ?_⟩, fun _ => own_of_not_run (by simp)⟩
      intro t hmem hthrew
      rcases List.mem_append.1 hmem with hmem | hmem
      · exact hf t hmem hthrew
      · obtain rfl := List.mem_singleton.1 hmem
        cases hthrew
  | @returned i t x rest shared memory hthread hended htodo hperform =>
      dsimp only
      have hfinished : Finished (s.threads.set i (t.advance x rest memory)) := by
        rw [finished_set_iff hf hthread]
        intro hthrew
        rw [show (t.advance x rest memory).ended = none from hended] at hthrew
        cases hthrew
      rw [doneBy_advance hthread, and_iff_left hfinished]
      rcases perform_cases hperform with ⟨c, y, rfl, hmemory, -, hcall⟩ | ⟨hcall, hledger⟩
      · rw [own_run_iff hthread htodo hmemory, and_iff_left (ready_of_returns hcall)]
        exact kept_effect_iff ht hk (before_of_todo hcode hthread htodo) (effect_of_call hcall)
      · -- no call, so the condition says nothing
        rw [hledger]
        refine ⟨fun _ => hk.take (fun _ => hcall _) (hcall _), ?_⟩
        intro _ i' t' x' rest' c' he hthread' htodo'
        cases he
        obtain rfl : t = t' := Option.some.inj (hthread.symm.trans hthread')
        rw [htodo] at htodo'
        exact absurd (List.cons.inj htodo').1 (hcall x')
  | @threw i t x rest hthread hended htodo hperform =>
      dsimp only
      obtain ⟨y, rfl, hthrows⟩ := throws_cases hperform
      have hbefore := before_of_todo hcode hthread htodo
      rw [doneBy_eq hthread] at hbefore
      obtain ⟨c, hmemory⟩ := Option.isSome_iff_exists.1
        ((hnamed t (List.mem_of_getElem? hthread)).memory (load_before_call hbefore))
      have hcall := hthrows c hmemory
      rw [doneBy_stop hthread, and_iff_right hk, own_run_iff hthread htodo hmemory,
        finished_set_iff hf hthread, ready_iff_of_throws hcall hbefore,
        and_iff_right fun huses => absurd huses (by simp [not_uses_of_throws hcall])]
      exact ⟨fun h _ => h, fun h => h rfl⟩
  | failed hthread hended htodo hfails =>
      dsimp only
      rw [doneBy_stop hthread, fails_ledger hfails]
      refine ⟨fun _ => ⟨hk, ?_⟩, fun _ => own_of_not_run (by simp)⟩
      rw [finished_set_iff hf hthread]
      exact fun hthrew => (nomatch hthrew)
  | outside houtside =>
      dsimp only
      rw [outside_ledger houtside]
      exact ⟨fun _ => ⟨hk, hf⟩, fun _ => own_of_not_run (by simp)⟩

end Steps

/-! ## Runs -/

theorem tracked_of_run {es : List (Event Button Outside)} {s : State}
    (h : Run sessions.machine es s) : Tracked s.shared.ledger (doneBy s.threads) := by
  induction h with
  | start =>
      refine ⟨fun _ _ => rfl, ?_, ?_, ?_, ?_⟩
      · intro c i hc
        cases hc
      · intro c d i hc
        cases hc
      · intro i hi
        cases hi
      · intro c i hi
        cases hi
  | snoc hrun _ hst ih => exact tracked_step (code_of_run hrun) ih (steps_of_step hst)

/-- The two ways to state the property. -/
theorem separate_iff_kept {s : State}
    (hcode : ∀ t ∈ s.threads, t.done ++ t.todo = onClick t.kind)
    (ht : Tracked s.shared.ledger (doneBy s.threads)) :
    Separate s ↔ Kept s.shared.ledger (doneBy s.threads) ∧ Finished s.threads := by
  constructor
  · rintro ⟨hconnections, hreplies⟩
    refine ⟨⟨?_, ?_, hreplies⟩, ?_⟩
    · intro c i hc
      obtain ⟨t, hthread, hcarried, -⟩ := hconnections c i hc
      rw [doneBy_eq hthread]
      exact hcarried
    · intro c i hc hclose
      obtain ⟨t, hthread, -, hclosed⟩ := hconnections c i hc
      rw [doneBy_eq hthread] at hclose
      exact (hclosed (Or.inl hclose)).2
    · intro t hmem hthrew hconnect
      -- the connection of the session was closed by it, and so it has called `close`
      obtain ⟨i, hthread⟩ := List.mem_iff_getElem?.1 hmem
      rw [← doneBy_eq hthread] at hconnect ⊢
      obtain ⟨c, hc⟩ := ht.connected i hconnect
      obtain ⟨t', hthread', -, hclosed⟩ := hconnections c i hc
      obtain rfl : t = t' := Option.some.inj (hthread.symm.trans hthread')
      have hcompleted : Completed t := by
        rw [Completed, Thread.Over, hthrew]
        exact ⟨Or.inl (by simp), by simp⟩
      exact ht.closers c i (hclosed (Or.inr hcompleted)).2
  · rintro ⟨⟨hcarried, hclosed, hreplies⟩, hfinished⟩
    refine ⟨?_, hreplies⟩
    intro c i hc
    -- the opener has `connect` behind it, so it is one of the threads
    have hopened := ht.opened c i hc
    cases hthread : s.threads[i]? with
    | none =>
        rw [doneBy, hthread] at hopened
        cases hopened
    | some t =>
        have hsplit := hcode t (List.mem_of_getElem? hthread)
        have hsent := hcarried c i hc
        have hclose := hclosed c i hc
        rw [doneBy_eq hthread] at hsent hclose hopened
        refine ⟨t, rfl, hsent, ?_⟩
        intro hmem
        have hmem : .call .close ∈ t.done := by
          rcases hmem with hmem | ⟨hended | hthrough, hfailed⟩
          · exact hmem
          · -- an exception of its own has ended the session
            cases hending : t.ended with
            | none => exact absurd hending hended
            | some ending =>
                cases ending with
                | failed => exact absurd hending hfailed
                | threw => exact hfinished t (List.mem_of_getElem? hthread) hending hopened
          · rw [hthrough] at hsplit
            exact closed_of_through hsplit
        refine ⟨?_, hclose hmem⟩
        rw [← sent_of_closed hsplit hmem]
        exact hsent

/-- The condition says exactly that each step keeps the sessions separate. -/
theorem own_iff_separate (es : List (Event Button Outside)) (s : State) :
    RunUnder sessions.machine Own es s ↔
      Run sessions.machine es s ∧ Always sessions.machine Separate es := by
  apply run_always_iff
  · refine ⟨?_, ?_⟩
    · intro c i hc
      cases hc
    · intro i c bytes hmem
      cases hmem
  · intro es s e s' hrun hs hst
    have hcode := code_of_run hrun
    have htracked := tracked_of_run hrun.toRun
    obtain ⟨hkept, hfinished⟩ := (separate_iff_kept hcode htracked).1 hs
    -- before and after the step the property is `Kept` and `Finished`
    have hrun' : Run sessions.machine (es ++ [e]) s' := hrun.toRun.snoc trivial hst
    rw [separate_iff_kept (code_of_run hrun') (tracked_of_run hrun')]
    exact own_iff_kept hcode (named_of_run hrun.toRun) htracked hkept hfinished
      (steps_of_step hst)

/-- Control sessions do not mix exactly in the runs in which every write, every read of a reply and
every `close` of a session is made on the connection that the session opened, and every call finds
its socket ready. -/
theorem separate_iff (es : List (Event Button Outside)) (s : State) :
    RunUnder sessions.machine Own es s ↔
      Run sessions.machine es s ∧ Always sessions.machine Separate es :=
  own_iff_separate es s

/-! ## Sessions one after another -/

/-- Everything but the creation of the view, which assigns `socket`. -/
def Outside.quiet : Outside → Prop
  | .initView => False
  | _ => True

/-- The socket, or the stream of the socket, on which the session `i` has opened its connection. It
is open until the session has called `close`. -/
def Mine (u : Fields) (i : Nat) (done : List Instruction) (name : Option Nat) : Prop :=
  ∃ c, name = some c ∧ (u.sockets c).opener = some i ∧
    (.call .close ∉ done → (u.sockets c).closed = false ∧ (u.sockets c).inputShutdown = false)

/-- What the fields hold for a session that runs alone. -/
structure Solo (u : Fields) (i : Nat) (t : Thread Button Instruction (Option Nat)) : Prop where
  code : t.done ++ t.todo = onClick t.kind
  loaded : .call .connect ∉ t.done → .loadSocket ∈ t.done → t.memory = u.socket
  mine : .call .connect ∈ t.done →
    Mine u i t.done u.socket ∧ Mine u i t.done t.memory ∧
      (.storeOut ∈ t.done → Mine u i t.done u.out) ∧ (.storeIn ∈ t.done → Mine u i t.done u.in_)

/-- Until it connects, a session has loaded what `socket` names, also after any instruction but
`loadSocket`. -/
theorem Solo.still_loaded {u : Fields} {i : Nat} {t : Thread Button Instruction (Option Nat)}
    {x : Instruction} (h : Solo u i t) (hx : .loadSocket ≠ x)
    (hnot : .call .connect ∉ t.done ++ [x]) (hload : .loadSocket ∈ t.done ++ [x]) :
    t.memory = u.socket :=
  h.loaded (fun hmem => hnot (mem_snoc hmem)) (mem_of_mem_snoc hx hload)

/-- A session keeps its socket when the openers stay, and when no socket is closed or shut down
before the session has called `close`. -/
theorem Mine.mono {u v : Fields} {i : Nat} {done done' : List Instruction} {name : Option Nat}
    (h : Mine u i done name) (hopener : v.ledger.opener = u.ledger.opener)
    (hends : .call .close ∉ done' → v.ends = u.ends ∧ .call .close ∉ done) :
    Mine v i done' name := by
  obtain ⟨c, hc, hi, hopen⟩ := h
  refine ⟨c, hc, (congrFun hopener c).trans hi, ?_⟩
  intro hclose
  obtain ⟨hsame, hclose'⟩ := hends hclose
  obtain ⟨hclosed, hshut⟩ := Prod.mk.inj hsame
  obtain ⟨hclosed', hshut'⟩ := hopen hclose'
  exact ⟨(congrFun hclosed c).trans hclosed', (congrFun hshut c).trans hshut'⟩

/-- An instruction that is no call leaves a session its socket. -/
theorem Mine.snoc {u : Fields} {i : Nat} {done : List Instruction} {name : Option Nat}
    (h : Mine u i done name) (x : Instruction) : Mine u i (done ++ [x]) name :=
  h.mono rfl fun hclose => ⟨rfl, fun hmem => hclose (mem_snoc hmem)⟩

/-- A stream that the session has stored before `x` stays its own as well. -/
theorem Mine.stored {u : Fields} {i : Nat} {done : List Instruction} {name : Option Nat}
    {x y : Instruction} (h : y ∈ done → Mine u i done name) (hyx : y ≠ x)
    (hy : y ∈ done ++ [x]) : Mine u i (done ++ [x]) name :=
  (h (mem_of_mem_snoc hyx hy)).snoc x

/-- A call of a session that runs alone leaves it with its own socket and streams. -/
theorem Solo.call {u v : Fields} {i c : Nat} {t : Thread Button Instruction (Option Nat)}
    {x : Call} {rest : List Instruction} (h : Solo u i t) (hunshut : u.Unshut)
    (hmemory : t.memory = some c) (hbefore : before t.done (.call x) = true)
    (hcode : t.done ++ [.call x] ++ rest = onClick t.kind) (hcall : u.call i c x = .returns v) :
    Solo v i (t.advance (.call x) rest (some c)) := by
  obtain ⟨hsocket, hfields⟩ := Prod.mk.inj (names_of_call hcall)
  obtain ⟨hout, hin⟩ := Prod.mk.inj hfields
  have heffect := effect_of_call hcall
  by_cases hx : x = .connect
  · -- the socket that was loaded is the one that the field has, and is the session's own now
    subst hx
    obtain ⟨hload, hconnect, -, hstoreOut, hstoreIn, -⟩ := of_decide_eq_true hbefore
    have hmine : Mine v i (t.done ++ [.call .connect]) (some c) := by
      refine ⟨c, rfl, heffect.opener_of_connect, fun _ => ?_⟩
      obtain ⟨hclosed, hshut⟩ := Prod.mk.inj (ends_of_call hcall (by simp) (by simp))
      obtain ⟨hnew, hopener⟩ := new_of_connect hcall
      exact ⟨(congrFun hclosed c).trans hnew, (congrFun hshut c).trans (hunshut c hopener)⟩
    refine ⟨hcode, ?_, ?_⟩
    · intro hnot
      exact absurd (List.mem_append_right _ (List.mem_singleton_self _)) hnot
    · intro _
      rw [hsocket, ← h.loaded hconnect hload, hmemory]
      refine ⟨hmine, hmine, ?_, ?_⟩
      · exact fun hmem => absurd (mem_of_mem_snoc (by simp) hmem) hstoreOut
      · exact fun hmem => absurd (mem_of_mem_snoc (by simp) hmem) hstoreIn
  · have hopener := heffect.opener_eq hx
    -- until `close` no socket is closed or shut down
    have hends : .call .close ∉ t.done ++ [.call x] →
        v.ends = u.ends ∧ .call .close ∉ t.done := by
      intro hclose
      refine ⟨ends_of_call hcall ?_ ?_, fun hmem => hclose (mem_snoc hmem)⟩
      · rintro rfl
        exact hclose (List.mem_append_right _ (List.mem_singleton_self _))
      · rintro rfl
        exact hclose (mem_snoc (of_decide_eq_true hbefore).2)
    refine ⟨hcode, ?_, ?_⟩
    · intro hnot hload
      rw [hsocket, ← hmemory]
      exact h.still_loaded (by simp) hnot hload
    · intro hmem
      have hconnect : .call .connect ∈ t.done := mem_of_mem_snoc (by simpa using Ne.symm hx) hmem
      obtain ⟨hmsocket, hmmemory, hmout, hmin⟩ := h.mine hconnect
      rw [hsocket, hout, hin, ← hmemory]
      refine ⟨hmsocket.mono hopener hends, hmmemory.mono hopener hends, ?_, ?_⟩
      · exact fun hstore => (hmout (mem_of_mem_snoc (by simp) hstore)).mono hopener hends
      · exact fun hstore => (hmin (mem_of_mem_snoc (by simp) hstore)).mono hopener hends

/-- A session that runs alone goes on to find its own socket and streams. -/
theorem Solo.perform {u v : Fields} {i : Nat} {t : Thread Button Instruction (Option Nat)}
    {x : Instruction} {rest : List Instruction} {m : Option Nat} (hunshut : u.Unshut)
    (h : Solo u i t) (htodo : t.todo = x :: rest)
    (hperform : u.perform i t.memory x = .returns (v, m)) :
    Solo v i (t.advance x rest m) := by
  have hsplit := h.code
  rw [htodo] at hsplit
  have hbefore := before_of_code hsplit
  have hcode : t.done ++ [x] ++ rest = onClick t.kind := by
    rw [← hsplit, List.append_assoc, List.singleton_append]
  cases x with
  | newSocket =>
      -- a session makes its sockets before it has loaded one
      cases hperform
      obtain ⟨hconnect, hload⟩ := of_decide_eq_true hbefore
      refine ⟨hcode, ?_, ?_⟩
      · intro _ hmem
        exact absurd (mem_of_mem_snoc (by simp) hmem) hload
      · intro hmem
        exact absurd (mem_of_mem_snoc (by simp) hmem) hconnect
  | loadSocket =>
      cases hperform
      refine ⟨hcode, fun _ _ => rfl, ?_⟩
      intro hmem
      obtain ⟨hsocket, -, hout, hin⟩ := h.mine (mem_of_mem_snoc (by simp) hmem)
      refine ⟨hsocket.snoc _, hsocket.snoc _, ?_, ?_⟩
      · exact Mine.stored hout (by simp)
      · exact Mine.stored hin (by simp)
  | storeOut =>
      cases hperform
      refine ⟨hcode, h.still_loaded (by simp), ?_⟩
      intro hmem
      obtain ⟨hsocket, hmemory, -, hin⟩ := h.mine (mem_of_mem_snoc (by simp) hmem)
      refine ⟨hsocket.snoc _, hmemory.snoc _, fun _ => hmemory.snoc _, ?_⟩
      exact Mine.stored hin (by simp)
  | loadOut =>
      -- `out` was stored by this session, since no other one ran
      cases hperform
      obtain ⟨hconnect, hstoreOut⟩ := of_decide_eq_true hbefore
      obtain ⟨hsocket, -, hout, hin⟩ := h.mine hconnect
      refine ⟨hcode, fun hnot => absurd (mem_snoc hconnect) hnot, fun _ => ?_⟩
      refine ⟨hsocket.snoc _, (hout hstoreOut).snoc _, fun _ => (hout hstoreOut).snoc _, ?_⟩
      exact Mine.stored hin (by simp)
  | storeIn =>
      cases hperform
      refine ⟨hcode, h.still_loaded (by simp), ?_⟩
      intro hmem
      obtain ⟨hsocket, hmemory, hout, -⟩ := h.mine (mem_of_mem_snoc (by simp) hmem)
      refine ⟨hsocket.snoc _, hmemory.snoc _, ?_, fun _ => hmemory.snoc _⟩
      exact Mine.stored hout (by simp)
  | loadIn =>
      cases hperform
      obtain ⟨hconnect, hstoreIn⟩ := of_decide_eq_true hbefore
      obtain ⟨hsocket, -, hout, hin⟩ := h.mine hconnect
      refine ⟨hcode, fun hnot => absurd (mem_snoc hconnect) hnot, fun _ => ?_⟩
      refine ⟨hsocket.snoc _, (hin hstoreIn).snoc _, ?_, fun _ => (hin hstoreIn).snoc _⟩
      exact Mine.stored hout (by simp)
  | sendMessage what =>
      cases hperform
      refine ⟨hcode, h.still_loaded (by simp), ?_⟩
      intro hmem
      obtain ⟨hsocket, hmemory, hout, hin⟩ := h.mine (mem_of_mem_snoc (by simp) hmem)
      refine ⟨hsocket.snoc _, hmemory.snoc _, ?_, ?_⟩
      · exact Mine.stored hout (by simp)
      · exact Mine.stored hin (by simp)
  | call y =>
      obtain ⟨c, hmemory, rfl, hcall⟩ := call_of_perform hperform
      exact h.call hunshut hmemory hbefore hcode hcall

/-- The server's replies change nothing for a session that runs alone. -/
theorem Solo.outside {u v : Fields} {i : Nat} {t : Thread Button Instruction (Option Nat)}
    {event : Outside} (h : Solo u i t) (hquiet : event.quiet) (hevent : u.outside event = some v) :
    Solo v i t := by
  have hopener : v.ledger.opener = u.ledger.opener :=
    congrArg Ledger.opener (outside_ledger hevent)
  have hnames : v.names = u.names := by
    apply outside_names _ hevent
    rintro rfl
    exact hquiet
  obtain ⟨hsocket, hfields⟩ := Prod.mk.inj hnames
  obtain ⟨hout, hin⟩ := Prod.mk.inj hfields
  have hends : .call .close ∉ t.done → v.ends = u.ends ∧ .call .close ∉ t.done :=
    fun hclose => ⟨outside_ends hevent, hclose⟩
  refine ⟨h.code, ?_, ?_⟩
  · intro hnot hload
    rw [hsocket]
    exact h.loaded hnot hload
  · intro hconnect
    obtain ⟨hmsocket, hmmemory, hmout, hmin⟩ := h.mine hconnect
    rw [hsocket, hout, hin]
    exact ⟨hmsocket.mono hopener hends, hmmemory.mono hopener hends,
      fun hstore => (hmout hstore).mono hopener hends,
      fun hstore => (hmin hstore).mono hopener hends⟩

/-- The calls of a session that runs alone go out on its own connection, and find it ready. -/
theorem Solo.own {u : Fields} {i c : Nat} {t : Thread Button Instruction (Option Nat)} {x : Call}
    (h : Solo u i t) (hmemory : t.memory = some c) (hbefore : before t.done (.call x) = true) :
    (u.uses c x = true → (u.sockets c).opener = some i) ∧ u.ready c x = true := by
  have hbetween : .call .connect ∈ t.done → .call .close ∉ t.done →
      (u.sockets c).opener = some i ∧ (u.sockets c).isOpen = true ∧
        (u.sockets c).closed = false ∧ (u.sockets c).inputShutdown = false := by
    intro hconnect hclose
    obtain ⟨-, ⟨d, hd, hopener, hopen⟩, -⟩ := h.mine hconnect
    obtain rfl : c = d := Option.some.inj (hmemory.symm.trans hd)
    obtain ⟨hclosed, hshut⟩ := hopen hclose
    refine ⟨hopener, ?_, hclosed, hshut⟩
    rw [Socket.isOpen, Socket.isConnected, hopener, hclosed]
    rfl
  cases x with
  | connect => exact ⟨fun huses => absurd huses Bool.false_ne_true, rfl⟩
  | reportConnected => exact ⟨fun huses => absurd huses Bool.false_ne_true, rfl⟩
  | shutdownInput => exact ⟨fun huses => absurd huses Bool.false_ne_true, rfl⟩
  | getOutputStream =>
      obtain ⟨-, hconnect, hclose⟩ := of_decide_eq_true hbefore
      exact ⟨fun huses => absurd huses Bool.false_ne_true, (hbetween hconnect hclose).2.1⟩
  | write msg =>
      obtain ⟨-, hconnect, hclose, -⟩ := of_decide_eq_true hbefore
      obtain ⟨hopener, hopen, -⟩ := hbetween hconnect hclose
      exact ⟨fun _ => hopener, hopen⟩
  | getInputStream =>
      obtain ⟨-, hconnect, hclose⟩ := of_decide_eq_true hbefore
      obtain ⟨-, hopen, -, hshut⟩ := hbetween hconnect hclose
      refine ⟨fun huses => absurd huses Bool.false_ne_true, ?_⟩
      rw [Fields.ready, hopen, hshut]
      rfl
  | read =>
      obtain ⟨-, hconnect, hclose⟩ := of_decide_eq_true hbefore
      obtain ⟨hopener, -, hclosed, -⟩ := hbetween hconnect hclose
      refine ⟨fun _ => hopener, ?_⟩
      rw [Fields.ready, hclosed]
      rfl
  | close =>
      obtain ⟨-, hconnect, hclose⟩ := of_decide_eq_true hbefore
      exact ⟨fun _ => (hbetween hconnect hclose).1, rfl⟩

/-- Sessions that run one after another use their own connections only. -/
theorem own_of_alone {es : List (Event Button Outside)} {s : State}
    (h : RunUnder sessions.machine (Alone Outside.quiet) es s) :
    RunUnder sessions.machine Own es s := by
  apply h.congr_of
  intro es s e s' hrun hst _
  have honly : OnlyRunning Solo s := by
    refine alone_of_run (fun _ _ hrun => unshut_of_run hrun) ?_ ?_ ?_ hrun
    · intro u kind memory i _
      refine ⟨rfl, ?_, ?_⟩
      · intro _ hmem
        cases hmem
      · intro hmem
        cases hmem
    · intro u i t x rest u' memory hunshut hI htodo hperform
      exact hI.perform hunshut htodo hperform
    · intro u event u' i t hquiet hout hI
      exact hI.outside hquiet hout
  intro i t x rest c he ht htodo hmemory
  subst he
  -- the session runs, and so it is the one that runs alone
  have hended := ended_of_run_step hst ht
  obtain ⟨hsolo, -⟩ := honly i t ht (not_over hended htodo)
  have hsplit := hsolo.code
  rw [htodo] at hsplit
  exact hsolo.own hmemory (before_of_code hsplit)

/-- Sessions that run one after another do not mix. -/
theorem separate_of_alone {es : List (Event Button Outside)} {s : State}
    (h : RunUnder sessions.machine (Alone Outside.quiet) es s) :
    Always sessions.machine Separate es :=
  ((own_iff_separate es s).1 (own_of_alone h)).2

/-! ## Two sessions that overlap -/

/-- Both buttons are pressed. The first session has opened its connection when the second one
assigns `socket` and opens its own; then the first one logs in, and the second one logs in and
switches the camera off. -/
def overlapping : List (Event Button Outside) :=
  [.outside .initView, .start .btn_reload, .start .fab_off] ++ List.replicate 6 (.run 0) ++
    List.replicate 5 (.run 1) ++ List.replicate 5 (.run 0) ++ List.replicate 10 (.run 1)

/-- The connection that the second session opened carries the login of the first one too, and the
connection of the first one carries nothing. -/
theorem login_on_other_connection :
    ∃ s, Run sessions.machine overlapping s ∧
      (s.shared.sockets 3).opener = some 1 ∧
      (s.shared.sockets 3).carried = user ++ user ++ SIGN_OFF ∧
      (s.shared.sockets 2).opener = some 0 ∧ (s.shared.sockets 2).carried = [] ∧
      ¬ Separate s := by
  have hexec : (sessions.machine.exec overlapping).map (fun s =>
      (((s.shared.sockets 3).opener, (s.shared.sockets 3).carried),
        ((s.shared.sockets 2).opener, (s.shared.sockets 2).carried),
        sent (doneBy s.threads 1))) =
      some ((some 1, user ++ user ++ SIGN_OFF), (some 0, []), user ++ SIGN_OFF) := by decide
  obtain ⟨s, hrun, hs⟩ := exists_run_of_exec _ _ _ hexec
  obtain ⟨hsecond, hrest⟩ := Prod.mk.inj hs
  obtain ⟨hfirst, hsent⟩ := Prod.mk.inj hrest
  obtain ⟨hopener, hcarried⟩ := Prod.mk.inj hsecond
  obtain ⟨hopener', hcarried'⟩ := Prod.mk.inj hfirst
  refine ⟨s, hrun, hopener, hcarried, hopener', hcarried', ?_⟩
  intro hseparate
  obtain ⟨t, ht, hwritten, -⟩ := hseparate.connections 3 1 hopener
  rw [hcarried, ← doneBy_eq ht, hsent] at hwritten
  exact absurd hwritten (by decide)

/-- The first session has logged in and read the reply. Then the second one only makes a socket, and
the first one comes to its command. -/
def displaced : List (Event Button Outside) :=
  [.outside .initView, .start .btn_reload] ++ List.replicate 15 (.run 0) ++
    [.outside (.reply 2 [0x2f]), .run 0, .start .fab_off, .run 1, .run 0, .run 0]

-- its connection carries the login only, and nobody has closed it
example :
    (sessions.machine.exec displaced).map (fun s =>
      (s.threads[0]?.bind Thread.ended, (s.shared.sockets 2).carried,
        (s.shared.sockets 2).closers)) = some (some .threw, user, []) := by
  decide

end IotClient.Video.ControlSession
