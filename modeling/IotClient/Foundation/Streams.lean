import Mathlib.Data.List.Infix

/-!
# Programs that read an input stream with a mark

An input stream delivers symbols, can be marked, and can be reset to its mark as long as no more
symbols were delivered since than the mark allows. A program reads such a stream and returns a value
or throws an exception; what it has read by then stays read.

`bind_of_ok` and `bind_of_error` run a program step by step. `Keeps P p` says that the program `p`
keeps a property of the stream however it ends, with one rule for each way to build a program.
`Within w` is such a property: since its mark the stream has never been before the start of `w`.
-/

set_option autoImplicit false

namespace IotClient.Foundation.Streams

/-- A mark: what was delivered since it was set, and how much more may be delivered before it is
lost. -/
structure Mark (α : Type) where
  delivered : List α
  room : Nat
deriving DecidableEq, Repr

/-- A stream: what it has still to deliver, and its mark if it has one. -/
structure Input (α : Type) where
  rest : List α
  mark : Option (Mark α)
deriving DecidableEq, Repr

/-- The exceptions of the operations on streams, arrays and numerals. -/
inductive Exception where
  | eof
  | invalidMark
  | negativeArraySize
  | indexOutOfBounds
  | numberFormat
  | illegalArgument
deriving DecidableEq, Repr

/-- The subclasses of `IOException`. -/
def Exception.isIOException : Exception → Bool
  | .eof | .invalidMark => true
  | _ => false

/-- A program over a stream of symbols `α` with a result in `β`. -/
abbrev Program (α β : Type) := EStateM Exception (Input α) β

variable {α β γ : Type}

/-! ## Operations -/

/-- `xs` is delivered after the mark. -/
def Mark.extend (m : Mark α) (xs : List α) : Option (Mark α) :=
  if xs.length ≤ m.room then some ⟨m.delivered ++ xs, m.room - xs.length⟩ else none

/-- The next `n` symbols are delivered, or all that there are. -/
def Input.deliver (s : Input α) (n : Nat) : Input α :=
  ⟨s.rest.drop n, s.mark.bind (Mark.extend · (s.rest.take n))⟩

/-- The next symbol. -/
def readNext : Program α α := fun s =>
  match s.rest with
  | [] => .error .eof s
  | c :: _ => .ok c (s.deliver 1)

/-- `mark(readlimit)`. -/
def mark (readlimit : Nat) : Program α Unit := fun s => .ok () ⟨s.rest, some ⟨[], readlimit⟩⟩

/-- `reset()`. The mark stays where it is. -/
def reset : Program α Unit := fun s =>
  match s.mark with
  | none => .error .invalidMark s
  | some m => .ok () ⟨m.delivered ++ s.rest, some ⟨[], m.room + m.delivered.length⟩⟩

/-- `skipBytes(n)`: nothing is skipped for a negative `n`, and no more than there is. -/
def skipBytes (n : Int) : Program α Unit := fun s => .ok () (s.deliver n.toNat)

/-- `readFully` of an array of `n` symbols. -/
def readFully (n : Nat) : Program α (List α) := fun s =>
  if n ≤ s.rest.length then .ok (s.rest.take n) (s.deliver n)
  else .error .eof (s.deliver s.rest.length)

/-- The length of `new byte[n]`. -/
def newArray (n : Int) : Program α Nat := fun s =>
  if n < 0 then .error .negativeArraySize s else .ok n.toNat s

/-- A computation that does not touch the stream. -/
def evaluate (x : Except Exception β) : Program α β := fun s =>
  match x with
  | .ok b => .ok b s
  | .error e => .error e s

/-! ## What the operations do -/

@[simp] theorem deliver_rest (s : Input α) (n : Nat) : (s.deliver n).rest = s.rest.drop n := rfl

@[simp] theorem deliver_zero (s : Input α) : s.deliver 0 = s := by
  obtain ⟨rest, _ | m⟩ := s
  · rfl
  · simp [Input.deliver, Mark.extend]

theorem extend_append (m : Mark α) (xs ys : List α) :
    (m.extend xs).bind (Mark.extend · ys) = m.extend (xs ++ ys) := by
  rw [Mark.extend, Mark.extend, List.length_append]
  by_cases hxs : xs.length ≤ m.room
  · rw [if_pos hxs, Option.bind_some, Mark.extend]
    by_cases hys : ys.length ≤ m.room - xs.length
    · rw [if_pos hys, if_pos (by omega), List.append_assoc, Nat.sub_sub]
    · rw [if_neg hys, if_neg (by omega)]
  · rw [if_neg hxs, if_neg (by omega), Option.bind_none]

theorem deliver_deliver (s : Input α) (m n : Nat) :
    (s.deliver m).deliver n = s.deliver (m + n) := by
  have htake : s.rest.take (m + n) = s.rest.take m ++ (s.rest.drop m).take n := List.take_add
  rw [Input.deliver, Input.deliver, Input.deliver, htake, List.drop_drop]
  cases s.mark with
  | none => rfl
  | some mk => simp only [Option.bind_some, extend_append]

/-- A stream that has just been marked. -/
def Input.marked (w : List α) (readlimit : Nat) : Input α := ⟨w, some ⟨[], readlimit⟩⟩

@[simp] theorem marked_rest (w : List α) (readlimit : Nat) :
    (Input.marked w readlimit).rest = w := rfl

/-- Up to the limit of the mark a reset goes back to it. -/
theorem reset_of_deliver {w : List α} {readlimit n : Nat} (hw : n ≤ w.length)
    (hlimit : n ≤ readlimit) :
    reset ((Input.marked w readlimit).deliver n) = .ok () (Input.marked w readlimit) := by
  have hlen : (w.take n).length = n := List.length_take_of_le hw
  have hmark : ((Input.marked w readlimit).deliver n).mark = some ⟨w.take n, readlimit - n⟩ := by
    show Mark.extend ⟨[], readlimit⟩ (w.take n) = _
    rw [Mark.extend, hlen, if_pos hlimit, List.nil_append]
  rw [reset, hmark]
  show EStateM.Result.ok () (Input.mk (w.take n ++ w.drop n) _) = _
  rw [List.take_append_drop, hlen, Nat.sub_add_cancel hlimit]
  rfl

/-- Beyond it the mark is lost. -/
theorem reset_of_deliver_beyond {w : List α} {readlimit n : Nat} (hw : n ≤ w.length)
    (hlimit : readlimit < n) :
    reset ((Input.marked w readlimit).deliver n) =
      .error .invalidMark ((Input.marked w readlimit).deliver n) := by
  have hlen : (w.take n).length = n := List.length_take_of_le hw
  have hmark : ((Input.marked w readlimit).deliver n).mark = none := by
    show Mark.extend ⟨[], readlimit⟩ (w.take n) = none
    rw [Mark.extend, hlen, if_neg (Nat.not_le.2 hlimit)]
  rw [reset, hmark]

theorem readNext_of_nil {s : Input α} (h : s.rest = []) : readNext s = .error .eof s := by
  rw [readNext, h]

theorem readNext_of_cons {s : Input α} {c : α} {w : List α} (h : s.rest = c :: w) :
    readNext s = .ok c (s.deliver 1) := by
  rw [readNext, h]

theorem readFully_of_le {s : Input α} {n : Nat} (h : n ≤ s.rest.length) :
    readFully n s = .ok (s.rest.take n) (s.deliver n) := if_pos h

theorem readFully_of_lt {s : Input α} {n : Nat} (h : s.rest.length < n) :
    readFully n s = .error .eof (s.deliver s.rest.length) := if_neg (by omega)

theorem newArray_natCast (n : Nat) (s : Input α) : newArray (n : Int) s = .ok n s := by
  rw [newArray, if_neg (by omega), Int.toNat_natCast]

theorem evaluate_ok (b : β) (s : Input α) : evaluate (.ok b) s = .ok b s := rfl

theorem evaluate_error (e : Exception) (s : Input α) :
    (evaluate (.error e) : Program α β) s = .error e s := rfl

/-! ## Running a program -/

section Running

variable {ε σ : Type}

theorem bind_of_ok {x : EStateM ε σ β} {f : β → EStateM ε σ γ} {s s' : σ} {b : β}
    (h : x s = .ok b s') : (x >>= f) s = f b s' := by
  show EStateM.bind x f s = f b s'
  rw [EStateM.bind, h]

theorem bind_of_error {x : EStateM ε σ β} {f : β → EStateM ε σ γ} {s s' : σ} {e : ε}
    (h : x s = .error e s') : (x >>= f) s = .error e s' := by
  show EStateM.bind x f s = .error e s'
  rw [EStateM.bind, h]

theorem map_of_ok {x : EStateM ε σ β} {s s' : σ} {b : β} (f : β → γ) (h : x s = .ok b s') :
    (f <$> x) s = .ok (f b) s' := by
  show EStateM.map f x s = .ok (f b) s'
  rw [EStateM.map, h]

theorem map_of_error {x : EStateM ε σ β} {s s' : σ} {e : ε} (f : β → γ) (h : x s = .error e s') :
    (f <$> x) s = .error e s' := by
  show EStateM.map f x s = .error e s'
  rw [EStateM.map, h]

/-- Only what the first part does on the given state counts. -/
theorem bind_congr_left {x y : EStateM ε σ β} {f : β → EStateM ε σ γ} {s t : σ}
    (h : x s = y t) : (x >>= f) s = (y >>= f) t := by
  show EStateM.bind x f s = EStateM.bind y f t
  rw [EStateM.bind, EStateM.bind, h]

theorem tryCatch_of_ok {x : EStateM ε σ β} {f : ε → EStateM ε σ β} {s s' : σ} {b : β}
    (h : x s = .ok b s') : tryCatch x f s = .ok b s' := by
  show EStateM.tryCatch x f s = .ok b s'
  rw [EStateM.tryCatch]
  simp only [h]

/-- What was read before the exception stays read. -/
theorem tryCatch_of_error {x : EStateM ε σ β} {f : ε → EStateM ε σ β} {s s' : σ} {e : ε}
    (h : x s = .error e s') : tryCatch x f s = f e s' := by
  show EStateM.tryCatch x f s = f e s'
  rw [EStateM.tryCatch]
  simp only [h]
  rfl

/-- The program run `n` times, one result after the other. -/
def times (x : EStateM ε σ β) : Nat → EStateM ε σ (List β)
  | 0 => pure []
  | n + 1 => do
      let b ← x
      let bs ← times x n
      return b :: bs

theorem times_succ_of_ok {x : EStateM ε σ β} {n : Nat} {s t u : σ} {b : β} {bs : List β}
    (h : x s = .ok b t) (hs : times x n t = .ok bs u) : times x (n + 1) s = .ok (b :: bs) u := by
  rw [times, bind_of_ok h, bind_of_ok hs]
  rfl

/-- The stream that a program leaves, whether it returns or throws. -/
def after (x : EStateM ε σ β) (s : σ) : σ :=
  match x s with
  | .ok _ t => t
  | .error _ t => t

theorem after_of_ok {x : EStateM ε σ β} {s t : σ} {b : β} (h : x s = .ok b t) : after x s = t := by
  rw [after, h]

theorem after_of_error {x : EStateM ε σ β} {s t : σ} {e : ε} (h : x s = .error e t) :
    after x s = t := by
  rw [after, h]

/-- The program keeps the property of the state, however it ends. -/
def Keeps (P : σ → Prop) (x : EStateM ε σ β) : Prop := ∀ s, P s → P (after x s)

variable {P : σ → Prop}

theorem keeps_pure (b : β) : Keeps P (pure b : EStateM ε σ β) := fun _ h => h

theorem keeps_throw (e : ε) : Keeps P (throw e : EStateM ε σ β) := fun _ h => h

theorem Keeps.bind {x : EStateM ε σ β} {f : β → EStateM ε σ γ} (hx : Keeps P x)
    (hf : ∀ b, Keeps P (f b)) : Keeps P (x >>= f) := by
  intro s hs
  have h := hx s hs
  cases hr : x s with
  | ok b t =>
      rw [after_of_ok hr] at h
      rw [after, bind_of_ok hr]
      exact hf b t h
  | error e t =>
      rw [after_of_error hr] at h
      rw [after_of_error (bind_of_error hr)]
      exact h

theorem keeps_get : Keeps P (get : EStateM ε σ σ) := fun _ h => h

theorem keeps_modify {f : σ → σ} (hf : ∀ s, P s → P (f s)) :
    Keeps P (modify f : EStateM ε σ PUnit) := hf

theorem Keeps.map {x : EStateM ε σ β} (f : β → γ) (hx : Keeps P x) : Keeps P (f <$> x) := by
  intro s hs
  have h := hx s hs
  cases hr : x s with
  | ok b t =>
      rw [after_of_ok hr] at h
      rw [after_of_ok (map_of_ok f hr)]
      exact h
  | error e t =>
      rw [after_of_error hr] at h
      rw [after_of_error (map_of_error f hr)]
      exact h

theorem Keeps.tryCatch {x : EStateM ε σ β} {f : ε → EStateM ε σ β} (hx : Keeps P x)
    (hf : ∀ e, Keeps P (f e)) : Keeps P (tryCatch x f) := by
  intro s hs
  have h := hx s hs
  cases hr : x s with
  | ok b t =>
      rw [after_of_ok hr] at h
      rw [after_of_ok (tryCatch_of_ok hr)]
      exact h
  | error e t =>
      rw [after_of_error hr] at h
      rw [after, tryCatch_of_error hr]
      exact hf e t h

end Running

/-! ## Never back beyond the mark -/

/-- What a reset could bring back, and what is still to be delivered, is an end of `w`. -/
def Within (w : List α) (s : Input α) : Prop :=
  ((s.mark.map Mark.delivered).getD [] ++ s.rest) <:+ w

theorem Within.rest_suffix {w : List α} {s : Input α} (h : Within w s) : s.rest <:+ w :=
  (List.suffix_append _ _).trans h

theorem within_marked (w : List α) (readlimit : Nat) : Within w (Input.marked w readlimit) :=
  List.suffix_rfl

theorem Within.deliver {w : List α} {s : Input α} (h : Within w s) (n : Nat) :
    Within w (s.deliver n) := by
  obtain ⟨rest, m⟩ := s
  have hrest : rest.drop n <:+ w := (List.drop_suffix n rest).trans h.rest_suffix
  cases m with
  | none => exact hrest
  | some m =>
      rw [Within, Input.deliver, Option.bind_some, Mark.extend]
      by_cases hroom : (rest.take n).length ≤ m.room
      · rw [if_pos hroom]
        show (m.delivered ++ rest.take n) ++ rest.drop n <:+ w
        rw [List.append_assoc, List.take_append_drop]
        exact h
      · rw [if_neg hroom]
        exact hrest

theorem keeps_readNext (w : List α) : Keeps (Within w) (readNext : Program α α) := by
  intro s hs
  rw [after, readNext]
  cases hrest : s.rest with
  | nil => exact hs
  | cons c rest => exact hs.deliver 1

theorem keeps_reset (w : List α) : Keeps (Within w) (reset : Program α Unit) := by
  intro s hs
  rw [after, reset]
  cases hmark : s.mark with
  | none => exact hs
  | some m =>
      rw [Within, hmark] at hs
      exact hs

theorem keeps_skipBytes (w : List α) (n : Int) :
    Keeps (Within w) (skipBytes n : Program α Unit) := fun _ hs => hs.deliver _

theorem keeps_readFully (w : List α) (n : Nat) :
    Keeps (Within w) (readFully n : Program α (List α)) := by
  intro s hs
  rw [after, readFully]
  by_cases hn : n ≤ s.rest.length
  · rw [if_pos hn]
    exact hs.deliver n
  · rw [if_neg hn]
    exact hs.deliver _

theorem keeps_newArray {P : Input α → Prop} (n : Int) : Keeps P (newArray n : Program α Nat) := by
  intro s hs
  rw [after, newArray]
  by_cases hn : n < 0
  · rw [if_pos hn]
    exact hs
  · rw [if_neg hn]
    exact hs

theorem keeps_evaluate {P : Input α → Prop} (x : Except Exception β) :
    Keeps P (evaluate x : Program α β) := by
  intro s hs
  cases x with
  | ok b => exact hs
  | error e => exact hs

/-- A program that starts with a mark and then keeps to its stream leaves an end of that stream. -/
theorem rest_suffix_of_mark {readlimit : Nat} {p : Program α β}
    (hp : ∀ w, Keeps (Within w) p) (s : Input α) :
    (after (mark readlimit >>= fun _ => p) s).rest <:+ s.rest := by
  have h := hp s.rest _ (within_marked s.rest readlimit)
  have heq : (mark readlimit >>= fun _ => p) s = p (Input.marked s.rest readlimit) :=
    bind_of_ok rfl
  rw [after, heq]
  exact h.rest_suffix

end IotClient.Foundation.Streams
