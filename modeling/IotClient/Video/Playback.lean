import IotClient.Foundation.Runs
import IotClient.Video.MjpegInputStream

/-!
# The frames of a playback

The loop of `MjpegViewThread.run` calls `readMjpegFrame` over and over. An `IOException` is logged and
the loop goes on with the next call; every other exception, and an image that does not decode, ends
the thread.

* `run_pieces`: in every run, failed calls included, the images are separate pieces of the stream in
  the order of the stream.
* `run_sent_iff`: over a stream of headers and images that a sender made to be read, the run reads
  these images, and after them meets the end of the stream for ever.
* `run_alive_iff`: which bytes end the thread.
-/

set_option autoImplicit false

namespace IotClient.Video.Playback

open IotClient.Foundation.JavaText IotClient.Foundation.PropertyLists
open IotClient.Foundation.Runs IotClient.Foundation.Scanning IotClient.Foundation.Streams
open IotClient.Video.MjpegInputStream

/-! ## The loop -/

/-- The stream, and whether the thread is in its loop. -/
structure Player where
  input : Input UInt8
  alive : Bool
deriving DecidableEq, Repr

/-- What one call of `readMjpegFrame` gives. -/
abbrev Event := Except Exception (List UInt8)

/-- One round of the loop. `decodes` says for which bytes `BitmapFactory.decodeStream` returns an
image; for others it returns null, and the loop calls `getWidth` on that. -/
def Player.step (decodes : List UInt8 → Bool) (p : Player) (e : Event) : Option Player :=
  if p.alive then
    match readMjpegFrame p.input with
    | .ok frame t => if e = .ok frame then some ⟨t, decodes frame⟩ else none
    | .error fault t => if e = .error fault then some ⟨t, fault.isIOException⟩ else none
  else none

/-- A playback of the stream of the bytes `w`. -/
def playback (decodes : List UInt8 → Bool) (w : List UInt8) : Machine Player Event where
  init := ⟨⟨w, none⟩, true⟩
  step := Player.step decodes

/-- The images read. -/
def frames (es : List Event) : List (List UInt8) := es.filterMap Except.toOption

variable {decodes : List UInt8 → Bool} {w : List UInt8} {es : List Event} {p q : Player}
variable {e : Event}

/-- A call that gives `e` and leaves the stream `t`. -/
def result : Event → Input UInt8 → EStateM.Result Exception (Input UInt8) (List UInt8)
  | .ok frame, t => .ok frame t
  | .error fault, t => .error fault t

/-- Whether the thread stays in its loop. -/
def survives (decodes : List UInt8 → Bool) : Event → Bool
  | .ok frame => decodes frame
  | .error fault => fault.isIOException

theorem result_inj {e f : Event} {t u : Input UInt8} (h : result e t = result f u) : e = f := by
  cases e with
  | ok frame =>
      cases f with
      | ok frame' => rw [(EStateM.Result.ok.inj h).1]
      | error fault => cases h
  | error fault =>
      cases f with
      | ok frame => cases h
      | error fault' => rw [(EStateM.Result.error.inj h).1]

theorem step_iff : p.step decodes e = some q ↔
    p.alive = true ∧ ∃ t, readMjpegFrame p.input = result e t ∧ q = ⟨t, survives decodes e⟩ := by
  obtain ⟨f, u, hread⟩ : ∃ f u, readMjpegFrame p.input = result f u := by
    cases readMjpegFrame p.input with
    | ok frame t => exact ⟨.ok frame, t, rfl⟩
    | error fault t => exact ⟨.error fault, t, rfl⟩
  have hstep : p.step decodes e =
      if p.alive then (if e = f then some ⟨u, survives decodes f⟩ else none) else none := by
    rw [Player.step, hread]
    cases f <;> rfl
  rw [hstep, hread]
  constructor
  · intro h
    obtain ⟨halive, h⟩ := Option.ite_none_right_eq_some.1 h
    obtain ⟨rfl, h⟩ := Option.ite_none_right_eq_some.1 h
    exact ⟨halive, u, rfl, (Option.some.inj h).symm⟩
  · rintro ⟨halive, t, heq, rfl⟩
    obtain rfl := result_inj heq
    have hu : u = t := by
      cases f with
      | ok frame => exact (EStateM.Result.ok.inj heq).2
      | error fault => exact (EStateM.Result.error.inj heq).2
    rw [if_pos halive, if_pos rfl, hu]

/-! ## The images are pieces of the stream -/

theorem keeps_endOfSeqeunceLoop (v sequence : List UInt8) (k i j : Nat) :
    Keeps (Within v) (endOfSeqeunceLoop sequence k i j) := by
  induction k generalizing i j with
  | zero => exact keeps_pure _
  | succ k ih =>
      refine (keeps_readNext v).bind fun c => ?_
      split
      · split
        · exact keeps_pure _
        · exact ih _ _
      · exact ih _ _

/-- A call never goes back before the place where it started, also when it throws. -/
theorem readMjpegFrame_suffix (s : Input UInt8) : (after readMjpegFrame s).rest <:+ s.rest := by
  refine rest_suffix_of_mark (fun v => ?_) s
  have hscan : ∀ sequence, Keeps (Within v) (getEndOfSeqeunce sequence) := fun sequence =>
    keeps_endOfSeqeunceLoop v sequence _ _ _
  refine ((hscan _).bind fun e => keeps_pure _).bind fun headerLen => ?_
  refine (keeps_reset v).bind fun _ => (keeps_newArray _).bind fun headerSize => ?_
  refine (keeps_readFully v _).bind fun header => ?_
  refine ((keeps_evaluate _).tryCatch fun fault => ?_).bind fun mContentLength => ?_
  · cases fault with
    | numberFormat => exact hscan _
    | eof => exact keeps_throw _
    | invalidMark => exact keeps_throw _
    | negativeArraySize => exact keeps_throw _
    | indexOutOfBounds => exact keeps_throw _
    | illegalArgument => exact keeps_throw _
  · refine (keeps_reset v).bind fun _ => (keeps_newArray _).bind fun frameSize => ?_
    exact (keeps_skipBytes v _).bind fun _ => keeps_readFully v _

/-- The images of `pieces`, each behind the bytes that were passed over before it, and then more
bytes passed over, lead from the start of `v` to `rest`. -/
def Pieces (v : List UInt8) (pieces : List (List UInt8 × List UInt8)) (rest : List UInt8) : Prop :=
  ∃ lost, v = pieces.flatMap (fun piece => piece.1 ++ piece.2) ++ lost ++ rest

theorem Pieces.skip {v rest rest' : List UInt8} {pieces : List (List UInt8 × List UInt8)}
    (h : Pieces v pieces rest) (hrest : rest' <:+ rest) : Pieces v pieces rest' := by
  obtain ⟨lost, rfl⟩ := h
  obtain ⟨passed, rfl⟩ := hrest
  exact ⟨lost ++ passed, by simp only [List.append_assoc]⟩

theorem Pieces.frame {v header frame rest : List UInt8} {pieces : List (List UInt8 × List UInt8)}
    (h : Pieces v pieces (header ++ frame ++ rest)) :
    ∃ lost, Pieces v (pieces ++ [(lost ++ header, frame)]) rest := by
  obtain ⟨lost, rfl⟩ := h
  refine ⟨lost, [], ?_⟩
  rw [List.flatMap_append, List.flatMap_singleton, List.append_nil]
  simp only [List.append_assoc]

theorem frames_append (es : List Event) (e : Event) :
    frames (es ++ [e]) = frames es ++ e.toOption.toList := by
  rw [frames, List.filterMap_append, ← frames]
  cases e <;> rfl

/-- In every run the images are separate pieces of the stream, in the order of the stream, and each
starts with the start marker unless its header said that it is shorter. -/
theorem run_pieces (h : Run (playback decodes w) es p) :
    ∃ pieces, pieces.map Prod.snd = frames es ∧ Pieces w pieces p.input.rest ∧
      ∀ frame ∈ frames es, 2 ≤ frame.length → SOI_MARKER <+: frame := by
  refine h.invariant_trace (I := fun es p => ∃ pieces, pieces.map Prod.snd = frames es ∧
    Pieces w pieces p.input.rest ∧ ∀ frame ∈ frames es, 2 ≤ frame.length → SOI_MARKER <+: frame)
    ?_ ?_
  · exact ⟨[], rfl, ⟨[], rfl⟩, fun frame hf => absurd hf List.not_mem_nil⟩
  · rintro es p e q ⟨pieces, hsnd, hpieces, hstarts⟩ - hstep
    rw [frames_append]
    cases e with
    | ok frame =>
        obtain ⟨-, t, hread, rfl⟩ := step_iff.1 hstep
        obtain ⟨header, rest, hpart, rfl⟩ := part_of_readMjpegFrame hread
        rw [hpart.split] at hpieces
        obtain ⟨lost, hpieces⟩ := hpieces.frame
        refine ⟨_, ?_, by rw [hpart.rest_eq]; exact hpieces, fun f hf hlen => ?_⟩
        · rw [List.map_append, hsnd]
          rfl
        · rcases List.mem_append.1 hf with hf | hf
          · exact hstarts f hf hlen
          · obtain rfl := List.mem_singleton.1 hf
            exact hpart.starts hlen
    | error fault =>
        obtain ⟨-, t, hread, rfl⟩ := step_iff.1 hstep
        have hsuffix := readMjpegFrame_suffix p.input
        rw [after, hread, result] at hsuffix
        rw [show (Except.error fault : Event).toOption.toList = [] from rfl, List.append_nil]
        exact ⟨pieces, hsnd, hpieces.skip hsuffix, hstarts⟩

theorem run_pieces_one :
    ∃ p, Run (playback (fun _ => true) [0x0d, 0xff, 0xd8, 0x01, 0xff, 0xd9, 0x0a])
        [.ok [0xff, 0xd8, 0x01, 0xff, 0xd9], .error .eof] p ∧
      ∃ pieces, pieces.map Prod.snd = [[0xff, 0xd8, 0x01, 0xff, 0xd9]] ∧
        Pieces [0x0d, 0xff, 0xd8, 0x01, 0xff, 0xd9, 0x0a] pieces p.input.rest := by
  have hexec : ((playback (fun _ => true) [0x0d, 0xff, 0xd8, 0x01, 0xff, 0xd9, 0x0a]).exec
      [.ok [0xff, 0xd8, 0x01, 0xff, 0xd9], .error .eof]).map (·.alive) = some true := by decide
  obtain ⟨p, hrun, -⟩ := exists_run_of_exec _ _ _ hexec
  obtain ⟨pieces, hsnd, hpieces, -⟩ := run_pieces hrun
  exact ⟨p, hrun, pieces, hsnd, hpieces⟩

/-! ## A stream made to be read -/

/-- A header and an image as a camera sends them. There is no `0xff` in the header, and what it says
of the length is right, or it says nothing and the image ends with its first end marker, within the
reach of the mark. -/
structure Sent (header image : List UInt8) : Prop where
  noMarker : 0xff ∉ header
  start_le : header.length + 2 ≤ FRAME_MAX_LENGTH
  starts : SOI_MARKER <+: image
  size : parseContentLength header = .ok image.length ∨
    parseContentLength header = .error .numberFormat ∧
      matchEnd EOF_MARKER 0 image = some image.length ∧
      header.length + image.length ≤ FRAME_MAX_LENGTH

theorem part_of_sent {header image : List UInt8} (h : Sent header image) (rest : List UInt8) :
    Part (header ++ image ++ rest) header image rest := by
  obtain ⟨tail, htail⟩ := h.starts
  refine ⟨rfl, ?_, h.start_le, ?_⟩
  · rw [← htail, List.append_assoc, List.append_assoc]
    exact matchEnd_of_not_mem h.noMarker _
  · rcases h.size with hsize | ⟨hsize, hend, hlimit⟩
    · exact .inl hsize
    · exact .inr ⟨hsize, matchEnd_append hend rest, hlimit⟩

/-- The bytes that a camera sends. -/
def sentBytes (parts : List (List UInt8 × List UInt8)) : List UInt8 :=
  parts.flatMap fun part => part.1 ++ part.2

/-- The result of the call number `k`. -/
def expected (parts : List (List UInt8 × List UInt8)) (k : Nat) : Event :=
  match parts[k]? with
  | some part => .ok part.2
  | none => .error .eof

/-- What the stream has left before the call number `k`. -/
def remaining (parts : List (List UInt8 × List UInt8)) (trailer : List UInt8) (k : Nat) :
    List UInt8 :=
  if k ≤ parts.length then sentBytes (parts.drop k) ++ trailer else []

theorem frameOf_of_trailer {trailer : List UInt8} (hmarker : matchEnd SOI_MARKER 0 trailer = none)
    (hshort : trailer.length < FRAME_MAX_LENGTH) :
    frameOf trailer = .error .eof ((opened trailer).deliver trailer.length) := by
  have hfound : found SOI_MARKER trailer = none := by
    rw [found, List.take_of_length_le (Nat.le_of_lt hshort), hmarker]
  rw [frameOf, hfound]
  simp only [if_neg (Nat.not_le.2 hshort)]

section Sent

variable {parts : List (List UInt8 × List UInt8)} {trailer : List UInt8}

/-- The stream starts with the next part as long as there is one. -/
theorem remaining_of_lt {k : Nat} (hk : k < parts.length) :
    remaining parts trailer k =
      parts[k].1 ++ parts[k].2 ++ remaining parts trailer (k + 1) := by
  have hnext : k + 1 ≤ parts.length := hk
  rw [remaining, remaining, if_pos (Nat.le_of_lt hk), if_pos hnext, List.drop_eq_getElem_cons hk,
    sentBytes, List.flatMap_cons, List.append_assoc]
  rfl

/-- A call at any place of the run, and that the thread goes on after it. -/
theorem call_of_sent
    (hparts : ∀ part ∈ parts, Sent part.1 part.2 ∧ decodes part.2 = true)
    (hmarker : matchEnd SOI_MARKER 0 trailer = none)
    (hshort : trailer.length < FRAME_MAX_LENGTH) {k : Nat} {s : Input UInt8}
    (hs : s.rest = remaining parts trailer k) :
    (∃ t, readMjpegFrame s = result (expected parts k) t ∧
      t.rest = remaining parts trailer (k + 1)) ∧ survives decodes (expected parts k) = true := by
  rw [readMjpegFrame_eq, hs, expected]
  by_cases hk : k < parts.length
  · obtain ⟨hsent, hdecodes⟩ := hparts parts[k] (List.getElem_mem hk)
    have hpart := part_of_sent hsent (remaining parts trailer (k + 1))
    rw [List.getElem?_eq_getElem hk, remaining_of_lt hk]
    exact ⟨⟨_, frameOf_of_part hpart, hpart.rest_eq⟩, hdecodes⟩
  · have hlast : matchEnd SOI_MARKER 0 (remaining parts trailer k) = none ∧
        (remaining parts trailer k).length < FRAME_MAX_LENGTH := by
      rw [remaining]
      split
      · rw [List.drop_eq_nil_of_le (Nat.le_of_not_lt hk)]
        exact ⟨hmarker, hshort⟩
      · exact ⟨rfl, by decide⟩
    rw [List.getElem?_eq_none (Nat.le_of_not_lt hk)]
    refine ⟨⟨_, frameOf_of_trailer hlast.1 hlast.2, ?_⟩, rfl⟩
    rw [deliver_rest, marked_rest, List.drop_length, remaining, if_neg (by omega)]

/-- Over a stream of parts as a camera sends them the run reads the images sent, one with each call,
and from then on meets the end of the stream with every call. -/
theorem run_sent_iff (hparts : ∀ part ∈ parts, Sent part.1 part.2 ∧ decodes part.2 = true)
    (hmarker : matchEnd SOI_MARKER 0 trailer = none)
    (hshort : trailer.length < FRAME_MAX_LENGTH) (es : List Event) :
    (∃ p, Run (playback decodes (sentBytes parts ++ trailer)) es p) ↔
      es = (List.range es.length).map (expected parts) := by
  refine exists_run_iff_of_schedule
    (I := fun k p => p.alive = true ∧ p.input.rest = remaining parts trailer k) ?_ ?_ ?_ es
  · exact ⟨rfl, rfl⟩
  · rintro k p ⟨halive, hrest⟩
    obtain ⟨⟨t, hread, ht⟩, hsurvives⟩ := call_of_sent hparts hmarker hshort hrest
    exact ⟨_, step_iff.2 ⟨halive, t, hread, rfl⟩, hsurvives, ht⟩
  · rintro k p e q ⟨-, hrest⟩ hstep
    obtain ⟨⟨t, hread, -⟩, -⟩ := call_of_sent hparts hmarker hshort hrest
    obtain ⟨-, t', hread', -⟩ := step_iff.1 hstep
    exact result_inj (hread'.symm.trans hread)

end Sent

/-- Two images, the first with its length and the second with its end marker. -/
theorem run_sent_two :
    ∃ p, Run (playback (fun _ => true)
        (sentBytes [(header [contentLengthLine 4], [0xff, 0xd8, 1, 2]),
          ([13, 10], [0xff, 0xd8, 0xff, 0xd9])] ++ [13, 10]))
      [.ok [0xff, 0xd8, 1, 2], .ok [0xff, 0xd8, 0xff, 0xd9], .error .eof, .error .eof] p := by
  refine (run_sent_iff ?_ (by decide) (by decide) _).2 rfl
  intro part hpart
  rcases List.mem_cons.1 hpart with rfl | hpart
  · exact ⟨⟨by decide, by decide, ⟨[1, 2], rfl⟩, .inl (by decide)⟩, rfl⟩
  · rw [List.mem_singleton.1 hpart]
    exact ⟨⟨by decide, by decide, ⟨[0xff, 0xd9], rfl⟩, .inr ⟨rfl, by decide, by decide⟩⟩, rfl⟩

/-! ## What ends the thread -/

/-- The bytes that end the thread: an exception that it does not catch, or an image that does not
decode. -/
def Ends (decodes : List UInt8 → Bool) (w : List UInt8) : Prop :=
  Fatal w ∨ ∃ header frame rest, Part w header frame rest ∧ decodes frame = false

theorem survives_iff {t : Input UInt8} (h : readMjpegFrame p.input = result e t) :
    survives decodes e = true ↔ ¬ Ends decodes p.input.rest := by
  rw [readMjpegFrame_eq] at h
  cases e with
  | ok frame =>
      obtain ⟨header, rest, hpart⟩ := part_of_frameOf h
      constructor
      · rintro hdecodes (hfatal | ⟨header', frame', rest', hpart', hfails⟩)
        · obtain ⟨e, u, heq, -⟩ := hfatal.frameOf_eq
          rw [heq] at h
          cases h
        · rw [frameOf_of_part hpart'] at h
          rw [← (EStateM.Result.ok.inj h).1, survives, hfails] at hdecodes
          cases hdecodes
      · intro hends
        rw [survives]
        cases hdecodes : decodes frame with
        | true => rfl
        | false => exact absurd (.inr ⟨header, frame, rest, hpart, hdecodes⟩) hends
  | error fault =>
      constructor
      · rintro hio (hfatal | ⟨header', frame', rest', hpart', -⟩)
        · obtain ⟨e, u, heq, hnot⟩ := hfatal.frameOf_eq
          rw [heq] at h
          rw [survives, ← (EStateM.Result.error.inj h).1, hnot] at hio
          cases hio
        · rw [frameOf_of_part hpart'] at h
          cases h
      · intro hends
        rw [survives]
        cases hio : fault.isIOException with
        | true => rfl
        | false => exact absurd (.inl (fatal_of_frameOf h hio)) hends

/-- The thread stays in its loop through a run exactly when no call finds bytes that end it. -/
theorem run_alive_iff (decodes : List UInt8 → Bool) (w : List UInt8) (es : List Event)
    (p : Player) :
    RunUnder (playback decodes w) (fun s _ => ¬ Ends decodes s.input.rest) es p ↔
      Run (playback decodes w) es p ∧ Always (playback decodes w) (fun s => s.alive = true) es := by
  have hinit : (playback decodes w).init.alive = true := rfl
  refine run_always_iff (P := fun s => s.alive = true) hinit (fun es s e t _ _ hstep => ?_) es p
  obtain ⟨-, u, hread, rfl⟩ := step_iff.1 hstep
  exact (survives_iff hread).symm

end IotClient.Video.Playback
