import IotClient.Video.MjpegInputStream

/-!
# The native reader of a motion JPEG stream

`MjpegInputStreamNative.readMjpegFrame` is the other reader of the library. It keeps the buffers of
the header and of the image from one call to the next, and without a `Content-Length` it first looks
for the end marker around the length of the image before. Its field `headerLen` is hidden by a local
variable of the same name and stays `-1`.

`skip` is 1 and never set, so every image is passed on to `pixeltobmp`; the counter that it divides
is left out.
-/

set_option autoImplicit false

namespace IotClient.Video.MjpegInputStreamNative

open IotClient.Foundation.Scanning IotClient.Foundation.Streams
open IotClient.Video.MjpegInputStream (SOI_MARKER EOF_MARKER HEADER_MAX_LENGTH endOfSeqeunceLoop
  endOfSeqeunceLoop_eq parseContentLength Part)

/-! ## The reader -/

def FRAME_MAX_LENGTH : Nat := 200000

/-- `MjpegInputStreamNative`: the stream and the fields. Of the image buffer only its length is
kept. -/
structure Reader where
  input : Input UInt8
  mContentLength : Int
  header : Option (List UInt8)
  frameData : Option Int
  headerLen : Int
  headerLenPrev : Int
deriving DecidableEq, Repr

/-- The constructor. -/
def newReader (w : List UInt8) : Reader := ⟨⟨w, none⟩, -1, none, none, -1, -1⟩

/-- A method of the reader. -/
abbrev Method (β : Type) := EStateM Exception Reader β

variable {β : Type}

/-- A program on the stream. -/
def onStream (x : Program UInt8 β) : Method β := fun r =>
  match x r.input with
  | .ok b t => .ok b { r with input := t }
  | .error e t => .error e { r with input := t }

/-- The value of an `int` expression. -/
def wrap (n : Int) : Int := Int.bmod n (2 ^ 32)

/-- `getEndOfSeqeunce`. -/
def getEndOfSeqeunce (sequence : List UInt8) : Program UInt8 Int :=
  endOfSeqeunceLoop sequence FRAME_MAX_LENGTH 0 0

/-- `getStartOfSequence`. -/
def getStartOfSequence (sequence : List UInt8) : Program UInt8 Int := do
  let e ← getEndOfSeqeunce sequence
  return if e < 0 then -1 else e - sequence.length

/-- `getEndOfSeqeunceSimplified`. `headerLen` is the field. -/
def getEndOfSeqeunceSimplified (sequence : List UInt8) : Method Int := do
  let r ← get
  let startPos := r.mContentLength.tdiv 2
  let endPos := (wrap (3 * r.mContentLength)).tdiv 2
  onStream (skipBytes (wrap (r.headerLen + startPos)))
  let e ← onStream (endOfSeqeunceLoop sequence (endPos - startPos).toNat 0 0)
  return if e < 0 then -1 else wrap (r.headerLen + startPos + e)

/-- An `IOException` makes the call go back to the mark and return `-1`, which is `none` here. -/
def orGiveUp (x : Method β) : Method (Option β) :=
  tryCatch (some <$> x) fun e =>
    if e.isIOException then do
      onStream reset
      return none
    else throw e

/-- The header buffer is renewed when the length changes. -/
def renewHeader (headerLen : Int) : Method Unit := fun r =>
  if r.header = none ∨ headerLen ≠ r.headerLenPrev then
    if headerLen < 0 then .error .negativeArraySize r
    else
      let buffer := List.replicate headerLen.toNat 0
      .ok () { r with header := some buffer, headerLenPrev := headerLen }
  else .ok () { r with headerLenPrev := headerLen }

/-- `readFully(header)`. -/
def readHeader : Method (List UInt8) := do
  let r ← get
  let header ← onStream (readFully (r.header.getD []).length)
  modify fun r => { r with header := r.header.map fun _ => header }
  return header

/-- The length when the header does not give it. -/
def lengthToEndMarker : Method Int := do
  let contentLength ← getEndOfSeqeunceSimplified EOF_MARKER
  if contentLength < 0 then
    onStream reset
    -- the scan starts at the mark, before the header
    onStream (getEndOfSeqeunce EOF_MARKER)
  else return contentLength

/-- The image buffer is made at the first call, and renewed when the image is too long for it. -/
def renewFrameData : Method Unit := modify fun r =>
  let size := wrap (r.mContentLength + (HEADER_MAX_LENGTH : Nat))
  let present := r.frameData.getD FRAME_MAX_LENGTH
  { r with frameData := some (if size > FRAME_MAX_LENGTH then size else present) }

/-- `readFully(frameData, 0, mContentLength)`: the bytes read. -/
def readFrameData : Method (List UInt8) := do
  let r ← get
  if r.mContentLength < 0 ∨ r.frameData.getD 0 < r.mContentLength then throw .indexOutOfBounds
  onStream (readFully r.mContentLength.toNat)

/-- The image behind the header, once its length is known. -/
def readImage (headerLen contentLength : Int) : Method (Option (List UInt8)) := do
  modify fun r => { r with mContentLength := contentLength }
  onStream reset
  renewFrameData
  onStream (skipBytes headerLen)
  some <$> readFrameData

/-- `readMjpegFrame` from the header on. -/
def readBehindStart (headerLen : Int) : Method (Option (List UInt8)) := do
  onStream reset
  renewHeader headerLen
  let header ← readHeader
  let contentLengthNew ← tryCatch (some <$> onStream (evaluate (parseContentLength header)))
    fun e =>
      match e with
      | .numberFormat | .illegalArgument => some <$> lengthToEndMarker
      | .eof | .invalidMark => do
          onStream reset
          return none
      | e => throw e
  match contentLengthNew with
  | none => return none
  | some contentLength => readImage headerLen contentLength

/-- `readMjpegFrame(bmp)`: the bytes that are passed to `pixeltobmp`, or `none` for `-1`. -/
def readMjpegFrame : Method (Option (List UInt8)) := do
  onStream (mark FRAME_MAX_LENGTH)
  match ← orGiveUp (onStream (getStartOfSequence SOI_MARKER)) with
  | none => return none
  | some headerLen => readBehindStart headerLen

/-! ## Steps -/

/-- The reader with another stream. -/
def Reader.withInput (r : Reader) (t : Input UInt8) : Reader := { r with input := t }

@[simp] theorem withInput_input (r : Reader) (t : Input UInt8) : (r.withInput t).input = t := rfl

@[simp] theorem withInput_withInput (r : Reader) (t u : Input UInt8) :
    (r.withInput t).withInput u = r.withInput u := rfl

theorem onStream_of_ok {x : Program UInt8 β} {r : Reader} {b : β} {t : Input UInt8}
    (h : x r.input = .ok b t) : onStream x r = .ok b (r.withInput t) := by
  rw [onStream, h]
  rfl

theorem onStream_of_error {x : Program UInt8 β} {r : Reader} {e : Exception} {t : Input UInt8}
    (h : x r.input = .error e t) : onStream x r = .error e (r.withInput t) := by
  rw [onStream, h]
  rfl

/-- The stream of a call that finds `w`, after its mark. -/
abbrev opened (w : List UInt8) : Input UInt8 := Input.marked w FRAME_MAX_LENGTH

/-- What the fields are between two calls: the buffers have the lengths that the next call relies
on, and the hidden field has its first value. -/
structure Ready (r : Reader) : Prop where
  header : ∀ b ∈ r.header, (b.length : Int) = r.headerLenPrev
  frameData : ∀ n ∈ r.frameData, (FRAME_MAX_LENGTH : Int) ≤ n
  headerLen : r.headerLen = -1

theorem ready_newReader (w : List UInt8) : Ready (newReader w) :=
  ⟨fun _ h => (by cases h), fun _ h => (by cases h), rfl⟩

theorem Ready.withInput {r : Reader} (h : Ready r) (t : Input UInt8) : Ready (r.withInput t) :=
  ⟨h.header, h.frameData, h.headerLen⟩

/-- A scan that finds the marker. -/
theorem getEndOfSeqeunce_of_found {marker : List UInt8} {s : Input UInt8} {n : Nat}
    (h : matchEnd marker 0 s.rest = some n) (hn : n ≤ FRAME_MAX_LENGTH) :
    getEndOfSeqeunce marker s = .ok (n : Int) (s.deliver n) := by
  rw [getEndOfSeqeunce, endOfSeqeunceLoop_eq, (matchEnd_take_iff _).2 ⟨h, hn⟩]
  simp only [Nat.zero_add]

theorem renewHeader_of_ready {r : Reader} (h : Ready r) (n : Nat) :
    ∃ b, b.length = n ∧
      renewHeader n r = .ok () { r with header := some b, headerLenPrev := n } := by
  rw [renewHeader]
  by_cases hnew : r.header = none ∨ (n : Int) ≠ r.headerLenPrev
  · refine ⟨List.replicate n 0, List.length_replicate, ?_⟩
    rw [if_pos hnew, if_neg (by omega), Int.toNat_natCast]
  · obtain ⟨hsome, hlen⟩ := not_or.1 hnew
    obtain ⟨b, hb⟩ := Option.ne_none_iff_exists'.1 hsome
    have hlength := h.header b hb
    refine ⟨b, by omega, ?_⟩
    rw [if_neg hnew, ← hb]

/-- The reader behind a header of `n` bytes of the bytes `w`. -/
def Reader.behindHeader (r : Reader) (w : List UInt8) (n : Nat) : Reader :=
  { r with input := (opened w).deliver n, header := some (w.take n), headerLenPrev := n }

theorem Ready.behindHeader {r : Reader} (h : Ready r) {w : List UInt8} {n : Nat}
    (hn : n ≤ w.length) : Ready (r.behindHeader w n) := by
  refine ⟨fun b hb => ?_, h.frameData, h.headerLen⟩
  obtain rfl := Option.some.inj hb
  rw [List.length_take_of_le hn]
  rfl

/-- A call on bytes with a start marker comes to the header before it. -/
theorem readMjpegFrame_of_start {r : Reader} (h : Ready r) {w header rest : List UInt8}
    (hw : r.input.rest = w) (hsplit : w = header ++ rest)
    (hstart : matchEnd SOI_MARKER 0 w = some (header.length + 2))
    (hlimit : header.length + 2 ≤ FRAME_MAX_LENGTH) :
    readMjpegFrame r = (do
      let contentLengthNew ← tryCatch (some <$> onStream (evaluate (parseContentLength header)))
        fun e =>
          match e with
          | .numberFormat | .illegalArgument => some <$> lengthToEndMarker
          | .eof | .invalidMark => do
              onStream reset
              return none
          | e => throw e
      match contentLengthNew with
      | none => return none
      | some contentLength => readImage header.length contentLength : Method _)
      (r.behindHeader w header.length) := by
  have hlen := (matchEnd_bounds hstart).2
  have hmark : onStream (mark FRAME_MAX_LENGTH) r = .ok () (r.withInput (opened w)) := by
    rw [← hw]
    rfl
  have hscan : getStartOfSequence SOI_MARKER (opened w) =
      .ok (header.length : Int) ((opened w).deliver (header.length + 2)) := by
    rw [getStartOfSequence, bind_of_ok (getEndOfSeqeunce_of_found hstart hlimit),
      if_neg (by omega)]
    show EStateM.Result.ok (((header.length + 2 : Nat) : Int) - 2) _ = _
    rw [Nat.cast_add]
    congr 1
    omega
  have hgive : orGiveUp (onStream (getStartOfSequence SOI_MARKER)) (r.withInput (opened w)) =
      .ok (some (header.length : Int))
        (r.withInput ((opened w).deliver (header.length + 2))) :=
    tryCatch_of_ok (map_of_ok some (onStream_of_ok hscan))
  have hreset : onStream reset (r.withInput ((opened w).deliver (header.length + 2))) =
      .ok () (r.withInput (opened w)) := onStream_of_ok (reset_of_deliver hlen hlimit)
  obtain ⟨b, hb, hrenew⟩ := renewHeader_of_ready (h.withInput (opened w)) header.length
  have htake : w.take header.length = header := by rw [hsplit, List.take_left]
  have hread : readHeader { r.withInput (opened w) with
      header := some b, headerLenPrev := header.length } =
      .ok header (r.behindHeader w header.length) := by
    have hfully : readFully b.length (opened w) = .ok header ((opened w).deliver header.length) := by
      rw [readFully_of_le (by rw [marked_rest]; omega), marked_rest, hb, htake]
    rw [readHeader]
    refine (bind_of_ok rfl).trans ?_
    refine (bind_of_ok (onStream_of_ok hfully)).trans ?_
    rw [Reader.behindHeader, htake]
    rfl
  rw [readMjpegFrame, bind_of_ok hmark, bind_of_ok hgive]
  show readBehindStart _ _ = _
  rw [readBehindStart, bind_of_ok hreset, bind_of_ok hrenew, bind_of_ok hread]

/-- The image buffer is long enough for every length that does not overflow. -/
theorem renewFrameData_of_ready {r : Reader} (h : Ready r) {n : Nat} (hn : r.mContentLength = n)
    (hoverflow : n + HEADER_MAX_LENGTH < 2 ^ 31) :
    ∃ m : Int, (FRAME_MAX_LENGTH : Int) ≤ m ∧ (n : Int) ≤ m ∧
      renewFrameData r = .ok () { r with frameData := some m } := by
  have hwrap : wrap (r.mContentLength + (HEADER_MAX_LENGTH : Nat)) = n + 100 := by
    rw [hn, wrap, Int.bmod_def]
    rw [HEADER_MAX_LENGTH] at hoverflow ⊢
    omega
  have hkept : (FRAME_MAX_LENGTH : Int) ≤ r.frameData.getD FRAME_MAX_LENGTH := by
    cases hdata : r.frameData with
    | none => exact Int.le_refl _
    | some m => exact h.frameData m hdata
  by_cases hlong : (n : Int) + 100 > FRAME_MAX_LENGTH
  · refine ⟨n + 100, by omega, by omega, ?_⟩
    show EStateM.Result.ok () _ = _
    simp only [hwrap, if_pos hlong]
  · refine ⟨_, hkept, by omega, ?_⟩
    show EStateM.Result.ok () _ = _
    simp only [hwrap, if_neg hlong]

/-- The image of a length that is known, from anywhere within the reach of the mark. -/
theorem readImage_of_le {r : Reader} (h : Ready r) {w : List UInt8} {headerLen k n : Nat}
    (hinput : r.input = (opened w).deliver k) (hk : k ≤ w.length) (hlimit : k ≤ FRAME_MAX_LENGTH)
    (hn : headerLen + n ≤ w.length) (hoverflow : n + HEADER_MAX_LENGTH < 2 ^ 31) :
    ∃ t, readImage headerLen n r = .ok (some ((w.drop headerLen).take n)) t ∧
      t.input = (opened w).deliver (headerLen + n) ∧ t.mContentLength = n ∧ Ready t := by
  let r' := { r with mContentLength := (n : Int) }
  have hready : Ready r' := ⟨h.header, h.frameData, h.headerLen⟩
  have hreset : onStream reset r' = .ok () (r'.withInput (opened w)) := by
    refine onStream_of_ok ?_
    show reset r.input = _
    rw [hinput]
    exact reset_of_deliver hk hlimit
  obtain ⟨m, hm, hnm, hrenew⟩ :=
    renewFrameData_of_ready (hready.withInput (opened w)) (n := n) rfl hoverflow
  let r'' := { r'.withInput (opened w) with frameData := some m }
  have hskip : onStream (skipBytes (headerLen : Int)) r'' =
      .ok () (r''.withInput ((opened w).deliver headerLen)) := rfl
  have hfully : readFully n ((opened w).deliver headerLen) =
      .ok ((w.drop headerLen).take n) ((opened w).deliver (headerLen + n)) := by
    have hle : n ≤ (w.drop headerLen).length := by
      rw [List.length_drop]
      omega
    rw [readFully_of_le hle, deliver_deliver]
    rfl
  have hread : readFrameData (r''.withInput ((opened w).deliver headerLen)) =
      .ok ((w.drop headerLen).take n) (r''.withInput ((opened w).deliver (headerLen + n))) := by
    have hbounds : ¬ ((n : Int) < 0 ∨ m < n) := by omega
    rw [readFrameData]
    refine (bind_of_ok rfl).trans ?_
    show (if (n : Int) < 0 ∨ m < n then _ else _ : Method (List UInt8)) _ = _
    rw [if_neg hbounds]
    exact onStream_of_ok hfully
  refine ⟨r''.withInput ((opened w).deliver (headerLen + n)), ?_, rfl, rfl, ?_⟩
  · rw [readImage]
    refine (bind_of_ok rfl).trans ?_
    refine (bind_of_ok hreset).trans ?_
    refine (bind_of_ok hrenew).trans ?_
    refine (bind_of_ok hskip).trans ?_
    exact map_of_ok some hread
  · refine ⟨h.header, fun m' hm' => ?_, h.headerLen⟩
    obtain rfl := Option.some.inj hm'
    exact hm

/-! ## Any number of calls -/

theorem keeps_onStream (x : Program UInt8 β) : Keeps Ready (onStream x) := by
  intro r hr
  rw [after, onStream]
  cases x r.input with
  | ok b t => exact hr.withInput t
  | error e t => exact hr.withInput t

theorem keeps_renewHeader (headerLen : Int) : Keeps Ready (renewHeader headerLen) := by
  intro r hr
  by_cases hneg : headerLen < 0
  · by_cases hnew : r.header = none ∨ headerLen ≠ r.headerLenPrev
    · have hthrow : renewHeader headerLen r = .error .negativeArraySize r := by
        rw [renewHeader, if_pos hnew, if_pos hneg]
      rw [after_of_error hthrow]
      exact hr
    · -- the length of the last header is not negative
      obtain ⟨hsome, hlen⟩ := not_or.1 hnew
      obtain ⟨b, hb⟩ := Option.ne_none_iff_exists'.1 hsome
      have := hr.header b hb
      omega
  · obtain ⟨n, rfl⟩ := Int.eq_ofNat_of_zero_le (Int.not_lt.1 hneg)
    obtain ⟨b, hb, hrenew⟩ := renewHeader_of_ready hr n
    rw [after_of_ok hrenew]
    refine ⟨fun b' hb' => ?_, hr.frameData, hr.headerLen⟩
    obtain rfl := Option.some.inj hb'
    rw [hb]

theorem keeps_readHeader : Keeps Ready readHeader := by
  intro r hr
  by_cases hlen : (r.header.getD []).length ≤ r.input.rest.length
  · have hread : readHeader r = .ok (r.input.rest.take (r.header.getD []).length)
        { r.withInput (r.input.deliver (r.header.getD []).length) with
          header := r.header.map fun _ => r.input.rest.take (r.header.getD []).length } := by
      rw [readHeader]
      refine (bind_of_ok rfl).trans ?_
      exact bind_of_ok (onStream_of_ok (readFully_of_le hlen))
    rw [after_of_ok hread]
    refine ⟨fun b' hb' => ?_, hr.frameData, hr.headerLen⟩
    obtain ⟨b, hb, rfl⟩ := Option.map_eq_some_iff.1 hb'
    rw [hb] at hlen ⊢
    rw [List.length_take_of_le hlen]
    exact hr.header b hb
  · have hread : readHeader r = .error .eof (r.withInput (r.input.deliver r.input.rest.length)) := by
      rw [readHeader]
      refine (bind_of_ok rfl).trans ?_
      exact bind_of_error (onStream_of_error (readFully_of_lt (Nat.not_le.1 hlen)))
    rw [after_of_error hread]
    exact hr.withInput _

theorem keeps_lengthToEndMarker : Keeps Ready lengthToEndMarker := by
  refine Keeps.bind ?_ fun contentLength => ?_
  · refine keeps_get.bind fun r => (keeps_onStream _).bind fun _ => ?_
    exact (keeps_onStream _).bind fun e => keeps_pure _
  · split
    · exact (keeps_onStream _).bind fun _ => keeps_onStream _
    · exact keeps_pure _

theorem keeps_readImage (headerLen contentLength : Int) :
    Keeps Ready (readImage headerLen contentLength) := by
  refine (keeps_modify fun r hr => ⟨hr.header, hr.frameData, hr.headerLen⟩).bind fun _ => ?_
  refine (keeps_onStream _).bind fun _ => ?_
  refine Keeps.bind (keeps_modify fun r hr => ⟨hr.header, fun m hm => ?_, hr.headerLen⟩) fun _ => ?_
  · obtain rfl := Option.some.inj hm
    split
    · next hlong => exact Int.le_of_lt hlong
    · cases hdata : r.frameData with
      | none => exact Int.le_refl _
      | some n => exact hr.frameData n hdata
  · refine (keeps_onStream _).bind fun _ => Keeps.map some ?_
    refine keeps_get.bind fun r => ?_
    split
    · exact (keeps_throw _).bind fun _ => keeps_onStream _
    · exact keeps_onStream _

/-- Every call keeps the fields ready for the next, however it ends. -/
theorem keeps_readMjpegFrame : Keeps Ready readMjpegFrame := by
  refine (keeps_onStream _).bind fun _ => Keeps.bind ?_ fun headerLen => ?_
  · refine Keeps.tryCatch (Keeps.map some (keeps_onStream _)) fun e => ?_
    split
    · exact (keeps_onStream _).bind fun _ => keeps_pure _
    · exact keeps_throw _
  · cases headerLen with
    | none => exact keeps_pure _
    | some headerLen =>
        refine (keeps_onStream _).bind fun _ => (keeps_renewHeader _).bind fun _ => ?_
        refine keeps_readHeader.bind fun header => Keeps.bind ?_ fun contentLengthNew => ?_
        · refine Keeps.tryCatch (Keeps.map some (keeps_onStream _)) fun e => ?_
          cases e with
          | numberFormat => exact Keeps.map some keeps_lengthToEndMarker
          | illegalArgument => exact Keeps.map some keeps_lengthToEndMarker
          | eof => exact (keeps_onStream _).bind fun _ => keeps_pure _
          | invalidMark => exact (keeps_onStream _).bind fun _ => keeps_pure _
          | negativeArraySize => exact keeps_throw _
          | indexOutOfBounds => exact keeps_throw _
        · cases contentLengthNew with
          | none => exact keeps_pure _
          | some contentLength => exact keeps_readImage _ _

/-- The states that calls can lead a reader to, however they end. -/
inductive Called : Reader → Prop where
  | new (w : List UInt8) : Called (newReader w)
  | call {r : Reader} (h : Called r) : Called (after readMjpegFrame r)

theorem Called.ready {r : Reader} (h : Called r) : Ready r := by
  induction h with
  | new w => exact ready_newReader w
  | call _ ih => exact keeps_readMjpegFrame _ ih

/-! ## Headers that give the length -/

theorem header_le {w header frame rest : List UInt8} (h : Part w header frame rest) :
    header.length + 2 ≤ FRAME_MAX_LENGTH := by
  have hstart := h.start_le
  rw [MjpegInputStream.FRAME_MAX_LENGTH, HEADER_MAX_LENGTH] at hstart
  rw [FRAME_MAX_LENGTH]
  omega

/-- The bytes of a part, up to its end. -/
theorem length_le {w header frame rest : List UInt8} (h : Part w header frame rest) :
    header.length + frame.length ≤ w.length := by
  rw [h.split, List.length_append, List.length_append]
  omega

theorem drop_take {w header frame rest : List UInt8} (h : Part w header frame rest) :
    (w.drop header.length).take frame.length = frame := by
  rw [h.split, List.append_assoc, List.drop_left, List.take_left]

theorem readMjpegFrame_of_sized {r : Reader} (h : Ready r) {header frame rest : List UInt8}
    (hpart : Part r.input.rest header frame rest)
    (hsize : parseContentLength header = .ok frame.length)
    (hoverflow : frame.length + HEADER_MAX_LENGTH < 2 ^ 31) :
    ∃ t, readMjpegFrame r = .ok (some frame) t ∧ t.input.rest = rest ∧ Ready t := by
  have hsplit : r.input.rest = header ++ (frame ++ rest) := by
    rw [← List.append_assoc]
    exact hpart.split
  have hheader := header_le hpart
  have hlen := length_le hpart
  obtain ⟨t, hread, hinput, -, hready⟩ := readImage_of_le
    (h.behindHeader (w := r.input.rest) (n := header.length) (by omega)) rfl (by omega) (by omega)
    hlen hoverflow
  refine ⟨t, ?_, ?_, hready⟩
  · have hparse : (some <$> onStream (evaluate (parseContentLength header)) : Method (Option Int))
        (r.behindHeader r.input.rest header.length) =
        .ok (some (frame.length : Int)) (r.behindHeader r.input.rest header.length) := by
      rw [hsize]
      exact map_of_ok some (onStream_of_ok (evaluate_ok _ _))
    rw [readMjpegFrame_of_start h rfl hsplit hpart.start hheader,
      bind_of_ok (tryCatch_of_ok hparse)]
    rw [drop_take hpart] at hread
    exact hread
  · rw [hinput, deliver_rest, marked_rest, hsplit, ← List.append_assoc, ← List.length_append,
      List.drop_left]

/-- The bytes `w` start with the given images, each behind a header that gives its length. -/
inductive SizedParts : List UInt8 → List (List UInt8) → List UInt8 → Prop where
  | done (w : List UInt8) : SizedParts w [] w
  | part {w header frame rest rest' : List UInt8} {images : List (List UInt8)}
      (hpart : Part w header frame rest) (hsize : parseContentLength header = .ok frame.length)
      (hoverflow : frame.length + HEADER_MAX_LENGTH < 2 ^ 31)
      (htail : SizedParts rest images rest') : SizedParts w (frame :: images) rest'

theorem times_of_sized {w rest : List UInt8} {images : List (List UInt8)}
    (h : SizedParts w images rest) {s : Input UInt8} {r : Reader} (hs : s.rest = w)
    (hr : r.input.rest = w) (hready : Ready r) :
    (∃ t, times MjpegInputStream.readMjpegFrame images.length s = .ok images t ∧ t.rest = rest) ∧
      ∃ t, times readMjpegFrame images.length r = .ok (images.map some) t ∧
        t.input.rest = rest := by
  induction h generalizing s r with
  | done w => exact ⟨⟨s, rfl, hs⟩, r, rfl, hr⟩
  | @part w header frame rest rest' images hpart hsize hoverflow htail ih =>
      have hdefault : MjpegInputStream.readMjpegFrame s =
          .ok frame ((MjpegInputStream.opened w).deliver (header.length + frame.length)) := by
        rw [MjpegInputStream.readMjpegFrame_eq, hs]
        exact MjpegInputStream.frameOf_of_part hpart
      have hrest := hpart.rest_eq
      rw [← hr] at hpart
      obtain ⟨t, hnative, htrest, htready⟩ := readMjpegFrame_of_sized hready hpart hsize hoverflow
      obtain ⟨⟨u, hu, hurest⟩, v, hv, hvrest⟩ := ih hrest htrest htready
      exact ⟨⟨u, times_succ_of_ok hdefault hu, hurest⟩, v, times_succ_of_ok hnative hv, hvrest⟩

/-- As long as the headers give the lengths, the native reader returns the images that the other
reader returns, and leaves the same bytes, whatever calls went before. -/
theorem native_agrees {w rest : List UInt8} {images : List (List UInt8)}
    (h : SizedParts w images rest) {s : Input UInt8} {r : Reader} (hs : s.rest = w)
    (hr : r.input.rest = w) (hcalled : Called r) :
    (∃ t, times MjpegInputStream.readMjpegFrame images.length s = .ok images t ∧ t.rest = rest) ∧
      ∃ t, times readMjpegFrame images.length r = .ok (images.map some) t ∧
        t.input.rest = rest :=
  times_of_sized h hs hr hcalled.ready

theorem native_agrees_one :
    ∃ t, times readMjpegFrame 1 (newReader
        (MjpegInputStream.header [MjpegInputStream.contentLengthLine 4] ++ [0xff, 0xd8, 1, 2, 13])) =
      .ok [some [0xff, 0xd8, 1, 2]] t ∧ t.input.rest = [13] := by
  have hparts : SizedParts
      (MjpegInputStream.header [MjpegInputStream.contentLengthLine 4] ++ [0xff, 0xd8, 1, 2, 13])
      [[0xff, 0xd8, 1, 2]] [13] := by
    have hpart : Part
        (MjpegInputStream.header [MjpegInputStream.contentLengthLine 4] ++ [0xff, 0xd8, 1, 2, 13])
        (MjpegInputStream.header [MjpegInputStream.contentLengthLine 4]) [0xff, 0xd8, 1, 2] [13] :=
      ⟨rfl, by decide, by decide, .inl (by decide)⟩
    exact .part hpart (by decide) (by decide) (.done _)
  exact (native_agrees hparts (s := ⟨_, none⟩) rfl rfl (.new _)).2

/-! ## Headers that do not give the length -/

/-- Before the first image there is no length to search around. -/
theorem getEndOfSeqeunceSimplified_first {r : Reader} (h : Ready r)
    (hfirst : r.mContentLength = -1) :
    getEndOfSeqeunceSimplified EOF_MARKER r = .ok (-1) r := by
  rw [getEndOfSeqeunceSimplified]
  refine (bind_of_ok rfl).trans ?_
  rw [hfirst, h.headerLen]
  have hskip : onStream (skipBytes (wrap (-1 + (-1 : Int).tdiv 2))) r = .ok () r := by
    refine (onStream_of_ok (t := r.input.deliver 0) rfl).trans ?_
    rw [deliver_zero]
    rfl
  refine (bind_of_ok hskip).trans ?_
  have hrounds : ((wrap (3 * -1)).tdiv 2 - (-1 : Int).tdiv 2).toNat = 0 := rfl
  rw [hrounds]
  rfl

/-- After an image of `p` bytes the search starts at half of them. The hidden field takes one byte
off the start and off the result, so that the result is right. -/
theorem getEndOfSeqeunceSimplified_found {r : Reader} (h : Ready r) {p n : Nat}
    (hp : r.mContentLength = p) (htwo : 2 ≤ p) (hoverflow : 3 * p < 2 ^ 31)
    (hnear : matchEnd EOF_MARKER 0 (r.input.rest.drop (p / 2 - 1)) = some n)
    (hn : n ≤ 3 * p / 2 - p / 2) (hresult : p / 2 - 1 + n < 2 ^ 31) :
    getEndOfSeqeunceSimplified EOF_MARKER r =
      .ok ((p / 2 - 1 + n : Nat) : Int) (r.withInput (r.input.deliver (p / 2 - 1 + n))) := by
  have hstart : (p : Int).tdiv 2 = (p / 2 : Nat) := rfl
  have hend : (wrap (3 * (p : Int))).tdiv 2 = (3 * p / 2 : Nat) := by
    have hwrap : wrap (3 * (p : Int)) = (3 * p : Nat) := by
      rw [wrap, Int.bmod_def]
      omega
    rw [hwrap]
    rfl
  have hskip : (wrap (-1 + (p / 2 : Nat))).toNat = p / 2 - 1 := by
    rw [wrap, Int.bmod_def]
    omega
  have hrounds : (((3 * p / 2 : Nat) : Int) - (p / 2 : Nat)).toNat = 3 * p / 2 - p / 2 := by omega
  have hback : wrap (-1 + (p / 2 : Nat) + (n : Int)) = (p / 2 - 1 + n : Nat) := by
    rw [wrap, Int.bmod_def]
    omega
  rw [getEndOfSeqeunceSimplified]
  refine (bind_of_ok rfl).trans ?_
  rw [hp, h.headerLen, hstart, hend, hrounds]
  have hpassed : onStream (skipBytes (wrap (-1 + (p / 2 : Nat)))) r =
      .ok () (r.withInput (r.input.deliver (p / 2 - 1))) := by
    refine onStream_of_ok ?_
    rw [skipBytes, hskip]
  have hscan : endOfSeqeunceLoop EOF_MARKER (3 * p / 2 - p / 2) 0 0
      (r.input.deliver (p / 2 - 1)) =
      .ok (n : Int) (r.input.deliver (p / 2 - 1 + n)) := by
    rw [endOfSeqeunceLoop_eq, deliver_rest, (matchEnd_take_iff _).2 ⟨hnear, hn⟩]
    simp only [Nat.zero_add, deliver_deliver]
  refine (bind_of_ok hpassed).trans ?_
  refine (bind_of_ok (onStream_of_ok hscan)).trans ?_
  rw [if_neg (by omega), hback]
  rfl

/-- The bytes `w` start with a header that gives no length, and an image behind it; the two are
within the reach of the mark. -/
structure DelimitedPart (w header frame rest : List UInt8) : Prop where
  split : w = header ++ (frame ++ rest)
  start : matchEnd SOI_MARKER 0 w = some (header.length + 2)
  unsized : ∃ e, parseContentLength header = .error e
  limit : header.length + frame.length ≤ FRAME_MAX_LENGTH

theorem DelimitedPart.length_eq {w header frame rest : List UInt8}
    (h : DelimitedPart w header frame rest) :
    w.length = header.length + frame.length + rest.length := by
  rw [h.split, List.length_append, List.length_append, Nat.add_assoc]

/-- A call whose header does not give the length, once the scans have found one. -/
theorem readMjpegFrame_of_delimited {r : Reader} (h : Ready r) {header frame rest : List UInt8}
    (hpart : DelimitedPart r.input.rest header frame rest)
    (hheader : header.length + 2 ≤ FRAME_MAX_LENGTH) {k n : Nat}
    (hlength : lengthToEndMarker (r.behindHeader r.input.rest header.length) =
      .ok (n : Int) ((r.behindHeader r.input.rest header.length).withInput
        ((opened r.input.rest).deliver k)))
    (hk : k ≤ r.input.rest.length) (hlimit : k ≤ FRAME_MAX_LENGTH)
    (hn : header.length + n ≤ r.input.rest.length) (hoverflow : n + HEADER_MAX_LENGTH < 2 ^ 31) :
    ∃ t, readMjpegFrame r = .ok (some ((frame ++ rest).take n)) t ∧
      t.input.rest = (frame ++ rest).drop n ∧ t.mContentLength = n ∧ Ready t := by
  have hlen := hpart.length_eq
  have hready := h.behindHeader (w := r.input.rest) (n := header.length) (by omega)
  obtain ⟨t, hread, hinput, hcontent, htready⟩ :=
    readImage_of_le (hready.withInput ((opened r.input.rest).deliver k)) rfl hk hlimit hn hoverflow
  have hdrop : r.input.rest.drop header.length = frame ++ rest := by
    rw [hpart.split, List.drop_left]
  refine ⟨t, ?_, ?_, hcontent, htready⟩
  · obtain ⟨e, hunsized⟩ := hpart.unsized
    have hparse : (some <$> onStream (evaluate (parseContentLength header)) : Method (Option Int))
        (r.behindHeader r.input.rest header.length) =
        .error e (r.behindHeader r.input.rest header.length) := by
      rw [hunsized]
      exact map_of_error some (onStream_of_error (evaluate_error _ _))
    rw [readMjpegFrame_of_start h rfl hpart.split hpart.start hheader,
      bind_congr_left (tryCatch_of_error hparse)]
    rw [hdrop] at hread
    -- no length, a length that is no number, and a malformed escape are caught in the same way
    rcases MjpegInputStream.parseContentLength_error hunsized with rfl | rfl
    · exact (bind_of_ok (map_of_ok some hlength)).trans hread
    · exact (bind_of_ok (map_of_ok some hlength)).trans hread
  · rw [hinput, deliver_rest, marked_rest, ← List.drop_drop, hdrop]

/-- The first image of a stream without lengths. The end of the image is counted from the start of
the header, but the image is read from the end of the header: the call returns as many bytes too many
as the header has, and takes them from the next part. -/
theorem first_delimited_image {r : Reader} (hcalled : Called r) (hfirst : r.mContentLength = -1)
    {header frame rest : List UInt8} (hpart : DelimitedPart r.input.rest header frame rest)
    (hend : matchEnd EOF_MARKER 0 (frame ++ rest) = some frame.length) (hheader : 0xff ∉ header)
    (hrest : header.length ≤ rest.length) :
    ∃ t, readMjpegFrame r = .ok (some (frame ++ rest.take header.length)) t ∧
      t.input.rest = rest.drop header.length := by
  have h := hcalled.ready
  have hlimit := hpart.limit
  have hlen := hpart.length_eq
  have htwo := (matchEnd_pair_marker hend).1
  have hready := h.behindHeader (w := r.input.rest) (n := header.length) (by omega)
  have hmarker : matchEnd EOF_MARKER 0 r.input.rest = some (frame.length + header.length) := by
    have happend := matchEnd_append_of_not_mem (b := 0xd9) hheader (frame ++ rest)
    rw [hpart.split]
    refine happend.trans ?_
    show (matchEnd EOF_MARKER 0 (frame ++ rest)).map _ = _
    rw [hend, Option.map_some]
  have hlength : lengthToEndMarker (r.behindHeader r.input.rest header.length) =
      .ok ((frame.length + header.length : Nat) : Int)
        ((r.behindHeader r.input.rest header.length).withInput
          ((opened r.input.rest).deliver (frame.length + header.length))) := by
    have hreset : onStream reset (r.behindHeader r.input.rest header.length) =
        .ok () ((r.behindHeader r.input.rest header.length).withInput
          (opened r.input.rest)) :=
      onStream_of_ok (reset_of_deliver (by omega) (by omega))
    have hscan : getEndOfSeqeunce EOF_MARKER (opened r.input.rest) =
        .ok ((frame.length + header.length : Nat) : Int)
          ((opened r.input.rest).deliver (frame.length + header.length)) :=
      getEndOfSeqeunce_of_found hmarker (by omega)
    rw [lengthToEndMarker, bind_of_ok (getEndOfSeqeunceSimplified_first hready hfirst),
      if_pos (by omega), bind_of_ok hreset]
    exact onStream_of_ok hscan
  have hoverflow : frame.length + header.length + HEADER_MAX_LENGTH < 2 ^ 31 := by
    rw [FRAME_MAX_LENGTH] at hlimit
    rw [HEADER_MAX_LENGTH]
    omega
  obtain ⟨t, hread, htrest, -, -⟩ := readMjpegFrame_of_delimited h hpart (by omega) hlength
    (by omega) (by omega) (by omega) hoverflow
  refine ⟨t, ?_, ?_⟩
  · rw [hread, List.take_length_add_append]
  · rw [htrest, List.drop_length_add_append]

theorem first_delimited_image_long :
    ∃ t, readMjpegFrame (newReader [13, 0xff, 0xd8, 0xff, 0xd9, 13, 0xff, 0xd8, 0xff, 0xd9]) =
        .ok (some [0xff, 0xd8, 0xff, 0xd9, 13]) t ∧
      t.input.rest = [0xff, 0xd8, 0xff, 0xd9] := by
  have hpart : DelimitedPart [13, 0xff, 0xd8, 0xff, 0xd9, 13, 0xff, 0xd8, 0xff, 0xd9] [13]
      [0xff, 0xd8, 0xff, 0xd9] [13, 0xff, 0xd8, 0xff, 0xd9] :=
    ⟨rfl, rfl, ⟨.numberFormat, rfl⟩, by simp [FRAME_MAX_LENGTH]⟩
  exact first_delimited_image (.new [13, 0xff, 0xd8, 0xff, 0xd9, 13, 0xff, 0xd8, 0xff, 0xd9]) rfl
    hpart rfl (by simp) (by simp)

/-- A later image of a stream without lengths is read as it is, when its end is the first end marker
that the search around the length `p` of the image before comes to. -/
theorem later_delimited_image {r : Reader} (hcalled : Called r) {p : Nat}
    (hp : r.mContentLength = p) {header frame rest : List UInt8}
    (hpart : DelimitedPart r.input.rest header frame rest)
    (hnear : matchEnd EOF_MARKER 0 ((frame ++ rest).drop (p / 2 - 1)) =
      some (frame.length - (p / 2 - 1)))
    (hmax : frame.length ≤ 3 * p / 2 - 1) :
    ∃ t, readMjpegFrame r = .ok (some frame) t ∧ t.input.rest = rest ∧
      t.mContentLength = frame.length := by
  have h := hcalled.ready
  have hlimit := hpart.limit
  have hlen := hpart.length_eq
  have hready := h.behindHeader (w := r.input.rest) (n := header.length) (by omega)
  -- the search begins within the image
  have hbegin := (matchEnd_pair_marker hnear).1
  have hsum : p / 2 - 1 + (frame.length - (p / 2 - 1)) = frame.length := by omega
  have hframe : frame.length ≤ 200000 := by
    rw [FRAME_MAX_LENGTH] at hlimit
    omega
  have hnear' : matchEnd EOF_MARKER 0
      ((r.behindHeader r.input.rest header.length).input.rest.drop (p / 2 - 1)) =
      some (frame.length - (p / 2 - 1)) := by
    show matchEnd EOF_MARKER 0 ((r.input.rest.drop header.length).drop (p / 2 - 1)) = _
    rw [hpart.split, List.drop_left]
    exact hnear
  have hfound := getEndOfSeqeunceSimplified_found hready (p := p) hp (by omega) (by omega) hnear'
    (by omega) (by omega)
  have hlength : lengthToEndMarker (r.behindHeader r.input.rest header.length) =
      .ok (frame.length : Int) ((r.behindHeader r.input.rest header.length).withInput
        ((opened r.input.rest).deliver (header.length + frame.length))) := by
    rw [hsum] at hfound
    rw [lengthToEndMarker, bind_of_ok hfound, if_neg (by omega)]
    show EStateM.Result.ok _ _ = _
    rw [← deliver_deliver]
    rfl
  obtain ⟨t, hread, htrest, hcontent, -⟩ := readMjpegFrame_of_delimited h hpart (by omega) hlength
    (by omega) hlimit (by omega) (by rw [HEADER_MAX_LENGTH]; omega)
  refine ⟨t, ?_, ?_, hcontent⟩
  · rw [hread, List.take_left]
  · rw [htrest, List.drop_left]

/-- Two images without lengths, the second one with an end marker inside. -/
def innerMarker : List UInt8 :=
  [13, 0xff, 0xd8, 1, 1, 1, 1, 1, 1, 0xff, 0xd9, 13, 0xff, 0xd8, 0xff, 0xd9, 1, 1, 1, 0xff, 0xd9]

theorem later_delimited_image_second :
    ∃ t, readMjpegFrame (after readMjpegFrame (newReader innerMarker)) =
        .ok (some [0xff, 0xd8, 0xff, 0xd9, 1, 1, 1, 0xff, 0xd9]) t ∧ t.input.rest = [] ∧
      t.mContentLength = (9 : Nat) := by
  have hcalled : Called (after readMjpegFrame (newReader innerMarker)) := .call (.new _)
  have hfirst : ((after readMjpegFrame (newReader innerMarker)).input.rest,
      (after readMjpegFrame (newReader innerMarker)).mContentLength) =
      ([0xff, 0xd8, 0xff, 0xd9, 1, 1, 1, 0xff, 0xd9], ((11 : Nat) : Int)) := by decide +kernel
  obtain ⟨hrest, hlength⟩ := Prod.mk.inj hfirst
  generalize after readMjpegFrame _ = r at hcalled hrest hlength ⊢
  have hpart : DelimitedPart r.input.rest [] [0xff, 0xd8, 0xff, 0xd9, 1, 1, 1, 0xff, 0xd9] [] := by
    rw [hrest]
    exact ⟨rfl, rfl, ⟨.numberFormat, rfl⟩, by simp [FRAME_MAX_LENGTH]⟩
  exact later_delimited_image hcalled hlength hpart rfl (by simp)

end IotClient.Video.MjpegInputStreamNative
