import IotClient.Foundation.PropertyLists

/-!
# Reading frames from a motion JPEG stream

`MjpegInputStreamDefault.readMjpegFrame` marks the stream, looks for the start marker of the next
image, goes back to read what stands before it as a header, and takes the length of the image from
the header's `Content-Length`. Without one it looks for the end marker instead. Then it goes back once
more, skips the header and reads the image.

* `readMjpegFrame_eq`: all the marking and resetting comes down to one function of the bytes that the
  stream has still to deliver.
* `readMjpegFrame_ok_iff`: when the call returns an image, and which.
-/

set_option autoImplicit false

namespace IotClient.Video.MjpegInputStream

open IotClient.Foundation.JavaText IotClient.Foundation.PropertyLists
open IotClient.Foundation.Scanning IotClient.Foundation.Streams

/-! ## The reader -/

def SOI_MARKER : List UInt8 := [0xff, 0xd8]

def EOF_MARKER : List UInt8 := [0xff, 0xd9]

/-- `"Content-Length"`. -/
def CONTENT_LENGTH : JavaString :=
  [67, 111, 110, 116, 101, 110, 116, 45, 76, 101, 110, 103, 116, 104]

def HEADER_MAX_LENGTH : Nat := 100

def FRAME_MAX_LENGTH : Nat := 40000 + HEADER_MAX_LENGTH

/-- The loop of `getEndOfSeqeunce` with `k` rounds left, at the counter `i`. -/
def endOfSeqeunceLoop (sequence : List UInt8) : Nat → Nat → Nat → Program UInt8 Int
  | 0, _, _ => pure (-1)
  | k + 1, i, seqIndex => do
      let c ← readNext
      if sequence[seqIndex]? = some c then
        if seqIndex + 1 = sequence.length then return (i + 1 : Nat)
        else endOfSeqeunceLoop sequence k (i + 1) (seqIndex + 1)
      -- the byte that does not fit is not compared with the first of the sequence
      else endOfSeqeunceLoop sequence k (i + 1) 0

/-- `getEndOfSeqeunce`. -/
def getEndOfSeqeunce (sequence : List UInt8) : Program UInt8 Int :=
  endOfSeqeunceLoop sequence FRAME_MAX_LENGTH 0 0

/-- `getStartOfSequence`. -/
def getStartOfSequence (sequence : List UInt8) : Program UInt8 Int := do
  let e ← getEndOfSeqeunce sequence
  return if e < 0 then -1 else e - sequence.length

/-- `parseContentLength`. -/
def parseContentLength (headerBytes : List UInt8) : Except Exception Int := do
  let props ← load headerBytes
  match getProperty props CONTENT_LENGTH with
  -- `Integer.parseInt(null)`
  | none => .error .numberFormat
  | some value => parseInt value

/-- `readMjpegFrame`: the bytes that are decoded as the image. -/
def readMjpegFrame : Program UInt8 (List UInt8) := do
  mark FRAME_MAX_LENGTH
  let headerLen ← getStartOfSequence SOI_MARKER
  reset
  let headerSize ← newArray headerLen
  let header ← readFully headerSize
  let mContentLength ← tryCatch (evaluate (parseContentLength header)) fun
    | .numberFormat => getEndOfSeqeunce EOF_MARKER
    | e => throw e
  reset
  let frameSize ← newArray mContentLength
  skipBytes headerLen
  readFully frameSize

/-! ## The scan -/

/-- The loop is the scan of the bytes that it may read. -/
theorem endOfSeqeunceLoop_eq (sequence : List UInt8) (k i j : Nat) (s : Input UInt8) :
    endOfSeqeunceLoop sequence k i j s =
      match matchEnd sequence j (s.rest.take k) with
      | some n => .ok ((i + n : Nat) : Int) (s.deliver n)
      | none =>
          if k ≤ s.rest.length then .ok (-1) (s.deliver k)
          else .error .eof (s.deliver s.rest.length) := by
  induction k generalizing i j s with
  | zero =>
      rw [List.take_zero]
      show EStateM.Result.ok (-1) s = _
      rw [show matchEnd sequence j [] = none by cases j <;> rfl]
      simp only [Nat.zero_le, if_true, deliver_zero]
  | succ k ih =>
      rw [endOfSeqeunceLoop]
      cases hrest : s.rest with
      | nil =>
          rw [bind_of_error (readNext_of_nil hrest), List.take_nil,
            show matchEnd sequence j [] = none by cases j <;> rfl]
          simp
      | cons c w =>
          have hw : (s.deliver 1).rest = w := by
            rw [deliver_rest, hrest, List.drop_succ_cons, List.drop_zero]
          -- the rounds that are left, after this one
          have hnext : ∀ l, endOfSeqeunceLoop sequence k (i + 1) l (s.deliver 1) =
              match (matchEnd sequence l (w.take k)).map (· + 1) with
              | some n => .ok ((i + n : Nat) : Int) (s.deliver n)
              | none =>
                  if k + 1 ≤ (c :: w).length then .ok (-1) (s.deliver (k + 1))
                  else .error .eof (s.deliver (c :: w).length) := by
            intro l
            rw [ih, hw]
            cases matchEnd sequence l (w.take k) with
            | some n =>
                simp only [Option.map_some, deliver_deliver]
                rw [Nat.add_assoc, Nat.add_comm 1 n]
            | none =>
                simp only [Option.map_none, deliver_deliver, List.length_cons, Nat.add_comm 1,
                  Nat.add_le_add_iff_right]
          rw [bind_of_ok (readNext_of_cons hrest), List.take_succ_cons, matchEnd]
          by_cases hc : sequence[j]? = some c
          · rw [if_pos hc, if_pos hc]
            by_cases hlast : j + 1 = sequence.length
            · rw [if_pos hlast, if_pos hlast]
              rfl
            · rw [if_neg hlast, if_neg hlast]
              exact hnext (j + 1)
          · rw [if_neg hc, if_neg hc]
            exact hnext 0

/-- Where the first marker ends, if that is among the bytes that `getEndOfSeqeunce` may read. -/
def found (marker w : List UInt8) : Option Nat := matchEnd marker 0 (w.take FRAME_MAX_LENGTH)

theorem found_bounds {marker w : List UInt8} {n : Nat} (h : found marker w = some n) :
    n ≤ FRAME_MAX_LENGTH ∧ n ≤ w.length := by
  have hle := (matchEnd_bounds h).2
  rw [List.length_take] at hle
  omega

theorem getEndOfSeqeunce_eq (sequence : List UInt8) (s : Input UInt8) :
    getEndOfSeqeunce sequence s =
      match found sequence s.rest with
      | some n => .ok (n : Int) (s.deliver n)
      | none =>
          if FRAME_MAX_LENGTH ≤ s.rest.length then .ok (-1) (s.deliver FRAME_MAX_LENGTH)
          else .error .eof (s.deliver s.rest.length) := by
  rw [getEndOfSeqeunce, endOfSeqeunceLoop_eq, found]
  simp only [Nat.zero_add]

/-- The scan for a marker of two different bytes `a` and `b` ends at the first `b` behind a run of `a`
of odd length. -/
theorem getEndOfSeqeunce_marker_iff {a b : UInt8} (hab : a ≠ b) (s t : Input UInt8) (n : Nat) :
    getEndOfSeqeunce [a, b] s = .ok (n : Int) t ↔
      n ≤ FRAME_MAX_LENGTH ∧ n ≤ s.rest.length ∧ Hit a b (s.rest.take n) ∧
        (∀ m < n, ¬ Hit a b (s.rest.take m)) ∧ t = s.deliver n := by
  have hfound : found [a, b] s.rest = some n ↔ n ≤ FRAME_MAX_LENGTH ∧ n ≤ s.rest.length ∧
      Hit a b (s.rest.take n) ∧ ∀ m < n, ¬ Hit a b (s.rest.take m) := by
    rw [found, matchEnd_take_iff, matchEnd_pair_iff hab]
    exact ⟨fun h => ⟨h.2, h.1⟩, fun h => ⟨h.2, h.1⟩⟩
  rw [getEndOfSeqeunce_eq]
  constructor
  · intro h
    cases hscan : found [a, b] s.rest with
    | some m =>
        rw [hscan] at h
        obtain ⟨hm, rfl⟩ := EStateM.Result.ok.inj h
        obtain rfl : m = n := Int.ofNat_inj.1 hm
        obtain ⟨hlimit, hlen, hend, hfirst⟩ := hfound.1 hscan
        exact ⟨hlimit, hlen, hend, hfirst, rfl⟩
    | none =>
        -- no marker: the result is `-1`, or the end of the stream is met
        rw [hscan] at h
        by_cases hlong : FRAME_MAX_LENGTH ≤ s.rest.length
        · simp only [if_pos hlong] at h
          have := (EStateM.Result.ok.inj h).1
          omega
        · simp only [if_neg hlong] at h
          cases h
  · rintro ⟨hlimit, hlen, hend, hfirst, rfl⟩
    rw [hfound.2 ⟨hlimit, hlen, hend, hfirst⟩]

/-- The second of two `0xff` is not tried as the start of a marker: of two markers the second is
found. -/
theorem getEndOfSeqeunce_marker_missed :
    (0xff : UInt8) ≠ 0xd8 ∧
      ¬ Hit (0xff : UInt8) 0xd8 [0xff, 0xff, 0xd8] ∧
        Hit (0xff : UInt8) 0xd8 [0xff, 0xff, 0xd8, 0xff, 0xd8] := by
  have hab : (0xff : UInt8) ≠ 0xd8 := by decide
  have h := (getEndOfSeqeunce_marker_iff hab ⟨[0xff, 0xff, 0xd8, 0xff, 0xd8], none⟩ _ 5).1 rfl
  exact ⟨hab, h.2.2.2.1 3 (by decide), h.2.2.1⟩

/-! ## What a call comes down to -/

/-- The stream of a call that finds `w`, after its mark. -/
abbrev opened (w : List UInt8) : Input UInt8 := Input.marked w FRAME_MAX_LENGTH

/-- The image behind a header of `headerLen` bytes that gives its length. -/
def sizedFrame (w : List UInt8) (headerLen : Nat) (size : Int) :
    EStateM.Result Exception (Input UInt8) (List UInt8) :=
  if size < 0 then .error .negativeArraySize (opened w)
  else readFully size.toNat ((opened w).deliver headerLen)

/-- The image behind a header of `headerLen` bytes that does not. -/
def delimitedFrame (w : List UInt8) (headerLen : Nat) :
    EStateM.Result Exception (Input UInt8) (List UInt8) :=
  match found EOF_MARKER (w.drop headerLen) with
  | some m =>
      if headerLen + m ≤ FRAME_MAX_LENGTH then
        .ok ((w.drop headerLen).take m) ((opened w).deliver (headerLen + m))
      else .error .invalidMark ((opened w).deliver (headerLen + m))
  | none =>
      if FRAME_MAX_LENGTH ≤ (w.drop headerLen).length then
        if headerLen = 0 then .error .negativeArraySize (opened w)
        else .error .invalidMark ((opened w).deliver (headerLen + FRAME_MAX_LENGTH))
      else .error .eof ((opened w).deliver w.length)

/-- A call as a function of the bytes `w` that are still to come. -/
def frameOf (w : List UInt8) : EStateM.Result Exception (Input UInt8) (List UInt8) :=
  match found SOI_MARKER w with
  | none =>
      if FRAME_MAX_LENGTH ≤ w.length then .error .negativeArraySize (opened w)
      else .error .eof ((opened w).deliver w.length)
  | some n =>
      match parseContentLength (w.take (n - 2)) with
      | .ok size => sizedFrame w (n - 2) size
      | .error .numberFormat => delimitedFrame w (n - 2)
      | .error e => .error e ((opened w).deliver (n - 2))

/-- The end of a call, from anywhere within the reach of its mark. -/
theorem readImage_eq {w : List UInt8} {headerLen k : Nat} (hw : k ≤ w.length)
    (hk : k ≤ FRAME_MAX_LENGTH) (size : Int) :
    (do
      reset
      let frameSize ← newArray size
      skipBytes headerLen
      readFully frameSize : Program UInt8 (List UInt8)) ((opened w).deliver k) =
      sizedFrame w headerLen size := by
  rw [bind_of_ok (reset_of_deliver hw hk), sizedFrame]
  by_cases hneg : size < 0
  · have hnew : newArray size (opened w) = .error .negativeArraySize (opened w) := if_pos hneg
    rw [if_pos hneg]
    exact bind_of_error hnew
  · have hnew : newArray size (opened w) = .ok size.toNat (opened w) := if_neg hneg
    have hskip : skipBytes (headerLen : Int) (opened w) =
        .ok () ((opened w).deliver headerLen) := rfl
    rw [if_neg hneg]
    refine (bind_of_ok hnew).trans ?_
    exact bind_of_ok hskip

/-- The image is as long as the end marker says. -/
theorem delimitedFrame_eq {w : List UInt8} {headerLen : Nat} (hw : headerLen ≤ w.length) :
    (do
      let mContentLength ← getEndOfSeqeunce EOF_MARKER
      reset
      let frameSize ← newArray mContentLength
      skipBytes headerLen
      readFully frameSize : Program UInt8 (List UInt8)) ((opened w).deliver headerLen) =
      delimitedFrame w headerLen := by
  have hscan := getEndOfSeqeunce_eq EOF_MARKER ((opened w).deliver headerLen)
  rw [deliver_rest, marked_rest] at hscan
  have hlen : (w.drop headerLen).length = w.length - headerLen := List.length_drop
  rw [delimitedFrame]
  cases hfound : found EOF_MARKER (w.drop headerLen) with
  | some m =>
      have hm := (found_bounds hfound).2
      rw [hfound] at hscan
      simp only [deliver_deliver] at hscan
      rw [bind_of_ok hscan]
      by_cases hlimit : headerLen + m ≤ FRAME_MAX_LENGTH
      · rw [readImage_eq (by omega) hlimit, sizedFrame, if_neg (by omega), Int.toNat_natCast,
          readFully_of_le (by rw [deliver_rest]; exact hm), deliver_deliver]
        simp only [if_pos hlimit]
        rfl
      · simp only [if_neg hlimit]
        exact bind_of_error (reset_of_deliver_beyond (by omega) (by omega))
  | none =>
      rw [hfound] at hscan
      by_cases hlong : FRAME_MAX_LENGTH ≤ (w.drop headerLen).length
      · simp only [if_pos hlong, deliver_deliver] at hscan ⊢
        rw [bind_of_ok hscan]
        by_cases hzero : headerLen = 0
        · rw [readImage_eq (by omega) (by omega), sizedFrame, if_pos (by omega), if_pos hzero]
        · rw [if_neg hzero]
          exact bind_of_error (reset_of_deliver_beyond (by omega) (by omega))
      · simp only [if_neg hlong, deliver_deliver] at hscan ⊢
        rw [bind_of_error hscan, hlen, Nat.add_sub_cancel' hw]

theorem readMjpegFrame_eq (s : Input UInt8) : readMjpegFrame s = frameOf s.rest := by
  have hmark : (mark FRAME_MAX_LENGTH : Program UInt8 Unit) s = .ok () (opened s.rest) := rfl
  generalize s.rest = w at hmark ⊢
  have hscan := getEndOfSeqeunce_eq SOI_MARKER (opened w)
  rw [marked_rest] at hscan
  rw [readMjpegFrame, bind_of_ok hmark, frameOf]
  cases hfound : found SOI_MARKER w with
  | none =>
      rw [hfound] at hscan
      by_cases hlong : FRAME_MAX_LENGTH ≤ w.length
      · simp only [if_pos hlong] at hscan ⊢
        have hstart : getStartOfSequence SOI_MARKER (opened w) =
            .ok (-1) ((opened w).deliver FRAME_MAX_LENGTH) := bind_of_ok hscan
        rw [bind_of_ok hstart, bind_of_ok (reset_of_deliver hlong (Nat.le_refl _))]
        rfl
      · simp only [if_neg hlong] at hscan ⊢
        have hstart : getStartOfSequence SOI_MARKER (opened w) =
            .error .eof ((opened w).deliver w.length) := bind_of_error hscan
        exact bind_of_error hstart
  | some n =>
      have htwo := (matchEnd_pair_marker hfound).1
      obtain ⟨hlimit, hlen⟩ := found_bounds hfound
      rw [hfound] at hscan
      have hstart : getStartOfSequence SOI_MARKER (opened w) =
          .ok ((n - 2 : Nat) : Int) ((opened w).deliver n) := by
        rw [getStartOfSequence, bind_of_ok hscan, if_neg (by omega)]
        show EStateM.Result.ok ((n : Int) - 2) _ = _
        rw [Int.natCast_sub htwo]
        rfl
      have hheader : readFully (n - 2) (opened w) =
          .ok (w.take (n - 2)) ((opened w).deliver (n - 2)) := by
        refine readFully_of_le ?_
        rw [marked_rest]
        omega
      rw [bind_of_ok hstart, bind_of_ok (reset_of_deliver hlen hlimit),
        bind_of_ok (newArray_natCast _ _), bind_of_ok hheader]
      cases hparse : parseContentLength (w.take (n - 2)) with
      | ok size =>
          rw [bind_of_ok (tryCatch_of_ok (evaluate_ok _ _)), readImage_eq (by omega) (by omega)]
          simp only [hparse]
      | error e =>
          have hcaught := fun (f : Exception → Program UInt8 Int) =>
            tryCatch_of_error (f := f) (evaluate_error e ((opened w).deliver (n - 2)))
          cases e with
          | numberFormat =>
              rw [bind_congr_left (hcaught _), delimitedFrame_eq (by omega)]
              simp only [hparse]
          | eof => simp only [hparse]; exact bind_of_error (hcaught _)
          | invalidMark => simp only [hparse]; exact bind_of_error (hcaught _)
          | negativeArraySize => simp only [hparse]; exact bind_of_error (hcaught _)
          | indexOutOfBounds => simp only [hparse]; exact bind_of_error (hcaught _)
          | illegalArgument => simp only [hparse]; exact bind_of_error (hcaught _)

/-! ## When a call returns an image -/

/-- The bytes `w` start with a header and an image. The header ends where the scan for the start
marker says; the length of the image is the one that the header gives, or ends where the scan for
the end marker says. -/
structure Part (w header frame rest : List UInt8) : Prop where
  split : w = header ++ frame ++ rest
  start : matchEnd SOI_MARKER 0 w = some (header.length + 2)
  start_le : header.length + 2 ≤ FRAME_MAX_LENGTH
  size : parseContentLength header = .ok frame.length ∨
    parseContentLength header = .error .numberFormat ∧
      matchEnd EOF_MARKER 0 (frame ++ rest) = some frame.length ∧
      header.length + frame.length ≤ FRAME_MAX_LENGTH

theorem found_iff {marker w : List UInt8} {n : Nat} :
    found marker w = some n ↔ matchEnd marker 0 w = some n ∧ n ≤ FRAME_MAX_LENGTH :=
  matchEnd_take_iff _

theorem frameOf_of_part {w header frame rest : List UInt8} (h : Part w header frame rest) :
    frameOf w = .ok frame ((opened w).deliver (header.length + frame.length)) := by
  have hstart : found SOI_MARKER w = some (header.length + 2) := found_iff.2 ⟨h.start, h.start_le⟩
  have hheader : w.take header.length = header := by
    rw [h.split, List.append_assoc, List.take_left]
  have hdrop : w.drop header.length = frame ++ rest := by
    rw [h.split, List.append_assoc, List.drop_left]
  rw [frameOf, hstart]
  simp only [Nat.add_sub_cancel, hheader]
  rcases h.size with hsize | ⟨hsize, hend, hlimit⟩
  · simp only [hsize]
    rw [sizedFrame, if_neg (by omega), Int.toNat_natCast, readFully_of_le, deliver_deliver,
      deliver_rest, marked_rest, hdrop, List.take_left]
    rw [deliver_rest, marked_rest, hdrop, List.length_append]
    exact Nat.le_add_right _ _
  · have hfound : found EOF_MARKER (frame ++ rest) = some frame.length :=
      found_iff.2 ⟨hend, by omega⟩
    simp only [hsize]
    rw [delimitedFrame, hdrop, hfound]
    simp only [if_pos hlimit]
    rw [List.take_left]

/-- A prefix of `h` bytes and a piece of `m` bytes behind it. -/
theorem cut_eq (w : List UInt8) (h m : Nat) :
    w = w.take h ++ (w.drop h).take m ++ w.drop (h + m) := by
  rw [List.append_assoc, ← List.drop_drop, List.take_append_drop, List.take_append_drop]

theorem part_of_frameOf {w frame : List UInt8} {t : Input UInt8} (h : frameOf w = .ok frame t) :
    ∃ header rest, Part w header frame rest := by
  rw [frameOf] at h
  cases hfound : found SOI_MARKER w with
  | none =>
      rw [hfound] at h
      simp only at h
      split at h <;> cases h
  | some n =>
      obtain ⟨hstart, hlimit⟩ := found_iff.1 hfound
      have htwo := (matchEnd_pair_marker hstart).1
      have hlen := (found_bounds hfound).2
      have hheader : (w.take (n - 2)).length = n - 2 := List.length_take_of_le (by omega)
      have hn : (w.take (n - 2)).length + 2 = n := by omega
      rw [hfound] at h
      simp only at h
      have hpart : ∀ m, m ≤ (w.drop (n - 2)).length →
          (parseContentLength (w.take (n - 2)) = .ok (m : Int) ∨
            parseContentLength (w.take (n - 2)) = .error .numberFormat ∧
              matchEnd EOF_MARKER 0 (w.drop (n - 2)) = some m ∧ n - 2 + m ≤ FRAME_MAX_LENGTH) →
          Part w (w.take (n - 2)) ((w.drop (n - 2)).take m) (w.drop (n - 2 + m)) := by
        intro m hm hsize
        refine ⟨cut_eq w (n - 2) m, by rw [hn]; exact hstart, by rw [hn]; exact hlimit, ?_⟩
        rw [List.length_take_of_le hm, hheader, ← List.drop_drop, List.take_append_drop]
        exact hsize
      cases hparse : parseContentLength (w.take (n - 2)) with
      | ok size =>
          rw [hparse] at h
          simp only [sizedFrame] at h
          split at h
          · cases h
          · next hneg =>
              by_cases hm : size.toNat ≤ (w.drop (n - 2)).length
              · rw [readFully_of_le (by rw [deliver_rest]; exact hm)] at h
                obtain ⟨rfl, -⟩ := EStateM.Result.ok.inj h
                refine ⟨_, _, hpart size.toNat hm (.inl ?_)⟩
                rw [hparse, Int.toNat_of_nonneg (by omega)]
              · rw [readFully_of_lt (by rw [deliver_rest, marked_rest]; omega)] at h
                cases h
      | error e =>
          rw [hparse] at h
          cases e with
          | numberFormat =>
              simp only [delimitedFrame] at h
              cases hend : found EOF_MARKER (w.drop (n - 2)) with
              | none =>
                  rw [hend] at h
                  simp only at h
                  split at h
                  · split at h <;> cases h
                  · cases h
              | some m =>
                  rw [hend] at h
                  simp only at h
                  split at h
                  · next hlimit' =>
                      obtain ⟨rfl, -⟩ := EStateM.Result.ok.inj h
                      refine ⟨_, _, hpart m (found_bounds hend).2 (.inr ⟨hparse, ?_, hlimit'⟩)⟩
                      exact (found_iff.1 hend).1
                  · cases h
          | eof => cases h
          | invalidMark => cases h
          | negativeArraySize => cases h
          | indexOutOfBounds => cases h
          | illegalArgument => cases h

/-- An image that a call returns comes behind a header. -/
theorem part_of_readMjpegFrame {s t : Input UInt8} {frame : List UInt8}
    (h : readMjpegFrame s = .ok frame t) :
    ∃ header rest, Part s.rest header frame rest ∧
      t = (opened s.rest).deliver (header.length + frame.length) := by
  rw [readMjpegFrame_eq] at h
  obtain ⟨header, rest, hpart⟩ := part_of_frameOf h
  rw [frameOf_of_part hpart] at h
  exact ⟨header, rest, hpart, (EStateM.Result.ok.inj h).2.symm⟩

/-- A call returns an image exactly when the bytes that are to come start with a header and that
image, and it has read these two and nothing more. -/
theorem readMjpegFrame_ok_iff (s t : Input UInt8) (frame : List UInt8) :
    readMjpegFrame s = .ok frame t ↔
      ∃ header rest, Part s.rest header frame rest ∧
        t = (opened s.rest).deliver (header.length + frame.length) := by
  constructor
  · exact part_of_readMjpegFrame
  · rintro ⟨header, rest, hpart, rfl⟩
    rw [readMjpegFrame_eq]
    exact frameOf_of_part hpart

theorem Part.rest_eq {w header frame rest : List UInt8} (h : Part w header frame rest) :
    ((opened w).deliver (header.length + frame.length)).rest = rest := by
  rw [deliver_rest, marked_rest, h.split, ← List.length_append, List.drop_left]

/-- An image of two bytes or more starts with the start marker. -/
theorem Part.starts {w header frame rest : List UInt8} (h : Part w header frame rest)
    (hframe : 2 ≤ frame.length) : SOI_MARKER <+: frame := by
  have hmarker := (matchEnd_pair_marker h.start).2
  rw [Nat.add_sub_cancel, h.split, List.append_assoc, List.drop_left,
    List.take_append_of_le_length hframe] at hmarker
  exact ⟨frame.drop 2, by rw [← List.take_append_drop 2 frame, hmarker]; rfl⟩

/-! ## Headers of a camera -/

/-- A header line in ASCII without a backslash. -/
structure HeaderLine (line : JavaString) : Prop where
  plain : Plain line
  ascii : ∀ c ∈ line, c.toNat < 128

/-- The header of the given lines. -/
def header (lines : List JavaString) : List UInt8 := latin1Bytes (renderLines lines)

/-- `Content-Length: n`. -/
def contentLengthLine (n : Nat) : JavaString := CONTENT_LENGTH ++ colon :: space :: decimal n

section Header

variable {lines : List JavaString}

theorem ascii_renderLines (h : ∀ line ∈ lines, HeaderLine line) :
    ∀ c ∈ renderLines lines, c.toNat < 128 := by
  intro c hc
  obtain ⟨line, hline, hc⟩ := List.mem_flatMap.1 hc
  rcases List.mem_append.1 hc with hc | hc
  · exact (h line hline).ascii c hc
  · rcases List.mem_cons.1 hc with rfl | hc
    · decide
    · rw [List.mem_singleton.1 hc]
      decide

/-- No marker starts within such a header. -/
theorem header_noMarker (h : ∀ line ∈ lines, HeaderLine line) : 0xff ∉ header lines := by
  intro hmem
  obtain ⟨c, hc, heq⟩ := List.mem_map.1 hmem
  have hbyte : c.toNat % 256 = 255 := congrArg UInt8.toNat heq
  have := ascii_renderLines h c hc
  omega

theorem load_header (h : ∀ line ∈ lines, HeaderLine line) :
    load (header lines) = .ok ((lines.filter (· ≠ [])).map plainEntry) := by
  refine load_renderLines (latin1_latin1Bytes fun c hc => ?_) fun line hline => (h line hline).plain
  have := ascii_renderLines h c hc
  omega

theorem headerLine_contentLength (n : Nat) : HeaderLine (contentLengthLine n) := by
  have hmem : ∀ c ∈ contentLengthLine n, c.toNat < 128 ∧ c ≠ carriageReturn ∧ c ≠ lineFeed ∧
      c ≠ backslash := by
    intro c hc
    rcases List.mem_append.1 hc with hc | hc
    · have hname : CONTENT_LENGTH.all (fun c => decide (c.toNat < 128 ∧ c ≠ carriageReturn ∧
          c ≠ lineFeed ∧ c ≠ backslash)) = true := rfl
      exact of_decide_eq_true (List.all_eq_true.1 hname c hc)
    · rcases List.mem_cons.1 hc with rfl | hc
      · decide
      · rcases List.mem_cons.1 hc with rfl | hc
        · decide
        · obtain ⟨d, hd, rfl⟩ := mem_decimal hc
          have hdigit : ∀ d < 10, (UInt16.ofNat (48 + d)).toNat < 128 ∧
              UInt16.ofNat (48 + d) ≠ carriageReturn ∧ UInt16.ofNat (48 + d) ≠ lineFeed ∧
              UInt16.ofNat (48 + d) ≠ backslash := by decide
          exact hdigit d hd
  refine ⟨⟨?_, ?_, ?_, rfl, rfl⟩, fun c hc => (hmem c hc).1⟩
  · exact fun hc => (hmem _ hc).2.1 rfl
  · exact fun hc => (hmem _ hc).2.2.1 rfl
  · exact fun hc => (hmem _ hc).2.2.2 rfl

theorem plainEntry_contentLength (n : Nat) :
    plainEntry (contentLengthLine n) = (CONTENT_LENGTH, decimal n) := by
  have hname : CONTENT_LENGTH.all (fun c => decide (isSeparator c = false ∧ isSpace c = false ∧
      c ≠ backslash)) = true := rfl
  refine plainEntry_field (fun c hc => of_decide_eq_true (List.all_eq_true.1 hname c hc)) ?_
  cases hdecimal : decimal n with
  | nil => rfl
  | cons c w =>
      have hc : c ∈ decimal n := by
        rw [hdecimal]
        exact List.mem_cons_self
      obtain ⟨d, hd, rfl⟩ := mem_decimal hc
      have hspace : ∀ d < 10, isSpace (UInt16.ofNat (48 + d)) = false := by decide
      exact hspace d hd

/-- The last `Content-Length` line counts, wherever it stands. -/
theorem parseContentLength_header {before after : List JavaString} {n : Nat} (hn : n < 2 ^ 31)
    (hbefore : ∀ line ∈ before, HeaderLine line) (hafter : ∀ line ∈ after, HeaderLine line)
    (hlast : ∀ line ∈ after, (plainEntry line).1 ≠ CONTENT_LENGTH) :
    parseContentLength (header (before ++ contentLengthLine n :: after)) = .ok (n : Int) := by
  have hlines : ∀ line ∈ before ++ contentLengthLine n :: after, HeaderLine line := by
    intro line hline
    rcases List.mem_append.1 hline with hline | hline
    · exact hbefore line hline
    · rcases List.mem_cons.1 hline with rfl | hline
      · exact headerLine_contentLength n
      · exact hafter line hline
  rw [parseContentLength, load_header hlines, List.filter_append, List.filter_cons_of_pos rfl,
    List.map_append, List.map_cons, plainEntry_contentLength]
  show (match getProperty _ CONTENT_LENGTH with
    | none => Except.error Exception.numberFormat
    | some value => parseInt value) = _
  rw [getProperty_append_cons]
  · exact parseInt_decimal hn
  · intro e he
    obtain ⟨line, hline, rfl⟩ := List.mem_map.1 he
    exact hlast line (List.mem_of_mem_filter hline)

/-- Without such a line the length is not known. -/
theorem parseContentLength_header_none (h : ∀ line ∈ lines, HeaderLine line)
    (hnone : ∀ line ∈ lines, (plainEntry line).1 ≠ CONTENT_LENGTH) :
    parseContentLength (header lines) = .error .numberFormat := by
  rw [parseContentLength, load_header h]
  show (match getProperty _ CONTENT_LENGTH with
    | none => Except.error Exception.numberFormat
    | some value => parseInt value) = _
  rw [getProperty_of_forall_ne]
  intro e he
  obtain ⟨line, hline, rfl⟩ := List.mem_map.1 he
  exact hnone line (List.mem_of_mem_filter hline)

end Header

/-- A header in ASCII without backslashes, with its last `Content-Length` line right, and an image
behind it are read back as that image, whatever follows. -/
theorem readMjpegFrame_header {before after : List JavaString} {image : List UInt8}
    (hlines : ∀ line ∈ before ++ after, HeaderLine line)
    (hlast : ∀ line ∈ after, (plainEntry line).1 ≠ CONTENT_LENGTH)
    (hlimit : (header (before ++ contentLengthLine image.length :: after)).length + 2 ≤
      FRAME_MAX_LENGTH)
    (hstarts : SOI_MARKER <+: image) (hsize : image.length < 2 ^ 31) (rest : List UInt8) :
    ∃ t, readMjpegFrame
        ⟨header (before ++ contentLengthLine image.length :: after) ++ image ++ rest, none⟩ =
        .ok image t ∧ t.rest = rest := by
  have hbefore : ∀ line ∈ before, HeaderLine line := fun line hline =>
    hlines line (List.mem_append_left _ hline)
  have hafter : ∀ line ∈ after, HeaderLine line := fun line hline =>
    hlines line (List.mem_append_right _ hline)
  have hall : ∀ line ∈ before ++ contentLengthLine image.length :: after, HeaderLine line := by
    intro line hline
    rcases List.mem_append.1 hline with hline | hline
    · exact hbefore line hline
    · rcases List.mem_cons.1 hline with rfl | hline
      · exact headerLine_contentLength _
      · exact hafter line hline
  have hpart : Part (header (before ++ contentLengthLine image.length :: after) ++ image ++ rest)
      (header (before ++ contentLengthLine image.length :: after)) image rest := by
    obtain ⟨tail, htail⟩ := hstarts
    refine ⟨rfl, ?_, hlimit, .inl (parseContentLength_header hsize hbefore hafter hlast)⟩
    rw [← htail, List.append_assoc, List.append_assoc]
    exact matchEnd_of_not_mem (header_noMarker (by rw [htail]; exact hall)) _
  rw [readMjpegFrame_eq]
  exact ⟨_, frameOf_of_part hpart, hpart.rest_eq⟩

theorem readMjpegFrame_header_four :
    ∃ t, readMjpegFrame
        ⟨header ([[45, 45, 98]] ++ contentLengthLine 4 :: [[]]) ++ [0xff, 0xd8, 1, 2] ++ [13], none⟩ =
        .ok [0xff, 0xd8, 1, 2] t ∧ t.rest = [13] := by
  have hlines : ∀ line ∈ [[45, 45, 98]] ++ [[]], HeaderLine line := by
    intro line hline
    rcases List.mem_cons.1 hline with rfl | hline
    · exact ⟨⟨by decide, by decide, by decide, rfl, rfl⟩, by simp⟩
    · rw [List.mem_singleton.1 hline]
      exact ⟨⟨by decide, by decide, by decide, rfl, rfl⟩, by simp⟩
  have hlast : ∀ line ∈ [[]], (plainEntry line).1 ≠ CONTENT_LENGTH := by
    intro line hline
    rw [List.mem_singleton.1 hline]
    decide
  have hstarts : SOI_MARKER <+: [0xff, 0xd8, 1, 2] := ⟨[1, 2], rfl⟩
  exact readMjpegFrame_header hlines hlast (by decide) hstarts (by decide) [13]

/-! ## When a call throws an exception other than an `IOException` -/

theorem parseContentLength_error {header : List UInt8} {e : Exception}
    (h : parseContentLength header = .error e) : e = .numberFormat ∨ e = .illegalArgument := by
  rw [parseContentLength] at h
  cases hload : load header with
  | error e' =>
      rw [hload] at h
      obtain rfl : e' = e := Except.error.inj h
      exact .inr (load_error hload)
  | ok props =>
      rw [hload] at h
      change (match getProperty props CONTENT_LENGTH with
        | none => Except.error Exception.numberFormat
        | some value => parseInt value) = .error e at h
      cases hvalue : getProperty props CONTENT_LENGTH with
      | none =>
          rw [hvalue] at h
          exact .inl (Except.error.inj h).symm
      | some value =>
          rw [hvalue] at h
          exact .inl (parseInt_error h)

/-- A header without bytes has no `Content-Length`. -/
theorem parseContentLength_nil : parseContentLength [] = .error .numberFormat := rfl

/-- The bytes for which a call fails on an array of negative length, or on an escape. -/
inductive Fatal (w : List UInt8) : Prop where
  /-- No start marker in as many bytes as the scan may read. -/
  | noStart (hfound : found SOI_MARKER w = none) (hlong : FRAME_MAX_LENGTH ≤ w.length)
  /-- The header gives a negative length. -/
  | negativeLength {headerLen : Nat} {size : Int}
      (hfound : found SOI_MARKER w = some (headerLen + 2))
      (hparse : parseContentLength (w.take headerLen) = .ok size) (hneg : size < 0)
  /-- The header has a malformed Unicode escape. -/
  | badEscape {headerLen : Nat} (hfound : found SOI_MARKER w = some (headerLen + 2))
      (hparse : parseContentLength (w.take headerLen) = .error .illegalArgument)
  /-- No header at all, and no end marker in as many bytes as the scan may read. -/
  | noEnd (hstart : found SOI_MARKER w = some 2) (hend : found EOF_MARKER w = none)
      (hlong : FRAME_MAX_LENGTH ≤ w.length)

theorem Fatal.frameOf_eq {w : List UInt8} (h : Fatal w) :
    ∃ e t, frameOf w = .error e t ∧ e.isIOException = false := by
  cases h with
  | noStart hfound hlong =>
      refine ⟨.negativeArraySize, opened w, ?_, rfl⟩
      rw [frameOf, hfound]
      exact if_pos hlong
  | @negativeLength headerLen size hfound hparse hneg =>
      refine ⟨.negativeArraySize, opened w, ?_, rfl⟩
      rw [frameOf, hfound]
      simp only [Nat.add_sub_cancel, hparse]
      exact if_pos hneg
  | @badEscape headerLen hfound hparse =>
      refine ⟨.illegalArgument, (opened w).deliver headerLen, ?_, rfl⟩
      rw [frameOf, hfound]
      simp only [Nat.add_sub_cancel, hparse]
  | noEnd hstart hend hlong =>
      refine ⟨.negativeArraySize, opened w, ?_, rfl⟩
      rw [frameOf, hstart]
      simp only [Nat.sub_self, List.take_zero, parseContentLength_nil]
      rw [delimitedFrame, List.drop_zero, hend]
      simp only [if_pos hlong, if_true]

theorem fatal_of_frameOf {w : List UInt8} {e : Exception} {t : Input UInt8}
    (h : frameOf w = .error e t) (he : e.isIOException = false) : Fatal w := by
  rw [frameOf] at h
  cases hfound : found SOI_MARKER w with
  | none =>
      rw [hfound] at h
      by_cases hlong : FRAME_MAX_LENGTH ≤ w.length
      · exact .noStart hfound hlong
      · simp only [if_neg hlong] at h
        rw [← (EStateM.Result.error.inj h).1] at he
        cases he
  | some n =>
      have htwo := (matchEnd_pair_marker hfound).1
      have hn : found SOI_MARKER w = some (n - 2 + 2) := by rw [hfound, Nat.sub_add_cancel htwo]
      rw [hfound] at h
      cases hparse : parseContentLength (w.take (n - 2)) with
      | ok size =>
          simp only [hparse, sizedFrame] at h
          by_cases hneg : size < 0
          · exact .negativeLength hn hparse hneg
          · rw [if_neg hneg, readFully] at h
            split at h
            · cases h
            · rw [← (EStateM.Result.error.inj h).1] at he
              cases he
      | error fault =>
          rcases parseContentLength_error hparse with rfl | rfl
          · simp only [hparse, delimitedFrame] at h
            cases hend : found EOF_MARKER (w.drop (n - 2)) with
            | some m =>
                simp only [hend] at h
                split at h
                · cases h
                · rw [← (EStateM.Result.error.inj h).1] at he
                  cases he
            | none =>
                simp only [hend] at h
                split at h
                · next hlong =>
                    split at h
                    · next hzero =>
                        rw [hzero, List.drop_zero] at hend hlong
                        rw [hzero] at hn
                        exact .noEnd hn hend hlong
                    · rw [← (EStateM.Result.error.inj h).1] at he
                      cases he
                · rw [← (EStateM.Result.error.inj h).1] at he
                  cases he
          · exact .badEscape hn hparse

end IotClient.Video.MjpegInputStream
