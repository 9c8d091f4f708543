import IotClient.Video.DerivedTables

/-!
# Reading Huffman codes

The entropy decoder takes its bits from a register of 32 bits, which is filled from the bytes of a
scan: stuffed zero bytes are dropped, and a marker ends the data. A symbol is looked up by the next
eight bits, or found bit by bit.

* `jpeg_fill_bit_buffer_spec`: filling the register does not change the bits that will be read.
* `HUFF_DECODE_of_made`: the symbol is that of the code word which these bits begin with.
-/

set_option autoImplicit false

namespace IotClient.Video.HuffmanDecoding

open IotClient.Foundation.PrefixCodes
open IotClient.Video.HuffmanTables
open IotClient.Video.DerivedTables

/-- The register is filled to at least this many bits when there is data. -/
def MIN_GET_BITS : Nat := 25

/-- `bitread_working_state`, with the fields of the decompressor that reading bits changes.
`next_input` is what `next_input_byte` and `bytes_in_buffer` stand for. -/
structure bitread_working_state where
  next_input : List UInt8
  get_buffer : BitVec 32
  bits_left : Nat
  unread_marker : UInt8
  insufficient_data : Bool

/-- The loop over bytes 0xFF; `none` is the end of the buffer, where the source suspends. -/
def skipPadding : List UInt8 → Option (UInt8 × List UInt8)
  | [] => none
  | c :: input => if c = 0xFF then skipPadding input else some (c, input)

/-- What is next in a scan. -/
inductive Fetched where
  | byte (c : UInt8) (input : List UInt8)
  | marker (c : UInt8) (input : List UInt8)

/-- Reading a byte of data or a marker. -/
def fetch : List UInt8 → Option Fetched
  | [] => none
  | c :: input =>
      if c = 0xFF then
        match skipPadding input with
        | none => none
        | some (c, input) => if c = 0 then some (.byte 0xFF input) else some (.marker c input)
      else some (.byte c input)

/-- The loop that fills the register, and whether it has met a marker. -/
def fillLoop (s : bitread_working_state) : Option (bitread_working_state × Bool) :=
  if s.bits_left < MIN_GET_BITS then
    match fetch s.next_input with
    | none => none
    | some (.marker c input) => some ({ s with next_input := input, unread_marker := c }, true)
    | some (.byte c input) =>
        fillLoop { s with
          next_input := input
          get_buffer := s.get_buffer <<< 8 ||| c.toBitVec.setWidth 32
          bits_left := s.bits_left + 8 }
  else some (s, false)
termination_by MIN_GET_BITS - s.bits_left
decreasing_by omega

/-- The label `no_more_bytes`: zero bits take the place of what is missing. -/
def no_more_bytes (nbits : Nat) (s : bitread_working_state) : bitread_working_state :=
  if s.bits_left < nbits then
    { s with
      get_buffer := s.get_buffer <<< (MIN_GET_BITS - s.bits_left)
      bits_left := MIN_GET_BITS
      insufficient_data := true }
  else s

/-- `jpeg_fill_bit_buffer`; `none` is `FALSE`. -/
def jpeg_fill_bit_buffer (s : bitread_working_state) (nbits : Nat) :
    Option bitread_working_state :=
  if s.unread_marker = 0 then
    match fillLoop s with
    | none => none
    | some (s, hitMarker) => some (if hitMarker then no_more_bytes nbits s else s)
  else some (no_more_bytes nbits s)

def CHECK_BIT_BUFFER (s : bitread_working_state) (nbits : Nat) : Option bitread_working_state :=
  if s.bits_left < nbits then jpeg_fill_bit_buffer s nbits else some s

/-- Masks for the rightmost bits. -/
def bmask : List (BitVec 32) :=
  [0, 0x0001, 0x0003, 0x0007, 0x000F, 0x001F, 0x003F, 0x007F, 0x00FF, 0x01FF, 0x03FF, 0x07FF,
    0x0FFF, 0x1FFF, 0x3FFF, 0x7FFF]

def BIT_MASK (nbits : Nat) : BitVec 32 := bmask.getD nbits 0

def PEEK_BITS (s : bitread_working_state) (nbits : Nat) : Nat :=
  (s.get_buffer.sshiftRight (s.bits_left - nbits) &&& BIT_MASK nbits).toNat

def DROP_BITS (s : bitread_working_state) (nbits : Nat) : bitread_working_state :=
  { s with bits_left := s.bits_left - nbits }

def GET_BITS (s : bitread_working_state) (nbits : Nat) : Nat × bitread_working_state :=
  (PEEK_BITS s nbits, DROP_BITS s nbits)

/-- The loop of Figure F.16. The last entry of `maxcode` ends it before the rounds are used up. -/
def collect (htbl : d_derived_tbl) : (rounds : Nat) → (code l : Nat) → bitread_working_state →
    Option (Nat × Nat × bitread_working_state)
  | 0, _, _, _ => none
  | rounds + 1, code, l, s =>
      if htbl.maxcode l < code then
        match CHECK_BIT_BUFFER s 1 with
        | none => none
        | some s =>
            match GET_BITS s 1 with
            | (bit, s) => collect htbl rounds (2 * code ||| bit) (l + 1) s
      else some (code, l, s)

/-- `jpeg_huff_decode`; `none` is the result -1, which suspends. -/
def jpeg_huff_decode (htbl : d_derived_tbl) (s : bitread_working_state) (min_bits : Nat) :
    Option (UInt8 × bitread_working_state) :=
  match CHECK_BIT_BUFFER s min_bits with
  | none => none
  | some s =>
      match GET_BITS s min_bits with
      | (code, s) =>
          match collect htbl (18 - min_bits) code min_bits s with
          | none => none
          | some (code, l, s) =>
              -- garbage is read as a zero
              if 16 < l then some (0, s)
              else some (huffvalAt htbl.pub ((code : Int) + htbl.valoffset l).toNat, s)

/-- `HUFF_DECODE`; `none` is `failaction`. -/
def HUFF_DECODE (htbl : d_derived_tbl) (s : bitread_working_state) :
    Option (UInt8 × bitread_working_state) :=
  match (if s.bits_left < HUFF_LOOKAHEAD then jpeg_fill_bit_buffer s 0 else some s) with
  | none => none
  | some s =>
      if s.bits_left < HUFF_LOOKAHEAD then jpeg_huff_decode htbl s 1
      else
        let look := PEEK_BITS s HUFF_LOOKAHEAD
        let nb := htbl.look_nbits look
        if nb ≠ 0 then some (htbl.look_sym look, DROP_BITS s nb)
        else jpeg_huff_decode htbl s (HUFF_LOOKAHEAD + 1)

/-! ## The bits of a scan -/

/-- Some input is the bytes of data up to a marker, and what follows the marker. -/
inductive Segment : List UInt8 → List UInt8 → UInt8 → List UInt8 → Prop where
  | marker {input rest : List UInt8} {c : UInt8} :
      fetch input = some (.marker c rest) → Segment input [] c rest
  | byte {input input' data rest : List UInt8} {c m : UInt8} :
      fetch input = some (.byte c input') → Segment input' data m rest →
        Segment input (c :: data) m rest

/-- The bits of some bytes. -/
def bitsOfBytes (data : List UInt8) : List Bool := data.flatMap fun c => bitsOf 8 c.toNat

/-- What is ahead in a scan: the bits that will be read, how many of them are data, the marker
behind the data and what follows it. -/
structure Scan where
  bits : Stream
  count : Nat
  marker : UInt8
  rest : List UInt8

/-- The data that a state has not fetched: all up to the marker, which may have been read. -/
def Ahead (s : bitread_working_state) (data : List UInt8) (m : UInt8) (rest : List UInt8) : Prop :=
  (s.unread_marker = 0 ∧ Segment s.next_input data m rest) ∨
    (s.unread_marker = m ∧ m ≠ 0 ∧ s.next_input = rest ∧ data = [])

/-- A state is in front of a scan: the bits are those in the register, those of the data that has
not been fetched, and then zeros. -/
structure Reads (s : bitread_working_state) (t : Scan) : Prop where
  bits_left_le : s.bits_left ≤ 32
  ahead : ∃ data, Ahead s data t.marker t.rest ∧ t.count = s.bits_left + 8 * data.length ∧
    ∀ i, t.bits i = if i < s.bits_left then s.get_buffer.getLsbD (s.bits_left - 1 - i)
      else (bitsOfBytes data).getD (i - s.bits_left) false

/-- Some bits have been taken. As long as the data had as many, no zero bits have been put in. -/
def Advance (s : bitread_working_state) (t : Scan) (l : Nat) (s' : bitread_working_state) : Prop :=
  ∃ n, Reads s' ⟨t.bits.skip l, n, t.marker, t.rest⟩ ∧
    (l ≤ t.count → n = t.count - l ∧ s'.insufficient_data = s.insufficient_data)

variable {s : bitread_working_state} {t : Scan}

/-- A marker is not zero. -/
theorem fetch_marker_ne {input rest : List UInt8} {c : UInt8}
    (h : fetch input = some (.marker c rest)) : c ≠ 0 := by
  cases input with
  | nil => cases h
  | cons b input =>
      rw [fetch] at h
      by_cases hb : b = 0xFF
      · rw [if_pos hb] at h
        cases hskip : skipPadding input with
        | none =>
            rw [hskip] at h
            cases h
        | some p =>
            obtain ⟨c', rest'⟩ := p
            rw [hskip] at h
            by_cases hc : c' = 0
            · simp only [if_pos hc] at h
              cases h
            · simp only [if_neg hc] at h
              cases h
              exact hc
      · rw [if_neg hb] at h
        cases h

/-- The register after a byte has been appended. -/
theorem getLsbD_append (buffer : BitVec 32) (c : UInt8) {j : Nat} (hj : j < 32) :
    (buffer <<< 8 ||| c.toBitVec.setWidth 32).getLsbD j =
      if j < 8 then c.toNat.testBit j else buffer.getLsbD (j - 8) := by
  rw [BitVec.getLsbD_or, BitVec.getLsbD_shiftLeft, BitVec.getLsbD_setWidth]
  by_cases hlow : j < 8
  · rw [if_pos hlow]
    simp [hj, hlow, BitVec.getLsbD]
  · have hhigh : c.toBitVec.getLsbD j = false := BitVec.getLsbD_of_ge _ _ (by omega)
    rw [if_neg hlow, hhigh]
    simp [hj, hlow]

/-- Appending the next byte to the register leaves the bits as they are. -/
theorem reads_byte {bits : Stream} {c : UInt8} {data : List UInt8}
    (hroom : s.bits_left < MIN_GET_BITS)
    (hbits : ∀ i, bits i = if i < s.bits_left then s.get_buffer.getLsbD (s.bits_left - 1 - i)
      else (bitsOfBytes (c :: data)).getD (i - s.bits_left) false) (i : Nat) :
    bits i = if i < s.bits_left + 8 then
        (s.get_buffer <<< 8 ||| c.toBitVec.setWidth 32).getLsbD (s.bits_left + 8 - 1 - i)
      else (bitsOfBytes data).getD (i - (s.bits_left + 8)) false := by
  rw [MIN_GET_BITS] at hroom
  rw [hbits i]
  by_cases hold : i < s.bits_left
  · rw [if_pos hold, if_pos (by omega), getLsbD_append _ _ (by omega), if_neg (by omega),
      show s.bits_left + 8 - 1 - i - 8 = s.bits_left - 1 - i by omega]
  · rw [if_neg hold, bitsOfBytes, List.flatMap_cons, List.getD_eq_getElem?_getD]
    by_cases hnew : i < s.bits_left + 8
    · rw [if_pos hnew, List.getElem?_append_left (by rw [length_bitsOf]; omega),
        ← List.getD_eq_getElem?_getD, getD_bitsOf, if_pos (by omega),
        getLsbD_append _ _ (by omega), if_pos (by omega),
        show 8 - 1 - (i - s.bits_left) = s.bits_left + 8 - 1 - i by omega]
    · rw [if_neg hnew, List.getElem?_append_right (by rw [length_bitsOf]; omega), length_bitsOf,
        ← List.getD_eq_getElem?_getD, Nat.sub_sub]
      rfl

/-- The register after room has been made for zero bits. -/
theorem getLsbD_shift (buffer : BitVec 32) {n j : Nat} (hj : j < 32) :
    (buffer <<< n).getLsbD j = if j < n then false else buffer.getLsbD (j - n) := by
  rw [BitVec.getLsbD_shiftLeft]
  by_cases hlow : j < n
  · rw [if_pos hlow]
    simp [hj, hlow]
  · rw [if_neg hlow]
    simp [hj, hlow]

/-- Zero bits are what the stream has behind the data. -/
theorem no_more_bytes_spec {nbits : Nat} (hmarker : s.unread_marker ≠ 0) (hreads : Reads s t)
    (hn : nbits ≤ MIN_GET_BITS) :
    nbits ≤ (no_more_bytes nbits s).bits_left ∧
      ∃ n, Reads (no_more_bytes nbits s) { t with count := n } ∧ (nbits ≤ t.count → n = t.count ∧
        (no_more_bytes nbits s).insufficient_data = s.insufficient_data) := by
  obtain ⟨hroom, data, ⟨hzero, -⟩ | ⟨hm, hne, hinput, rfl⟩, hcount, hbits⟩ := hreads
  · exact absurd hzero hmarker
  · rw [no_more_bytes]
    by_cases hmissing : s.bits_left < nbits
    · rw [if_pos hmissing]
      refine ⟨hn, MIN_GET_BITS, ⟨show 25 ≤ 32 by decide, [], Or.inr ⟨hm, hne, hinput, rfl⟩, rfl,
        fun i => ?_⟩, fun hle => ?_⟩
      · rw [MIN_GET_BITS] at hn ⊢
        dsimp only
        rw [hbits i]
        by_cases hold : i < s.bits_left
        · rw [if_pos hold, if_pos (by omega), getLsbD_shift _ (by omega), if_neg (by omega),
            show 25 - 1 - i - (25 - s.bits_left) = s.bits_left - 1 - i by omega]
        · rw [if_neg hold]
          by_cases hnew : i < 25
          · rw [if_pos hnew, getLsbD_shift _ (by omega), if_pos (by omega)]
            rfl
          · rw [if_neg hnew]
            rfl
      · rw [hcount] at hle
        exact absurd hmissing (Nat.not_lt_of_le hle)
    · rw [if_neg hmissing]
      exact ⟨Nat.le_of_not_lt hmissing, t.count,
        ⟨hroom, [], Or.inr ⟨hm, hne, hinput, rfl⟩, hcount, hbits⟩, fun _ => ⟨rfl, rfl⟩⟩

/-- The loop leaves the scan as it is, and ends with a full register or at the marker. -/
theorem fillLoop_spec (hmarker : s.unread_marker = 0) (hreads : Reads s t) :
    ∃ s' hitMarker, fillLoop s = some (s', hitMarker) ∧ Reads s' t ∧
      s'.insufficient_data = s.insufficient_data ∧
      (hitMarker = false → MIN_GET_BITS ≤ s'.bits_left) ∧
      (hitMarker = true → s'.unread_marker ≠ 0) := by
  fun_induction fillLoop s with
  | case1 s hroom hfetch =>
      -- a state that has data up to a marker does not run out of bytes
      obtain ⟨-, data, ⟨-, hsegment⟩ | ⟨hm, hne, -⟩, -⟩ := hreads
      · cases hsegment with
        | marker h =>
            rw [hfetch] at h
            cases h
        | byte h _ =>
            rw [hfetch] at h
            cases h
      · exact absurd (hm.symm.trans hmarker) hne
  | case2 s hroom c input hfetch =>
      refine ⟨_, true, rfl, ?_, rfl, Bool.noConfusion, fun _ => fetch_marker_ne hfetch⟩
      obtain ⟨hle, data, ⟨-, hsegment⟩ | ⟨hm, hne, -⟩, hcount, hbits⟩ := hreads
      · cases hsegment with
        | marker h =>
            rw [hfetch] at h
            cases h
            exact ⟨hle, [], Or.inr ⟨rfl, fetch_marker_ne hfetch, rfl, rfl⟩, hcount, hbits⟩
        | byte h _ =>
            rw [hfetch] at h
            cases h
      · exact absurd (hm.symm.trans hmarker) hne
  | case3 s hroom c input hfetch ih =>
      refine ih hmarker ?_
      obtain ⟨hle, data, ⟨-, hsegment⟩ | ⟨hm, hne, -⟩, hcount, hbits⟩ := hreads
      · cases hsegment with
        | marker h =>
            rw [hfetch] at h
            cases h
        | byte h hrest =>
            rw [hfetch] at h
            cases h
            refine ⟨?_, _, Or.inl ⟨hmarker, hrest⟩, ?_, reads_byte hroom hbits⟩
            · rw [MIN_GET_BITS] at hroom
              dsimp only
              omega
            · rw [hcount, List.length_cons]
              dsimp only
              omega
      · exact absurd (hm.symm.trans hmarker) hne
  | case4 s hfull =>
      exact ⟨s, false, rfl, hreads, rfl, fun _ => Nat.le_of_not_lt hfull, Bool.noConfusion⟩

/-- Filling the register does not change the bits that will be read, and there are as many as have
been asked for; zero bits are put in only when the data does not have as many. -/
theorem jpeg_fill_bit_buffer_spec {nbits : Nat} (hreads : Reads s t)
    (hn : nbits ≤ MIN_GET_BITS) :
    ∃ s', jpeg_fill_bit_buffer s nbits = some s' ∧ nbits ≤ s'.bits_left ∧
      ∃ n, Reads s' { t with count := n } ∧ (nbits ≤ t.count → n = t.count ∧
        s'.insufficient_data = s.insufficient_data) := by
  rw [jpeg_fill_bit_buffer]
  by_cases hmarker : s.unread_marker = 0
  · rw [if_pos hmarker]
    obtain ⟨s', hitMarker, hfill, hreads', hsame, hfull, hhit⟩ := fillLoop_spec hmarker hreads
    simp only [hfill]
    cases hitMarker with
    | false =>
        exact ⟨s', rfl, Nat.le_trans hn (hfull rfl), t.count, hreads', fun _ => ⟨rfl, hsame⟩⟩
    | true =>
        obtain ⟨hle, n, hreads'', hexact⟩ := no_more_bytes_spec (hhit rfl) hreads' hn
        refine ⟨_, rfl, hle, n, hreads'', fun hdata => ?_⟩
        obtain ⟨hcount, hdone⟩ := hexact hdata
        exact ⟨hcount, hdone.trans hsame⟩
  · rw [if_neg hmarker]
    obtain ⟨hle, n, hreads', hexact⟩ := no_more_bytes_spec hmarker hreads hn
    exact ⟨_, rfl, hle, n, hreads', hexact⟩

theorem CHECK_BIT_BUFFER_spec {nbits : Nat} (hreads : Reads s t) (hn : nbits ≤ MIN_GET_BITS) :
    ∃ s', CHECK_BIT_BUFFER s nbits = some s' ∧ nbits ≤ s'.bits_left ∧
      ∃ n, Reads s' { t with count := n } ∧ (nbits ≤ t.count → n = t.count ∧
        s'.insufficient_data = s.insufficient_data) := by
  rw [CHECK_BIT_BUFFER]
  by_cases hfew : s.bits_left < nbits
  · rw [if_pos hfew]
    exact jpeg_fill_bit_buffer_spec hreads hn
  · rw [if_neg hfew]
    exact ⟨s, rfl, Nat.le_of_not_lt hfew, t.count, hreads, fun _ => ⟨rfl, rfl⟩⟩

/-! ## Taking bits -/

theorem BIT_MASK_eq {nbits : Nat} (hn : nbits ≤ 15) :
    BIT_MASK nbits = BitVec.ofNat 32 (2 ^ nbits - 1) := by
  have hall : ∀ n : Fin 16, BIT_MASK n = BitVec.ofNat 32 (2 ^ n.val - 1) := by decide
  exact hall ⟨nbits, Nat.lt_succ_of_le hn⟩

/-- What is peeked is the beginning of the bits that will be read. -/
theorem PEEK_BITS_eq {nbits : Nat} (hreads : Reads s t) (hn : nbits ≤ 15)
    (hle : nbits ≤ s.bits_left) : PEEK_BITS s nbits = value t.bits nbits := by
  obtain ⟨hroom, data, -, -, hbits⟩ := hreads
  have hmask : 2 ^ nbits - 1 < 2 ^ 32 :=
    Nat.lt_of_le_of_lt (Nat.sub_le _ _) (Nat.pow_lt_pow_right (by decide) (by omega))
  have hpeek : PEEK_BITS s nbits =
      (s.get_buffer.sshiftRight (s.bits_left - nbits)).toNat % 2 ^ nbits := by
    rw [PEEK_BITS, BIT_MASK_eq hn, BitVec.toNat_and, BitVec.toNat_ofNat, Nat.mod_eq_of_lt hmask,
      Nat.and_two_pow_sub_one_eq_mod]
  rw [hpeek]
  refine (value_eq_mod fun i hi => ?_).symm
  rw [hbits i, if_pos (by omega), BitVec.testBit_toNat, BitVec.getLsbD_sshiftRight]
  rw [if_pos (by omega), show s.bits_left - nbits + (nbits - 1 - i) = s.bits_left - 1 - i by omega]
  simp
  omega

theorem DROP_BITS_spec {nbits : Nat} (hreads : Reads s t) (hle : nbits ≤ s.bits_left) :
    Reads (DROP_BITS s nbits) ⟨t.bits.skip nbits, t.count - nbits, t.marker, t.rest⟩ := by
  obtain ⟨hroom, data, hahead, hcount, hbits⟩ := hreads
  refine ⟨Nat.le_trans (Nat.sub_le _ _) hroom, data, hahead, ?_, fun i => ?_⟩
  · rw [hcount, DROP_BITS]
    dsimp only
    omega
  · dsimp only
    rw [Stream.skip, hbits, DROP_BITS]
    dsimp only
    by_cases hi : i < s.bits_left - nbits
    · rw [if_pos hi, if_pos (by omega),
        show s.bits_left - 1 - (i + nbits) = s.bits_left - nbits - 1 - i by omega]
    · rw [if_neg hi, if_neg (by omega),
        show i + nbits - s.bits_left = i - (s.bits_left - nbits) by omega]

/-- Some bits are taken from a state that has them or can get them. -/
theorem exists_GET_BITS {nbits : Nat} (hreads : Reads s t) (hn : nbits ≤ 15) :
    ∃ s'', (∃ s', CHECK_BIT_BUFFER s nbits = some s' ∧
        GET_BITS s' nbits = (value t.bits nbits, s'')) ∧ Advance s t nbits s'' := by
  obtain ⟨s', hcheck, hle, n, hreads', hexact⟩ :=
    CHECK_BIT_BUFFER_spec hreads (Nat.le_trans hn (show 15 ≤ MIN_GET_BITS by decide))
  have hpeek : PEEK_BITS s' nbits = value t.bits nbits :=
    PEEK_BITS_eq (t := { t with count := n }) hreads' hn hle
  refine ⟨DROP_BITS s' nbits, ⟨s', hcheck, ?_⟩, n - nbits, DROP_BITS_spec hreads' hle, ?_⟩
  · rw [GET_BITS, hpeek]
  · intro hdata
    obtain ⟨rfl, hsame⟩ := hexact hdata
    exact ⟨rfl, hsame⟩

/-- Bits are taken one after the other. -/
theorem Advance.exists_trans {l l' : Nat} {s' : bitread_working_state}
    {q : bitread_working_state → Prop} (h : Advance s t l s')
    (step : ∀ n, Reads s' ⟨t.bits.skip l, n, t.marker, t.rest⟩ →
      ∃ s'', q s'' ∧ Advance s' ⟨t.bits.skip l, n, t.marker, t.rest⟩ l' s'') :
    ∃ s'', q s'' ∧ Advance s t (l + l') s'' := by
  obtain ⟨n, hreads, hexact⟩ := h
  obtain ⟨s'', hq, n', hreads', hexact'⟩ := step n hreads
  dsimp only at hreads' hexact'
  rw [skip_skip] at hreads'
  refine ⟨s'', hq, n', hreads', fun hdata => ?_⟩
  obtain ⟨rfl, hsame⟩ := hexact (by omega)
  obtain ⟨rfl, hsame'⟩ := hexact' (by omega)
  exact ⟨by omega, hsame'.trans hsame⟩

/-! ## Decoding a symbol -/

variable {htbl : JHUFF_TBL} {d : d_derived_tbl}

/-- What reading the code of a table finds: a word by its length and number. -/
abbrev found (htbl : JHUFF_TBL) (bits : Stream) : Option (Nat × Nat) :=
  find (counts htbl) bits 16 1

/-- The symbol of what has been found; garbage has the symbol 0. -/
def symbolOf (htbl : JHUFF_TBL) : Option (Nat × Nat) → UInt8
  | some (l, k) => huffvalAt htbl (offset (counts htbl) l + k)
  | none => 0

/-- How many bits are read until a word is found or known to be garbage. -/
def lengthOf : Option (Nat × Nat) → Nat
  | some (l, _) => l
  | none => 17

/-- The loop goes on as long as the bits are past the code words of their length. -/
theorem maxcode_lt_iff (hd : Derived htbl d) {bits : Stream} {l : Nat} (hpos : 1 ≤ l) (hl : l ≤ 16)
    (hfirst : first (counts htbl) l ≤ value bits l) :
    d.maxcode l < value bits l ↔ ¬ value bits l < first (counts htbl) l + counts htbl l := by
  rw [hd.maxcode l hpos hl, maxcodeOf]
  split_ifs with hzero <;> omega

theorem two_mul_lor {bit : Nat} (code : Nat) (hbit : bit < 2) :
    2 * code ||| bit = 2 * code + bit := by
  have h := Nat.two_pow_add_eq_or_of_lt (i := 1) hbit code
  rw [Nat.pow_one] at h
  exact h.symm

/-- The loop of Figure F.16 reads up to the end of the word, or one bit more than any word has. -/
theorem collect_spec (hd : Derived htbl d) {s₀ : bitread_working_state} {r l n : Nat}
    (hpos : 1 ≤ l) (hl : l + r = 17) (hn : r < n) (hadvance : Advance s₀ t l s)
    (hfirst : first (counts htbl) l ≤ value t.bits l) :
    ∃ s', collect d n (value t.bits l) l s =
        some (value t.bits (lengthOf (find (counts htbl) t.bits r l)),
          lengthOf (find (counts htbl) t.bits r l), s') ∧
      Advance s₀ t (lengthOf (find (counts htbl) t.bits r l)) s' := by
  induction r generalizing l n s with
  | zero =>
      obtain ⟨m, rfl⟩ := Nat.exists_eq_add_of_le' hn
      obtain rfl : l = 17 := by omega
      -- seventeen bits are never more than the sentinel
      have hlt : value t.bits 17 < 2 ^ 17 := value_lt t.bits 17
      have hstop : ¬ d.maxcode 17 < value t.bits 17 := by
        rw [hd.sentinel]
        omega
      refine ⟨s, ?_, hadvance⟩
      rw [collect, if_neg hstop]
      rfl
  | succ r ih =>
      obtain ⟨m, rfl⟩ := Nat.exists_eq_add_of_le' (Nat.le_trans (Nat.succ_pos _) hn)
      have hiff := maxcode_lt_iff hd hpos (by omega) hfirst
      rw [find, collect]
      by_cases hhere : value t.bits l < first (counts htbl) l + counts htbl l
      · rw [if_pos hhere, if_neg fun h => hiff.1 h hhere]
        exact ⟨s, rfl, hadvance⟩
      · rw [if_neg hhere, if_pos (hiff.2 hhere)]
        obtain ⟨s'', ⟨s', hcheck, hget⟩, hadvance'⟩ := hadvance.exists_trans
          (q := fun s'' => ∃ s', CHECK_BIT_BUFFER s 1 = some s' ∧
            GET_BITS s' 1 = (value (t.bits.skip l) 1, s''))
          fun n hreads => exists_GET_BITS hreads (show 1 ≤ 15 by decide)
        -- the next bit extends what has been read
        have hvalue : 2 * value t.bits l ||| value (t.bits.skip l) 1 = value t.bits (l + 1) := by
          rw [two_mul_lor _ (value_lt (t.bits.skip l) 1), value_add, Nat.pow_one]
        obtain ⟨s₃, hcollect, hdone⟩ := ih (l := l + 1) (n := m) (by omega) (by omega) (by omega)
          hadvance' (first_succ_le (by omega))
        refine ⟨s₃, ?_, hdone⟩
        simp only [hcheck, hget]
        rw [← hcollect, ← hvalue]

/-- Decoding bit by bit finds the word, if no shorter word has been passed over. -/
theorem jpeg_huff_decode_spec (hd : Derived htbl d) {l : Nat} (hpos : 1 ≤ l) (hl : l ≤ 15)
    (hreads : Reads s t) (hfirst : first (counts htbl) l ≤ value t.bits l) :
    ∃ s', jpeg_huff_decode d s l =
        some (symbolOf htbl (find (counts htbl) t.bits (17 - l) l), s') ∧
      Advance s t (lengthOf (find (counts htbl) t.bits (17 - l) l)) s' := by
  obtain ⟨s₁, ⟨s', hcheck, hget⟩, hadvance⟩ := exists_GET_BITS hreads hl
  obtain ⟨s₂, hcollect, hdone⟩ := collect_spec (r := 17 - l) (n := 18 - l) hd hpos (by omega)
    (by omega) hadvance hfirst
  refine ⟨s₂, ?_, hdone⟩
  rw [jpeg_huff_decode, hcheck]
  simp only [hget, hcollect]
  cases hfind : find (counts htbl) t.bits (17 - l) l with
  | none => exact if_pos (by decide)
  | some w =>
      obtain ⟨m, k⟩ := w
      obtain ⟨hle, hlt, hbegins⟩ := (find_eq_some_iff hfirst).1 hfind
      have hvalue := hbegins.value_eq
      have hk := hbegins.lt
      show (if 16 < m then some (0, s₂)
        else some (huffvalAt d.pub ((value t.bits m : Int) + d.valoffset m).toNat, s₂)) =
          some (huffvalAt htbl (offset (counts htbl) m + k), s₂)
      rw [if_neg (by omega), hd.pub, hd.valoffset m (by omega) (by omega) (by omega), hvalue]
      congr 3
      omega

/-- A symbol is decoded as the canonical code says: it is that of the code word which the bits
begin with, and exactly this word is taken from them. -/
theorem HUFF_DECODE_spec (hd : Derived htbl d) (hreads : Reads s t) :
    ∃ s', HUFF_DECODE d s = some (symbolOf htbl (found htbl t.bits), s') ∧
      Advance s t (lengthOf (found htbl t.bits)) s' := by
  -- after the first step the register has eight bits unless the data is at its end
  obtain ⟨s₁, hfill, hreads₁, hsame⟩ : ∃ s₁, (if s.bits_left < HUFF_LOOKAHEAD then
      jpeg_fill_bit_buffer s 0 else some s) = some s₁ ∧ Reads s₁ t ∧
        s₁.insufficient_data = s.insufficient_data := by
    by_cases hfew : s.bits_left < HUFF_LOOKAHEAD
    · rw [if_pos hfew]
      obtain ⟨s₁, hfill, -, n, hreads₁, hexact⟩ := jpeg_fill_bit_buffer_spec hreads (Nat.zero_le _)
      obtain ⟨rfl, hsame⟩ := hexact (Nat.zero_le _)
      exact ⟨s₁, hfill, hreads₁, hsame⟩
    · exact ⟨s, if_neg hfew, hreads, rfl⟩
  have hfrom : ∀ l s', Advance s₁ t l s' → Advance s t l s' := by
    rintro l s' ⟨n, hreads', hexact⟩
    exact ⟨n, hreads', fun hdata => ⟨(hexact hdata).1, (hexact hdata).2.trans hsame⟩⟩
  rw [HUFF_DECODE, hfill]
  dsimp only
  by_cases hfew : s₁.bits_left < HUFF_LOOKAHEAD
  · rw [if_pos hfew]
    obtain ⟨s', hdecode, hadvance⟩ :=
      jpeg_huff_decode_spec hd (Nat.le_refl 1) (by decide) hreads₁ (Nat.zero_le _)
    exact ⟨s', hdecode, hfrom _ _ hadvance⟩
  · rw [if_neg hfew]
    have hpeek : PEEK_BITS s₁ HUFF_LOOKAHEAD = value t.bits HUFF_LOOKAHEAD :=
      PEEK_BITS_eq hreads₁ (by decide) (Nat.le_of_not_lt hfew)
    have hlook := hd.look t.bits
    have hsplit : found htbl t.bits = (find (counts htbl) t.bits HUFF_LOOKAHEAD 1).or
        (find (counts htbl) t.bits 8 9) := find_add (counts htbl) t.bits 8 8 1
    rw [hpeek, hsplit]
    cases hfind : find (counts htbl) t.bits HUFF_LOOKAHEAD 1 with
    | none =>
        rw [hfind] at hlook
        rw [if_neg (not_not.2 hlook), Option.none_or]
        -- no word of at most eight bits matches, so the bits are past all of these
        have hpast : first (counts htbl) 9 ≤ value t.bits 9 := by
          have hnone := find_eq_none_iff.1 hfind 8 (by decide) (by decide)
          exact first_succ_le hnone
        obtain ⟨s', hdecode, hadvance⟩ :=
          jpeg_huff_decode_spec hd (by decide) (by decide) hreads₁ hpast
        exact ⟨s', hdecode, hfrom _ _ hadvance⟩
    | some w =>
        obtain ⟨l, k⟩ := w
        obtain ⟨hle, hlt, -⟩ := (find_eq_some_iff (Nat.zero_le _)).1 hfind
        rw [hfind] at hlook
        obtain ⟨hnbits, hsym⟩ := hlook
        rw [HUFF_LOOKAHEAD] at hfew hlt
        rw [hnbits, hsym, if_pos (by omega), Option.some_or]
        exact ⟨_, rfl, t.count - l, DROP_BITS_spec hreads₁ (by omega), fun _ => ⟨rfl, hsame⟩⟩

/-- With a table that has been made a symbol is decoded as the canonical code says, in front of any
scan. When the bits begin with a code word, the symbol is that of the word and exactly its bits are
taken; when they begin with no code word, the symbol is 0 and 17 bits are taken. -/
theorem HUFF_DECODE_of_made {tables : Tables} {isDC : Bool} {tblno : Nat} {dtbl : d_derived_tbl}
    (hmade : jpeg_make_d_derived_tbl tables isDC tblno dtbl = some d) (hreads : Reads s t) :
    (∀ l k, 1 ≤ l → l ≤ 16 → Begins (counts d.pub) t.bits l k →
      ∃ s', HUFF_DECODE d s = some (huffvalAt d.pub (offset (counts d.pub) l + k), s') ∧
        Advance s t l s') ∧
    ((∀ l k, 1 ≤ l → l ≤ 16 → ¬ Begins (counts d.pub) t.bits l k) →
      ∃ s', HUFF_DECODE d s = some (0, s') ∧ Advance s t 17 s') := by
  obtain ⟨-, hd⟩ := derived_of_eq_some hmade
  obtain ⟨s', hdecode, hadvance⟩ := HUFF_DECODE_spec hd hreads
  constructor
  · intro l k hpos hle hbegins
    have hfound : found d.pub t.bits = some (l, k) :=
      (find_eq_some_iff (Nat.zero_le _)).2 ⟨hpos, Nat.lt_succ_of_le hle, hbegins⟩
    rw [hfound] at hdecode hadvance
    exact ⟨s', hdecode, hadvance⟩
  · intro hno
    have hnone : found d.pub t.bits = none := by
      cases hfound : found d.pub t.bits with
      | none => rfl
      | some w =>
          obtain ⟨l, k⟩ := w
          obtain ⟨hpos, hlt, hbegins⟩ := (find_eq_some_iff (Nat.zero_le _)).1 hfound
          exact absurd hbegins (hno l k hpos (Nat.le_of_lt_succ hlt))
    rw [hnone] at hdecode hadvance
    exact ⟨s', hdecode, hadvance⟩

/-- The word `10` is taken from the byte `0xB7` in front of a marker. -/
theorem HUFF_DECODE_of_made_second :
    ∃ (d : d_derived_tbl) (s' : bitread_working_state),
      jpeg_make_d_derived_tbl
        (fun _ _ => some ⟨[0, 1, 1, 0, 0, 0, 0, 0, 0, 0, 0, 0, 0, 0, 0, 0, 0], [7, 9]⟩) true 0
        ⟨fun _ => 0, fun _ => 0, ⟨[], []⟩, fun _ => 0, fun _ => 0⟩ = some d ∧
      HUFF_DECODE d ⟨[0xB7, 0xFF, 0xD9], 0, 0, 0, false⟩ = some (9, s') ∧
      Advance ⟨[0xB7, 0xFF, 0xD9], 0, 0, 0, false⟩
        ⟨fun i => (bitsOfBytes [0xB7]).getD i false, 8, 0xD9, []⟩ 2 s' := by
  have hsome : (jpeg_make_d_derived_tbl
      (fun _ _ => some ⟨[0, 1, 1, 0, 0, 0, 0, 0, 0, 0, 0, 0, 0, 0, 0, 0, 0], [7, 9]⟩) true 0
      ⟨fun _ => 0, fun _ => 0, ⟨[], []⟩, fun _ => 0, fun _ => 0⟩).isSome := by decide +kernel
  obtain ⟨d, hmade⟩ := Option.isSome_iff_exists.1 hsome
  obtain ⟨-, htbl, htables, -, hd⟩ := jpeg_make_d_derived_tbl_eq_some_iff.1 hmade
  obtain rfl := Option.some.inj htables
  have hpub : d.pub = ⟨[0, 1, 1, 0, 0, 0, 0, 0, 0, 0, 0, 0, 0, 0, 0, 0, 0], [7, 9]⟩ := by
    rw [hd]
    rfl
  have hreads : Reads ⟨[0xB7, 0xFF, 0xD9], 0, 0, 0, false⟩
      ⟨fun i => (bitsOfBytes [0xB7]).getD i false, 8, 0xD9, []⟩ :=
    ⟨by decide, [0xB7], .inl ⟨rfl, .byte rfl (.marker rfl)⟩, rfl, fun _ => rfl⟩
  obtain ⟨s', hdecode, hadvance⟩ := (HUFF_DECODE_of_made hmade hreads).1 2 0 (by decide)
    (by decide) (by rw [hpub]; exact ⟨by decide, by decide +kernel⟩)
  rw [hpub] at hdecode
  exact ⟨d, s', hmade, hdecode, hadvance⟩

end IotClient.Video.HuffmanDecoding
