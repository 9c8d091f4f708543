import IotClient.Video.HuffmanDecoding

/-!
# Writing Huffman codes

The entropy encoder computes from a table the code word of each symbol, and writes code words and
coefficients through a register of which 24 bits are used. A byte 0xFF is followed by a stuffed
zero.

* `encodes_of_eq_some`: the words are those of the canonical code that the decoder reads.
* `emit_bits_s_spec`: writing appends exactly the bits that have been given.
* `flush_bits_s_spec`: the last byte is filled up, and all bits are in the output.
-/

set_option autoImplicit false

namespace IotClient.Video.HuffmanEncoding

open IotClient.Foundation.PrefixCodes
open IotClient.Video.HuffmanTables
open IotClient.Video.DerivedTables
open IotClient.Video.HuffmanDecoding

structure c_derived_tbl where
  ehufco : Nat → Nat
  ehufsi : Nat → Nat

/-- Figure C.3: the tables that are indexed by symbols, from index `p` on. -/
def encodingTables (htbl : JHUFF_TBL) (maxsymbol : Nat) : (codes sizes : List Nat) → (p : Nat) →
    c_derived_tbl → Option c_derived_tbl
  | code :: codes, size :: sizes, p, dtbl =>
      let i := (huffvalAt htbl p).toNat
      if maxsymbol < i ∨ dtbl.ehufsi i ≠ 0 then none
      else encodingTables htbl maxsymbol codes sizes (p + 1)
        { ehufco := Function.update dtbl.ehufco i code
          ehufsi := Function.update dtbl.ehufsi i size }
  | _, _, _, dtbl => some dtbl

/-- `jpeg_make_c_derived_tbl`; `none` is `error_exit`. `dtbl` is what the workspace contains. -/
def jpeg_make_c_derived_tbl (tables : Tables) (isDC : Bool) (tblno : Nat) (dtbl : c_derived_tbl) :
    Option c_derived_tbl :=
  if h : tblno < NUM_HUFF_TBLS then
    match tables (!isDC) ⟨tblno, h⟩ with
    | none => none
    | some htbl =>
        match huffsizes htbl 16 1 [] with
        | none => none
        | some huffsize =>
            match huffcodes 16 huffsize 0 (huffsize.headD 0) [] with
            | none => none
            | some huffcode =>
                encodingTables htbl (if isDC then 15 else 255) huffcode huffsize 0
                  { dtbl with ehufsi := fun _ => 0 }
  else none

/-- `working_state`, with all that has been written. -/
structure working_state where
  output : List UInt8
  put_buffer : BitVec 32
  put_bits : Nat
  last_dc_val : Nat → Int

def emit_byte_s (s : working_state) (val : UInt8) : working_state :=
  { s with output := s.output ++ [val] }

/-- The byte at the upper end of the register. -/
def upperByte (put_buffer : BitVec 32) : UInt8 :=
  UInt8.ofNat (put_buffer.sshiftRight 16 &&& 0xFF).toNat

/-- Writing a byte, and a stuffed zero if it needs one. -/
def emit_stuffed (s : working_state) (c : UInt8) : working_state :=
  if c = 0xFF then emit_byte_s (emit_byte_s s c) 0 else emit_byte_s s c

/-- The loop that writes whole bytes. -/
def emitLoop (put_buffer : BitVec 32) (put_bits : Nat) (s : working_state) : working_state :=
  if 8 ≤ put_bits then
    emitLoop (put_buffer <<< 8) (put_bits - 8) (emit_stuffed s (upperByte put_buffer))
  else { s with put_buffer := put_buffer, put_bits := put_bits }
termination_by put_bits

/-- `emit_bits_s`; `none` is the error for a symbol without a code. -/
def emit_bits_s (s : working_state) (code : BitVec 32) (size : Nat) : Option working_state :=
  if size = 0 then none
  else
    let put_buffer := code &&& BitVec.ofNat 32 (2 ^ size - 1)
    let put_bits := s.put_bits + size
    let put_buffer := put_buffer <<< (24 - put_bits) ||| s.put_buffer
    some (emitLoop put_buffer put_bits s)

def flush_bits_s (s : working_state) : Option working_state :=
  match emit_bits_s s 0x7F 7 with
  | none => none
  | some s => some { s with put_buffer := 0, put_bits := 0 }

/-! ## The words of a table -/

/-- The entries of an encoding table are code words of the canonical code. -/
def Encodes (htbl : JHUFF_TBL) (c : c_derived_tbl) : Prop :=
  ∀ i, c.ehufsi i ≠ 0 → ∃ l k, 1 ≤ l ∧ l ≤ 16 ∧ k < counts htbl l ∧
    (huffvalAt htbl (offset (counts htbl) l + k)).toNat = i ∧ c.ehufsi i = l ∧
      c.ehufco i = first (counts htbl) l + k

variable {htbl : JHUFF_TBL}

/-- An index is that of a code word. -/
theorem exists_word {p : Nat} (hp : p < offset (counts htbl) 17) :
    ∃ l k, 1 ≤ l ∧ l ≤ 16 ∧ k < counts htbl l ∧ p = offset (counts htbl) l + k := by
  have hany : ∀ n, p < offset (counts htbl) n →
      ∃ l k, l < n ∧ k < counts htbl l ∧ p = offset (counts htbl) l + k := by
    intro n
    induction n with
    | zero => exact fun h => absurd h (Nat.not_lt_zero p)
    | succ n ih =>
        intro h
        rw [offset] at h
        by_cases hn : p < offset (counts htbl) n
        · obtain ⟨l, k, hl, hk, heq⟩ := ih hn
          exact ⟨l, k, Nat.lt_succ_of_lt hl, hk, heq⟩
        · exact ⟨n, p - offset (counts htbl) n, Nat.lt_succ_self n, by omega, by omega⟩
  obtain ⟨l, k, hl, hk, heq⟩ := hany 17 hp
  have hpos : 1 ≤ l := by
    by_contra hzero
    rw [counts, if_neg fun h => hzero h.1] at hk
    exact Nat.not_lt_zero k hk
  exact ⟨l, k, hpos, by omega, hk, heq⟩

/-- The sizes of the code words of a length. -/
theorem getElem?_sizes {r l m k : Nat} (hpos : 1 ≤ l) (hl : l + r ≤ 17) (hle : l ≤ m)
    (hlt : m < l + r) (hk : k < counts htbl m) :
    (sizes htbl r l)[offset (counts htbl) m - offset (counts htbl) l + k]? = some m := by
  induction r generalizing l with
  | zero => omega
  | succ r ih =>
      have hbits : bitsAt htbl l = counts htbl l := bitsAt_eq_counts hpos (by omega)
      rw [sizes, hbits]
      rcases Nat.lt_or_eq_of_le hle with hlt' | rfl
      · have hnext : offset (counts htbl) (l + 1) ≤ offset (counts htbl) m := offset_mono hlt'
        rw [offset] at hnext
        rw [List.getElem?_append_right (by rw [List.length_replicate]; omega),
          List.length_replicate, ← ih (by omega) (by omega) hlt' (by omega), offset]
        congr 1
        omega
      · have hinside : k < (List.replicate (counts htbl l) l).length := by
          rw [List.length_replicate]
          exact hk
        rw [Nat.sub_self, Nat.zero_add, List.getElem?_append_left hinside,
          List.getElem?_replicate_of_lt hk]

/-- An entry of the tables comes from an index of the lists, unless it was there before. -/
theorem encodingTables_spec {maxsymbol : Nat} {codes sizes : List Nat} {p : Nat}
    {dtbl c : c_derived_tbl} (h : encodingTables htbl maxsymbol codes sizes p dtbl = some c)
    (i : Nat) :
    (c.ehufsi i = dtbl.ehufsi i ∧ c.ehufco i = dtbl.ehufco i) ∨
      ∃ j code size, codes[j]? = some code ∧ sizes[j]? = some size ∧
        (huffvalAt htbl (p + j)).toNat = i ∧ c.ehufsi i = size ∧ c.ehufco i = code := by
  fun_induction encodingTables htbl maxsymbol codes sizes p dtbl with
  | case1 => cases h
  | case2 code codes size sizes p dtbl i' hfree ih =>
      rcases ih h with ⟨hsi, hco⟩ | ⟨j, code', size', hcode, hsize, hval, hentry⟩
      · dsimp only at hsi hco
        by_cases hi : i = i'
        · subst hi
          rw [Function.update_self] at hsi hco
          exact Or.inr ⟨0, code, size, rfl, rfl, rfl, hsi, hco⟩
        · rw [Function.update_of_ne hi] at hsi hco
          exact Or.inl ⟨hsi, hco⟩
      · refine Or.inr ⟨j + 1, code', size', hcode, hsize, ?_, hentry⟩
        rw [← hval, Nat.add_assoc, Nat.add_comm 1 j]
  | case3 =>
      cases h
      exact Or.inl ⟨rfl, rfl⟩

/-- The symbols that have been entered are in range. -/
theorem encodingTables_le {maxsymbol : Nat} {codes sizes : List Nat} {p : Nat}
    {dtbl c : c_derived_tbl} (h : encodingTables htbl maxsymbol codes sizes p dtbl = some c)
    {j : Nat} (hcodes : j < codes.length) (hsizes : j < sizes.length) :
    (huffvalAt htbl (p + j)).toNat ≤ maxsymbol := by
  fun_induction encodingTables htbl maxsymbol codes sizes p dtbl generalizing j with
  | case1 => cases h
  | case2 code codes size sizes p dtbl i hfree ih =>
      cases j with
      | zero => exact Nat.le_of_not_lt fun hlt => hfree (Or.inl hlt)
      | succ j =>
          have hrest := ih h (Nat.lt_of_succ_lt_succ hcodes) (Nat.lt_of_succ_lt_succ hsizes)
          rwa [Nat.add_assoc, Nat.add_comm 1 j] at hrest
  | case3 codes sizes p dtbl hnil =>
      -- one of the lists is empty
      cases codes with
      | nil => exact absurd hcodes (Nat.not_lt_zero j)
      | cons code codes =>
          cases sizes with
          | nil => exact absurd hsizes (Nat.not_lt_zero j)
          | cons size sizes => exact (hnil code codes size sizes rfl rfl).elim

/-- The entries of the encoding tables of all words. -/
theorem encodes_of_encodingTables {maxsymbol : Nat} {dtbl c : c_derived_tbl}
    (h : encodingTables htbl maxsymbol (words (counts htbl) 16 1) (sizes htbl 16 1) 0
      { dtbl with ehufsi := fun _ => 0 } = some c) : Encodes htbl c := by
  intro i hi
  rcases encodingTables_spec h i with ⟨hsi, -⟩ | ⟨j, code, size, hcode, hsize, hval, hsi, hco⟩
  · exact absurd hsi hi
  · have hj : j < offset (counts htbl) 17 := by
      rw [← length_words]
      exact (List.getElem?_eq_some_iff.1 hcode).1
    obtain ⟨l, k, hpos, hle, hk, rfl⟩ := exists_word hj
    have hword := getElem?_words (r := 16) hpos (by omega) hk
    have hwidth := getElem?_sizes (r := 16) (Nat.le_refl 1) (by omega) hpos (by omega) hk
    rw [offset_one, Nat.sub_zero] at hword hwidth
    rw [Nat.zero_add] at hval
    refine ⟨l, k, hpos, hle, hk, hval, ?_, ?_⟩
    · rw [hsi, ← Option.some.inj (hwidth.symm.trans hsize)]
    · rw [hco, ← Option.some.inj (hword.symm.trans hcode)]

/-- A table for which the encoder has code words is one that the decoder accepts, and the words
are those of its code. -/
theorem encodes_of_eq_some {tables : Tables} {isDC : Bool} {tblno : Nat} {dtbl c : c_derived_tbl}
    (h : jpeg_make_c_derived_tbl tables isDC tblno dtbl = some c) :
    ∃ (hn : tblno < NUM_HUFF_TBLS) (htbl : JHUFF_TBL),
      tables (!isDC) ⟨tblno, hn⟩ = some htbl ∧ Accepted isDC htbl ∧ Encodes htbl c := by
  rw [jpeg_make_c_derived_tbl] at h
  by_cases hn : tblno < NUM_HUFF_TBLS
  · rw [dif_pos hn] at h
    cases htables : tables (!isDC) ⟨tblno, hn⟩ with
    | none =>
        rw [htables] at h
        cases h
    | some htbl =>
        rw [htables] at h
        have hsizes := huffsizes_eq htbl 16 1 []
        rw [List.nil_append, length_sizes] at hsizes
        by_cases hmany : offset (counts htbl) 17 ≤ 256
        · rw [if_pos (Or.inl hmany)] at hsizes
          rcases huffcodes_eq htbl with ⟨hcodes, hlegal⟩ | ⟨hnone, -⟩
          · simp only [hsizes, hcodes] at h
            refine ⟨hn, htbl, htables, ⟨hmany, hlegal, fun hDC i hi => ?_⟩,
              encodes_of_encodingTables h⟩
            rw [hDC] at h
            have hle := encodingTables_le h (j := i) (by rw [length_words]; exact hi)
              (by rw [length_sizes]; exact hi)
            rw [Nat.zero_add] at hle
            exact UInt8.le_iff_toNat_le.2 hle
          · simp only [hsizes, hnone] at h
            cases h
        · rw [if_neg (by omega)] at hsizes
          simp only [hsizes] at h
          cases h
  · rw [dif_neg hn] at h
    cases h

/-! ## Writing bits -/

/-- Data with a zero behind each byte 0xFF. -/
def stuff (data : List UInt8) : List UInt8 :=
  data.flatMap fun c => if c = 0xFF then [0xFF, 0] else [c]

/-- The bits of the register that have not been written. -/
def pendingBits (put_buffer : BitVec 32) (put_bits : Nat) : List Bool :=
  (List.range put_bits).map fun j => put_buffer.getLsbD (23 - j)

/-- What has been written behind some front part: the bits of stuffed bytes and of the register. -/
structure Wrote (s : working_state) (front : List UInt8) (bits : List Bool) : Prop where
  put_bits_lt : s.put_bits < 8
  zeros : ∀ j, s.put_bits ≤ j → j < 24 → s.put_buffer.getLsbD (23 - j) = false
  bytes : ∃ data, s.output = front ++ stuff data ∧
    bits = bitsOfBytes data ++ pendingBits s.put_buffer s.put_bits

theorem testBit_upperByte (put_buffer : BitVec 32) {j : Nat} (hj : j < 8) :
    (upperByte put_buffer).toNat.testBit j = put_buffer.getLsbD (16 + j) := by
  have hmask : (0xFF : BitVec 32).getLsbD j = true := by
    have hall : ∀ i : Fin 8, (0xFF : BitVec 32).getLsbD i = true := by decide
    exact hall ⟨j, hj⟩
  rw [upperByte, UInt8.toNat_ofNat', Nat.testBit_mod_two_pow, BitVec.testBit_toNat,
    BitVec.getLsbD_and, BitVec.getLsbD_sshiftRight, if_pos (by omega), hmask]
  simp only [hj, show ¬ 32 ≤ j by omega, decide_true, decide_false, Bool.not_false, Bool.true_and,
    Bool.and_true]

/-- A byte of the register is written first. -/
theorem pendingBits_add (put_buffer : BitVec 32) {m : Nat} (hm : 8 + m ≤ 24) :
    pendingBits put_buffer (8 + m) =
      bitsOf 8 (upperByte put_buffer).toNat ++ pendingBits (put_buffer <<< 8) m := by
  rw [pendingBits, pendingBits, List.range_add, List.map_append, List.map_map, bitsOf_eq_map]
  congr 1
  · refine List.map_congr_left fun i hi => ?_
    rw [List.mem_range] at hi
    rw [testBit_upperByte put_buffer (by omega), show 16 + (8 - 1 - i) = 23 - i by omega]
  · refine List.map_congr_left fun i hi => ?_
    rw [List.mem_range] at hi
    rw [getLsbD_shift _ (by omega), if_neg (by omega), Function.comp_apply,
      show 23 - (8 + i) = 23 - i - 8 by omega]

/-- A byte and its stuffed zero are written behind the others. -/
theorem emit_stuffed_output {s : working_state} {front data : List UInt8} (c : UInt8)
    (hout : s.output = front ++ stuff data) :
    (emit_stuffed s c).output = front ++ stuff (data ++ [c]) := by
  rw [stuff, List.flatMap_append, List.flatMap_singleton, ← List.append_assoc, ← stuff, ← hout,
    emit_stuffed]
  by_cases hc : c = 0xFF
  · rw [if_pos hc, if_pos hc, hc]
    exact List.append_assoc s.output [0xFF] [0]
  · rw [if_neg hc, if_neg hc]
    rfl

/-- The loop writes whole bytes and keeps the rest. -/
theorem emitLoop_spec {put_buffer : BitVec 32} {put_bits : Nat} {s : working_state}
    {front data : List UInt8} (hbits : put_bits ≤ 24)
    (hzeros : ∀ j, put_bits ≤ j → j < 24 → put_buffer.getLsbD (23 - j) = false)
    (hout : s.output = front ++ stuff data) :
    Wrote (emitLoop put_buffer put_bits s) front
      (bitsOfBytes data ++ pendingBits put_buffer put_bits) := by
  fun_induction emitLoop put_buffer put_bits s generalizing data with
  | case1 put_buffer put_bits s hmany ih =>
      obtain ⟨m, rfl⟩ := Nat.exists_eq_add_of_le hmany
      rw [Nat.add_sub_cancel_left] at ih ⊢
      have hdata : bitsOfBytes data ++ pendingBits put_buffer (8 + m) =
          bitsOfBytes (data ++ [upperByte put_buffer]) ++ pendingBits (put_buffer <<< 8) m := by
        rw [pendingBits_add put_buffer hbits, ← List.append_assoc, bitsOfBytes, bitsOfBytes,
          List.flatMap_append, List.flatMap_singleton]
      rw [hdata]
      refine ih (by omega) (fun j hj hlt => ?_) (emit_stuffed_output _ hout)
      -- zeros come in from the right
      rw [getLsbD_shift _ (by omega)]
      by_cases hlow : 23 - j < 8
      · exact if_pos hlow
      · rw [if_neg hlow, show 23 - j - 8 = 23 - (j + 8) by omega]
        exact hzeros (j + 8) (by omega) (by omega)
  | case2 put_buffer put_bits s hfew =>
      exact ⟨Nat.lt_of_not_le hfew, hzeros, data, hout, rfl⟩

/-- The register with some bits merged in behind those that it has. -/
theorem getLsbD_merge {put_buffer : BitVec 32} (code : BitVec 32) {n size j : Nat} (hn : n < 8)
    (hsize : size ≤ 16) (hj : j < 24)
    (hzeros : ∀ j, n ≤ j → j < 24 → put_buffer.getLsbD (23 - j) = false) :
    ((code &&& BitVec.ofNat 32 (2 ^ size - 1)) <<< (24 - (n + size)) ||| put_buffer).getLsbD
        (23 - j) =
      if j < n then put_buffer.getLsbD (23 - j)
      else if j < n + size then code.getLsbD (n + size - 1 - j) else false := by
  rw [BitVec.getLsbD_or, getLsbD_shift _ (by omega), BitVec.getLsbD_and, BitVec.getLsbD_ofNat,
    Nat.testBit_two_pow_sub_one]
  by_cases hold : j < n
  · -- the new bits are all further to the right
    rw [if_pos hold, if_neg (by omega)]
    simp only [show ¬ 23 - j - (24 - (n + size)) < size by omega, decide_false, Bool.and_false,
      Bool.false_or]
  · rw [if_neg hold, hzeros j (by omega) hj, Bool.or_false]
    by_cases hnew : j < n + size
    · rw [if_pos hnew, if_neg (by omega),
        show 23 - j - (24 - (n + size)) = n + size - 1 - j by omega]
      simp only [show n + size - 1 - j < size by omega, show n + size - 1 - j < 32 by omega,
        decide_true, Bool.and_true]
    · rw [if_neg hnew, if_pos (by omega)]

/-- Writing appends the lowest bits of the code. -/
theorem emit_bits_s_spec {s s' : working_state} {front : List UInt8} {bits : List Bool}
    {code : BitVec 32} {size : Nat} (hw : Wrote s front bits) (hsize : size ≤ 16)
    (h : emit_bits_s s code size = some s') :
    Wrote s' front (bits ++ bitsOf size code.toNat) := by
  obtain ⟨hlt, hzeros, data, hout, rfl⟩ := hw
  rw [emit_bits_s] at h
  split_ifs at h with hzero
  cases h
  have hmerge := fun j (hj : j < 24) =>
    getLsbD_merge code (j := j) hlt hsize hj hzeros
  have hpending : pendingBits ((code &&& BitVec.ofNat 32 (2 ^ size - 1)) <<<
        (24 - (s.put_bits + size)) ||| s.put_buffer) (s.put_bits + size) =
      pendingBits s.put_buffer s.put_bits ++ bitsOf size code.toNat := by
    rw [pendingBits, pendingBits, List.range_add, List.map_append, List.map_map, bitsOf_eq_map]
    congr 1
    · refine List.map_congr_left fun i hi => ?_
      rw [List.mem_range] at hi
      rw [hmerge i (by omega), if_pos hi]
    · refine List.map_congr_left fun i hi => ?_
      rw [List.mem_range] at hi
      rw [Function.comp_apply, hmerge _ (by omega), if_neg (by omega), if_pos (by omega),
        show s.put_bits + size - 1 - (s.put_bits + i) = size - 1 - i by omega]
      rfl
  rw [List.append_assoc, ← hpending]
  refine emitLoop_spec (by omega) (fun j hj hlt' => ?_) hout
  rw [hmerge j hlt', if_neg (by omega), if_neg (by omega)]

theorem emitLoop_last_dc_val (put_buffer : BitVec 32) (put_bits : Nat) (s : working_state) :
    (emitLoop put_buffer put_bits s).last_dc_val = s.last_dc_val := by
  fun_induction emitLoop put_buffer put_bits s with
  | case1 put_buffer put_bits s _ ih =>
      rw [ih, emit_stuffed]
      split_ifs <;> rfl
  | case2 => rfl

/-- Writing bits leaves the predictions alone. -/
theorem emit_bits_s_last_dc_val {s s' : working_state} {code : BitVec 32} {size : Nat}
    (h : emit_bits_s s code size = some s') : s'.last_dc_val = s.last_dc_val := by
  rw [emit_bits_s] at h
  split_ifs at h
  cases h
  exact emitLoop_last_dc_val _ _ _

/-- Flushing fills up the last byte, so that all bits are in the output. -/
theorem flush_bits_s_spec {s s' : working_state} {front : List UInt8} {bits : List Bool}
    (hw : Wrote s front bits) (h : flush_bits_s s = some s') :
    ∃ data pad, s'.output = front ++ stuff data ∧ bitsOfBytes data = bits ++ pad ∧
      pad.length < 8 ∧ s'.put_buffer = 0 ∧ s'.put_bits = 0 ∧ s'.last_dc_val = s.last_dc_val := by
  rw [flush_bits_s] at h
  cases hemit : emit_bits_s s 0x7F 7 with
  | none =>
      rw [hemit] at h
      cases h
  | some s₁ =>
      rw [hemit] at h
      cases h
      obtain ⟨hlt, -, data, hout, hbits⟩ := emit_bits_s_spec hw (by decide) hemit
      have hdc := emit_bits_s_last_dc_val hemit
      have hones : (bitsOf 7 (0x7F : BitVec 32).toNat).length = 7 := length_bitsOf _ _
      have hrest : (pendingBits s₁.put_buffer s₁.put_bits).length = s₁.put_bits := by
        rw [pendingBits, List.length_map, List.length_range]
      -- the bits that are left in the register are only ones
      rcases List.append_eq_append_iff.1 hbits with ⟨pad, hdata, hpad⟩ | ⟨more, hmore, hpad⟩
      · refine ⟨data, pad, hout, hdata, ?_, rfl, rfl, hdc⟩
        have hlen := congrArg List.length hpad
        rw [List.length_append] at hlen
        omega
      · have hlen := congrArg List.length hpad
        rw [List.length_append] at hlen
        obtain rfl : more = [] := List.eq_nil_of_length_eq_zero (by omega)
        rw [List.append_nil] at hmore
        exact ⟨data, [], hout, by rw [List.append_nil, hmore], by decide, rfl, rfl, hdc⟩

/-- Stuffed data in front of a marker is read as the data. -/
theorem segment_stuff {m : UInt8} (hzero : m ≠ 0) (hff : m ≠ 0xFF) (data rest : List UInt8) :
    Segment (stuff data ++ 0xFF :: m :: rest) data m rest := by
  induction data with
  | nil =>
      refine Segment.marker ?_
      show fetch (0xFF :: m :: rest) = _
      rw [fetch, if_pos rfl, skipPadding, if_neg hff]
      exact if_neg hzero
  | cons c data ih =>
      rw [stuff, List.flatMap_cons, ← stuff, List.append_assoc]
      refine Segment.byte ?_ ih
      by_cases hc : c = 0xFF
      · rw [if_pos hc, hc]
        rfl
      · rw [if_neg hc, List.singleton_append, fetch, if_neg hc]

end IotClient.Video.HuffmanEncoding
