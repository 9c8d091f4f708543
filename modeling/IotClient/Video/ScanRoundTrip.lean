import IotClient.Video.McuEncoding
import Mathlib.Tactic.IntervalCases

/-!
# From the encoder to the decoder

What the entropy encoder writes, the entropy decoder reads back. The relation between the two is
`Coded`: what the encoder has written going from one state to another is bits, in front of which
the decoder does a certain step.

* `decodeScan_encodeScan`: for each sequence of groups of blocks, each restart interval and all
  tables, the decoder reads from the encoder's output the coefficients that went into it.
-/

set_option autoImplicit false

namespace IotClient.Video.ScanRoundTrip

open IotClient.Foundation.PrefixCodes
open IotClient.Video.HuffmanTables
open IotClient.Video.DerivedTables
open IotClient.Video.HuffmanDecoding
open IotClient.Video.HuffmanEncoding
open IotClient.Video.McuDecoding
open IotClient.Video.McuEncoding

/-- A decoder in front of exactly these bits, which has not put in zero bits so far. -/
structure Holds (s : bitread_working_state) (bits : List Bool) (m : UInt8) (rest : List UInt8) :
    Prop where
  reads : Reads s ⟨ofBits bits, bits.length, m, rest⟩
  sufficient : s.insufficient_data = false

/-- Taking the first bits. -/
theorem Holds.of_advance {s s' : bitread_working_state} {front more : List Bool} {m : UInt8}
    {rest : List UInt8} (h : Holds s (front ++ more) m rest)
    (hadvance : Advance s ⟨ofBits (front ++ more), (front ++ more).length, m, rest⟩ front.length
      s') : Holds s' more m rest := by
  obtain ⟨n, hreads, hexact⟩ := hadvance
  dsimp only at hreads hexact
  rw [ofBits_append_skip] at hreads
  rw [List.length_append] at hexact
  obtain ⟨rfl, hsame⟩ := hexact (Nat.le_add_right _ _)
  rw [Nat.add_sub_cancel_left] at hreads
  exact ⟨hreads, hsame.trans h.sufficient⟩

/-- The encoder has gone from one state to another, and in front of what it has written the decoder
does the step `p`. -/
def Coded (s s' : working_state) (p : bitread_working_state → bitread_working_state → Prop) :
    Prop :=
  ∀ front bits, Wrote s front bits → ∃ b, Wrote s' front (bits ++ b) ∧
    ∀ st more m rest, Holds st (b ++ more) m rest → ∃ st', p st st' ∧ Holds st' more m rest

theorem Coded.refl (s : working_state) : Coded s s fun st st' => st' = st := by
  intro front bits hw
  refine ⟨[], ?_, fun st more m rest h => ⟨st, rfl, h⟩⟩
  rw [List.append_nil]
  exact hw

/-- What has been written one after the other is read one after the other. -/
theorem Coded.trans {s s' s'' : working_state}
    {p q : bitread_working_state → bitread_working_state → Prop} (h : Coded s s' p)
    (h' : Coded s' s'' q) : Coded s s'' fun st st'' => ∃ st', p st st' ∧ q st' st'' := by
  intro front bits hw
  obtain ⟨b, hw', hread⟩ := h front bits hw
  obtain ⟨b', hw'', hread'⟩ := h' front (bits ++ b) hw'
  refine ⟨b ++ b', by rw [← List.append_assoc]; exact hw'', fun st more m rest hst => ?_⟩
  rw [List.append_assoc] at hst
  obtain ⟨st', hp, hst'⟩ := hread st (b' ++ more) m rest hst
  obtain ⟨st'', hq, hst''⟩ := hread' st' more m rest hst'
  exact ⟨st'', ⟨st', hp, hq⟩, hst''⟩

theorem Coded.mono {s s' : working_state}
    {p q : bitread_working_state → bitread_working_state → Prop} (h : Coded s s' p)
    (hpq : ∀ st st', p st st' → q st st') : Coded s s' q := by
  intro front bits hw
  obtain ⟨b, hw', hread⟩ := h front bits hw
  refine ⟨b, hw', fun st more m rest hst => ?_⟩
  obtain ⟨st', hp, hst'⟩ := hread st more m rest hst
  exact ⟨st', hpq st st' hp, hst'⟩

/-- The predictions are not written. -/
theorem Coded.of_last_dc_val {s s' : working_state} {last_dc_val : Nat → Int}
    {p : bitread_working_state → bitread_working_state → Prop} (h : Coded s s' p) :
    Coded s { s' with last_dc_val := last_dc_val } p := by
  intro front bits hw
  obtain ⟨b, hw', hread⟩ := h front bits hw
  exact ⟨b, ⟨hw'.put_bits_lt, hw'.zeros, hw'.bytes⟩, hread⟩

/-! ## Symbols and values -/

/-- A table of the encoder and one of the decoder for the same loaded table. -/
def SameCode (c : c_derived_tbl) (d : d_derived_tbl) : Prop :=
  ∃ htbl, Legal htbl ∧ Encodes htbl c ∧ Derived htbl d

/-- A symbol that has been written is decoded. -/
theorem coded_symbol {c : c_derived_tbl} {d : d_derived_tbl} (hsame : SameCode c d) {i : Nat}
    {s s' : working_state} (h : emitSymbol c i s = some s') :
    s'.last_dc_val = s.last_dc_val ∧ Coded s s' fun st st' =>
      ∃ sym, HUFF_DECODE d st = some (sym, st') ∧ sym.toNat = i := by
  obtain ⟨htbl, hlegal, hencodes, hd⟩ := hsame
  rw [emitSymbol] at h
  refine ⟨emit_bits_s_last_dc_val h, fun front bits hw => ?_⟩
  have hi : c.ehufsi i ≠ 0 := by
    intro hzero
    rw [hzero, emit_bits_s, if_pos rfl] at h
    cases h
  obtain ⟨l, k, hpos, hle, hk, hval, hsi, hco⟩ := hencodes i hi
  rw [hsi, hco] at h
  have hbound : first (counts htbl) l + k < 2 ^ l := by
    have := hlegal l hpos hle
    omega
  have hsmall : 2 ^ l ≤ 2 ^ 16 := Nat.pow_le_pow_right (by decide) hle
  have hcode : (BitVec.ofNat 32 (first (counts htbl) l + k)).toNat = first (counts htbl) l + k := by
    rw [BitVec.toNat_ofNat]
    exact Nat.mod_eq_of_lt (by omega)
  have hw' := emit_bits_s_spec hw hle h
  rw [hcode] at hw'
  refine ⟨_, hw', fun st more m rest hst => ?_⟩
  -- the bits begin with the code word
  have hbegins : Begins (counts htbl) (ofBits (bitsOf l (first (counts htbl) l + k) ++ more)) l k :=
    ⟨hk, by rw [value_ofBits, Nat.mod_eq_of_lt hbound]⟩
  have hfound : found htbl (ofBits (bitsOf l (first (counts htbl) l + k) ++ more)) = some (l, k) :=
    (find_eq_some_iff (Nat.zero_le _)).2 ⟨hpos, by omega, hbegins⟩
  obtain ⟨st', hdecode, hadvance⟩ := HUFF_DECODE_spec hd hst.reads
  rw [hfound] at hdecode hadvance
  refine ⟨st', ⟨_, hdecode, hval⟩, hst.of_advance ?_⟩
  rw [length_bitsOf]
  exact hadvance

theorem countBits_eq (nbits temp : Nat) : countBits nbits temp = nbits + Nat.size temp := by
  induction temp using Nat.strongRecOn generalizing nbits with
  | _ temp ih =>
      rw [countBits]
      by_cases hzero : temp = 0
      · rw [if_pos hzero, hzero, Nat.size_zero, Nat.add_zero]
      · have hhalf : temp >>> 1 = temp / 2 := by rw [Nat.shiftRight_eq_div_pow, Nat.pow_one]
        rw [if_neg hzero, hhalf, ih _ (Nat.div_lt_self (Nat.pos_of_ne_zero hzero) (by decide))]
        have hsize : Nat.size temp = Nat.size (temp / 2) + 1 := by
          conv_lhs => rw [← Nat.bit_bodd_div2 temp]
          rw [Nat.size_bit, Nat.div2_val]
          rw [Nat.bit_bodd_div2]
          exact hzero
        omega

/-- A value whose magnitude has some bits is what its bits extend to. -/
theorem HUFF_EXTEND_complemented {v : Int} {n : Nat} (hpos : 1 ≤ n) (hn : n ≤ 15)
    (hlow : 2 ^ (n - 1) ≤ v.natAbs) (hhigh : v.natAbs < 2 ^ n) :
    HUFF_EXTEND ((complemented v).toNat % 2 ^ n) n = v := by
  rw [HUFF_EXTEND, BIT_MASK_eq hn, BIT_MASK_eq (by omega), complemented, BitVec.toNat_ofInt,
    BitVec.toNat_ofNat, BitVec.toNat_ofNat]
  interval_cases n <;> simp only [Nat.reducePow, Nat.reduceSub, Nat.reduceMod] at * <;>
    split_ifs <;> omega

/-- A value that has been written is read. -/
theorem coded_value {v : Int} {n : Nat} (hpos : 1 ≤ n) (hn : n ≤ 15)
    (hlow : 2 ^ (n - 1) ≤ v.natAbs) (hhigh : v.natAbs < 2 ^ n) {s s' : working_state}
    (h : emit_bits_s s (complemented v) n = some s') :
    s'.last_dc_val = s.last_dc_val ∧ Coded s s' fun st st' =>
      ∃ st₁ x, CHECK_BIT_BUFFER st n = some st₁ ∧ GET_BITS st₁ n = (x, st') ∧
        HUFF_EXTEND x n = v := by
  refine ⟨emit_bits_s_last_dc_val h, fun front bits hw => ?_⟩
  refine ⟨_, emit_bits_s_spec hw (by omega) h, fun st more m rest hst => ?_⟩
  obtain ⟨st', ⟨st₁, hcheck, hget⟩, hadvance⟩ := exists_GET_BITS hst.reads hn
  dsimp only at hget
  rw [value_ofBits] at hget
  refine ⟨st', ⟨st₁, _, hcheck, hget, HUFF_EXTEND_complemented hpos hn hlow hhigh⟩,
    hst.of_advance ?_⟩
  rw [length_bitsOf]
  exact hadvance

/-! ## Coefficients -/

/-- The zigzag order visits each coefficient once. -/
theorem naturalOrder_inj {j k : Nat} (hj : j < 64) (hk : k < 64)
    (h : naturalOrder j = naturalOrder k) : j = k := by
  have hall : ∀ i < 64, jpeg_natural_order.idxOf (naturalOrder i) = i := by decide +kernel
  rw [← hall j hj, ← hall k hk, h]

theorem exists_naturalOrder {i : Nat} (hi : i < 64) : ∃ k, k < 64 ∧ naturalOrder k = i := by
  have hall : ∀ i < 64, jpeg_natural_order.idxOf i < 64 ∧
      naturalOrder (jpeg_natural_order.idxOf i) = i := by decide +kernel
  exact ⟨_, hall i hi⟩

/-- A block that has the coefficients up to `k` in zigzag order, and zeros behind them. -/
structure Partial (orig blk : JBLOCK) (k : Nat) : Prop where
  eq : ∀ j, j < k → j < 64 → blk (naturalOrder j) = orig (naturalOrder j)
  zero : ∀ j, k ≤ j → j < 64 → blk (naturalOrder j) = 0

/-- Storing the next coefficient behind a run of zeros. -/
theorem Partial.store {orig blk : JBLOCK} {k j : Nat} (h : Partial orig blk k) (hkj : k ≤ j)
    (hj : j < 64)
    (hzeros : ∀ i, k ≤ i → i < j → orig (naturalOrder i) = 0) :
    Partial orig (Function.update blk (naturalOrder j) (orig (naturalOrder j))) (j + 1) := by
  constructor
  · intro i hi hlt
    by_cases heq : i = j
    · rw [heq, Function.update_self]
    · rw [Function.update_of_ne fun h => heq (naturalOrder_inj hlt hj h)]
      by_cases hik : i < k
      · exact h.eq i hik hlt
      · rw [h.zero i (by omega) hlt, hzeros i (by omega) (by omega)]
  · intro i hi hlt
    rw [Function.update_of_ne fun h => by
      have := naturalOrder_inj hlt hj h
      omega]
    exact h.zero i (by omega) hlt

variable {c : c_derived_tbl} {d : d_derived_tbl} {s s' : working_state}

/-- Runs of sixteen zeros are skipped. -/
theorem coded_runs (hsame : SameCode c d) {r r' : Nat} (h : emitRuns c r s = some (r', s')) :
    s'.last_dc_val = s.last_dc_val ∧ r' ≤ 15 ∧ r' ≤ r ∧ Coded s s' fun st st' =>
      ∀ k blk, k + r < 64 → acLoop d 64 k blk st = acLoop d 64 (k + (r - r')) blk st' := by
  induction r using Nat.strongRecOn generalizing s with
  | _ r ih =>
      rw [emitRuns] at h
      by_cases hr : 15 < r
      · rw [if_pos hr] at h
        cases hemit : emitSymbol c 0xF0 s with
        | none =>
            rw [hemit] at h
            cases h
        | some s₁ =>
            rw [hemit] at h
            obtain ⟨hdc, hcoded⟩ := coded_symbol hsame hemit
            obtain ⟨hdc', hle, hle', hcoded'⟩ := ih (r - 16) (by omega) h
            refine ⟨hdc'.trans hdc, hle, by omega, (hcoded.trans hcoded').mono ?_⟩
            rintro st st' ⟨st₁, ⟨sym, hdecode, hsym⟩, hloop⟩ k blk hk
            rw [acLoop, if_pos (by omega), hdecode]
            dsimp only
            rw [hsym, if_neg (by decide), if_neg (by decide), hloop _ _ (by omega)]
            congr 1
            omega
      · rw [if_neg hr] at h
        cases h
        refine ⟨rfl, by omega, Nat.le_refl r', (Coded.refl s').mono ?_⟩
        rintro st st' rfl k blk hk
        rw [Nat.sub_self, Nat.add_zero]

/-- What the decoder has done when it has read the coefficients of a block from `k` on. -/
def ReadsBlock (d : d_derived_tbl) (orig : JBLOCK) (k : Nat) (st st' : bitread_working_state) :
    Prop :=
  ∀ blk, Partial orig blk k → ∃ eob k' blk', acLoop d 64 k blk st = some (eob, k', blk', st') ∧
    (eob = false → 64 ≤ k') ∧ ∀ i, i < 64 → blk' i = orig i

/-- A block is read when all that is left of it is zero. -/
theorem eq_of_partial {orig blk : JBLOCK} {k : Nat} (h : Partial orig blk k)
    (hzeros : ∀ j, k ≤ j → j < 64 → orig (naturalOrder j) = 0) {i : Nat} (hi : i < 64) :
    blk i = orig i := by
  obtain ⟨j, hj, rfl⟩ := exists_naturalOrder hi
  by_cases hjk : j < k
  · exact h.eq j hjk hj
  · rw [h.zero j (by omega) hj, hzeros j (by omega) hj]

/-- The number of bits of a magnitude that is not zero. -/
theorem countBits_one {v : Int} (hv : v ≠ 0) :
    1 ≤ countBits 1 (v.natAbs >>> 1) ∧ 2 ^ (countBits 1 (v.natAbs >>> 1) - 1) ≤ v.natAbs ∧
      v.natAbs < 2 ^ countBits 1 (v.natAbs >>> 1) := by
  have hloop : countBits 1 (v.natAbs >>> 1) = countBits 0 v.natAbs := by
    rw [countBits.eq_def 0, if_neg (Int.natAbs_ne_zero.2 hv)]
  rw [hloop, countBits_eq, Nat.zero_add]
  have hpos : 0 < Nat.size v.natAbs := Nat.size_pos.2 (Int.natAbs_pos.2 hv)
  exact ⟨hpos, Nat.lt_size.1 (by omega), Nat.lt_size_self _⟩

/-- A run and a number of bits are read back from their symbol. -/
theorem symbol_parts (r : Nat) {n : Nat} (hn : n < 16) :
    ((r <<< 4) + n) >>> 4 = r ∧ ((r <<< 4) + n) &&& 15 = n := by
  have hmod := Nat.and_two_pow_sub_one_eq_mod ((r <<< 4) + n) 4
  rw [Nat.shiftLeft_eq] at *
  rw [Nat.shiftRight_eq_div_pow]
  constructor
  · omega
  · rw [show (15 : Nat) = 2 ^ 4 - 1 by decide, hmod]
    omega

/-- The coefficients from `k` on, behind a run of `r` zeros, and the end of the block. -/
theorem coded_AC (hsame : SameCode c d) {orig : JBLOCK} {n k r r' : Nat} {s'' : working_state}
    (hk : k + n = 64) (hr : r < k)
    (hzeros : ∀ j, k - r ≤ j → j < k → orig (naturalOrder j) = 0)
    (h : encodeAC c orig n k r s = some (r', s'))
    (hend : (if 0 < r' then emitSymbol c 0 s' else some s') = some s'') :
    s''.last_dc_val = s.last_dc_val ∧ Coded s s'' (ReadsBlock d orig (k - r)) := by
  induction n generalizing k r s with
  | zero =>
      obtain rfl : k = 64 := by omega
      cases h
      by_cases hrun : 0 < r'
      · rw [if_pos hrun] at hend
        obtain ⟨hdc, hcoded⟩ := coded_symbol hsame hend
        refine ⟨hdc, hcoded.mono ?_⟩
        -- the end of the block stands for the zeros that are left
        rintro st st' ⟨sym, hdecode, hsym⟩ blk hpartial
        refine ⟨true, 64 - r', blk, ?_, Bool.noConfusion,
          fun i hi => eq_of_partial hpartial hzeros hi⟩
        rw [acLoop, if_pos (by omega), hdecode]
        dsimp only
        rw [hsym, if_neg (by decide), if_pos (by decide)]
      · rw [if_neg hrun] at hend
        cases hend
        obtain rfl : r' = 0 := by omega
        refine ⟨rfl, (Coded.refl s').mono ?_⟩
        rintro st st' rfl blk hpartial
        refine ⟨false, 64, blk, ?_, fun _ => Nat.le_refl 64,
          fun i hi => eq_of_partial hpartial hzeros hi⟩
        rw [Nat.sub_zero, acLoop, if_neg (by decide)]
  | succ n ih =>
      rw [encodeAC] at h
      dsimp only at h
      by_cases htemp : (orig (naturalOrder k)).toInt = 0
      · -- one more zero in the run
        rw [if_pos htemp] at h
        have hzero : orig (naturalOrder k) = 0 := Int16.toInt_inj.1 htemp
        have hrest := ih (k := k + 1) (r := r + 1) (by omega) (by omega) (fun j hle hlt => ?_) h
        · rwa [Nat.add_sub_add_right] at hrest
        · rcases Nat.lt_succ_iff_lt_or_eq.1 hlt with hj | rfl
          · exact hzeros j (by omega) hj
          · exact hzero
      · rw [if_neg htemp] at h
        cases hruns : emitRuns c r s with
        | none =>
            rw [hruns] at h
            cases h
        | some p =>
            obtain ⟨r₁, s₁⟩ := p
            rw [hruns] at h
            dsimp only at h
            obtain ⟨hdc₁, hle, hle', hcoded₁⟩ := coded_runs hsame hruns
            obtain ⟨hpos, hlow, hhigh⟩ := countBits_one htemp
            generalize countBits 1 ((orig (naturalOrder k)).toInt.natAbs >>> 1) = nbits at *
            split_ifs at h with hmany
            rw [MAX_COEF_BITS] at hmany
            cases hemit : emitSymbol c ((r₁ <<< 4) + nbits) s₁ with
            | none =>
                rw [hemit] at h
                cases h
            | some s₂ =>
                rw [hemit] at h
                dsimp only at h
                cases hvalue : emit_bits_s s₂ (complemented (orig (naturalOrder k)).toInt)
                    nbits with
                | none =>
                    rw [hvalue] at h
                    cases h
                | some s₃ =>
                    rw [hvalue] at h
                    obtain ⟨hdc₂, hcoded₂⟩ := coded_symbol hsame hemit
                    obtain ⟨hdc₃, hcoded₃⟩ := coded_value hpos (by omega) hlow hhigh hvalue
                    obtain ⟨hdc₄, hcoded₄⟩ := ih (k := k + 1) (r := 0) (by omega) (by omega)
                      (fun j hle hlt => by omega) h
                    obtain ⟨hrun, hbits⟩ := symbol_parts r₁ (show nbits < 16 by omega)
                    refine ⟨hdc₄.trans (hdc₃.trans (hdc₂.trans hdc₁)),
                      (((hcoded₁.trans hcoded₂).trans hcoded₃).trans hcoded₄).mono ?_⟩
                    rintro st st' ⟨st₃, ⟨st₂, ⟨st₁, hloop, sym, hdecode, hsym⟩, st₂', x, hcheck,
                      hget, hextend⟩, hrest⟩ blk hpartial
                    have hat : k - r + (r - r₁) + r₁ = k := by omega
                    have hstore := hpartial.store (by omega) (by omega) hzeros
                    rw [hloop _ _ (by omega), acLoop, if_pos (by omega), hdecode]
                    dsimp only
                    rw [hsym, hrun, hbits, if_pos (by omega), hcheck]
                    simp only [hget, hextend, hat, Int16.ofInt_toInt]
                    exact hrest _ hstore

/-- The difference of a DC coefficient. -/
theorem coded_DC (hsame : SameCode c d) {diff : Int} (h : encodeDC c diff s = some s') :
    s'.last_dc_val = s.last_dc_val ∧ Coded s s' fun st st' =>
      ∃ sym st₁, HUFF_DECODE d st = some (sym, st₁) ∧ dcBits sym.toNat st₁ = some (diff, st') := by
  rw [encodeDC] at h
  have hmany : ¬ MAX_COEF_BITS + 1 < countBits 0 diff.natAbs := by
    intro hmany
    rw [if_pos hmany] at h
    cases h
  rw [if_neg hmany] at h
  rw [MAX_COEF_BITS] at hmany
  cases hemit : emitSymbol c (countBits 0 diff.natAbs) s with
  | none =>
      rw [hemit] at h
      cases h
  | some s₁ =>
      rw [hemit] at h
      dsimp only at h
      obtain ⟨hdc, hcoded⟩ := coded_symbol hsame hemit
      by_cases hzero : diff = 0
      · -- no bits follow the symbol
        have hcount : countBits 0 diff.natAbs = 0 := by
          rw [hzero, countBits_eq, Int.natAbs_zero, Nat.size_zero]
        rw [if_neg (not_not.2 hcount)] at h
        cases h
        refine ⟨hdc, hcoded.mono ?_⟩
        rintro st st' ⟨sym, hdecode, hsym⟩
        refine ⟨sym, st', hdecode, ?_⟩
        rw [hsym, hcount, hzero]
        rfl
      · have hloop : countBits 1 (diff.natAbs >>> 1) = countBits 0 diff.natAbs := by
          rw [countBits.eq_def 0, if_neg (Int.natAbs_ne_zero.2 hzero)]
        obtain ⟨hpos, hlow, hhigh⟩ := countBits_one hzero
        rw [hloop] at hpos hlow hhigh
        rw [if_pos (by omega)] at h
        obtain ⟨hdc', hcoded'⟩ := coded_value hpos (by omega) hlow hhigh h
        refine ⟨hdc'.trans hdc, (hcoded.trans hcoded').mono ?_⟩
        rintro st st' ⟨st₁, ⟨sym, hdecode, hsym⟩, st₂, x, hcheck, hget, hextend⟩
        refine ⟨sym, st₁, hdecode, ?_⟩
        rw [hsym, dcBits, if_pos (by omega), hcheck]
        simp only [hget, hextend]

/-! ## Blocks -/

/-- A block that has been written is decoded into a buffer of zeros. -/
theorem coded_block {dctbl actbl : c_derived_tbl} {ddc dac : d_derived_tbl}
    (hdc : SameCode dctbl ddc) (hac : SameCode actbl dac) {block : JBLOCK} {last_dc_val : Int}
    (h : encode_one_block s block last_dc_val dctbl actbl = some s') :
    s'.last_dc_val = s.last_dc_val ∧ Coded s s' fun st st' =>
      ∃ block', decodeBlock ddc dac 64 last_dc_val (fun _ => 0) st =
        some ((block 0).toInt, block', st') ∧ ∀ i, i < 64 → block' i = block i := by
  rw [encode_one_block] at h
  cases hDC : encodeDC dctbl ((block 0).toInt - last_dc_val) s with
  | none =>
      rw [hDC] at h
      cases h
  | some s₁ =>
      rw [hDC] at h
      dsimp only at h
      cases hAC : encodeAC actbl block 63 1 0 s₁ with
      | none =>
          rw [hAC] at h
          cases h
      | some p =>
          obtain ⟨r, s₂⟩ := p
          rw [hAC] at h
          obtain ⟨hlast, hcoded⟩ := coded_DC hdc hDC
          obtain ⟨hlast', hcoded'⟩ := coded_AC hac (by omega) (by omega)
            (fun j hle hlt => by omega) hAC h
          refine ⟨hlast'.trans hlast, (hcoded.trans hcoded').mono ?_⟩
          rintro st st' ⟨st₂, ⟨sym, st₁, hdecode, hdiff⟩, hread⟩
          -- the DC coefficient is the first of the block
          have hpartial : Partial block (Function.update (fun _ => 0) 0 (block 0)) 1 :=
            Partial.store (j := 0) (k := 0)
              ⟨fun j hj => absurd hj (Nat.not_lt_zero j), fun _ _ _ => rfl⟩ (Nat.le_refl 0)
              (by decide) fun i _ hi => absurd hi (Nat.not_lt_zero i)
          obtain ⟨eob, k, block', hloop, hend, heq⟩ := hread _ hpartial
          refine ⟨block', ?_, heq⟩
          rw [decodeBlock, hdecode]
          dsimp only
          rw [if_pos (by decide), hdiff]
          simp only [Int.sub_add_cancel, Int16.ofInt_toInt, hloop]
          cases eob with
          | true => rfl
          | false =>
              have hskip : skipLoop dac k st' = some st' := by
                rw [skipLoop, DCTSIZE2, if_neg (Nat.not_lt_of_le (hend rfl))]
              simp only [hskip]

/-- The decoder is told the same about a scan as the encoder, and wants all coefficients. -/
structure Matches (enc : EncodeInfo) (dec : ScanInfo) : Prop where
  comps : dec.comps_in_scan = enc.comps_in_scan
  blocks : dec.blocks_in_MCU = enc.blocks_in_MCU
  membership : dec.MCU_membership = enc.MCU_membership
  interval : dec.restart_interval = enc.restart_interval
  member : ∀ blkn, blkn < enc.blocks_in_MCU → enc.MCU_membership blkn < enc.comps_in_scan
  limit : ∀ blkn, blkn < enc.blocks_in_MCU → dec.coef_limit blkn = 64
  dc : ∀ blkn, blkn < enc.blocks_in_MCU →
    SameCode (enc.dc_tbls (enc.MCU_membership blkn)) (dec.dc_cur_tbls blkn)
  ac : ∀ blkn, blkn < enc.blocks_in_MCU →
    SameCode (enc.ac_tbls (enc.MCU_membership blkn)) (dec.ac_cur_tbls blkn)

variable {enc : EncodeInfo} {dec : ScanInfo}

/-- The coefficients of the blocks of a group agree. -/
def SameCoefs (n : Nat) (M M' : Nat → JBLOCK) : Prop := ∀ b, b < n → ∀ i, i < 64 → M' b i = M b i

/-- The predictions of the components of a scan agree. -/
def SamePred (n : Nat) (last last' : Nat → Int) : Prop := ∀ ci, ci < n → last' ci = last ci

theorem SamePred.update {n ci : Nat} {last last' : Nat → Int} (h : SamePred n last last')
    (v : Int) : SamePred n (Function.update last ci v) (Function.update last' ci v) := by
  intro i hi
  by_cases heq : i = ci
  · rw [heq, Function.update_self, Function.update_self]
  · rw [Function.update_of_ne heq, Function.update_of_ne heq]
    exact h i hi

/-- The blocks of a group from `blkn` on. -/
theorem coded_blocks (hmatch : Matches enc dec) {MCU_data : Nat → JBLOCK} {n blkn : Nat}
    (hn : blkn + n = enc.blocks_in_MCU) (h : encodeBlocks enc MCU_data n blkn s = some s') :
    Coded s s' fun st st' => ∀ (last : Nat → Int) (buffer : Nat → JBLOCK),
      SamePred enc.comps_in_scan s.last_dc_val last → (∀ b, blkn ≤ b → buffer b = fun _ => 0) →
      (∀ b, b < blkn → ∀ i, i < 64 → buffer b i = MCU_data b i) →
      ∃ last' buffer', decodeBlocks dec n blkn last buffer st = some (last', buffer', st') ∧
        SamePred enc.comps_in_scan s'.last_dc_val last' ∧
        SameCoefs enc.blocks_in_MCU MCU_data buffer' := by
  induction n generalizing blkn s with
  | zero =>
      cases h
      refine (Coded.refl s').mono ?_
      rintro st st' rfl last buffer hlast - hdone
      exact ⟨last, buffer, rfl, hlast, fun b hb => hdone b (by omega)⟩
  | succ n ih =>
      rw [encodeBlocks] at h
      cases hblock : encode_one_block s (MCU_data blkn) (s.last_dc_val (enc.MCU_membership blkn))
          (enc.dc_tbls (enc.MCU_membership blkn)) (enc.ac_tbls (enc.MCU_membership blkn)) with
      | none =>
          rw [hblock] at h
          cases h
      | some s₁ =>
          rw [hblock] at h
          obtain ⟨hdc, hcoded⟩ := coded_block (hmatch.dc blkn (by omega))
            (hmatch.ac blkn (by omega)) hblock
          have hrest := ih (by omega) h
          refine (hcoded.of_last_dc_val.trans hrest).mono ?_
          rintro st st' ⟨st₁, ⟨block', hdecode, heq⟩, hblocks⟩ last buffer hlast hzero hdone
          have hpred := hlast _ (hmatch.member blkn (by omega))
          rw [hdc] at hblocks
          obtain ⟨last', buffer', hrun, hlast', hsame⟩ := hblocks
            (Function.update last (enc.MCU_membership blkn) (MCU_data blkn 0).toInt)
            (Function.update buffer blkn block') (hlast.update _)
            (fun b hb => by rw [Function.update_of_ne (by omega), hzero b (by omega)])
            (fun b hb i hi => by
              rcases Nat.lt_succ_iff_lt_or_eq.1 hb with hlt | rfl
              · rw [Function.update_of_ne (by omega)]
                exact hdone b hlt i hi
              · rw [Function.update_self]
                exact heq i hi)
          refine ⟨last', buffer', ?_, hlast', hsame⟩
          rw [decodeBlocks, hmatch.membership, hmatch.limit blkn (by omega),
            hzero blkn (Nat.le_refl blkn), hpred, hdecode]
          exact hrun

/-! ## Groups and restarts -/

theorem length_bitsOfBytes (data : List UInt8) : (bitsOfBytes data).length = 8 * data.length := by
  induction data with
  | nil => rfl
  | cons c data ih =>
      rw [bitsOfBytes, List.flatMap_cons, ← bitsOfBytes, List.length_append, length_bitsOf, ih,
        List.length_cons, Nat.mul_succ, Nat.add_comm]

/-- A decoder with an empty register in front of stuffed data and a marker. -/
theorem holds_stuff {st : bitread_working_state} {m : UInt8} (hzero : m ≠ 0) (hff : m ≠ 0xFF)
    {data rest : List UInt8} (hbits : st.bits_left = 0) (hunread : st.unread_marker = 0)
    (hinput : st.next_input = stuff data ++ 0xFF :: m :: rest)
    (hsufficient : st.insufficient_data = false) : Holds st (bitsOfBytes data) m rest := by
  refine ⟨⟨by omega, data, Or.inl ⟨hunread, ?_⟩, ?_, fun i => ?_⟩, hsufficient⟩
  · rw [hinput]
    exact segment_stuff hzero hff data rest
  · rw [hbits, Nat.zero_add, length_bitsOfBytes]
  · rw [hbits, if_neg (Nat.not_lt_zero i), Nat.sub_zero]
    rfl

/-- The byte of a restart marker. -/
theorem restart_marker {n : Nat} (hn : n ≤ 7) :
    (UInt8.ofNat (0xD0 + n)).toNat = 0xD0 + n ∧ UInt8.ofNat (0xD0 + n) ≠ 0 ∧
      UInt8.ofNat (0xD0 + n) ≠ 0xFF := by
  have hall : ∀ i : Fin 8, (UInt8.ofNat (0xD0 + i.val)).toNat = 0xD0 + i.val ∧
      UInt8.ofNat (0xD0 + i.val) ≠ 0 ∧ UInt8.ofNat (0xD0 + i.val) ≠ 0xFF := by decide
  exact hall ⟨n, Nat.lt_succ_of_le hn⟩

/-- At the expected restart marker, the bits that are left of the last byte are dropped and the
decoder is in front of the data behind the marker. -/
theorem process_restart_holds {e : huff_entropy_decoder} {pad : List Bool} {m : UInt8}
    {data rest : List UInt8} (hle : e.next_restart_num ≤ 7)
    (h : Holds e.bitstate pad (UInt8.ofNat (0xD0 + e.next_restart_num))
      (stuff data ++ 0xFF :: m :: rest)) (hzero : m ≠ 0) (hff : m ≠ 0xFF) :
    ∃ e', process_restart dec e = some e' ∧ Holds e'.bitstate (bitsOfBytes data) m rest ∧
      e'.last_dc_val = (fun ci => if ci < dec.comps_in_scan then 0 else e.last_dc_val ci) ∧
      e'.restarts_to_go = dec.restart_interval ∧
      e'.next_restart_num = (e.next_restart_num + 1) &&& 7 := by
  obtain ⟨hbyte, -, -⟩ := restart_marker hle
  have hunread : unreadMarker { e.bitstate with bits_left := 0 } =
      some (UInt8.ofNat (0xD0 + e.next_restart_num), stuff data ++ 0xFF :: m :: rest) :=
    (unreadMarker_eq h.reads).1
  have hread : read_restart_marker { e with bitstate := { e.bitstate with bits_left := 0 } } =
      some { e with
        bitstate :=
          { e.bitstate with
            next_input := stuff data ++ 0xFF :: m :: rest, unread_marker := 0, bits_left := 0 }
        next_restart_num := (e.next_restart_num + 1) &&& 7 } := by
    rw [read_restart_marker]
    simp only [hunread, hbyte, if_true]
  rw [process_restart]
  simp only [hread, if_true]
  exact ⟨_, rfl, holds_stuff hzero hff rfl rfl rfl rfl, rfl, rfl, rfl⟩

/-- Encoder and decoder between two groups. -/
structure Sync (enc : EncodeInfo) (e : huff_entropy_encoder) (d : huff_entropy_decoder) :
    Prop where
  dc : SamePred enc.comps_in_scan e.saved.last_dc_val d.last_dc_val
  restarts : enc.restart_interval ≠ 0 → d.restarts_to_go = e.restarts_to_go
  number : d.next_restart_num = e.next_restart_num

/-- The blocks of a group behind a restart, or without one. -/
theorem decode_mcu_of_blocks {e e₁ : huff_entropy_decoder} {MCU_data : Nat → JBLOCK}
    {last_dc_val : Nat → Int} {st : bitread_working_state}
    (hrestart : (if dec.restart_interval ≠ 0 ∧ e.restarts_to_go = 0 then process_restart dec e
      else some e) = some e₁)
    (hsufficient : e₁.bitstate.insufficient_data = false)
    (hblocks : decodeBlocks dec dec.blocks_in_MCU 0 e₁.last_dc_val (fun _ _ => 0) e₁.bitstate =
      some (last_dc_val, MCU_data, st)) :
    decode_mcu dec e (fun _ _ => 0) =
      some ({ e₁ with
        bitstate := st
        last_dc_val := last_dc_val
        restarts_to_go := e₁.restarts_to_go - 1 }, MCU_data) := by
  rw [decode_mcu]
  simp only [hrestart, hsufficient, hblocks]
  rfl

/-- What the rest of a scan looks like from some group on: the bits of the current segment and what
is behind its marker, in front of which the decoder reads the groups that are left. -/
structure Written (enc : EncodeInfo) (dec : ScanInfo) (e : huff_entropy_encoder)
    (front : List UInt8) (bits : List Bool) (mcus : List (Nat → JBLOCK)) (all : List UInt8)
    (data : List UInt8) (future : List Bool) (m : UInt8) (rest : List UInt8) : Prop where
  all_eq : all = front ++ stuff data ++ 0xFF :: m :: rest
  marker_ne : m ≠ 0 ∧ m ≠ 0xFF
  data_eq : bitsOfBytes data = bits ++ future
  reads : ∀ d, Sync enc e d → Holds d.bitstate future m rest →
    ∃ mcus' d', decodeScan dec mcus.length d = some (mcus', d') ∧
      List.Forall₂ (SameCoefs enc.blocks_in_MCU) mcus mcus'

/-- The decoder reads a group, and then those behind it. -/
theorem decodeScan_cons {d : huff_entropy_decoder} (d₁ : huff_entropy_decoder)
    {e' : huff_entropy_encoder}
    {last : Nat → Int} {MCU_data buffer : Nat → JBLOCK} {mcus : List (Nat → JBLOCK)}
    {st : bitread_working_state} {future : List Bool} {m : UInt8} {rest : List UInt8}
    (hrestart : (if dec.restart_interval ≠ 0 ∧ d.restarts_to_go = 0 then process_restart dec d
      else some d) = some d₁)
    (hsufficient : d₁.bitstate.insufficient_data = false)
    (hblocks : decodeBlocks dec dec.blocks_in_MCU 0 d₁.last_dc_val (fun _ _ => 0) d₁.bitstate =
      some (last, buffer, st))
    (hlast : SamePred enc.comps_in_scan e'.saved.last_dc_val last)
    (hcoefs : SameCoefs enc.blocks_in_MCU MCU_data buffer) (hst : Holds st future m rest)
    (hrestarts : enc.restart_interval ≠ 0 → d₁.restarts_to_go - 1 = e'.restarts_to_go)
    (hnumber : d₁.next_restart_num = e'.next_restart_num)
    (hreads : ∀ d, Sync enc e' d → Holds d.bitstate future m rest →
      ∃ mcus' d', decodeScan dec mcus.length d = some (mcus', d') ∧
        List.Forall₂ (SameCoefs enc.blocks_in_MCU) mcus mcus') :
    ∃ mcus' d', decodeScan dec (MCU_data :: mcus).length d = some (mcus', d') ∧
      List.Forall₂ (SameCoefs enc.blocks_in_MCU) (MCU_data :: mcus) mcus' := by
  have hmcu := decode_mcu_of_blocks hrestart hsufficient hblocks
  obtain ⟨mcus', d', hscan, hsame⟩ := hreads
    { d₁ with
      bitstate := st
      last_dc_val := last
      restarts_to_go := d₁.restarts_to_go - 1 } ⟨hlast, hrestarts, hnumber⟩ hst
  refine ⟨buffer :: mcus', d', ?_, List.Forall₂.cons hcoefs hsame⟩
  rw [List.length_cons, decodeScan]
  simp only [hmcu, hscan]

/-- What the encoder does with a group: with or without a restart in front of it. -/
theorem encode_mcu_huff_cases {e e' : huff_entropy_encoder} {MCU_data : Nat → JBLOCK}
    (h : encode_mcu_huff enc e MCU_data = some e') :
    (enc.restart_interval ≠ 0 ∧ e.restarts_to_go = 0 ∧
      ∃ s₀, emit_restart_s enc e.saved e.next_restart_num = some s₀ ∧
        encodeBlocks enc MCU_data enc.blocks_in_MCU 0 s₀ = some e'.saved ∧
        e'.restarts_to_go = enc.restart_interval - 1 ∧
        e'.next_restart_num = (e.next_restart_num + 1) &&& 7) ∨
    (¬ (enc.restart_interval ≠ 0 ∧ e.restarts_to_go = 0) ∧
      encodeBlocks enc MCU_data enc.blocks_in_MCU 0 e.saved = some e'.saved ∧
      (enc.restart_interval ≠ 0 → e'.restarts_to_go = e.restarts_to_go - 1) ∧
      e'.next_restart_num = e.next_restart_num) := by
  rw [encode_mcu_huff] at h
  by_cases hdue : enc.restart_interval ≠ 0 ∧ e.restarts_to_go = 0
  · rw [if_pos hdue] at h
    cases hrestart : emit_restart_s enc e.saved e.next_restart_num with
    | none =>
        rw [hrestart] at h
        cases h
    | some s₀ =>
        rw [hrestart] at h
        dsimp only at h
        cases hblocks : encodeBlocks enc MCU_data enc.blocks_in_MCU 0 s₀ with
        | none =>
            rw [hblocks] at h
            cases h
        | some s₁ =>
            rw [hblocks] at h
            dsimp only at h
            rw [if_pos hdue.1, if_pos hdue.2] at h
            cases h
            exact Or.inl ⟨hdue.1, hdue.2, s₀, rfl, hblocks, rfl, rfl⟩
  · rw [if_neg hdue] at h
    dsimp only at h
    cases hblocks : encodeBlocks enc MCU_data enc.blocks_in_MCU 0 e.saved with
    | none =>
        rw [hblocks] at h
        cases h
    | some s₁ =>
        rw [hblocks] at h
        dsimp only at h
        by_cases hinterval : enc.restart_interval = 0
        · rw [if_neg (not_not.2 hinterval)] at h
          cases h
          exact Or.inr ⟨hdue, rfl, fun hne => absurd hinterval hne, rfl⟩
        · rw [if_pos hinterval, if_neg fun hzero => hdue ⟨hinterval, hzero⟩] at h
          cases h
          exact Or.inr ⟨hdue, rfl, fun _ => rfl, rfl⟩

/-- A restart ends a segment with its marker and begins the next one. -/
theorem emit_restart_s_spec {s s₀ : working_state} {front : List UInt8} {bits : List Bool}
    {restart_num : Nat} (hw : Wrote s front bits)
    (h : emit_restart_s enc s restart_num = some s₀) :
    ∃ data pad, bitsOfBytes data = bits ++ pad ∧
      Wrote s₀ (front ++ stuff data ++ [0xFF, UInt8.ofNat (0xD0 + restart_num)]) [] ∧
      s₀.last_dc_val = fun ci => if ci < enc.comps_in_scan then 0 else s.last_dc_val ci := by
  rw [emit_restart_s] at h
  cases hflush : flush_bits_s s with
  | none =>
      rw [hflush] at h
      cases h
  | some s₁ =>
      rw [hflush] at h
      cases h
      obtain ⟨data, pad, hout, hdata, -, hbuffer, hbits, hdc⟩ := flush_bits_s_spec hw hflush
      refine ⟨data, pad, hdata, ⟨?_, fun j _ _ => ?_, [], ?_, ?_⟩, ?_⟩
      · show s₁.put_bits < 8
        omega
      · show s₁.put_buffer.getLsbD (23 - j) = false
        rw [hbuffer]
        exact BitVec.getLsbD_zero
      · show s₁.output ++ [0xFF] ++ [UInt8.ofNat (0xD0 + restart_num)] = _
        rw [hout]
        simp [stuff]
      · show ([] : List Bool) = [] ++ pendingBits s₁.put_buffer s₁.put_bits
        rw [hbits]
        rfl
      · funext ci
        show (if ci < enc.comps_in_scan then 0 else s₁.last_dc_val ci) = _
        rw [hdc]

/-! ## Scans -/

/-- The rest of a scan, from some group on. -/
theorem written_of_encodeScan (hmatch : Matches enc dec) {m : UInt8} (hm : m ≠ 0 ∧ m ≠ 0xFF)
    (rest : List UInt8) {mcus : List (Nat → JBLOCK)} {e : huff_entropy_encoder} {out : List UInt8}
    (h : encodeScan enc mcus e = some out) (hle : e.next_restart_num ≤ 7) {front : List UInt8}
    {bits : List Bool} (hw : Wrote e.saved front bits) :
    ∃ data future m' rest',
      Written enc dec e front bits mcus (out ++ 0xFF :: m :: rest) data future m' rest' := by
  induction mcus generalizing e front bits with
  | nil =>
      rw [encodeScan] at h
      cases hflush : flush_bits_s e.saved with
      | none =>
          rw [hflush] at h
          cases h
      | some s₁ =>
          rw [hflush] at h
          cases h
          obtain ⟨data, pad, hout, hdata, -⟩ := flush_bits_s_spec hw hflush
          refine ⟨data, pad, m, rest, ?_, hm, hdata, fun d _ _ => ⟨[], d, rfl, List.Forall₂.nil⟩⟩
          rw [hout]
  | cons MCU_data mcus ih =>
      rw [encodeScan] at h
      cases hmcu : encode_mcu_huff enc e MCU_data with
      | none =>
          rw [hmcu] at h
          cases h
      | some e' =>
          rw [hmcu] at h
          rcases encode_mcu_huff_cases hmcu with ⟨hinterval, hdue, s₀, hrestart, hblocks, hgo,
            hnumber⟩ | ⟨hno, hblocks, hgo, hnumber⟩
          · -- a restart: the next segment is that of the groups from here on
            obtain ⟨data₀, pad, hdata₀, hw₀, hdc₀⟩ := emit_restart_s_spec hw hrestart
            obtain ⟨b, hw', hread⟩ := coded_blocks hmatch (Nat.zero_add _) hblocks _ _ hw₀
            obtain ⟨data, future, m', rest', hall, hne, hdata, hreads⟩ :=
              ih h (by rw [hnumber]; exact Nat.and_le_right) hw'
            rw [List.nil_append] at hdata
            refine ⟨data₀, pad, UInt8.ofNat (0xD0 + e.next_restart_num),
              stuff data ++ 0xFF :: m' :: rest', ?_, (restart_marker hle).2, hdata₀,
              fun d hsync hst => ?_⟩
            · rw [hall]
              simp only [List.append_assoc, List.cons_append, List.nil_append]
            · rw [← hsync.number] at hst
              obtain ⟨d₁, hprocess, hst₁, hlast, hto, hnum⟩ := process_restart_holds
                (by rw [hsync.number]; exact hle) hst hne.1 hne.2
              rw [hdata] at hst₁
              obtain ⟨st', hdecode, hst'⟩ := hread _ _ _ _ hst₁
              have hpred : SamePred enc.comps_in_scan s₀.last_dc_val d₁.last_dc_val := by
                intro ci hci
                rw [hlast, hmatch.comps, hdc₀]
                exact (if_pos hci).trans (if_pos hci).symm
              obtain ⟨last, buffer, hrun, hlast', hcoefs⟩ := hdecode _ (fun _ _ => 0) hpred
                (fun _ _ => rfl) fun b hb => absurd hb (Nat.not_lt_zero b)
              refine decodeScan_cons d₁ ?_ hst₁.sufficient ?_ hlast' hcoefs hst' ?_ ?_
                hreads
              · rw [hmatch.interval, if_pos ⟨hinterval, (hsync.restarts hinterval).trans hdue⟩]
                exact hprocess
              · rw [hmatch.blocks]
                exact hrun
              · rw [hto, hmatch.interval, hgo]
                exact fun _ => rfl
              · rw [hnum, hsync.number, hnumber]
          · -- the bits of the group follow in the same segment
            obtain ⟨b, hw', hread⟩ := coded_blocks hmatch (Nat.zero_add _) hblocks _ _ hw
            obtain ⟨data, future, m', rest', hall, hne, hdata, hreads⟩ :=
              ih h (by rw [hnumber]; exact hle) hw'
            refine ⟨data, b ++ future, m', rest', hall, hne, ?_, fun d hsync hst => ?_⟩
            · rw [hdata, List.append_assoc]
            · obtain ⟨st', hdecode, hst'⟩ := hread _ _ _ _ hst
              obtain ⟨last, buffer, hrun, hlast, hcoefs⟩ := hdecode _ (fun _ _ => 0) hsync.dc
                (fun _ _ => rfl) fun b hb => absurd hb (Nat.not_lt_zero b)
              refine decodeScan_cons d ?_ hst.sufficient ?_ hlast hcoefs hst' ?_ ?_ hreads
              · refine if_neg fun hdue => ?_
                rw [hmatch.interval] at hdue
                exact hno ⟨hdue.1, (hsync.restarts hdue.1).symm.trans hdue.2⟩
              · rw [hmatch.blocks]
                exact hrun
              · intro hinterval
                rw [hsync.restarts hinterval, hgo hinterval]
              · rw [hsync.number, hnumber]

/-- The tables that the encoder and the decoder make from one loaded table have the same code. -/
theorem sameCode_of_made {tables : Tables} {isDC : Bool} {tblno : Nat} {c w : c_derived_tbl}
    {d w' : d_derived_tbl} (hc : jpeg_make_c_derived_tbl tables isDC tblno w = some c)
    (hd : jpeg_make_d_derived_tbl tables isDC tblno w' = some d) : SameCode c d := by
  obtain ⟨hn, htbl, htables, haccepted, hencodes⟩ := encodes_of_eq_some hc
  obtain ⟨hn', htbl', htables', -, rfl⟩ := jpeg_make_d_derived_tbl_eq_some_iff.1 hd
  obtain rfl : htbl = htbl' := Option.some.inj (htables.symm.trans htables')
  exact ⟨htbl, haccepted.legal, hencodes, derived_derive htbl w'⟩

/-- The decoder accepts the tables that the encoder has accepted. -/
theorem exists_d_derived {tables : Tables} {isDC : Bool} {tblno : Nat} {c w : c_derived_tbl}
    (hc : jpeg_make_c_derived_tbl tables isDC tblno w = some c) (w' : d_derived_tbl) :
    ∃ d, jpeg_make_d_derived_tbl tables isDC tblno w' = some d := by
  obtain ⟨hn, htbl, htables, haccepted, -⟩ := encodes_of_eq_some hc
  exact ⟨_, jpeg_make_d_derived_tbl_eq_some_iff.2 ⟨hn, htbl, htables, haccepted, rfl⟩⟩

/-- A component whose coefficients are all wanted. -/
def Wanted (compptr : jpeg_component_info) : Prop :=
  compptr.component_needed = true ∧ compptr.DCT_h_scaled_size = 8 ∧ compptr.DCT_v_scaled_size = 8

theorem coefLimit_of_wanted {compptr : jpeg_component_info} (h : Wanted compptr) :
    coefLimit compptr = 64 := by
  obtain ⟨hneeded, hh, hv⟩ := h
  rw [coefLimit, if_pos hneeded, hh, hv]
  decide

/-- When the encoder has started a scan, the decoder can start it, and is told the same. -/
theorem exists_start {cinfo : jpeg_decompress_struct} {dc ac : Nat → c_derived_tbl}
    {last : Nat → Int} {front : List UInt8} {enc : EncodeInfo} {e : huff_entropy_encoder}
    (h : start_pass_huff cinfo dc ac last front = some (enc, e))
    (hcomps : ∀ blkn, blkn < cinfo.blocks_in_MCU → cinfo.MCU_membership blkn < cinfo.comps_in_scan)
    (hwanted : ∀ ci, ci < cinfo.comps_in_scan → Wanted (cinfo.cur_comp_info ci))
    (dc' ac' : Nat → d_derived_tbl) (last' : Nat → Int) (input : List UInt8) :
    ∃ dec d, start_pass_huff_decoder cinfo dc' ac' last' input = some (dec, d) ∧
      Matches enc dec := by
  rw [start_pass_huff] at h
  cases hmake : makeTables (jpeg_make_c_derived_tbl cinfo.tables) cinfo.cur_comp_info
      cinfo.comps_in_scan 0 dc ac with
  | none =>
      rw [hmake] at h
      cases h
  | some p =>
      obtain ⟨dc₁, ac₁⟩ := p
      rw [hmake] at h
      cases h
      have hmade := makeTables_spec hmake fun i hi => absurd hi (Nat.not_lt_zero i)
      obtain ⟨⟨dc₂, ac₂⟩, hmake'⟩ : ∃ p, makeTables (jpeg_make_d_derived_tbl cinfo.tables)
          cinfo.cur_comp_info cinfo.comps_in_scan 0 dc' ac' = some p := by
        refine exists_makeTables dc' ac' fun i _ hi => ?_
        obtain ⟨⟨w, hw⟩, w', hw'⟩ := hmade i hi
        exact ⟨exists_d_derived hw, exists_d_derived hw'⟩
      have hmade' := makeTables_spec hmake' fun i hi => absurd hi (Nat.not_lt_zero i)
      rw [Nat.zero_add] at hmade hmade'
      refine ⟨_, _, by rw [start_pass_huff_decoder, hmake'], rfl, rfl, rfl, rfl, hcomps, ?_, ?_, ?_⟩
      · exact fun blkn hblkn => coefLimit_of_wanted (hwanted _ (hcomps blkn hblkn))
      · intro blkn hblkn
        obtain ⟨⟨w, hw⟩, -⟩ := hmade _ (hcomps blkn hblkn)
        obtain ⟨⟨w', hw'⟩, -⟩ := hmade' _ (hcomps blkn hblkn)
        exact sameCode_of_made hw hw'
      · intro blkn hblkn
        obtain ⟨-, w, hw⟩ := hmade _ (hcomps blkn hblkn)
        obtain ⟨-, w', hw'⟩ := hmade' _ (hcomps blkn hblkn)
        exact sameCode_of_made hw hw'

theorem wrote_nil (front : List UInt8) (last : Nat → Int) :
    Wrote ⟨front, 0, 0, last⟩ front [] :=
  ⟨Nat.zero_lt_succ 7, fun _ _ _ => BitVec.getLsbD_zero, [], (List.append_nil front).symm, rfl⟩

/-- The decoder reads what the encoder has written: for all tables with which the encoder starts a
scan, each restart interval and each sequence of groups that it encodes, the decoder starts the
scan, never suspends and finds the same coefficients in all blocks, when the data is followed by
any marker. -/
theorem decodeScan_encodeScan {cinfo : jpeg_decompress_struct} {dc ac : Nat → c_derived_tbl}
    {last : Nat → Int} {front out : List UInt8} {enc : EncodeInfo} {e : huff_entropy_encoder}
    {mcus : List (Nat → JBLOCK)} {m : UInt8}
    (hstart : start_pass_huff cinfo dc ac last front = some (enc, e))
    (hscan : encodeScan enc mcus e = some out)
    (hcomps : ∀ blkn, blkn < cinfo.blocks_in_MCU → cinfo.MCU_membership blkn < cinfo.comps_in_scan)
    (hwanted : ∀ ci, ci < cinfo.comps_in_scan → Wanted (cinfo.cur_comp_info ci))
    (hm : m ≠ 0 ∧ m ≠ 0xFF) (rest : List UInt8) (dc' ac' : Nat → d_derived_tbl)
    (last' : Nat → Int) :
    ∃ dec d mcus' d',
      start_pass_huff_decoder cinfo dc' ac' last'
        ((out ++ 0xFF :: m :: rest).drop front.length) = some (dec, d) ∧
      decodeScan dec mcus.length d = some (mcus', d') ∧
      List.Forall₂ (SameCoefs cinfo.blocks_in_MCU) mcus mcus' := by
  obtain ⟨hcompsEq, hblocks, hinterval, rfl⟩ := start_pass_huff_eq hstart
  -- at its start the encoder has written nothing of the scan
  have hw := wrote_nil front fun ci => if ci < cinfo.comps_in_scan then 0 else last ci
  obtain ⟨dec, d, hdecoder, hmatch⟩ := exists_start hstart hcomps hwanted dc' ac' last'
    ((out ++ 0xFF :: m :: rest).drop front.length)
  obtain ⟨data, future, m', rest', hall, hne, hdata, hreads⟩ :=
    written_of_encodeScan hmatch hm rest hscan (Nat.zero_le 7) hw
  obtain ⟨-, -, -, -, -, hd⟩ := start_pass_eq hdecoder
  rw [List.nil_append] at hdata
  have hinput : (out ++ 0xFF :: m :: rest).drop front.length =
      stuff data ++ 0xFF :: m' :: rest' := by
    rw [hall, List.append_assoc, List.drop_left]
  have hsync : Sync enc ⟨⟨front, 0, 0, fun ci => if ci < cinfo.comps_in_scan then 0 else last ci⟩,
      cinfo.restart_interval, 0⟩ d := by
    rw [hd]
    refine ⟨fun ci hci => ?_, fun _ => rfl, rfl⟩
    rw [hcompsEq] at hci
    exact (if_pos hci).trans (if_pos hci).symm
  have hholds : Holds d.bitstate future m' rest' := by
    rw [hd, ← hdata]
    exact holds_stuff hne.1 hne.2 rfl rfl hinput rfl
  obtain ⟨mcus', d', hrun, hsame⟩ := hreads d hsync hholds
  rw [hblocks] at hsame
  exact ⟨dec, d, mcus', d', hdecoder, hrun, hsame⟩

/-- A block with two coefficients. -/
def twoCoefs (v : Int16) : Nat → JBLOCK := fun _ k => if k = 0 then v else if k = 8 then -3 else 0

/-- Two groups of one block, with the restart marker `FF D0` between them. -/
theorem decodeScan_encodeScan_two :
    ∃ (tbls : Nat → c_derived_tbl) (tbls' : Nat → d_derived_tbl) (enc : EncodeInfo)
      (e : huff_entropy_encoder) (dec : ScanInfo) (d : huff_entropy_decoder)
      (mcus' : List (Nat → JBLOCK)) (d' : huff_entropy_decoder),
      start_pass_huff oneComponent tbls tbls (fun _ => 0) [] = some (enc, e) ∧
      encodeScan enc [twoCoefs 5, twoCoefs 7] e = some [0xD6, 0x1F, 0xFF, 0xD0, 0xDE, 0x1F] ∧
      start_pass_huff_decoder oneComponent tbls' tbls' (fun _ => 0)
        [0xD6, 0x1F, 0xFF, 0xD0, 0xDE, 0x1F, 0xFF, 0xD9] = some (dec, d) ∧
      decodeScan dec 2 d = some (mcus', d') ∧
      List.Forall₂ (SameCoefs 1) [twoCoefs 5, twoCoefs 7] mcus' := by
  have hboth : (start_pass_huff oneComponent (fun _ => ⟨fun _ => 0, fun _ => 0⟩)
      (fun _ => ⟨fun _ => 0, fun _ => 0⟩) (fun _ => 0) []).bind
        (fun p => encodeScan p.1 [twoCoefs 5, twoCoefs 7] p.2) =
      some [0xD6, 0x1F, 0xFF, 0xD0, 0xDE, 0x1F] := by decide +kernel
  obtain ⟨⟨enc, e⟩, hstart, hscan⟩ := Option.bind_eq_some_iff.1 hboth
  obtain ⟨dec, d, mcus', d', hdecoder, hdecode, hsame⟩ :=
    decodeScan_encodeScan (m := 0xD9) hstart hscan (fun _ _ => Nat.zero_lt_one)
      (fun _ _ => ⟨rfl, rfl, rfl⟩) ⟨by decide, by decide⟩ []
      (fun _ => ⟨fun _ => 0, fun _ => 0, ⟨[], []⟩, fun _ => 0, fun _ => 0⟩)
      (fun _ => ⟨fun _ => 0, fun _ => 0, ⟨[], []⟩, fun _ => 0, fun _ => 0⟩) fun _ => 0
  exact ⟨_, _, enc, e, dec, d, mcus', d', hstart, hscan, hdecoder, hdecode, hsame⟩

end IotClient.Video.ScanRoundTrip
