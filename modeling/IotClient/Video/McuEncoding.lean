import IotClient.Video.HuffmanEncoding
import IotClient.Video.McuDecoding
import Mathlib.Data.Nat.Size

/-!
# Encoding the blocks of a scan

`encode_mcu_huff` writes the coefficients of a group of blocks, and a restart marker in front of it
when a restart interval is over.

* `encodeScan`: the groups of a scan, and the flush at its end.
-/

set_option autoImplicit false

namespace IotClient.Video.McuEncoding

open IotClient.Foundation.PrefixCodes
open IotClient.Video.HuffmanDecoding
open IotClient.Video.HuffmanEncoding
open IotClient.Video.McuDecoding

def MAX_COEF_BITS : Nat := 10

/-- The loop that counts the bits of a magnitude. -/
def countBits (nbits temp : Nat) : Nat :=
  if temp = 0 then nbits else countBits (nbits + 1) (temp >>> 1)
termination_by temp
decreasing_by
  rw [Nat.shiftRight_eq_div_pow]
  omega

/-- `temp2`: a negative value is decremented, so that its lowest bits are a complement. -/
def complemented (v : Int) : BitVec 32 := BitVec.ofInt 32 (if v < 0 then v - 1 else v)

/-- Emitting the code of a symbol. -/
def emitSymbol (tbl : c_derived_tbl) (i : Nat) (s : working_state) : Option working_state :=
  emit_bits_s s (BitVec.ofNat 32 (tbl.ehufco i)) (tbl.ehufsi i)

/-- The loop for runs of more than 15 zeros. -/
def emitRuns (actbl : c_derived_tbl) (r : Nat) (s : working_state) : Option (Nat × working_state) :=
  if 15 < r then
    match emitSymbol actbl 0xF0 s with
    | none => none
    | some s => emitRuns actbl (r - 16) s
  else some (r, s)
termination_by r

/-- The coefficients from `k` on, `n` of them; `r` is the run of zeros in front of them. -/
def encodeAC (actbl : c_derived_tbl) (block : JBLOCK) : (n k r : Nat) → working_state →
    Option (Nat × working_state)
  | 0, _, r, s => some (r, s)
  | n + 1, k, r, s =>
      let temp := (block (naturalOrder k)).toInt
      if temp = 0 then encodeAC actbl block n (k + 1) (r + 1) s
      else
        match emitRuns actbl r s with
        | none => none
        | some (r, s) =>
            let nbits := countBits 1 (temp.natAbs >>> 1)
            if MAX_COEF_BITS < nbits then none
            else
              match emitSymbol actbl ((r <<< 4) + nbits) s with
              | none => none
              | some s =>
                  match emit_bits_s s (complemented temp) nbits with
                  | none => none
                  | some s => encodeAC actbl block n (k + 1) 0 s

/-- The difference of a DC coefficient. -/
def encodeDC (dctbl : c_derived_tbl) (diff : Int) (s : working_state) : Option working_state :=
  let nbits := countBits 0 diff.natAbs
  if MAX_COEF_BITS + 1 < nbits then none
  else
    match emitSymbol dctbl nbits s with
    | none => none
    | some s => if nbits ≠ 0 then emit_bits_s s (complemented diff) nbits else some s

def encode_one_block (s : working_state) (block : JBLOCK) (last_dc_val : Int)
    (dctbl actbl : c_derived_tbl) : Option working_state :=
  match encodeDC dctbl ((block 0).toInt - last_dc_val) s with
  | none => none
  | some s =>
      match encodeAC actbl block 63 1 0 s with
      | none => none
      | some (r, s) => if 0 < r then emitSymbol actbl 0 s else some s

/-- What the encoder is told about a scan. -/
structure EncodeInfo where
  comps_in_scan : Nat
  blocks_in_MCU : Nat
  MCU_membership : Nat → Nat
  dc_tbls : Nat → c_derived_tbl
  ac_tbls : Nat → c_derived_tbl
  restart_interval : UInt32

/-- `huff_entropy_encoder`. -/
structure huff_entropy_encoder where
  saved : working_state
  restarts_to_go : UInt32
  next_restart_num : Nat

/-- The encoder reads the same fields as the decoder. -/
abbrev jpeg_compress_struct := jpeg_decompress_struct

/-- `start_pass_huff`, for a scan that is neither progressive nor only counted; `none` is
`error_exit`. `output` is what has been written in front of the scan. -/
def start_pass_huff (cinfo : jpeg_compress_struct) (dc ac : Nat → c_derived_tbl)
    (last_dc_val : Nat → Int) (output : List UInt8) : Option (EncodeInfo × huff_entropy_encoder) :=
  match makeTables (jpeg_make_c_derived_tbl cinfo.tables) cinfo.cur_comp_info
      cinfo.comps_in_scan 0 dc ac with
  | none => none
  | some (dc, ac) =>
      some
        ({ comps_in_scan := cinfo.comps_in_scan
           blocks_in_MCU := cinfo.blocks_in_MCU
           MCU_membership := cinfo.MCU_membership
           dc_tbls := fun ci => dc (cinfo.cur_comp_info ci).dc_tbl_no
           ac_tbls := fun ci => ac (cinfo.cur_comp_info ci).ac_tbl_no
           restart_interval := cinfo.restart_interval },
         { saved :=
             { output := output
               put_buffer := 0
               put_bits := 0
               last_dc_val := fun ci =>
                 if ci < cinfo.comps_in_scan then 0 else last_dc_val ci }
           restarts_to_go := cinfo.restart_interval
           next_restart_num := 0 })

def emit_restart_s (info : EncodeInfo) (s : working_state) (restart_num : Nat) :
    Option working_state :=
  match flush_bits_s s with
  | none => none
  | some s =>
      let s := emit_byte_s (emit_byte_s s 0xFF) (UInt8.ofNat (0xD0 + restart_num))
      some { s with
        last_dc_val := fun ci => if ci < info.comps_in_scan then 0 else s.last_dc_val ci }

/-- The blocks from `blkn` on, `n` of them. -/
def encodeBlocks (info : EncodeInfo) (MCU_data : Nat → JBLOCK) : (n blkn : Nat) → working_state →
    Option working_state
  | 0, _, s => some s
  | n + 1, blkn, s =>
      let ci := info.MCU_membership blkn
      match encode_one_block s (MCU_data blkn) (s.last_dc_val ci) (info.dc_tbls ci)
          (info.ac_tbls ci) with
      | none => none
      | some s =>
          encodeBlocks info MCU_data n (blkn + 1)
            { s with
              last_dc_val := Function.update s.last_dc_val ci (MCU_data blkn 0).toInt }

def encode_mcu_huff (info : EncodeInfo) (e : huff_entropy_encoder) (MCU_data : Nat → JBLOCK) :
    Option huff_entropy_encoder :=
  match (if info.restart_interval ≠ 0 ∧ e.restarts_to_go = 0 then
      emit_restart_s info e.saved e.next_restart_num else some e.saved) with
  | none => none
  | some s =>
      match encodeBlocks info MCU_data info.blocks_in_MCU 0 s with
      | none => none
      | some s =>
          if info.restart_interval ≠ 0 then
            if e.restarts_to_go = 0 then
              some
                { saved := s
                  restarts_to_go := info.restart_interval - 1
                  next_restart_num := (e.next_restart_num + 1) &&& 7 }
            else some { e with saved := s, restarts_to_go := e.restarts_to_go - 1 }
          else some { e with saved := s }

/-- The groups of a scan and `finish_pass_huff`: what has been written at its end. -/
def encodeScan (info : EncodeInfo) : List (Nat → JBLOCK) → huff_entropy_encoder →
    Option (List UInt8)
  | [], e => (flush_bits_s e.saved).map working_state.output
  | MCU_data :: mcus, e =>
      match encode_mcu_huff info e MCU_data with
      | none => none
      | some e => encodeScan info mcus e

/-- What the start of a scan leaves. -/
theorem start_pass_huff_eq {cinfo : jpeg_compress_struct} {dc ac : Nat → c_derived_tbl}
    {last_dc_val : Nat → Int} {output : List UInt8} {info : EncodeInfo} {e : huff_entropy_encoder}
    (h : start_pass_huff cinfo dc ac last_dc_val output = some (info, e)) :
    info.comps_in_scan = cinfo.comps_in_scan ∧ info.blocks_in_MCU = cinfo.blocks_in_MCU ∧
      info.restart_interval = cinfo.restart_interval ∧
      e = { saved :=
              { output := output
                put_buffer := 0
                put_bits := 0
                last_dc_val := fun ci =>
                  if ci < cinfo.comps_in_scan then 0 else last_dc_val ci }
            restarts_to_go := cinfo.restart_interval
            next_restart_num := 0 } := by
  rw [start_pass_huff] at h
  cases hmake : makeTables (jpeg_make_c_derived_tbl cinfo.tables) cinfo.cur_comp_info
      cinfo.comps_in_scan 0 dc ac with
  | none =>
      rw [hmake] at h
      cases h
  | some p =>
      rw [hmake] at h
      cases h
      exact ⟨rfl, rfl, rfl, rfl⟩

end IotClient.Video.McuEncoding
