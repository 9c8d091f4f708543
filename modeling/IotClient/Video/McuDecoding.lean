import IotClient.Video.HuffmanDecoding
import Mathlib.Data.Int.Basic

/-!
# Decoding the blocks of a scan

`decode_mcu` reads the coefficients of a group of blocks. At a restart interval it drops the bits
that are left of a byte and goes on behind the next marker; when the marker is not the expected one
it decides whether to take it, to pass it or to stay in front of it.

* `decodeScan_of_closed`: in front of data that ends with a marker it never suspends, whatever the
  data is.
-/

set_option autoImplicit false

namespace IotClient.Video.McuDecoding

open IotClient.Foundation.PrefixCodes
open IotClient.Video.HuffmanTables
open IotClient.Video.DerivedTables
open IotClient.Video.HuffmanDecoding

/-- `JBLOCK`: the coefficients of a block, in natural order. -/
abbrev JBLOCK := Nat → Int16

def DCTSIZE2 : Nat := 64

/-- The natural-order position of the elements of zigzag order, with extra entries for runs that go
past the end of a block. -/
def jpeg_natural_order : List Nat :=
  [0, 1, 8, 16, 9, 2, 3, 10,
   17, 24, 32, 25, 18, 11, 4, 5,
   12, 19, 26, 33, 40, 48, 41, 34,
   27, 20, 13, 6, 7, 14, 21, 28,
   35, 42, 49, 56, 57, 50, 43, 36,
   29, 22, 15, 23, 30, 37, 44, 51,
   58, 59, 52, 45, 38, 31, 39, 46,
   53, 60, 61, 54, 47, 55, 62, 63,
   63, 63, 63, 63, 63, 63, 63, 63,
   63, 63, 63, 63, 63, 63, 63, 63]

def naturalOrder (k : Nat) : Nat := jpeg_natural_order.getD k 0

/-- Figure F.12: extending the sign bit. -/
def HUFF_EXTEND (x s : Nat) : Int :=
  if x ≤ (BIT_MASK (s - 1)).toNat then (x : Int) - (BIT_MASK s).toNat else x

/-- What the decoder is told about a scan: the blocks of a group, their components and tables, how
many of their coefficients are wanted, and after how many groups a restart marker comes. -/
structure ScanInfo where
  comps_in_scan : Nat
  blocks_in_MCU : Nat
  MCU_membership : Nat → Nat
  dc_cur_tbls : Nat → d_derived_tbl
  ac_cur_tbls : Nat → d_derived_tbl
  coef_limit : Nat → Nat
  restart_interval : UInt32

/-- `huff_entropy_decoder`, with the fields of the decompressor that decoding changes. -/
structure huff_entropy_decoder where
  bitstate : bitread_working_state
  last_dc_val : Nat → Int
  restarts_to_go : UInt32
  next_restart_num : Nat

/-! ## Restart markers -/

/-- `next_marker`: bytes are passed until a 0xFF, and then all that is 0xFF. -/
def next_marker : (afterFF : Bool) → List UInt8 → Option (UInt8 × List UInt8)
  | _, [] => none
  | false, c :: input => next_marker (decide (c = 0xFF)) input
  | true, c :: input =>
      if c = 0xFF then next_marker true input
      else if c = 0 then next_marker false input
      else some (c, input)

theorem next_marker_length {afterFF : Bool} {input rest : List UInt8} {c : UInt8}
    (h : next_marker afterFF input = some (c, rest)) : rest.length < input.length := by
  fun_induction next_marker afterFF input with
  | case1 => cases h
  | case2 b input ih => exact Nat.lt_succ_of_lt (ih h)
  | case3 input ih => exact Nat.lt_succ_of_lt (ih h)
  | case4 input _ ih => exact Nat.lt_succ_of_lt (ih h)
  | case5 =>
      cases h
      exact Nat.lt_succ_self _

/-- What to do about a marker that is not the desired one: discard it (1), go on to the next (2) or
stay in front of it (3). -/
def resyncAction (marker desired : Nat) : Nat :=
  if marker < 0xC0 then 2
  else if marker < 0xD0 ∨ 0xD7 < marker then 3
  else if marker = 0xD0 + ((desired + 1) &&& 7) ∨ marker = 0xD0 + ((desired + 2) &&& 7) then 3
  else if marker = 0xD0 + ((desired + 7) &&& 7) ∨ marker = 0xD0 + ((desired + 6) &&& 7) then 2
  else 1

/-- `jpeg_resync_to_restart`: the marker that is left unread, and the input. -/
def jpeg_resync_to_restart (desired : Nat) (marker : UInt8) (input : List UInt8) :
    Option (UInt8 × List UInt8) :=
  match resyncAction marker.toNat desired with
  | 1 => some (0, input)
  | 2 =>
      match _h : next_marker false input with
      | none => none
      | some (marker, input) => jpeg_resync_to_restart desired marker input
  | _ => some (marker, input)
termination_by input.length
decreasing_by exact next_marker_length ‹_›

/-- The marker of `read_restart_marker` before it is compared. -/
def unreadMarker (s : bitread_working_state) : Option (UInt8 × List UInt8) :=
  if s.unread_marker = 0 then next_marker false s.next_input
  else some (s.unread_marker, s.next_input)

def read_restart_marker (e : huff_entropy_decoder) : Option huff_entropy_decoder :=
  match unreadMarker e.bitstate with
  | none => none
  | some (marker, input) =>
      match (if marker.toNat = 0xD0 + e.next_restart_num then some (0, input)
        else jpeg_resync_to_restart e.next_restart_num marker input) with
      | none => none
      | some (marker, input) =>
          some { e with
            bitstate := { e.bitstate with next_input := input, unread_marker := marker }
            next_restart_num := (e.next_restart_num + 1) &&& 7 }

/-- `process_restart`; `none` is `FALSE`. -/
def process_restart (info : ScanInfo) (e : huff_entropy_decoder) : Option huff_entropy_decoder :=
  match read_restart_marker { e with bitstate := { e.bitstate with bits_left := 0 } } with
  | none => none
  | some e =>
      some { e with
        last_dc_val := fun ci => if ci < info.comps_in_scan then 0 else e.last_dc_val ci
        restarts_to_go := info.restart_interval
        bitstate := if e.bitstate.unread_marker = 0
          then { e.bitstate with insufficient_data := false } else e.bitstate }

/-! ## Blocks -/

/-- The coefficients up to the limit; the result says whether the end of the block was met. -/
def acLoop (actbl : d_derived_tbl) (coef_limit k : Nat) (block : JBLOCK)
    (s : bitread_working_state) : Option (Bool × Nat × JBLOCK × bitread_working_state) :=
  if k < coef_limit then
    match HUFF_DECODE actbl s with
    | none => none
    | some (sym, s) =>
        let r := sym.toNat >>> 4
        let n := sym.toNat &&& 15
        if n ≠ 0 then
          match CHECK_BIT_BUFFER s n with
          | none => none
          | some s =>
              match GET_BITS s n with
              | (x, s) =>
                  acLoop actbl coef_limit (k + r + 1)
                    (Function.update block (naturalOrder (k + r)) (Int16.ofInt (HUFF_EXTEND x n))) s
        else if r ≠ 15 then some (true, k, block, s)
        else acLoop actbl coef_limit (k + 15 + 1) block s
  else some (false, k, block, s)
termination_by coef_limit - k

/-- The coefficients behind the limit, whose values are discarded. -/
def skipLoop (actbl : d_derived_tbl) (k : Nat) (s : bitread_working_state) :
    Option bitread_working_state :=
  if k < DCTSIZE2 then
    match HUFF_DECODE actbl s with
    | none => none
    | some (sym, s) =>
        let r := sym.toNat >>> 4
        let n := sym.toNat &&& 15
        if n ≠ 0 then
          match CHECK_BIT_BUFFER s n with
          | none => none
          | some s => skipLoop actbl (k + r + 1) (DROP_BITS s n)
        else if r ≠ 15 then some s
        else skipLoop actbl (k + 15 + 1) s
  else some s
termination_by DCTSIZE2 - k

/-- The bits of a DC difference. -/
def dcBits (n : Nat) (s : bitread_working_state) : Option (Int × bitread_working_state) :=
  if n ≠ 0 then
    match CHECK_BIT_BUFFER s n with
    | none => none
    | some s =>
        match GET_BITS s n with
        | (x, s) => some (HUFF_EXTEND x n, s)
  else some (0, s)

/-- One block: the new prediction of its component, the coefficients and the state. -/
def decodeBlock (dctbl actbl : d_derived_tbl) (coef_limit : Nat) (last_dc_val : Int)
    (block : JBLOCK) (s : bitread_working_state) : Option (Int × JBLOCK × bitread_working_state) :=
  match HUFF_DECODE dctbl s with
  | none => none
  | some (n, s) =>
      if coef_limit ≠ 0 then
        match dcBits n.toNat s with
        | none => none
        | some (diff, s) =>
            let dc := diff + last_dc_val
            match acLoop actbl coef_limit 1 (Function.update block 0 (Int16.ofInt dc)) s with
            | none => none
            | some (true, _, block, s) => some (dc, block, s)
            | some (false, k, block, s) =>
                match skipLoop actbl k s with
                | none => none
                | some s => some (dc, block, s)
      else
        match (if n.toNat ≠ 0 then (CHECK_BIT_BUFFER s n.toNat).map (DROP_BITS · n.toNat)
          else some s) with
        | none => none
        | some s =>
            match skipLoop actbl 1 s with
            | none => none
            | some s => some (last_dc_val, block, s)

/-- The blocks from `blkn` on, `n` of them. -/
def decodeBlocks (info : ScanInfo) : (n blkn : Nat) → (last_dc_val : Nat → Int) →
    (MCU_data : Nat → JBLOCK) → bitread_working_state →
    Option ((Nat → Int) × (Nat → JBLOCK) × bitread_working_state)
  | 0, _, last_dc_val, MCU_data, s => some (last_dc_val, MCU_data, s)
  | n + 1, blkn, last_dc_val, MCU_data, s =>
      let ci := info.MCU_membership blkn
      match decodeBlock (info.dc_cur_tbls blkn) (info.ac_cur_tbls blkn) (info.coef_limit blkn)
          (last_dc_val ci) (MCU_data blkn) s with
      | none => none
      | some (dc, block, s) =>
          decodeBlocks info n (blkn + 1) (Function.update last_dc_val ci dc)
            (Function.update MCU_data blkn block) s

/-- `decode_mcu`; `none` is `FALSE`, and no permanent state has changed then. -/
def decode_mcu (info : ScanInfo) (e : huff_entropy_decoder) (MCU_data : Nat → JBLOCK) :
    Option (huff_entropy_decoder × (Nat → JBLOCK)) :=
  match (if info.restart_interval ≠ 0 ∧ e.restarts_to_go = 0 then process_restart info e
    else some e) with
  | none => none
  | some e =>
      match (if e.bitstate.insufficient_data then some (e.last_dc_val, MCU_data, e.bitstate)
        else decodeBlocks info info.blocks_in_MCU 0 e.last_dc_val MCU_data e.bitstate) with
      | none => none
      | some (last_dc_val, MCU_data, s) =>
          some ({ e with
            bitstate := s
            last_dc_val := last_dc_val
            restarts_to_go := e.restarts_to_go - 1 }, MCU_data)

/-- The groups of a scan, each with a buffer of zeros. -/
def decodeScan (info : ScanInfo) : (n : Nat) → huff_entropy_decoder →
    Option (List (Nat → JBLOCK) × huff_entropy_decoder)
  | 0, e => some ([], e)
  | n + 1, e =>
      match decode_mcu info e fun _ _ => 0 with
      | none => none
      | some (e, MCU_data) =>
          match decodeScan info n e with
          | none => none
          | some (mcus, e) => some (MCU_data :: mcus, e)

/-! ## Starting a scan -/

/-- The zigzag-order position of the elements of natural order. -/
def jpeg_zigzag_order : List (List Nat) :=
  [[0, 1, 5, 6, 14, 15, 27, 28],
   [2, 4, 7, 13, 16, 26, 29, 42],
   [3, 8, 12, 17, 25, 30, 41, 43],
   [9, 11, 18, 24, 31, 40, 44, 53],
   [10, 19, 23, 32, 39, 45, 52, 54],
   [20, 22, 33, 38, 46, 51, 55, 60],
   [21, 34, 37, 47, 50, 56, 59, 61],
   [35, 36, 48, 49, 57, 58, 62, 63]]

structure jpeg_component_info where
  dc_tbl_no : Nat
  ac_tbl_no : Nat
  component_needed : Bool
  DCT_h_scaled_size : Nat
  DCT_v_scaled_size : Nat

/-- The fields of the decompressor that the start of a scan reads. -/
structure jpeg_decompress_struct where
  comps_in_scan : Nat
  cur_comp_info : Nat → jpeg_component_info
  blocks_in_MCU : Nat
  MCU_membership : Nat → Nat
  restart_interval : UInt32
  tables : Tables

/-- Making the tables of the components from `ci` on, `n` of them. A component names its tables by
number, and a table may be made more than once. -/
def makeTables {α : Type} (make : (isDC : Bool) → (tblno : Nat) → α → Option α)
    (cur_comp_info : Nat → jpeg_component_info) : (n ci : Nat) → (dc ac : Nat → α) →
    Option ((Nat → α) × (Nat → α))
  | 0, _, dc, ac => some (dc, ac)
  | n + 1, ci, dc, ac =>
      let compptr := cur_comp_info ci
      match make true compptr.dc_tbl_no (dc compptr.dc_tbl_no),
          make false compptr.ac_tbl_no (ac compptr.ac_tbl_no) with
      | some dctbl, some actbl =>
          makeTables make cur_comp_info n (ci + 1) (Function.update dc compptr.dc_tbl_no dctbl)
            (Function.update ac compptr.ac_tbl_no actbl)
      | _, _ => none

/-- How many coefficients of a component are wanted. -/
def coefLimit (compptr : jpeg_component_info) : Nat :=
  if compptr.component_needed then
    let ci := if compptr.DCT_v_scaled_size = 0 ∨ 8 < compptr.DCT_v_scaled_size then 8
      else compptr.DCT_v_scaled_size
    let i := if compptr.DCT_h_scaled_size = 0 ∨ 8 < compptr.DCT_h_scaled_size then 8
      else compptr.DCT_h_scaled_size
    1 + (jpeg_zigzag_order.getD (ci - 1) []).getD (i - 1) 0
  else 0

/-- `start_pass_huff_decoder`; `none` is `error_exit`. `dc` and `ac` are the workspaces of the
tables and `last_dc_val` is what an earlier scan has left. The input begins with the data. -/
def start_pass_huff_decoder (cinfo : jpeg_decompress_struct) (dc ac : Nat → d_derived_tbl)
    (last_dc_val : Nat → Int) (input : List UInt8) : Option (ScanInfo × huff_entropy_decoder) :=
  match makeTables (jpeg_make_d_derived_tbl cinfo.tables) cinfo.cur_comp_info
      cinfo.comps_in_scan 0 dc ac with
  | none => none
  | some (dc, ac) =>
      let compptr blkn := cinfo.cur_comp_info (cinfo.MCU_membership blkn)
      some
        ({ comps_in_scan := cinfo.comps_in_scan
           blocks_in_MCU := cinfo.blocks_in_MCU
           MCU_membership := cinfo.MCU_membership
           dc_cur_tbls := fun blkn => dc (compptr blkn).dc_tbl_no
           ac_cur_tbls := fun blkn => ac (compptr blkn).ac_tbl_no
           coef_limit := fun blkn => coefLimit (compptr blkn)
           restart_interval := cinfo.restart_interval },
         { bitstate :=
             { next_input := input
               get_buffer := 0
               bits_left := 0
               unread_marker := 0
               insufficient_data := false }
           last_dc_val := fun ci => if ci < cinfo.comps_in_scan then 0 else last_dc_val ci
           restarts_to_go := cinfo.restart_interval
           next_restart_num := 0 })

/-! ## Data that is closed by a marker -/

/-- A marker that decoding does not go past. -/
def Terminal (m : UInt8) : Prop := 0xC0 ≤ m.toNat ∧ (m.toNat < 0xD0 ∨ 0xD7 < m.toNat)

/-- Some input has segments of data up to a marker that decoding does not go past. -/
inductive Closed : List UInt8 → Prop where
  | last {input data rest : List UInt8} {m : UInt8} :
      Segment input data m rest → Terminal m → Closed input
  | more {input data rest : List UInt8} {m : UInt8} :
      Segment input data m rest → Closed rest → Closed input

/-- A state in front of data that is closed by a marker. -/
def Ready (s : bitread_working_state) : Prop :=
  ∃ t, Reads s t ∧ (Terminal t.marker ∨ Closed t.rest)

variable {s : bitread_working_state}

theorem Ready.of_advance {t : Scan} {l : Nat} {s' : bitread_working_state}
    (hclosed : Terminal t.marker ∨ Closed t.rest) (h : Advance s t l s') : Ready s' := by
  obtain ⟨n, hreads, -⟩ := h
  exact ⟨_, hreads, hclosed⟩

/-- A symbol is decoded from any data. -/
theorem Ready.exists_symbol {htbl : JHUFF_TBL} {d : d_derived_tbl} (hd : Derived htbl d)
    (h : Ready s) :
    ∃ w s', HUFF_DECODE d s = some (symbolOf htbl w, s') ∧ Ready s' ∧
      ∀ l k, w = some (l, k) → offset (counts htbl) l + k < offset (counts htbl) 17 := by
  obtain ⟨t, hreads, hclosed⟩ := h
  obtain ⟨s', hdecode, hadvance⟩ := HUFF_DECODE_spec hd hreads
  refine ⟨_, s', hdecode, Ready.of_advance hclosed hadvance, fun l k hfound => ?_⟩
  obtain ⟨hpos, hlt, hbegins⟩ := (find_eq_some_iff (Nat.zero_le _)).1 hfound
  have hmono : offset (counts htbl) (l + 1) ≤ offset (counts htbl) 17 := offset_mono (by omega)
  have hk := hbegins.lt
  rw [offset] at hmono
  omega

/-- Bits are taken from any data. -/
theorem Ready.exists_bits {n : Nat} (hn : n ≤ 15) (h : Ready s) :
    ∃ s' x, CHECK_BIT_BUFFER s n = some s' ∧ GET_BITS s' n = (x, DROP_BITS s' n) ∧
      Ready (DROP_BITS s' n) := by
  obtain ⟨t, hreads, hclosed⟩ := h
  obtain ⟨s'', ⟨s', hcheck, hget⟩, hadvance⟩ := exists_GET_BITS hreads hn
  obtain rfl : DROP_BITS s' n = s'' := congrArg Prod.snd hget
  exact ⟨s', _, hcheck, hget, Ready.of_advance hclosed hadvance⟩

theorem land_fifteen_le (n : Nat) : n &&& 15 ≤ 15 := Nat.and_le_right

theorem acLoop_ready {htbl : JHUFF_TBL} {actbl : d_derived_tbl} (hd : Derived htbl actbl)
    (coef_limit k : Nat) (block : JBLOCK) (hs : Ready s) :
    ∃ eob k' block' s', acLoop actbl coef_limit k block s = some (eob, k', block', s') ∧
      Ready s' := by
  induction hm : coef_limit - k using Nat.strongRecOn generalizing k block s with
  | _ m ih =>
      rw [acLoop]
      by_cases hk : k < coef_limit
      · obtain ⟨w, s₁, hdecode, hs₁, -⟩ := hs.exists_symbol hd
        rw [if_pos hk, hdecode]
        dsimp only
        by_cases hn : (symbolOf htbl w).toNat &&& 15 = 0
        · rw [if_neg (not_not.2 hn)]
          by_cases hr : (symbolOf htbl w).toNat >>> 4 = 15
          · rw [if_neg (not_not.2 hr)]
            exact ih _ (by omega) (k + 15 + 1) block hs₁ rfl
          · rw [if_pos hr]
            exact ⟨true, k, block, s₁, rfl, hs₁⟩
        · obtain ⟨s₂, x, hcheck, hget, hs₂⟩ := hs₁.exists_bits (land_fifteen_le _)
          rw [if_pos hn, hcheck]
          simp only [hget]
          exact ih _ (by omega) _ _ hs₂ rfl
      · rw [if_neg hk]
        exact ⟨false, k, block, s, rfl, hs⟩

theorem skipLoop_ready {htbl : JHUFF_TBL} {actbl : d_derived_tbl} (hd : Derived htbl actbl)
    (k : Nat) (hs : Ready s) : ∃ s', skipLoop actbl k s = some s' ∧ Ready s' := by
  induction hm : DCTSIZE2 - k using Nat.strongRecOn generalizing k s with
  | _ m ih =>
      rw [skipLoop]
      by_cases hk : k < DCTSIZE2
      · obtain ⟨w, s₁, hdecode, hs₁, -⟩ := hs.exists_symbol hd
        rw [if_pos hk, hdecode]
        dsimp only
        by_cases hn : (symbolOf htbl w).toNat &&& 15 = 0
        · rw [if_neg (not_not.2 hn)]
          by_cases hr : (symbolOf htbl w).toNat >>> 4 = 15
          · rw [if_neg (not_not.2 hr)]
            exact ih _ (by omega) (k + 15 + 1) hs₁ rfl
          · rw [if_pos hr]
            exact ⟨s₁, rfl, hs₁⟩
        · obtain ⟨s₂, x, hcheck, -, hs₂⟩ := hs₁.exists_bits (land_fifteen_le _)
          rw [if_pos hn, hcheck]
          exact ih _ (by omega) _ hs₂ rfl
      · rw [if_neg hk]
        exact ⟨s, rfl, hs⟩

theorem dcBits_ready {n : Nat} (hn : n ≤ 15) (hs : Ready s) :
    ∃ diff s', dcBits n s = some (diff, s') ∧ Ready s' := by
  rw [dcBits]
  by_cases hzero : n = 0
  · rw [if_neg (not_not.2 hzero)]
    exact ⟨0, s, rfl, hs⟩
  · obtain ⟨s₁, x, hcheck, hget, hs₁⟩ := hs.exists_bits hn
    rw [if_pos hzero, hcheck]
    simp only [hget]
    exact ⟨_, _, rfl, hs₁⟩

/-- A block is decoded from any data. -/
theorem decodeBlock_ready {dcHtbl acHtbl : JHUFF_TBL} {dctbl actbl : d_derived_tbl}
    (haccepted : Accepted true dcHtbl) (hdc : Derived dcHtbl dctbl) (hac : Derived acHtbl actbl)
    (coef_limit : Nat) (last_dc_val : Int) (block : JBLOCK) (hs : Ready s) :
    ∃ dc block' s', decodeBlock dctbl actbl coef_limit last_dc_val block s =
      some (dc, block', s') ∧ Ready s' := by
  obtain ⟨w, s₁, hdecode, hs₁, hindex⟩ := hs.exists_symbol hdc
  -- the number of bits of a DC difference is checked when the table is derived
  have hn : (symbolOf dcHtbl w).toNat ≤ 15 := by
    cases w with
    | none => exact Nat.zero_le 15
    | some p =>
        obtain ⟨l, k⟩ := p
        exact UInt8.le_iff_toNat_le.1 (haccepted.symbols rfl _ (hindex l k rfl))
  rw [decodeBlock, hdecode]
  dsimp only
  by_cases hlimit : coef_limit = 0
  · rw [if_neg (not_not.2 hlimit)]
    obtain ⟨s₂, hdrop, hs₂⟩ : ∃ s₂, (if (symbolOf dcHtbl w).toNat ≠ 0 then
        (CHECK_BIT_BUFFER s₁ (symbolOf dcHtbl w).toNat).map
          (DROP_BITS · (symbolOf dcHtbl w).toNat) else some s₁) = some s₂ ∧ Ready s₂ := by
      by_cases hzero : (symbolOf dcHtbl w).toNat = 0
      · exact ⟨s₁, if_neg (not_not.2 hzero), hs₁⟩
      · obtain ⟨s₂, x, hcheck, -, hs₂⟩ := hs₁.exists_bits hn
        rw [if_pos hzero, hcheck]
        exact ⟨_, rfl, hs₂⟩
    obtain ⟨s₃, hskip, hs₃⟩ := skipLoop_ready hac 1 hs₂
    rw [hdrop]
    simp only [hskip]
    exact ⟨_, _, _, rfl, hs₃⟩
  · rw [if_pos hlimit]
    obtain ⟨diff, s₂, hbits, hs₂⟩ := dcBits_ready hn hs₁
    obtain ⟨eob, k, block', s₃, hloop, hs₃⟩ := acLoop_ready hac coef_limit 1
      (Function.update block 0 (Int16.ofInt (diff + last_dc_val))) hs₂
    rw [hbits]
    simp only [hloop]
    cases eob with
    | true => exact ⟨_, _, _, rfl, hs₃⟩
    | false =>
        obtain ⟨s₄, hskip, hs₄⟩ := skipLoop_ready hac k hs₃
        simp only [hskip]
        exact ⟨_, _, _, rfl, hs₄⟩

/-- The tables of a scan are derived from accepted ones. -/
structure TablesDerived (info : ScanInfo) : Prop where
  dc : ∀ blkn, blkn < info.blocks_in_MCU →
    ∃ htbl, Accepted true htbl ∧ Derived htbl (info.dc_cur_tbls blkn)
  ac : ∀ blkn, blkn < info.blocks_in_MCU → ∃ htbl, Derived htbl (info.ac_cur_tbls blkn)

theorem decodeBlocks_ready {info : ScanInfo} (htables : TablesDerived info) {n blkn : Nat}
    (hn : blkn + n ≤ info.blocks_in_MCU) (last_dc_val : Nat → Int) (MCU_data : Nat → JBLOCK)
    (hs : Ready s) :
    ∃ last_dc_val' MCU_data' s', decodeBlocks info n blkn last_dc_val MCU_data s =
      some (last_dc_val', MCU_data', s') ∧ Ready s' := by
  induction n generalizing blkn last_dc_val MCU_data s with
  | zero => exact ⟨last_dc_val, MCU_data, s, rfl, hs⟩
  | succ n ih =>
      obtain ⟨dcHtbl, haccepted, hdc⟩ := htables.dc blkn (by omega)
      obtain ⟨acHtbl, hac⟩ := htables.ac blkn (by omega)
      obtain ⟨dc, block, s₁, hblock, hs₁⟩ := decodeBlock_ready haccepted hdc hac
        (info.coef_limit blkn) (last_dc_val (info.MCU_membership blkn)) (MCU_data blkn) hs
      rw [decodeBlocks]
      simp only [hblock]
      exact ih (by omega) _ _ hs₁

/-! ## Going on behind a marker -/

theorem next_marker_of_skipPadding {input rest : List UInt8} {c : UInt8}
    (h : skipPadding input = some (c, rest)) :
    next_marker true input = if c = 0 then next_marker false rest else some (c, rest) := by
  induction input with
  | nil => cases h
  | cons b input ih =>
      rw [skipPadding] at h
      rw [next_marker]
      by_cases hb : b = 0xFF
      · rw [if_pos hb] at h
        rw [if_pos hb]
        exact ih h
      · rw [if_neg hb] at h
        cases h
        rw [if_neg hb]

/-- Passing a byte of data. -/
theorem next_marker_of_byte {input rest : List UInt8} {c : UInt8}
    (h : fetch input = some (.byte c rest)) :
    next_marker false input = next_marker false rest := by
  cases input with
  | nil => cases h
  | cons b input =>
      rw [fetch] at h
      rw [next_marker]
      by_cases hb : b = 0xFF
      · rw [if_pos hb] at h
        rw [decide_eq_true hb]
        cases hskip : skipPadding input with
        | none =>
            rw [hskip] at h
            cases h
        | some p =>
            obtain ⟨c', rest'⟩ := p
            rw [hskip] at h
            rw [next_marker_of_skipPadding hskip]
            by_cases hzero : c' = 0
            · simp only [if_pos hzero] at h
              cases h
              rw [if_pos hzero]
            · simp only [if_neg hzero] at h
              cases h
      · rw [if_neg hb] at h
        cases h
        rw [decide_eq_false hb]

theorem next_marker_of_marker {input rest : List UInt8} {c : UInt8}
    (h : fetch input = some (.marker c rest)) : next_marker false input = some (c, rest) := by
  cases input with
  | nil => cases h
  | cons b input =>
      rw [fetch] at h
      rw [next_marker]
      by_cases hb : b = 0xFF
      · rw [if_pos hb] at h
        rw [decide_eq_true hb]
        cases hskip : skipPadding input with
        | none =>
            rw [hskip] at h
            cases h
        | some p =>
            obtain ⟨c', rest'⟩ := p
            rw [hskip] at h
            rw [next_marker_of_skipPadding hskip]
            by_cases hzero : c' = 0
            · simp only [if_pos hzero] at h
              cases h
            · simp only [if_neg hzero] at h
              cases h
              rw [if_neg hzero]
      · rw [if_neg hb] at h
        cases h

/-- The next marker is the one behind the data of the segment. -/
theorem next_marker_of_segment {input data rest : List UInt8} {m : UInt8}
    (h : Segment input data m rest) : next_marker false input = some (m, rest) := by
  induction h with
  | marker h => exact next_marker_of_marker h
  | byte h _ ih => rw [next_marker_of_byte h, ih]

theorem segment_marker_ne {input data rest : List UInt8} {m : UInt8}
    (h : Segment input data m rest) : m ≠ 0 := by
  induction h with
  | marker h => exact fetch_marker_ne h
  | byte _ _ ih => exact ih

/-- The marker that a state is in front of. -/
theorem unreadMarker_eq {t : Scan} (h : Reads s t) :
    unreadMarker s = some (t.marker, t.rest) ∧ t.marker ≠ 0 := by
  obtain ⟨-, data, ⟨hzero, hsegment⟩ | ⟨hm, hne, hinput, -⟩, -⟩ := h
  · rw [unreadMarker, if_pos hzero]
    exact ⟨next_marker_of_segment hsegment, segment_marker_ne hsegment⟩
  · rw [unreadMarker, hm, if_neg hne, hinput]
    exact ⟨rfl, hne⟩

/-- A marker and the input behind it, from which decoding can go on. -/
def Resumable (m : UInt8) (rest : List UInt8) : Prop :=
  (m = 0 ∧ Closed rest) ∨ (m ≠ 0 ∧ (Terminal m ∨ Closed rest))

/-- A marker that is not passed is kept. -/
theorem resyncAction_of_terminal {m : UInt8} (h : Terminal m) (desired : Nat) :
    resyncAction m.toNat desired = 3 := by
  obtain ⟨hle, hrst⟩ := h
  rw [resyncAction, if_neg (by omega), if_pos hrst]

/-- Data that is closed has a next marker. -/
theorem Closed.exists_next {input : List UInt8} (h : Closed input) :
    ∃ data m rest, Segment input data m rest ∧ m ≠ 0 ∧ (Terminal m ∨ Closed rest) := by
  cases h with
  | last hsegment hterminal =>
      exact ⟨_, _, _, hsegment, segment_marker_ne hsegment, Or.inl hterminal⟩
  | more hsegment hmore =>
      exact ⟨_, _, _, hsegment, segment_marker_ne hsegment, Or.inr hmore⟩

/-- Deciding about an unexpected marker ends in front of data that is closed. -/
theorem jpeg_resync_to_restart_spec (desired : Nat) {m : UInt8} {rest : List UInt8} (hm : m ≠ 0)
    (hclosed : Terminal m ∨ Closed rest) :
    ∃ m' rest', jpeg_resync_to_restart desired m rest = some (m', rest') ∧
      Resumable m' rest' := by
  induction hlen : rest.length using Nat.strongRecOn generalizing m rest with
  | _ n ih =>
      rw [jpeg_resync_to_restart.eq_def]
      have hstay : resyncAction m.toNat desired ≠ 3 → Closed rest := by
        intro hne
        exact hclosed.resolve_left fun h => hne (resyncAction_of_terminal h desired)
      split
      · -- the marker is discarded
        exact ⟨0, rest, rfl, Or.inl ⟨rfl, hstay (by omega)⟩⟩
      · -- the next marker is looked at
        obtain ⟨data, m₂, rest₂, hsegment, hm₂, hclosed₂⟩ := (hstay (by omega)).exists_next
        have hnext := next_marker_of_segment hsegment
        have hshort := next_marker_length hnext
        split
        · rename_i hnone
          rw [hnext] at hnone
          cases hnone
        · rename_i hsome
          rw [hnext] at hsome
          cases hsome
          exact ih _ (by omega) hm₂ hclosed₂ rfl
      · exact ⟨m, rest, rfl, Or.inr ⟨hm, hclosed⟩⟩

/-- With an empty register, a state from which decoding can go on is in front of closed data. -/
theorem ready_of_resumable (hbits : s.bits_left = 0)
    (h : Resumable s.unread_marker s.next_input) : Ready s := by
  rcases h with ⟨hzero, hclosed⟩ | ⟨hne, hclosed⟩
  · obtain ⟨data, m, rest, hsegment, -, hnext⟩ := hclosed.exists_next
    refine ⟨⟨fun i => (bitsOfBytes data).getD i false, 8 * data.length, m, rest⟩,
      ⟨by omega, data, Or.inl ⟨hzero, hsegment⟩, by rw [hbits, Nat.zero_add], fun i => ?_⟩, hnext⟩
    rw [hbits, if_neg (Nat.not_lt_zero i), Nat.sub_zero]
  · refine ⟨⟨fun _ => false, 0, s.unread_marker, s.next_input⟩,
      ⟨by omega, [], Or.inr ⟨rfl, hne, rfl, rfl⟩, by rw [hbits]; rfl, fun i => ?_⟩, hclosed⟩
    rw [hbits, if_neg (Nat.not_lt_zero i)]
    rfl

/-- A decoder in front of data that is closed. -/
structure Sound (e : huff_entropy_decoder) : Prop where
  ready : Ready e.bitstate
  restart_le : e.next_restart_num ≤ 7

/-- A restart succeeds, whatever the marker is. -/
theorem process_restart_sound (info : ScanInfo) {e : huff_entropy_decoder} (h : Sound e) :
    ∃ e', process_restart info e = some e' ∧ Sound e' := by
  obtain ⟨⟨t, hreads, hclosed⟩, hle⟩ := h
  obtain ⟨hunread, hne⟩ := unreadMarker_eq hreads
  obtain ⟨m, rest, hdecide, hresumable⟩ : ∃ m rest,
      (if t.marker.toNat = 0xD0 + e.next_restart_num then some (0, t.rest)
        else jpeg_resync_to_restart e.next_restart_num t.marker t.rest) = some (m, rest) ∧
      Resumable m rest := by
    by_cases hexpected : t.marker.toNat = 0xD0 + e.next_restart_num
    · -- a restart marker is not terminal, so there is more data
      refine ⟨0, t.rest, if_pos hexpected, Or.inl ⟨rfl, hclosed.resolve_left fun hterminal => ?_⟩⟩
      have := hterminal.2
      omega
    · rw [if_neg hexpected]
      exact jpeg_resync_to_restart_spec _ hne hclosed
  have hread : read_restart_marker { e with bitstate := { e.bitstate with bits_left := 0 } } =
      some { e with
        bitstate := { e.bitstate with next_input := rest, unread_marker := m, bits_left := 0 }
        next_restart_num := (e.next_restart_num + 1) &&& 7 } := by
    have hzero : unreadMarker { e.bitstate with bits_left := 0 } = some (t.marker, t.rest) :=
      hunread
    rw [read_restart_marker]
    simp only [hzero, hdecide]
  rw [process_restart]
  simp only [hread]
  refine ⟨_, rfl, ?_, Nat.and_le_right⟩
  dsimp only
  split_ifs
  · exact ready_of_resumable rfl hresumable
  · exact ready_of_resumable rfl hresumable

/-- A group of blocks is decoded from any data that is closed. -/
theorem decode_mcu_sound {info : ScanInfo} (htables : TablesDerived info)
    {e : huff_entropy_decoder} (h : Sound e) (MCU_data : Nat → JBLOCK) :
    ∃ e' MCU_data', decode_mcu info e MCU_data = some (e', MCU_data') ∧ Sound e' := by
  obtain ⟨e₁, hrestart, ⟨hready, hle⟩⟩ : ∃ e₁,
      (if info.restart_interval ≠ 0 ∧ e.restarts_to_go = 0 then process_restart info e
        else some e) = some e₁ ∧ Sound e₁ := by
    by_cases hdue : info.restart_interval ≠ 0 ∧ e.restarts_to_go = 0
    · rw [if_pos hdue]
      exact process_restart_sound info h
    · exact ⟨e, if_neg hdue, h⟩
  rw [decode_mcu]
  simp only [hrestart]
  by_cases hinsufficient : e₁.bitstate.insufficient_data = true
  · rw [if_pos hinsufficient]
    exact ⟨_, _, rfl, hready, hle⟩
  · obtain ⟨last_dc_val, MCU_data', s, hblocks, hs⟩ := decodeBlocks_ready htables
      (Nat.le_of_eq (Nat.zero_add _)) e₁.last_dc_val MCU_data hready
    rw [if_neg hinsufficient]
    simp only [hblocks]
    exact ⟨_, _, rfl, hs, hle⟩

/-- Decoding never suspends in front of data that is closed by a marker: all groups of a scan are
decoded, whatever the data and the restart markers in it are. -/
theorem decodeScan_sound {info : ScanInfo} (htables : TablesDerived info)
    {e : huff_entropy_decoder} (h : Sound e) (n : Nat) :
    ∃ mcus e', decodeScan info n e = some (mcus, e') ∧ mcus.length = n ∧ Sound e' := by
  induction n generalizing e with
  | zero => exact ⟨[], e, rfl, rfl, h⟩
  | succ n ih =>
      obtain ⟨e₁, MCU_data, hmcu, hsound⟩ := decode_mcu_sound htables h fun _ _ => 0
      obtain ⟨mcus, e', hscan, hlength, hsound'⟩ := ih hsound
      refine ⟨MCU_data :: mcus, e', ?_, congrArg Nat.succ hlength, hsound'⟩
      rw [decodeScan]
      simp only [hmcu, hscan]

section Tables

variable {α : Type} {make : (isDC : Bool) → (tblno : Nat) → α → Option α}
  {cur_comp_info : Nat → jpeg_component_info}

/-- The tables of a component have been made, from whatever their workspaces contained. -/
def Made (make : (isDC : Bool) → (tblno : Nat) → α → Option α) (compptr : jpeg_component_info)
    (dc ac : Nat → α) : Prop :=
  (∃ w, make true compptr.dc_tbl_no w = some (dc compptr.dc_tbl_no)) ∧
    ∃ w, make false compptr.ac_tbl_no w = some (ac compptr.ac_tbl_no)

/-- Making the tables of one more component keeps the others made: a table that is made again has
the same number. -/
theorem Made.update {compptr other : jpeg_component_info} {dc ac : Nat → α} {dctbl actbl : α}
    (hdc : make true compptr.dc_tbl_no (dc compptr.dc_tbl_no) = some dctbl)
    (hac : make false compptr.ac_tbl_no (ac compptr.ac_tbl_no) = some actbl)
    (h : Made make other dc ac ∨ other = compptr) :
    Made make other (Function.update dc compptr.dc_tbl_no dctbl)
      (Function.update ac compptr.ac_tbl_no actbl) := by
  constructor
  · by_cases hno : other.dc_tbl_no = compptr.dc_tbl_no
    · rw [hno, Function.update_self]
      exact ⟨_, hdc⟩
    · rw [Function.update_of_ne hno]
      rcases h with h | rfl
      · exact h.1
      · exact absurd rfl hno
  · by_cases hno : other.ac_tbl_no = compptr.ac_tbl_no
    · rw [hno, Function.update_self]
      exact ⟨_, hac⟩
    · rw [Function.update_of_ne hno]
      rcases h with h | rfl
      · exact h.2
      · exact absurd rfl hno

theorem makeTables_spec {n ci : Nat} {dc ac dc' ac' : Nat → α}
    (h : makeTables make cur_comp_info n ci dc ac = some (dc', ac'))
    (hdone : ∀ i, i < ci → Made make (cur_comp_info i) dc ac) :
    ∀ i, i < ci + n → Made make (cur_comp_info i) dc' ac' := by
  induction n generalizing ci dc ac with
  | zero =>
      cases h
      exact hdone
  | succ n ih =>
      rw [makeTables] at h
      split at h
      · rename_i dctbl actbl hdctbl hactbl
        intro i hi
        refine ih h (fun j hj => Made.update hdctbl hactbl ?_) i (by omega)
        rcases Nat.lt_succ_iff_lt_or_eq.1 hj with hlt | rfl
        · exact Or.inl (hdone j hlt)
        · exact Or.inr rfl
      · cases h

/-- The tables are made if each of them can be. -/
theorem exists_makeTables {n ci : Nat} (dc ac : Nat → α)
    (hmake : ∀ i, ci ≤ i → i < ci + n →
      (∀ w, ∃ t, make true (cur_comp_info i).dc_tbl_no w = some t) ∧
        ∀ w, ∃ t, make false (cur_comp_info i).ac_tbl_no w = some t) :
    ∃ p, makeTables make cur_comp_info n ci dc ac = some p := by
  induction n generalizing ci dc ac with
  | zero => exact ⟨(dc, ac), rfl⟩
  | succ n ih =>
      obtain ⟨hdc, hac⟩ := hmake ci (Nat.le_refl ci) (by omega)
      obtain ⟨dctbl, hdctbl⟩ := hdc (dc (cur_comp_info ci).dc_tbl_no)
      obtain ⟨actbl, hactbl⟩ := hac (ac (cur_comp_info ci).ac_tbl_no)
      rw [makeTables]
      simp only [hdctbl, hactbl]
      exact ih _ _ fun i hle hlt => hmake i (by omega) (by omega)

end Tables

/-- The tables of each block are derived from those that its component names. -/
theorem start_pass_tables {cinfo : jpeg_decompress_struct} {dc ac : Nat → d_derived_tbl}
    {last_dc_val : Nat → Int} {input : List UInt8} {info : ScanInfo} {e : huff_entropy_decoder}
    (h : start_pass_huff_decoder cinfo dc ac last_dc_val input = some (info, e))
    (hcomps : ∀ blkn, blkn < cinfo.blocks_in_MCU → cinfo.MCU_membership blkn < cinfo.comps_in_scan)
    {blkn : Nat} (hblkn : blkn < cinfo.blocks_in_MCU) :
    (∃ w, jpeg_make_d_derived_tbl cinfo.tables true
        (cinfo.cur_comp_info (cinfo.MCU_membership blkn)).dc_tbl_no w =
          some (info.dc_cur_tbls blkn)) ∧
      ∃ w, jpeg_make_d_derived_tbl cinfo.tables false
        (cinfo.cur_comp_info (cinfo.MCU_membership blkn)).ac_tbl_no w =
          some (info.ac_cur_tbls blkn) := by
  rw [start_pass_huff_decoder] at h
  cases hmake : makeTables (jpeg_make_d_derived_tbl cinfo.tables) cinfo.cur_comp_info
      cinfo.comps_in_scan 0 dc ac with
  | none =>
      rw [hmake] at h
      cases h
  | some p =>
      obtain ⟨dc', ac'⟩ := p
      rw [hmake] at h
      cases h
      refine makeTables_spec hmake (fun i hi => absurd hi (Nat.not_lt_zero i)) _ ?_
      rw [Nat.zero_add]
      exact hcomps blkn hblkn

theorem tablesDerived_of_start_pass {cinfo : jpeg_decompress_struct}
    {dc ac : Nat → d_derived_tbl} {last_dc_val : Nat → Int} {input : List UInt8} {info : ScanInfo}
    {e : huff_entropy_decoder}
    (h : start_pass_huff_decoder cinfo dc ac last_dc_val input = some (info, e))
    (hcomps : ∀ blkn, blkn < cinfo.blocks_in_MCU →
      cinfo.MCU_membership blkn < cinfo.comps_in_scan)
    (hblocks : info.blocks_in_MCU = cinfo.blocks_in_MCU) : TablesDerived info where
  dc := by
    intro blkn hblkn
    rw [hblocks] at hblkn
    obtain ⟨⟨w, hw⟩, -⟩ := start_pass_tables h hcomps hblkn
    exact ⟨_, derived_of_eq_some hw⟩
  ac := by
    intro blkn hblkn
    rw [hblocks] at hblkn
    obtain ⟨-, w, hw⟩ := start_pass_tables h hcomps hblkn
    exact ⟨_, (derived_of_eq_some hw).2⟩

/-- What the start of a scan leaves. -/
theorem start_pass_eq {cinfo : jpeg_decompress_struct} {dc ac : Nat → d_derived_tbl}
    {last_dc_val : Nat → Int} {input : List UInt8} {info : ScanInfo} {e : huff_entropy_decoder}
    (h : start_pass_huff_decoder cinfo dc ac last_dc_val input = some (info, e)) :
    info.comps_in_scan = cinfo.comps_in_scan ∧ info.blocks_in_MCU = cinfo.blocks_in_MCU ∧
      info.MCU_membership = cinfo.MCU_membership ∧
      info.restart_interval = cinfo.restart_interval ∧
      info.coef_limit = (fun blkn => coefLimit (cinfo.cur_comp_info (cinfo.MCU_membership blkn))) ∧
      e = { bitstate := ⟨input, 0, 0, 0, false⟩
            last_dc_val := fun ci => if ci < cinfo.comps_in_scan then 0 else last_dc_val ci
            restarts_to_go := cinfo.restart_interval
            next_restart_num := 0 } := by
  rw [start_pass_huff_decoder] at h
  cases hmake : makeTables (jpeg_make_d_derived_tbl cinfo.tables) cinfo.cur_comp_info
      cinfo.comps_in_scan 0 dc ac with
  | none =>
      rw [hmake] at h
      cases h
  | some p =>
      rw [hmake] at h
      cases h
      exact ⟨rfl, rfl, rfl, rfl, rfl, rfl⟩

/-- A scan whose data is closed by a marker is decoded to its end: however many groups are asked
for, whatever the data and the restart markers in it are, the decoder never suspends. -/
theorem decodeScan_of_closed {cinfo : jpeg_decompress_struct} {dc ac : Nat → d_derived_tbl}
    {last_dc_val : Nat → Int} {input : List UInt8} {info : ScanInfo} {e : huff_entropy_decoder}
    (h : start_pass_huff_decoder cinfo dc ac last_dc_val input = some (info, e))
    (hcomps : ∀ blkn, blkn < cinfo.blocks_in_MCU →
      cinfo.MCU_membership blkn < cinfo.comps_in_scan)
    (hclosed : Closed input) (n : Nat) :
    ∃ mcus e', decodeScan info n e = some (mcus, e') ∧ mcus.length = n := by
  obtain ⟨-, hblocks, -, -, -, he⟩ := start_pass_eq h
  have hsound : Sound e := by
    rw [he]
    exact ⟨ready_of_resumable rfl (Or.inl ⟨rfl, hclosed⟩), Nat.zero_le 7⟩
  obtain ⟨mcus, e', hscan, hlength, -⟩ :=
    decodeScan_sound (tablesDerived_of_start_pass h hcomps hblocks) hsound n
  exact ⟨mcus, e', hscan, hlength⟩

/-- A scan of one component, with short codes and a restart marker after each group. -/
def oneComponent : jpeg_decompress_struct where
  comps_in_scan := 1
  cur_comp_info _ := ⟨0, 0, true, 8, 8⟩
  blocks_in_MCU := 1
  MCU_membership _ := 0
  restart_interval := 1
  tables isAc index :=
    if index.val ≠ 0 then none
    else some
      { bits := [0, 1, 1, 1, 0, 0, 0, 0, 0, 0, 0, 0, 0, 0, 0, 0, 0]
        huffval := if isAc then [0x00, 0x12, 0xF0] else [0, 2, 3] }

/-- Two groups are decoded although the data has only one and a marker that is not expected. -/
theorem decodeScan_of_closed_two :
    ∃ (tbls : Nat → d_derived_tbl) (info : ScanInfo) (e : huff_entropy_decoder)
      (mcus : List (Nat → JBLOCK)) (e' : huff_entropy_decoder),
      start_pass_huff_decoder oneComponent tbls tbls (fun _ => 0) [0xD6, 0xFF, 0xC4] =
        some (info, e) ∧
      decodeScan info 2 e = some (mcus, e') ∧ mcus.length = 2 := by
  have hsome : (start_pass_huff_decoder oneComponent
      (fun _ => ⟨fun _ => 0, fun _ => 0, ⟨[], []⟩, fun _ => 0, fun _ => 0⟩)
      (fun _ => ⟨fun _ => 0, fun _ => 0, ⟨[], []⟩, fun _ => 0, fun _ => 0⟩) (fun _ => 0)
      [0xD6, 0xFF, 0xC4]).isSome := by decide +kernel
  obtain ⟨⟨info, e⟩, hstart⟩ := Option.isSome_iff_exists.1 hsome
  have hsegment : Segment [0xD6, 0xFF, 0xC4] [0xD6] 0xC4 [] := .byte rfl (.marker rfl)
  obtain ⟨mcus, e', hscan, hlength⟩ := decodeScan_of_closed hstart
    (fun _ _ => Nat.zero_lt_one) (.last hsegment (by rw [Terminal]; decide)) 2
  exact ⟨_, info, e, mcus, e', hstart, hscan, hlength⟩

end IotClient.Video.McuDecoding
