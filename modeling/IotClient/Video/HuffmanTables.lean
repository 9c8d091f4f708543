import Mathlib.Tactic.Common
import Mathlib.Data.List.Basic
import Mathlib.Data.Nat.Bitwise

/-!
# Loading the Huffman tables

`my_jpeg_load_dht` of the native decoder reads a table segment into the tables of the decompressor.
A read beyond the segment's array is undefined behaviour and ends the model without a result.

* `my_jpeg_load_dht_eq_zero_iff`: it returns 0 on exactly the sequences of well-formed tables.
* `installAll_apply`: each table is then the last one of the segment with its number.
-/

set_option autoImplicit false

namespace IotClient.Video.HuffmanTables

/-- Huffman tables are numbered 0..3. -/
def NUM_HUFF_TBLS : Nat := 4

/-- `JHUFF_TBL`: how many codes there are of each length, and the symbols. -/
structure JHUFF_TBL where
  bits : List UInt8
  huffval : List UInt8
deriving DecidableEq, Repr

/-- The arrays `ac_huff_tbl_ptrs` (with `true`) and `dc_huff_tbl_ptrs`. -/
abbrev Tables := Bool → Fin NUM_HUFF_TBLS → Option JHUFF_TBL

/-- The assignments to the table that `hufftbl` points to. -/
def Tables.install (tables : Tables) (isAc : Bool) (index : Fin NUM_HUFF_TBLS) (t : JHUFF_TBL) :
    Tables :=
  fun c i => if c = isAc ∧ i = index then some t else tables c i

/-- The number of symbols that the lengths ask for. -/
def countOf (bits : List UInt8) : Nat := (bits.map UInt8.toNat).sum

/-- The loop over the tables: `dht` is what follows `pos`, and `huffval` is the array on the stack,
which keeps what the table before left in it. The result is that of the function. -/
def loadTables (length : Nat) (dht huffval : List UInt8) (tables : Tables) :
    Option (Int × Tables) :=
  if 16 < length then
    match dht with
    | [] => none
    | index :: dht =>
        if dht.length < 16 then none
        else
          let bits := dht.take 16
          let count := countOf bits
          if 256 < count ∨ length - 17 < count then some (-1, tables)
          else if (dht.drop 16).length < count then none
          else
            let huffval := (dht.drop 16).take count ++ huffval.drop count
            let isAc := decide (index &&& 0x10 ≠ 0)
            let index := if isAc then index.toNat - 0x10 else index.toNat
            if h : index < NUM_HUFF_TBLS then
              loadTables (length - 17 - count) (dht.drop (16 + count)) huffval
                (tables.install isAc ⟨index, h⟩ ⟨0 :: bits, huffval⟩)
            else some (-1, tables)
  else if length ≠ 0 then some (-1, tables)
  else some (0, tables)
termination_by length

/-- `my_jpeg_load_dht`. The length of the segment counts itself, and is an unsigned number. -/
def my_jpeg_load_dht (dht huffval : List UInt8) (tables : Tables) : Option (Int × Tables) :=
  match dht with
  | _ :: _ :: hi :: lo :: dht =>
      loadTables ((hi.toNat * 256 + lo.toNat + (2 ^ 32 - 2)) % 2 ^ 32) dht huffval tables
  | _ => none

/-- The segment that every image is decoded with, unless it has tables of its own. -/
def my_jpeg_odml_dht : List UInt8 :=
  [0xff, 0xc4, 0x01, 0xa2, 0x00, 0x00, 0x01, 0x05, 0x01, 0x01, 0x01, 0x01, 0x01, 0x01,
   0x00, 0x00, 0x00, 0x00, 0x00, 0x00, 0x00, 0x00, 0x01, 0x02, 0x03, 0x04, 0x05, 0x06,
   0x07, 0x08, 0x09, 0x0a, 0x0b, 0x01, 0x00, 0x03, 0x01, 0x01, 0x01, 0x01, 0x01, 0x01,
   0x01, 0x01, 0x01, 0x00, 0x00, 0x00, 0x00, 0x00, 0x00, 0x01, 0x02, 0x03, 0x04, 0x05,
   0x06, 0x07, 0x08, 0x09, 0x0a, 0x0b, 0x10, 0x00, 0x02, 0x01, 0x03, 0x03, 0x02, 0x04,
   0x03, 0x05, 0x05, 0x04, 0x04, 0x00, 0x00, 0x01, 0x7d, 0x01, 0x02, 0x03, 0x00, 0x04,
   0x11, 0x05, 0x12, 0x21, 0x31, 0x41, 0x06, 0x13, 0x51, 0x61, 0x07, 0x22, 0x71, 0x14,
   0x32, 0x81, 0x91, 0xa1, 0x08, 0x23, 0x42, 0xb1, 0xc1, 0x15, 0x52, 0xd1, 0xf0, 0x24,
   0x33, 0x62, 0x72, 0x82, 0x09, 0x0a, 0x16, 0x17, 0x18, 0x19, 0x1a, 0x25, 0x26, 0x27,
   0x28, 0x29, 0x2a, 0x34, 0x35, 0x36, 0x37, 0x38, 0x39, 0x3a, 0x43, 0x44, 0x45, 0x46,
   0x47, 0x48, 0x49, 0x4a, 0x53, 0x54, 0x55, 0x56, 0x57, 0x58, 0x59, 0x5a, 0x63, 0x64,
   0x65, 0x66, 0x67, 0x68, 0x69, 0x6a, 0x73, 0x74, 0x75, 0x76, 0x77, 0x78, 0x79, 0x7a,
   0x83, 0x84, 0x85, 0x86, 0x87, 0x88, 0x89, 0x8a, 0x92, 0x93, 0x94, 0x95, 0x96, 0x97,
   0x98, 0x99, 0x9a, 0xa2, 0xa3, 0xa4, 0xa5, 0xa6, 0xa7, 0xa8, 0xa9, 0xaa, 0xb2, 0xb3,
   0xb4, 0xb5, 0xb6, 0xb7, 0xb8, 0xb9, 0xba, 0xc2, 0xc3, 0xc4, 0xc5, 0xc6, 0xc7, 0xc8,
   0xc9, 0xca, 0xd2, 0xd3, 0xd4, 0xd5, 0xd6, 0xd7, 0xd8, 0xd9, 0xda, 0xe1, 0xe2, 0xe3,
   0xe4, 0xe5, 0xe6, 0xe7, 0xe8, 0xe9, 0xea, 0xf1, 0xf2, 0xf3, 0xf4, 0xf5, 0xf6, 0xf7,
   0xf8, 0xf9, 0xfa, 0x11, 0x00, 0x02, 0x01, 0x02, 0x04, 0x04, 0x03, 0x04, 0x07, 0x05,
   0x04, 0x04, 0x00, 0x01, 0x02, 0x77, 0x00, 0x01, 0x02, 0x03, 0x11, 0x04, 0x05, 0x21,
   0x31, 0x06, 0x12, 0x41, 0x51, 0x07, 0x61, 0x71, 0x13, 0x22, 0x32, 0x81, 0x08, 0x14,
   0x42, 0x91, 0xa1, 0xb1, 0xc1, 0x09, 0x23, 0x33, 0x52, 0xf0, 0x15, 0x62, 0x72, 0xd1,
   0x0a, 0x16, 0x24, 0x34, 0xe1, 0x25, 0xf1, 0x17, 0x18, 0x19, 0x1a, 0x26, 0x27, 0x28,
   0x29, 0x2a, 0x35, 0x36, 0x37, 0x38, 0x39, 0x3a, 0x43, 0x44, 0x45, 0x46, 0x47, 0x48,
   0x49, 0x4a, 0x53, 0x54, 0x55, 0x56, 0x57, 0x58, 0x59, 0x5a, 0x63, 0x64, 0x65, 0x66,
   0x67, 0x68, 0x69, 0x6a, 0x73, 0x74, 0x75, 0x76, 0x77, 0x78, 0x79, 0x7a, 0x82, 0x83,
   0x84, 0x85, 0x86, 0x87, 0x88, 0x89, 0x8a, 0x92, 0x93, 0x94, 0x95, 0x96, 0x97, 0x98,
   0x99, 0x9a, 0xa2, 0xa3, 0xa4, 0xa5, 0xa6, 0xa7, 0xa8, 0xa9, 0xaa, 0xb2, 0xb3, 0xb4,
   0xb5, 0xb6, 0xb7, 0xb8, 0xb9, 0xba, 0xc2, 0xc3, 0xc4, 0xc5, 0xc6, 0xc7, 0xc8, 0xc9,
   0xca, 0xd2, 0xd3, 0xd4, 0xd5, 0xd6, 0xd7, 0xd8, 0xd9, 0xda, 0xe2, 0xe3, 0xe4, 0xe5,
   0xe6, 0xe7, 0xe8, 0xe9, 0xea, 0xf2, 0xf3, 0xf4, 0xf5, 0xf6, 0xf7, 0xf8, 0xf9, 0xfa]

/-! ## Segments -/

/-- A table as a segment has it. -/
structure TableSpec where
  isAc : Bool
  index : Fin NUM_HUFF_TBLS
  bits : List UInt8
  values : List UInt8
  length_bits : bits.length = 16
  length_values : values.length = countOf bits
  values_le : values.length ≤ 256

namespace TableSpec

/-- The byte for the number of a table. -/
def header (t : TableSpec) : UInt8 := UInt8.ofNat (t.index.val + if t.isAc then 0x10 else 0)

/-- The bytes of a table. -/
def encode (t : TableSpec) : List UInt8 := t.header :: (t.bits ++ t.values)

/-- What becomes of the array on the stack. -/
def stack (t : TableSpec) (huffval : List UInt8) : List UInt8 :=
  t.values ++ huffval.drop t.values.length

end TableSpec

/-- Installing some tables one after the other. -/
def installAll : List TableSpec → List UInt8 → Tables → Tables
  | [], _, tables => tables
  | t :: ts, huffval, tables =>
      installAll ts (t.stack huffval)
        (tables.install t.isAc t.index ⟨0 :: t.bits, t.stack huffval⟩)

/-- The header byte says which table it is. -/
theorem header_facts (t : TableSpec) :
    decide (t.header &&& 0x10 ≠ 0) = t.isAc ∧
      (if t.isAc then t.header.toNat - 0x10 else t.header.toNat) = t.index.val := by
  have hall : ∀ (c : Bool) (i : Fin NUM_HUFF_TBLS),
      decide (UInt8.ofNat (i.val + if c then 0x10 else 0) &&& 0x10 ≠ 0) = c ∧
        (if c then (UInt8.ofNat (i.val + if c then 0x10 else 0)).toNat - 0x10
          else (UInt8.ofNat (i.val + if c then 0x10 else 0)).toNat) = i.val := by
    decide
  exact hall t.isAc t.index

theorem length_encode (t : TableSpec) : t.encode.length = 17 + t.values.length := by
  rw [TableSpec.encode, List.length_cons, List.length_append, t.length_bits]
  omega

/-- One table is read from its bytes. -/
theorem loadTables_encode (t : TableSpec) {length : Nat} (rest huffval : List UInt8)
    (tables : Tables) (hlength : t.encode.length ≤ length) :
    loadTables length (t.encode ++ rest) huffval tables =
      loadTables (length - t.encode.length) rest (t.stack huffval)
        (tables.install t.isAc t.index ⟨0 :: t.bits, t.stack huffval⟩) := by
  have hcode := length_encode t
  have htake : (t.bits ++ t.values ++ rest).take 16 = t.bits := by
    rw [List.append_assoc, ← t.length_bits, List.take_left]
  have hdrop : (t.bits ++ t.values ++ rest).drop 16 = t.values ++ rest := by
    rw [List.append_assoc, ← t.length_bits, List.drop_left]
  have hcount : countOf t.bits = t.values.length := t.length_values.symm
  obtain ⟨hclass, hindex⟩ := header_facts t
  have hle := t.values_le
  have hlt := t.index.isLt
  rw [hcode, TableSpec.encode, List.cons_append, loadTables,
    if_pos (show 16 < length by omega)]
  dsimp only
  rw [htake, hdrop, hcount, hclass]
  simp only [hindex]
  rw [if_neg (by simp only [List.length_append, t.length_bits]; omega), if_neg (by omega),
    if_neg (by rw [List.length_append]; omega), dif_pos hlt, List.take_left, ← List.drop_drop,
    hdrop, List.drop_left, Nat.sub_sub]
  rfl

theorem loadTables_zero (dht huffval : List UInt8) (tables : Tables) :
    loadTables 0 dht huffval tables = some (0, tables) := by
  rw [loadTables.eq_def, if_neg (Nat.not_lt_zero 16), if_neg (not_not.2 rfl)]

/-- The tables of a whole sequence are read and installed. -/
theorem loadTables_specs (specs : List TableSpec) (length : Nat) (rest huffval : List UInt8)
    (tables : Tables) (hlength : (specs.flatMap TableSpec.encode).length ≤ length) :
    ∃ huffval', loadTables length (specs.flatMap TableSpec.encode ++ rest) huffval tables =
      loadTables (length - (specs.flatMap TableSpec.encode).length) rest huffval'
        (installAll specs huffval tables) := by
  induction specs generalizing length huffval tables with
  | nil => exact ⟨huffval, rfl⟩
  | cons t ts ih =>
      rw [List.flatMap_cons, List.length_append] at hlength
      obtain ⟨huffval', h⟩ := ih (length - t.encode.length) (t.stack huffval)
        (tables.install t.isAc t.index ⟨0 :: t.bits, t.stack huffval⟩) (by omega)
      refine ⟨huffval', ?_⟩
      rw [List.flatMap_cons, List.append_assoc, loadTables_encode t _ _ _ (by omega), h,
        List.length_append, Nat.sub_sub]
      rfl

/-- A header byte that the loop accepts is that of a table. -/
theorem eq_header (b : UInt8) :
    b = UInt8.ofNat ((if decide (b &&& 0x10 ≠ 0) then b.toNat - 0x10 else b.toNat) +
      if decide (b &&& 0x10 ≠ 0) then 0x10 else 0) := by
  by_cases hclass : b &&& 0x10 = 0
  · rw [hclass]
    exact (UInt8.ofNat_toNat).symm
  · have hle : 0x10 ≤ b.toNat := by
      by_contra hlt
      apply hclass
      apply UInt8.toNat_inj.1
      show b.toNat &&& 2 ^ 4 = 0
      rw [Nat.and_two_pow, Nat.testBit_lt_two_pow (by omega)]
      rfl
    rw [decide_eq_true hclass, if_pos rfl, if_pos rfl, Nat.sub_add_cancel hle]
    exact (UInt8.ofNat_toNat).symm

/-- What the loop accepts is a sequence of tables. -/
theorem specs_of_loadTables {length : Nat} {dht huffval : List UInt8} {tables t : Tables}
    (h : loadTables length dht huffval tables = some (0, t)) :
    ∃ specs, dht.take length = specs.flatMap TableSpec.encode ∧ length ≤ dht.length ∧
      t = installAll specs huffval tables := by
  fun_induction loadTables length dht huffval tables with
  | case1 => cases h
  | case2 => cases h
  | case3 => cases h
  | case4 => cases h
  | case5 length huffval tables hlength b dht hbits bits count hcount hvalues huffval' isAc index
      hindex ih =>
      obtain ⟨specs, htake, hle, rfl⟩ := ih h
      have hlen : bits.length = 16 := List.length_take_of_le (Nat.le_of_not_lt hbits)
      have hvlen : ((dht.drop 16).take count).length = count :=
        List.length_take_of_le (Nat.le_of_not_lt hvalues)
      let spec : TableSpec := ⟨isAc, ⟨index, hindex⟩, bits, (dht.drop 16).take count, hlen, hvlen,
        by omega⟩
      -- the bytes of this table and what follows them
      have hsplit : b :: dht = spec.encode ++ dht.drop (16 + count) := by
        have hheader : spec.header = b := (eq_header b).symm
        rw [TableSpec.encode, hheader, List.cons_append, List.append_assoc, ← List.drop_drop,
          List.take_append_drop, List.take_append_drop]
      have hcode : spec.encode.length = 17 + count := by
        rw [length_encode, hvlen]
      refine ⟨spec :: specs, ?_, ?_, ?_⟩
      · rw [hsplit, List.take_append, List.take_of_length_le (by omega), hcode, List.flatMap_cons,
          ← htake, Nat.sub_sub]
      · rw [hsplit, List.length_append]
        omega
      · rw [installAll, TableSpec.stack, hvlen]
  | case6 => cases h
  | case7 => cases h
  | case8 length dht huffval tables hlength hzero =>
      obtain rfl : length = 0 := not_not.1 hzero
      cases h
      exact ⟨[], rfl, Nat.zero_le _, rfl⟩

/-- The length that the first bytes of a segment leave for its tables. -/
def payloadLength (hi lo : UInt8) : Nat := (hi.toNat * 256 + lo.toNat + (2 ^ 32 - 2)) % 2 ^ 32

/-- The function returns 0 if and only if the bytes that the length counts are all there and are a
sequence of tables with numbers below 4, 16 counts each and as many symbols as the counts ask for,
at most 256; it then has installed these tables one after the other. -/
theorem my_jpeg_load_dht_eq_zero_iff (m m' hi lo : UInt8) (dht huffval : List UInt8)
    (tables t : Tables) :
    my_jpeg_load_dht (m :: m' :: hi :: lo :: dht) huffval tables = some (0, t) ↔
      ∃ specs, dht.take (payloadLength hi lo) = specs.flatMap TableSpec.encode ∧
        payloadLength hi lo ≤ dht.length ∧ t = installAll specs huffval tables := by
  constructor
  · exact specs_of_loadTables
  · rintro ⟨specs, htake, hle, rfl⟩
    have hlength : (specs.flatMap TableSpec.encode).length = payloadLength hi lo := by
      rw [← htake, List.length_take_of_le hle]
    obtain ⟨huffval', h⟩ := loadTables_specs specs (payloadLength hi lo)
      (dht.drop (payloadLength hi lo)) huffval tables (Nat.le_of_eq hlength)
    rw [← htake, List.take_append_drop, htake, hlength, Nat.sub_self] at h
    exact h.trans (loadTables_zero _ _ _)

/-- The segment of the native decoder itself is loaded. -/
example : (my_jpeg_load_dht my_jpeg_odml_dht (List.replicate 256 0) fun _ _ => none).map Prod.fst =
    some 0 := by
  decide +kernel

/-- The last of some tables with a number. -/
def lastWith (isAc : Bool) (index : Fin NUM_HUFF_TBLS) (specs : List TableSpec) :
    Option TableSpec :=
  (specs.filter fun t => t.isAc = isAc ∧ t.index = index).getLast?

/-- A table of the decompressor that was installed from a segment. -/
def Holds (t : TableSpec) (table : Option JHUFF_TBL) : Prop :=
  ∃ stack, table = some ⟨0 :: t.bits, stack⟩ ∧ stack.take t.values.length = t.values

/-- After the tables have been installed, a table of the decompressor is the last one with its
number, or is as before when there is none. -/
theorem installAll_apply (specs : List TableSpec) (huffval : List UInt8) (tables : Tables)
    (isAc : Bool) (index : Fin NUM_HUFF_TBLS) :
    match lastWith isAc index specs with
    | none => installAll specs huffval tables isAc index = tables isAc index
    | some t => Holds t (installAll specs huffval tables isAc index) := by
  induction specs generalizing huffval tables with
  | nil => rfl
  | cons t ts ih =>
      have hrest := ih (t.stack huffval)
        (tables.install t.isAc t.index ⟨0 :: t.bits, t.stack huffval⟩)
      rw [lastWith] at hrest ⊢
      rw [installAll]
      by_cases hmatch : t.isAc = isAc ∧ t.index = index
      · rw [List.filter_cons, if_pos (decide_eq_true hmatch), List.getLast?_cons]
        cases hlast : (ts.filter fun t => t.isAc = isAc ∧ t.index = index).getLast? with
        | none =>
            -- no later table has the number
            rw [hlast] at hrest
            refine ⟨t.stack huffval, hrest.trans ?_, List.take_left⟩
            exact if_pos ⟨hmatch.1.symm, hmatch.2.symm⟩
        | some s =>
            rw [hlast] at hrest
            exact hrest
      · rw [List.filter_cons, if_neg (mt of_decide_eq_true hmatch)]
        cases hlast : (ts.filter fun t => t.isAc = isAc ∧ t.index = index).getLast? with
        | none =>
            rw [hlast] at hrest
            refine hrest.trans (if_neg fun h => hmatch ⟨h.1.symm, h.2.symm⟩)
        | some s =>
            rw [hlast] at hrest
            exact hrest

end IotClient.Video.HuffmanTables
