import IotClient.Foundation.PrefixCodes
import IotClient.Video.HuffmanTables
import Mathlib.Logic.Function.Basic

/-!
# Derived Huffman tables

`jpeg_make_d_derived_tbl` checks a loaded table and computes what the decoder works with: the
largest code word of each length, where the symbols of a length begin, and what the next eight bits
stand for.

* `jpeg_make_d_derived_tbl_isSome_iff`: which tables it accepts.
* `derived_of_eq_some`: its arrays describe the canonical code of the table, whatever an earlier
  table has left in them.
-/

set_option autoImplicit false

namespace IotClient.Video.DerivedTables

open IotClient.Foundation.PrefixCodes
open IotClient.Video.HuffmanTables

/-- How many bits the lookahead tables are indexed by. -/
def HUFF_LOOKAHEAD : Nat := 8

/-- `htbl->bits[l]`. -/
def bitsAt (htbl : JHUFF_TBL) (l : Nat) : Nat := (htbl.bits.getD l 0).toNat

/-- `htbl->huffval[p]`. -/
def huffvalAt (htbl : JHUFF_TBL) (p : Nat) : UInt8 := htbl.huffval.getD p 0

structure d_derived_tbl where
  maxcode : Nat → Int
  valoffset : Nat → Int
  pub : JHUFF_TBL
  look_nbits : Nat → Nat
  look_sym : Nat → UInt8

/-- Figure C.1: the code length of each symbol, for `r` lengths from `l` on. `huffsize` has what is
in front of `p`. -/
def huffsizes (htbl : JHUFF_TBL) : (r l : Nat) → (huffsize : List Nat) → Option (List Nat)
  | 0, _, huffsize => some huffsize
  | r + 1, l, huffsize =>
      let i := bitsAt htbl l
      if 256 < huffsize.length + i then none
      else huffsizes htbl r (l + 1) (huffsize ++ List.replicate i l)

/-- The inner loop of Figure C.2: the code words of length `si`. The sizes are those from `p` on. -/
def sameSize (si : Nat) : (huffsize : List Nat) → (code : Nat) → (huffcode : List Nat) →
    List Nat × Nat × List Nat
  | [], code, huffcode => ([], code, huffcode)
  | size :: huffsize, code, huffcode =>
      if size = si then sameSize si huffsize (code + 1) (huffcode ++ [code])
      else (size :: huffsize, code, huffcode)

/-- Figure C.2: the code words. A round for each length is enough. -/
def huffcodes : (rounds : Nat) → (huffsize : List Nat) → (code si : Nat) →
    (huffcode : List Nat) → Option (List Nat)
  | _, [], _, _, huffcode => some huffcode
  | 0, _ :: _, _, _, _ => none
  | rounds + 1, size :: huffsize, code, si, huffcode =>
      match sameSize si (size :: huffsize) code huffcode with
      | (huffsize, code, huffcode) =>
          -- the code word of ones only is not allowed
          if 2 ^ si ≤ code then none else huffcodes rounds huffsize (2 * code) (si + 1) huffcode

/-- Figure F.15: `maxcode` and `valoffset` for `r` lengths from `l` on. -/
def bitSequential (htbl : JHUFF_TBL) (huffcode : List Nat) : (r l p : Nat) →
    (maxcode valoffset : Nat → Int) → (Nat → Int) × (Nat → Int)
  | 0, _, _, maxcode, valoffset => (maxcode, valoffset)
  | r + 1, l, p, maxcode, valoffset =>
      if bitsAt htbl l ≠ 0 then
        let offset : Int := (p : Int) - (huffcode.getD p 0 : Nat)
        let p := p + bitsAt htbl l
        bitSequential htbl huffcode r (l + 1) p
          (Function.update maxcode l (huffcode.getD (p - 1) 0 : Nat))
          (Function.update valoffset l offset)
      else bitSequential htbl huffcode r (l + 1) p (Function.update maxcode l (-1)) valoffset

/-- The loop over `ctr`: the entries for all bits behind a code word. -/
def fillLook (l : Nat) (sym : UInt8) : (ctr lookbits : Nat) → (nbits : Nat → Nat) →
    (syms : Nat → UInt8) → (Nat → Nat) × (Nat → UInt8)
  | 0, _, nbits, syms => (nbits, syms)
  | ctr + 1, lookbits, nbits, syms =>
      fillLook l sym ctr (lookbits + 1) (Function.update nbits lookbits l)
        (Function.update syms lookbits sym)

/-- The loop over the code words of a length, `i` of them from index `p` on. -/
def lookCodes (htbl : JHUFF_TBL) (huffcode : List Nat) (l : Nat) : (i p : Nat) →
    (nbits : Nat → Nat) → (syms : Nat → UInt8) → (Nat → Nat) × (Nat → UInt8)
  | 0, _, nbits, syms => (nbits, syms)
  | i + 1, p, nbits, syms =>
      match fillLook l (huffvalAt htbl p) (2 ^ (HUFF_LOOKAHEAD - l))
          (huffcode.getD p 0 * 2 ^ (HUFF_LOOKAHEAD - l)) nbits syms with
      | (nbits, syms) => lookCodes htbl huffcode l i (p + 1) nbits syms

/-- The lookahead tables for `r` lengths from `l` on. -/
def lookahead (htbl : JHUFF_TBL) (huffcode : List Nat) : (r l p : Nat) →
    (nbits : Nat → Nat) → (syms : Nat → UInt8) → (Nat → Nat) × (Nat → UInt8)
  | 0, _, _, nbits, syms => (nbits, syms)
  | r + 1, l, p, nbits, syms =>
      match lookCodes htbl huffcode l (bitsAt htbl l) p nbits syms with
      | (nbits, syms) => lookahead htbl huffcode r (l + 1) (p + bitsAt htbl l) nbits syms

/-- The arrays for a table whose code words are known. -/
def derive (htbl : JHUFF_TBL) (huffcode : List Nat) (dtbl : d_derived_tbl) : d_derived_tbl :=
  match bitSequential htbl huffcode 16 1 0 dtbl.maxcode dtbl.valoffset,
      lookahead htbl huffcode HUFF_LOOKAHEAD 1 0 (fun _ => 0) dtbl.look_sym with
  | (maxcode, valoffset), (nbits, syms) =>
      { maxcode := Function.update maxcode 17 0xFFFFF
        valoffset := valoffset
        pub := htbl
        look_nbits := nbits
        look_sym := syms }

/-- `jpeg_make_d_derived_tbl`; `none` is `error_exit`. `dtbl` is what the workspace contains. -/
def jpeg_make_d_derived_tbl (tables : Tables) (isDC : Bool) (tblno : Nat) (dtbl : d_derived_tbl) :
    Option d_derived_tbl :=
  if h : tblno < NUM_HUFF_TBLS then
    match tables (!isDC) ⟨tblno, h⟩ with
    | none => none
    | some htbl =>
        match huffsizes htbl 16 1 [] with
        | none => none
        | some huffsize =>
            match huffcodes 16 huffsize 0 (huffsize.headD 0) [] with
            | none => none
            | some huffcode =>
                if isDC ∧ ∃ i < huffsize.length, 15 < huffvalAt htbl i then none
                else some (derive htbl huffcode dtbl)
  else none

/-! ## The code of a table -/

/-- The number of code words of a length. -/
def counts (htbl : JHUFF_TBL) (l : Nat) : Nat := if 1 ≤ l ∧ l ≤ 16 then bitsAt htbl l else 0

/-- The code words fit into their lengths, and none consists of ones only. -/
def Legal (htbl : JHUFF_TBL) : Prop :=
  ∀ l, 1 ≤ l → l ≤ 16 → first (counts htbl) l + counts htbl l < 2 ^ l

variable {htbl : JHUFF_TBL}

theorem bitsAt_eq_counts {l : Nat} (hpos : 1 ≤ l) (hle : l ≤ 16) : bitsAt htbl l = counts htbl l :=
  (if_pos ⟨hpos, hle⟩).symm

theorem offset_one : offset (counts htbl) 1 = 0 := rfl

theorem first_one : first (counts htbl) 1 = 0 := rfl

/-- The sizes of `r` lengths from `l` on. -/
def sizes (htbl : JHUFF_TBL) : (r l : Nat) → List Nat
  | 0, _ => []
  | r + 1, l => List.replicate (bitsAt htbl l) l ++ sizes htbl r (l + 1)

theorem mem_sizes {r l size : Nat} (h : size ∈ sizes htbl r l) : l ≤ size := by
  induction r generalizing l with
  | zero => exact absurd h List.not_mem_nil
  | succ r ih =>
      rw [sizes, List.mem_append, List.mem_replicate] at h
      rcases h with ⟨-, rfl⟩ | h
      · exact Nat.le_refl size
      · exact Nat.le_of_succ_le (ih h)

theorem offset_add_length_sizes (htbl : JHUFF_TBL) {r l : Nat} (hpos : 1 ≤ l) (hle : l + r ≤ 17) :
    offset (counts htbl) l + (sizes htbl r l).length = offset (counts htbl) (l + r) := by
  induction r generalizing l with
  | zero => rfl
  | succ r ih =>
      have hnext := ih (l := l + 1) (by omega) (by omega)
      rw [offset, show l + 1 + r = l + (r + 1) by omega] at hnext
      rw [sizes, List.length_append, List.length_replicate, bitsAt_eq_counts hpos (by omega),
        ← hnext]
      omega

theorem length_words (htbl : JHUFF_TBL) :
    (words (counts htbl) 16 1).length = offset (counts htbl) 17 := by
  have hlength := offset_add_length_words (counts htbl) 16 1
  rwa [offset_one, Nat.zero_add] at hlength

theorem length_sizes (htbl : JHUFF_TBL) :
    (sizes htbl 16 1).length = offset (counts htbl) 17 := by
  have hlength := offset_add_length_sizes htbl (r := 16) (Nat.le_refl 1) (by omega)
  rwa [offset_one, Nat.zero_add] at hlength

/-- The loop over the lengths succeeds as long as there are at most 256 symbols. -/
theorem huffsizes_eq (htbl : JHUFF_TBL) (r l : Nat) (huffsize : List Nat) :
    huffsizes htbl r l huffsize =
      if (huffsize ++ sizes htbl r l).length ≤ 256 ∨ r = 0 then some (huffsize ++ sizes htbl r l)
      else none := by
  induction r generalizing l huffsize with
  | zero => rw [huffsizes, sizes, List.append_nil, if_pos (Or.inr rfl)]
  | succ r ih =>
      rw [huffsizes, sizes]
      by_cases hmany : 256 < huffsize.length + bitsAt htbl l
      · rw [if_pos hmany, if_neg]
        simp only [List.length_append, List.length_replicate]
        omega
      · rw [if_neg hmany, ih, List.append_assoc]
        refine if_congr ?_ rfl rfl
        cases r with
        | zero =>
            simp only [sizes, List.length_append, List.length_replicate, List.length_nil]
            omega
        | succ r => simp only [Nat.succ_ne_zero, or_false]

theorem sameSize_replicate {si : Nat} {rest : List Nat} (hrest : ∀ size ∈ rest, size ≠ si)
    (n code : Nat) (huffcode : List Nat) :
    sameSize si (List.replicate n si ++ rest) code huffcode =
      (rest, code + n, huffcode ++ List.range' code n) := by
  induction n generalizing code huffcode with
  | zero =>
      rw [List.replicate_zero, List.nil_append, List.range'_zero, List.append_nil, Nat.add_zero]
      cases rest with
      | nil => rfl
      | cons size rest => exact if_neg (hrest size List.mem_cons_self)
  | succ n ih =>
      rw [List.replicate_succ, List.cons_append, sameSize, if_pos rfl, ih, List.range'_succ,
        List.append_assoc, List.singleton_append, Nat.add_right_comm, Nat.add_assoc]

/-- The rounds for the lengths from `l` on, when the shorter code words are known. -/
theorem huffcodes_sizes (htbl : JHUFF_TBL) {r l n : Nat} (hpos : 1 ≤ l) (hl : l + r = 17)
    (hn : r ≤ n) (hfirst : first (counts htbl) l < 2 ^ l) (huffcode : List Nat) :
    (huffcodes n (sizes htbl r l) (first (counts htbl) l) l huffcode =
        some (huffcode ++ words (counts htbl) r l) ∧
      ∀ j, l ≤ j → j ≤ 16 → first (counts htbl) j + counts htbl j < 2 ^ j) ∨
    (huffcodes n (sizes htbl r l) (first (counts htbl) l) l huffcode = none ∧
      ∃ j, l ≤ j ∧ j ≤ 16 ∧ 2 ^ j ≤ first (counts htbl) j + counts htbl j) := by
  induction r generalizing l n huffcode with
  | zero =>
      refine Or.inl ⟨?_, fun j hle hj => by omega⟩
      rw [sizes, words, List.append_nil, huffcodes.eq_def]
  | succ r ih =>
      obtain ⟨m, rfl⟩ := Nat.exists_eq_add_of_le' (Nat.le_trans (Nat.succ_pos r) hn)
      have hbits : bitsAt htbl l = counts htbl l := bitsAt_eq_counts hpos (by omega)
      have hnext : first (counts htbl) (l + 1) =
          2 * (first (counts htbl) l + counts htbl l) := rfl
      have hpow : 2 ^ (l + 1) = 2 * 2 ^ l := Nat.pow_succ'
      have hsame : sameSize l (sizes htbl (r + 1) l) (first (counts htbl) l) huffcode =
          (sizes htbl r (l + 1), first (counts htbl) l + counts htbl l,
            huffcode ++ List.range' (first (counts htbl) l) (counts htbl l)) := by
        rw [sizes, hbits, sameSize_replicate]
        intro size hsize
        have := mem_sizes hsize
        omega
      cases hsizes : sizes htbl (r + 1) l with
      | nil =>
          -- no symbols are left, and the rest of the code is empty
          rw [sizes, List.append_eq_nil_iff, List.replicate_eq_nil_iff, hbits] at hsizes
          obtain ⟨hzero, hrest⟩ := hsizes
          have hih := ih (l := l + 1) (n := m) (by omega) (by omega) (by omega) (by omega)
            huffcode
          rw [hrest, huffcodes.eq_def] at hih
          rcases hih with ⟨hsome, hlegal⟩ | ⟨hnone, -⟩
          · refine Or.inl ⟨?_, fun j hle hj => ?_⟩
            · rw [huffcodes.eq_def, words, hzero, List.range'_zero, List.nil_append]
              exact hsome
            · rcases Nat.lt_or_eq_of_le hle with hlt | rfl
              · exact hlegal j hlt hj
              · omega
          · cases hnone
      | cons size huffsize =>
          rw [huffcodes, ← hsizes, hsame]
          by_cases hfull : 2 ^ l ≤ first (counts htbl) l + counts htbl l
          · exact Or.inr ⟨if_pos hfull, l, Nat.le_refl l, by omega, hfull⟩
          · have hih := ih (l := l + 1) (n := m) (by omega) (by omega) (by omega) (by omega)
              (huffcode ++ List.range' (first (counts htbl) l) (counts htbl l))
            simp only [if_neg hfull]
            rw [← hnext, words, ← List.append_assoc]
            rcases hih with ⟨hsome, hlegal⟩ | ⟨hnone, j, hle, hj, hbad⟩
            · refine Or.inl ⟨hsome, fun j hle hj => ?_⟩
              rcases Nat.lt_or_eq_of_le hle with hlt | rfl
              · exact hlegal j hlt hj
              · omega
            · exact Or.inr ⟨hnone, j, by omega, hj, hbad⟩

/-- The loop starts with the shortest length that has a code word. -/
theorem huffcodes_start {r l : Nat} (hpos : 1 ≤ l) (hl : l + r = 17)
    (hzero : first (counts htbl) l = 0) :
    (huffcodes 16 (sizes htbl r l) 0 ((sizes htbl r l).headD 0) [] =
        some (words (counts htbl) r l) ∧
      ∀ j, l ≤ j → j ≤ 16 → first (counts htbl) j + counts htbl j < 2 ^ j) ∨
    (huffcodes 16 (sizes htbl r l) 0 ((sizes htbl r l).headD 0) [] = none ∧
      ∃ j, l ≤ j ∧ j ≤ 16 ∧ 2 ^ j ≤ first (counts htbl) j + counts htbl j) := by
  induction r generalizing l with
  | zero => exact Or.inl ⟨rfl, fun j hle hj => by omega⟩
  | succ r ih =>
      have hbits : bitsAt htbl l = counts htbl l := bitsAt_eq_counts hpos (by omega)
      have htwo : 0 < 2 ^ l := Nat.two_pow_pos l
      by_cases hnone : counts htbl l = 0
      · have hsizes : sizes htbl (r + 1) l = sizes htbl r (l + 1) := by
          rw [sizes, hbits, hnone, List.replicate_zero, List.nil_append]
        rw [hsizes, words, hnone, List.range'_zero, List.nil_append]
        rcases ih (l := l + 1) (by omega) (by omega) (by rw [first, hzero, hnone]) with
          ⟨hsome, hlegal⟩ | ⟨hbad, j, hle, hj⟩
        · refine Or.inl ⟨hsome, fun j hle hj => ?_⟩
          rcases Nat.lt_or_eq_of_le hle with hlt | rfl
          · exact hlegal j hlt hj
          · omega
        · exact Or.inr ⟨hbad, j, by omega, hj⟩
      · have hhead : (sizes htbl (r + 1) l).headD 0 = l := by
          obtain ⟨n, hn⟩ := Nat.exists_eq_succ_of_ne_zero hnone
          rw [sizes, hbits, hn, List.replicate_succ]
          rfl
        have hrounds := huffcodes_sizes htbl (r := r + 1) hpos hl (by omega : r + 1 ≤ 16)
          (by rw [hzero]; exact htwo) []
        rw [hzero, List.nil_append] at hrounds
        rw [hhead]
        exact hrounds

/-- The code words are computed if and only if the code is legal. -/
theorem huffcodes_eq (htbl : JHUFF_TBL) :
    (huffcodes 16 (sizes htbl 16 1) 0 ((sizes htbl 16 1).headD 0) [] =
        some (words (counts htbl) 16 1) ∧ Legal htbl) ∨
    (huffcodes 16 (sizes htbl 16 1) 0 ((sizes htbl 16 1).headD 0) [] = none ∧ ¬ Legal htbl) := by
  rcases huffcodes_start (r := 16) (Nat.le_refl 1) rfl first_one with
    ⟨hsome, hlegal⟩ | ⟨hnone, j, hle, hj, hbad⟩
  · exact Or.inl ⟨hsome, hlegal⟩
  · exact Or.inr ⟨hnone, fun hlegal => absurd (hlegal j hle hj) (Nat.not_lt_of_le hbad)⟩

/-- A table that is accepted: at most 256 symbols, a legal code, and for DC no symbol above 15. -/
structure Accepted (isDC : Bool) (htbl : JHUFF_TBL) : Prop where
  count_le : offset (counts htbl) 17 ≤ 256
  legal : Legal htbl
  symbols : isDC → ∀ i, i < offset (counts htbl) 17 → huffvalAt htbl i ≤ 15

/-- The function returns if and only if the number is that of a table which is there and which is
accepted; then it has derived its arrays from the code words of the canonical code. -/
theorem jpeg_make_d_derived_tbl_eq_some_iff {tables : Tables} {isDC : Bool} {tblno : Nat}
    {dtbl d : d_derived_tbl} :
    jpeg_make_d_derived_tbl tables isDC tblno dtbl = some d ↔
      ∃ (h : tblno < NUM_HUFF_TBLS) (htbl : JHUFF_TBL), tables (!isDC) ⟨tblno, h⟩ = some htbl ∧
        Accepted isDC htbl ∧ d = derive htbl (words (counts htbl) 16 1) dtbl := by
  rw [jpeg_make_d_derived_tbl]
  by_cases h : tblno < NUM_HUFF_TBLS
  · rw [dif_pos h]
    cases htables : tables (!isDC) ⟨tblno, h⟩ with
    | none =>
        refine iff_of_false (Option.some_ne_none d).symm ?_
        rintro ⟨_, htbl, hsome, -⟩
        rw [htables] at hsome
        cases hsome
    | some htbl =>
        have hlen := length_sizes htbl
        have hiff : (∃ (h : tblno < NUM_HUFF_TBLS) (htbl' : JHUFF_TBL),
              tables (!isDC) ⟨tblno, h⟩ = some htbl' ∧ Accepted isDC htbl' ∧
                d = derive htbl' (words (counts htbl') 16 1) dtbl) ↔
            Accepted isDC htbl ∧ d = derive htbl (words (counts htbl) 16 1) dtbl := by
          constructor
          · rintro ⟨_, htbl', hsome, hrest⟩
            rw [htables] at hsome
            cases hsome
            exact hrest
          · exact fun hrest => ⟨h, htbl, htables, hrest⟩
        rw [hiff]
        simp only [huffsizes_eq, List.nil_append, hlen, Nat.succ_ne_zero, or_false]
        by_cases hmany : offset (counts htbl) 17 ≤ 256
        · simp only [if_pos hmany]
          rcases huffcodes_eq htbl with ⟨hsome, hlegal⟩ | ⟨hnone, hillegal⟩
          · simp only [hsome, hlen]
            by_cases hsymbols : isDC ∧ ∃ i < offset (counts htbl) 17, 15 < huffvalAt htbl i
            · rw [if_pos hsymbols]
              obtain ⟨hDC, i, hi, hbad⟩ := hsymbols
              refine iff_of_false (Option.some_ne_none d).symm ?_
              rintro ⟨haccepted, -⟩
              exact absurd (haccepted.symbols hDC i hi) (UInt8.not_le.2 hbad)
            · rw [if_neg hsymbols]
              have haccepted : Accepted isDC htbl := by
                refine ⟨hmany, hlegal, fun hDC i hi => ?_⟩
                exact UInt8.not_lt.1 fun hbad => hsymbols ⟨hDC, i, hi, hbad⟩
              constructor
              · intro hd
                cases hd
                exact ⟨haccepted, rfl⟩
              · rintro ⟨-, rfl⟩
                rfl
          · simp only [hnone]
            exact iff_of_false (Option.some_ne_none d).symm
              fun haccepted => hillegal haccepted.1.legal
        · simp only [if_neg hmany]
          exact iff_of_false (Option.some_ne_none d).symm
            fun haccepted => hmany haccepted.1.count_le
  · rw [dif_neg h]
    exact iff_of_false (Option.some_ne_none d).symm fun hd => h hd.1

/-- A table can be worked with if and only if it is there and is accepted; what an earlier table has
left in the workspace does not matter. -/
theorem jpeg_make_d_derived_tbl_isSome_iff (tables : Tables) (isDC : Bool) (tblno : Nat)
    (dtbl : d_derived_tbl) :
    (jpeg_make_d_derived_tbl tables isDC tblno dtbl).isSome ↔
      ∃ (h : tblno < NUM_HUFF_TBLS) (htbl : JHUFF_TBL), tables (!isDC) ⟨tblno, h⟩ = some htbl ∧
        Accepted isDC htbl := by
  rw [Option.isSome_iff_exists]
  constructor
  · rintro ⟨d, hd⟩
    obtain ⟨h, htbl, htables, haccepted, -⟩ := jpeg_make_d_derived_tbl_eq_some_iff.1 hd
    exact ⟨h, htbl, htables, haccepted⟩
  · rintro ⟨h, htbl, htables, haccepted⟩
    exact ⟨_, jpeg_make_d_derived_tbl_eq_some_iff.2 ⟨h, htbl, htables, haccepted, rfl⟩⟩

/-! ## The arrays -/

/-- The largest code word of a length. -/
def maxcodeOf (htbl : JHUFF_TBL) (l : Nat) : Int :=
  if counts htbl l = 0 then -1 else (first (counts htbl) l + counts htbl l - 1 : Nat)

theorem getD_words (htbl : JHUFF_TBL) {m k : Nat} (hpos : 1 ≤ m) (hle : m ≤ 16)
    (hk : k < counts htbl m) :
    (words (counts htbl) 16 1).getD (offset (counts htbl) m + k) 0 =
      first (counts htbl) m + k := by
  have hword := getElem?_words (r := 16) hpos (by omega) hk
  rw [offset_one, Nat.sub_zero] at hword
  rw [List.getD_eq_getElem?_getD, hword, Option.getD_some]

/-- The arrays of Figure F.15 for the lengths from `l` on. -/
def arraysFrom (htbl : JHUFF_TBL) (r l : Nat) (maxcode valoffset : Nat → Int) :
    (Nat → Int) × (Nat → Int) :=
  bitSequential htbl (words (counts htbl) 16 1) r l (offset (counts htbl) l) maxcode valoffset

/-- One length of Figure F.15. -/
theorem arraysFrom_succ {r l : Nat} (hpos : 1 ≤ l) (hl : l + r ≤ 16)
    (maxcode valoffset : Nat → Int) :
    arraysFrom htbl (r + 1) l maxcode valoffset =
      arraysFrom htbl r (l + 1) (Function.update maxcode l (maxcodeOf htbl l))
        (if counts htbl l = 0 then valoffset
        else Function.update valoffset l
          ((offset (counts htbl) l : Int) - first (counts htbl) l)) := by
  rw [arraysFrom, bitSequential, bitsAt_eq_counts hpos (by omega), arraysFrom, maxcodeOf, offset]
  by_cases hzero : counts htbl l = 0
  · rw [if_neg (not_not.2 hzero), if_pos hzero, if_pos hzero, hzero,
      Nat.add_zero (offset (counts htbl) l)]
  · have hfirst := getD_words htbl hpos (by omega) (Nat.pos_of_ne_zero hzero)
    have hlast := getD_words htbl (k := counts htbl l - 1) hpos (by omega) (by omega)
    rw [Nat.add_zero, Nat.add_zero] at hfirst
    rw [if_pos hzero, if_neg hzero, if_neg hzero]
    dsimp only
    rw [Nat.add_sub_assoc (by omega), hfirst, hlast, Nat.add_sub_assoc (by omega)]

theorem arraysFrom_of_lt (htbl : JHUFF_TBL) {r l j : Nat} (hpos : 1 ≤ l) (hl : l + r = 17)
    (hj : j < l) (maxcode valoffset : Nat → Int) :
    (arraysFrom htbl r l maxcode valoffset).1 j = maxcode j ∧
      (arraysFrom htbl r l maxcode valoffset).2 j = valoffset j := by
  induction r generalizing l maxcode valoffset with
  | zero => exact ⟨rfl, rfl⟩
  | succ r ih =>
      obtain ⟨hmax, hval⟩ := ih (l := l + 1) (by omega) (by omega) (by omega)
        (Function.update maxcode l (maxcodeOf htbl l))
        (if counts htbl l = 0 then valoffset
        else Function.update valoffset l ((offset (counts htbl) l : Int) - first (counts htbl) l))
      rw [arraysFrom_succ hpos (by omega), hmax, hval, Function.update_of_ne (Nat.ne_of_lt hj)]
      split_ifs with hzero
      · exact ⟨rfl, rfl⟩
      · rw [Function.update_of_ne (Nat.ne_of_lt hj)]
        exact ⟨rfl, rfl⟩

/-- The largest code word of each length, and where its symbols begin. -/
theorem arraysFrom_of_le {r l j : Nat} (hpos : 1 ≤ l) (hl : l + r = 17) (hle : l ≤ j) (hj : j ≤ 16)
    (maxcode valoffset : Nat → Int) :
    (arraysFrom htbl r l maxcode valoffset).1 j = maxcodeOf htbl j ∧
      (counts htbl j ≠ 0 → (arraysFrom htbl r l maxcode valoffset).2 j =
        (offset (counts htbl) j : Int) - first (counts htbl) j) := by
  induction r generalizing l maxcode valoffset with
  | zero => omega
  | succ r ih =>
      rw [arraysFrom_succ hpos (by omega)]
      rcases Nat.lt_or_eq_of_le hle with hlt | rfl
      · exact ih (by omega) (by omega) hlt _ _
      · obtain ⟨hmax, hval⟩ := arraysFrom_of_lt htbl (r := r) (l := l + 1) (j := l)
          (by omega) (by omega) (Nat.lt_succ_self l)
          (Function.update maxcode l (maxcodeOf htbl l))
          (if counts htbl l = 0 then valoffset
          else Function.update valoffset l ((offset (counts htbl) l : Int) - first (counts htbl) l))
        rw [hmax, hval, Function.update_self]
        refine ⟨rfl, fun hcount => ?_⟩
        rw [if_neg hcount, Function.update_self]

/-- The entries that the loop over `ctr` writes. -/
theorem fillLook_apply (l : Nat) (sym : UInt8) (ctr lookbits : Nat) (nbits : Nat → Nat)
    (syms : Nat → UInt8) (v : Nat) :
    ((fillLook l sym ctr lookbits nbits syms).1 v, (fillLook l sym ctr lookbits nbits syms).2 v) =
      if lookbits ≤ v ∧ v < lookbits + ctr then (l, sym) else (nbits v, syms v) := by
  induction ctr generalizing lookbits nbits syms with
  | zero => rw [fillLook, if_neg (by omega)]
  | succ ctr ih =>
      rw [fillLook, ih]
      by_cases hv : v = lookbits
      · subst hv
        rw [Function.update_self, Function.update_self, if_neg (by omega), if_pos (by omega)]
      · rw [Function.update_of_ne hv, Function.update_of_ne hv]
        exact if_congr (by omega) rfl rfl

/-- The entries for the code words of a length: an entry belongs to the word that its leading bits
are, if they are one. -/
theorem lookCodes_apply (htbl : JHUFF_TBL) {l i k : Nat} (hpos : 1 ≤ l) (hle : l ≤ HUFF_LOOKAHEAD)
    (hi : k + i = counts htbl l) (nbits : Nat → Nat) (syms : Nat → UInt8) (v : Nat) :
    ((lookCodes htbl (words (counts htbl) 16 1) l i (offset (counts htbl) l + k) nbits syms).1 v,
      (lookCodes htbl (words (counts htbl) 16 1) l i (offset (counts htbl) l + k) nbits syms).2 v) =
      if first (counts htbl) l + k ≤ v / 2 ^ (HUFF_LOOKAHEAD - l) ∧
          v / 2 ^ (HUFF_LOOKAHEAD - l) < first (counts htbl) l + counts htbl l then
        (l, huffvalAt htbl
          (offset (counts htbl) l + (v / 2 ^ (HUFF_LOOKAHEAD - l) - first (counts htbl) l)))
      else (nbits v, syms v) := by
  have hpow : 0 < 2 ^ (HUFF_LOOKAHEAD - l) := Nat.two_pow_pos _
  induction i generalizing k nbits syms with
  | zero => rw [lookCodes, if_neg (by omega)]
  | succ i ih =>
      have hentry := fillLook_apply l (huffvalAt htbl (offset (counts htbl) l + k))
        (2 ^ (HUFF_LOOKAHEAD - l))
        ((words (counts htbl) 16 1).getD (offset (counts htbl) l + k) 0 * 2 ^ (HUFF_LOOKAHEAD - l))
        nbits syms v
      have hword := getD_words htbl hpos
        (Nat.le_trans hle (by decide)) (show k < counts htbl l by omega)
      rw [lookCodes, Nat.add_assoc, ih (k := k + 1) (by omega), hentry, hword]
      -- an entry is in the range of the word if and only if its leading bits are the word
      have hrange : ((first (counts htbl) l + k) * 2 ^ (HUFF_LOOKAHEAD - l) ≤ v ∧
            v < (first (counts htbl) l + k) * 2 ^ (HUFF_LOOKAHEAD - l) +
              2 ^ (HUFF_LOOKAHEAD - l)) ↔
          v / 2 ^ (HUFF_LOOKAHEAD - l) = first (counts htbl) l + k := by
        rw [← Nat.succ_mul, ← Nat.le_div_iff_mul_le hpow, ← Nat.div_lt_iff_lt_mul hpow]
        omega
      by_cases hhere : v / 2 ^ (HUFF_LOOKAHEAD - l) = first (counts htbl) l + k
      · rw [if_neg (by omega), if_pos (hrange.2 hhere), if_pos (by omega), hhere,
          Nat.add_sub_cancel_left]
      · rw [if_neg (mt hrange.1 hhere)]
        exact if_congr (by omega) rfl rfl

/-- The entry for a stream that is before all words of some lengths is left alone. -/
theorem lookahead_of_lt (htbl : JHUFF_TBL) {r l : Nat} {s : Stream} (hpos : 1 ≤ l) (hl : l + r = 9)
    (hs : ∀ m, l ≤ m → value s m < first (counts htbl) m) (nbits : Nat → Nat)
    (syms : Nat → UInt8) :
    (lookahead htbl (words (counts htbl) 16 1) r l (offset (counts htbl) l) nbits syms).1
        (value s HUFF_LOOKAHEAD) = nbits (value s HUFF_LOOKAHEAD) ∧
      (lookahead htbl (words (counts htbl) 16 1) r l (offset (counts htbl) l) nbits syms).2
        (value s HUFF_LOOKAHEAD) = syms (value s HUFF_LOOKAHEAD) := by
  induction r generalizing l nbits syms with
  | zero => exact ⟨rfl, rfl⟩
  | succ r ih =>
      have hentry := lookCodes_apply htbl (l := l) (i := counts htbl l) (k := 0) hpos
        (by rw [HUFF_LOOKAHEAD]; omega) (Nat.zero_add _) nbits syms (value s HUFF_LOOKAHEAD)
      have hdiv : value s HUFF_LOOKAHEAD / 2 ^ (HUFF_LOOKAHEAD - l) = value s l := by
        rw [← value_div s l (HUFF_LOOKAHEAD - l), Nat.add_sub_cancel' (by
          rw [HUFF_LOOKAHEAD]; omega)]
      have hlt := hs l (Nat.le_refl l)
      rw [hdiv, if_neg (by omega), Nat.add_zero] at hentry
      obtain ⟨hnbits, hsyms⟩ := Prod.mk.inj hentry
      rw [lookahead, bitsAt_eq_counts hpos (by omega)]
      obtain ⟨hfst, hsnd⟩ := ih (l := l + 1) (by omega) (by omega)
        (fun m hm => hs m (by omega)) _ _
      rw [offset] at hfst hsnd
      exact ⟨hfst.trans hnbits, hsnd.trans hsyms⟩

/-- The lookahead tables have the word that the stream begins with, if it has at most eight bits. -/
theorem lookahead_spec {r l : Nat} {s : Stream} (hpos : 1 ≤ l) (hl : l + r = 9)
    (hs : first (counts htbl) l ≤ value s l) (nbits : Nat → Nat) (syms : Nat → UInt8) :
    match find (counts htbl) s r l with
    | some (m, k) =>
        (lookahead htbl (words (counts htbl) 16 1) r l (offset (counts htbl) l) nbits syms).1
            (value s HUFF_LOOKAHEAD) = m ∧
          (lookahead htbl (words (counts htbl) 16 1) r l (offset (counts htbl) l) nbits syms).2
            (value s HUFF_LOOKAHEAD) = huffvalAt htbl (offset (counts htbl) m + k)
    | none =>
        (lookahead htbl (words (counts htbl) 16 1) r l (offset (counts htbl) l) nbits syms).1
            (value s HUFF_LOOKAHEAD) = nbits (value s HUFF_LOOKAHEAD) := by
  induction r generalizing l nbits syms with
  | zero => rfl
  | succ r ih =>
      have hentry := lookCodes_apply htbl (l := l) (i := counts htbl l) (k := 0) hpos
        (by rw [HUFF_LOOKAHEAD]; omega) (Nat.zero_add _) nbits syms (value s HUFF_LOOKAHEAD)
      have hdiv : value s HUFF_LOOKAHEAD / 2 ^ (HUFF_LOOKAHEAD - l) = value s l := by
        rw [← value_div s l (HUFF_LOOKAHEAD - l), Nat.add_sub_cancel' (by
          rw [HUFF_LOOKAHEAD]; omega)]
      rw [hdiv, Nat.add_zero] at hentry
      rw [find, lookahead, bitsAt_eq_counts hpos (by omega)]
      by_cases hhere : value s l < first (counts htbl) l + counts htbl l
      · -- the entry is written now, and longer words do not touch it
        rw [if_pos ⟨hs, hhere⟩] at hentry
        obtain ⟨hnbits, hsyms⟩ := Prod.mk.inj hentry
        obtain ⟨hfst, hsnd⟩ := lookahead_of_lt htbl (r := r) (l := l + 1) (by omega)
          (by omega) (fun m hm => value_lt_first hhere m hm) _ _
        rw [offset] at hfst hsnd
        rw [if_pos hhere]
        exact ⟨hfst.trans hnbits, hsnd.trans hsyms⟩
      · rw [if_neg fun h => hhere h.2] at hentry
        obtain ⟨hnbits, hsyms⟩ := Prod.mk.inj hentry
        have hrest := ih (l := l + 1) (by omega) (by omega) (first_succ_le (by omega))
          (lookCodes htbl (words (counts htbl) 16 1) l (counts htbl l) (offset (counts htbl) l)
            nbits syms).1
          (lookCodes htbl (words (counts htbl) 16 1) l (counts htbl l) (offset (counts htbl) l)
            nbits syms).2
        rw [offset] at hrest
        rw [if_neg hhere]
        cases hfind : find (counts htbl) s r (l + 1) with
        | none =>
            rw [hfind] at hrest
            exact hrest.trans hnbits
        | some w =>
            rw [hfind] at hrest
            exact hrest

/-- What the arrays of a table say about its canonical code. -/
structure Derived (htbl : JHUFF_TBL) (d : d_derived_tbl) : Prop where
  pub : d.pub = htbl
  maxcode : ∀ l, 1 ≤ l → l ≤ 16 → d.maxcode l = maxcodeOf htbl l
  sentinel : d.maxcode 17 = 0xFFFFF
  valoffset : ∀ l, 1 ≤ l → l ≤ 16 → counts htbl l ≠ 0 →
    d.valoffset l = (offset (counts htbl) l : Int) - first (counts htbl) l
  look : ∀ s : Stream,
    match find (counts htbl) s HUFF_LOOKAHEAD 1 with
    | some (l, k) => d.look_nbits (value s HUFF_LOOKAHEAD) = l ∧
        d.look_sym (value s HUFF_LOOKAHEAD) = huffvalAt htbl (offset (counts htbl) l + k)
    | none => d.look_nbits (value s HUFF_LOOKAHEAD) = 0

theorem derived_derive (htbl : JHUFF_TBL) (dtbl : d_derived_tbl) :
    Derived htbl (derive htbl (words (counts htbl) 16 1) dtbl) where
  pub := rfl
  maxcode := by
    intro l hpos hle
    show Function.update (arraysFrom htbl 16 1 dtbl.maxcode dtbl.valoffset).1 17 0xFFFFF l = _
    rw [Function.update_of_ne (by omega)]
    exact (arraysFrom_of_le (Nat.le_refl 1) (Nat.add_comm 1 16) hpos hle _ _).1
  sentinel := by
    show Function.update (arraysFrom htbl 16 1 dtbl.maxcode dtbl.valoffset).1 17 0xFFFFF 17 = _
    rw [Function.update_self]
  valoffset := by
    intro l hpos hle
    exact (arraysFrom_of_le (Nat.le_refl 1) (Nat.add_comm 1 16) hpos hle _ _).2
  look := by
    intro s
    exact lookahead_spec (Nat.le_refl 1) (Nat.add_comm 1 8) (Nat.zero_le _) (fun _ => 0)
      dtbl.look_sym

/-- The arrays of an accepted table describe its canonical code, whatever the workspace has. -/
theorem derived_of_eq_some {tables : Tables} {isDC : Bool} {tblno : Nat} {dtbl d : d_derived_tbl}
    (h : jpeg_make_d_derived_tbl tables isDC tblno dtbl = some d) :
    Accepted isDC d.pub ∧ Derived d.pub d := by
  obtain ⟨-, htbl, -, haccepted, rfl⟩ := jpeg_make_d_derived_tbl_eq_some_iff.1 h
  exact ⟨haccepted, derived_derive htbl dtbl⟩

end IotClient.Video.DerivedTables
