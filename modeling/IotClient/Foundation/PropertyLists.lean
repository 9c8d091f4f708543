import Mathlib.Tactic.IntervalCases
import IotClient.Foundation.JavaText
import IotClient.Foundation.Numerals
import IotClient.Foundation.Scanning
import IotClient.Foundation.Streams

/-!
# Property lists

`java.util.Properties.load` on a text in ISO 8859-1, and `Integer.parseInt` on one of its values.
A text is cut into natural lines; a natural line that ends with an odd number of backslashes goes
on in the next; a logical line is a key and an element, in which escapes are resolved.

`load_renderLines`: on lines without a backslash each line is one entry, and blank lines none.
-/

set_option autoImplicit false

namespace IotClient.Foundation.PropertyLists

open IotClient.Foundation.JavaText IotClient.Foundation.Scanning IotClient.Foundation.Streams

/-! ## Characters -/

def tab : UInt16 := 9
def lineFeed : UInt16 := 10
def formFeed : UInt16 := 12
def carriageReturn : UInt16 := 13
def space : UInt16 := 32
def exclamationMark : UInt16 := 33
def numberSign : UInt16 := 35
def plus : UInt16 := 43
def minus : UInt16 := 45
def colon : UInt16 := 58
def equalsSign : UInt16 := 61
def backslash : UInt16 := 92

/-- The white space of the format, without the line terminators. -/
def isSpace (c : UInt16) : Bool := c == space || c == tab || c == formFeed

/-- The separators between a key and its element, white space aside. -/
def isSeparator (c : UInt16) : Bool := c == equalsSign || c == colon

/-- ISO 8859-1: a byte is the code unit of the same number. -/
def latin1 (bytes : List UInt8) : JavaString := bytes.map UInt8.toUInt16

/-- The bytes of a text in ISO 8859-1. -/
def latin1Bytes (text : JavaString) : List UInt8 := text.map UInt16.toUInt8

theorem latin1_latin1Bytes {text : JavaString} (h : ∀ c ∈ text, c.toNat < 256) :
    latin1 (latin1Bytes text) = text := by
  rw [latin1, latin1Bytes, List.map_map]
  refine (List.map_congr_left fun c hc => ?_).trans (List.map_id text)
  refine UInt16.toNat_inj.1 ?_
  show c.toNat % 256 = c.toNat
  exact Nat.mod_eq_of_lt (h c hc)

/-! ## Lines -/

/-- The line terminators, CR, LF and CR LF, all become LF. -/
def normalise : JavaString → JavaString
  | [] => []
  | c :: d :: w =>
      if c = carriageReturn then
        if d = lineFeed then lineFeed :: normalise w else lineFeed :: normalise (d :: w)
      else c :: normalise (d :: w)
  | [c] => if c = carriageReturn then [lineFeed] else [c]

def naturalLines (text : JavaString) : List JavaString := (normalise text).splitOn lineFeed

/-- An odd number of backslashes at its end continues a line. -/
def continued (line : JavaString) : Bool := runLength backslash line % 2 == 1

/-- The first symbol marks a comment. -/
def isComment (line : JavaString) : Bool :=
  line.head?.any fun c => c == numberSign || c == exclamationMark

/-- The logical lines, with `pending` the part of the current one that was read already. A comment
is one only where a logical line starts. -/
def logicalLines : Option JavaString → List JavaString → List JavaString
  | pending, [] => pending.toList.filter (· ≠ [])
  | pending, line :: lines =>
      let line := line.dropWhile isSpace
      if pending.isNone && isComment line then logicalLines none lines
      else
        let whole := pending.getD [] ++ line
        if continued line then logicalLines (some whole.dropLast) lines
        else if whole = [] then logicalLines none lines
        else whole :: logicalLines none lines

/-! ## Entries -/

/-- The raw key, up to the first separator or space that is not escaped, and what follows it. -/
def splitKey : Bool → JavaString → JavaString × JavaString
  | _, [] => ([], [])
  | escaped, c :: w =>
      if !escaped && (isSeparator c || isSpace c) then ([], c :: w)
      else
        let rest := splitKey (c == backslash && !escaped) w
        (c :: rest.1, rest.2)

/-- The raw element: one separator is skipped, and the white space around it. -/
def rawElement (text : JavaString) : JavaString :=
  match text.dropWhile isSpace with
  | [] => []
  | c :: w => if isSeparator c then w.dropWhile isSpace else c :: w

/-- The value of a hexadecimal digit. -/
def hexDigit (c : UInt16) : Option Nat :=
  let n := c.toNat
  if 48 ≤ n ∧ n ≤ 57 then some (n - 48)
  else if 97 ≤ n ∧ n ≤ 102 then some (n - 87)
  else if 65 ≤ n ∧ n ≤ 70 then some (n - 55)
  else none

/-- What stands for the character after a backslash, `u` aside. -/
def escape (c : UInt16) : UInt16 :=
  if c = 116 then tab else if c = 114 then carriageReturn
  else if c = 110 then lineFeed else if c = 102 then formFeed else c

/-- The escapes of a raw key or element are resolved. -/
def unescape : JavaString → Except Exception JavaString
  | [] => .ok []
  | [c] => .ok (if c = backslash then [] else [c])
  | c :: d :: w =>
      if c = backslash then
        if d = 117 then
          match w with
          | a :: b :: e :: f :: w' =>
              match hexDigit a, hexDigit b, hexDigit e, hexDigit f with
              | some a, some b, some e, some f =>
                  (unescape w').map (UInt16.ofNat (((a * 16 + b) * 16 + e) * 16 + f) :: ·)
              | _, _, _, _ => .error .illegalArgument
          | _ => .error .illegalArgument
        else (unescape w).map (escape d :: ·)
      else (unescape (d :: w)).map (c :: ·)

/-- The entry of a logical line. -/
def entry (line : JavaString) : Except Exception (JavaString × JavaString) := do
  let key ← unescape (splitKey false line).1
  let element ← unescape (rawElement (splitKey false line).2)
  return (key, element)

/-- A table of properties, in the order in which they were put. -/
abbrev Properties := List (JavaString × JavaString)

/-- `load`. -/
def load (bytes : List UInt8) : Except Exception Properties :=
  (logicalLines none (naturalLines (latin1 bytes))).mapM entry

/-- `getProperty`: of several entries with one key the last counts. -/
def getProperty (props : Properties) (key : JavaString) : Option JavaString :=
  (props.reverse.find? (·.1 == key)).map (·.2)

/-! ## Numerals -/

/-- The zeros of the decimal digits among the code units. -/
def digitZeros : List Nat :=
  [0x30, 0x660, 0x6f0, 0x7c0, 0x966, 0x9e6, 0xa66, 0xae6, 0xb66, 0xbe6, 0xc66, 0xce6, 0xd66, 0xde6,
    0xe50, 0xed0, 0xf20, 0x1040, 0x1090, 0x17e0, 0x1810, 0x1946, 0x19d0, 0x1a80, 0x1a90, 0x1b50,
    0x1bb0, 0x1c40, 0x1c50, 0xa620, 0xa8d0, 0xa900, 0xa9d0, 0xa9f0, 0xaa50, 0xabf0, 0xff10]

/-- `Character.digit(c, 10)`. -/
def digit (c : UInt16) : Option Nat :=
  (digitZeros.find? fun z => z ≤ c.toNat && c.toNat < z + 10).map (c.toNat - ·)

/-- Whether a numeral has a minus sign, and what follows the sign. -/
def signOf : JavaString → Bool × JavaString
  | [] => (false, [])
  | c :: w => if c = minus then (true, w) else if c = plus then (false, w) else (false, c :: w)

/-- A number that fits an `int`. -/
def toInt (n : Int) : Except Exception Int :=
  if -2 ^ 31 ≤ n ∧ n < 2 ^ 31 then .ok n else .error .numberFormat

/-- `Integer.parseInt`. -/
def parseInt (text : JavaString) : Except Exception Int :=
  if (signOf text).2 = [] then .error .numberFormat
  else
    match (signOf text).2.mapM digit with
    | none => .error .numberFormat
    | some ds => toInt (if (signOf text).1 then -Numerals.value 10 ds else Numerals.value 10 ds)

/-! ## Lines without a backslash -/

/-- A line that is not cut, continued or dropped as a comment. -/
structure Plain (line : JavaString) : Prop where
  noReturn : carriageReturn ∉ line
  noFeed : lineFeed ∉ line
  noBackslash : backslash ∉ line
  noSpace : line.head?.any isSpace = false
  noComment : isComment line = false

/-- The lines with a terminator after each. -/
def renderLines (lines : List JavaString) : JavaString :=
  lines.flatMap (· ++ [carriageReturn, lineFeed])

theorem normalise_cons_of_ne {c : UInt16} (hc : c ≠ carriageReturn) (w : JavaString) :
    normalise (c :: w) = c :: normalise w := by
  cases w with
  | nil => exact if_neg hc
  | cons d w => rw [normalise, if_neg hc]

theorem naturalLines_append {line : JavaString} (hreturn : carriageReturn ∉ line)
    (hfeed : lineFeed ∉ line) (w : JavaString) :
    naturalLines (line ++ [carriageReturn, lineFeed] ++ w) = line :: naturalLines w := by
  have hnormal : ∀ l : JavaString, carriageReturn ∉ l →
      normalise (l ++ [carriageReturn, lineFeed] ++ w) = l ++ lineFeed :: normalise w := by
    intro l hl
    induction l with
    | nil =>
        show normalise (carriageReturn :: lineFeed :: w) = lineFeed :: normalise w
        rw [normalise, if_pos rfl, if_pos rfl]
    | cons c l ih =>
        rw [List.mem_cons, not_or] at hl
        rw [List.cons_append, List.cons_append, normalise_cons_of_ne fun h => hl.1 h.symm, ih hl.2]
        rfl
  rw [naturalLines, hnormal line hreturn, List.splitOn_append_cons_self_of_not_mem hfeed]
  rfl

theorem naturalLines_renderLines {lines : List JavaString} (h : ∀ line ∈ lines, Plain line) :
    naturalLines (renderLines lines) = lines ++ [[]] := by
  induction lines with
  | nil => rfl
  | cons line lines ih =>
      have hline := h line List.mem_cons_self
      rw [renderLines, List.flatMap_cons, naturalLines_append hline.noReturn hline.noFeed]
      exact congrArg (line :: ·) (ih fun l hl => h l (List.mem_cons_of_mem _ hl))

theorem Plain.dropWhile {line : JavaString} (h : Plain line) : line.dropWhile isSpace = line := by
  cases line with
  | nil => rfl
  | cons c w =>
      have hc : isSpace c = false := by simpa using h.noSpace
      rw [List.dropWhile_cons_of_neg (by simp [hc])]

theorem Plain.not_continued {line : JavaString} (h : Plain line) : continued line = false := by
  have hrun : runLength backslash line = 0 := by
    rw [runLength, List.length_eq_zero_iff, List.takeWhile_eq_nil_iff]
    intro hpos hlast
    refine h.noBackslash ?_
    have hmem : line.reverse.get ⟨0, hpos⟩ ∈ line.reverse := List.get_mem _ _
    rw [of_decide_eq_true hlast] at hmem
    exact List.mem_reverse.1 hmem
  rw [continued, hrun]
  rfl

theorem logicalLines_cons {line : JavaString} (h : Plain line) (lines : List JavaString) :
    logicalLines none (line :: lines) =
      if line = [] then logicalLines none lines else line :: logicalLines none lines := by
  rw [logicalLines]
  simp only [h.dropWhile, h.noComment, h.not_continued, Option.isNone_none, Bool.and_false,
    Option.getD_none, List.nil_append, Bool.false_eq_true, if_false]

theorem logicalLines_of_plain {lines : List JavaString} (h : ∀ line ∈ lines, Plain line) :
    logicalLines none (lines ++ [[]]) = lines.filter (· ≠ []) := by
  induction lines with
  | nil => rfl
  | cons line lines ih =>
      have hrest := ih fun l hl => h l (List.mem_cons_of_mem _ hl)
      rw [List.cons_append, logicalLines_cons (h line List.mem_cons_self), hrest]
      by_cases hnil : line = []
      · rw [if_pos hnil, List.filter_cons_of_neg (by simp [hnil])]
      · rw [if_neg hnil, List.filter_cons_of_pos (by simp [hnil])]

/-! ## Entries without a backslash -/

theorem unescape_of_not_mem {text : JavaString} (h : backslash ∉ text) :
    unescape text = .ok text := by
  induction text with
  | nil => rfl
  | cons c w ih =>
      rw [List.mem_cons, not_or] at h
      have hc : c ≠ backslash := fun heq => h.1 heq.symm
      cases w with
      | nil => rw [unescape, if_neg hc]
      | cons d w =>
          rw [unescape.eq_def]
          simp only [if_neg hc, ih h.2]
          rfl

theorem splitKey_append (escaped : Bool) (line : JavaString) :
    (splitKey escaped line).1 ++ (splitKey escaped line).2 = line := by
  induction line generalizing escaped with
  | nil => rfl
  | cons c w ih =>
      rw [splitKey]
      split
      · rfl
      · exact congrArg (c :: ·) (ih _)

theorem rawElement_suffix (text : JavaString) : rawElement text <:+ text := by
  have hdrop := List.dropWhile_suffix (l := text) isSpace
  rw [rawElement]
  split
  · exact List.nil_suffix
  · next c w heq =>
      rw [heq] at hdrop
      split
      · exact ((List.dropWhile_suffix _).trans (List.suffix_cons c w)).trans hdrop
      · exact hdrop

/-- The key and the element of a line without a backslash. -/
def plainEntry (line : JavaString) : JavaString × JavaString :=
  ((splitKey false line).1, rawElement (splitKey false line).2)

theorem entry_of_not_mem {line : JavaString} (h : backslash ∉ line) :
    entry line = .ok (plainEntry line) := by
  have happend := splitKey_append false line
  have hkey : backslash ∉ (splitKey false line).1 := by
    intro hmem
    refine h ?_
    rw [← happend]
    exact List.mem_append_left _ hmem
  have helement : backslash ∉ rawElement (splitKey false line).2 := by
    intro hmem
    refine h ?_
    rw [← happend]
    exact List.mem_append_right _ ((rawElement_suffix _).mem hmem)
  rw [entry, unescape_of_not_mem hkey, unescape_of_not_mem helement]
  rfl

/-- Every line without a backslash is an entry of its own, and blank lines are none. -/
theorem load_renderLines {bytes : List UInt8} {lines : List JavaString}
    (hbytes : latin1 bytes = renderLines lines) (h : ∀ line ∈ lines, Plain line) :
    load bytes = .ok ((lines.filter (· ≠ [])).map plainEntry) := by
  rw [load, hbytes, naturalLines_renderLines h, logicalLines_of_plain h]
  have hentries : ∀ ls : List JavaString, (∀ l ∈ ls, backslash ∉ l) →
      ls.mapM entry = .ok (ls.map plainEntry) := by
    intro ls hls
    induction ls with
    | nil => rfl
    | cons l ls ih =>
        rw [List.mapM_cons, entry_of_not_mem (hls l List.mem_cons_self),
          ih fun l' hl' => hls l' (List.mem_cons_of_mem _ hl')]
        rfl
  exact hentries _ fun l hl => (h l (List.mem_of_mem_filter hl)).noBackslash

/-- A field `name: value`, as header lines have them. -/
theorem plainEntry_field {name value : JavaString}
    (hname : ∀ c ∈ name, isSeparator c = false ∧ isSpace c = false ∧ c ≠ backslash)
    (hvalue : value.head?.any isSpace = false) :
    plainEntry (name ++ colon :: space :: value) = (name, value) := by
  have hsplit : splitKey false (name ++ colon :: space :: value) =
      (name, colon :: space :: value) := by
    induction name with
    | nil => rfl
    | cons c w ih =>
        obtain ⟨hseparator, hspace, hescape⟩ := hname c List.mem_cons_self
        rw [List.cons_append, splitKey, hseparator, hspace]
        simp only [Bool.or_self, Bool.and_false, Bool.false_eq_true, if_false, Bool.not_false,
          Bool.and_true, beq_eq_false_iff_ne.2 hescape,
          ih fun d hd => hname d (List.mem_cons_of_mem _ hd)]
  have hdrop : value.dropWhile isSpace = value := by
    cases value with
    | nil => rfl
    | cons c w =>
        have hc : isSpace c = false := by simpa using hvalue
        rw [List.dropWhile_cons_of_neg (by simp [hc])]
  rw [plainEntry, hsplit]
  show (name, (space :: value).dropWhile isSpace) = (name, value)
  rw [List.dropWhile_cons_of_pos rfl, hdrop]

/-! ## The exceptions -/

theorem map_eq_error_iff {f : JavaString → JavaString} {x : Except Exception JavaString}
    {e : Exception} : x.map f = .error e ↔ x = .error e := by
  cases x with
  | ok v => exact ⟨fun h => (by cases h), fun h => (by cases h)⟩
  | error e' => exact ⟨fun h => congrArg _ (Except.error.inj h), fun h => congrArg _
      (Except.error.inj h)⟩

theorem unescape_error {text : JavaString} {e : Exception} (h : unescape text = .error e) :
    e = .illegalArgument := by
  revert h
  fun_induction unescape text with
  | case1 => exact fun h => (by cases h)
  | case2 c => exact fun h => (by cases h)
  | case3 a b d f w' _ _ _ _ _ _ _ _ ih => exact fun h => ih (map_eq_error_iff.1 h)
  | case4 => exact fun h => (Except.error.inj h).symm
  | case5 => exact fun h => (Except.error.inj h).symm
  | case6 d w _ ih => exact fun h => ih (map_eq_error_iff.1 h)
  | case7 c d w _ ih => exact fun h => ih (map_eq_error_iff.1 h)

theorem entry_error {line : JavaString} {e : Exception} (h : entry line = .error e) :
    e = .illegalArgument := by
  rw [entry] at h
  cases hkey : unescape (splitKey false line).1 with
  | error e' =>
      rw [hkey] at h
      obtain rfl : e' = e := Except.error.inj h
      exact unescape_error hkey
  | ok key =>
      cases helement : unescape (rawElement (splitKey false line).2) with
      | error e' =>
          rw [hkey, helement] at h
          obtain rfl : e' = e := Except.error.inj h
          exact unescape_error helement
      | ok element =>
          rw [hkey, helement] at h
          cases h

theorem load_error {bytes : List UInt8} {e : Exception} (h : load bytes = .error e) :
    e = .illegalArgument := by
  rw [load] at h
  generalize logicalLines none (naturalLines (latin1 bytes)) = lines at h
  induction lines with
  | nil => cases h
  | cons line lines ih =>
      rw [List.mapM_cons] at h
      cases hentry : entry line with
      | error e' =>
          rw [hentry] at h
          obtain rfl : e' = e := Except.error.inj h
          exact entry_error hentry
      | ok v =>
          rw [hentry] at h
          cases hlines : lines.mapM entry with
          | error e' =>
              rw [hlines] at h
              obtain rfl : e' = e := Except.error.inj h
              exact ih hlines
          | ok vs =>
              rw [hlines] at h
              cases h

theorem toInt_error {n : Int} {e : Exception} (h : toInt n = .error e) : e = .numberFormat := by
  rw [toInt] at h
  split at h
  · cases h
  · exact (Except.error.inj h).symm

theorem parseInt_error {text : JavaString} {e : Exception} (h : parseInt text = .error e) :
    e = .numberFormat := by
  rw [parseInt] at h
  split at h
  · exact (Except.error.inj h).symm
  · split at h
    · exact (Except.error.inj h).symm
    · exact toInt_error h

theorem getProperty_of_forall_ne {props : Properties} {key : JavaString}
    (h : ∀ e ∈ props, e.1 ≠ key) : getProperty props key = none := by
  have hnone : props.reverse.find? (·.1 == key) = none := by
    rw [List.find?_eq_none]
    intro e he
    simpa using h e (List.mem_reverse.1 he)
  rw [getProperty, hnone]
  rfl

/-- The last entry of a key is the one that counts. -/
theorem getProperty_append_cons {before after : Properties} {key element : JavaString}
    (h : ∀ e ∈ after, e.1 ≠ key) :
    getProperty (before ++ (key, element) :: after) key = some element := by
  have hafter := Option.map_eq_none_iff.1 (getProperty_of_forall_ne h)
  rw [getProperty, List.reverse_append, List.reverse_cons, List.find?_append, List.find?_append,
    hafter, List.find?_cons_of_pos (by simp)]
  rfl

/-! ## Decimal numerals -/

/-- The decimal numeral of a number. -/
def decimal (n : Nat) : JavaString :=
  if n = 0 then [48] else (Nat.digits 10 n).reverse.map fun d => UInt16.ofNat (48 + d)

theorem digit_ofNat {d : Nat} (h : d < 10) : digit (UInt16.ofNat (48 + d)) = some d := by
  interval_cases d <;> rfl

theorem mapM_digit (ds : List Nat) (h : ∀ d ∈ ds, d < 10) :
    (ds.map fun d => UInt16.ofNat (48 + d)).mapM digit = some ds := by
  induction ds with
  | nil => rfl
  | cons d ds ih =>
      rw [List.map_cons, List.mapM_cons, digit_ofNat (h d List.mem_cons_self),
        ih fun e he => h e (List.mem_cons_of_mem _ he)]
      rfl

/-- The code units of a decimal numeral are digits. -/
theorem mem_decimal {n : Nat} {c : UInt16} (h : c ∈ decimal n) :
    ∃ d < 10, c = UInt16.ofNat (48 + d) := by
  rw [decimal] at h
  split at h
  · exact ⟨0, by omega, List.mem_singleton.1 h⟩
  · obtain ⟨d, hd, rfl⟩ := List.mem_map.1 h
    exact ⟨d, Nat.digits_lt_base (by omega) (List.mem_reverse.1 hd), rfl⟩

theorem decimal_ne_nil (n : Nat) : decimal n ≠ [] := by
  rw [decimal]
  split
  · exact List.cons_ne_nil _ _
  · next hn =>
      rw [ne_eq, List.map_eq_nil_iff, List.reverse_eq_nil_iff, Nat.digits_eq_nil_iff_eq_zero]
      exact hn

/-- `Integer.parseInt` reads a decimal numeral that fits an `int`. -/
theorem parseInt_decimal {n : Nat} (h : n < 2 ^ 31) : parseInt (decimal n) = .ok n := by
  obtain ⟨ds, hds, hdigits, hvalue⟩ : ∃ ds : List Nat, decimal n = ds.map (fun d =>
      UInt16.ofNat (48 + d)) ∧ (∀ d ∈ ds, d < 10) ∧ Numerals.value 10 ds = n := by
    by_cases hn : n = 0
    · refine ⟨[0], by rw [decimal, if_pos hn]; rfl, by simp, ?_⟩
      rw [hn]
      rfl
    · refine ⟨(Nat.digits 10 n).reverse, by rw [decimal, if_neg hn], ?_, ?_⟩
      · exact fun d hd => Nat.digits_lt_base (by omega) (List.mem_reverse.1 hd)
      · rw [Numerals.value, List.reverse_reverse, Nat.ofDigits_digits]
  have hne := decimal_ne_nil n
  cases hc : decimal n with
  | nil => exact absurd hc hne
  | cons c w =>
      obtain ⟨d, hd, hcd⟩ := mem_decimal (n := n) (c := c) (by rw [hc]; exact List.mem_cons_self)
      have hminus : c ≠ minus := by
        rw [hcd]
        interval_cases d <;> decide
      have hplus : c ≠ plus := by
        rw [hcd]
        interval_cases d <;> decide
      have hbound : (-2 ^ 31 : Int) ≤ n ∧ (n : Int) < 2 ^ 31 := by omega
      have hsign : signOf (c :: w) = (false, c :: w) := by
        rw [signOf, if_neg hminus, if_neg hplus]
      rw [parseInt, hsign, if_neg (List.cons_ne_nil c w), ← hc, hds, mapM_digit ds hdigits]
      simp only [hvalue, Bool.false_eq_true, if_false]
      rw [toInt, if_pos hbound]

end IotClient.Foundation.PropertyLists
