import HederaSdk.Hbar
import HederaSdk.Library.Pattern
import HederaSdk.Library.Split
import Mathlib.Data.Rat.Floor

/-!
# The texts of hbars

An amount is printed as a quotient by its unit. Quotients below a millionth are printed with
an exponent, which the pattern of the reader has no place for. Without a unit the text is in
tinybars or in hbars, and never that small.
-/

namespace HederaSdk

open Library
open Library.Pattern
open Library.Split (firstTwo)

/-! ## Printing numbers -/

namespace BigNumber

/-- `dividedBy`: 20 decimal places, and halves away from zero. -/
def dividedBy (a b : ℚ) : ℚ :=
  let places : ℚ := ⌊|a / b| * 10 ^ 20 + 1 / 2⌋ / 10 ^ 20
  if a / b < 0 then -places else places

/-- `coeffToString`: the digits without the zeros at the end. -/
def coeffToString (digits : List Char) : List Char := (digits.reverse.dropWhile (· == '0')).reverse

/-- The digits with a point behind the one of the exponent. -/
def toFixedPoint (text : List Char) (e : Int) : List Char :=
  if e < 0 then '0' :: '.' :: (List.replicate (-e - 1).toNat '0' ++ text)
  else
    let point := (e + 1).toNat
    if text.length < point then text ++ List.replicate (point - text.length) '0'
    else if point < text.length then text.take point ++ '.' :: text.drop point
    else text

def toExponential (text : List Char) (e : Int) : List Char :=
  (match text with
    | first :: second :: rest => first :: '.' :: second :: rest
    | _ => text) ++ (if e < 0 then ['e'] else ['e', '+']) ++ Text.decimal e

/-- `toString` of a number with 20 decimal places. -/
def toString (q : ℚ) : List Char :=
  let coefficient := ⌊|q| * 10 ^ 20⌋.toNat
  if coefficient = 0 then ['0']
  else
    let digits := Nat.toDigits 10 coefficient
    let e : Int := digits.length - 21
    let text := coeffToString digits
    (if q < 0 then ['-'] else []) ++
      if e ≤ -7 ∨ 21 ≤ e then toExponential text e else toFixedPoint text e

end BigNumber

/-! ## Printing and reading hbars -/

namespace Hbar

/-- `toString(unit)` -/
def toString (hbar : Hbar) : Option HbarUnit → String
  | some unit =>
      .ofList (BigNumber.toString (BigNumber.dividedBy hbar.valueInTinybar unit.tinybars) ++
        ' ' :: unit.symbol.toList)
  | none =>
      if hbar.valueInTinybar < 10000 ∧ -10000 < hbar.valueInTinybar then
        .ofList (hbar.toFixed.toList ++ ' ' :: HbarUnit.tinybar.symbol.toList)
      else
        .ofList (BigNumber.toString (BigNumber.dividedBy hbar.valueInTinybar HbarUnit.hbar.tinybars) ++
          ' ' :: HbarUnit.hbar.symbol.toList)

/-- `(?:\+|-)?\d+(?:\.\d+)?` -/
def amountPattern : Pattern :=
  .seq (optional (.either (literal '+') (literal '-')))
    (.seq (plus (.char Char.isDigit)) (optional (.seq (literal '.') (plus (.char Char.isDigit)))))

/-- One character after the other. -/
def word : List Char → Pattern
  | [] => .empty
  | c :: rest => .seq (literal c) (word rest)

/-- `tℏ|μℏ|mℏ|ℏ|kℏ|Mℏ|Gℏ` -/
def symbolPattern : Pattern :=
  .either (word ['t', 'ℏ']) (.either (word ['μ', 'ℏ']) (.either (word ['m', 'ℏ'])
    (.either (word ['ℏ']) (.either (word ['k', 'ℏ']) (.either (word ['M', 'ℏ']) (word ['G', 'ℏ']))))))

/-- `pattern` -/
def textPattern : Pattern :=
  all [.start, .seq (.group 1 amountPattern) (optional (.seq (literal ' ') (.group 2 symbolPattern))), .stop]

/-- The unit of the symbol, if there is one. -/
def readUnit (unit : HbarUnit) : Option (List Char) → Except JsError HbarUnit
  | none => .ok unit
  | some symbol => HbarUnit.fromString (.ofList symbol)

/-- `Hbar.fromString(str, unit)` -/
def fromString (reader : NumberReader) (str : String) (unit : HbarUnit) : Except JsError Hbar :=
  if textPattern.test str.toList then
    match firstTwo [' '] str.toList with
    | (amount, symbol) => (readUnit unit symbol).bind fun unit =>
        construct reader (.bigNumber (reader.read (.ofList amount))) unit
  else .error (.error "invalid argument provided")

/-- The text of an amount in tinybars is read as the amount. -/
def ComesBack (reader : NumberReader) (v : Int) (unit : Option HbarUnit) : Prop :=
  (construct reader (.long v) .tinybar).bind (fun hbar => fromString reader (hbar.toString unit) .hbar) =
    .ok ⟨v⟩

/-! ## Reading plain decimals -/

theorem matches_word (text : List Char) : (word text).Matches text := by
  induction text with
  | nil => exact matches_empty
  | cons c rest inductionHypothesis => exact (matches_char (by simp)).seq inductionHypothesis

theorem matches_symbol (unit : HbarUnit) : symbolPattern.Matches unit.symbol.toList := by
  cases unit with
  | tinybar => exact (matches_word _).left
  | microbar => exact (matches_word _).left.right
  | millibar => exact (matches_word _).left.right.right
  | hbar => exact (matches_word _).left.right.right.right
  | kilobar => exact (matches_word _).left.right.right.right.right
  | megabar => exact (matches_word _).left.right.right.right.right.right
  | gigabar => exact (matches_word _).right.right.right.right.right.right

theorem matches_amount (plain : Plain) : amountPattern.Matches plain.text := by
  have sign : (optional (.either (literal '+') (literal '-'))).Matches
      (if plain.negative then ['-'] else []) := by
    cases plain.negative with
    | true => exact (matches_char (by decide)).right.left
    | false => exact matches_empty.right
  have whole : (plus (.char Char.isDigit)).Matches plain.whole :=
    matches_plus plain.nonempty fun c member => plain.digits c (List.mem_append_left _ member)
  have fraction : (optional (.seq (literal '.') (plus (.char Char.isDigit)))).Matches
      (if plain.fraction = [] then [] else '.' :: plain.fraction) := by
    split
    · exact matches_empty.right
    · rename_i some
      exact ((matches_char (by decide)).seq
        (matches_plus some fun c member => plain.digits c (List.mem_append_right _ member))).left
  exact sign.seq (whole.seq fraction)

theorem space_not_mem_text (plain : Plain) : ' ' ∉ plain.text := by
  intro member
  rcases List.mem_append.mp member with sign | magnitude
  · split at sign
    · exact absurd sign (by decide)
    · cases sign
  · have noDigit : ∀ c ∈ plain.whole ++ plain.fraction, c ≠ ' ' := by
      rintro c inside rfl
      have digit := plain.digits _ inside
      cases digit
    rcases List.mem_append.mp magnitude with whole | fraction
    · exact noDigit _ (List.mem_append_left _ whole) rfl
    · split at fraction
      · cases fraction
      · rcases List.mem_cons.mp fraction with point | digit
        · cases point
        · exact noDigit _ (List.mem_append_right _ digit) rfl

/-- A plain decimal in a unit is read as so many of the unit. -/
theorem fromString_plain {reader : NumberReader} (faithful : reader.Faithful) (plain : Plain)
    (unit default : HbarUnit) :
    fromString reader (.ofList (plain.text ++ ' ' :: unit.symbol.toList)) default =
      construct reader (.bigNumber (some plain.value)) unit := by
  have symbol : (optional (.seq (literal ' ') (.group 2 symbolPattern))).Matches
      (' ' :: unit.symbol.toList) := ((matches_char (by decide)).seq (matches_symbol unit).group).left
  have found : textPattern.test (plain.text ++ ' ' :: unit.symbol.toList) = true :=
    test_of_matches ((matches_amount plain).group.seq symbol)
  have noSpace : ' ' ∉ unit.symbol.toList := by
    cases unit <;> decide
  have parts := Split.firstTwo_cons (space_not_mem_text plain) noSpace
  rw [fromString, String.toList_ofList, if_pos found, parts]
  simp only [readUnit, String.ofList_toList, HbarUnit.fromString_symbol, Except.bind,
    faithful.plain plain]

/-- A text with an exponent is refused. -/
theorem fromString_exponent (reader : NumberReader) {text : List Char} (exponent : 'e' ∈ text)
    (default : HbarUnit) :
    fromString reader (.ofList text) default = .error (.error "invalid argument provided") := by
  rw [fromString, String.toList_ofList, if_neg]
  intro found
  have allowed := allows_of_test found exponent
  exact absurd allowed (by decide)

theorem construct_value {reader : NumberReader} {q : ℚ} {unit : HbarUnit} {v : Int}
    (amount : q * unit.tinybars = v) : construct reader (.bigNumber (some q)) unit = .ok ⟨v⟩ := by
  rw [construct]
  split
  · rename_i tinybar
    have one : q = v := by simpa [tinybar, HbarUnit.tinybars, HbarUnit.exponent] using amount
    exact requireInteger_eq_ok.mpr (congrArg some one)
  · exact requireInteger_eq_ok.mpr (congrArg some amount)

end Hbar

/-! ## What is printed -/

namespace BigNumber

theorem ofDigitChars_zeros (n : Nat) : Nat.ofDigitChars 10 (List.replicate n '0') 0 = 0 := by
  induction n with
  | zero => rfl
  | succ n inductionHypothesis => exact inductionHypothesis

theorem ofDigitChars_zeros_append (n : Nat) (text : List Char) :
    Nat.ofDigitChars 10 (List.replicate n '0' ++ text) 0 = Nat.ofDigitChars 10 text 0 := by
  rw [Nat.ofDigitChars_append, ofDigitChars_zeros]

theorem ofDigitChars_append_zeros (text : List Char) (n : Nat) :
    Nat.ofDigitChars 10 (text ++ List.replicate n '0') 0 = Nat.ofDigitChars 10 text 0 * 10 ^ n := by
  rw [Nat.ofDigitChars_append, Nat.ofDigitChars_eq_ofDigitChars_zero, ofDigitChars_zeros,
    List.length_replicate, Nat.add_zero, Nat.mul_comm]

theorem isDigit_of_mem_zeros {n : Nat} {c : Char} (member : c ∈ List.replicate n '0') : c.isDigit = true := by
  rw [(List.mem_replicate.mp member).2]
  decide

/-- The zeros at the end are taken away. -/
theorem coeffToString_append (digits : List Char) :
    ∃ zeros, digits = coeffToString digits ++ List.replicate zeros '0' := by
  refine ⟨(digits.reverse.takeWhile (· == '0')).length, ?_⟩
  have all : digits.reverse.takeWhile (· == '0') =
      List.replicate (digits.reverse.takeWhile (· == '0')).length '0' := by
    refine List.eq_replicate_of_mem fun c member => ?_
    have isZero := List.mem_takeWhile_imp member
    exact beq_iff_eq.mp isZero
  have whole := List.takeWhile_append_dropWhile (p := (· == '0')) (l := digits.reverse)
  rw [all] at whole
  have back := congrArg List.reverse whole
  rw [List.reverse_reverse, List.reverse_append, List.reverse_replicate] at back
  exact back.symm

theorem exists_plain (negative : Bool) {whole fraction : List Char} (nonempty : whole ≠ [])
    (digits : ∀ c ∈ whole ++ fraction, c.isDigit = true) :
    ∃ plain : Plain, plain.negative = negative ∧
      plain.magnitude = whole ++ (if fraction = [] then [] else '.' :: fraction) ∧
      plain.absolute = (Nat.ofDigitChars 10 (whole ++ fraction) 0 : ℚ) / 10 ^ fraction.length :=
  ⟨⟨negative, whole, fraction, nonempty, digits⟩, rfl, rfl, rfl⟩

/-- Digits with a point among them are a plain decimal. -/
theorem toFixedPoint_plain (negative : Bool) {text : List Char} (some : text ≠ [])
    (digits : ∀ c ∈ text, c.isDigit = true) (e : Int) :
    ∃ plain : Plain, plain.negative = negative ∧ plain.magnitude = toFixedPoint text e ∧
      plain.absolute = Nat.ofDigitChars 10 text 0 * (10 : ℚ) ^ (e + 1 - text.length) := by
  have length := List.length_pos_iff.mpr some
  by_cases small : e < 0
  · have filled : List.replicate (-e - 1).toNat '0' ++ text ≠ [] := by simp [some]
    have all : ∀ c ∈ ['0'] ++ (List.replicate (-e - 1).toNat '0' ++ text), c.isDigit = true := by
      intro c member
      rcases List.mem_append.mp member with zero | rest
      · rw [List.mem_singleton.mp zero]
        decide
      · rcases List.mem_append.mp rest with zeros | digit
        · exact isDigit_of_mem_zeros zeros
        · exact digits c digit
    obtain ⟨plain, sign, shape, value⟩ := exists_plain negative (List.cons_ne_nil '0' []) all
    refine ⟨plain, sign, ?_, ?_⟩
    · rw [shape, if_neg filled, toFixedPoint, if_pos small]
      rfl
    · have exponent : e + 1 - text.length = -(((-e - 1).toNat + text.length : Nat) : Int) := by
        push_cast
        omega
      have one : ['0'] = List.replicate 1 '0' := rfl
      rw [value, exponent, zpow_neg, zpow_natCast, ← div_eq_mul_inv, List.length_append,
        List.length_replicate, one, ofDigitChars_zeros_append, ofDigitChars_zeros_append]
  · by_cases short : text.length < (e + 1).toNat
    · have all : ∀ c ∈ text ++ List.replicate ((e + 1).toNat - text.length) '0' ++ [], c.isDigit = true := by
        intro c member
        rw [List.append_nil] at member
        rcases List.mem_append.mp member with digit | zeros
        · exact digits c digit
        · exact isDigit_of_mem_zeros zeros
      obtain ⟨plain, sign, shape, value⟩ := exists_plain negative (by simp [some]) all
      refine ⟨plain, sign, ?_, ?_⟩
      · rw [shape, if_pos rfl, List.append_nil, toFixedPoint, if_neg small]
        simp [short]
      · have exponent : e + 1 - text.length = (((e + 1).toNat - text.length : Nat) : Int) := by omega
        rw [value, List.append_nil, ofDigitChars_append_zeros, exponent, zpow_natCast]
        simp
    · by_cases long : (e + 1).toNat < text.length
      · have front : text.take (e + 1).toNat ≠ [] := by
          intro none
          rcases List.take_eq_nil_iff.mp none with zero | empty
          · omega
          · exact some empty
        have behind : text.drop (e + 1).toNat ≠ [] := by
          intro none
          have := List.drop_eq_nil_iff.mp none
          omega
        have all : ∀ c ∈ text.take (e + 1).toNat ++ text.drop (e + 1).toNat, c.isDigit = true := by
          rw [List.take_append_drop]
          exact digits
        obtain ⟨plain, sign, shape, value⟩ := exists_plain negative front all
        refine ⟨plain, sign, ?_, ?_⟩
        · rw [shape, if_neg behind, toFixedPoint, if_neg small]
          simp [short, long]
        · have exponent : e + 1 - text.length = -((text.length - (e + 1).toNat : Nat) : Int) := by omega
          rw [value, List.take_append_drop, List.length_drop, exponent, zpow_neg, zpow_natCast,
            div_eq_mul_inv]
      · have all : ∀ c ∈ text ++ [], c.isDigit = true := by
          rw [List.append_nil]
          exact digits
        obtain ⟨plain, sign, shape, value⟩ := exists_plain negative some all
        refine ⟨plain, sign, ?_, ?_⟩
        · rw [shape, if_pos rfl, List.append_nil, toFixedPoint, if_neg small]
          simp [short, long]
        · have exponent : e + 1 - text.length = 0 := by omega
          rw [value, List.append_nil, exponent]
          simp

theorem abs_scaled (v : Int) {k : Nat} (few : k ≤ 20) :
    |(v : ℚ) / 10 ^ k| * 10 ^ 20 = ((v.natAbs * 10 ^ (20 - k) : Nat) : ℚ) := by
  have powers : (10 : ℚ) ^ 20 = 10 ^ (20 - k) * 10 ^ k := by
    rw [← pow_add, Nat.sub_add_cancel few]
  have positive : (0 : ℚ) < 10 ^ k := by positivity
  have absolute : |(v : ℚ)| = (v.natAbs : ℚ) := by rw [Nat.cast_natAbs, Int.cast_abs]
  rw [abs_div, absolute, abs_of_pos positive, powers]
  push_cast
  field_simp

/-- A quotient with no more than 20 places is exact. -/
theorem dividedBy_eq (v : Int) {k : Nat} (few : k ≤ 20) : dividedBy v (10 ^ k) = v / 10 ^ k := by
  have exact_ : (⌊|(v : ℚ) / 10 ^ k| * 10 ^ 20 + 1 / 2⌋ : ℚ) / 10 ^ 20 = |(v : ℚ) / 10 ^ k| := by
    have floor (n : Nat) : ⌊(n : ℚ) + 1 / 2⌋ = n := by
      rw [Int.floor_eq_iff, Int.cast_natCast]
      constructor
      · linarith
      · linarith
    rw [abs_scaled v few, floor, Int.cast_natCast, ← abs_scaled v few]
    field_simp
  rw [dividedBy]
  simp only [exact_]
  split
  · rename_i negative
    rw [abs_of_neg negative, neg_neg]
  · rename_i positive
    exact abs_of_nonneg (not_lt.mp positive)

/-- The digits and the exponent of a quotient. -/
theorem toString_quotient {v : Int} (nonzero : v ≠ 0) {k : Nat} (few : k ≤ 20) :
    toString ((v : ℚ) / 10 ^ k) =
      (if (v : ℚ) / 10 ^ k < 0 then ['-'] else []) ++
        let digits := Nat.toDigits 10 (v.natAbs * 10 ^ (20 - k))
        let e : Int := digits.length - 21
        if e ≤ -7 ∨ 21 ≤ e then toExponential (coeffToString digits) e
        else toFixedPoint (coeffToString digits) e := by
  have coefficient : ⌊|(v : ℚ) / 10 ^ k| * 10 ^ 20⌋.toNat = v.natAbs * 10 ^ (20 - k) := by
    rw [abs_scaled v few, Int.floor_natCast, Int.toNat_natCast]
  have some : v.natAbs * 10 ^ (20 - k) ≠ 0 := by
    have := Int.natAbs_pos.mpr nonzero
    positivity
  rw [toString]
  simp only [coefficient, if_neg some]

/-- The digits of a quotient, without zeros at the end, and what they stand for. -/
theorem coeffToString_value {n : Nat} (positive : 0 < n) :
    coeffToString (Nat.toDigits 10 n) ≠ [] ∧ (∀ c ∈ coeffToString (Nat.toDigits 10 n), c.isDigit = true) ∧
      ∀ places : Int, (Nat.ofDigitChars 10 (coeffToString (Nat.toDigits 10 n)) 0 : ℚ) *
        (10 : ℚ) ^ ((Nat.toDigits 10 n).length - places - (coeffToString (Nat.toDigits 10 n)).length) =
          n / (10 : ℚ) ^ places := by
  obtain ⟨zeros, whole⟩ := coeffToString_append (Nat.toDigits 10 n)
  have value : Nat.ofDigitChars 10 (coeffToString (Nat.toDigits 10 n)) 0 * 10 ^ zeros = n := by
    have read := congrArg (fun digits => Nat.ofDigitChars 10 digits 0) whole
    simp only [Nat.ofDigitChars_ten_toDigits, ofDigitChars_append_zeros] at read
    exact read.symm
  refine ⟨fun none => ?_, fun c member => ?_, fun places => ?_⟩
  · rw [none] at value
    simp at value
    omega
  · have inside : c ∈ Nat.toDigits 10 n := by
      rw [whole]
      exact List.mem_append_left _ member
    exact Nat.isDigit_of_mem_toDigits (by decide) (by decide) inside
  · have length := congrArg List.length whole
    rw [List.length_append, List.length_replicate] at length
    have exponent : ((Nat.toDigits 10 n).length : Int) - places -
        (coeffToString (Nat.toDigits 10 n)).length = zeros - places := by omega
    have read : (Nat.ofDigitChars 10 (coeffToString (Nat.toDigits 10 n)) 0 : ℚ) * 10 ^ zeros = n := by
      exact_mod_cast value
    rw [exponent, zpow_sub₀ (by decide), zpow_natCast, ← read, mul_div_assoc]

/-- A quotient of a millionth or more, below 10^21, is printed as a plain decimal. -/
theorem toString_plain {v : Int} {k : Nat} (few : k ≤ 20) (nonzero : v ≠ 0)
    (large : 10 ^ k ≤ v.natAbs * 10 ^ 6) (small : v.natAbs < 10 ^ 21) :
    ∃ plain : Plain, toString ((v : ℚ) / 10 ^ k) = plain.text ∧ plain.value = v / 10 ^ k := by
  have natAbs := Int.natAbs_pos.mpr nonzero
  have positive : 0 < v.natAbs * 10 ^ (20 - k) := Nat.mul_pos natAbs (Nat.pow_pos (by decide))
  have low : 14 < (Nat.toDigits 10 (v.natAbs * 10 ^ (20 - k))).length := by
    by_contra short
    have bound := (Nat.length_toDigits_le_iff (by decide) (by decide)).mp (not_lt.mp short)
    have scaled : 10 ^ k * 10 ^ (20 - k) ≤ v.natAbs * 10 ^ 6 * 10 ^ (20 - k) := Nat.mul_le_mul_right _ large
    rw [← pow_add, Nat.add_sub_cancel' few] at scaled
    have moved : v.natAbs * 10 ^ 6 * 10 ^ (20 - k) = v.natAbs * 10 ^ (20 - k) * 10 ^ 6 := by ring
    omega
  have high : (Nat.toDigits 10 (v.natAbs * 10 ^ (20 - k))).length ≤ 41 := by
    apply (Nat.length_toDigits_le_iff (by decide) (by decide)).mpr
    calc v.natAbs * 10 ^ (20 - k) < 10 ^ 21 * 10 ^ (20 - k) :=
          Nat.mul_lt_mul_of_pos_right small (Nat.pow_pos (by decide))
      _ = 10 ^ (21 + (20 - k)) := by rw [pow_add]
      _ ≤ 10 ^ 41 := Nat.pow_le_pow_right (by decide) (by omega)
  obtain ⟨some, digits, value⟩ := coeffToString_value positive
  obtain ⟨plain, sign, shape, absolute⟩ := toFixedPoint_plain ((v : ℚ) / 10 ^ k < 0) some digits
    ((Nat.toDigits 10 (v.natAbs * 10 ^ (20 - k))).length - 21)
  have magnitude : plain.absolute = |(v : ℚ) / 10 ^ k| := by
    have exponent : ((Nat.toDigits 10 (v.natAbs * 10 ^ (20 - k))).length : Int) - 21 + 1 -
        (coeffToString (Nat.toDigits 10 (v.natAbs * 10 ^ (20 - k)))).length =
        (Nat.toDigits 10 (v.natAbs * 10 ^ (20 - k))).length - 20 -
          (coeffToString (Nat.toDigits 10 (v.natAbs * 10 ^ (20 - k)))).length := by omega
    have twenty : (10 : ℚ) ^ (20 : Int) = 10 ^ 20 := by norm_num
    rw [absolute, exponent, value 20, ← abs_scaled v few, twenty]
    field_simp
  have plainly : ¬(((Nat.toDigits 10 (v.natAbs * 10 ^ (20 - k))).length : Int) - 21 ≤ -7 ∨
      (21 : Int) ≤ (Nat.toDigits 10 (v.natAbs * 10 ^ (20 - k))).length - 21) := by omega
  refine ⟨plain, ?_, ?_⟩
  · rw [toString_quotient nonzero few, Plain.text, sign, shape]
    simp only [if_neg plainly, decide_eq_true_eq]
  · rw [Plain.value, sign, magnitude]
    by_cases negative : (v : ℚ) / 10 ^ k < 0
    · simp [negative, abs_of_neg]
    · simp [negative, abs_of_nonneg (not_lt.mp negative)]

theorem mem_toExponential (text : List Char) (e : Int) : 'e' ∈ toExponential text e := by
  unfold toExponential
  apply List.mem_append_left
  apply List.mem_append_right
  split
  · exact List.mem_cons_self
  · exact List.mem_cons_self

/-- A smaller one is printed with an exponent. -/
theorem toString_exponent {v : Int} {k : Nat} (few : k ≤ 20) (nonzero : v ≠ 0)
    (small : v.natAbs * 10 ^ 6 < 10 ^ k) : 'e' ∈ toString ((v : ℚ) / 10 ^ k) := by
  have short : (Nat.toDigits 10 (v.natAbs * 10 ^ (20 - k))).length ≤ 14 := by
    apply (Nat.length_toDigits_le_iff (by decide) (by decide)).mpr
    have scaled : v.natAbs * 10 ^ 6 * 10 ^ (20 - k) < 10 ^ k * 10 ^ (20 - k) :=
      Nat.mul_lt_mul_of_pos_right small (Nat.pow_pos (by decide))
    rw [← pow_add, Nat.add_sub_cancel' few] at scaled
    have moved : v.natAbs * 10 ^ 6 * 10 ^ (20 - k) = v.natAbs * 10 ^ (20 - k) * 10 ^ 6 := by ring
    omega
  have tiny : ((Nat.toDigits 10 (v.natAbs * 10 ^ (20 - k))).length : Int) - 21 ≤ -7 ∨
      (21 : Int) ≤ (Nat.toDigits 10 (v.natAbs * 10 ^ (20 - k))).length - 21 := by omega
  rw [toString_quotient nonzero few]
  apply List.mem_append_right
  simp only [if_pos tiny]
  exact mem_toExponential _ _

end BigNumber

namespace Hbar

variable {reader : NumberReader}

theorem comesBack_iff_fromString (faithful : reader.Faithful) (v : Int) (unit : Option HbarUnit) :
    ComesBack reader v unit ↔ fromString reader ((⟨v⟩ : Hbar).toString unit) .hbar = .ok ⟨v⟩ := by
  have made : construct reader (.long v) .tinybar = .ok ⟨v⟩ := by
    rw [construct, if_pos rfl]
    exact requireInteger_eq_ok.mpr (faithful.integer v)
  rw [ComesBack, made]
  rfl

/-- A text in a unit comes back unless the amount is below a millionth of the unit. -/
theorem fromString_quotient_iff (faithful : reader.Faithful) {v : Int} (long : IsLong v) (unit : HbarUnit) :
    fromString reader (.ofList (BigNumber.toString (BigNumber.dividedBy v unit.tinybars) ++
        ' ' :: unit.symbol.toList)) .hbar = .ok ⟨v⟩ ↔
      v = 0 ∨ 10 ^ unit.exponent ≤ v.natAbs * 10 ^ 6 := by
  have few : unit.exponent ≤ 20 := by
    cases unit <;> decide
  have scale : (unit.tinybars : ℚ) ≠ 0 := pow_ne_zero _ (by decide)
  have quotient : BigNumber.dividedBy v unit.tinybars = v / unit.tinybars := BigNumber.dividedBy_eq v few
  rw [quotient]
  by_cases zero : v = 0
  · refine iff_of_true ?_ (.inl zero)
    have text : BigNumber.toString ((v : ℚ) / unit.tinybars) = (Plain.ofInt 0).text := by
      rw [zero, Int.cast_zero, zero_div]
      decide +kernel
    rw [text, fromString_plain faithful]
    apply construct_value
    rw [Plain.value_ofInt, zero, Int.cast_zero, zero_mul]
  · by_cases large : 10 ^ unit.exponent ≤ v.natAbs * 10 ^ 6
    · refine iff_of_true ?_ (.inr large)
      have bound : v.natAbs < 10 ^ 21 := by
        have := long.1
        have := long.2
        omega
      obtain ⟨plain, text, value⟩ := BigNumber.toString_plain few zero large bound
      have text : BigNumber.toString ((v : ℚ) / unit.tinybars) = plain.text := text
      rw [text, fromString_plain faithful]
      apply construct_value
      rw [value]
      exact div_mul_cancel₀ _ scale
    · refine iff_of_false ?_ (not_or.mpr ⟨zero, large⟩)
      have exponent : 'e' ∈ BigNumber.toString ((v : ℚ) / unit.tinybars) :=
        BigNumber.toString_exponent few zero (not_le.mp large)
      rw [fromString_exponent reader (List.mem_append_left _ exponent)]
      exact nofun

/-- Without a unit every amount comes back. -/
theorem fromString_toString_none (faithful : reader.Faithful) {v : Int} (long : IsLong v) :
    fromString reader ((⟨v⟩ : Hbar).toString none) .hbar = .ok ⟨v⟩ := by
  rw [toString]
  split
  · have text : (⟨v⟩ : Hbar).toFixed.toList = (Plain.ofInt v).text := (Plain.text_ofInt v).symm
    rw [text, fromString_plain faithful]
    apply construct_value
    simp [Plain.value_ofInt, HbarUnit.tinybars, HbarUnit.exponent]
  · rename_i other
    have many : ¬(v < 10000 ∧ -10000 < v) := other
    apply (fromString_quotient_iff faithful long .hbar).mpr
    refine .inr ?_
    simp only [HbarUnit.exponent]
    omega

/-- The text of an amount in a unit comes back unless it is below a millionth of the unit
and not 0. -/
theorem amount_comesBack_iff (faithful : reader.Faithful) {v : Int} (long : IsLong v) (unit : Option HbarUnit) :
    ComesBack reader v unit ↔ v = 0 ∨ ∀ u ∈ unit, 10 ^ u.exponent ≤ v.natAbs * 10 ^ 6 := by
  rw [comesBack_iff_fromString faithful]
  cases unit with
  | none => exact iff_of_true (fromString_toString_none faithful long) (.inr nofun)
  | some u =>
      simp only [Option.mem_some_iff, forall_eq']
      exact fromString_quotient_iff faithful long u

section Samples

theorem three_kilobars_come_back : ComesBack plainReader 300000000001 (some .kilobar) :=
  (amount_comesBack_iff plainReader_faithful (by decide) _).mpr (.inr (by decide))

/-- A tinybar is printed as `1e-8 ℏ`, which is refused. -/
theorem a_tinybar_in_hbars_is_refused :
    (⟨1⟩ : Hbar).toString (some .hbar) = "1e-8 ℏ" ∧ ¬ ComesBack plainReader 1 (some .hbar) := by
  have text : (⟨1⟩ : Hbar).toString (some .hbar) = "1e-8 ℏ" := by decide +kernel
  refine ⟨text, fun back => ?_⟩
  have refused := @fromString_exponent plainReader "1e-8 ℏ".toList (by decide) .hbar
  rw [String.ofList_toList] at refused
  rw [comesBack_iff_fromString plainReader_faithful, text, refused] at back
  cases back

end Samples

end Hbar

end HederaSdk
