import HederaSdk.Cryptography.Hex
import HederaSdk.Js.Value
import HederaSdk.Library.Text

/-!
# JSON texts

`JSON.stringify` and `JSON.parse` for the values that the program writes: no lists, and numbers
that are integers. What is written for a value without `undefined` whose objects name no property
twice is read as that value; the UTF-8 bytes of a text are read as that text.
-/

namespace HederaSdk

/-! ## UTF-8 -/

/-- `utf8.encode` -/
def utf8Encode (text : String) : Bytes := text.toList.flatMap String.utf8EncodeChar

/-- The continuation bytes that a first byte asks for. -/
def continuationCount (first : UInt8) : Nat :=
  if 0xc2 ≤ first ∧ first ≤ 0xdf then 1
  else if 0xe0 ≤ first ∧ first ≤ 0xef then 2
  else if 0xf0 ≤ first ∧ first ≤ 0xf4 then 3
  else 0

/-- The second byte may follow the first one. -/
def isSecondByte (first second : UInt8) : Bool :=
  (if first = 0xe0 then 0xa0 else if first = 0xf0 then 0x90 else 0x80) ≤ second &&
    second ≤ (if first = 0xed then 0x9f else if first = 0xf4 then 0x8f else 0xbf)

/-- The bytes of an ill-formed text that one replacement character stands for. -/
def illFormedLength : Bytes → Nat
  | first :: second :: rest =>
      if continuationCount first = 0 ∨ isSecondByte first second = false then 1
      else
        match rest with
        | third :: _ => if continuationCount first = 3 ∧ 0x80 ≤ third ∧ third ≤ 0xbf then 3 else 2
        | [] => 2
  | _ => 1

/-- The characters of at most so many bytes. -/
def utf8DecodeFrom : Nat → Bytes → List Char
  | 0, _ => []
  | _, [] => []
  | fuel + 1, data =>
      match data.toByteArray.utf8DecodeChar? 0 with
      | some c => c :: utf8DecodeFrom fuel (data.drop c.utf8Size)
      | none => Char.ofNat 0xfffd :: utf8DecodeFrom fuel (data.drop (illFormedLength data))

/-- `utf8.decode` -/
def utf8Decode (data : Bytes) : String := .ofList (utf8DecodeFrom data.length data)

theorem utf8DecodeFrom_encoded {text : List Char} {fuel : Nat}
    (enough : (text.flatMap String.utf8EncodeChar).length ≤ fuel) :
    utf8DecodeFrom fuel (text.flatMap String.utf8EncodeChar) = text := by
  induction text generalizing fuel with
  | nil => cases fuel <;> rfl
  | cons c rest inductionHypothesis =>
      have size := String.length_utf8EncodeChar c
      have positive := Char.utf8Size_pos c
      rw [List.flatMap_cons, List.length_append, size] at enough
      obtain ⟨fuel, rfl⟩ := Nat.exists_eq_succ_of_ne_zero (n := fuel) (by omega)
      have read : (String.utf8EncodeChar c ++ rest.flatMap String.utf8EncodeChar).toByteArray.utf8DecodeChar? 0 =
          some c := by
        rw [List.toByteArray_append]
        exact ByteArray.utf8DecodeChar?_utf8EncodeChar_append
      obtain ⟨first, behind, shape⟩ := List.exists_cons_of_length_pos
        (l := String.utf8EncodeChar c ++ rest.flatMap String.utf8EncodeChar)
        (by rw [List.length_append, size]; omega)
      have tail : (String.utf8EncodeChar c ++ rest.flatMap String.utf8EncodeChar).drop c.utf8Size =
          rest.flatMap String.utf8EncodeChar := by
        rw [← size, List.drop_left]
      rw [List.flatMap_cons]
      rw [shape] at read tail ⊢
      rw [utf8DecodeFrom, read]
      · simp only
        rw [tail, inductionHypothesis (by omega)]
      · intro none
        cases none

theorem toList_loop (bytes : ByteArray) (i : Nat) (before : List UInt8) :
    ByteArray.toList.loop bytes i before = before.reverse ++ bytes.data.toList.drop i := by
  fun_induction ByteArray.toList.loop bytes i before with
  | case1 i before inside inductionHypothesis =>
      have found : bytes.get! i = bytes.data.toList[i] := getElem!_pos bytes.data i inside
      rw [inductionHypothesis, found, List.drop_eq_getElem_cons (i := i) inside]
      simp
  | case2 i before outside =>
      rw [List.drop_of_length_le (Nat.not_lt.mp outside), List.append_nil]

/-- The bytes of a text are those of its characters. -/
theorem toUTF8_toList (text : String) : text.toUTF8.toList = utf8Encode text := by
  rw [String.toUTF8_eq_toByteArray, ← String.utf8Encode_toList, List.utf8Encode, ByteArray.toList, toList_loop,
    List.toList_data_toByteArray]
  rfl

@[simp] theorem utf8Decode_utf8Encode (text : String) : utf8Decode (utf8Encode text) = text := by
  rw [utf8Decode, utf8Encode, utf8DecodeFrom_encoded (Nat.le_refl _), String.ofList_toList]

/-! ## Writing -/

namespace Js

open Library

/-- A character between quotes. -/
def escape (c : Char) : List Char :=
  if c = '"' then ['\\', '"']
  else if c = '\\' then ['\\', '\\']
  else if c = '\x08' then ['\\', 'b']
  else if c = '\t' then ['\\', 't']
  else if c = '\n' then ['\\', 'n']
  else if c = '\x0c' then ['\\', 'f']
  else if c = '\r' then ['\\', 'r']
  else if c.toNat < 32 then ['\\', 'u', '0', '0', hexDigit (c.toNat / 16), hexDigit (c.toNat % 16)]
  else [c]

def quote (text : String) : List Char := '"' :: (text.toList.flatMap escape ++ ['"'])

mutual

/-- The text of a value; that of `undefined` is asked for by nobody. -/
def Value.text : Value → List Char
  | .undefined => []
  | .null => ['n', 'u', 'l', 'l']
  | .number n => Text.decimal n
  | .string s => quote s
  | .boolean true => ['t', 'r', 'u', 'e']
  | .boolean false => ['f', 'a', 'l', 's', 'e']
  | .object properties => '{' :: properties.firstText

/-- The properties from the first that is written, and the brace that closes. -/
def Properties.firstText : Properties → List Char
  | .nil => ['}']
  | .cons _ .undefined rest => rest.firstText
  | .cons key value rest => quote key ++ ':' :: (value.text ++ rest.nextText)

/-- The properties behind one that was written, each behind a comma. -/
def Properties.nextText : Properties → List Char
  | .nil => ['}']
  | .cons _ .undefined rest => rest.nextText
  | .cons key value rest => ',' :: (quote key ++ ':' :: (value.text ++ rest.nextText))

end

/-- `JSON.stringify` -/
def stringify (value : Value) : Option String :=
  match value with
  | .undefined => none
  | value => some (.ofList value.text)

/-! ## Reading -/

def isJsonSpace (c : Char) : Bool := c = ' ' || c = '\t' || c = '\n' || c = '\r'

def skipSpace (text : List Char) : List Char := text.dropWhile isJsonSpace

/-- What a character behind a backslash stands for. -/
def unescape : Char → Option Char
  | '"' => some '"'
  | '\\' => some '\\'
  | '/' => some '/'
  | 'b' => some '\x08'
  | 't' => some '\t'
  | 'n' => some '\n'
  | 'f' => some '\x0c'
  | 'r' => some '\r'
  | _ => none

/-- The character with a code of four digits; one of a pair of surrogates is none. -/
def charOfDigits (a b c d : Char) : Option Char := do
  let a ← hexValue a
  let b ← hexValue b
  let c ← hexValue c
  let d ← hexValue d
  let code := ((a * 16 + b) * 16 + c) * 16 + d
  if 0xd800 ≤ code ∧ code ≤ 0xdfff then none else some (.ofNat code)

/-- The characters up to the quote that closes, and what is behind it. -/
def parseCharacters : List Char → Option (List Char × List Char)
  | [] => none
  | '"' :: rest => some ([], rest)
  | '\\' :: 'u' :: a :: b :: c :: d :: rest => do
      let character ← charOfDigits a b c d
      let (characters, rest) ← parseCharacters rest
      some (character :: characters, rest)
  | '\\' :: c :: rest => do
      let character ← unescape c
      let (characters, rest) ← parseCharacters rest
      some (character :: characters, rest)
  | c :: rest =>
      if c.toNat < 32 then none
      else do
        let (characters, rest) ← parseCharacters rest
        some (c :: characters, rest)

/-- The digits of a number without a fraction or an exponent. -/
def parseDigits (text : List Char) : Option (Nat × List Char) :=
  let digits := text.takeWhile Char.isDigit
  let rest := text.dropWhile Char.isDigit
  if digits = [] ∨ (digits.head? = some '0' ∧ digits ≠ ['0']) then none
  else if rest.head? = some '.' ∨ rest.head? = some 'e' ∨ rest.head? = some 'E' then none
  else some (Nat.ofDigitChars 10 digits 0, rest)

namespace Properties

def has : Properties → String → Bool
  | .nil, _ => false
  | .cons key _ rest, k => key = k || rest.has k

/-- Of two properties of one name the later one stays. -/
def add (key : String) (value : Value) (rest : Properties) : Properties :=
  if rest.has key then rest else .cons key value rest

end Properties

mutual

def parseValue : Nat → List Char → Option (Value × List Char)
  | 0, _ => none
  | fuel + 1, text =>
      match skipSpace text with
      | 'n' :: 'u' :: 'l' :: 'l' :: rest => some (.null, rest)
      | 't' :: 'r' :: 'u' :: 'e' :: rest => some (.boolean true, rest)
      | 'f' :: 'a' :: 'l' :: 's' :: 'e' :: rest => some (.boolean false, rest)
      | '"' :: rest => (parseCharacters rest).map fun read => (.string (.ofList read.1), read.2)
      | '{' :: rest =>
          match skipSpace rest with
          | '}' :: rest => some (.object .nil, rest)
          | rest => (parseMembers fuel rest).map fun read => (.object read.1, read.2)
      | '-' :: rest => (parseDigits rest).map fun read => (.number (-read.1), read.2)
      | text => (parseDigits text).map fun read => (.number read.1, read.2)

/-- The members of an object up to the brace that closes. -/
def parseMembers : Nat → List Char → Option (Properties × List Char)
  | 0, _ => none
  | fuel + 1, text =>
      match skipSpace text with
      | '"' :: rest => do
          let (key, rest) ← parseCharacters rest
          match skipSpace rest with
          | ':' :: rest => do
              let (value, rest) ← parseValue fuel rest
              match skipSpace rest with
              | ',' :: rest => do
                  let (properties, rest) ← parseMembers fuel rest
                  some (properties.add (.ofList key) value, rest)
              | '}' :: rest => some (.cons (.ofList key) value .nil, rest)
              | _ => none
          | _ => none
      | _ => none

end

/-- `JSON.parse`: `none` is a `SyntaxError`. -/
def parse (text : String) : Option Value :=
  match parseValue (text.toList.length + 1) text.toList with
  | some (value, rest) => if skipSpace rest = [] then some value else none
  | none => none

/-! ## What is written is read -/

mutual

/-- There is no `undefined`, and no object names a property twice. -/
def Value.IsJson : Value → Prop
  | .undefined => False
  | .object properties => properties.IsJson
  | _ => True

def Properties.IsJson : Properties → Prop
  | .nil => True
  | .cons key value rest => value.IsJson ∧ rest.IsJson ∧ rest.has key = false

end

mutual

/-- The calls that reading a value nests at most. -/
def Value.calls : Value → Nat
  | .object properties => properties.calls + 1
  | _ => 1

def Properties.calls : Properties → Nat
  | .nil => 0
  | .cons _ value rest => value.calls + rest.calls + 1

end

theorem parseCharacters_escape (c : Char) (rest : List Char) :
    parseCharacters (escape c ++ rest) =
      (parseCharacters rest).map fun read => (c :: read.1, read.2) := by
  have bind : ((parseCharacters rest).bind fun read => some (c :: read.1, read.2)) =
      (parseCharacters rest).map fun read => (c :: read.1, read.2) := Option.map_eq_bind.symm
  rw [← bind]
  unfold escape
  split
  · subst c
    rfl
  split
  · subst c
    rfl
  split
  · subst c
    rfl
  split
  · subst c
    rfl
  split
  · subst c
    rfl
  split
  · subst c
    rfl
  split
  · subst c
    rfl
  split
  · rename_i control
    have high := hexValue_hexDigit (n := c.toNat / 16) (by omega)
    have low := hexValue_hexDigit (n := c.toNat % 16) (by omega)
    have zero : hexValue '0' = some 0 := by decide
    have code : ((0 * 16 + 0) * 16 + c.toNat / 16) * 16 + c.toNat % 16 = c.toNat := by omega
    have read : charOfDigits '0' '0' (hexDigit (c.toNat / 16)) (hexDigit (c.toNat % 16)) = some c := by
      simp only [charOfDigits, zero, high, low, Option.bind_eq_bind, Option.bind_some, code]
      rw [if_neg (by omega), Char.ofNat_toNat]
    simp only [List.cons_append, List.nil_append]
    rw [parseCharacters, read]
    rfl
  · rename_i quotes slash _ _ _ _ _ printable
    simp only [List.cons_append, List.nil_append]
    rw [parseCharacters.eq_def]
    split
    · rename_i shape
      cases shape
    · rename_i shape
      exact absurd (List.cons.inj shape).1 quotes
    · rename_i shape
      exact absurd (List.cons.inj shape).1 slash
    · rename_i shape
      exact absurd (List.cons.inj shape).1 slash
    · rename_i shape
      obtain ⟨rfl, rfl⟩ := List.cons.inj shape
      rw [if_neg printable]
      rfl

theorem parseCharacters_escaped (text rest : List Char) :
    parseCharacters (text.flatMap escape ++ '"' :: rest) = some (text, rest) := by
  induction text with
  | nil => rfl
  | cons c text inductionHypothesis =>
      rw [List.flatMap_cons, List.append_assoc, parseCharacters_escape, inductionHypothesis]
      rfl

/-- A value ends here. -/
def Stops (rest : List Char) : Prop := ∀ c ∈ rest.head?, c = ',' ∨ c = '}'

theorem parseDigits_toDigits (n : Nat) {rest : List Char} (stops : Stops rest) :
    parseDigits (Nat.toDigits 10 n ++ rest) = some (n, rest) := by
  have digits : ∀ c ∈ Nat.toDigits 10 n, c.isDigit = true := fun c member =>
    Nat.isDigit_of_mem_toDigits (by decide) (by decide) member
  have ends : ∀ c ∈ rest.head?, c.isDigit = false := by
    intro c member
    rcases stops c member with rfl | rfl <;> decide
  have taken : (Nat.toDigits 10 n ++ rest).takeWhile Char.isDigit = Nat.toDigits 10 n := by
    cases rest with
    | nil => rw [List.append_nil, Text.takeWhile_all digits]
    | cons c rest => rw [Text.takeWhile_append_stop (ends c rfl), Text.takeWhile_all digits]
  have dropped : (Nat.toDigits 10 n ++ rest).dropWhile Char.isDigit = rest := by
    cases rest with
    | nil => rw [List.append_nil, Text.dropWhile_all digits]
    | cons c rest => rw [Text.dropWhile_append_stop (ends c rfl), Text.dropWhile_all digits, List.nil_append]
  have noZero : ¬ (Nat.toDigits 10 n = [] ∨
      ((Nat.toDigits 10 n).head? = some '0' ∧ Nat.toDigits 10 n ≠ ['0'])) := by
    rintro (none | ⟨zero, other⟩)
    · exact Nat.toDigits_ne_nil none
    · obtain rfl := Text.head?_toDigits zero
      exact other rfl
  have whole : ¬ (rest.head? = some '.' ∨ rest.head? = some 'e' ∨ rest.head? = some 'E') := by
    rintro (point | small | large)
    · exact absurd (stops '.' point) (by decide)
    · exact absurd (stops 'e' small) (by decide)
    · exact absurd (stops 'E' large) (by decide)
  rw [parseDigits, taken, dropped, if_neg noZero, if_neg whole, Nat.ofDigitChars_toDigits (by decide) (by decide)]

/-- A text that starts with a digit is that of a number. -/
theorem parseValue_digits (fuel n : Nat) {rest : List Char} (stops : Stops rest) :
    parseValue (fuel + 1) (Nat.toDigits 10 n ++ rest) = some (.number n, rest) := by
  obtain ⟨c, digits, shape⟩ := List.exists_cons_of_ne_nil (Nat.toDigits_ne_nil (n := n) (b := 10))
  have digit : c.isDigit = true :=
    Nat.isDigit_of_mem_toDigits (b := 10) (n := n) (by decide) (by decide) (by simp [shape])
  have visible : isJsonSpace c = false := by
    cases space : isJsonSpace c with
    | false => rfl
    | true =>
        simp only [isJsonSpace, Bool.or_eq_true, decide_eq_true_eq] at space
        rcases space with ((rfl | rfl) | rfl) | rfl <;> exact absurd digit (by decide)
  have skipped : skipSpace (Nat.toDigits 10 n ++ rest) = Nat.toDigits 10 n ++ rest := by
    rw [shape, List.cons_append, skipSpace, List.dropWhile_cons_of_neg (by simp [visible])]
  have read := parseDigits_toDigits n stops
  rw [shape, List.cons_append] at read
  have other (d : Char) (noDigit : d.isDigit = false) : c ≠ d := by
    rintro rfl
    exact absurd digit (by simp [noDigit])
  rw [parseValue.eq_def]
  simp only [skipped]
  rw [shape, List.cons_append]
  split
  · rename_i same
    exact absurd (List.cons.inj same).1 (other _ (by decide))
  · rename_i same
    exact absurd (List.cons.inj same).1 (other _ (by decide))
  · rename_i same
    exact absurd (List.cons.inj same).1 (other _ (by decide))
  · rename_i same
    exact absurd (List.cons.inj same).1 (other _ (by decide))
  · rename_i same
    exact absurd (List.cons.inj same).1 (other _ (by decide))
  · rename_i same
    exact absurd (List.cons.inj same).1 (other _ (by decide))
  · rw [read]
    rfl

theorem firstText_cons {value : Value} (json : value.IsJson) (key : String) (rest : Properties) :
    (Properties.cons key value rest).firstText = quote key ++ ':' :: (value.text ++ rest.nextText) := by
  cases value with
  | undefined => exact json.elim
  | _ => rfl

theorem nextText_cons {value : Value} (json : value.IsJson) (key : String) (rest : Properties) :
    (Properties.cons key value rest).nextText =
      ',' :: (quote key ++ ':' :: (value.text ++ rest.nextText)) := by
  cases value with
  | undefined => exact json.elim
  | _ => rfl

theorem stops_nextText {properties : Properties} (json : properties.IsJson) (rest : List Char) :
    Stops (properties.nextText ++ rest) := by
  cases properties with
  | nil => exact fun c same => .inr (Option.some.inj same).symm
  | cons key value more =>
      rw [nextText_cons json.1]
      exact fun c same => .inl (Option.some.inj same).symm

theorem parseMembers_quote (fuel : Nat) (key : String) (rest : List Char) :
    parseMembers (fuel + 1) (quote key ++ ':' :: rest) = (parseValue fuel rest).bind fun read =>
      (match skipSpace read.2 with
      | ',' :: rest => (parseMembers fuel rest).bind fun more => some (more.1.add key read.1, more.2)
      | '}' :: rest => some (.cons key read.1 .nil, rest)
      | _ => none) := by
  have quoted : skipSpace (quote key ++ ':' :: rest) =
      '"' :: (key.toList.flatMap escape ++ '"' :: ':' :: rest) := by
    rw [quote, List.cons_append, List.append_assoc]
    rfl
  have colon : skipSpace (':' :: rest) = ':' :: rest := rfl
  rw [parseMembers.eq_def]
  simp only [quoted, parseCharacters_escaped, Option.bind_eq_bind, Option.bind_some, colon,
    String.ofList_toList]

mutual

theorem parseValue_text : ∀ (value : Value) (fuel : Nat) (rest : List Char), value.IsJson →
    value.calls ≤ fuel → Stops rest → parseValue fuel (value.text ++ rest) = some (value, rest)
  | .undefined, _, _, json, _, _ => json.elim
  | .null, fuel, rest, _, enough, _ => by
      obtain ⟨fuel, rfl⟩ := Nat.exists_eq_succ_of_ne_zero (Nat.ne_of_gt enough)
      rfl
  | .boolean true, fuel, rest, _, enough, _ => by
      obtain ⟨fuel, rfl⟩ := Nat.exists_eq_succ_of_ne_zero (Nat.ne_of_gt enough)
      rfl
  | .boolean false, fuel, rest, _, enough, _ => by
      obtain ⟨fuel, rfl⟩ := Nat.exists_eq_succ_of_ne_zero (Nat.ne_of_gt enough)
      rfl
  | .number n, fuel, rest, _, enough, stops => by
      obtain ⟨fuel, rfl⟩ := Nat.exists_eq_succ_of_ne_zero (Nat.ne_of_gt enough)
      rw [Value.text, Text.decimal_eq]
      split
      · rename_i positive
        rw [parseValue_digits fuel _ stops, Int.toNat_of_nonneg positive]
      · rename_i negative
        have opposite : -((-n).toNat : Int) = n := by omega
        have visible : skipSpace ('-' :: (Nat.toDigits 10 (-n).toNat ++ rest)) =
            '-' :: (Nat.toDigits 10 (-n).toNat ++ rest) := rfl
        rw [List.cons_append, parseValue.eq_def]
        simp only [visible, parseDigits_toDigits _ stops, Option.map_some, opposite]
  | .string s, fuel, rest, _, enough, _ => by
      obtain ⟨fuel, rfl⟩ := Nat.exists_eq_succ_of_ne_zero (Nat.ne_of_gt enough)
      have visible : skipSpace (quote s ++ rest) = '"' :: (s.toList.flatMap escape ++ '"' :: rest) := by
        rw [quote, List.cons_append, List.append_assoc]
        rfl
      rw [Value.text, parseValue.eq_def]
      simp only [visible, parseCharacters_escaped, Option.map_some, String.ofList_toList]
  | .object .nil, fuel, rest, _, enough, _ => by
      obtain ⟨fuel, rfl⟩ := Nat.exists_eq_succ_of_ne_zero (Nat.ne_of_gt enough)
      rfl
  | .object (.cons key value more), fuel, rest, json, enough, stops => by
      obtain ⟨fuel, rfl⟩ := Nat.exists_eq_succ_of_ne_zero (Nat.ne_of_gt (Nat.lt_of_lt_of_le (Nat.succ_pos _) enough))
      have members := parseMembers_text key value more fuel rest json (Nat.le_of_succ_le_succ enough)
      have visible : skipSpace ('{' :: (quote key ++ ':' :: (value.text ++ (more.nextText ++ rest)))) =
          '{' :: (quote key ++ ':' :: (value.text ++ (more.nextText ++ rest))) := rfl
      have inside : skipSpace (quote key ++ ':' :: (value.text ++ (more.nextText ++ rest))) =
          quote key ++ ':' :: (value.text ++ (more.nextText ++ rest)) := rfl
      have text : (Value.object (.cons key value more)).text ++ rest =
          '{' :: (quote key ++ ':' :: (value.text ++ (more.nextText ++ rest))) := by
        rw [Value.text, firstText_cons json.1]
        simp
      rw [text, parseValue.eq_def]
      simp only [visible, inside]
      exact congrArg (Option.map fun read => (Value.object read.1, read.2)) members

theorem parseMembers_text : ∀ (key : String) (value : Value) (more : Properties) (fuel : Nat)
    (rest : List Char), (Properties.cons key value more).IsJson →
    (Properties.cons key value more).calls ≤ fuel →
    parseMembers fuel (quote key ++ ':' :: (value.text ++ (more.nextText ++ rest))) =
      some (.cons key value more, rest)
  | key, value, .nil, fuel, rest, json, enough => by
      rw [Properties.calls, Properties.calls] at enough
      obtain ⟨fuel, rfl⟩ := Nat.exists_eq_succ_of_ne_zero (n := fuel) (by omega)
      rw [parseMembers_quote, parseValue_text value fuel _ json.1 (by omega) (stops_nextText json.2.1 rest)]
      rfl
  | key, value, .cons key' value' more, fuel, rest, json, enough => by
      rw [Properties.calls] at enough
      obtain ⟨fuel, rfl⟩ := Nat.exists_eq_succ_of_ne_zero (n := fuel) (by omega)
      have members := parseMembers_text key' value' more fuel rest json.2.1 (by omega)
      have next : (Properties.cons key' value' more).nextText ++ rest =
          ',' :: (quote key' ++ ':' :: (value'.text ++ (more.nextText ++ rest))) := by
        rw [nextText_cons json.2.1.1]
        simp
      rw [parseMembers_quote, parseValue_text value fuel _ json.1 (by omega) (stops_nextText json.2.1 rest), next]
      have comma : skipSpace (',' :: (quote key' ++ ':' :: (value'.text ++ (more.nextText ++ rest)))) =
          ',' :: (quote key' ++ ':' :: (value'.text ++ (more.nextText ++ rest))) := rfl
      simp only [Option.bind_some, comma, members]
      rw [Properties.add, if_neg (by simp [json.2.2])]

end

/-! ### The calls that a text pays for -/

mutual

theorem calls_le_text : ∀ value : Value, value.IsJson → value.calls ≤ value.text.length
  | .undefined, json => json.elim
  | .null, _ => by decide
  | .boolean true, _ => by decide
  | .boolean false, _ => by decide
  | .number n, _ => List.length_pos_iff.mpr (Text.decimal_ne_nil n)
  | .string s, _ => Nat.succ_pos _
  | .object .nil, _ => by decide
  | .object (.cons key value more), json => by
      have first := calls_le_text value json.1
      have behind := calls_le_nextText more json.2.1
      rw [Value.text, firstText_cons json.1]
      simp only [Value.calls, Properties.calls, quote, List.length_cons, List.length_append,
        List.length_nil]
      omega

theorem calls_le_nextText : ∀ properties : Properties, properties.IsJson →
    properties.calls ≤ properties.nextText.length
  | .nil, _ => Nat.zero_le _
  | .cons key value more, json => by
      have first := calls_le_text value json.1
      have behind := calls_le_nextText more json.2.1
      rw [nextText_cons json.1]
      simp only [Properties.calls, quote, List.length_cons, List.length_append, List.length_nil]
      omega

end

/-- What is written for a value is read as it. -/
theorem parse_stringify {value : Value} (json : value.IsJson) {text : String}
    (written : stringify value = some text) : parse text = some value := by
  have is : text = .ofList value.text := by
    cases value with
    | undefined => exact json.elim
    | _ => exact (Option.some.inj written).symm
  have read := parseValue_text value (value.text.length + 1) [] json
    ((calls_le_text value json).trans (Nat.le_succ _)) (fun c none => by cases none)
  rw [List.append_nil] at read
  rw [is, parse, String.toList_ofList, read]
  rfl

end Js

end HederaSdk
