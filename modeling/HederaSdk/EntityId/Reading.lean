import HederaSdk.EntityId.Long

/-!
# The numbers of a text

The pattern of an id accepts hex digits where the number stands, and digits of any length.
The reader of a `Long` stops at a letter and wraps around, so such a text is read as the
number of another one.
-/

namespace HederaSdk.EntityIdHelper

open Library

/-! ## The texts of the pattern -/

/-- `-xxxxx`, or nothing. -/
def checksumText : Option (List Char) → List Char
  | none => []
  | some letters => '-' :: letters

/-- The text that is captured. -/
def Match.text (found : Match) : List Char :=
  (match found.realmAndNum with
    | none => found.first
    | some (realm, num) => found.first ++ '.' :: (realm ++ '.' :: num)) ++ checksumText found.checksum

/-- Some digits. -/
def AreDigits (text : List Char) : Prop := text ≠ [] ∧ ∀ c ∈ text, c.isDigit = true

/-- Some hex digits. -/
def AreHexDigits (text : List Char) : Prop := text ≠ [] ∧ ∀ c ∈ text, isHex c = true

/-- What the groups of the pattern capture. -/
structure Match.WellFormed (found : Match) : Prop where
  first : AreDigits found.first
  realmAndNum : ∀ realm num, found.realmAndNum = some (realm, num) → AreDigits realm ∧ AreHexDigits num
  checksum : ∀ letters, found.checksum = some letters → IsChecksum letters

theorem exec_text {found : Match} (wellFormed : found.WellFormed) : exec found.text = some found := by
  obtain ⟨first, realmAndNum, checksum⟩ := found
  obtain ⟨⟨someFirst, firsts⟩, parts, letters⟩ := wellFormed
  have bare : exec (Match.text ⟨first, realmAndNum, none⟩) = some ⟨first, realmAndNum, none⟩ := by
    rw [Match.text, checksumText, List.append_nil]
    cases realmAndNum with
    | none => exact exec_bare someFirst firsts
    | some pair =>
        obtain ⟨realm, num⟩ := pair
        obtain ⟨⟨someRealm, realms⟩, someNum, nums⟩ := parts realm num rfl
        exact exec_separated someFirst someRealm someNum firsts realms nums
  cases checksum with
  | none => exact bare
  | some five =>
      have whole : Match.text ⟨first, realmAndNum, some five⟩ =
          Match.text ⟨first, realmAndNum, none⟩ ++ '-' :: five := by
        simp [Match.text, checksumText]
      rw [whole, exec_append (letters five rfl), bare]
      rfl

theorem matchChecksum_eq_some {text : List Char} {checksum : Option (List Char)}
    (found : matchChecksum text = some checksum) :
    text = checksumText checksum ∧ ∀ letters, checksum = some letters → IsChecksum letters := by
  cases text with
  | nil =>
      cases found
      exact ⟨rfl, fun _ none => by cases none⟩
  | cons c text =>
      by_cases dash : c = '-'
      · subst dash
        rw [matchChecksum] at found
        split at found
        · rename_i five
          cases found
          exact ⟨rfl, fun _ same => Option.some.inj same ▸ five⟩
        · cases found
      · simp [matchChecksum, dash] at found

theorem areDigits_takeWhile {text : List Char} (some : text.takeWhile Char.isDigit ≠ []) :
    AreDigits (text.takeWhile Char.isDigit) :=
  ⟨some, fun _ member => List.mem_takeWhile_imp member⟩

theorem matchRealmAndNum_eq_some {text rest : List Char} {realmAndNum : Option (List Char × List Char)}
    (found : matchRealmAndNum text = some (realmAndNum, rest)) :
    match realmAndNum with
    | none => rest = text
    | some (realm, num) => text = '.' :: (realm ++ '.' :: (num ++ rest)) ∧ AreDigits realm ∧ AreHexDigits num := by
  cases text with
  | nil =>
      cases found
      rfl
  | cons c text =>
      by_cases dot : c = '.'
      · subst dot
        rw [matchRealmAndNum] at found
        cases realm : text.takeWhile Char.isDigit with
        | nil => simp [realm] at found
        | cons digit digits =>
            have whole := List.takeWhile_append_dropWhile (p := Char.isDigit) (l := text)
            have areDigits := @areDigits_takeWhile text (by simp [realm])
            cases behind : text.dropWhile Char.isDigit with
            | nil => simp [realm, behind] at found
            | cons d text' =>
                rw [behind] at whole
                by_cases again : d = '.'
                · subst again
                  simp only [realm, behind] at found
                  cases num : text'.takeWhile isHex with
                  | nil => simp [num] at found
                  | cons h hs =>
                      have rest' := List.takeWhile_append_dropWhile (p := isHex) (l := text')
                      simp only [num] at found
                      cases found
                      refine ⟨?_, realm ▸ areDigits, ⟨by simp, fun c member => ?_⟩⟩
                      · rw [← num, rest', ← realm, whole]
                      · rw [← num] at member
                        exact List.mem_takeWhile_imp member
                · simp [realm, behind, again] at found
      · simp [matchRealmAndNum, dot] at found
        obtain ⟨rfl, rfl⟩ := found
        rfl

/-- The pattern captures a text exactly when the text is that of its groups. -/
theorem exec_eq_some_iff {text : List Char} {found : Match} :
    exec text = some found ↔ text = found.text ∧ found.WellFormed := by
  constructor
  · intro captured
    rw [exec] at captured
    have whole := List.takeWhile_append_dropWhile (p := Char.isDigit) (l := text)
    cases first : text.takeWhile Char.isDigit with
    | nil => simp [first] at captured
    | cons digit digits =>
        have areDigits := @areDigits_takeWhile text (by simp [first])
        simp only [first] at captured
        obtain ⟨⟨realmAndNum, rest⟩, middle, captured⟩ := Option.bind_eq_some_iff.mp captured
        obtain ⟨checksum, end_, rfl⟩ := Option.map_eq_some_iff.mp captured
        obtain ⟨rfl, five⟩ := matchChecksum_eq_some end_
        have parts := matchRealmAndNum_eq_some middle
        rw [first] at areDigits whole
        cases realmAndNum with
        | none =>
            refine ⟨?_, areDigits, (fun _ _ none => by cases none), five⟩
            rw [Match.text, ← whole, ← parts]
        | some pair =>
            obtain ⟨realm, num⟩ := pair
            obtain ⟨shape, realms, nums⟩ := parts
            refine ⟨?_, areDigits, fun _ _ same => ?_, five⟩
            · rw [Match.text, ← whole, shape]
              simp
            · cases same
              exact ⟨realms, nums⟩
  · rintro ⟨rfl, wellFormed⟩
    exact exec_text wellFormed

/-! ## Reading exactly -/

/-- The texts that are to be read as numbers: one number or three, spelled in digits, each
below 2^63, with a checksum or nothing behind them. -/
inductive Spells : List Char → Int × Int × Int × Option String → Prop
  | num {num : List Char} {checksum : Option (List Char)} : AreDigits num →
      Long.spelled num < 9223372036854775808 → (∀ letters, checksum = some letters → IsChecksum letters) →
      Spells (num ++ checksumText checksum) (0, 0, Long.spelled num, checksum.map String.ofList)
  | full {shard realm num : List Char} {checksum : Option (List Char)} :
      AreDigits shard → AreDigits realm → AreDigits num →
      Long.spelled shard < 9223372036854775808 → Long.spelled realm < 9223372036854775808 →
      Long.spelled num < 9223372036854775808 → (∀ letters, checksum = some letters → IsChecksum letters) →
      Spells (shard ++ '.' :: (realm ++ '.' :: num) ++ checksumText checksum)
        (Long.spelled shard, Long.spelled realm, Long.spelled num, checksum.map String.ofList)

/-- A text is read as what it spells, and refused if it spells nothing. -/
def ReadsExactly (text : String) : Prop :=
  ∀ result, fromString Long.fromString text = .ok result ↔ Spells text.toList result

/-- The digits that are captured, each below 2^63, have no letter among them. -/
def Match.IsDecimal (found : Match) : Prop :=
  Long.spelled found.first < 9223372036854775808 ∧
    ∀ realm num, found.realmAndNum = some (realm, num) → Long.spelled realm < 9223372036854775808 ∧
      (∀ c ∈ num, c.isDigit = true) ∧ Long.spelled num < 9223372036854775808

/-- The numbers that are captured, and the checksum. -/
def Match.numbers (found : Match) : Int × Int × Int × Option String :=
  match found.realmAndNum with
  | none => (0, 0, Long.spelled found.first, found.checksum.map String.ofList)
  | some (realm, num) =>
      (Long.spelled found.first, Long.spelled realm, Long.spelled num, found.checksum.map String.ofList)

/-- A text spells numbers exactly when the pattern captures digits. -/
theorem spells_iff {text : List Char} {result : Int × Int × Int × Option String} :
    Spells text result ↔ ∃ found, exec text = some found ∧ found.IsDecimal ∧ found.numbers = result := by
  constructor
  · rintro (⟨nums, small, five⟩ | ⟨shards, realms, nums, smallShard, smallRealm, small, five⟩)
    · rename_i num checksum
      have captured := @exec_text ⟨num, none, checksum⟩ ⟨nums, (fun _ _ none => by cases none), five⟩
      exact ⟨_, captured, ⟨small, fun _ _ none => by cases none⟩, rfl⟩
    · rename_i shard realm num checksum
      have captured := @exec_text ⟨shard, some (realm, num), checksum⟩ ⟨shards, (fun _ _ same => by
        cases same
        exact ⟨realms, nums.1, fun c member => isDigit_isHex c (nums.2 c member)⟩), five⟩
      refine ⟨_, captured, ⟨smallShard, fun _ _ same => ?_⟩, rfl⟩
      cases same
      exact ⟨smallRealm, nums.2, small⟩
  · rintro ⟨⟨first, realmAndNum, checksum⟩, captured, ⟨small, parts⟩, rfl⟩
    obtain ⟨rfl, firsts, groups, five⟩ := exec_eq_some_iff.mp captured
    cases realmAndNum with
    | none => exact .num firsts small five
    | some pair =>
        obtain ⟨realm, num⟩ := pair
        obtain ⟨realms, someNum, _⟩ := groups realm num rfl
        obtain ⟨smallRealm, nums, smallNum⟩ := parts realm num rfl
        exact .full firsts realms ⟨someNum, nums⟩ small smallRealm smallNum five

theorem read_digits {text : List Char} (digits : AreDigits text)
    (small : Long.spelled text < 9223372036854775808) :
    Long.fromString.fromString (.ofList text) = .ok (Long.spelled text) := by
  rw [Long.fromString_digits digits.1 digits.2, Long.wrap_of_small (Int.natCast_nonneg _) small]

/-- Whatever the pattern captures is read. -/
theorem fromString_of_exec {text : String} {found : Match} (captured : exec text.toList = some found) :
    ∃ result, fromString Long.fromString text = .ok result ∧ (found.IsDecimal → result = found.numbers) := by
  have split_ := fromStringSplitter_eq_ok.mpr ⟨found, captured, rfl⟩
  obtain ⟨_, firsts, groups, _⟩ := exec_eq_some_iff.mp captured
  have hex {digits : List Char} (all : AreDigits digits) : ∃ n,
      Long.fromString.fromString (.ofList digits) = .ok n ∧
        (Long.spelled digits < 9223372036854775808 → n = Long.spelled digits) := by
    refine ⟨_, Long.fromString_digits all.1 all.2, fun small => ?_⟩
    exact Long.wrap_of_small (Int.natCast_nonneg _) small
  have zero : Long.fromString.fromString "0" = .ok 0 := by decide +kernel
  obtain ⟨first, realmAndNum, checksum⟩ := found
  obtain ⟨n, read, exact_⟩ := hex firsts
  cases realmAndNum with
  | none =>
      refine ⟨(0, 0, n, checksum.map String.ofList), ?_, fun decimal => ?_⟩
      · exact (fromString_eq_ok _).mpr ⟨_, split_, zero, zero, read, rfl⟩
      · rw [exact_ decimal.1]
        rfl
  | some pair =>
      obtain ⟨realm, num⟩ := pair
      obtain ⟨realms, someNum, nums⟩ := groups realm num rfl
      obtain ⟨m, readRealm, exactRealm⟩ := hex realms
      refine ⟨(n, m, Long.addPieces num.length num 0, checksum.map String.ofList), ?_, fun decimal => ?_⟩
      · exact (fromString_eq_ok _).mpr
          ⟨_, split_, read, readRealm, Long.fromString_hex someNum nums, rfl⟩
      · obtain ⟨smallRealm, digits, smallNum⟩ := decimal.2 realm num rfl
        have same := (Long.fromString_hex someNum nums).symm.trans (read_digits ⟨someNum, digits⟩ smallNum)
        rw [exact_ decimal.1, exactRealm smallRealm, Except.ok.inj same]
        rfl

/-- A text is read exactly when the pattern captures nothing of it, or digits of numbers
below 2^63 without a letter. -/
theorem readsExactly_iff (text : String) :
    ReadsExactly text ↔ ∀ found, exec text.toList = some found → found.IsDecimal := by
  constructor
  · intro exact_ found captured
    obtain ⟨result, read, _⟩ := fromString_of_exec captured
    obtain ⟨found', captured', decimal, _⟩ := spells_iff.mp ((exact_ result).mp read)
    obtain rfl := Option.some.inj (captured.symm.trans captured')
    exact decimal
  · intro guard result
    rw [spells_iff]
    constructor
    · intro read
      obtain ⟨parts, split_, _⟩ := (fromString_eq_ok _).mp read
      obtain ⟨found, captured, _⟩ := fromStringSplitter_eq_ok.mp split_
      obtain ⟨result', read', same⟩ := fromString_of_exec captured
      obtain rfl := Except.ok.inj (read.symm.trans read')
      exact ⟨found, captured, guard found captured, (same (guard found captured)).symm⟩
    · rintro ⟨found, captured, decimal, rfl⟩
      obtain ⟨result, read, same⟩ := fromString_of_exec captured
      rw [read, same decimal]

/-- `0.0.1a` is read as `0.0.1`, and 2^64 + 7 as 7. -/
theorem letters_and_overflow_are_read :
    fromString Long.fromString "0.0.1a" = .ok (0, 0, 1, none) ∧ ¬ ReadsExactly "0.0.1a" ∧
      fromString Long.fromString "18446744073709551623" = .ok (0, 0, 7, none) ∧
      ¬ ReadsExactly "18446744073709551623" := by
  refine ⟨by decide +kernel, fun exact_ => ?_, by decide +kernel, fun exact_ => ?_⟩
  · have decimal := (readsExactly_iff "0.0.1a").mp exact_ ⟨['0'], some (['0'], ['1', 'a']), none⟩ rfl
    have digits := (decimal.2 _ _ rfl).2.1
    exact absurd (digits 'a' (by decide)) (by decide)
  · have decimal := (readsExactly_iff "18446744073709551623").mp exact_
      ⟨"18446744073709551623".toList, none, none⟩ rfl
    exact absurd decimal.1 (by decide +kernel)

end HederaSdk.EntityIdHelper
