import HederaSdk.Account.Conservation
import HederaSdk.Hbar
import HederaSdk.Query.Query

/-!
# Amounts in bodies

A body gets an amount of hbars as a `Long`. Neither the constructor nor the conversion looks
at the range, so an amount that is no `Long` wraps around. Every place of a body is compared
with the amount that was given for it: a field, the two entries of a query's payment, and
the sums of the transfers of an account.
-/

namespace HederaSdk

open Library

theorem toInt64_eq_iff {n : Int} : toInt64 n = n ↔ FitsInt64 n := by
  refine ⟨fun same => ?_, toInt64_of_fits⟩
  have low : -(2 ^ 63) ≤ toInt64 n := Int.le_bmod (by decide)
  have high : toInt64 n < 2 ^ 63 := Int.bmod_lt (by decide)
  rw [same] at low high
  exact ⟨low, high⟩

/-! ## One amount -/

namespace Amount

variable (reader : NumberReader)

/-- The number that was given. -/
def value : Amount → BigNumber
  | .number text => reader.read text
  | .string text => reader.read text
  | .long n => some n
  | .longObject object => some object.value
  | .bigNumber n => n

def tinybars (amount : Amount) (unit : HbarUnit) : BigNumber :=
  (amount.value reader).map (· * unit.tinybars)

/-- Any integer of tinybars is to be a `Long`, and an object that is none is to be 0. -/
def Convertible (unit : HbarUnit) : Amount → Prop
  | .longObject object => unit = .tinybar ∨ object.value = 0
  | amount => ∀ n : Int, amount.tinybars reader unit = some (n : ℚ) → FitsInt64 n

end Amount

namespace Hbar

variable {reader : NumberReader}

/-- `toTinybars` of what the constructor accepts returns the amount or throws. -/
def ReturnsExactly (reader : NumberReader) (amount : Amount) (unit : HbarUnit) : Prop :=
  ∀ hbar n, construct reader amount unit = .ok hbar → hbar.toTinybars = .ok n →
    amount.tinybars reader unit = some (n : ℚ)

theorem construct_eq (faithful : reader.Faithful) {amount : Amount} (unit : HbarUnit)
    (number : ∀ object, amount ≠ .longObject object) :
    construct reader amount unit = requireInteger (amount.tinybars reader unit) := by
  have whole : valueToLong reader amount = amount.value reader := by
    cases amount with
    | long n => exact faithful.integer n
    | longObject object => exact absurd rfl (number object)
    | _ => rfl
  have big : bigAmount reader amount = amount.value reader := by
    cases amount with
    | long n => exact faithful.integer n
    | longObject object => exact absurd rfl (number object)
    | _ => rfl
  rw [construct, whole, big]
  split
  · rename_i tinybar
    have one : (fun q : ℚ => q * HbarUnit.tinybars .tinybar) = id := by
      funext q
      simp [HbarUnit.tinybars, HbarUnit.exponent]
    rw [tinybar, Amount.tinybars, one, Option.map_id]
    rfl
  · rfl

/-- The wrapping is the only thing that can go wrong. -/
theorem returnsExactly_of_number (faithful : reader.Faithful) {amount : Amount} {unit : HbarUnit}
    (number : ∀ object, amount ≠ .longObject object) :
    ReturnsExactly reader amount unit ↔
      ∀ n : Int, amount.tinybars reader unit = some (n : ℚ) → FitsInt64 n := by
  constructor
  · intro returns n same
    have made : construct reader amount unit = .ok ⟨n⟩ := by
      rw [construct_eq faithful unit number]
      exact requireInteger_eq_ok.mpr same
    have back := returns ⟨n⟩ _ made (toTinybars_eq ⟨n⟩)
    rw [same] at back
    exact toInt64_eq_iff.mp (Int.cast_inj.mp (Option.some.inj back)).symm
  · intro fits hbar n made returned
    rw [construct_eq faithful unit number] at made
    have same := requireInteger_eq_ok.mp made
    obtain rfl := Except.ok.inj ((toTinybars_eq hbar).symm.trans returned)
    have kept : Long.wrap hbar.valueInTinybar = hbar.valueInTinybar :=
      toInt64_of_fits (fits _ same)
    rw [kept, same]

theorem returnsExactly_object (faithful : reader.Faithful) (object : LongObject) (unit : HbarUnit) :
    ReturnsExactly reader (.longObject object) unit ↔ unit = .tinybar ∨ object.value = 0 := by
  by_cases tinybar : unit = .tinybar
  · refine iff_of_true (fun hbar n made => ?_) (.inl tinybar)
    rw [construct, if_pos tinybar, valueToLong, faithful.object] at made
    cases made
  · have made : construct reader (.longObject object) unit = .ok ⟨0⟩ := by
      rw [construct, if_neg tinybar]
      exact requireInteger_eq_ok.mpr (by simp [bigAmount])
    have scale : unit.tinybars ≠ 0 := pow_ne_zero _ (by decide)
    have zero : (⟨0⟩ : Hbar).toTinybars = .ok 0 := toTinybars_eq ⟨0⟩
    have given : (Amount.longObject object).tinybars reader unit = some (0 : ℚ) ↔ object.value = 0 := by
      simp [Amount.tinybars, Amount.value, scale]
    constructor
    · intro returns
      have back := returns ⟨0⟩ 0 made zero
      rw [Int.cast_zero, given] at back
      exact .inr back
    · intro safe hbar n made' returned
      obtain rfl := Except.ok.inj (made.symm.trans made')
      obtain rfl := Except.ok.inj (zero.symm.trans returned)
      rw [Int.cast_zero, given]
      exact safe.resolve_left tinybar

theorem returnsExactly_iff (faithful : reader.Faithful) (amount : Amount) (unit : HbarUnit) :
    ReturnsExactly reader amount unit ↔ amount.Convertible reader unit := by
  cases amount with
  | longObject object => exact returnsExactly_object faithful object unit
  | number text => exact returnsExactly_of_number faithful fun _ other => Amount.noConfusion other
  | string text => exact returnsExactly_of_number faithful fun _ other => Amount.noConfusion other
  | long n => exact returnsExactly_of_number faithful fun _ other => Amount.noConfusion other
  | bigNumber n => exact returnsExactly_of_number faithful fun _ other => Amount.noConfusion other

end Hbar

/-! ## Sums of transfers -/

namespace Transfer

/-- What the body shows of a transfer. -/
def rounded (transfer : Transfer) : Transfer := { transfer with amount := transfer.tinybars }

theorem rounded_eq_iff {a b : Transfer} : a.rounded = b.rounded ↔
    a.accountId = b.accountId ∧ a.tinybars = b.tinybars ∧ a.isApproved = b.isApproved := by
  rw [rounded, rounded, Transfer.mk.injEq]

theorem tinybars_rounded (transfer : Transfer) : transfer.rounded.tinybars = transfer.tinybars :=
  Int.bmod_bmod

theorem tinybars_add (a : Transfer) (hbars : Int) :
    toInt64 (addLong a.tinybars (toInt64 hbars)) = toInt64 (a.amount + hbars) := by
  simp only [addLong, tinybars, toInt64, Int.bmod_bmod, Int.bmod_add_bmod, Int.add_bmod_bmod]

end Transfer

namespace TransferTransaction

/-- A call with amounts that are added as they are. -/
def addExactly (entries : List Transfer) : Call → List Transfer
  | .token _ => entries
  | .addHbarTransfer account hbars =>
      upsert (Transfer.isFor account) (fun entry => { entry with amount := entry.amount + hbars })
        { accountId := account, amount := hbars, isApproved := false } entries
  | .addApprovedHbarTransfer account hbars =>
      upsert (Transfer.isFor account) (fun entry => { entry with amount := entry.amount + hbars })
        { accountId := account, amount := hbars, isApproved := true } entries

/-- The calls of the constructor and those behind it. -/
def allCalls (props : TransferProps) (calls : List Call) : List Call :=
  (props.hbarTransfers.map fun input => .addHbarTransfer input.accountId input.amount) ++ calls

/-- The transfers that were asked for, in the order of the body. -/
def exactTransfers (props : TransferProps) (calls : List Call) : List Transfer :=
  Js.sort Transfer.compare ((allCalls props calls).foldl addExactly [])

theorem rounded_merge {entries others : List Transfer}
    (same : entries.map Transfer.rounded = others.map Transfer.rounded) (account : AccountId) (hbars : Int)
    (isApproved : Bool) :
    (upsert (Transfer.isFor account)
        (fun entry => { entry with amount := addLong entry.tinybars (toInt64 hbars) })
        { accountId := account, amount := hbars, isApproved } entries).map Transfer.rounded =
      (upsert (Transfer.isFor account) (fun entry => { entry with amount := entry.amount + hbars })
        { accountId := account, amount := hbars, isApproved } others).map Transfer.rounded := by
  apply map_upsert_eq same
  · intro a b alike
    rw [Transfer.isFor, Transfer.isFor, (Transfer.rounded_eq_iff.mp alike).1]
  · intro a b alike
    obtain ⟨accounts, amounts, approvals⟩ := Transfer.rounded_eq_iff.mp alike
    refine Transfer.rounded_eq_iff.mpr ⟨accounts, ?_, approvals⟩
    have sum := Transfer.tinybars_add b hbars
    rw [← amounts] at sum
    exact sum

/-- A step keeps the entries those of exact sums, modulo 2^64. -/
theorem rounded_step {tx : TransferTransaction} (unfrozen : tx.transaction.isFrozenOrOnDemand = false)
    {entries : List Transfer} (same : tx.hbarTransfers.map Transfer.rounded = entries.map Transfer.rounded)
    (call : Call) :
    (tx.step call).hbarTransfers.map Transfer.rounded = (addExactly entries call).map Transfer.rounded := by
  cases call with
  | token call => exact same
  | addHbarTransfer account hbars =>
      have ran := congrArg (·.2.hbarTransfers) (run_mergeHbarTransfer unfrozen account hbars false)
      have entered : (tx.step (.addHbarTransfer account hbars)).hbarTransfers = _ := ran
      rw [entered]
      exact rounded_merge same account hbars false
  | addApprovedHbarTransfer account hbars =>
      have ran := congrArg (·.2.hbarTransfers) (run_mergeHbarTransfer unfrozen account hbars true)
      have entered : (tx.step (.addApprovedHbarTransfer account hbars)).hbarTransfers = _ := ran
      rw [entered]
      exact rounded_merge same account hbars true

theorem rounded_runAll {tx : TransferTransaction} (unfrozen : tx.transaction.isFrozenOrOnDemand = false)
    {entries : List Transfer} (same : tx.hbarTransfers.map Transfer.rounded = entries.map Transfer.rounded)
    (calls : List Call) :
    (runAll step tx calls).hbarTransfers.map Transfer.rounded =
      (calls.foldl addExactly entries).map Transfer.rounded := by
  induction calls generalizing tx entries with
  | nil => exact same
  | cons call rest inductionHypothesis =>
      have kept := transaction_step unfrozen call
      rw [runAll_cons, List.foldl_cons]
      exact inductionHypothesis (by rw [kept, unfrozen]) (rounded_step unfrozen same call)

theorem map_tinybars_sort {entries others : List Transfer}
    (same : entries.map Transfer.rounded = others.map Transfer.rounded) :
    (Js.sort Transfer.compare entries).map Transfer.tinybars =
      (Js.sort Transfer.compare others).map Transfer.tinybars := by
  have sorted (list : List Transfer) : (Js.sort Transfer.compare list).map Transfer.rounded =
      Js.sort Transfer.compare (list.map Transfer.rounded) := by
    apply List.map_insertionSort
    exact fun a _ b _ => Iff.rfl
  have shown (list : List Transfer) : list.map Transfer.tinybars =
      (list.map Transfer.rounded).map Transfer.tinybars := by
    rw [List.map_map]
    exact List.map_congr_left fun entry _ => (Transfer.tinybars_rounded entry).symm
  rw [shown, sorted, same, ← sorted, ← shown]

/-- The amounts of a body are the sums that were asked for, modulo 2^64. -/
theorem accountAmounts_eq (props : TransferProps) (calls : List Call) :
    (runAll step (new props) calls).body.accountAmounts.map AccountAmount.amount =
      (exactTransfers props calls).map fun entry => toInt64 entry.amount := by
  have run : runAll step (new props) calls = runAll step (new {}) (allCalls props calls) := by
    rw [new_eq, allCalls, runAll_append]
  have rounds := @rounded_runAll (new {}) rfl [] rfl (allCalls props calls)
  rw [run, body, List.map_map]
  exact map_tinybars_sort rounds

end TransferTransaction

/-! ## The places of a body -/

/-- Where a body has amounts of hbars: a field, the payment of a query, or transfers. -/
inductive HbarPlace where
  | field (hbar : Hbar)
  | payment (id : TransactionId) (nodeId payer : AccountId) (hbar : Hbar)
  | transfers (props : TransferProps) (calls : List TransferTransaction.Call)

namespace HbarPlace

/-- What the body has. -/
def amounts : HbarPlace → Except JsError (List Int)
  | field hbar => hbar.toTinybars.map fun n => [n]
  | payment id nodeId payer hbar =>
      .ok ((paymentBody id nodeId payer hbar.valueInTinybar).accountAmounts.map Prod.snd)
  | transfers props calls =>
      .ok ((runAll TransferTransaction.step (.new props) calls).body.accountAmounts.map AccountAmount.amount)

/-- What was given. -/
def given : HbarPlace → List Int
  | field hbar => [hbar.valueInTinybar]
  | payment _ _ _ hbar => [-hbar.valueInTinybar, hbar.valueInTinybar]
  | transfers props calls => (TransferTransaction.exactTransfers props calls).map Transfer.amount

theorem amounts_eq (place : HbarPlace) : place.amounts = .ok (place.given.map toInt64) := by
  cases place with
  | field hbar =>
      rw [amounts, Hbar.toTinybars_eq]
      rfl
  | payment id nodeId payer hbar => rfl
  | transfers props calls =>
      rw [amounts, TransferTransaction.accountAmounts_eq, given, List.map_map]
      rfl

theorem amounts_eq_given_iff (place : HbarPlace) :
    place.amounts = .ok place.given ↔ ∀ n ∈ place.given, FitsInt64 n := by
  have same : place.given.map toInt64 = place.given ↔ ∀ n ∈ place.given, toInt64 n = n := by
    conv_lhs => rhs; rw [← List.map_id place.given]
    exact List.map_inj_left
  rw [amounts_eq, Except.ok.injEq, same]
  exact forall₂_congr fun _ _ => toInt64_eq_iff

end HbarPlace

/-- An amount is returned and placed as it was given exactly when it is a `Long`. -/
theorem hbars_are_exact_iff {reader : NumberReader} (faithful : reader.Faithful) :
    (∀ amount unit, Hbar.ReturnsExactly reader amount unit ↔ amount.Convertible reader unit) ∧
      ∀ place : HbarPlace, place.amounts = .ok place.given ↔ ∀ n ∈ place.given, FitsInt64 n :=
  ⟨Hbar.returnsExactly_iff faithful, HbarPlace.amounts_eq_given_iff⟩

section Samples

theorem half_an_hbar_is_returned :
    Hbar.ReturnsExactly plainReader (.string "0.5") .hbar ∧
      HbarPlace.amounts (.field ⟨50000000⟩) = .ok [50000000] := by
  have exact_ := hbars_are_exact_iff plainReader_faithful
  refine ⟨(exact_.1 (.string "0.5") .hbar).mpr fun n same => ?_, (exact_.2 (.field ⟨50000000⟩)).mpr (by decide)⟩
  have given : (Amount.string "0.5").tinybars plainReader .hbar = some ((50000000 : Int) : ℚ) := by
    decide +kernel
  obtain rfl := Int.cast_inj.mp (Option.some.inj (given.symm.trans same))
  decide

/-- 100 gigabars are no `Long`: a negative amount is returned. -/
theorem large_amounts_turn_negative :
    (Hbar.construct plainReader (.string "100") .gigabar).bind Hbar.toTinybars =
        .ok (-8446744073709551616) ∧
      ¬ Hbar.ReturnsExactly plainReader (.string "100") .gigabar := by
  have made : Hbar.construct plainReader (.string "100") .gigabar = .ok ⟨10000000000000000000⟩ := by
    decide +kernel
  have returned : (⟨10000000000000000000⟩ : Hbar).toTinybars = .ok (-8446744073709551616) := by
    decide +kernel
  refine ⟨by rw [made]; exact returned, fun exact_ => ?_⟩
  have same := exact_ _ _ made returned
  exact absurd same (by decide +kernel)

end Samples

end HederaSdk
