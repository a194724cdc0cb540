import HederaSdk.Contract.FunctionParameters
import HederaSdk.Library.Runs

/-!
# Calls that throw

The type of a parameter is added before its value is converted. A value that cannot be
converted leaves its type behind without an argument, and from then on every argument
stands under the type of another one. Only a call that is refused in front of the selector
leaves nothing.
-/

namespace HederaSdk

open Library

namespace ContractFunctionParameters

variable (platform : ContractPlatform)

namespace Call

/-- The bytes of the argument, from a value that was prepared. -/
def convert (call : Call) (value : Argument) : Except JsError Bytes :=
  ((call.addition platform).convert value).bind fun param =>
    argumentToBytes platform param (call.addition platform).type

/-- The value is refused in front of the selector, or it can be converted. -/
def Clean (call : Call) : Prop :=
  ∀ value, (call.addition platform).prepared = .ok value → ∃ bytes, call.convert platform value = .ok bytes

def method (call : Call) : ParametersMethod Unit := (call.addition platform).method platform

/-- Whether the call returns. -/
def returns (call : Call) : Bool :=
  ((call.addition platform).prepared.bind (call.convert platform)).isOk

end Call

/-- The object after a call, also when the call throws. -/
def step (parameters : ContractFunctionParameters) (call : Call) : ContractFunctionParameters :=
  ((call.method platform).run parameters).2

/-- A call that throws leaves the object as it was. -/
def LeavesNothing (parameters : ContractFunctionParameters) (call : Call) : Prop :=
  ∀ e, ((call.method platform).run parameters).1 = .error e → parameters.step platform call = parameters

/-- Every type has its argument. -/
def Paired (parameters : ContractFunctionParameters) : Prop :=
  parameters.selector.paramTypes.length = parameters.arguments.length

variable {platform} {parameters : ContractFunctionParameters} {call : Call}

/-! ## One call -/

variable (parameters) in
theorem run_method_of_refused {e : JsError} (refused : (call.addition platform).prepared = .error e) :
    (call.method platform).run parameters = (.error e, parameters) := by
  rw [Call.method, Addition.method, refused]
  rfl

/-- The bytes are those of the type that was just added. -/
theorem run_addParam_select (ty : SolidityType) (param : Argument) (dynamic : Bool) :
    (addParam platform param dynamic).run (parameters.select ty) =
      match argumentToBytes platform param ty with
      | .ok bytes => (.ok (), (parameters.select ty).push ⟨dynamic, bytes⟩)
      | .error e => (.error e, parameters.select ty) := by
  have last : (parameters.select ty).selector.paramTypes.getLast? = some ty := List.getLast?_concat
  rw [addParam, Method.run_this_bind]
  simp only [last]
  cases argumentToBytes platform param ty with
  | ok bytes => rfl
  | error e => rfl

variable (parameters) in
theorem run_method_of_prepared {value : Argument} (prepared : (call.addition platform).prepared = .ok value) :
    (call.method platform).run parameters =
      match call.convert platform value with
      | .ok bytes => (.ok (),
          (parameters.select (call.addition platform).type).push ⟨(call.addition platform).dynamic, bytes⟩)
      | .error e => (.error e, parameters.select (call.addition platform).type) := by
  rw [Call.method, Addition.method, prepared, Method.run_bind_ok (Method.run_ofExcept_ok value parameters),
    Method.run_update_bind, Call.convert]
  cases (call.addition platform).convert value with
  | error e => rfl
  | ok param =>
      rw [Method.run_bind_ok (Method.run_ofExcept_ok _ _), run_addParam_select]
      rfl

theorem select_ne (ty : SolidityType) : parameters.select ty ≠ parameters := by
  intro same
  have lengths := congrArg (fun parameters => parameters.selector.paramTypes.length) same
  simp [select] at lengths

/-- A call leaves nothing when it throws exactly when it does not throw too late. -/
theorem leavesNothing_iff : LeavesNothing platform parameters call ↔ call.Clean platform := by
  cases prepared : (call.addition platform).prepared with
  | error refused =>
      have ran := run_method_of_refused parameters prepared
      refine iff_of_true (fun _ _ => congrArg Prod.snd ran) fun value found => ?_
      rw [prepared] at found
      cases found
  | ok value =>
      have ran := run_method_of_prepared parameters prepared
      cases converted : call.convert platform value with
      | ok bytes =>
          rw [converted] at ran
          refine iff_of_true (fun e threw => ?_) fun value' found => ?_
          · rw [ran] at threw
            cases threw
          · obtain rfl := Except.ok.inj (prepared.symm.trans found)
            exact ⟨bytes, converted⟩
      | error failed =>
          rw [converted] at ran
          refine iff_of_false (fun unchanged => ?_) fun clean => ?_
          · have same := unchanged failed (congrArg Prod.fst ran)
            rw [step, ran] at same
            exact select_ne _ same
          · obtain ⟨bytes, found⟩ := clean value prepared
            rw [converted] at found
            cases found

/-! ## Runs -/

/-- By how much the types are ahead of the arguments. -/
def lead (parameters : ContractFunctionParameters) : Int :=
  parameters.selector.paramTypes.length - parameters.arguments.length

theorem step_of_not_returns (clean : call.Clean platform) (throws : call.returns platform = false) :
    parameters.step platform call = parameters := by
  cases prepared : (call.addition platform).prepared with
  | error refused => exact congrArg Prod.snd (run_method_of_refused parameters prepared)
  | ok value =>
      obtain ⟨bytes, converted⟩ := clean value prepared
      rw [Call.returns, prepared, Except.bind, converted] at throws
      cases throws

theorem lead_step_of_clean (parameters : ContractFunctionParameters) (clean : call.Clean platform) :
    (parameters.step platform call).lead = parameters.lead := by
  cases prepared : (call.addition platform).prepared with
  | error refused =>
      have ran := run_method_of_refused parameters prepared
      rw [step, ran]
  | ok value =>
      obtain ⟨bytes, converted⟩ := clean value prepared
      have ran := run_method_of_prepared parameters prepared
      rw [converted] at ran
      rw [step, ran]
      simp [lead, select, push]

theorem lead_step_of_not_clean (parameters : ContractFunctionParameters) (late : ¬call.Clean platform) :
    (parameters.step platform call).lead = parameters.lead + 1 := by
  simp only [Call.Clean, not_forall, not_exists] at late
  obtain ⟨value, prepared, unconverted⟩ := late
  have ran := run_method_of_prepared parameters prepared
  cases converted : call.convert platform value with
  | ok bytes => exact absurd converted (unconverted bytes)
  | error failed =>
      rw [converted] at ran
      rw [step, ran]
      simp [lead, select]
      ring

/-- The types never fall behind, and stay level exactly when every call is clean. -/
theorem lead_runAll (parameters : ContractFunctionParameters) (calls : List Call) :
    parameters.lead ≤ (runAll (step platform) parameters calls).lead ∧
      ((runAll (step platform) parameters calls).lead = parameters.lead ↔
        ∀ call ∈ calls, call.Clean platform) := by
  induction calls generalizing parameters with
  | nil => simp
  | cons call rest inductionHypothesis =>
      obtain ⟨ahead, level⟩ := inductionHypothesis (parameters.step platform call)
      rw [runAll_cons, List.forall_mem_cons]
      by_cases clean : call.Clean platform
      · rw [lead_step_of_clean parameters clean] at ahead level
        exact ⟨ahead, level.trans (iff_and_self.mpr fun _ => clean)⟩
      · rw [lead_step_of_not_clean parameters clean] at ahead
        refine ⟨by omega, iff_of_false (by omega) fun all => clean all.1⟩

theorem paired_runAll_iff (calls : List Call) :
    Paired (runAll (step platform) {} calls) ↔ ∀ call ∈ calls, call.Clean platform := by
  have level := (@lead_runAll platform {} calls).2
  have start : lead {} = 0 := rfl
  rw [← level, start, lead, Paired]
  omega

/-- Clean calls that throw can be left out. -/
theorem runAll_of_clean (parameters : ContractFunctionParameters) {calls : List Call}
    (clean : ∀ call ∈ calls, call.Clean platform) :
    runAll (step platform) parameters calls =
      runAll (step platform) parameters (calls.filter fun call => call.returns platform) := by
  induction calls generalizing parameters with
  | nil => rfl
  | cons call rest inductionHypothesis =>
      obtain ⟨here, others⟩ := List.forall_mem_cons.mp clean
      cases returned : call.returns platform with
      | true => rw [List.filter_cons_of_pos returned, runAll_cons, runAll_cons, inductionHypothesis _ others]
      | false =>
          rw [List.filter_cons_of_neg (by simp [returned]), runAll_cons, step_of_not_returns here returned,
            inductionHypothesis _ others]

/-- Calls that throw leave nothing, types and arguments stay level, and the calls that throw
can be left out, as long as every value that comes to the selector can be converted. -/
theorem failed_calls_leave_nothing_iff (platform : ContractPlatform) :
    (∀ parameters call, LeavesNothing platform parameters call ↔ call.Clean platform) ∧
      (∀ calls, Paired (runAll (step platform) {} calls) ↔ ∀ call ∈ calls, call.Clean platform) ∧
      ∀ parameters (calls : List Call) name, (∀ call ∈ calls, call.Clean platform) →
        (build platform name).run (runAll (step platform) parameters calls) =
          (build platform name).run
            (runAll (step platform) parameters (calls.filter fun call => call.returns platform)) := by
  refine ⟨fun parameters call => leavesNothing_iff, paired_runAll_iff, fun parameters calls name clean => ?_⟩
  rw [runAll_of_clean parameters clean]

section Samples

/-- A platform whose integers are checked against their bits. -/
def checkedPlatform : ContractPlatform where
  reader := plainReader
  bufferFrom _ := .error (.typeError "The first argument must be of type string")
  text
    | .object text => text
    | _ => ""
  elements _ := []
  encodeInteger
    | .uint width, .bigNumber (some q) =>
        if q.den = 1 ∧ 0 ≤ q.num ∧ q.num < 2 ^ ArgumentType.bits width then
          .ok (BigEndian.encode 32 q.num.toNat)
        else .error (.error "value out-of-bounds")
    | .int width, .bigNumber (some q) =>
        if q.den = 1 ∧ -2 ^ (ArgumentType.bits width - 1) ≤ q.num ∧
            q.num < 2 ^ (ArgumentType.bits width - 1) then
          .ok (BigEndian.encode 32 (q.num % 2 ^ 256).toNat)
        else .error (.error "value out-of-bounds")
    | _, _ => .error (.error "invalid BigNumber string")
  keccak256 text := text

/-- 256 is no `uint8`, but the type stays. -/
theorem out_of_bounds_leaves_its_type :
    ((Call.addUint 0 (.number "256")).method checkedPlatform).run {} =
        (.error (.error "value out-of-bounds"),
          { selector := { params := "uint8", paramTypes := [⟨.uint 0, false⟩] }, arguments := [] }) ∧
      ¬LeavesNothing checkedPlatform {} (.addUint 0 (.number "256")) := by
  have ran : ((Call.addUint 0 (.number "256")).method checkedPlatform).run {} =
      (.error (.error "value out-of-bounds"),
        { selector := { params := "uint8", paramTypes := [⟨.uint 0, false⟩] }, arguments := [] }) := by
    decide +kernel
  refine ⟨ran, fun unchanged => ?_⟩
  have same := unchanged _ (congrArg Prod.fst ran)
  rw [step, ran] at same
  exact absurd (congrArg (fun parameters => parameters.selector.params) same) (by decide)

end Samples

end ContractFunctionParameters

end HederaSdk
