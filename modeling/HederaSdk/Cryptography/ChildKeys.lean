import HederaSdk.Cryptography.Derivation

/-!
# Child keys of BIP-32

The private parent key to private child key function, with the indexes that have no child passed
over, beside `bip32.derive`. The package reduces what it reads to the curve, so that the left half
of a digest is never too large for it.
-/

namespace HederaSdk

open Library

/-- A private key of the curve. -/
structure Scalar where
  d : Nat
  positive : 0 < d
  onCurve : d < curveOrder

namespace Bip32

def ser32 (i : Int) : Bytes := BigEndian.encode 4 (i % 4294967296).toNat

def ser256 (p : Nat) : Bytes := BigEndian.encode 32 p

section

variable (hmac : HmacSha512) (curve : Elliptic)

/-- The point of a scalar, compressed. -/
def serP (k : Nat) : Bytes := hexDecode (curve.getPublic k)

/-- What is hashed for the child of an index. -/
def childData (k : Nat) (i : Int) : Bytes :=
  if isHardenedIndex i then 0 :: (ser256 k ++ ser32 i) else serP curve k ++ ser32 i

/-- The left half of the digest as a number. -/
def leftHalf (k : Nat) (chainCode : Bytes) (i : Int) : Nat :=
  BigEndian.value ((hmac chainCode (childData curve k i)).take 32)

/-- The child of the first of so many indexes that has one. -/
def ckdPriv : Nat → Nat → Bytes → Int → Option Derived
  | 0, _, _, _ => none
  | tries + 1, k, chainCode, i =>
      let digest := hmac chainCode (childData curve k i)
      let ki := (leftHalf hmac curve k chainCode i + k) % curveOrder
      if curveOrder ≤ leftHalf hmac curve k chainCode i ∨ ki = 0 then ckdPriv tries k chainCode (i + 1)
      else some ⟨ser256 ki, digest.drop 32⟩

/-- Within any number of tries the code and BIP-32 find the same child, or both find none. -/
def DerivesChildren (k : Scalar) (chainCode : Bytes) (i : Int) : Prop :=
  ∀ tries, derive hmac curve tries (ser256 k.d) chainCode i = ckdPriv hmac curve tries k.d chainCode i

/-- The first index whose left half does not cancel the parent has a left half below the order. -/
def LeftHalvesFit (k : Scalar) (chainCode : Bytes) (i : Int) : Prop :=
  ∀ passed : Nat,
    (∀ before < passed, curveOrder ∣ leftHalf hmac curve k.d chainCode (i + (before : Nat)) + k.d) →
      ¬ curveOrder ∣ leftHalf hmac curve k.d chainCode (i + passed) + k.d →
        leftHalf hmac curve k.d chainCode (i + passed) < curveOrder

end

/-- A compressed point has 33 bytes. -/
def Compresses (curve : Elliptic) : Prop := ∀ d, 0 < d → d < curveOrder → (serP curve d).length = 33

variable {hmac : HmacSha512} {curve : Elliptic}

@[simp] theorem length_ser256 (p : Nat) : (ser256 p).length = 32 := BigEndian.length_encode 32 p

theorem setIndex_append {front : Bytes} (length : front.length = 33) (index : Int) :
    setIndex (front ++ List.replicate 4 0) index = front ++ ser32 index := by
  have behind : (front ++ List.replicate 4 (0 : UInt8)).drop 37 = [] := by
    apply List.drop_of_length_le
    rw [List.length_append, length, List.length_replicate]
  unfold setIndex setBytes
  rw [BigEndian.length_encode, behind, List.append_nil, List.take_left' length]
  rfl

theorem hashed_hardened (curve : Elliptic) {parentKey : Bytes} (length : parentKey.length = 32) {index : Int}
    (hardened : isHardenedIndex index = true) :
    hashed curve parentKey index = 0 :: (parentKey ++ ser32 index) := by
  have filled : setBytes (List.replicate 37 0) parentKey 1 = (0 :: parentKey) ++ List.replicate 4 0 := by
    unfold setBytes
    rw [length]
    rfl
  unfold hashed
  simp only
  rw [if_pos hardened, filled, setIndex_append (by rw [List.length_cons, length])]
  rfl

theorem hashed_normal {parentKey : Bytes} (length : (serP curve (curve.keyFromPrivate parentKey)).length = 33)
    {index : Int} (normal : isHardenedIndex index ≠ true) :
    hashed curve parentKey index = serP curve (curve.keyFromPrivate parentKey) ++ ser32 index := by
  have filled : setBytes (List.replicate 37 0) (serP curve (curve.keyFromPrivate parentKey)) 0 =
      serP curve (curve.keyFromPrivate parentKey) ++ List.replicate 4 0 := by
    unfold setBytes
    rw [length]
    rfl
  unfold hashed
  simp only
  rw [if_neg normal, ← serP, filled, setIndex_append length]

theorem keyFromPrivate_ser256 (documented : curve.Documented) (k : Scalar) :
    curve.keyFromPrivate (ser256 k.d) = k.d := by
  have small : k.d < 256 ^ 32 := k.onCurve.trans (by decide)
  rw [documented.keyFromPrivate, ser256, BigEndian.value_encode_of_lt small, Nat.mod_eq_of_lt k.onCurve]

/-- The code hashes the data of BIP-32. -/
theorem hashed_eq (documented : curve.Documented) (compresses : Compresses curve) (k : Scalar) (index : Int) :
    hashed curve (ser256 k.d) index = childData curve k.d index := by
  have scalar := keyFromPrivate_ser256 documented k
  unfold childData
  split
  · rename_i hardened
    exact hashed_hardened curve (length_ser256 k.d) hardened
  · rename_i normal
    have length : (serP curve (curve.keyFromPrivate (ser256 k.d))).length = 33 := by
      rw [scalar]
      exact compresses k.d k.positive k.onCurve
    rw [hashed_normal length normal, scalar]

/-- One try of the code: the next index is for a child that is zero only. -/
theorem derive_step (documented : curve.Documented) (compresses : Compresses curve) (k : Scalar)
    (tries : Nat) (chainCode : Bytes) (i : Int) :
    derive hmac curve (tries + 1) (ser256 k.d) chainCode i =
      if curveOrder ∣ leftHalf hmac curve k.d chainCode i + k.d then
        derive hmac curve tries (ser256 k.d) chainCode (i + 1)
      else some ⟨ser256 ((leftHalf hmac curve k.d chainCode i + k.d) % curveOrder),
        (hmac chainCode (childData curve k.d i)).drop 32⟩ := by
  have scalar := keyFromPrivate_ser256 documented k
  have sum : (k.d + curve.keyFromPrivate ((hmac chainCode (childData curve k.d i)).take 32)) % curveOrder =
      (leftHalf hmac curve k.d chainCode i + k.d) % curveOrder := by
    rw [documented.keyFromPrivate, Nat.add_mod_mod, Nat.add_comm]
    rfl
  have small : (leftHalf hmac curve k.d chainCode i + k.d) % curveOrder < 256 ^ 32 :=
    (Nat.mod_lt _ (by decide)).trans (by decide)
  have serialised : hexDecode (hexZeroPadded
      (BigEndian.minimal ((leftHalf hmac curve k.d chainCode i + k.d) % curveOrder)) 32) =
      ser256 ((leftHalf hmac curve k.d chainCode i + k.d) % curveOrder) := by
    rw [PrivateKey.hexDecode_hexZeroPadded, ser256, BigEndian.encode_eq_minimal small]
  rw [derive, scalar, if_neg (Nat.ne_of_gt k.positive), hashed_eq documented compresses]
  simp only [sum, serialised, ← Nat.dvd_iff_mod_eq_zero]

/-- One try of BIP-32. -/
theorem ckdPriv_step (k : Scalar) (tries : Nat) (chainCode : Bytes) (i : Int) :
    ckdPriv hmac curve (tries + 1) k.d chainCode i =
      if curveOrder ≤ leftHalf hmac curve k.d chainCode i ∨
          curveOrder ∣ leftHalf hmac curve k.d chainCode i + k.d then
        ckdPriv hmac curve tries k.d chainCode (i + 1)
      else some ⟨ser256 ((leftHalf hmac curve k.d chainCode i + k.d) % curveOrder),
        (hmac chainCode (childData curve k.d i)).drop 32⟩ := by
  rw [ckdPriv]
  simp only [← Nat.dvd_iff_mod_eq_zero]

/-- The condition at an index is one on its left half, and the condition behind it when it has no
child. -/
theorem leftHalvesFit_iff (k : Scalar) (chainCode : Bytes) (i : Int) :
    LeftHalvesFit hmac curve k chainCode i ↔
      (¬ curveOrder ∣ leftHalf hmac curve k.d chainCode i + k.d →
        leftHalf hmac curve k.d chainCode i < curveOrder) ∧
      (curveOrder ∣ leftHalf hmac curve k.d chainCode i + k.d →
        LeftHalvesFit hmac curve k chainCode (i + 1)) := by
  have next (n : Nat) : i + ((n + 1 : Nat) : Int) = i + 1 + (n : Nat) := by omega
  constructor
  · intro fit
    refine ⟨?_, ?_⟩
    · have first := fit 0 (fun before none => absurd none (Nat.not_lt_zero before))
      rw [Nat.cast_zero, Int.add_zero] at first
      exact first
    · intro cancels passed all child
      rw [← next] at child ⊢
      apply fit (passed + 1) _ child
      intro before less
      cases before with
      | zero =>
          rw [Nat.cast_zero, Int.add_zero]
          exact cancels
      | succ before =>
          rw [next]
          exact all before (Nat.lt_of_succ_lt_succ less)
  · rintro ⟨first, behind⟩ passed all child
    cases passed with
    | zero =>
        rw [Nat.cast_zero, Int.add_zero] at child ⊢
        exact first child
    | succ passed =>
        have cancels := all 0 (Nat.succ_pos passed)
        rw [Nat.cast_zero, Int.add_zero] at cancels
        rw [next] at child ⊢
        apply behind cancels passed _ child
        intro before less
        rw [← next]
        exact all (before + 1) (Nat.succ_lt_succ less)

/-- From an index without a child the equality goes over to the next one. -/
theorem derivesChildren_step (documented : curve.Documented) (compresses : Compresses curve) {k : Scalar}
    {chainCode : Bytes} {i : Int} (cancels : curveOrder ∣ leftHalf hmac curve k.d chainCode i + k.d)
    (derives : DerivesChildren hmac curve k chainCode i) : DerivesChildren hmac curve k chainCode (i + 1) := by
  intro tries
  have one := derives (tries + 1)
  rw [derive_step documented compresses, ckdPriv_step, if_pos cancels, if_pos (.inr cancels)] at one
  exact one

/-- The code derives the children of BIP-32 exactly where no left half that has a child reaches the
order of the curve. -/
theorem derivesChildren_iff (documented : curve.Documented) (compresses : Compresses curve) (k : Scalar)
    (chainCode : Bytes) (i : Int) :
    DerivesChildren hmac curve k chainCode i ↔ LeftHalvesFit hmac curve k chainCode i := by
  constructor
  · intro derives passed
    induction passed generalizing i with
    | zero =>
        intro _ child
        by_contra large
        have one := derives 1
        rw [Nat.cast_zero, Int.add_zero] at child large
        rw [derive_step documented compresses, ckdPriv_step, if_neg child,
          if_pos (.inl (Nat.le_of_not_lt large))] at one
        cases one
    | succ passed inductionHypothesis =>
        intro all child
        have next (n : Nat) : i + ((n + 1 : Nat) : Int) = i + 1 + (n : Nat) := by omega
        have cancels := all 0 (Nat.succ_pos passed)
        rw [Nat.cast_zero, Int.add_zero] at cancels
        rw [next] at child ⊢
        apply inductionHypothesis (i + 1) (derivesChildren_step documented compresses cancels derives) _ child
        intro before less
        rw [← next]
        exact all (before + 1) (Nat.succ_lt_succ less)
  · intro fit tries
    induction tries generalizing i with
    | zero => rfl
    | succ tries inductionHypothesis =>
        obtain ⟨first, behind⟩ := (leftHalvesFit_iff k chainCode i).mp fit
        rw [derive_step documented compresses, ckdPriv_step]
        by_cases cancels : curveOrder ∣ leftHalf hmac curve k.d chainCode i + k.d
        · rw [if_pos cancels, if_pos (.inr cancels)]
          exact inductionHypothesis (i + 1) (behind cancels)
        · have small := Nat.not_le_of_lt (first cancels)
          rw [if_neg cancels, if_neg (not_or.mpr ⟨small, cancels⟩)]

section Samples

open EcdsaPrivateKey (basePoint basePoint_documented)

theorem basePoint_compresses : Compresses basePoint := by
  intro d _ _
  unfold serP basePoint
  simp only
  split
  · decide +kernel
  · decide +kernel

def scalarOne : Scalar := ⟨1, Nat.zero_lt_one, by decide⟩

/-- Digests whose left half is one more than the order. -/
def largeHmac : HmacSha512 := fun _ _ => BigEndian.encode 32 (curveOrder + 1) ++ List.replicate 32 7

theorem even_digests_derive : DerivesChildren PrivateKey.evenHmac basePoint scalarOne [] 0 := by
  apply (derivesChildren_iff basePoint_documented basePoint_compresses scalarOne [] 0).mpr
  intro passed _ _
  change BigEndian.value ((List.replicate 64 (0x40 : UInt8)).take 32) < curveOrder
  decide +kernel

/-- BIP-32 has no child here, and the code derives the scalar 2. -/
theorem large_left_half_derives : ¬ DerivesChildren largeHmac basePoint scalarOne [] 0 := by
  intro derives
  have one := derives 1
  exact absurd one (by decide +kernel)

end Samples

end Bip32

end HederaSdk
