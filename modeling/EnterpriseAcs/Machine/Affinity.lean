import EnterpriseAcs.Library.MixedRadix
import Mathlib.Data.BitVec

/-!
# MPIDR affinity fields and the position of a PE

An MPIDR holds four 8-bit affinity fields: Aff0..Aff2 in bits 23:0 and Aff3 in bits
39:32. `pal_pe_create_info_table` keeps a running maximum of each field, and the assembly
entry point `ModuleEntryPoint` turns the affinity of the PE it runs on into a position, a
mixed-radix number whose radices are these maxima plus one. Both suites have the same two
pieces of code.

* `corePos_toNat`: the 64-bit multiply-adds of the assembly never wrap, so the position is
  `MixedRadix.value` of the affinity.
* `mpidrMax_fields`: the maximum over a table is its maximum in each field.
* `affinity_valid`: every MPIDR of a table is a valid numeral for the radices of the
  maximum over that table.
-/

namespace EnterpriseAcs.Machine

/-! ## Fields -/

def aff0 (mpidr : BitVec 64) : BitVec 64 := mpidr &&& 0xff
def aff1 (mpidr : BitVec 64) : BitVec 64 := (mpidr &&& 0xff00) >>> 8
def aff2 (mpidr : BitVec 64) : BitVec 64 := (mpidr &&& 0xff0000) >>> 16
def aff3 (mpidr : BitVec 64) : BitVec 64 := (mpidr &&& 0xff00000000) >>> 32

/-- The four fields, Aff0 first. -/
def affinity (mpidr : BitVec 64) : List Nat :=
  [(aff0 mpidr).toNat, (aff1 mpidr).toNat, (aff2 mpidr).toNat, (aff3 mpidr).toNat]

/-- The mask of the field at bit `k`. -/
def affMask (k : Nat) : BitVec 64 := 0xff#64 <<< k

/-- The field at bit `k`. -/
def affField (k : Nat) (mpidr : BitVec 64) : BitVec 64 := (mpidr &&& affMask k) >>> k

theorem aff0_eq (m : BitVec 64) : aff0 m = affField 0 m := by simp [aff0, affField, affMask]
theorem aff1_eq (m : BitVec 64) : aff1 m = affField 8 m := rfl
theorem aff2_eq (m : BitVec 64) : aff2 m = affField 16 m := rfl
theorem aff3_eq (m : BitVec 64) : aff3 m = affField 32 m := rfl

theorem affField_toNat {k : Nat} (hk : k ≤ 56) (m : BitVec 64) :
    (affField k m).toNat = m.toNat / 2 ^ k % 256 := by
  have hMask : affMask k >>> k = 0xff#64 := by
    unfold affMask
    apply BitVec.eq_of_toNat_eq
    have hpow : 255 * 2 ^ k < 2 ^ 64 := by
      calc 255 * 2 ^ k ≤ 255 * 2 ^ 56 := Nat.mul_le_mul_left _ (Nat.pow_le_pow_right (by omega) hk)
        _ < 2 ^ 64 := by decide
    simp only [BitVec.toNat_ushiftRight, BitVec.toNat_shiftLeft, BitVec.toNat_ofNat,
      Nat.shiftLeft_eq, Nat.shiftRight_eq_div_pow]
    rw [show 255 % 2 ^ 64 = 255 from rfl, Nat.mod_eq_of_lt hpow,
      Nat.mul_div_cancel _ (Nat.two_pow_pos k)]
  rw [affField, BitVec.ushiftRight_and_distrib, hMask, BitVec.toNat_and,
    BitVec.toNat_ushiftRight, Nat.shiftRight_eq_div_pow]
  exact Nat.and_two_pow_sub_one_eq_mod _ 8

theorem affField_lt {k : Nat} (hk : k ≤ 56) (m : BitVec 64) : (affField k m).toNat < 256 := by
  rw [affField_toNat hk]
  omega

/-! ## The running maxima -/

/-- The macro `UPDATE_AFF_MAX`. -/
def updateAffMax (src dest mask : BitVec 64) : BitVec 64 :=
  if dest &&& mask > src &&& mask then dest &&& mask else src &&& mask

/-- The four accumulators `MpidrAff0Max` .. `MpidrAff3Max`. -/
structure AffMax where
  aff0Max : BitVec 64 := 0
  aff1Max : BitVec 64 := 0
  aff2Max : BitVec 64 := 0
  aff3Max : BitVec 64 := 0
  deriving DecidableEq, Repr

def AffMax.update (acc : AffMax) (mpidr : BitVec 64) : AffMax where
  aff0Max := updateAffMax acc.aff0Max mpidr 0x000000ff
  aff1Max := updateAffMax acc.aff1Max mpidr 0x0000ff00
  aff2Max := updateAffMax acc.aff2Max mpidr 0x00ff0000
  aff3Max := updateAffMax acc.aff3Max mpidr 0xff00000000

/-- The value stored in `gMpidrMax`. -/
def AffMax.mpidrMax (acc : AffMax) : BitVec 64 :=
  acc.aff0Max ||| acc.aff1Max ||| acc.aff2Max ||| acc.aff3Max

/-- Every accumulator holds bits of its own field only. -/
structure AffMax.Masked (acc : AffMax) : Prop where
  aff0 : acc.aff0Max &&& 0xff = acc.aff0Max
  aff1 : acc.aff1Max &&& 0xff00 = acc.aff1Max
  aff2 : acc.aff2Max &&& 0xff0000 = acc.aff2Max
  aff3 : acc.aff3Max &&& 0xff00000000 = acc.aff3Max

theorem updateAffMax_masked (src dest mask : BitVec 64) :
    updateAffMax src dest mask &&& mask = updateAffMax src dest mask := by
  unfold updateAffMax
  split <;> rw [BitVec.and_assoc, BitVec.and_self]

theorem le_updateAffMax_dest (src dest mask : BitVec 64) :
    dest &&& mask ≤ updateAffMax src dest mask := by
  unfold updateAffMax
  split
  · exact BitVec.le_refl _
  · exact BitVec.not_lt.mp (by assumption)

theorem le_updateAffMax_src {src mask : BitVec 64} (h : src &&& mask = src)
    (dest : BitVec 64) : src ≤ updateAffMax src dest mask := by
  unfold updateAffMax
  rw [h]
  split
  · exact BitVec.le_of_lt (by assumption)
  · exact BitVec.le_refl _

theorem AffMax.masked_init : AffMax.Masked {} := by
  constructor <;> rfl

theorem AffMax.masked_update (acc : AffMax) (m : BitVec 64) : (acc.update m).Masked :=
  ⟨updateAffMax_masked _ _ _, updateAffMax_masked _ _ _, updateAffMax_masked _ _ _,
    updateAffMax_masked _ _ _⟩

/-- The maxima of a list of MPIDRs, in table order. -/
def affMaxOf (mpidrs : List (BitVec 64)) : AffMax := mpidrs.foldl AffMax.update {}

/-- Every field of `m` is at most the accumulator of that field. -/
structure AffMax.Covers (acc : AffMax) (m : BitVec 64) : Prop where
  aff0 : m &&& 0xff ≤ acc.aff0Max
  aff1 : m &&& 0xff00 ≤ acc.aff1Max
  aff2 : m &&& 0xff0000 ≤ acc.aff2Max
  aff3 : m &&& 0xff00000000 ≤ acc.aff3Max

theorem AffMax.covers_update_self (acc : AffMax) (m : BitVec 64) : (acc.update m).Covers m :=
  ⟨le_updateAffMax_dest _ _ _, le_updateAffMax_dest _ _ _, le_updateAffMax_dest _ _ _,
    le_updateAffMax_dest _ _ _⟩

theorem AffMax.Covers.update {acc : AffMax} {m : BitVec 64} (h : acc.Covers m)
    (hMasked : acc.Masked) (other : BitVec 64) : (acc.update other).Covers m :=
  ⟨BitVec.le_trans h.aff0 (le_updateAffMax_src hMasked.aff0 _),
    BitVec.le_trans h.aff1 (le_updateAffMax_src hMasked.aff1 _),
    BitVec.le_trans h.aff2 (le_updateAffMax_src hMasked.aff2 _),
    BitVec.le_trans h.aff3 (le_updateAffMax_src hMasked.aff3 _)⟩

theorem foldl_update_spec (mpidrs : List (BitVec 64)) (acc : AffMax) (hMasked : acc.Masked) :
    (mpidrs.foldl AffMax.update acc).Masked ∧
      (∀ m, acc.Covers m ∨ m ∈ mpidrs → (mpidrs.foldl AffMax.update acc).Covers m) := by
  induction mpidrs generalizing acc with
  | nil => exact ⟨hMasked, fun m hm => by simpa using hm⟩
  | cons x xs ih =>
    obtain ⟨hFold, hCovers⟩ := ih (acc.update x) (acc.masked_update x)
    refine ⟨hFold, fun m hm => hCovers m ?_⟩
    rcases hm with hm | hm
    · exact Or.inl (hm.update hMasked x)
    · rcases List.mem_cons.mp hm with rfl | hm
      · exact Or.inl (acc.covers_update_self m)
      · exact Or.inr hm

theorem affMaxOf_masked (mpidrs : List (BitVec 64)) : (affMaxOf mpidrs).Masked :=
  (foldl_update_spec mpidrs {} AffMax.masked_init).1

theorem affMaxOf_covers {mpidrs : List (BitVec 64)} {m : BitVec 64} (hm : m ∈ mpidrs) :
    (affMaxOf mpidrs).Covers m :=
  (foldl_update_spec mpidrs {} AffMax.masked_init).2 m (Or.inr hm)

/-! ## The position of a PE -/

/-- The core position that `ModuleEntryPoint` computes from `MPIDR_EL1` (registers `x1` to
`x4`) and `gMpidrMax` (registers `x5` to `x7`), with its `madd` and `mul` instructions. -/
def corePos (mpidr mpidrMax : BitVec 64) : BitVec 64 :=
  let x5 := aff0 mpidrMax + 1
  let x6 := aff1 mpidrMax + 1
  let x7 := aff2 mpidrMax + 1
  let x0 := aff1 mpidr * x5 + aff0 mpidr
  let x5 := x5 * x6
  let x0 := aff2 mpidr * x5 + x0
  let x5 := x5 * x7
  aff3 mpidr * x5 + x0

/-- The radices of the position: each field maximum plus one. -/
def radices (mpidrMax : BitVec 64) : List Nat := (affinity mpidrMax).map (· + 1)

/-- One Horner step with 8-bit digits and radices. -/
theorem horner_le {a r v b : Nat} (ha : a < 256) (hr : r < 256) (hv : v ≤ b) :
    a + (r + 1) * v ≤ 255 + 256 * b := by
  have := Nat.mul_le_mul (show r + 1 ≤ 256 by omega) hv
  omega

/-- Positions fit in 32 bits, whatever the maxima are. -/
theorem value_affinity_lt (mpidr mpidrMax : BitVec 64) :
    MixedRadix.value (affinity mpidr) (radices mpidrMax) < 2 ^ 32 := by
  have h3 := affField_lt (k := 32) (by omega) mpidr
  have hTop : (aff3 mpidr).toNat + ((aff3 mpidrMax).toNat + 1) * 0 ≤ 255 := by
    rw [aff3_eq]
    omega
  have h2 := horner_le (affField_lt (k := 16) (by omega) mpidr)
    (affField_lt (k := 16) (by omega) mpidrMax) hTop
  have h1 := horner_le (affField_lt (k := 8) (by omega) mpidr)
    (affField_lt (k := 8) (by omega) mpidrMax) h2
  have h0 := horner_le (affField_lt (k := 0) (by omega) mpidr)
    (affField_lt (k := 0) (by omega) mpidrMax) h1
  simp only [affinity, radices, List.map_cons, List.map_nil, MixedRadix.value_cons,
    MixedRadix.value_nil]
  rw [aff0_eq, aff0_eq, aff1_eq, aff1_eq, aff2_eq, aff2_eq]
  omega

theorem corePos_toNat (mpidr mpidrMax : BitVec 64) :
    (corePos mpidr mpidrMax).toNat =
      MixedRadix.value (affinity mpidr) (radices mpidrMax) := by
  have hWord : corePos mpidr mpidrMax =
      BitVec.ofNat 64 (MixedRadix.value (affinity mpidr) (radices mpidrMax)) := by
    simp only [affinity, radices, List.map_cons, List.map_nil, MixedRadix.value_cons,
      MixedRadix.value_nil, BitVec.ofNat_add, BitVec.ofNat_mul, BitVec.ofNat_toNat,
      BitVec.setWidth_eq, corePos, show 1#64 = 1 from rfl, show 0#64 = 0 from rfl]
    ring
  rw [hWord, BitVec.toNat_ofNat,
    Nat.mod_eq_of_lt ((value_affinity_lt _ _).trans (by decide))]

/-! ## The maximum of a table -/

/-- A field of `gMpidrMax` is the accumulator of this field. -/
theorem mpidrMax_and_mask {acc : AffMax} (h : acc.Masked) :
    acc.mpidrMax &&& 0xff = acc.aff0Max ∧ acc.mpidrMax &&& 0xff00 = acc.aff1Max ∧
      acc.mpidrMax &&& 0xff0000 = acc.aff2Max ∧ acc.mpidrMax &&& 0xff00000000 = acc.aff3Max := by
  have hDisjoint : ∀ {x mask other : BitVec 64}, x &&& mask = x → mask &&& other = 0#64 →
      x &&& other = 0#64 := by
    intro x mask other hx hm
    rw [← hx, BitVec.and_assoc, hm, BitVec.and_zero]
  obtain ⟨h0, h1, h2, h3⟩ := h
  unfold AffMax.mpidrMax
  simp only [BitVec.and_or_distrib_right]
  refine ⟨?_, ?_, ?_, ?_⟩
  · rw [h0, hDisjoint h1 rfl, hDisjoint h2 rfl, hDisjoint h3 rfl]
    simp
  · rw [h1, hDisjoint h0 rfl, hDisjoint h2 rfl, hDisjoint h3 rfl]
    simp
  · rw [h2, hDisjoint h0 rfl, hDisjoint h1 rfl, hDisjoint h3 rfl]
    simp
  · rw [h3, hDisjoint h0 rfl, hDisjoint h1 rfl, hDisjoint h2 rfl]
    simp

/-- The largest value of the field at bit `k` over a list of MPIDRs, 0 for none. -/
def fieldMax (k : Nat) (mpidrs : List (BitVec 64)) : Nat :=
  (mpidrs.map fun m => (affField k m).toNat).foldl max 0

theorem ushiftRight_toNat_max {x y : BitVec 64} (k : Nat) :
    ((if x > y then x else y) >>> k).toNat = max (x >>> k).toNat (y >>> k).toNat := by
  simp only [BitVec.toNat_ushiftRight, Nat.shiftRight_eq_div_pow]
  split
  · rename_i h
    have hLe : y.toNat ≤ x.toNat := Nat.le_of_lt (BitVec.lt_def.mp h)
    exact (max_eq_left (Nat.div_le_div_right hLe)).symm
  · rename_i h
    have hLe : x.toNat ≤ y.toNat := BitVec.le_def.mp (BitVec.not_lt.mp h)
    exact (max_eq_right (Nat.div_le_div_right hLe)).symm

theorem updateAffMax_field {src dest : BitVec 64} {k : Nat} (h : src &&& affMask k = src) :
    (updateAffMax src dest (affMask k) >>> k).toNat =
      max (src >>> k).toNat (affField k dest).toNat := by
  rw [updateAffMax, ushiftRight_toNat_max, h, affField, max_comm]

/-- The accumulator that is updated with the mask of the field at bit `k`. -/
theorem foldl_updateAffMax_field (k : Nat) (mpidrs : List (BitVec 64)) {src : BitVec 64}
    (h : src &&& affMask k = src) :
    (mpidrs.foldl (fun acc m => updateAffMax acc m (affMask k)) src >>> k).toNat =
      (mpidrs.map fun m => (affField k m).toNat).foldl max (src >>> k).toNat := by
  induction mpidrs generalizing src with
  | nil => rfl
  | cons m mpidrs ih =>
    rw [List.foldl_cons, ih (updateAffMax_masked _ _ _), updateAffMax_field h]
    rfl

theorem affMaxOf_eq (mpidrs : List (BitVec 64)) :
    affMaxOf mpidrs =
      { aff0Max := mpidrs.foldl (fun acc m => updateAffMax acc m (affMask 0)) 0
        aff1Max := mpidrs.foldl (fun acc m => updateAffMax acc m (affMask 8)) 0
        aff2Max := mpidrs.foldl (fun acc m => updateAffMax acc m (affMask 16)) 0
        aff3Max := mpidrs.foldl (fun acc m => updateAffMax acc m (affMask 32)) 0 } := by
  have hFold : ∀ acc : AffMax, mpidrs.foldl AffMax.update acc =
      { aff0Max := mpidrs.foldl (fun acc m => updateAffMax acc m (affMask 0)) acc.aff0Max
        aff1Max := mpidrs.foldl (fun acc m => updateAffMax acc m (affMask 8)) acc.aff1Max
        aff2Max := mpidrs.foldl (fun acc m => updateAffMax acc m (affMask 16)) acc.aff2Max
        aff3Max := mpidrs.foldl (fun acc m => updateAffMax acc m (affMask 32)) acc.aff3Max } := by
    induction mpidrs with
    | nil => exact fun _ => rfl
    | cons m mpidrs ih => exact fun acc => ih (acc.update m)
  exact hFold {}

/-- `gMpidrMax` is the maximum in each of the four fields and has no bit outside them. -/
theorem mpidrMax_fields (mpidrs : List (BitVec 64)) :
    affinity (affMaxOf mpidrs).mpidrMax =
        [fieldMax 0 mpidrs, fieldMax 8 mpidrs, fieldMax 16 mpidrs, fieldMax 32 mpidrs] ∧
      (affMaxOf mpidrs).mpidrMax &&& 0xff00ffffff = (affMaxOf mpidrs).mpidrMax := by
  have hMasked := affMaxOf_masked mpidrs
  obtain ⟨e0, e1, e2, e3⟩ := mpidrMax_and_mask hMasked
  have hField : ∀ k, (mpidrs.foldl (fun acc m => updateAffMax acc m (affMask k)) 0 >>> k).toNat =
      fieldMax k mpidrs := fun k =>
    (foldl_updateAffMax_field k mpidrs BitVec.zero_and).trans (by simp [fieldMax])
  constructor
  · rw [affinity, aff0, aff1, aff2, aff3, e0, e1, e2, e3, affMaxOf_eq, ← hField 0, ← hField 8,
      ← hField 16, ← hField 32]
    rfl
  · rw [show (0xff00ffffff : BitVec 64) = 0xff ||| 0xff00 ||| 0xff0000 ||| 0xff00000000 from rfl,
      BitVec.and_or_distrib_left, BitVec.and_or_distrib_left, BitVec.and_or_distrib_left, e0, e1,
      e2, e3]
    rfl

theorem ushiftRight_toNat_le {x y : BitVec 64} (h : x ≤ y) (k : Nat) :
    (x >>> k).toNat ≤ (y >>> k).toNat := by
  simp only [BitVec.toNat_ushiftRight, Nat.shiftRight_eq_div_pow]
  exact Nat.div_le_div_right (BitVec.le_def.mp h)

theorem affinity_valid_of_covers {acc : AffMax} {m : BitVec 64} (hMasked : acc.Masked)
    (hCovers : acc.Covers m) : MixedRadix.Valid (affinity m) (radices acc.mpidrMax) := by
  obtain ⟨e0, e1, e2, e3⟩ := mpidrMax_and_mask hMasked
  have h0 : (aff0 m).toNat ≤ (aff0 acc.mpidrMax).toNat := by
    rw [aff0, aff0, e0]
    exact BitVec.le_def.mp hCovers.aff0
  have h1 : (aff1 m).toNat ≤ (aff1 acc.mpidrMax).toNat := by
    rw [aff1, aff1, e1]
    exact ushiftRight_toNat_le hCovers.aff1 8
  have h2 : (aff2 m).toNat ≤ (aff2 acc.mpidrMax).toNat := by
    rw [aff2, aff2, e2]
    exact ushiftRight_toNat_le hCovers.aff2 16
  have h3 : (aff3 m).toNat ≤ (aff3 acc.mpidrMax).toNat := by
    rw [aff3, aff3, e3]
    exact ushiftRight_toNat_le hCovers.aff3 32
  exact .cons (Nat.lt_succ_of_le h0) (.cons (Nat.lt_succ_of_le h1)
    (.cons (Nat.lt_succ_of_le h2) (.cons (Nat.lt_succ_of_le h3) .nil)))

/-- Every MPIDR of a table is a valid numeral for the radices of the table's maximum. -/
theorem affinity_valid {mpidrs : List (BitVec 64)} {m : BitVec 64} (hm : m ∈ mpidrs) :
    MixedRadix.Valid (affinity m) (radices (affMaxOf mpidrs).mpidrMax) :=
  affinity_valid_of_covers (affMaxOf_masked mpidrs) (affMaxOf_covers hm)

end EnterpriseAcs.Machine
