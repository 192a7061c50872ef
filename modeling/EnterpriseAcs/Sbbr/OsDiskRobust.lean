import EnterpriseAcs.Sbbr.OsDiskFormat

/-!
# When the OS disk format test is robust

The test goes on to the next device only when it has looked through the whole table of a device.
Its counter of the handles has 32 bits.

* `bbTestOsDiskFormatTest_robust_iff`: the test ends, with no division by zero and nothing read
  behind a buffer, exactly when each device that it comes to is safe and the counter is wide
  enough.
-/

namespace EnterpriseAcs.Sbbr

open EarlyReturn
open WhileLoop (toNat_next)

section Handles

variable {env : OsDiskEnv} {behind : Nat → BitVec 64 → Acpi.Memory}

theorem handleTest_iff (s : HandleScan) :
    handleTest env s = true ↔ s.handleCount.toNat < env.numberOfHandles.toNat := by
  rw [handleTest, decide_eq_true_eq, BitVec.lt_def, BitVec.toNat_setWidth_of_le (by decide)]

/-- The counter after `i` handles. -/
def scanAt (i : Nat) : HandleScan := { handleCount := BitVec.ofNat 32 i, beyond := false }

theorem scanAt_count {i : Nat} (hi : i < 2 ^ 32) : (scanAt i).handleCount.toNat = i :=
  Nat.mod_eq_of_lt hi

/-- A round ends as the scan of its device does. -/
theorem handleRound_ends {s : HandleScan} {x : Except TestEnd HandleScan}
    (h : Ends (handleRound env behind s) x) :
    (∃ r, Ends (scanDevice (env.handleBuffer s.handleCount.toNat) (behind s.handleCount.toNat)
        s.beyond) (.error r) ∧ x = .error r) ∨
      ∃ beyond, Ends (scanDevice (env.handleBuffer s.handleCount.toNat)
        (behind s.handleCount.toNat) s.beyond) (.ok beyond) ∧
          x = .ok { handleCount := s.handleCount + 1, beyond := beyond } := by
  rcases ends_bind_iff.mp h with hStop | ⟨beyond, hEnds, hRest⟩
  · exact Or.inl hStop
  · exact Or.inr ⟨beyond, hEnds, ends_pure_iff.mp hRest⟩

/-- What has been read behind a buffer stays so. -/
theorem handleLoop_beyond {s : HandleScan} (hBeyond : s.beyond = true)
    {x : Except TestEnd HandleScan} (h : Ends (handleLoop env behind s) x) :
    Meets (fun r => ¬ Sound r) (fun t => t.beyond = true) x := by
  have hMeets : Meets (fun r => ¬ Sound r)
      (fun t : HandleScan => t.beyond = true ∧ handleTest env t = false) x := by
    refine h.loop (fun t ht _ y hy => ?_) hBeyond
    have hNot (p : Prop) : ¬ (t.beyond = false ∧ p) := fun hp =>
      Bool.false_ne_true (hp.1.symm.trans ht)
    rcases handleRound_ends hy with ⟨r, hEnds, rfl⟩ | ⟨beyond, hEnds, rfl⟩
    · exact fun hSound => hNot _ ((scanDevice_meets hEnds).2.mp hSound)
    · exact Bool.eq_true_of_not_eq_false fun hFalse =>
        hNot _ ((scanDevice_meets hEnds).2.mp hFalse)
  cases x with
  | error r => exact hMeets
  | ok t => exact hMeets.1

/-- From a handle on the loop ends and nothing has gone wrong. -/
def SoundFrom (env : OsDiskEnv) (behind : Nat → BitVec 64 → Acpi.Memory) (i : Nat) : Prop :=
  Total (handleLoop env behind (scanAt i)) Sound fun t => t.beyond = false

theorem scanAt_succ (i : Nat) :
    { handleCount := (scanAt i).handleCount + 1, beyond := false } = scanAt (i + 1) := by
  rw [scanAt, scanAt, BitVec.ofNat_add]
  rfl

section OneHandle

variable {i : Nat}

theorem soundFrom_iff (hi : i < 2 ^ 32) (hLess : i < env.numberOfHandles.toNat) :
    SoundFrom env behind i ↔
      Total (handleRound env behind (scanAt i) >>= handleLoop env behind) Sound
        fun t => t.beyond = false := by
  have hTest : handleTest env (scanAt i) = true := by
    rw [handleTest_iff, scanAt_count hi]
    exact hLess
  rw [SoundFrom, handleLoop, total_loop_of_true hTest, ← handleLoop]

/-- A sound end means that the device is safe, and that the next ones are come to soundly. -/
theorem SoundFrom.device (hi : i < 2 ^ 32) (hLess : i < env.numberOfHandles.toNat)
    (h : SoundFrom env behind i) :
    SafeDevice (env.handleBuffer i) (behind i) ∧
      (PassedOver (env.handleBuffer i) (behind i) → SoundFrom env behind (i + 1)) := by
  obtain ⟨x, hEnds, hx⟩ := (soundFrom_iff hi hLess).mp h
  rcases ends_bind_iff.mp hEnds with ⟨r, hRound, rfl⟩ | ⟨t, hRound, hRest⟩
  · obtain ⟨r', hDevice, hEq⟩ := (handleRound_ends hRound).resolve_right nofun
    cases hEq
    rw [scanAt_count hi] at hDevice
    have hMeets := scanDevice_meets hDevice
    exact ⟨(hMeets.2.mp hx).2, fun hPassed => absurd hPassed hMeets.1⟩
  · obtain ⟨beyond, hDevice, hEq⟩ := (handleRound_ends hRound).resolve_left nofun
    cases hEq
    rw [scanAt_count hi] at hDevice
    have hMeets := scanDevice_meets hDevice
    cases beyond with
    | false =>
      refine ⟨(hMeets.2.mp rfl).2, fun _ => ?_⟩
      rw [scanAt_succ] at hRest
      exact ⟨x, hRest, hx⟩
    | true =>
      have hBeyond := handleLoop_beyond rfl hRest
      cases x with
      | error r => exact absurd hx hBeyond
      | ok u => exact absurd (hx.symm.trans hBeyond) Bool.false_ne_true

theorem SafeDevice.soundFrom (hi : i < 2 ^ 32) (hLess : i < env.numberOfHandles.toNat)
    (hSafe : SafeDevice (env.handleBuffer i) (behind i))
    (hNext : PassedOver (env.handleBuffer i) (behind i) → SoundFrom env behind (i + 1)) :
    SoundFrom env behind i := by
  rw [soundFrom_iff hi hLess]
  obtain ⟨y, hDevice⟩ := scanDevice_ends (scanAt i).beyond hSafe
  have hMeets := scanDevice_meets hDevice
  rw [← scanAt_count hi] at hDevice
  cases y with
  | error r =>
    refine ⟨.error r, ends_bind_iff.mpr (Or.inl ⟨r, ?_, rfl⟩), hMeets.2.mpr ⟨rfl, hSafe⟩⟩
    exact ends_bind_iff.mpr (Or.inl ⟨r, hDevice, rfl⟩)
  | ok beyond =>
    obtain rfl : beyond = false := hMeets.2.mpr ⟨rfl, hSafe⟩
    obtain ⟨x, hRest, hx⟩ := hNext hMeets.1
    refine ⟨x, ends_bind_iff.mpr (Or.inr ⟨scanAt (i + 1), ?_, hRest⟩), hx⟩
    rw [← scanAt_succ]
    exact ends_bind_iff.mpr (Or.inr ⟨false, hDevice, ends_pure_iff.mpr rfl⟩)

/-- One handle. -/
theorem soundFrom_step (hi : i < 2 ^ 32) (hLess : i < env.numberOfHandles.toNat) :
    SoundFrom env behind i ↔ SafeDevice (env.handleBuffer i) (behind i) ∧
      (PassedOver (env.handleBuffer i) (behind i) → SoundFrom env behind (i + 1)) :=
  ⟨fun h => h.device hi hLess, fun h => h.1.soundFrom hi hLess h.2⟩

end OneHandle

/-- All devices before have been passed over. -/
def Reached (env : OsDiskEnv) (behind : Nat → BitVec 64 → Acpi.Memory) (i : Nat) : Prop :=
  i < env.numberOfHandles.toNat ∧ ∀ k < i, PassedOver (env.handleBuffer k) (behind k)

/-- What is sound from the first handle on is sound from every handle that is reached. -/
theorem SoundFrom.reached {i : Nat} (h : SoundFrom env behind 0) (hi : i < 2 ^ 32)
    (hReached : Reached env behind i) : SoundFrom env behind i := by
  induction i with
  | zero => exact h
  | succ i ih =>
    have hBefore : Reached env behind i :=
      ⟨Nat.lt_of_succ_lt hReached.1, fun k hk => hReached.2 k (Nat.lt_succ_of_lt hk)⟩
    have hHere := ih (Nat.lt_of_succ_lt hi) hBefore
    rw [soundFrom_step (Nat.lt_of_succ_lt hi) hBefore.1] at hHere
    exact hHere.2 (hReached.2 i (Nat.lt_succ_self i))

/-- The loop does not end when there are more handles than the counter can count and all are
passed over. -/
theorem not_soundFrom_zero (hCount : 2 ^ 32 ≤ env.numberOfHandles.toNat)
    (hSafe : ∀ i < 2 ^ 32, SafeDevice (env.handleBuffer i) (behind i))
    (hPassed : ∀ i < 2 ^ 32, PassedOver (env.handleBuffer i) (behind i)) :
    ¬ SoundFrom env behind 0 := by
  rintro ⟨x, hEnds, -⟩
  refine not_ends_loop (I := fun _ => True) (fun s _ => ⟨?_, Or.inr ?_⟩) trivial hEnds
  · rw [handleTest_iff]
    exact Nat.lt_of_lt_of_le s.handleCount.isLt hCount
  · obtain ⟨y, hDevice⟩ := scanDevice_ends s.beyond (hSafe _ s.handleCount.isLt)
    have hMeets := scanDevice_meets hDevice
    cases y with
    | error r => exact absurd (hPassed _ s.handleCount.isLt) hMeets.1
    | ok beyond =>
      exact ⟨_, ends_bind_iff.mpr (Or.inr ⟨beyond, hDevice, ends_pure_iff.mpr rfl⟩), trivial⟩

/-- Up to a handle `e` at which the loop stops. -/
theorem soundFrom_of_safe {e : Nat} (he : e < 2 ^ 32) (hLe : e ≤ env.numberOfHandles.toNat)
    (hStop : e = env.numberOfHandles.toNat ∨ ¬ PassedOver (env.handleBuffer e) (behind e))
    (hSafe : ∀ i < 2 ^ 32, Reached env behind i → SafeDevice (env.handleBuffer i) (behind i))
    {i : Nat} (hi : i ≤ e) (hBefore : ∀ k < i, PassedOver (env.handleBuffer k) (behind k)) :
    SoundFrom env behind i := by
  have hHere : i < 2 ^ 32 := Nat.lt_of_le_of_lt hi he
  by_cases hLess : i < env.numberOfHandles.toNat
  case neg =>
    have hTest : handleTest env (scanAt i) = false := by
      rw [← Bool.not_eq_true, handleTest_iff, scanAt_count hHere]
      exact hLess
    exact (total_loop_of_false hTest).mpr rfl
  case pos =>
    refine (soundFrom_step hHere hLess).mpr ⟨hSafe i hHere ⟨hLess, hBefore⟩, fun hPassed => ?_⟩
    have hNext : i + 1 ≤ e := by
      refine Nat.lt_of_le_of_ne hi fun hEq => ?_
      subst hEq
      exact hStop.elim (Nat.ne_of_lt hLess) (absurd hPassed)
    refine soundFrom_of_safe he hLe hStop hSafe hNext fun k hk => ?_
    rcases Nat.lt_succ_iff_lt_or_eq.mp hk with hEarlier | rfl
    · exact hBefore k hEarlier
    · exact hPassed
  termination_by e - i

theorem soundFrom_zero_iff :
    SoundFrom env behind 0 ↔
      (∀ i < 2 ^ 32, Reached env behind i → SafeDevice (env.handleBuffer i) (behind i)) ∧
        (env.numberOfHandles.toNat < 2 ^ 32 ∨
          ∃ i < 2 ^ 32, ¬ PassedOver (env.handleBuffer i) (behind i)) := by
  constructor
  · intro h
    have hSafe : ∀ i < 2 ^ 32, Reached env behind i →
        SafeDevice (env.handleBuffer i) (behind i) := fun i hi hReached =>
      ((soundFrom_step hi hReached.1).mp (h.reached hi hReached)).1
    refine ⟨hSafe, or_iff_not_imp_left.mpr fun hMany => by_contra fun hNone => ?_⟩
    have hCount : 2 ^ 32 ≤ env.numberOfHandles.toNat := Nat.le_of_not_lt hMany
    have hPassed : ∀ i < 2 ^ 32, PassedOver (env.handleBuffer i) (behind i) :=
      fun i hi => by_contra fun hNot => hNone ⟨i, hi, hNot⟩
    refine not_soundFrom_zero hCount (fun i hi => hSafe i hi ⟨?_, fun k hk => ?_⟩) hPassed h
    · exact Nat.lt_of_lt_of_le hi hCount
    · exact hPassed k (Nat.lt_trans hk hi)
  · rintro ⟨hSafe, hStop⟩
    have hEnd : ∃ e < 2 ^ 32, e ≤ env.numberOfHandles.toNat ∧
        (e = env.numberOfHandles.toNat ∨ ¬ PassedOver (env.handleBuffer e) (behind e)) := by
      by_cases hFew : env.numberOfHandles.toNat < 2 ^ 32
      · exact ⟨_, hFew, Nat.le_refl _, Or.inl rfl⟩
      · obtain ⟨e, he, hNot⟩ := hStop.resolve_left hFew
        exact ⟨e, he, Nat.le_trans (Nat.le_of_lt he) (Nat.le_of_not_lt hFew), Or.inr hNot⟩
    obtain ⟨e, he, hLe, hLast⟩ := hEnd
    exact soundFrom_of_safe he hLe hLast hSafe (Nat.zero_le e) fun k hk =>
      absurd hk (Nat.not_lt_zero k)

end Handles

/-- The test ends with a status, without a division by zero and with nothing read behind a buffer,
exactly when it ends before the loop or when the devices that it comes to are safe and it comes
to an end of them. -/
theorem bbTestOsDiskFormatTest_robust_iff (env : OsDiskEnv)
    (behind : Nat → BitVec 64 → Acpi.Memory) :
    (∃ status recorded, Ends (bbTestOsDiskFormatTest env behind)
        (.error (.returned status recorded false))) ↔
      efiError env.handleProtocol = true ∨ efiError env.locateHandleBuffer = true ∨
        (∀ i < 2 ^ 32, Reached env behind i → SafeDevice (env.handleBuffer i) (behind i)) ∧
          (env.numberOfHandles.toNat < 2 ^ 32 ∨
            ∃ i < 2 ^ 32, ¬ PassedOver (env.handleBuffer i) (behind i)) := by
  rw [← soundFrom_zero_iff, bbTestOsDiskFormatTest]
  by_cases hLibrary : efiError env.handleProtocol = true
  · rw [if_pos hLibrary]
    exact iff_of_true ⟨_, _, ends_ret_iff.mpr rfl⟩ (Or.inl hLibrary)
  rw [if_neg hLibrary, or_iff_right hLibrary]
  by_cases hLocate : efiError env.locateHandleBuffer = true
  · rw [if_pos hLocate]
    exact iff_of_true ⟨_, _, ends_ret_iff.mpr rfl⟩ (Or.inl hLocate)
  rw [if_neg hLocate, or_iff_right hLocate]
  constructor
  · rintro ⟨status, recorded, hEnds⟩
    rcases ends_bind_iff.mp hEnds with ⟨r, hLoop, hEq⟩ | ⟨t, hLoop, hLast⟩
    · cases hEq
      exact ⟨_, hLoop, rfl⟩
    · obtain ⟨-, -, hBeyond⟩ := TestEnd.returned.inj (Except.error.inj (ends_ret_iff.mp hLast))
      exact ⟨_, hLoop, hBeyond.symm⟩
  · rintro ⟨x, hLoop, hx⟩
    cases x with
    | error r =>
      cases r with
      | returned status recorded beyond =>
        obtain rfl : beyond = false := hx
        exact ⟨status, recorded, ends_bind_iff.mpr (Or.inl ⟨_, hLoop, rfl⟩)⟩
      | dividesByZero => exact hx.elim
    | ok t =>
      refine ⟨efiSuccess, some .failed, ends_bind_iff.mpr (Or.inr ⟨t, hLoop, ?_⟩)⟩
      rw [ends_ret_iff, hx]

/-- A disk with the signature alone in the block of the header: every entry has size zero. -/
def zeroSizeDisk : BlockIo where
  openProtocol := efiSuccess
  allocatePool := efiSuccess
  blockSize := 512
  readBlocks := fun _ => (efiSuccess, fun i => gptSignature.getD i 0)
  behindHeader := fun _ => 0

def zeroSizeEnv : OsDiskEnv where
  handleProtocol := efiSuccess
  locateHandleBuffer := efiSuccess
  numberOfHandles := 1
  handleBuffer := fun _ => zeroSizeDisk

theorem zero_size_divides :
    ¬ ∀ (env : OsDiskEnv) (behind : Nat → BitVec 64 → Acpi.Memory), ∃ status recorded,
      Ends (bbTestOsDiskFormatTest env behind) (.error (.returned status recorded false)) := by
  intro h
  obtain ⟨status, recorded, hEnds⟩ := h zeroSizeEnv fun _ _ _ => 0
  have hZero : Ends (bbTestOsDiskFormatTest zeroSizeEnv fun _ _ _ => 0)
      (.error .dividesByZero) := ⟨1, rfl⟩
  cases hEnds.unique hZero

end EnterpriseAcs.Sbbr
