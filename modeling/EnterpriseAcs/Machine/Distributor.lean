import EnterpriseAcs.Library.BitSet

/-!
# The distributor of the interrupt controller

Three banks of 32-bit words hold which interrupts are enabled, pending and active. Each bank
has a register block that sets the ones of the value written and one that clears them, and
both blocks read as the bank. The other registers of the page hold what was last written.

* `mmioWrite_set`, `mmioWrite_clear`, `mmioRead_set`: what an access to a word of a block does.
* `Spi`: the interrupt ids whose state is in the distributor.
-/

namespace EnterpriseAcs.Machine

/-! ## Offsets -/

def gicdIsenabler : BitVec 64 := 0x100
def gicdIcenabler : BitVec 64 := 0x180
def gicdIspendr : BitVec 64 := 0x200
def gicdIcpendr0 : BitVec 64 := 0x280
def gicdIsactiver0 : BitVec 64 := 0x300
def gicdIcactiver0 : BitVec 64 := 0x380

/-- The three banks. -/
inductive Bank
  | enabled
  | pending
  | active
  deriving DecidableEq, Repr

/-- The offset of the block that sets a bank. -/
def Bank.setBlock : Bank → BitVec 64
  | .enabled => gicdIsenabler
  | .pending => gicdIspendr
  | .active => gicdIsactiver0

/-- The offset of the block that clears a bank. -/
def Bank.clearBlock : Bank → BitVec 64
  | .enabled => gicdIcenabler
  | .pending => gicdIcpendr0
  | .active => gicdIcactiver0

/-- What an offset of the distributor page addresses. -/
inductive GicdReg
  | set (bank : Bank) (word : Nat)
  | clear (bank : Bank) (word : Nat)
  | plain (offset : Nat)
  deriving DecidableEq, Repr

/-- The blocks of 32 words, by their place in the page. -/
def blockReg (block word : Nat) : Option GicdReg :=
  match block with
  | 2 => some (.set .enabled word)
  | 3 => some (.clear .enabled word)
  | 4 => some (.set .pending word)
  | 5 => some (.clear .pending word)
  | 6 => some (.set .active word)
  | 7 => some (.clear .active word)
  | _ => none

def gicdReg (offset : Nat) : GicdReg :=
  if offset % 4 = 0 then (blockReg (offset / 0x80) (offset % 0x80 / 4)).getD (.plain offset)
  else .plain offset

theorem gicdReg_word (block : Nat) {k : Nat} (hk : k < 32) :
    gicdReg (0x80 * block + 4 * k) = (blockReg block k).getD (.plain (0x80 * block + 4 * k)) := by
  have hAlign : (0x80 * block + 4 * k) % 4 = 0 := by omega
  have hDiv : (0x80 * block + 4 * k) / 0x80 = block := by omega
  have hMod : (0x80 * block + 4 * k) % 0x80 / 4 = k := by omega
  rw [gicdReg, if_pos hAlign, hDiv, hMod]

theorem gicdReg_setBlock (bank : Bank) {k : Nat} (hk : k < 32) :
    gicdReg (bank.setBlock.toNat + 4 * k) = .set bank k := by
  cases bank with
  | enabled => exact gicdReg_word 2 hk
  | pending => exact gicdReg_word 4 hk
  | active => exact gicdReg_word 6 hk

theorem gicdReg_clearBlock (bank : Bank) {k : Nat} (hk : k < 32) :
    gicdReg (bank.clearBlock.toNat + 4 * k) = .clear bank k := by
  cases bank with
  | enabled => exact gicdReg_word 3 hk
  | pending => exact gicdReg_word 5 hk
  | active => exact gicdReg_word 7 hk

/-! ## The device -/

/-- The banks, and the other registers by their offset. -/
structure Distributor where
  bank : Bank → Nat → BitVec 32
  plain : Nat → BitVec 32

/-- Set the ones of a value in a word of a bank. -/
def Distributor.set (d : Distributor) (bank : Bank) (word : Nat) (value : BitVec 32) :
    Distributor :=
  { d with bank := Function.update d.bank bank (BitSet.setWord (d.bank bank) word value) }

/-- Clear the ones of a value in a word of a bank. -/
def Distributor.clear (d : Distributor) (bank : Bank) (word : Nat) (value : BitVec 32) :
    Distributor :=
  { d with bank := Function.update d.bank bank (BitSet.clearWord (d.bank bank) word value) }

def Distributor.write (d : Distributor) (offset : Nat) (value : BitVec 32) : Distributor :=
  match gicdReg offset with
  | .set bank word => d.set bank word value
  | .clear bank word => d.clear bank word value
  | .plain o => { d with plain := Function.update d.plain o value }

def Distributor.read (d : Distributor) (offset : Nat) : BitVec 32 :=
  match gicdReg offset with
  | .set bank word => d.bank bank word
  | .clear bank word => d.bank bank word
  | .plain o => d.plain o

/-- The distributor page at its base address, and the writes that went to other addresses. -/
structure GicBus where
  gicdBase : BitVec 64
  gicd : Distributor
  elsewhere : List (BitVec 64 × BitVec 32)

/-- `val_mmio_write`. The distributor has a page of 64 KB. -/
def GicBus.mmioWrite (bus : GicBus) (addr : BitVec 64) (value : BitVec 32) : GicBus :=
  if (addr - bus.gicdBase).toNat < 0x10000 then
    { bus with gicd := bus.gicd.write (addr - bus.gicdBase).toNat value }
  else { bus with elsewhere := bus.elsewhere ++ [(addr, value)] }

/-- `val_mmio_read`. What other addresses read as is not modelled. -/
def GicBus.mmioRead (bus : GicBus) (addr : BitVec 64) : Option (BitVec 32) :=
  if (addr - bus.gicdBase).toNat < 0x10000 then
    some (bus.gicd.read (addr - bus.gicdBase).toNat)
  else none

/-! ## Shared peripheral interrupts -/

/-- An interrupt id whose state is in the distributor. -/
structure Spi where
  id : BitVec 32
  lower : 32 ≤ id.toNat
  upper : id.toNat ≤ 1019

/-- The address of the word of an id in a block, as the code computes it. -/
def wordAddress (base block : BitVec 64) (id : BitVec 32) : BitVec 64 :=
  base + block + (4 * (id / 32)).setWidth 64

/-- The bit of an id in its word: `1 << (int_id % 32)`. -/
def idMask (id : BitVec 32) : BitVec 32 := 1#32 <<< (id % 32).toNat

theorem Spi.word_lt (spi : Spi) : spi.id.toNat / 32 < 32 := by
  have := spi.upper
  omega

theorem Spi.shared (spi : Spi) : 31 < spi.id ∧ spi.id < 1020 := by
  have hLower := spi.lower
  have hUpper := spi.upper
  simp only [BitVec.lt_def]
  change 31 < spi.id.toNat ∧ spi.id.toNat < 1020
  omega

theorem Spi.not_private (spi : Spi) : ¬ (0 < spi.id ∧ spi.id < 32) := by
  have hLower := spi.lower
  simp only [BitVec.lt_def]
  change ¬ (0 < spi.id.toNat ∧ spi.id.toNat < 32)
  omega

theorem Spi.not_invalid (spi : Spi) : ¬ (1019 < spi.id ∨ spi.id = 0) := by
  have hLower := spi.lower
  have hUpper := spi.upper
  rw [← BitVec.toNat_inj, BitVec.lt_def]
  change ¬ (1019 < spi.id.toNat ∨ spi.id.toNat = 0)
  omega

theorem idMask_eq (id : BitVec 32) : idMask id = BitSet.mask 32 id.toNat := by
  rw [idMask, BitSet.mask, BitVec.toNat_umod]
  rfl

theorem wordAddress_offset (base block : BitVec 64) (spi : Spi) (hBlock : block.toNat < 0x400) :
    (wordAddress base block spi.id - base).toNat = block.toNat + 4 * (spi.id.toNat / 32) := by
  have hWord : ((4 * (spi.id / 32)).setWidth 64).toNat = 4 * (spi.id.toNat / 32) := by
    have := spi.word_lt
    rw [BitVec.toNat_setWidth, BitVec.toNat_mul, BitVec.toNat_udiv]
    change 4 * (spi.id.toNat / 32) % 2 ^ 32 % 2 ^ 64 = _
    omega
  have hShift : wordAddress base block spi.id - base =
      block + (4 * (spi.id / 32)).setWidth 64 := by
    rw [wordAddress, BitVec.add_assoc, BitVec.add_comm base, BitVec.add_sub_cancel]
  have := spi.word_lt
  rw [hShift, BitVec.toNat_add, hWord]
  omega

theorem Bank.setBlock_lt (bank : Bank) : bank.setBlock.toNat < 0x400 := by
  cases bank <;> decide

theorem Bank.clearBlock_lt (bank : Bank) : bank.clearBlock.toNat < 0x400 := by
  cases bank <;> decide

section Accesses

variable (bus : GicBus) (bank : Bank) (spi : Spi) (value : BitVec 32)

/-- A write to the word of an id in the block that sets. -/
theorem mmioWrite_set :
    bus.mmioWrite (wordAddress bus.gicdBase bank.setBlock spi.id) value =
      { bus with gicd := bus.gicd.set bank (spi.id.toNat / 32) value } := by
  have hWord := spi.word_lt
  have hBlock := bank.setBlock_lt
  rw [GicBus.mmioWrite, wordAddress_offset _ _ _ hBlock, if_pos (by omega), Distributor.write,
    gicdReg_setBlock bank hWord]

theorem mmioWrite_clear :
    bus.mmioWrite (wordAddress bus.gicdBase bank.clearBlock spi.id) value =
      { bus with gicd := bus.gicd.clear bank (spi.id.toNat / 32) value } := by
  have hWord := spi.word_lt
  have hBlock := bank.clearBlock_lt
  rw [GicBus.mmioWrite, wordAddress_offset _ _ _ hBlock, if_pos (by omega), Distributor.write,
    gicdReg_clearBlock bank hWord]

/-- A read of the word of an id in the block that sets. -/
theorem mmioRead_set :
    bus.mmioRead (wordAddress bus.gicdBase bank.setBlock spi.id) =
      some (bus.gicd.bank bank (spi.id.toNat / 32)) := by
  have hWord := spi.word_lt
  have hBlock := bank.setBlock_lt
  rw [GicBus.mmioRead, wordAddress_offset _ _ _ hBlock, if_pos (by omega), Distributor.read,
    gicdReg_setBlock bank hWord]

end Accesses

/-! ## Banks after a masked write -/

@[simp] theorem bank_set (d : Distributor) (bank bank' : Bank) (word : Nat) (value : BitVec 32) :
    (d.set bank word value).bank bank' =
      if bank' = bank then BitSet.setWord (d.bank bank) word value else d.bank bank' := by
  rw [Distributor.set]
  by_cases h : bank' = bank
  · subst h
    simp
  · simp [h]

@[simp] theorem bank_clear (d : Distributor) (bank bank' : Bank) (word : Nat)
    (value : BitVec 32) :
    (d.clear bank word value).bank bank' =
      if bank' = bank then BitSet.clearWord (d.bank bank) word value else d.bank bank' := by
  rw [Distributor.clear]
  by_cases h : bank' = bank
  · subst h
    simp
  · simp [h]

end EnterpriseAcs.Machine
