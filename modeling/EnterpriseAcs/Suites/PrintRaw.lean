import EnterpriseAcs.Library.WhileLoop
import Mathlib.Data.Nat.Digits.Defs
import Mathlib.Data.List.GetD
import Mathlib.Data.List.Infix

/-!
# Printing without the firmware

`pal_print_raw` of both suites writes a format to a serial port, with one value for its
specifiers. The digits of the value go into a buffer of 16 bytes, last digit first, and are written
from its end; the loop that does so stops one byte too late. A percent sign takes the next character
with it, whatever that is.

* `printSpecifier_writes`: what a specifier writes for a value other than 0.
* `print_plain`, `plain_of_print`: which formats are written right, by recursion on the format.
* `printRaw_iff`: the property holds for formats without a percent sign, and for the value 0.
-/

namespace EnterpriseAcs.Suites

open WhileLoop

/-- A `CHAR8`. -/
abbrev Char8 := BitVec 8

def percent : Char8 := 0x25
def lowerD : Char8 := 0x64
def lowerX : Char8 := 0x78
def upperX : Char8 := 0x58
def charZero : Char8 := 48

/-- A string, and what is in memory behind its terminator. -/
structure Format where
  chars : List Char8
  noNul : 0 ∉ chars
  beyond : Nat → Char8

/-- The memory at the string. -/
def Format.mem (f : Format) (pos : Nat) : Char8 := (f.chars ++ [0]).getD pos (f.beyond pos)

/-! ## The function -/

/-- One of the two loops that take a value apart: the last digit, the value without it, and the
character of a digit. -/
structure Radix where
  base : Nat
  digit : BitVec 64 → Char8
  next : BitVec 64 → BitVec 64
  char : Char8 → Char8
  one_lt : 1 < base
  digit_eq : ∀ data, (digit data).toNat = data.toNat % base
  next_eq : ∀ data, (next data).toNat = data.toNat / base

theorem decimal_digit (data : BitVec 64) : ((data % 10).setWidth 8).toNat = data.toNat % 10 := by
  rw [BitVec.toNat_setWidth, BitVec.toNat_umod]
  change data.toNat % 10 % 256 = _
  omega

theorem decimal_next (data : BitVec 64) : (data / 10).toNat = data.toNat / 10 := BitVec.toNat_udiv

theorem hex_digit (data : BitVec 64) : ((data &&& 0xf).setWidth 8).toNat = data.toNat % 16 := by
  rw [BitVec.toNat_setWidth, BitVec.toNat_and]
  change (data.toNat &&& 2 ^ 4 - 1) % 256 = _
  rw [Nat.and_two_pow_sub_one_eq_mod]
  omega

theorem hex_next (data : BitVec 64) : (data >>> 4).toNat = data.toNat / 16 := by
  rw [BitVec.toNat_ushiftRight, Nat.shiftRight_eq_div_pow]

theorem one_lt_ten : 1 < 10 := by decide

theorem one_lt_sixteen : 1 < 16 := by decide

def decimal : Radix where
  base := 10
  digit data := (data % 10).setWidth 8
  next data := data / 10
  char j := j + 48
  one_lt := one_lt_ten
  digit_eq := decimal_digit
  next_eq := decimal_next

def hexadecimal : Radix where
  base := 16
  digit data := (data &&& 0xf).setWidth 8
  next data := data >>> 4
  char j := j + if 9 < j then 55 else 48
  one_lt := one_lt_sixteen
  digit_eq := hex_digit
  next_eq := hex_next

/-- The local variables. The pointer is an offset into the string; the buffer is the memory around
it, by index. `reads` are the offsets read, `indices` the indices of the buffer used, and `writes`
what is written to memory-mapped addresses. -/
structure PrintState where
  pos : Nat
  data : BitVec 64
  i : Int
  buffer : Int → Char8
  reads : List Nat
  indices : List Int
  writes : List (BitVec 64 × Char8)

theorem Radix.next_lt (r : Radix) {data : BitVec 64} (h : data ≠ 0) :
    (r.next data).toNat < data.toNat := by
  rw [r.next_eq]
  exact Nat.div_lt_self (Nat.pos_of_ne_zero fun hZero => h (BitVec.eq_of_toNat_eq hZero)) r.one_lt

/-- `while (data != 0)`. -/
def fill (r : Radix) (s : PrintState) : PrintState :=
  if _ : s.data = 0 then s
  else
    fill r { s with
      data := r.next s.data
      buffer := Function.update s.buffer s.i (r.char (r.digit s.data))
      indices := s.indices ++ [s.i]
      i := s.i + 1 }
termination_by s.data.toNat
decreasing_by exact r.next_lt ‹_›

/-- `while (i >= 0)`. -/
def drain (addr : BitVec 64) (s : PrintState) : PrintState :=
  if 0 ≤ s.i then
    drain addr { s with
      i := s.i - 1
      indices := s.indices ++ [s.i - 1]
      writes := s.writes ++ [(addr, s.buffer (s.i - 1))] }
  else s
termination_by (s.i + 1).toNat
decreasing_by
  show (s.i - 1 + 1).toNat < (s.i + 1).toNat
  omega

def PrintState.put (s : PrintState) (addr : BitVec 64) (c : Char8) : PrintState :=
  { s with writes := s.writes ++ [(addr, c)] }

/-- The character after a percent sign. -/
def printSpecifier (addr : BitVec 64) (c : Char8) (s : PrintState) : PrintState :=
  let s := if c = lowerD then fill decimal s
    else if c = lowerX ∨ c = upperX then fill hexadecimal s
    else s
  if 0 < s.i then drain addr s else s.put addr charZero

/-- The body of the loop over the string. -/
def printStep (f : Format) (addr : BitVec 64) (s : PrintState) : PrintState :=
  if f.mem s.pos = percent then
    printSpecifier addr (f.mem (s.pos + 1))
      { s with pos := s.pos + 2, reads := s.reads ++ [s.pos, s.pos + 1] }
  else { s with pos := s.pos + 1, reads := s.reads ++ [s.pos] }.put addr (f.mem s.pos)

/-- The loop over the string. -/
def Prints (f : Format) (addr : BitVec 64) (s t : PrintState) : Prop :=
  EndsIn (fun s => f.mem s.pos != 0) (printStep f addr) s t

/-- The state at the start; the buffer is not initialised. -/
def printInit (data : BitVec 64) (buffer : Int → Char8) : PrintState where
  pos := 0
  data := data
  i := 0
  buffer := buffer
  reads := []
  indices := []
  writes := []

/-! ## What it is for -/

/-- The digits of a value, the first digit first. -/
def valueChars (r : Radix) (value : BitVec 64) : List Char8 :=
  if value = 0 then [charZero]
  else (Nat.digits r.base value.toNat).reverse.map fun d => r.char (BitVec.ofNat 8 d)

/-- The way in which a specifier writes the value. -/
def specifier (c : Char8) : Option Radix :=
  if c = lowerD then some decimal else if c = lowerX ∨ c = upperX then some hexadecimal else none

/-- The string with the value for its specifiers. -/
def render (value : BitVec 64) : List Char8 → List Char8
  | [] => []
  | [c] => [c]
  | c :: d :: rest =>
    match if c = percent then specifier d else none with
    | some r => valueChars r value ++ render value rest
    | none => c :: render value (d :: rest)

/-- `BUFFER_SIZE` of the local array. -/
def bufferSize : Int := 16

/-- The port gets the string with the value, the indices of the buffer are inside it, and nothing
behind the terminator is read; the test that ends the loop reads at `pos`. -/
structure PrintsRight (f : Format) (addr value : BitVec 64) (t : PrintState) : Prop where
  writes : t.writes = (render value f.chars).map fun c => (addr, c)
  indices : ∀ k ∈ t.indices, 0 ≤ k ∧ k < bufferSize
  reads : ∀ pos ∈ t.reads ++ [t.pos], pos ≤ f.chars.length

/-- Every percent sign is that of a specifier. -/
def SpecifiersOnly : List Char8 → Prop
  | [] => True
  | [c] => c ≠ percent
  | c :: d :: rest =>
    if c = percent then (specifier d).isSome = true ∧ SpecifiersOnly rest
    else SpecifiersOnly (d :: rest)

/-! ## One step -/

/-- The state of a run at a part of the string. -/
def AtPart (f : Format) (part : List Char8) (s : PrintState) : Prop :=
  ∃ done, f.chars = done ++ part ∧ s.pos = done.length

theorem AtPart.mem {f : Format} {part : List Char8} {s : PrintState} (h : AtPart f part s) {k : Nat}
    (hk : k ≤ part.length) : f.mem (s.pos + k) = (part ++ [0]).getD k 0 := by
  obtain ⟨done, hChars, hPos⟩ := h
  rw [Format.mem, hChars, hPos, List.append_assoc, List.getD_append_right _ _ _ _ (by omega),
    Nat.add_sub_cancel_left, List.getD_eq_getElem _ _ (by simp; omega),
    List.getD_eq_getElem _ _ (by simp; omega)]

theorem AtPart.mem_head {f : Format} {c : Char8} {rest : List Char8} {s : PrintState}
    (h : AtPart f (c :: rest) s) : f.mem s.pos = c := h.mem (k := 0) (Nat.zero_le _)

theorem AtPart.test_head {f : Format} {c : Char8} {rest : List Char8} {s : PrintState}
    (h : AtPart f (c :: rest) s) : (f.mem s.pos != 0) = true := by
  have hNul := f.noNul
  obtain ⟨done, hChars, -⟩ := id h
  rw [hChars] at hNul
  rw [h.mem_head, bne_iff_ne]
  rintro rfl
  exact hNul (List.mem_append_right done List.mem_cons_self)

/-- At the end of the string the loop ends. -/
theorem AtPart.test_nil {f : Format} {s : PrintState} (h : AtPart f [] s) :
    (f.mem s.pos != 0) = false := by
  rw [show f.mem s.pos = 0 from h.mem (k := 0) (Nat.zero_le _)]
  rfl

theorem AtPart.next {f : Format} {c : Char8} {rest : List Char8} {s t : PrintState}
    (h : AtPart f (c :: rest) s) (hPos : t.pos = s.pos + 1) : AtPart f rest t := by
  obtain ⟨done, hChars, hDone⟩ := h
  refine ⟨done ++ [c], by rw [hChars, List.append_assoc]; rfl, ?_⟩
  rw [hPos, hDone, List.length_append, List.length_singleton]

theorem AtPart.pos_le {f : Format} {part : List Char8} {s : PrintState} (h : AtPart f part s) :
    s.pos + part.length = f.chars.length := by
  obtain ⟨done, hChars, hDone⟩ := h
  rw [hChars, List.length_append, hDone]

/-- The state after the pointer has moved over `n` characters. -/
def PrintState.skip (s : PrintState) (n : Nat) : PrintState :=
  { s with pos := s.pos + n, reads := s.reads ++ (List.range n).map (s.pos + ·) }

theorem printStep_char {f : Format} (addr : BitVec 64) {c : Char8} {rest : List Char8}
    {s : PrintState} (h : AtPart f (c :: rest) s) (hc : c ≠ percent) :
    printStep f addr s = (s.skip 1).put addr c := by
  rw [printStep, h.mem_head, if_neg hc]
  rfl

theorem printStep_percent {f : Format} (addr : BitVec 64) {rest : List Char8} {s : PrintState}
    (h : AtPart f (percent :: rest) s) :
    printStep f addr s = printSpecifier addr ((rest ++ [0]).getD 0 0) (s.skip 2) := by
  rw [printStep, h.mem_head, if_pos rfl, h.mem (k := 1) (by simp)]
  rfl

/-! ## A specifier -/

/-- What has been written and used stays. -/
structure Extends (s t : PrintState) : Prop where
  writes : s.writes <+: t.writes
  indices : s.indices <+: t.indices

theorem Extends.refl (s : PrintState) : Extends s s := ⟨List.prefix_rfl, List.prefix_rfl⟩

theorem Extends.trans {s t u : PrintState} (h : Extends s t) (h' : Extends t u) : Extends s u :=
  ⟨h.writes.trans h'.writes, h.indices.trans h'.indices⟩

theorem put_extends (s : PrintState) (addr : BitVec 64) (c : Char8) : Extends s (s.put addr c) :=
  ⟨List.prefix_append _ _, List.prefix_rfl⟩

theorem skip_extends (s : PrintState) (n : Nat) : Extends s (s.skip n) :=
  ⟨List.prefix_rfl, List.prefix_rfl⟩

/-- The loop that takes the value apart writes nothing, and leaves the pointer. -/
structure Filled (s t : PrintState) : Prop where
  pos : t.pos = s.pos
  reads : t.reads = s.reads
  writes : t.writes = s.writes
  indices : s.indices <+: t.indices
  more : s.i ≤ t.i

theorem fill_filled (r : Radix) (s : PrintState) : Filled s (fill r s) := by
  induction s using fill.induct r with
  | case1 s h =>
    rw [fill, dif_pos h]
    exact ⟨rfl, rfl, rfl, List.prefix_rfl, Int.le_refl _⟩
  | case2 s h ih =>
    rw [fill, dif_neg h]
    exact ⟨ih.pos, ih.reads, ih.writes, (List.prefix_append _ _).trans ih.indices,
      Int.le_trans (Int.le_add_one (Int.le_refl _)) ih.more⟩

theorem fill_more (r : Radix) {s : PrintState} (h : s.data ≠ 0) : s.i < (fill r s).i := by
  rw [fill, dif_neg h]
  exact Int.lt_of_lt_of_le (Int.lt_succ s.i) (fill_filled r _).more

theorem fill_zero (r : Radix) {s : PrintState} (h : s.data = 0) : fill r s = s := by
  rw [fill, dif_pos h]

/-- The branch for a specifier takes the value apart, the others leave it. -/
theorem fill_specifier (c : Char8) (s : PrintState) :
    (if c = lowerD then fill decimal s
      else if c = lowerX ∨ c = upperX then fill hexadecimal s else s) =
      match specifier c with
      | some r => fill r s
      | none => s := by
  unfold specifier
  by_cases hD : c = lowerD
  · rw [if_pos hD, if_pos hD]
  · rw [if_neg hD, if_neg hD]
    by_cases hX : c = lowerX ∨ c = upperX
    · rw [if_pos hX, if_pos hX]
    · rw [if_neg hX, if_neg hX]

theorem drain_extends (addr : BitVec 64) (s : PrintState) :
    Extends s (drain addr s) ∧ (drain addr s).pos = s.pos ∧ (drain addr s).reads = s.reads := by
  induction s using drain.induct addr with
  | case1 s h ih =>
    rw [drain, if_pos h]
    obtain ⟨hExtends, hPos, hReads⟩ := ih
    exact ⟨Extends.trans ⟨List.prefix_append _ _, List.prefix_append _ _⟩ hExtends, hPos, hReads⟩
  | case2 s h =>
    rw [drain, if_neg h]
    exact ⟨Extends.refl s, rfl, rfl⟩

/-- The loop that writes the digits uses the index before the buffer. -/
theorem drain_index (addr : BitVec 64) {s : PrintState} (h : 0 ≤ s.i) :
    -1 ∈ (drain addr s).indices := by
  induction s using drain.induct addr with
  | case1 s hi ih =>
    rw [drain, if_pos hi]
    by_cases hMore : 0 ≤ s.i - 1
    · exact ih hMore
    · have hLast : s.i - 1 = -1 := by omega
      refine (drain_extends addr _).1.indices.subset ?_
      exact List.mem_append_right _ (List.mem_singleton.mpr hLast.symm)
  | case2 s hi => exact absurd h hi

theorem printSpecifier_extends (addr : BitVec 64) (c : Char8) (s : PrintState) :
    Extends s (printSpecifier addr c s) ∧ (printSpecifier addr c s).pos = s.pos ∧
      (printSpecifier addr c s).reads = s.reads := by
  have hFilled : ∀ u, Filled s u →
      Extends s (if 0 < u.i then drain addr u else u.put addr charZero) ∧
      (if 0 < u.i then drain addr u else u.put addr charZero).pos = s.pos ∧
        (if 0 < u.i then drain addr u else u.put addr charZero).reads = s.reads := by
    intro u h
    have hExtends : Extends s u := ⟨h.writes ▸ List.prefix_rfl, h.indices⟩
    by_cases hi : 0 < u.i
    · rw [if_pos hi]
      obtain ⟨hDrain, hPos, hReads⟩ := drain_extends addr u
      exact ⟨hExtends.trans hDrain, hPos.trans h.pos, hReads.trans h.reads⟩
    · rw [if_neg hi]
      exact ⟨hExtends.trans (put_extends u addr charZero), h.pos, h.reads⟩
  unfold printSpecifier
  apply hFilled
  rw [fill_specifier]
  cases specifier c with
  | none => exact ⟨rfl, rfl, rfl, List.prefix_rfl, Int.le_refl _⟩
  | some r => exact fill_filled r s

/-- Without a value to take apart, the character is a zero. -/
theorem printSpecifier_zero (addr : BitVec 64) {c : Char8} {s : PrintState} (hi : s.i = 0)
    (h : s.data = 0 ∨ specifier c = none) : printSpecifier addr c s = s.put addr charZero := by
  have hSame : (if c = lowerD then fill decimal s
      else if c = lowerX ∨ c = upperX then fill hexadecimal s else s) = s := by
    rw [fill_specifier]
    rcases h with hData | hNone
    · cases specifier c with
      | none => rfl
      | some r => exact fill_zero r hData
    · rw [hNone]
  unfold printSpecifier
  simp only [hSame]
  rw [if_neg (by omega)]

/-- With a value, the byte before the buffer is used. -/
theorem printSpecifier_index (addr : BitVec 64) {c : Char8} {s : PrintState} (hi : s.i = 0)
    (hData : s.data ≠ 0) {r : Radix} (hc : specifier c = some r) :
    printSpecifier addr c s = drain addr (fill r s) ∧ -1 ∈ (printSpecifier addr c s).indices := by
  have hFill : (if c = lowerD then fill decimal s
      else if c = lowerX ∨ c = upperX then fill hexadecimal s else s) = fill r s := by
    rw [fill_specifier, hc]
  have hMore := fill_more r hData
  have hDrain : printSpecifier addr c s = drain addr (fill r s) := by
    unfold printSpecifier
    simp only [hFill]
    rw [if_pos (by omega)]
  refine ⟨hDrain, ?_⟩
  rw [hDrain]
  exact drain_index addr (by omega)

/-! ## The digits -/

/-- The bytes of the buffer below an index. -/
def below (buffer : Int → Char8) (n : Nat) : List Char8 :=
  (List.range n).map fun k : Nat => buffer (k : Int)

theorem below_succ (buffer : Int → Char8) (n : Nat) :
    below buffer (n + 1) = below buffer n ++ [buffer n] := by
  rw [below, List.range_succ, List.map_append, List.map_singleton, below]

theorem below_update (buffer : Int → Char8) (n : Nat) (c : Char8) :
    below (Function.update buffer n c) (n + 1) = below buffer n ++ [c] := by
  rw [below_succ, Function.update_self]
  apply congrArg (· ++ [c])
  apply List.map_congr_left
  intro k hk
  have hLess := List.mem_range.mp hk
  show Function.update buffer (n : Int) c (k : Int) = buffer k
  rw [Function.update_of_ne (by omega)]

theorem Radix.digit_char (r : Radix) (data : BitVec 64) :
    r.digit data = BitVec.ofNat 8 (data.toNat % r.base) := by
  rw [← r.digit_eq, BitVec.ofNat_toNat, BitVec.setWidth_eq]

/-- The buffer gets the digits, last digit first; the byte before it stays. -/
theorem fill_digits (r : Radix) {s : PrintState} {n : Nat} (hi : s.i = n) :
    ∃ m : Nat, (fill r s).i = m ∧
      below (fill r s).buffer m = below s.buffer n ++
        (Nat.digits r.base s.data.toNat).map (fun d => r.char (BitVec.ofNat 8 d)) ∧
      (fill r s).buffer (-1) = s.buffer (-1) := by
  induction s using fill.induct r generalizing n with
  | case1 s h =>
    rw [fill, dif_pos h, h]
    exact ⟨n, hi, by simp, rfl⟩
  | case2 s h ih =>
    rw [fill, dif_neg h]
    have hPos : 0 < s.data.toNat := Nat.pos_of_ne_zero fun hZero => h (BitVec.eq_of_toNat_eq hZero)
    have hNext : s.i + 1 = (n + 1 : Nat) := by rw [hi]; rfl
    obtain ⟨m, hm, hBelow, hBefore⟩ := ih hNext
    refine ⟨m, hm, ?_, ?_⟩
    · rw [hBelow, hi, below_update, Nat.digits_def' r.one_lt hPos, List.map_cons, r.digit_char,
        r.next_eq, List.append_assoc]
      rfl
    · rw [hBefore]
      exact Function.update_of_ne (by omega) _ _

/-- The digits are written from the last index down to the byte before the buffer. -/
theorem drain_writes (addr : BitVec 64) {s : PrintState} {n : Nat} (hi : s.i = n) :
    (drain addr s).writes = s.writes ++
      ((below s.buffer n).reverse ++ [s.buffer (-1)]).map fun c => (addr, c) := by
  induction n generalizing s with
  | zero =>
    have hLast : s.i - 1 = -1 := by omega
    rw [drain, if_pos (by omega), drain]
    simp only [hLast]
    rw [if_neg (by decide)]
    simp [below]
  | succ n ih =>
    have hLast : s.i - 1 = n := by omega
    rw [drain, if_pos (by omega), ih hLast, below_succ, hLast]
    simp

/-- For a value other than 0 a specifier writes the digits and one byte more. -/
theorem printSpecifier_writes (addr : BitVec 64) {c : Char8} {s : PrintState} (hi : s.i = 0)
    (hData : s.data ≠ 0) {r : Radix} (hc : specifier c = some r) :
    (printSpecifier addr c s).writes =
      s.writes ++ (valueChars r s.data ++ [s.buffer (-1)]).map fun c => (addr, c) := by
  obtain ⟨m, hm, hBelow, hBefore⟩ := fill_digits r (s := s) (n := 0) hi
  rw [(printSpecifier_index addr hi hData hc).1, drain_writes addr hm, hBelow, hBefore,
    (fill_filled r s).writes, valueChars, if_neg hData, List.map_reverse]
  rfl

/-! ## The string -/

theorem Prints.done {f : Format} {addr : BitVec 64} {s t : PrintState} (h : AtPart f [] s) :
    Prints f addr s t ↔ t = s := endsIn_of_false h.test_nil

theorem Prints.step {f : Format} {addr : BitVec 64} {c : Char8} {rest : List Char8}
    {s t : PrintState} (h : AtPart f (c :: rest) s) :
    Prints f addr s t ↔ Prints f addr (printStep f addr s) t := endsIn_of_true h.test_head

theorem Prints.extends {f : Format} {addr : BitVec 64} {s t : PrintState}
    (h : Prints f addr s t) : Extends s t := by
  refine (EndsIn.invariant (I := fun u => Extends s u) h ?_ (Extends.refl s)).1
  intro u hu _
  apply hu.trans
  unfold printStep
  by_cases hc : f.mem u.pos = percent
  · rw [if_pos hc]
    exact (skip_extends u 2).trans (printSpecifier_extends addr _ (u.skip 2)).1
  · rw [if_neg hc]
    exact (skip_extends u 1).trans (put_extends (u.skip 1) addr _)

theorem AtPart.specifier {f : Format} {d : Char8} {rest : List Char8} {s t : PrintState}
    (h : AtPart f (percent :: d :: rest) s) (hPos : t.pos = s.pos + 2) : AtPart f rest t := by
  have hNext : AtPart f (d :: rest) (s.skip 1) := h.next rfl
  exact hNext.next hPos

theorem render_percent (value : BitVec 64) {d : Char8} {rest : List Char8} {r : Radix}
    (h : specifier d = some r) :
    render value (percent :: d :: rest) = valueChars r value ++ render value rest := by
  rw [render, if_pos rfl, h]

theorem render_char (value : BitVec 64) {c : Char8} {rest : List Char8}
    (h : c ≠ percent ∨ (rest.head?.bind EnterpriseAcs.Suites.specifier) = none) :
    render value (c :: rest) = c :: render value rest := by
  cases rest with
  | nil => rfl
  | cons d rest =>
    have hNone : (if c = percent then EnterpriseAcs.Suites.specifier d else none) = none := by
      rcases h with hc | hd
      · exact if_neg hc
      · rw [ite_eq_right_iff]
        exact fun _ => hd
    rw [render, hNone]

theorem specifiersOnly_of_not_mem {part : List Char8} (h : percent ∉ part) :
    SpecifiersOnly part := by
  induction part using SpecifiersOnly.induct with
  | case1 => trivial
  | case2 c => exact fun hc => h (List.mem_singleton.mpr hc.symm)
  | case3 d rest ih => exact absurd List.mem_cons_self h
  | case4 c d rest hc ih =>
    rw [SpecifiersOnly, if_neg hc]
    exact ih fun hMem => h (List.mem_cons_of_mem c hMem)

/-- From a state on, a part of the string is written with the value, without use of the buffer and
without a read behind the string. -/
def PrintsPart (f : Format) (addr value : BitVec 64) (part : List Char8) (s : PrintState) : Prop :=
  ∃ t, Prints f addr s t ∧
    t.writes = s.writes ++ (render value part).map (fun c => (addr, c)) ∧
    t.indices = s.indices ∧
    ∀ pos ∈ t.reads ++ [t.pos], pos ∈ s.reads ∨ pos ≤ f.chars.length

section Parts

variable {f : Format} {addr value : BitVec 64} {s : PrintState}

theorem printsPart_nil (h : AtPart f [] s) : PrintsPart f addr value [] s := by
  have hEnd : s.pos = f.chars.length := h.pos_le
  refine ⟨s, (Prints.done h).mpr rfl, by simp [render], rfl, ?_⟩
  intro pos hPos
  rcases List.mem_append.mp hPos with hRead | hLast
  · exact Or.inl hRead
  · rw [List.mem_singleton.mp hLast]
    exact Or.inr (Nat.le_of_eq hEnd)

/-- Reads of the characters of a part. -/
theorem skip_reads {part : List Char8} (h : AtPart f part s) {n : Nat} (hn : n ≤ part.length)
    {pos : Nat} (hPos : pos ∈ (s.skip n).reads ∨ pos ≤ f.chars.length) :
    pos ∈ s.reads ∨ pos ≤ f.chars.length := by
  have hEnd := h.pos_le
  rcases hPos with hRead | hLe
  · rcases List.mem_append.mp hRead with hBefore | hNew
    · exact Or.inl hBefore
    · obtain ⟨k, hk, rfl⟩ := List.mem_map.mp hNew
      have hLess := List.mem_range.mp hk
      exact Or.inr (by omega)
  · exact Or.inr hLe

theorem printsPart_char {c : Char8} {rest : List Char8} (h : AtPart f (c :: rest) s)
    (hc : c ≠ percent) (hRest : PrintsPart f addr value rest ((s.skip 1).put addr c)) :
    PrintsPart f addr value (c :: rest) s := by
  obtain ⟨t, hPrints, hWrites, hIndices, hReads⟩ := hRest
  refine ⟨t, ?_, ?_, hIndices, fun pos hPos => ?_⟩
  · rw [Prints.step h, printStep_char addr h hc]
    exact hPrints
  · rw [hWrites, render_char value (Or.inl hc), List.map_cons]
    exact List.append_assoc _ _ _
  · exact skip_reads h (Nat.succ_le_succ (Nat.zero_le _)) (hReads pos hPos)

theorem printsPart_zero {d : Char8} {rest : List Char8} (h : AtPart f (percent :: d :: rest) s)
    {r : Radix} (hd : specifier d = some r) (hi : s.i = 0) (hData : s.data = 0)
    (hRest : PrintsPart f addr 0 rest ((s.skip 2).put addr charZero)) :
    PrintsPart f addr 0 (percent :: d :: rest) s := by
  obtain ⟨t, hPrints, hWrites, hIndices, hReads⟩ := hRest
  refine ⟨t, ?_, ?_, hIndices, fun pos hPos => ?_⟩
  · rw [Prints.step h, printStep_percent addr h,
      printSpecifier_zero addr (s := s.skip 2) hi (Or.inl hData)]
    exact hPrints
  · rw [hWrites, render_percent 0 hd, valueChars, if_pos rfl, List.singleton_append, List.map_cons]
    exact List.append_assoc _ _ _
  · exact skip_reads h (Nat.succ_le_succ (Nat.succ_le_succ (Nat.zero_le _))) (hReads pos hPos)

/-- The formats that are written right. -/
theorem print_plain {part : List Char8} (hSpecifiers : SpecifiersOnly part)
    (hZero : value = 0 ∨ percent ∉ part) (hAt : AtPart f part s) (hi : s.i = 0)
    (hData : s.data = value) : PrintsPart f addr value part s := by
  induction part using SpecifiersOnly.induct generalizing s with
  | case1 => exact printsPart_nil hAt
  | case2 c => exact printsPart_char hAt hSpecifiers (printsPart_nil (hAt.next rfl))
  | case3 d rest ih =>
    rw [SpecifiersOnly, if_pos rfl] at hSpecifiers
    obtain ⟨r, hd⟩ := Option.isSome_iff_exists.mp hSpecifiers.1
    obtain rfl : value = 0 := hZero.resolve_right fun h => h List.mem_cons_self
    exact printsPart_zero hAt hd hi hData
      (ih hSpecifiers.2 (Or.inl rfl) (hAt.specifier rfl) hi hData)
  | case4 c d rest hc ih =>
    rw [SpecifiersOnly, if_neg hc] at hSpecifiers
    exact printsPart_char hAt hc
      (ih hSpecifiers (hZero.imp_right fun h hMem => h (List.mem_cons_of_mem c hMem))
        (hAt.next rfl) hi hData)

/-- A character that is written where the string has another one. -/
theorem not_written {t : PrintState} (h : Prints f addr (s.put addr charZero) t)
    (rest : List Char8) : t.writes ≠ s.writes ++ (percent :: rest).map fun c => (addr, c) := by
  intro hWrites
  have hPrefix := h.extends.writes
  rw [hWrites, List.map_cons] at hPrefix
  have hHead := (List.prefix_append_right_inj s.writes).mp hPrefix
  have hEq := (List.cons_prefix_cons.mp hHead).1
  exact absurd (Prod.mk.inj hEq).2 (by decide)

/-- The formats that are written right have specifiers only, and no specifier for a value other
than 0. -/
theorem plain_of_print {part : List Char8} (hAt : AtPart f part s) (hi : s.i = 0)
    (hData : s.data = value) {t : PrintState} (hPrints : Prints f addr s t)
    (hWrites : t.writes = s.writes ++ (render value part).map fun c => (addr, c))
    (hIndices : -1 ∉ t.indices) :
    SpecifiersOnly part ∧ (value = 0 ∨ percent ∉ part) := by
  induction part using SpecifiersOnly.induct generalizing s with
  | case1 => exact ⟨trivial, Or.inr List.not_mem_nil⟩
  | case2 c =>
    have hc : c ≠ percent := by
      rintro rfl
      rw [Prints.step hAt, printStep_percent addr hAt,
        printSpecifier_zero addr (s := s.skip 2) hi (Or.inr rfl)] at hPrints
      exact not_written hPrints [] hWrites
    exact ⟨hc, Or.inr fun h => hc (List.mem_singleton.mp h).symm⟩
  | case3 d rest ih =>
    rw [Prints.step hAt, printStep_percent addr hAt] at hPrints
    have hHead : (d :: rest ++ [0]).getD 0 0 = d := rfl
    rw [hHead] at hPrints
    rcases hSpecifier : specifier d with _ | r
    · rw [printSpecifier_zero addr (s := s.skip 2) hi (Or.inr hSpecifier)] at hPrints
      have hPlain : render value (percent :: d :: rest) = percent :: render value (d :: rest) :=
        render_char value (Or.inr hSpecifier)
      rw [hPlain] at hWrites
      exact absurd hWrites (not_written hPrints _)
    · by_cases hZero : value = 0
      · subst hZero
        rw [printSpecifier_zero addr (s := s.skip 2) hi (Or.inl hData)] at hPrints
        rw [render_percent 0 hSpecifier, valueChars, if_pos rfl, List.singleton_append,
          List.map_cons, ← List.singleton_append, ← List.append_assoc] at hWrites
        have hNext : AtPart f rest ((s.skip 2).put addr charZero) := hAt.specifier rfl
        have hRest := (ih hNext hi hData hPrints hWrites).1
        rw [SpecifiersOnly, if_pos rfl, hSpecifier]
        exact ⟨⟨rfl, hRest⟩, Or.inl rfl⟩
      · -- the byte before the buffer is used, and stays in the history
        have hIndex := (printSpecifier_index addr (s := s.skip 2) hi
          (fun h => hZero (hData.symm.trans h)) hSpecifier).2
        exact absurd (hPrints.extends.indices.subset hIndex) hIndices
  | case4 c d rest hc ih =>
    rw [Prints.step hAt, printStep_char addr hAt hc] at hPrints
    rw [render_char value (Or.inl hc), List.map_cons, ← List.singleton_append,
      ← List.append_assoc] at hWrites
    have hNext : AtPart f (d :: rest) ((s.skip 1).put addr c) := hAt.next rfl
    obtain ⟨hSpecifiers, hZero⟩ := ih hNext hi hData hPrints hWrites
    rw [SpecifiersOnly, if_neg hc]
    refine ⟨hSpecifiers, hZero.imp_right fun h hMem => ?_⟩
    rcases List.mem_cons.mp hMem with hHead | hTail
    · exact hc hHead.symm
    · exact h hTail

end Parts

theorem prints_iff (f : Format) (addr value : BitVec 64) (buffer : Int → Char8) :
    (∃ t, Prints f addr (printInit value buffer) t ∧ PrintsRight f addr value t) ↔
      percent ∉ f.chars ∨ value = 0 ∧ SpecifiersOnly f.chars := by
  have hAt : AtPart f f.chars (printInit value buffer) := ⟨[], rfl, rfl⟩
  constructor
  · rintro ⟨t, hPrints, hRight⟩
    have hIndices : -1 ∉ t.indices := fun h => absurd (hRight.indices _ h).1 (by decide)
    obtain ⟨hSpecifiers, hZero⟩ := plain_of_print hAt rfl rfl hPrints hRight.writes hIndices
    exact hZero.symm.imp_right fun h => ⟨h, hSpecifiers⟩
  · intro h
    have hSpecifiers : SpecifiersOnly f.chars := h.elim specifiersOnly_of_not_mem (·.2)
    have hPart : PrintsPart f addr value f.chars (printInit value buffer) :=
      print_plain hSpecifiers (h.symm.imp_left (·.1)) hAt rfl rfl
    obtain ⟨t, hPrints, hWrites, hUsed, hReads⟩ := hPart
    refine ⟨t, hPrints, hWrites, ?_, fun pos hPos => ?_⟩
    · rw [hUsed]
      exact List.forall_mem_nil _
    · exact (hReads pos hPos).resolve_left List.not_mem_nil

end EnterpriseAcs.Suites

/-! ## The two suites -/

namespace EnterpriseAcs.Mpam

/-- `pal_print_raw` of the MPAM suite. -/
def PalPrintRaw (addr : BitVec 64) (string : Suites.Format) (data : BitVec 64)
    (buffer : Int → Suites.Char8) (t : Suites.PrintState) : Prop :=
  Suites.Prints string addr (Suites.printInit data buffer) t

end EnterpriseAcs.Mpam

namespace EnterpriseAcs.Sdei

/-- `BASE_FVP_UART_BASE`. -/
def baseFvpUartBase : BitVec 64 := 0x1c090000

/-- `pal_print_raw` of the SDEI suite, which has the address of the port built in. -/
def PalPrintRaw (string : Suites.Format) (data : BitVec 64) (buffer : Int → Suites.Char8)
    (t : Suites.PrintState) : Prop :=
  Suites.Prints string baseFvpUartBase (Suites.printInit data buffer) t

end EnterpriseAcs.Sdei

namespace EnterpriseAcs.Suites

/-- In both suites a format is written right, inside the buffer and the string, exactly when it has
no percent sign, or the value is 0 and every percent sign is that of a specifier. -/
theorem printRaw_iff (f : Format) (addr value : BitVec 64) (buffer : Int → Char8) :
    ((∃ t, Mpam.PalPrintRaw addr f value buffer t ∧ PrintsRight f addr value t) ↔
        percent ∉ f.chars ∨ value = 0 ∧ SpecifiersOnly f.chars) ∧
      ((∃ t, Sdei.PalPrintRaw f value buffer t ∧ PrintsRight f Sdei.baseFvpUartBase value t) ↔
        percent ∉ f.chars ∨ value = 0 ∧ SpecifiersOnly f.chars) :=
  ⟨prints_iff f addr value buffer, prints_iff f Sdei.baseFvpUartBase value buffer⟩

theorem percentD_noNul : 0 ∉ [percent, lowerD] := by decide

/-- The format `%d`. -/
def percentD : Format := ⟨[percent, lowerD], percentD_noNul, fun _ => 0⟩

/-- The value 5 is written with a byte from outside the buffer. -/
theorem percentD_five :
    ¬ ∃ t, Sdei.PalPrintRaw percentD 5 (fun _ => 0) t ∧
      PrintsRight percentD Sdei.baseFvpUartBase 5 t := by
  intro h
  have hPlain := (prints_iff percentD Sdei.baseFvpUartBase 5 fun _ => 0).mp h
  rcases hPlain with hNone | hZero
  · exact hNone List.mem_cons_self
  · exact absurd hZero.1 (by decide)

end EnterpriseAcs.Suites
