import Mathlib.Data.Nat.Log
import Zape.Buffer.Gzip

/-! How `zbuffer_prepapre_buf` grows the memory for the input, for all sizes that a `size_t` has. -/
namespace ZapeProof

open Machine ZapeModel

def PowerSize (size : Nat) : Prop := size = 0 ∨ ∃ exponent, 10 ≤ exponent ∧ exponent < 64 ∧ size = 2 ^ exponent

/-- What `buf` is grown to for so many bytes more, as a number without a limit. Where more is pending than it could hold,
    the comparison of the loop is between a number below zero, which is large without a sign, and those bytes. -/
def bufGrown (bufSize pending more : Nat) : Nat :=
  if max 1024 bufSize < pending then max 1024 bufSize else max (max 1024 bufSize) (2 ^ Nat.clog 2 (pending + more))

section Doubling

variable {availIn inputSize start : SizeT} {bufSize pending more exponent : Nat}

theorem power_start (power : PowerSize bufSize) :
    ∃ exponent, 10 ≤ exponent ∧ exponent < 64 ∧ max 1024 bufSize = 2 ^ exponent := by
  rcases power with zero | ⟨exponent, least, most, same⟩
  · exact ⟨10, Nat.le_refl _, by decide, by rw [zero]; rfl⟩
  · have large : 2 ^ 10 ≤ 2 ^ exponent := Nat.pow_le_pow_right (by decide) least
    exact ⟨exponent, least, most, by omega⟩

theorem clog_bound (short : pending < 2 ^ 32) (size : more < 2 ^ 63) : Nat.clog 2 (pending + more) ≤ 64 := by
  apply Nat.clog_le_of_le_pow
  omega

theorem power_mod {exponent : Nat} (least : 10 ≤ exponent) (most : exponent ≤ 64) : PowerSize (2 ^ exponent % 2 ^ 64) := by
  by_cases last : exponent = 64
  · rw [last, Nat.mod_self]
    exact .inl rfl
  · have below : 2 ^ exponent < 2 ^ 64 := Nat.pow_lt_pow_right (by decide) (by omega)
    rw [Nat.mod_eq_of_lt below]
    exact .inr ⟨exponent, least, by omega, rfl⟩

theorem grown_power (power : PowerSize bufSize) (short : pending < 2 ^ 32) (size : more < 2 ^ 63) :
    PowerSize (bufGrown bufSize pending more % 2 ^ 64) := by
  obtain ⟨exponent, least, most, start⟩ := power_start power
  have bound := clog_bound short size
  unfold bufGrown
  rw [start]
  split
  · exact power_mod least most.le
  · rcases Nat.le_total exponent (Nat.clog 2 (pending + more)) with more | less
    · rw [max_eq_right (Nat.pow_le_pow_right (by decide) more)]
      exact power_mod (by omega) bound
    · rw [max_eq_left (Nat.pow_le_pow_right (by decide) less)]
      exact power_mod least most.le

theorem doubled_zero (turns : Nat) : GzipBuffer.doubled availIn inputSize turns 0#64 = 0#64 := by
  induction turns with
  | zero => rfl
  | succ turns ih =>
    rw [GzipBuffer.doubled]
    split
    · exact ih
    · rfl

theorem doubled_past (past : start.toNat < availIn.toNat) (short : availIn.toNat < 2 ^ 32) (size : inputSize.toNat < 2 ^ 63)
    (turns : Nat) : GzipBuffer.doubled availIn inputSize turns start = start := by
  cases turns with
  | zero => rfl
  | succ turns =>
    have left : (start - availIn).toNat = 2 ^ 64 - availIn.toNat + start.toNat := by
      rw [BitVec.toNat_sub]
      omega
    rw [GzipBuffer.doubled, if_neg]
    rw [BitVec.ult_iff_lt, BitVec.lt_def, left]
    omega

/-- The loop doubles a power of two until it is not less than what is needed. -/
theorem doubled_pow {turns : Nat} (here : start.toNat = 2 ^ exponent) (most : exponent < 64)
    (inside : availIn.toNat ≤ start.toNat) (short : availIn.toNat < 2 ^ 32) (size : inputSize.toNat < 2 ^ 63)
    (enough : 64 ≤ turns + exponent) :
    (GzipBuffer.doubled availIn inputSize turns start).toNat =
      max (2 ^ exponent) (2 ^ Nat.clog 2 (availIn.toNat + inputSize.toNat)) % 2 ^ 64 := by
  induction turns generalizing start exponent with
  | zero => omega
  | succ turns ih =>
    have left : (start - availIn).toNat = start.toNat - availIn.toNat := BitVec.toNat_sub_of_le inside
    rw [GzipBuffer.doubled]
    split
    · rename_i less
      rw [BitVec.ult_iff_lt, BitVec.lt_def, left] at less
      have above : exponent < Nat.clog 2 (availIn.toNat + inputSize.toNat) := by
        apply (Nat.lt_clog_iff_pow_lt (by decide)).mpr
        omega
      rw [max_eq_right (Nat.pow_le_pow_right (by decide) above.le)]
      -- the last doubling shifts the only bit out
      by_cases last : exponent = 63
      · have all : Nat.clog 2 (availIn.toNat + inputSize.toNat) = 64 := by
          have bound := clog_bound short size
          omega
        have zero : start <<< 1 = 0#64 := by
          apply BitVec.eq_of_toNat_eq
          rw [BitVec.toNat_shiftLeft, Nat.shiftLeft_eq, here, last]
          rfl
        rw [zero, doubled_zero, all]
        rfl
      · have twice : (start <<< 1).toNat = 2 ^ (exponent + 1) := by
          have below : 2 ^ (exponent + 1) < 2 ^ 64 := Nat.pow_lt_pow_right (by decide) (by omega)
          rw [BitVec.toNat_shiftLeft, Nat.shiftLeft_eq, here, Nat.pow_one, ← Nat.pow_succ, Nat.mod_eq_of_lt below]
        have larger : start.toNat ≤ (start <<< 1).toNat := by
          rw [twice, here]
          exact Nat.pow_le_pow_right (by decide) (Nat.le_succ _)
        rw [ih twice (by omega) (by omega) (by omega), max_eq_right (Nat.pow_le_pow_right (by decide) above)]
    · rename_i room
      rw [BitVec.ult_iff_lt, BitVec.lt_def, left] at room
      have below : Nat.clog 2 (availIn.toNat + inputSize.toNat) ≤ exponent := by
        apply Nat.clog_le_of_le_pow
        omega
      rw [max_eq_left (Nat.pow_le_pow_right (by decide) below), ← here, Nat.mod_eq_of_lt start.isLt]

/-- The size that `buf` is grown to holds the new data, unless that is put outside of it. -/
theorem grown_holds {bufSize pending more : Nat} (power : PowerSize bufSize) (inside : pending ≤ max 1024 bufSize)
    (small : pending + more ≤ 2 ^ 63) :
    bufGrown bufSize pending more % 2 ^ 64 = bufGrown bufSize pending more ∧
      pending + more ≤ bufGrown bufSize pending more ∧ bufGrown bufSize pending more < 2 ^ 64 := by
  obtain ⟨exponent, least, most, start⟩ := power_start power
  have needed : pending + more ≤ 2 ^ Nat.clog 2 (pending + more) := Nat.le_pow_clog (by decide) _
  have below : 2 ^ exponent < 2 ^ 64 := Nat.pow_lt_pow_right (by decide) most
  have below' : 2 ^ Nat.clog 2 (pending + more) ≤ 2 ^ 63 :=
    Nat.pow_le_pow_right (by decide) (Nat.clog_le_of_le_pow small)
  have bound : bufGrown bufSize pending more < 2 ^ 64 := by
    unfold bufGrown
    rw [if_neg (by omega), start]
    omega
  refine ⟨Nat.mod_eq_of_lt bound, ?_, bound⟩
  unfold bufGrown
  rw [if_neg (by omega)]
  omega

theorem grown_outside {bufSize pending more : Nat} (power : PowerSize bufSize) (short : pending < 2 ^ 32)
    (size : more < 2 ^ 63) (some : 0 < more) (outside : max 1024 bufSize < pending ∨ 2 ^ 63 < pending + more) :
    bufGrown bufSize pending more % 2 ^ 64 < pending + more := by
  obtain ⟨exponent, least, most, start⟩ := power_start power
  unfold bufGrown
  by_cases past : max 1024 bufSize < pending
  · -- the loop has not had a turn
    rw [if_pos past, Nat.mod_eq_of_lt (by omega)]
    omega
  · have large : 2 ^ 63 < pending + more := outside.resolve_left past
    have all : Nat.clog 2 (pending + more) = 64 := by
      have above : 63 < Nat.clog 2 (pending + more) := (Nat.lt_clog_iff_pow_lt (by decide)).mpr large
      have bound := clog_bound short size
      omega
    have below : 2 ^ exponent < 2 ^ 64 := Nat.pow_lt_pow_right (by decide) most
    rw [if_neg past, start, all, max_eq_right below.le, Nat.mod_self]
    omega

end Doubling

section Prepapre

variable {b : GzipBuffer} {inputSize : SizeT} {moved : Bool}

theorem wide_toNat (availIn : BitVec 32) : (availIn.setWidth 64).toNat = availIn.toNat :=
  BitVec.toNat_setWidth_of_le (by decide)

theorem doubled_start (power : PowerSize b.bufSize.toNat) (size : inputSize.toNat < 2 ^ 63) :
    (GzipBuffer.doubled (b.availIn.setWidth 64) inputSize 64
      (if (1024#64).ult b.bufSize then b.bufSize else 1024#64)).toNat =
        bufGrown b.bufSize.toNat b.availIn.toNat inputSize.toNat % 2 ^ 64 := by
  obtain ⟨exponent, least, most, start⟩ := power_start power
  have short : (b.availIn.setWidth 64).toNat < 2 ^ 32 := by
    rw [wide_toNat]
    exact b.availIn.isLt
  have here : (if (1024#64).ult b.bufSize then b.bufSize else 1024#64).toNat = max 1024 b.bufSize.toNat := by
    split
    · rename_i less
      rw [BitVec.ult_iff_lt, BitVec.lt_def] at less
      exact (max_eq_right less.le).symm
    · rename_i less
      rw [BitVec.ult_iff_lt, BitVec.lt_def] at less
      exact (max_eq_left (Nat.le_of_not_lt less)).symm
  have below : max 1024 b.bufSize.toNat < 2 ^ 64 := by
    have bound := b.bufSize.isLt
    omega
  unfold bufGrown
  by_cases past : max 1024 b.bufSize.toNat < b.availIn.toNat
  · rw [if_pos past, doubled_past (by rw [here, wide_toNat]; exact past) short size, here, Nat.mod_eq_of_lt below]
  · rw [if_neg past, doubled_pow (here.trans start) most (by rw [here, wide_toNat]; omega) short size (by omega),
      wide_toNat, start]

theorem room_iff (power : PowerSize b.bufSize.toNat) (pending : b.availIn ≠ 0#32) (size : inputSize.toNat < 2 ^ 63) :
    inputSize.sle (b.bufSize - b.availIn.setWidth 64) = true ↔ b.availIn.toNat + inputSize.toNat ≤ b.bufSize.toNat := by
  have bound := b.availIn.isLt
  have large : b.bufSize.toNat ≤ 2 ^ 63 := by
    rcases power with zero | ⟨exponent, -, most, same⟩
    · omega
    · rw [same]
      exact Nat.pow_le_pow_right (by decide) (by omega)
  have positive : b.availIn.toNat ≠ 0 := fun zero => pending (BitVec.eq_of_toNat_eq zero)
  have left : (b.bufSize - b.availIn.setWidth 64).toInt = (b.bufSize.toNat : Int) - b.availIn.toNat := by
    rw [BitVec.toInt_eq_toNat_bmod, BitVec.toNat_sub, wide_toNat, Int.bmod_def]
    omega
  rw [BitVec.sle_iff_toInt_le, left, BitVec.toInt_eq_toNat_of_lt (by omega)]
  omega

/-- `zbuffer_prepapre_buf` leaves the buffer as it is, or it grows `buf` and sets `avail_out`. -/
theorem prepapre_cases (power : PowerSize b.bufSize.toNat) (size : inputSize.toNat < 2 ^ 63) :
    (b.availIn = 0#32 ∨ b.availIn.toNat + inputSize.toNat ≤ b.bufSize.toNat) ∧ b.zbufferPrepapreBuf inputSize moved = b ∨
      b.availIn ≠ 0#32 ∧ b.bufSize.toNat < b.availIn.toNat + inputSize.toNat ∧
        ∃ bufSize buf availOut blocks,
          b.zbufferPrepapreBuf inputSize moved = { b with bufSize, buf := some buf, availOut, blocks } ∧ buf.size = bufSize ∧
            bufSize.toNat = bufGrown b.bufSize.toNat b.availIn.toNat inputSize.toNat % 2 ^ 64 ∧
            availOut = (bufSize - b.availIn.setWidth 64).setWidth 32 := by
  unfold GzipBuffer.zbufferPrepapreBuf
  dsimp only
  by_cases idle : b.availIn = 0#32
  · rw [if_pos idle]
    exact .inl ⟨.inl idle, rfl⟩
  · rw [if_neg idle]
    by_cases room : b.availIn.toNat + inputSize.toNat ≤ b.bufSize.toNat
    · rw [if_pos ((room_iff power idle size).mpr room)]
      exact .inl ⟨.inr room, rfl⟩
    · rw [if_neg fun fits => room ((room_iff power idle size).mp fits)]
      right
      unfold GzipBuffer.realloc
      dsimp only
      cases stored : b.buf with
      | none => exact ⟨idle, by omega, _, _, _, _, rfl, rfl, doubled_start power size, rfl⟩
      | some old =>
        dsimp only
        split
        · exact ⟨idle, by omega, _, _, _, _, rfl, rfl, doubled_start power size, rfl⟩
        · exact ⟨idle, by omega, _, _, _, _, rfl, rfl, doubled_start power size, rfl⟩

end Prepapre

end ZapeProof
