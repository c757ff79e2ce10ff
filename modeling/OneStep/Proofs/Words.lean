import Mathlib.Data.Int.ModEq
import Mathlib.Tactic.Positivity
import OneStep.Proofs.Calculus

namespace OneStep.Words

variable {m n : Nat}

theorem ofInt_congr {a b : Int} (h : a ≡ b [ZMOD 2 ^ n]) : BitVec.ofInt n a = BitVec.ofInt n b := by
  apply BitVec.eq_of_toNat_eq
  simp only [BitVec.toNat_ofInt, Nat.cast_pow, Nat.cast_ofNat]
  exact congrArg Int.toNat h

theorem bmod_modEq (a : Int) : a.bmod (2 ^ n) ≡ a [ZMOD 2 ^ n] := by
  have h : a.bmod (2 ^ n) % ((2 ^ n : Nat) : Int) = a % ((2 ^ n : Nat) : Int) := Int.bmod_emod
  exact_mod_cast h

theorem toNat_modEq_toInt (x : BitVec n) : (x.toNat : Int) ≡ x.toInt [ZMOD 2 ^ n] := by
  rw [BitVec.toInt_eq_toNat_bmod]
  exact (bmod_modEq _).symm

theorem readBits_modEq (isSigned : Bool) (x : BitVec n) : readBits isSigned x ≡ x.toNat [ZMOD 2 ^ n] := by
  cases isSigned
  · rfl
  · exact (toNat_modEq_toInt x).symm

theorem ofInt_readBits (isSigned : Bool) (x : BitVec n) : BitVec.ofInt n (readBits isSigned x) = x := by
  rw [ofInt_congr (readBits_modEq isSigned x)]
  simp

theorem readBits_ofInt_modEq (isSigned : Bool) (a : Int) :
    readBits isSigned (BitVec.ofInt n a) ≡ a [ZMOD 2 ^ n] := by
  refine (readBits_modEq isSigned _).trans ?_
  have h : ((2 ^ n : Nat) : Int) ≠ 0 := by positivity
  rw [BitVec.toNat_ofInt, Int.toNat_of_nonneg (Int.emod_nonneg _ h)]
  exact_mod_cast Int.mod_modEq a ((2 ^ n : Nat) : Int)

theorem modEq_of_le {a b : Int} (h : n ≤ m) (he : a ≡ b [ZMOD 2 ^ m]) : a ≡ b [ZMOD 2 ^ n] :=
  he.of_dvd (pow_dvd_pow 2 h)

theorem ofInt_readBits_ofInt (isSigned : Bool) (a : Int) (h : n ≤ m) :
    BitVec.ofInt n (readBits isSigned (BitVec.ofInt m a)) = BitVec.ofInt n a :=
  ofInt_congr (modEq_of_le h (readBits_ofInt_modEq isSigned a))

theorem setWidth_eq_ofInt_toNat (x : BitVec m) : x.setWidth n = BitVec.ofInt n x.toNat := by
  apply BitVec.eq_of_toNat_eq
  simp

theorem setWidth_eq_ofInt (isSigned : Bool) (x : BitVec m) (h : n ≤ m) :
    x.setWidth n = BitVec.ofInt n (readBits isSigned x) := by
  rw [setWidth_eq_ofInt_toNat]
  exact ofInt_congr (modEq_of_le h (readBits_modEq isSigned x)).symm

theorem readBits_false (x : BitVec n) : readBits false x = x.toNat := rfl

theorem readBits_inj {isSigned : Bool} {x y : BitVec n} : readBits isSigned x = readBits isSigned y ↔ x = y :=
  ⟨fun h => by rw [← ofInt_readBits isSigned x, h, ofInt_readBits], fun h => h ▸ rfl⟩

theorem readBits_beq (isSigned : Bool) (x y : BitVec n) :
    (readBits isSigned x == readBits isSigned y) = (x == y) := by
  simp [beq_eq_decide, readBits_inj]

theorem arithBits_eq (isSigned : Bool) (op : Arithmetic) (x y : BitVec n) :
    CoreBinary.arithBits op x y = BitVec.ofInt n (op.onIntegers (readBits isSigned x) (readBits isSigned y)) := by
  cases op with
  | add => simp only [Arithmetic.onIntegers, BitVec.ofInt_add, ofInt_readBits, CoreBinary.arithBits]
  | sub =>
    simp only [Arithmetic.onIntegers, Int.sub_eq_add_neg, BitVec.ofInt_add, BitVec.ofInt_neg, ofInt_readBits,
      CoreBinary.arithBits, BitVec.sub_eq_add_neg]
  | mul => simp only [Arithmetic.onIntegers, BitVec.ofInt_mul, ofInt_readBits, CoreBinary.arithBits]

theorem ofInt_neg_one : BitVec.ofInt n (-1) = BitVec.allOnes n := by
  rw [BitVec.ofInt_neg, ← BitVec.neg_one_eq_allOnes]
  rfl

theorem toInt_eq_zero_iff (x : BitVec n) : x.toInt = 0 ↔ x = 0#n := by
  rw [← BitVec.toInt_inj, BitVec.toInt_zero]

theorem toNat_eq_zero_iff (x : BitVec n) : (x.toNat : Int) = 0 ↔ x = 0#n := by
  rw [← BitVec.toNat_inj, BitVec.toNat_ofNat, Nat.zero_mod, Int.natCast_eq_zero]

theorem smtUDiv_eq_ofInt (x y : BitVec n) : x.smtUDiv y = BitVec.ofInt n (Data.quotient x.toNat y.toNat) := by
  rw [BitVec.smtUDiv_eq, Data.quotient]
  by_cases hy : y = 0#n
  · rw [if_pos hy, if_pos ((toNat_eq_zero_iff y).2 hy), if_neg (by omega), ofInt_neg_one]
  · rw [if_neg hy, if_neg (mt (toNat_eq_zero_iff y).1 hy), Int.tdiv_eq_ediv_of_nonneg (by omega)]
    apply BitVec.eq_of_toNat_eq
    rw [← Int.natCast_ediv, BitVec.ofInt_natCast, BitVec.toNat_ofNat, BitVec.toNat_udiv]
    exact (Nat.mod_eq_of_lt (Nat.lt_of_le_of_lt (Nat.div_le_self _ _) x.isLt)).symm

theorem smtSDiv_eq_sdiv {x y : BitVec n} (h : y ≠ 0#n) : x.smtSDiv y = x.sdiv y := by
  have hn : -y ≠ 0#n := by simpa using h
  rw [BitVec.smtSDiv_eq, BitVec.sdiv_eq]
  cases x.msb <;> cases y.msb <;> simp [BitVec.smtUDiv_eq, h, hn]

theorem smtSDiv_eq_ofInt (x y : BitVec n) : x.smtSDiv y = BitVec.ofInt n (Data.quotient x.toInt y.toInt) := by
  rw [Data.quotient]
  by_cases hy : y = 0#n
  · subst hy
    rw [if_pos BitVec.toInt_zero, BitVec.smtSDiv_zero]
    by_cases hx : x.toInt < 0
    · simp [BitVec.slt_eq_decide, hx]
    · simp [BitVec.slt_eq_decide, hx, ofInt_neg_one]
  · rw [smtSDiv_eq_sdiv hy, if_neg (mt (toInt_eq_zero_iff y).1 hy), ← BitVec.ofInt_toInt (x := x.sdiv y),
      BitVec.toInt_sdiv]
    exact ofInt_congr (bmod_modEq _)

theorem srem_eq_ofInt (x y : BitVec n) : x.srem y = BitVec.ofInt n (x.toInt.tmod y.toInt) := by
  rw [← BitVec.toInt_srem, BitVec.ofInt_toInt]

theorem umod_eq_ofInt (x y : BitVec n) : x.umod y = BitVec.ofInt n ((x.toNat : Int).tmod y.toNat) := by
  apply BitVec.eq_of_toNat_eq
  rw [Int.tmod_eq_emod_of_nonneg (by omega), ← Int.natCast_emod, BitVec.ofInt_natCast, BitVec.toNat_ofNat]
  exact (BitVec.toNat_umod).trans (Nat.mod_eq_of_lt (Nat.lt_of_le_of_lt (Nat.mod_le _ _) x.isLt)).symm

theorem zero_sub_eq_ofInt (isSigned : Bool) (x : BitVec n) :
    BitVec.ofInt n 0 - x = BitVec.ofInt n (-readBits isSigned x) := by
  rw [BitVec.ofInt_neg, ofInt_readBits]
  simp

theorem abs_eq_ofInt (isSigned : Bool) (x : BitVec n) :
    (if readBits isSigned x < 0 then BitVec.ofInt n 0 - x else x) =
      BitVec.ofInt n (readBits isSigned x).natAbs := by
  split
  · next h => rw [zero_sub_eq_ofInt isSigned, Int.ofNat_natAbs_of_nonpos (by omega)]
  · next h => rw [Int.natAbs_of_nonneg (by omega), ofInt_readBits]

theorem readBits_zero (isSigned : Bool) : readBits isSigned (BitVec.ofInt n 0) = 0 := by
  cases isSigned <;> simp [readBits]

theorem sign_eq_ofInt (isSigned : Bool) (x : BitVec n) :
    (if x = BitVec.ofInt n 0 then BitVec.ofInt n 0
      else if readBits isSigned x < 0 then BitVec.ofInt n (-1) else BitVec.ofInt n 1) =
      BitVec.ofInt n (readBits isSigned x).sign := by
  by_cases h0 : x = BitVec.ofInt n 0
  · rw [if_pos h0, h0, readBits_zero, Int.sign_zero]
  · have hne : readBits isSigned x ≠ 0 := fun h => h0 (readBits_inj.1 (h.trans (readBits_zero isSigned).symm))
    rw [if_neg h0]
    split
    · next h => rw [Int.sign_eq_neg_one_of_neg h]
    · next h => rw [Int.sign_eq_one_of_pos (by omega)]

theorem readBits_extend (isSigned : Bool) (x : BitVec n) (hn : 0 < n) (h : n ≤ m) :
    readBits isSigned (BitVec.ofInt m (readBits isSigned x)) = readBits isSigned x := by
  cases isSigned with
  | false =>
    have hx : x.toNat < 2 ^ m := Nat.lt_of_lt_of_le x.isLt (Nat.pow_le_pow_right (by decide) h)
    simp [readBits, Nat.mod_eq_of_lt hx]
  | true =>
    have hm : (2 : Int) ^ (n - 1) ≤ 2 ^ (m - 1) := pow_le_pow_right₀ (by decide) (by omega)
    exact BitVec.toInt_ofInt_eq_self (by omega) (le_trans (neg_le_neg hm) (BitVec.le_toInt x))
      (lt_of_lt_of_le BitVec.toInt_lt hm)

theorem shiftLeftBits_eq (x y : BitVec n) :
    CoreBinary.shiftLeftBits x y = BitVec.ofInt n (x.toNat * 2 ^ y.toNat) := by
  have hcast : ((x.toNat : Int) * 2 ^ y.toNat) = ((x.toNat * 2 ^ y.toNat : Nat) : Int) := by push_cast; rfl
  apply BitVec.eq_of_toNat_eq
  rw [hcast, BitVec.ofInt_natCast, BitVec.toNat_ofNat, CoreBinary.shiftLeftBits]
  split
  · rw [BitVec.toNat_shiftLeft, Nat.shiftLeft_eq]
  · next h =>
    have hd : 2 ^ n ∣ x.toNat * 2 ^ y.toNat := (pow_dvd_pow 2 (by omega)).mul_left _
    simpa using (Nat.mod_eq_zero_of_dvd hd).symm

theorem ediv_two_pow_of_small {a : Int} {j k : Nat} (hl : -2 ^ j ≤ a) (hu : a < 2 ^ j) (h : j ≤ k) :
    a / 2 ^ k = if a < 0 then -1 else 0 := by
  have hk : (2 : Int) ^ j ≤ 2 ^ k := pow_le_pow_right₀ (by decide) h
  split
  · next hneg => exact Int.ediv_eq_neg_one_of_neg_of_le hneg (by omega)
  · exact Int.ediv_eq_zero_of_lt (by omega) (by omega)

theorem readBits_shiftRightBits (isSigned : Bool) (x y : BitVec n) :
    readBits isSigned (CoreBinary.shiftRightBits isSigned x y) = readBits isSigned x / 2 ^ y.toNat := by
  cases isSigned with
  | false =>
    simp only [readBits, CoreBinary.shiftRightBits, Bool.false_eq_true, if_false]
    split
    · simp [Nat.shiftRight_eq_div_pow]
    · next h =>
      have hx : x.toNat < 2 ^ y.toNat := Nat.lt_of_lt_of_le x.isLt (Nat.pow_le_pow_right (by decide) (by omega))
      have hz : (x.toNat : Int) / 2 ^ y.toNat = 0 := Int.ediv_eq_zero_of_lt (by omega) (by exact_mod_cast hx)
      simp [hz]
  | true =>
    have hl : -2 ^ n ≤ x.toInt := le_trans (neg_le_neg (pow_le_pow_right₀ (by decide) (by omega))) (BitVec.le_toInt x)
    have hu : x.toInt < 2 ^ n := lt_of_lt_of_le BitVec.toInt_lt (pow_le_pow_right₀ (by decide) (by omega))
    simp only [readBits, CoreBinary.shiftRightBits, if_true, BitVec.toInt_sshiftRight, Int.shiftRight_eq_div_pow]
    by_cases h : y.toNat ≤ n
    · rw [Nat.min_eq_left h]; push_cast; rfl
    · rw [Nat.min_eq_right (by omega), ediv_two_pow_of_small hl hu (by omega)]
      push_cast
      exact ediv_two_pow_of_small hl hu (le_refl n)

end OneStep.Words
