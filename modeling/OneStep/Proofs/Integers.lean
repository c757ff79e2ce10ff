import OneStep.Proofs.Encoded

namespace OneStep

namespace Words

def InRange : Bool → Nat → Int → Prop
  | true, n, a => -2 ^ (n - 1) ≤ a ∧ a < 2 ^ (n - 1)
  | false, n, a => 0 ≤ a ∧ a < 2 ^ n

variable {n : Nat} {isSigned : Bool}

theorem inRange_readBits (x : BitVec n) : InRange isSigned n (readBits isSigned x) := by
  cases isSigned with
  | false => exact ⟨Int.natCast_nonneg x.toNat, by rw [readBits_false]; exact_mod_cast x.isLt⟩
  | true => exact ⟨BitVec.le_toInt x, BitVec.toInt_lt⟩

theorem readBits_ofInt_of_inRange {a : Int} (hn : 0 < n) (h : InRange isSigned n a) :
    readBits isSigned (BitVec.ofInt n a) = a := by
  cases isSigned with
  | false =>
    obtain ⟨k, rfl⟩ := Int.eq_ofNat_of_zero_le h.1
    have hk : k < 2 ^ n := by exact_mod_cast h.2
    simp [readBits, Nat.mod_eq_of_lt hk]
  | true => exact BitVec.toInt_ofInt_eq_self hn h.1 h.2

theorem InRange.between {a b : Int} (h : InRange isSigned n a) (hp : 0 ≤ a → 0 ≤ b ∧ b ≤ a)
    (hm : a < 0 → a ≤ b ∧ b ≤ 0) : InRange isSigned n b := by
  have hpos : (0 : Int) < 2 ^ (n - 1) := Int.pow_pos (by decide)
  cases isSigned <;> simp only [InRange] at h ⊢ <;> omega

theorem InRange.zero {a : Int} (h : InRange isSigned n a) : InRange isSigned n 0 :=
  h.between (fun ha => ⟨le_refl 0, ha⟩) (fun ha => ⟨ha.le, le_refl 0⟩)

theorem InRange.tmod {a : Int} (h : InRange isSigned n a) (b : Int) : InRange isSigned n (a.tmod b) := by
  have hle : (a.tmod b).natAbs ≤ a.natAbs := by
    rw [Int.natAbs_tmod]
    exact Nat.mod_le _ _
  refine h.between (fun ha => ?_) (fun ha => ?_)
  · have hr := Int.tmod_nonneg b ha
    omega
  · have hr := Int.tmod_nonneg (a := -a) b (by omega)
    rw [Int.neg_tmod] at hr
    omega

theorem InRange.sign {a : Int} (h : InRange isSigned n a) : InRange isSigned n a.sign := by
  refine h.between (fun ha => ?_) (fun ha => ?_)
  · rcases ha.eq_or_lt with rfl | ha
    · simp
    · rw [Int.sign_eq_one_of_pos ha]
      omega
  · rw [Int.sign_eq_neg_one_of_neg ha]
    omega

theorem InRange.ediv {a : Int} (h : InRange isSigned n a) (s : Nat) : InRange isSigned n (a / 2 ^ s) := by
  have hs : (0 : Int) < 2 ^ s := Int.pow_pos (by decide)
  refine h.between (fun ha => ⟨Int.ediv_nonneg ha hs.le, Int.ediv_le_self _ ha⟩) (fun ha => ⟨?_, ?_⟩)
  · have hm : a * 2 ^ s ≤ a * 1 := mul_le_mul_of_nonpos_left hs ha.le
    exact (Int.le_ediv_iff_mul_le hs).2 (by omega)
  · exact (Int.ediv_neg_of_neg_of_pos ha hs).le

theorem quotient_least (hn : 0 < n) : Data.quotient (-2 ^ (n - 1)) (-1) ≡ -2 ^ (n - 1) [ZMOD 2 ^ n] := by
  obtain ⟨m, rfl⟩ : ∃ m, n = m + 1 := ⟨n - 1, by omega⟩
  rw [Data.quotient, if_neg (by decide), Int.tdiv_neg, Int.tdiv_one, Int.neg_neg, Nat.add_sub_cancel]
  exact Int.modEq_iff_dvd.2 ⟨-1, by rw [pow_succ]; omega⟩

theorem quotient_zero {a : Int} (h : InRange isSigned n a) :
    Data.quotient a 0 ≡ if isSigned then if a < 0 then 1 else -1 else 2 ^ n - 1 [ZMOD 2 ^ n] := by
  rw [Data.quotient, if_pos rfl]
  cases isSigned with
  | false =>
    have ha : ¬a < 0 := Int.not_lt.2 h.1
    rw [if_neg ha]
    exact Int.modEq_iff_dvd.2 ⟨1, by simp⟩
  | true => rfl

theorem inRange_quotient_zero (hn : 2 ≤ n) (a : Int) :
    InRange isSigned n (if isSigned then if a < 0 then 1 else -1 else 2 ^ n - 1) := by
  have hpos : (2 : Int) ^ 1 ≤ 2 ^ (n - 1) := pow_le_pow_right₀ (by decide) (by omega)
  have hn : (0 : Int) < 2 ^ n := Int.pow_pos (by decide)
  cases isSigned with
  | false => exact ⟨by simp; omega, by simp⟩
  | true =>
    simp only [InRange, if_true]
    split <;> omega

theorem InRange.ediv_of_le {a : Int} (h : InRange isSigned n a) {s : Nat} (hs : n ≤ s) :
    a / 2 ^ s = if a < 0 then -1 else 0 := by
  have hle : (2 : Int) ^ (n - 1) ≤ 2 ^ n := pow_le_pow_right₀ (by decide) (by omega)
  refine ediv_two_pow_of_small ?_ ?_ hs <;> cases isSigned <;> simp only [InRange] at h <;> omega

theorem readBits_of_nonneg {x : BitVec n} (h : 0 ≤ readBits isSigned x) : readBits isSigned x = x.toNat := by
  cases isSigned with
  | false => rfl
  | true =>
    have hx : ¬2 ^ n ≤ 2 * x.toNat := mt BitVec.toInt_neg_iff.2 (Int.not_lt.2 h)
    exact BitVec.toInt_eq_toNat_of_lt (by omega)

theorem size_le_of_negative (v : Width) {w : Width} {x : BitVec w.size} (h : readBits true x < 0) :
    v.size ≤ x.toNat := by
  have hx : 2 ^ w.size ≤ 2 * x.toNat := BitVec.toInt_neg_iff.1 h
  cases v <;> cases w <;> simp only [Width.size] at hx ⊢ <;> omega

end Words

namespace Operator

open Outcome

variable (model : FloatModel) (ρ : Assignment) (isSigned : Bool) {w : Width}

def integer (x : Term (.bits w)) : SymValue :=
  Index.operand ⟨isSigned, w, x⟩

def Shows (w : Width) (outcome : Except Fault SymValue) (n : Int) : Prop :=
  ∃ t : Term (.bits w), outcome = .ok (integer isSigned t) ∧ readBits isSigned (t.eval model ρ) = n

def Reduces (w : Width) (outcome : Except Fault SymValue) (n : Int) : Prop :=
  ∃ m, Shows model ρ isSigned w outcome m ∧ Words.InRange isSigned w.size m ∧ m ≡ n [ZMOD 2 ^ w.size]

def Spells (w : Width) (outcome : Except Fault SymValue) (bit : Nat → Bool) : Prop :=
  ∃ t : Term (.bits w), outcome = .ok (integer isSigned t) ∧ ∀ i < w.size, (t.eval model ρ).getLsbD i = bit i

def Tests (outcome : Except Fault SymValue) (p : Prop) : Prop :=
  ∃ t : Term .bool, outcome = .ok (.scalar .bool t) ∧ (t.eval model ρ = true ↔ p)

variable {model ρ isSigned}

theorem eval_integer_congr {t u : Term (.bits w)} (h : t.eval model ρ = u.eval model ρ) :
    (integer isSigned t).eval model ρ = (integer isSigned u).eval model ρ := by
  cases isSigned <;> simp [integer, h]

theorem reduces_of_eval {outcome : Except Fault SymValue} {t : Term (.bits w)} {n : Int}
    (ho : outcome = .ok (integer isSigned t)) (ht : t.eval model ρ = BitVec.ofInt w.size n) :
    Reduces model ρ isSigned w outcome n :=
  ⟨_, ⟨t, ho, rfl⟩, Words.inRange_readBits _, ht ▸ Words.readBits_ofInt_modEq isSigned n⟩

theorem shows_of_eval {outcome : Except Fault SymValue} {t : Term (.bits w)} {n : Int}
    (ho : outcome = .ok (integer isSigned t)) (ht : t.eval model ρ = BitVec.ofInt w.size n)
    (hn : Words.InRange isSigned w.size n) : Shows model ρ isSigned w outcome n :=
  ⟨t, ho, ht ▸ Words.readBits_ofInt_of_inRange w.size_pos hn⟩

variable (isSigned)

theorem arith_integer (op : Arithmetic) (x y : Term (.bits w)) :
    arith op (integer isSigned x) (integer isSigned y) = .ok (integer isSigned (.binary (.arith op w) x y)) := by
  cases isSigned
  · exact bind_eq_ok_iff.2 ⟨⟨.word w, x, y⟩, pair_eq_ok_iff.2 ⟨rfl, rfl, rfl⟩, rfl⟩
  · exact bind_eq_ok_iff.2 ⟨⟨.int w, x, y⟩, pair_eq_ok_iff.2 ⟨rfl, rfl, rfl⟩, rfl⟩

theorem integral_integer (name : String) (build : Bool → (w : Width) → CoreBinary (.bits w) (.bits w) (.bits w))
    (x y : Term (.bits w)) : integral name build (integer isSigned x) (integer isSigned y) =
      .ok (integer isSigned (.binary (build isSigned w) x y)) := by
  cases isSigned
  · exact bind_eq_ok_iff.2 ⟨⟨.word w, x, y⟩, pair_eq_ok_iff.2 ⟨rfl, rfl, rfl⟩, rfl⟩
  · exact bind_eq_ok_iff.2 ⟨⟨.int w, x, y⟩, pair_eq_ok_iff.2 ⟨rfl, rfl, rfl⟩, rfl⟩

theorem compare_integer (op : Comparison) (x y : Term (.bits w)) :
    compare op (integer isSigned x) (integer isSigned y) =
      .ok (.scalar .bool (if isSigned then compareSigned op x y else compareUnsigned op x y)) := by
  cases isSigned
  · exact bind_eq_ok_iff.2 ⟨⟨.word w, x, y⟩, pair_eq_ok_iff.2 ⟨rfl, rfl, rfl⟩, rfl⟩
  · exact bind_eq_ok_iff.2 ⟨⟨.int w, x, y⟩, pair_eq_ok_iff.2 ⟨rfl, rfl, rfl⟩, rfl⟩

theorem equal_integer (x y : Term (.bits w)) :
    equal (integer isSigned x) (integer isSigned y) = .ok (equalBits x y) := by
  cases isSigned <;> simp [integer, equal, Value.tag]

theorem shift_integer (left countSigned : Bool) {v : Width} (x : Term (.bits v)) (y : Term (.bits w)) :
    shift left (integer isSigned x) (integer countSigned y) = .ok (integer isSigned (shiftBits left isSigned x y)) := by
  cases isSigned <;> cases countSigned <;> rfl

theorem abs_integer (x : Term (.bits w)) : abs (integer isSigned x) = .ok (integer isSigned
    (.ite (if isSigned then compareSigned .lt x (literal 0) else compareUnsigned .lt x (literal 0))
      (negateBits x) x)) := by
  cases isSigned <;> rfl

theorem sign_integer (x : Term (.bits w)) : sign (integer isSigned x) = .ok (integer isSigned
    (signBits (if isSigned then compareSigned .lt x (literal 0) else compareUnsigned .lt x (literal 0)) x)) := by
  cases isSigned <;> rfl

theorem bitNot_integer (x : Term (.bits w)) :
    bitNot (integer isSigned x) = .ok (integer isSigned (.unary (.bitNot w) x)) := by
  cases isSigned <;> rfl

variable {isSigned}

theorem reduces_arith (op : Arithmetic) (x y : Term (.bits w)) :
    Reduces model ρ isSigned w (binary (.arith op) (integer isSigned x) (integer isSigned y))
      (op.onIntegers (readBits isSigned (x.eval model ρ)) (readBits isSigned (y.eval model ρ))) :=
  reduces_of_eval (arith_integer isSigned op x y) (Words.arithBits_eq isSigned op _ _)

theorem tests_compare (op : Comparison) (x y : Term (.bits w)) :
    Tests model ρ (binary (.compare op) (integer isSigned x) (integer isSigned y))
      (op.test (readBits isSigned (x.eval model ρ)) (readBits isSigned (y.eval model ρ)) = true) := by
  refine ⟨_, compare_integer isSigned op x y, ?_⟩
  cases isSigned
  · exact iff_of_eq (congrArg (· = true) (eval_compareUnsigned model ρ op x y))
  · exact iff_of_eq (congrArg (· = true) (eval_compareSigned model ρ op x y))

theorem shows_quotient {x y : Term (.bits w)} {n : Int}
    (h : Data.quotient (readBits isSigned (x.eval model ρ)) (readBits isSigned (y.eval model ρ)) ≡ n [ZMOD 2 ^ w.size])
    (hn : Words.InRange isSigned w.size n) :
    Shows model ρ isSigned w (binary .div (integer isSigned x) (integer isSigned y)) n :=
  shows_of_eval (integral_integer isSigned "div" .div x y)
    ((div_apply isSigned w _ _).trans (Words.ofInt_congr h)) hn

theorem shows_remainder (x y : Term (.bits w)) :
    Shows model ρ isSigned w (binary .mod (integer isSigned x) (integer isSigned y))
      ((readBits isSigned (x.eval model ρ)).tmod (readBits isSigned (y.eval model ρ))) :=
  shows_of_eval (integral_integer isSigned "mod" .rem x y) (rem_apply isSigned w _ _)
    ((Words.inRange_readBits _).tmod _)

theorem spells_bitwise (op : Bitwise) (x y : Term (.bits w)) :
    Spells model ρ isSigned w (binary (.bitwise op) (integer isSigned x) (integer isSigned y))
      fun i => (Data.bitwise op w (x.eval model ρ) (y.eval model ρ)).getLsbD i :=
  ⟨_, integral_integer isSigned _ (fun _ => .bitwise op) x y, fun i _ => by cases op <;> rfl⟩

structure Denotes (model : FloatModel) (ρ : Assignment) (isSigned : Bool) (x y : Term (.bits w)) (a b : Int) :
    Prop where
  add : Reduces model ρ isSigned w (binary (.arith .add) (integer isSigned x) (integer isSigned y)) (a + b)
  sub : Reduces model ρ isSigned w (binary (.arith .sub) (integer isSigned x) (integer isSigned y)) (a - b)
  mul : Reduces model ρ isSigned w (binary (.arith .mul) (integer isSigned x) (integer isSigned y)) (a * b)
  div : b ≠ 0 → Reduces model ρ isSigned w (binary .div (integer isSigned x) (integer isSigned y)) (a.tdiv b)
  mod : b ≠ 0 → Shows model ρ isSigned w (binary .mod (integer isSigned x) (integer isSigned y)) (a - b * a.tdiv b)
  -- the one quotient that does not fit
  div_least : isSigned = true → a = -2 ^ (w.size - 1) → b = -1 →
    Shows model ρ isSigned w (binary .div (integer isSigned x) (integer isSigned y)) a
  div_zero : b = 0 → Shows model ρ isSigned w (binary .div (integer isSigned x) (integer isSigned y))
    (if isSigned then if a < 0 then 1 else -1 else 2 ^ w.size - 1)
  mod_zero : b = 0 → Shows model ρ isSigned w (binary .mod (integer isSigned x) (integer isSigned y)) a
  eq : Tests model ρ (binary .eq (integer isSigned x) (integer isSigned y)) (a = b)
  ne : Tests model ρ (binary .ne (integer isSigned x) (integer isSigned y)) (a ≠ b)
  lt : Tests model ρ (binary (.compare .lt) (integer isSigned x) (integer isSigned y)) (a < b)
  le : Tests model ρ (binary (.compare .le) (integer isSigned x) (integer isSigned y)) (a ≤ b)
  gt : Tests model ρ (binary (.compare .gt) (integer isSigned x) (integer isSigned y)) (b < a)
  ge : Tests model ρ (binary (.compare .ge) (integer isSigned x) (integer isSigned y)) (b ≤ a)
  abs result position : Reduces model ρ isSigned w (unary .abs (integer isSigned x) result position) a.natAbs
  abs_word result position : isSigned = false →
    Shows model ρ isSigned w (unary .abs (integer isSigned x) result position) a
  sign result position : Shows model ρ isSigned w (unary .sign (integer isSigned x) result position) a.sign
  and : Spells model ρ isSigned w (binary (.bitwise .and) (integer isSigned x) (integer isSigned y))
    fun i => (x.eval model ρ).getLsbD i && (y.eval model ρ).getLsbD i
  or : Spells model ρ isSigned w (binary (.bitwise .or) (integer isSigned x) (integer isSigned y))
    fun i => (x.eval model ρ).getLsbD i || (y.eval model ρ).getLsbD i
  xor : Spells model ρ isSigned w (binary (.bitwise .xor) (integer isSigned x) (integer isSigned y))
    fun i => (x.eval model ρ).getLsbD i ^^ (y.eval model ρ).getLsbD i
  not result position : Spells model ρ isSigned w (unary .bitNot (integer isSigned x) result position)
    fun i => !(x.eval model ρ).getLsbD i

theorem integer_operators_exact (model : FloatModel) (ρ : Assignment) (isSigned : Bool) {w : Width}
    (x y : Term (.bits w)) : Denotes model ρ isSigned x y (readBits isSigned (x.eval model ρ))
      (readBits isSigned (y.eval model ρ)) where
  add := reduces_arith .add x y
  sub := reduces_arith .sub x y
  mul := reduces_arith .mul x y
  div hb := by
    have hq := integral_integer isSigned "div" .div x y
    refine reduces_of_eval hq ((div_apply isSigned w _ _).trans ?_)
    rw [Data.quotient, if_neg hb]
  mod _ := by
    rw [← Int.tmod_def]
    exact shows_remainder x y
  div_least hs ha hb := by
    subst hs
    rw [ha]
    refine shows_quotient ?_ (ha ▸ Words.inRange_readBits _)
    rw [ha, hb]
    exact Words.quotient_least w.size_pos
  div_zero hb := by
    have hw : 2 ≤ w.size := by cases w <;> decide
    refine shows_quotient ?_ (Words.inRange_quotient_zero hw _)
    rw [hb]
    exact Words.quotient_zero (Words.inRange_readBits _)
  mod_zero hb := by
    have h : Shows model ρ isSigned w _ _ := shows_remainder x y
    rwa [hb, Int.tmod_zero] at h
  eq := ⟨_, bind_eq_ok_iff.2 ⟨_, equal_integer isSigned x y, rfl⟩, by
    rw [eval_equalBits, beq_iff_eq, Words.readBits_inj]⟩
  ne := ⟨_, bind_eq_ok_iff.2 ⟨_, equal_integer isSigned x y, rfl⟩, by
    simp [Term.negate, Term.eval, CoreUnary.apply, eval_equalBits, Words.readBits_inj]⟩
  lt := by simpa [Comparison.test] using tests_compare .lt x y
  le := by simpa [Comparison.test] using tests_compare .le x y
  gt := by simpa [Comparison.test] using tests_compare .gt x y
  ge := by simpa [Comparison.test] using tests_compare .ge x y
  abs _ _ := reduces_of_eval (abs_integer isSigned x) (eval_absBits isSigned x)
  abs_word _ _ hs := by
    refine shows_of_eval (abs_integer isSigned x) ((eval_absBits isSigned x).trans ?_) (Words.inRange_readBits _)
    subst hs
    rfl
  sign _ _ := shows_of_eval (sign_integer isSigned x) (eval_signBits isSigned x) (Words.inRange_readBits _).sign
  and := by simpa [Data.bitwise] using spells_bitwise .and x y
  or := by simpa [Data.bitwise] using spells_bitwise .or x y
  xor := by simpa [Data.bitwise] using spells_bitwise .xor x y
  not _ _ := ⟨_, bitNot_integer isSigned x, fun i hi => by simp [Term.eval, CoreUnary.apply, hi]⟩

structure Shifts (model : FloatModel) (ρ : Assignment) (isSigned : Bool) (v : Width) (x y : SymValue) (a : Int)
    (s : Nat) : Prop where
  left : Reduces model ρ isSigned v (binary .shiftLeft x y) (a * 2 ^ s)
  left_out : v.size ≤ s → Shows model ρ isSigned v (binary .shiftLeft x y) 0
  right : Shows model ρ isSigned v (binary .shiftRight x y) (a / 2 ^ s)
  right_out : v.size ≤ s → Shows model ρ isSigned v (binary .shiftRight x y) (if a < 0 then -1 else 0)

theorem shifts_integer (isSigned countSigned : Bool) {v : Width} (x : Term (.bits v)) (y : Term (.bits w)) :
    Shifts model ρ isSigned v (integer isSigned x) (integer countSigned y) (readBits isSigned (x.eval model ρ))
      (y.eval model ρ).toNat where
  left := reduces_of_eval (shift_integer isSigned true countSigned x y) (eval_shiftBits model ρ true isSigned x y)
  left_out hs := by
    have hr : Words.InRange isSigned v.size _ := Words.inRange_readBits (x.eval model ρ)
    refine shows_of_eval (shift_integer isSigned true countSigned x y)
      ((eval_shiftBits model ρ true isSigned x y).trans (Words.ofInt_congr ?_)) hr.zero
    exact Int.modEq_zero_iff_dvd.2 ((pow_dvd_pow 2 hs).mul_left _)
  right := shows_of_eval (shift_integer isSigned false countSigned x y) (eval_shiftBits model ρ false isSigned x y)
    ((Words.inRange_readBits _).ediv _)
  right_out hs := by
    have hr : Words.InRange isSigned v.size _ := Words.inRange_readBits (x.eval model ρ)
    rw [← hr.ediv_of_le hs]
    exact shows_of_eval (shift_integer isSigned false countSigned x y) (eval_shiftBits model ρ false isSigned x y)
      (hr.ediv _)

theorem shift_amount_never_wraps (model : FloatModel) (ρ : Assignment) (isSigned countSigned : Bool) {v w : Width}
    (x : Term (.bits v)) (y : Term (.bits w)) :
    Shifts model ρ isSigned v (integer isSigned x) (integer countSigned y) (readBits isSigned (x.eval model ρ))
      (y.eval model ρ).toNat ∧
    -- the same amount in another type
    (∀ (otherSigned : Bool) (u : Width) (z : Term (.bits u)), 0 ≤ readBits countSigned (y.eval model ρ) →
      readBits otherSigned (z.eval model ρ) = readBits countSigned (y.eval model ρ) → ∀ op ∈ [.shiftLeft, .shiftRight],
      (binary op (integer isSigned x) (integer otherSigned z)).map (SymValue.eval model ρ) =
        (binary op (integer isSigned x) (integer countSigned y)).map (SymValue.eval model ρ)) ∧
    (countSigned = true → readBits countSigned (y.eval model ρ) < 0 →
      Shows model ρ isSigned v (binary .shiftLeft (integer isSigned x) (integer countSigned y)) 0 ∧
      Shows model ρ isSigned v (binary .shiftRight (integer isSigned x) (integer countSigned y))
        (if readBits isSigned (x.eval model ρ) < 0 then -1 else 0)) := by
  refine ⟨shifts_integer isSigned countSigned x y, fun otherSigned u z hy hz op hop => ?_, fun hs hy => ?_⟩
  · have hs : (z.eval model ρ).toNat = (y.eval model ρ).toNat := by
      have hyn := Words.readBits_of_nonneg hy
      have hzn := Words.readBits_of_nonneg (hz ▸ hy)
      omega
    have ht left : (integer isSigned (shiftBits left isSigned x z)).eval model ρ =
        (integer isSigned (shiftBits left isSigned x y)).eval model ρ :=
      eval_integer_congr (by rw [eval_shiftBits, eval_shiftBits, hs])
    simp only [List.mem_cons, List.not_mem_nil, or_false] at hop
    rcases hop with rfl | rfl <;> simp only [binary, shift_integer, Except.map, ht]
  · subst hs
    have hout := Words.size_le_of_negative v hy
    have h : Shifts model ρ isSigned v _ _ _ _ := shifts_integer isSigned true x y
    exact ⟨h.left_out hout, h.right_out hout⟩

end Operator

end OneStep
