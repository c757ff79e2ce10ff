import OneStep.Proofs.Constants
import OneStep.Proofs.Rounding

namespace OneStep

namespace Precision

theorem top_eq_significand (p : Precision) : p.top = (2 * (p.scale - p.digits) + 3) * p.block + 2 * p.block := by
  cases p <;> rfl

theorem quanta_top (p : Precision) : p.quanta p.top = 2 ^ (p.digits + (2 * (p.scale - p.digits) + 3)) := by
  rw [top_eq_significand, quanta_eq le_rfl (.inr (Nat.le_mul_of_pos_left _ Nat.two_pos)), two_mul_block, ← Nat.pow_add]

theorem top_single_le_top_double : single.value single.top ≤ double.value double.top := by
  have hq : single.quanta single.top * 2 ^ double.scale ≤ double.quanta double.top * 2 ^ single.scale := by
    rw [quanta_top, quanta_top, ← Nat.pow_add, ← Nat.pow_add]
    exact Nat.pow_le_pow_right Nat.two_pos (by decide)
  rw [value, value, div_le_div_iff₀ single.cast_scale_pos double.cast_scale_pos]
  exact_mod_cast hq

theorem exists_double_of_middle {k : Nat} (hk : k < single.top) :
    ∃ m ≤ double.top, double.value m = single.middle k := by
  obtain ⟨e, q, rfl, hq, he⟩ := single.exists_significand k
  obtain ⟨g, hg⟩ : ∃ g, (2 ^ double.scale : Nat) = 2 ^ g * (2 * 2 ^ single.scale) := by
    refine ⟨double.scale - (single.scale + 1), ?_⟩
    rw [← Nat.pow_succ', ← Nat.pow_add, Nat.sub_add_cancel (by decide)]
  have hb : 2 * q + 1 ≤ 2 * double.block := by
    have : 2 * (2 * single.block) ≤ 2 * double.block := by decide
    omega
  obtain ⟨m, hm⟩ := double.exists_quanta_eq hb (e + g)
  have hv : double.value m = single.middle (e * single.block + q) := by
    have hn : (2 * q + 1) * 2 ^ (e + g) = 2 ^ g * (q * 2 ^ e + (q + 1) * 2 ^ e) := by
      rw [Nat.pow_add]
      ring
    have h2 : ((2 ^ g : Nat) : ℚ) ≠ 0 := by exact_mod_cast (Nat.two_pow_pos g).ne'
    rw [middle_eq_quotient, quanta_eq hq.le he, quanta_succ hq he, value, quotient, hm, hg, hn, div_div,
      Nat.cast_mul, Nat.cast_mul (2 ^ g), mul_div_mul_left _ _ h2, Nat.cast_mul 2]
  refine ⟨m, ?_, hv⟩
  have hlt := (single.middle_lt_value (e * single.block + q)).trans_le
    ((single.value_strictMono.monotone hk).trans top_single_le_top_double)
  rw [← hv] at hlt
  exact (double.value_strictMono.lt_iff_lt.1 hlt).le

theorem exists_double_of_nat {n : Nat} (hn : n ≤ 2 ^ 53) : ∃ m ≤ double.top, double.value m = n := by
  obtain ⟨m, hm⟩ := double.exists_quanta_eq (q := n) hn double.scale
  have ht : 2 ^ 53 * 2 ^ double.scale ≤ double.quanta double.top := by
    rw [quanta_top, ← Nat.pow_add]
    exact Nat.pow_le_pow_right Nat.two_pos (by decide)
  have hle : double.quanta m ≤ double.quanta double.top := by
    rw [hm]
    exact (Nat.mul_le_mul_right _ hn).trans ht
  refine ⟨m, double.quanta_strictMono.le_iff_le.1 hle, ?_⟩
  rw [value, hm, Nat.cast_mul, mul_div_cancel_right₀ _ double.cast_scale_pos.ne']

variable {x : ℚ} {m r k : Nat}

theorem middle_le_double (hm : double.Rounds x m) (hk : k < single.top) (hx : single.middle k ≤ x) :
    single.middle k ≤ double.value m := by
  obtain ⟨j, hj, he⟩ := exists_double_of_middle hk
  rw [← he] at hx ⊢
  exact double.value_strictMono.monotone ((rounds_value hj).le hm hx)

theorem double_le_middle (hm : double.Rounds x m) (hk : k < single.top) (hx : x ≤ single.middle k) :
    double.value m ≤ single.middle k := by
  obtain ⟨j, hj, he⟩ := exists_double_of_middle hk
  rw [← he] at hx ⊢
  exact double.value_strictMono.monotone (hm.le (rounds_value hj) hx)

theorem rounds_middle (hk : k < single.top) : single.Rounds (single.middle k) (k + k % 2) := by
  rcases Nat.mod_two_eq_zero_or_one k with he | ho
  · rw [he]
    exact ⟨hk.le, fun j hj => .inl (single.middle_strictMono (by omega)), fun _ => .inr ⟨rfl, he⟩⟩
  · rw [ho]
    refine ⟨hk, fun j hj => .inr ⟨by rw [Nat.succ_injective hj], by omega⟩, fun _ => ?_⟩
    exact .inl (single.middle_strictMono (Nat.lt_succ_self k))

theorem middle_last : single.middle (single.top - 1) = ((2 ^ 128 - 2 ^ 103 : Int) : ℚ) := by
  have hq : single.quanta (single.top - 1) + single.quanta (single.top - 1 + 1) =
      2 * (2 ^ 128 - 2 ^ 103) * 2 ^ single.scale := by
    have hlt : 2 * single.block - 1 < 2 * single.block := by decide
    have hge : single.block ≤ 2 * single.block - 1 := by decide
    have hsum : 2 * (2 ^ 128 - 2 ^ 103) = (2 * single.block - 1 + (2 * single.block - 1 + 1)) * 2 ^ 104 := by decide
    rw [show single.top - 1 = 253 * single.block + (2 * single.block - 1) from rfl, quanta_eq hlt.le (.inr hge),
      quanta_succ hlt (.inr hge), hsum, ← Nat.add_mul, Nat.mul_assoc, ← Nat.pow_add, scale]
  rw [middle_eq_quotient, hq, quotient, Nat.cast_mul, div_right_comm, mul_div_cancel_right₀ _ single.cast_scale_pos.ne']
  norm_num

theorem eq_top_iff_of_rounds (h : single.Rounds x r) :
    r = single.top ↔ single.middle (single.top - 1) ≤ x := by
  have hlast : single.top - 1 < single.top := by decide
  constructor
  · rintro rfl
    exact h.middle_le
  · exact fun hx => Nat.le_antisymm h.le_top ((rounds_middle hlast).le h hx)

end Precision

open Precision

section

variable {x : ℚ} {m r r' : Nat}

-- the nearest double lies halfway between two singles, and the number itself on the side of the odd one
def Displaced (x : ℚ) : Prop :=
  ∃ m k, double.IsNearest x m ∧ k < single.top ∧ double.value m = single.middle k ∧
    (k % 2 = 0 → single.middle k < x) ∧ (k % 2 = 1 → x < single.middle k)

theorem not_displaced_value (hm : m ≤ double.top) : ¬ Displaced (double.value m) := by
  rintro ⟨j, k, hj, _, hk, he, ho⟩
  rw [(rounds_value hm).unique hj.rounds, hk] at he ho
  rcases Nat.mod_two_eq_zero_or_one k with h | h
  · exact lt_irrefl _ (he h)
  · exact lt_irrefl _ (ho h)

theorem displaced_of_ne (hm : double.Rounds x m) (hr : single.Rounds x r) (hr' : single.Rounds (double.value m) r')
    (hne : r ≠ r') : Displaced x := by
  rcases Nat.lt_or_gt_of_ne hne with hlt | hgt
  · -- the second rounding went up
    obtain ⟨j, rfl⟩ := Nat.exists_eq_succ_of_ne_zero (Nat.ne_zero_of_lt hlt)
    have hj := hr'.le_top
    have hrt : r < single.top := Nat.lt_of_lt_of_le hlt hj
    have hle := double_le_middle hm hrt (hr.le_middle hrt)
    have hrj : r = j := Nat.le_antisymm (Nat.le_of_lt_succ hlt)
      (single.middle_strictMono.le_iff_le.1 (hr'.middle_le.trans hle))
    subst hrj
    have he := le_antisymm hle hr'.middle_le
    have hodd : r % 2 = 1 := by
      rcases hr'.above r rfl with h | ⟨_, h⟩
      · exact absurd he h.ne'
      · omega
    refine ⟨m, r, hm.isNearest, hrt, he, by omega, fun _ => (hr.below hrt).resolve_right ?_⟩
    rintro ⟨_, h⟩
    omega
  · -- the second rounding went down
    obtain ⟨j, rfl⟩ := Nat.exists_eq_succ_of_ne_zero (Nat.ne_zero_of_lt hgt)
    have hj : j < single.top := hr.le_top
    have hrt : r' < single.top := Nat.lt_of_lt_of_le hgt hr.le_top
    have hle := middle_le_double hm hj hr.middle_le
    have hrj : r' = j := Nat.le_antisymm (Nat.le_of_lt_succ hgt)
      (single.middle_strictMono.le_iff_le.1 (hle.trans (hr'.le_middle hrt)))
    subst hrj
    have he := le_antisymm (hr'.le_middle hrt) hle
    have heven : r' % 2 = 0 := by
      rcases hr'.below hrt with h | ⟨_, h⟩
      · exact absurd he h.ne
      · exact h
    refine ⟨m, r', hm.isNearest, hrt, he, fun _ => (hr.above r' rfl).resolve_right ?_, by omega⟩
    rintro ⟨_, h⟩
    omega

theorem Displaced.ne (h : Displaced x) (hm : double.Rounds x m) (hr : single.Rounds x r)
    (hr' : single.Rounds (double.value m) r') : r ≠ r' := by
  obtain ⟨j, k, hj, hk, he, heven, hodd⟩ := h
  rw [← hm.unique hj.rounds] at he
  rw [hr'.unique (he ▸ rounds_middle hk)]
  rintro rfl
  rcases Nat.mod_two_eq_zero_or_one k with h | h
  · rw [h] at hr
    exact absurd (hr.le_middle hk) (not_le.2 (heven h))
  · rw [h] at hr
    exact absurd hr.middle_le (not_le.2 (hodd h))

end

theorem Binary.convert_eq (negative : Bool) {m : Nat} (hm : m ≤ double.top) : ∃ r, ∃ hr : r ≤ single.top,
    (Binary.number negative m hm).convert = Binary.number negative r hr ∧ single.Rounds (double.value m) r := by
  by_cases h : m = double.top
  · subst h
    refine ⟨single.top, le_rfl, by rw [convert, if_pos rfl, infinity], le_rfl, fun k hk => .inl ?_,
      fun h => absurd h (Nat.lt_irrefl _)⟩
    exact (single.middle_lt_value k).trans_le (hk ▸ top_single_le_top_double)
  · have hv : double.value m = single.quotient (double.quanta m * 2 ^ single.scale) (2 ^ double.scale) := by
      rw [value, quotient, Nat.cast_mul, div_right_comm, mul_div_cancel_right₀ _ single.cast_scale_pos.ne']
    exact ⟨_, nearest_le_top .., by rw [convert, if_neg h, ofQuotient, Nat.pow_eq, Nat.pow_eq],
      hv ▸ single.rounds_nearest _ (Nat.two_pow_pos _)⟩

theorem Binary.convert_ofInt (n : Int) : ∃ m r, ∃ hr : r ≤ single.top,
    (Binary.ofInt n : Binary .double).convert = Binary.number (decide ((n : ℚ) < 0)) r hr ∧
      double.Rounds |(n : ℚ)| m ∧ single.Rounds (double.value m) r := by
  have hd : (Binary.ofInt n : Binary .double).IsNearest n := isNearest_ofInt n
  cases hx : (Binary.ofInt n : Binary .double) with
  | nan => exact (hx ▸ hd).elim
  | number negative m hm =>
    rw [hx] at hd
    obtain ⟨rfl, hd⟩ := hd
    obtain ⟨r, hr, he, hs⟩ := convert_eq (decide ((n : ℚ) < 0)) hm
    exact ⟨m, r, hr, he, hd.rounds, hs⟩

theorem Binary.isNearest_convert_iff (n : Int) :
    ((Binary.ofInt n : Binary .double).convert : Binary .single).IsNearest n ↔ ¬ Displaced |(n : ℚ)| := by
  obtain ⟨m, r, hr, he, hm, hs⟩ := convert_ofInt n
  rw [he]
  constructor
  · rintro ⟨_, hnear⟩ hd
    exact hd.ne hm hnear.rounds hs rfl
  · intro hd
    have hone : (Binary.ofInt n : Binary .single).IsNearest n := isNearest_ofInt n
    cases hx : (Binary.ofInt n : Binary .single) with
    | nan => exact (hx ▸ hone).elim
    | number negative r₁ hr₁ =>
      rw [hx] at hone
      have : r₁ = r := by
        by_contra hne
        exact hd (displaced_of_ne hm hone.2.rounds hs hne)
      subst this
      exact ⟨rfl, hone.2⟩

theorem Binary.convert_infinity {n : Int} (h : 2 ^ 128 - 2 ^ 103 ≤ |n|) :
    ((Binary.ofInt n : Binary .double).convert : Binary .single) = .infinity (n < 0) := by
  obtain ⟨m, r, hr, he, hm, hs⟩ := convert_ofInt n
  have hx : single.middle (single.top - 1) ≤ |(n : ℚ)| := by
    rw [middle_last]
    exact_mod_cast h
  have htop : r = single.top := (eq_top_iff_of_rounds hs).2 (middle_le_double hm (by decide) hx)
  subst htop
  rw [he, infinity]
  simp

namespace Constant

theorem not_displaced_of_small {n : Int} (h : |n| ≤ 2 ^ 53) : ¬ Displaced |(n : ℚ)| := by
  rw [Int.abs_eq_natAbs] at h
  obtain ⟨m, hm, he⟩ := exists_double_of_nat (n := n.natAbs) (by exact_mod_cast h)
  rw [Nat.cast_natAbs, Int.cast_abs] at he
  exact he ▸ not_displaced_value hm

theorem encode_float_int (n : Int) : encode (.float 32) (.int n) =
    .ok (.scalar (.float .single) (.float (Binary.ofInt n : Binary .double).convert)) :=
  encodeFloat_eq_ok_iff.2 (.inl ⟨rfl, rfl⟩)

theorem float_literal_nearest_iff (n : Int) : ∃ x : Binary .single,
    encode (.float 32) (.int n) = .ok (.scalar (.float .single) (.float x)) ∧
    (x.IsNearest n ↔ ¬ Displaced |(n : ℚ)|) ∧ (|n| ≤ 2 ^ 53 → x.IsNearest n) ∧
    (2 ^ 128 - 2 ^ 103 ≤ |n| → x = .infinity (n < 0)) ∧
    (-2 ^ 63 ≤ n → n < 2 ^ 63 → ∃ (word : SymValue) (y : Term (.float .single)),
      encode (.int 64) (.int n) = .ok word ∧ Operator.cast word (.float 32) = .ok (.scalar (.float .single) y) ∧
      ∀ ρ, Binary.IsNearest n (y.eval .ieee ρ : Binary .single) ∧
        ((y.eval .ieee ρ : Binary .single) = x ↔ ¬ Displaced |(n : ℚ)|)) := by
  have hx := Binary.isNearest_convert_iff n
  refine ⟨(Binary.ofInt n : Binary .double).convert, encode_float_int n, hx, fun h => hx.2 (not_displaced_of_small h),
    Binary.convert_infinity, fun hl hu => ?_⟩
  have hn : Words.InRange true Width.w64.size n := ⟨hl, hu⟩
  have hcast : (Binary.ofInt (readBits true (BitVec.ofInt Width.w64.size n)) : Binary .single).IsNearest n := by
    rw [Words.readBits_ofInt_of_inRange Width.w64.size_pos hn]
    exact Binary.isNearest_ofInt n
  refine ⟨.scalar (.int .w64) (.bits (BitVec.ofInt _ n)),
    .floatUnary (.ofBits true .w64 .single) (.bits (BitVec.ofInt _ n)),
    encodeInt_eq_ok_iff.2 ⟨.w64, rfl, inInt_iff.2 hn, rfl⟩, rfl, fun ρ => ⟨hcast, ?_⟩⟩
  rw [← hx]
  exact ⟨fun he => he ▸ hcast, fun h => hcast.unique h⟩

theorem tie_literal_nearest : ∃ x : Binary .single,
    encode (.float 32) (.int 16777217) = .ok (.scalar (.float .single) (.float x)) ∧
      x.IsNearest (16777217 : Int) := by
  obtain ⟨x, hx, _, hn, _⟩ := float_literal_nearest_iff 16777217
  exact ⟨x, hx, hn (by decide)⟩

-- the double in between is `2 ^ 54 + 2 ^ 30`, and the even single is the one below
theorem literal_rounded_twice : ∃ x y : Binary .single,
    encode (.float 32) (.int 18014399583223809) = .ok (.scalar (.float .single) (.float x)) ∧
      y.IsNearest (18014399583223809 : Int) ∧ ¬ x.IsNearest (18014399583223809 : Int) ∧
      x.toBits = 0x5a800000 ∧ y.toBits = 0x5a800001 := by
  have hy := Binary.isNearest_ofInt (p := .single) 18014399583223809
  have hbits : ((Binary.ofInt 18014399583223809 : Binary .double).convert : Binary .single).toBits = 0x5a800000 ∧
      (Binary.ofInt 18014399583223809 : Binary .single).toBits = 0x5a800001 := by decide +kernel
  exact ⟨_, _, encode_float_int _, hy, hy.not_isNearest (by rw [hbits.1, hbits.2]; decide), hbits⟩

end Constant

end OneStep
