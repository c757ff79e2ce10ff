import OneStep.Proofs.DoubleRounding

namespace OneStep

namespace Precision

variable {p : Precision} {r : Nat}

def bias : Precision → Nat
  | .single => 127
  | .double => 1023

def signField (p : Precision) (bits : Nat) : Bool :=
  bits / 2 ^ (p.size - 1) % 2 = 1

def exponentField (p : Precision) (bits : Nat) : Nat :=
  bits / p.block % 2 ^ (p.size - p.digits)

def fractionField (p : Precision) (bits : Nat) : Nat :=
  bits % p.block

def magnitude (p : Precision) (bits : Nat) : ℚ :=
  if p.exponentField bits = 0 then 2 ^ (1 - p.bias : ℤ) * (p.fractionField bits / p.block)
  else 2 ^ (p.exponentField bits - p.bias : ℤ) * (1 + p.fractionField bits / p.block)

def rational? (p : Precision) (bits : Nat) : Option ℚ :=
  if p.exponentField bits = 2 ^ (p.size - p.digits) - 1 then none
  else some (if p.signField bits then -p.magnitude bits else p.magnitude bits)

def pattern (p : Precision) (negative : Bool) (r : Nat) : Nat :=
  (if negative then 2 ^ (p.size - 1) else 0) + r

def signedValue (p : Precision) (negative : Bool) (r : Nat) : ℚ :=
  if negative then -p.value r else p.value r

theorem half_eq (p : Precision) : 2 ^ (p.size - 1) = p.block * 2 ^ (p.size - p.digits) := by
  have he : p.size - 1 = p.digits - 1 + (p.size - p.digits) := by cases p <;> rfl
  rw [he, Nat.pow_add, block, Nat.pow_eq]

theorem scale_eq (p : Precision) : 2 ^ p.scale = 2 ^ (p.bias - 1) * p.block := by
  have he : p.scale = p.bias - 1 + (p.digits - 1) := by cases p <;> rfl
  rw [he, Nat.pow_add, block, Nat.pow_eq]

theorem top_eq_exponent (p : Precision) : p.top = (2 ^ (p.size - p.digits) - 1) * p.block := by
  cases p <;> rfl

theorem top_lt_half (p : Precision) : p.top < 2 ^ (p.size - 1) := by
  rw [top_eq_exponent, half_eq, Nat.mul_comm]
  exact Nat.mul_lt_mul_of_pos_left (Nat.sub_lt (Nat.two_pow_pos _) Nat.one_pos) p.block_pos

theorem div_block_lt (hr : r < 2 ^ (p.size - 1)) : r / p.block < 2 ^ (p.size - p.digits) := by
  rwa [Nat.div_lt_iff_lt_mul p.block_pos, Nat.mul_comm, ← half_eq]

theorem fields_pattern (negative : Bool) (hr : r < 2 ^ (p.size - 1)) :
    p.signField (p.pattern negative r) = negative ∧ p.exponentField (p.pattern negative r) = r / p.block ∧
      p.fractionField (p.pattern negative r) = r % p.block := by
  have he := div_block_lt hr
  cases negative with
  | false => simp [pattern, signField, exponentField, fractionField, Nat.div_eq_of_lt hr, Nat.mod_eq_of_lt he]
  | true =>
    have hs : (2 ^ (p.size - 1) + r) / 2 ^ (p.size - 1) = 1 := by
      rw [Nat.add_div_left _ (Nat.two_pow_pos _), Nat.div_eq_of_lt hr]
    refine ⟨by simp [pattern, signField, hs], ?_, ?_⟩
    · rw [pattern, if_pos rfl, exponentField, half_eq, Nat.mul_add_div p.block_pos, Nat.add_mod_left,
        Nat.mod_eq_of_lt he]
    · rw [pattern, if_pos rfl, fractionField, half_eq, Nat.mul_add_mod]

theorem two_zpow (p : Precision) {e : Nat} (he : 0 < e) :
    (2 : ℚ) ^ (e - p.bias : ℤ) = (2 ^ (e - 1) : Nat) / (2 ^ (p.bias - 1) : Nat) := by
  have hb : 0 < p.bias := by cases p <;> decide
  obtain ⟨e, rfl⟩ := Nat.exists_eq_succ_of_ne_zero he.ne'
  obtain ⟨b, hb⟩ := Nat.exists_eq_succ_of_ne_zero hb.ne'
  have hs : ((e.succ : Nat) : ℤ) - (b.succ : Nat) = e - b := by
    push_cast
    ring
  rw [hb, hs, zpow_sub₀ two_ne_zero, zpow_natCast, zpow_natCast]
  simp

theorem magnitude_eq {bits : Nat} (he : p.exponentField bits = r / p.block) (hf : p.fractionField bits = r % p.block) :
    p.magnitude bits = p.value r := by
  have hb : (p.block : ℚ) ≠ 0 := by exact_mod_cast p.block_pos.ne'
  have h2 : ((2 ^ (p.bias - 1) : Nat) : ℚ) ≠ 0 := by exact_mod_cast (Nat.two_pow_pos _).ne'
  rw [magnitude, he, hf, value, scale_eq, Nat.cast_mul]
  by_cases hr : r < p.block
  · have hz := p.two_zpow Nat.one_pos
    rw [Nat.cast_one, Nat.sub_self, Nat.pow_zero, Nat.cast_one] at hz
    rw [if_pos (Nat.div_eq_of_lt hr), Nat.mod_eq_of_lt hr, hz, quanta, if_pos hr]
    field_simp
  · have hpos : 0 < r / p.block := Nat.div_pos (Nat.le_of_not_lt hr) p.block_pos
    rw [if_neg hpos.ne', two_zpow p hpos, quanta, if_neg hr, Nat.pow_eq, Nat.cast_mul, Nat.cast_add]
    field_simp

theorem rational?_pattern (negative : Bool) (hr : r < 2 ^ (p.size - 1)) :
    p.rational? (p.pattern negative r) = if r < p.top then some (p.signedValue negative r) else none := by
  obtain ⟨hs, he, hf⟩ := fields_pattern negative hr
  have hlt := div_block_lt hr
  have htop : r < p.top ↔ r / p.block ≠ 2 ^ (p.size - p.digits) - 1 := by
    rw [top_eq_exponent, ← Nat.div_lt_iff_lt_mul p.block_pos]
    omega
  rw [rational?, he, hs, magnitude_eq he hf, signedValue]
  simp only [htop, ite_not]

theorem exists_pattern {bits : Nat} (h : bits < 2 ^ p.size) :
    ∃ negative r, r < 2 ^ (p.size - 1) ∧ bits = p.pattern negative r := by
  have hpos : 0 < p.size := by cases p <;> decide
  have hsize := Nat.two_pow_pred_add_two_pow_pred hpos
  rcases Nat.lt_or_ge bits (2 ^ (p.size - 1)) with hlt | hge
  · exact ⟨false, bits, hlt, by simp [pattern]⟩
  · exact ⟨true, bits - 2 ^ (p.size - 1), by omega, by simp only [pattern, if_true]; omega⟩

theorem exists_rank {bits : Nat} {v : ℚ} (h : bits < 2 ^ p.size) (hv : p.rational? bits = some v) :
    ∃ negative, ∃ r < p.top, bits = p.pattern negative r ∧ v = p.signedValue negative r := by
  obtain ⟨negative, r, hr, rfl⟩ := exists_pattern h
  rw [rational?_pattern negative hr] at hv
  split at hv
  · next ht =>
    cases hv
    exact ⟨negative, r, ht, rfl, rfl⟩
  · cases hv

theorem value_zero (p : Precision) : p.value 0 = 0 := by
  rw [value, quanta, if_pos p.block_pos, Nat.cast_zero, zero_div]

theorem value_nonneg (p : Precision) (r : Nat) : 0 ≤ p.value r :=
  p.value_zero ▸ p.value_strictMono.monotone (Nat.zero_le r)

theorem abs_signedValue (p : Precision) (negative : Bool) (r : Nat) : |p.signedValue negative r| = p.value r := by
  cases negative with
  | false => exact abs_of_nonneg (p.value_nonneg r)
  | true => exact (abs_neg _).trans (abs_of_nonneg (p.value_nonneg r))

theorem signedValue_le_iff {s t : Bool} {r' : Nat} :
    p.signedValue s r ≤ p.signedValue t r' ↔ Binary.signed s r ≤ Binary.signed t r' := by
  have h := p.value_nonneg r
  have h' := p.value_nonneg r'
  have hzero : ∀ {k}, p.value k ≤ 0 ↔ k = 0 := fun {k} => by
    rw [← p.value_zero, p.value_strictMono.le_iff_le, Nat.le_zero]
  cases s with
  | false =>
    cases t with
    | false => simp [signedValue, Binary.signed, p.value_strictMono.le_iff_le]
    | true =>
      simp only [signedValue, Binary.signed, if_true, Bool.false_eq_true, if_false]
      constructor
      · intro hle
        have hr := hzero.1 (by linarith : p.value r ≤ 0)
        have hr' := hzero.1 (by linarith : p.value r' ≤ 0)
        omega
      · intro hle
        obtain ⟨rfl, rfl⟩ : r = 0 ∧ r' = 0 := by omega
        simp [value_zero]
  | true =>
    cases t with
    | false =>
      simp only [signedValue, Binary.signed, if_true, Bool.false_eq_true, if_false]
      exact iff_of_true (by linarith) (by omega)
    | true => simp [signedValue, Binary.signed, p.value_strictMono.le_iff_le]

end Precision

namespace Binary

open Precision

variable {p : Precision}

def rational? (x : Binary p) : Option ℚ :=
  p.rational? x.toBits

def isNegative (x : Binary p) : Bool :=
  p.signField x.toBits

def IsEven (x : Binary p) : Prop :=
  p.fractionField x.toBits % 2 = 0

def IsClosest (v : ℚ) (x : Binary p) : Prop :=
  ∃ w, x.rational? = some w ∧ ∀ bits < 2 ^ p.size, ∀ u, p.rational? bits = some u →
    |w - v| < |u - v| ∨ |w - v| = |u - v| ∧ (u = w ∨ x.IsEven)

inductive AtMost : Binary p → Binary p → Prop
  | finite {x y : Binary p} {v w : ℚ} (left : x.rational? = some v) (right : y.rational? = some w) (le : v ≤ w) :
      AtMost x y
  | least {y : Binary p} (right : y ≠ .nan) : AtMost (.infinity true) y
  | greatest {x : Binary p} (left : x ≠ .nan) : AtMost x (.infinity false)

section

variable {s t : Bool} {r r' : Nat} {hr : r ≤ p.top} {hr' : r' ≤ p.top}

theorem isNegative_number : isNegative (.number s r hr) = s :=
  (fields_pattern s (hr.trans_lt p.top_lt_half)).1

theorem isEven_number : IsEven (.number s r hr) ↔ r % 2 = 0 := by
  have hf : p.fractionField (number s r hr).toBits = r % p.block :=
    (fields_pattern s (hr.trans_lt p.top_lt_half)).2.2
  rw [IsEven, hf, Nat.mod_mod_of_dvd _ (Nat.dvd_of_mod_eq_zero p.block_mod_two)]

theorem rational?_number : rational? (.number s r hr) = if r < p.top then some (p.signedValue s r) else none :=
  rational?_pattern s (hr.trans_lt p.top_lt_half)

theorem rational?_nan : rational? (.nan : Binary p) = none :=
  if_pos (by cases p <;> rfl)

theorem eq_number_of_rational? {x : Binary p} {v : ℚ} (h : x.rational? = some v) :
    ∃ s r, ∃ hr : r < p.top, x = .number s r hr.le ∧ v = p.signedValue s r := by
  cases x with
  | nan =>
    rw [rational?_nan] at h
    cases h
  | number s r hr =>
    rw [rational?_number] at h
    split at h
    · next ht =>
      cases h
      exact ⟨s, r, ht, rfl, rfl⟩
    · cases h

theorem signed_bounds (negative : Bool) {r n : Nat} (h : r ≤ n) :
    signed true n ≤ signed negative r ∧ signed negative r ≤ signed false n := by
  cases negative <;> simp only [signed, if_true, Bool.false_eq_true, if_false] <;> omega

theorem AtMost.ne_nan {x y : Binary p} (h : AtMost x y) : x ≠ .nan ∧ y ≠ .nan := by
  cases h with
  | finite left right _ =>
    obtain ⟨_, _, _, rfl, _⟩ := eq_number_of_rational? left
    obtain ⟨_, _, _, rfl, _⟩ := eq_number_of_rational? right
    exact ⟨by simp, by simp⟩
  | least right => exact ⟨by simp [infinity], right⟩
  | greatest left => exact ⟨left, by simp [infinity]⟩

theorem atMost_number : AtMost (.number s r hr) (.number t r' hr') ↔ signed s r ≤ signed t r' := by
  constructor
  · intro h
    cases h with
    | finite left right le =>
      obtain ⟨_, _, _, ⟨⟩, rfl⟩ := eq_number_of_rational? left
      obtain ⟨_, _, _, ⟨⟩, rfl⟩ := eq_number_of_rational? right
      exact signedValue_le_iff.1 le
    | least _ => exact (signed_bounds t hr').1
    | greatest _ => exact (signed_bounds s hr).2
  · intro h
    by_cases hl : s = true ∧ r = p.top
    · obtain ⟨rfl, rfl⟩ := hl
      exact .least (by simp)
    by_cases hg : t = false ∧ r' = p.top
    · obtain ⟨rfl, rfl⟩ := hg
      exact .greatest (by simp)
    have hfinite : r < p.top ∧ r' < p.top := by
      have htop : 0 < p.top := by cases p <;> decide
      cases s <;> cases t <;> simp [signed] at h hl hg <;> omega
    exact .finite (rational?_number.trans (if_pos hfinite.1)) (rational?_number.trans (if_pos hfinite.2))
      (signedValue_le_iff.2 h)

end

section

variable {m r : Nat}

theorem eq_zero_of_rounds (h : single.Rounds (double.value m) r) (hm : m = 0) : r = 0 := by
  subst hm
  rw [double.value_zero, ← single.value_zero] at h
  exact h.unique (rounds_value (Nat.zero_le _))

theorem middle_last_eq : single.middle (single.top - 1) = 2 ^ 128 - 2 ^ 103 := by
  rw [middle_last]
  norm_num

theorem signed_le_signed {s t : Bool} {n r' : Nat} (h : signed s m ≤ signed t n) (hle : m ≤ n → r ≤ r')
    (hge : n ≤ m → r' ≤ r) (hm : m = 0 → r = 0) (hn : n = 0 → r' = 0) : signed s r ≤ signed t r' := by
  cases s <;> cases t <;> simp only [signed, if_true, Bool.false_eq_true, if_false] at h ⊢ <;> omega

theorem AtMost.convert {x y : Binary .double} (h : AtMost x y) : AtMost (x.convert : Binary .single) y.convert := by
  cases x with
  | nan => exact absurd rfl h.ne_nan.1
  | number s m hm =>
    cases y with
    | nan => exact absurd rfl h.ne_nan.2
    | number t n hn =>
      obtain ⟨r, hr, hx, hmr⟩ := convert_eq s hm
      obtain ⟨r', hr', hy, hnr⟩ := convert_eq t hn
      rw [hx, hy, atMost_number]
      exact signed_le_signed (atMost_number.1 h) (fun hle => hmr.le hnr (double.value_strictMono.monotone hle))
        (fun hge => hnr.le hmr (double.value_strictMono.monotone hge)) (eq_zero_of_rounds hmr) (eq_zero_of_rounds hnr)

theorem closer_than_zero {x : ℚ} (hx : 0 ≤ x) (h : p.IsNearest x r) :
    |p.value r - x| < x ∨ |p.value r - x| = x ∧ r % 2 = 0 := by
  have h0 : |p.value 0 - x| = x := by rw [value_zero, zero_sub, abs_neg, abs_of_nonneg hx]
  by_cases hr : r = 0
  · exact .inr ⟨by rw [hr, h0], by rw [hr]⟩
  · have hc := h.closest 0 (Nat.zero_le _) (Ne.symm hr)
    rwa [h0] at hc

theorem isClosest_number (s : Bool) (hr : r < single.top) (h : single.Rounds (double.value m) r) :
    IsClosest (double.signedValue s m) (.number s r hr.le) := by
  refine ⟨single.signedValue s r, rational?_number.trans (if_pos hr), fun bits hbits u hu => ?_⟩
  obtain ⟨t, k, hk, -, rfl⟩ := exists_rank hbits hu
  have hsame : ∀ k, |single.signedValue s k - double.signedValue s m| = |single.value k - double.value m| := by
    intro k
    cases s with
    | false => rfl
    | true => exact (congrArg _ (neg_sub_neg ..)).trans (abs_sub_comm ..)
  rw [isEven_number, hsame]
  by_cases hst : t = s
  · subst hst
    rw [hsame]
    by_cases hkr : k = r
    · exact .inr ⟨by rw [hkr], .inl (by rw [hkr])⟩
    · exact (h.isNearest.closest k hk.le hkr).imp_right fun he => ⟨he.1, .inr he.2⟩
  · -- zero is at least as near as a number of the other sign
    have hx := double.value_nonneg m
    have hk0 := single.value_nonneg k
    have hother : |single.signedValue t k - double.signedValue s m| = single.value k + double.value m := by
      rw [← abs_of_nonneg (add_nonneg hk0 hx)]
      cases s with
      | false =>
        obtain rfl : t = true := by simpa using hst
        exact (congrArg _ (neg_add' ..).symm).trans (abs_neg _)
      | true =>
        obtain rfl : t = false := by simpa using hst
        exact congrArg _ (sub_neg_eq_add ..)
    rw [hother]
    rcases closer_than_zero hx h.isNearest with hlt | ⟨heq, heven⟩
    · exact .inl (by linarith)
    · exact (lt_or_eq_of_le (by linarith)).imp_right fun he => ⟨he, .inr heven⟩

end

end Binary

namespace Constant

open Precision

theorem single_literal_correctly_rounded (x : Binary .double) :
    encode (.float 32) (.float x) = .ok (.scalar (.float .single) (.float x.convert)) ∧
    (∀ v, x.rational? = some v → (x.convert : Binary .single).isNegative = x.isNegative ∧
      (x.convert = (.infinity x.isNegative : Binary .single) ↔ 2 ^ 128 - 2 ^ 103 ≤ |v|) ∧
      (|v| < 2 ^ 128 - 2 ^ 103 → (x.convert : Binary .single).IsClosest v)) ∧
    (∀ (z : Binary .single) v, x.rational? = some v → z.rational? = some v → x.isNegative = z.isNegative →
      x.convert = z) ∧
    (∀ negative, x = .infinity negative → x.convert = (.infinity negative : Binary .single)) ∧
    (x = .nan → x.convert = (.nan : Binary .single)) ∧
    (∀ y, x.AtMost y → (x.convert : Binary .single).AtMost y.convert) := by
  refine ⟨encodeFloat_eq_ok_iff.2 (.inl ⟨rfl, rfl⟩), fun v hv => ?_, fun z v hx hz hs => ?_, ?_, ?_,
    fun y hy => hy.convert⟩
  · obtain ⟨s, m, hm, rfl, rfl⟩ := Binary.eq_number_of_rational? hv
    obtain ⟨r, hr, hc, hmr⟩ := Binary.convert_eq s hm.le
    have htop := eq_top_iff_of_rounds hmr
    rw [Binary.middle_last_eq] at htop
    rw [hc, Binary.isNegative_number, Binary.isNegative_number, abs_signedValue, ← htop]
    refine ⟨rfl, by simp [Binary.infinity], fun hlt => ?_⟩
    have hne : r ≠ single.top := fun he => absurd (htop.1 he) (not_le.2 hlt)
    exact Binary.isClosest_number s (Nat.lt_of_le_of_ne hr hne) hmr
  · obtain ⟨s, m, hm, rfl, rfl⟩ := Binary.eq_number_of_rational? hx
    obtain ⟨t, k, hk, rfl, he⟩ := Binary.eq_number_of_rational? hz
    rw [Binary.isNegative_number, Binary.isNegative_number] at hs
    subst hs
    have hv := congrArg abs he
    rw [abs_signedValue, abs_signedValue] at hv
    obtain ⟨r, hr, hc, hmr⟩ := Binary.convert_eq s hm.le
    obtain rfl := hmr.unique (hv ▸ rounds_value hk.le)
    exact hc
  · rintro negative rfl
    rw [Binary.infinity, Binary.convert, if_pos rfl]
  · rintro rfl
    rfl

theorem rounding_beside_overflow : ∃ x y : Binary .double, x.rational? = some (2 ^ 128 - 2 ^ 103 - 2 ^ 75) ∧
    y.rational? = some (2 ^ 128 - 2 ^ 103) ∧ (x.convert : Binary .single).IsClosest (2 ^ 128 - 2 ^ 103 - 2 ^ 75) ∧
    (x.convert : Binary .single).toBits = 0x7f7fffff ∧ y.convert = (.infinity false : Binary .single) ∧
    (x.convert : Binary .single).AtMost y.convert ∧
    (.zero true : Binary .double).convert = (.zero true : Binary .single) := by
  have hx : (Binary.number false 0x47efffffefffffff (by decide) : Binary .double).rational? =
      some (2 ^ 128 - 2 ^ 103 - 2 ^ 75) := by decide +kernel
  have hy : (Binary.number false 0x47effffff0000000 (by decide) : Binary .double).rational? =
      some (2 ^ 128 - 2 ^ 103) := by decide +kernel
  have hz : (.zero true : Binary .double).rational? = some 0 ∧ (.zero true : Binary .single).rational? = some 0 := by
    decide +kernel
  obtain ⟨_, hcx, _, _, _, hmono⟩ := single_literal_correctly_rounded (.number false 0x47efffffefffffff (by decide))
  obtain ⟨_, hcy, _⟩ := single_literal_correctly_rounded (.number false 0x47effffff0000000 (by decide))
  obtain ⟨_, _, hid, _⟩ := single_literal_correctly_rounded (.zero true)
  exact ⟨_, _, hx, hy, (hcx _ hx).2.2 (by decide +kernel), by decide +kernel, (hcy _ hy).2.1.2 (by decide +kernel),
    hmono _ (.finite hx hy (by decide +kernel)), hid _ 0 hz.1 hz.2 (by decide +kernel)⟩

end Constant

end OneStep
