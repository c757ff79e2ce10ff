import Mathlib.Algebra.Order.Field.Rat
import Mathlib.Algebra.Order.Ring.Abs
import Mathlib.Tactic.FieldSimp
import Mathlib.Tactic.Linarith
import Mathlib.Tactic.Ring
import OneStep.Binary.Arithmetic

namespace OneStep

namespace Precision

variable {p : Precision}

theorem block_pos (p : Precision) : 0 < p.block := Nat.two_pow_pos _

theorem two_mul_block (p : Precision) : 2 * p.block = 2 ^ p.digits := by
  cases p <;> rfl

theorem block_mod_two (p : Precision) : p.block % 2 = 0 := by
  cases p <;> rfl

theorem quanta_eq {e q : Nat} (hq : q ≤ 2 * p.block) (he : e = 0 ∨ p.block ≤ q) :
    p.quanta (e * p.block + q) = q * 2 ^ e := by
  have hb := p.block_pos
  rcases Nat.lt_or_ge q p.block with hlt | hge
  · have he : e = 0 := he.resolve_right (by omega)
    subst he
    simp [quanta, hlt]
  obtain ⟨m, rfl⟩ := Nat.exists_eq_add_of_le hge
  have hr : e * p.block + (p.block + m) = m + p.block * (e + 1) := by
    rw [Nat.mul_comm e, Nat.mul_add, Nat.mul_one]
    omega
  have hn : ¬ m + p.block * (e + 1) < p.block := by
    rw [Nat.mul_add, Nat.mul_one]
    omega
  rw [hr, quanta, if_neg hn, Nat.add_mul_mod_self_left, Nat.add_mul_div_left _ _ hb]
  rcases Nat.lt_or_ge m p.block with hm | hm
  · rw [Nat.mod_eq_of_lt hm, Nat.div_eq_of_lt hm]
    congr 2
    omega
  · have hm : m = p.block := by omega
    subst hm
    rw [Nat.mod_self, Nat.div_self hb, Nat.add_zero, Nat.add_comm 1, Nat.add_sub_cancel, Nat.pow_eq,
      Nat.pow_succ]
    ring

theorem exists_significand (p : Precision) (r : Nat) :
    ∃ e q, r = e * p.block + q ∧ q < 2 * p.block ∧ (e = 0 ∨ p.block ≤ q) := by
  have hb := p.block_pos
  have hm := Nat.mod_lt r hb
  have hr := Nat.div_add_mod r p.block
  rcases h : r / p.block with _ | e
  · rw [h] at hr
    exact ⟨0, r, by simp, by omega, .inl rfl⟩
  · rw [h, Nat.mul_add, Nat.mul_one, Nat.mul_comm] at hr
    exact ⟨e, p.block + r % p.block, by omega, by omega, .inr (by omega)⟩

theorem quanta_succ {e q : Nat} (hq : q < 2 * p.block) (he : e = 0 ∨ p.block ≤ q) :
    p.quanta (e * p.block + q + 1) = (q + 1) * 2 ^ e :=
  quanta_eq (q := q + 1) hq (he.imp_right Nat.le_succ_of_le)

theorem quanta_strictMono (p : Precision) : StrictMono p.quanta := by
  refine strictMono_nat_of_lt_succ fun r => ?_
  obtain ⟨e, q, rfl, hq, he⟩ := p.exists_significand r
  rw [quanta_eq hq.le he, quanta_succ hq he]
  exact Nat.mul_lt_mul_of_pos_right (Nat.lt_succ_self q) (Nat.two_pow_pos e)

theorem exists_quanta_eq (p : Precision) {q : Nat} (hq : q ≤ 2 * p.block) (e : Nat) : ∃ r, p.quanta r = q * 2 ^ e := by
  induction e generalizing q with
  | zero => exact ⟨0 * p.block + q, quanta_eq hq (.inl rfl)⟩
  | succ e ih =>
    rcases Nat.le_total p.block q with hb | hb
    · exact ⟨_, quanta_eq hq (.inr hb)⟩
    · obtain ⟨r, hr⟩ := ih (q := 2 * q) (by omega)
      exact ⟨r, by rw [hr, Nat.pow_succ]; ring⟩

def value (p : Precision) (r : Nat) : ℚ :=
  p.quanta r / (2 ^ p.scale : Nat)

def middle (p : Precision) (r : Nat) : ℚ :=
  (p.value r + p.value (r + 1)) / 2

theorem value_strictMono (p : Precision) : StrictMono p.value := by
  intro r r' h
  have hs : (0 : ℚ) < (2 ^ p.scale : Nat) := by exact_mod_cast Nat.two_pow_pos p.scale
  exact div_lt_div_of_pos_right (by exact_mod_cast p.quanta_strictMono h) hs

theorem middle_strictMono (p : Precision) : StrictMono p.middle := by
  intro r r' h
  have h₁ := p.value_strictMono h
  have h₂ := p.value_strictMono (Nat.succ_lt_succ h)
  simp only [middle, Nat.succ_eq_add_one] at *
  linarith

theorem value_lt_middle (p : Precision) (r : Nat) : p.value r < p.middle r := by
  have h := p.value_strictMono (Nat.lt_succ_self r)
  simp only [middle, Nat.succ_eq_add_one] at *
  linarith

theorem middle_lt_value (p : Precision) (r : Nat) : p.middle r < p.value (r + 1) := by
  have h := p.value_strictMono (Nat.lt_succ_self r)
  simp only [middle, Nat.succ_eq_add_one] at *
  linarith

structure IsNearest (p : Precision) (x : ℚ) (r : Nat) : Prop where
  le_top : r ≤ p.top
  closest : ∀ r' ≤ p.top, r' ≠ r →
    |p.value r - x| < |p.value r' - x| ∨ |p.value r - x| = |p.value r' - x| ∧ r % 2 = 0

structure Rounds (p : Precision) (x : ℚ) (r : Nat) : Prop where
  le_top : r ≤ p.top
  above : ∀ k, r = k + 1 → p.middle k < x ∨ p.middle k = x ∧ r % 2 = 0
  below : r < p.top → x < p.middle r ∨ x = p.middle r ∧ r % 2 = 0

section

variable {a b x : ℚ}

theorem closer_right_iff (h : a < b) : |b - x| < |a - x| ↔ a + b < 2 * x := by
  rw [← sq_lt_sq]
  constructor <;> intro hx <;> nlinarith

theorem closer_left_iff (h : a < b) : |a - x| < |b - x| ↔ 2 * x < a + b := by
  rw [← sq_lt_sq]
  constructor <;> intro hx <;> nlinarith

theorem as_close_iff (h : a < b) : |a - x| = |b - x| ↔ 2 * x = a + b := by
  have hr := closer_right_iff (x := x) h
  have hl := closer_left_iff (x := x) h
  constructor
  · intro he
    rw [he, lt_self_iff_false, false_iff, not_lt] at hr hl
    exact le_antisymm hr hl
  · intro he
    rw [he, lt_self_iff_false, iff_false, not_lt] at hr hl
    exact le_antisymm hr hl

end

variable {x y : ℚ} {r r' : Nat}

theorem IsNearest.rounds (h : p.IsNearest x r) : p.Rounds x r := by
  refine ⟨h.le_top, ?_, fun hr => ?_⟩
  · rintro k rfl
    have hlt := p.value_strictMono (Nat.lt_succ_self k)
    rcases h.closest k (Nat.le_of_succ_le h.le_top) (by omega) with hc | ⟨hc, he⟩
    · have := (closer_right_iff hlt).1 hc
      exact .inl (by simp only [middle]; linarith)
    · have := (as_close_iff hlt).1 hc.symm
      exact .inr ⟨by simp only [middle]; linarith, he⟩
  · have hlt := p.value_strictMono (Nat.lt_succ_self r)
    rcases h.closest (r + 1) hr (by omega) with hc | ⟨hc, he⟩
    · have := (closer_left_iff hlt).1 hc
      exact .inl (by simp only [middle]; linarith)
    · have := (as_close_iff hlt).1 hc
      exact .inr ⟨by simp only [middle]; linarith, he⟩

theorem Rounds.isNearest (h : p.Rounds x r) : p.IsNearest x r := by
  refine ⟨h.le_top, fun r' hr' hne => ?_⟩
  rcases Nat.lt_or_gt_of_ne hne with hlt | hgt
  · obtain ⟨k, rfl⟩ := Nat.exists_eq_succ_of_ne_zero (Nat.ne_zero_of_lt hlt)
    have hv := p.value_strictMono hlt
    have hk := p.value_strictMono.monotone (Nat.le_of_lt_succ hlt)
    rw [closer_right_iff hv, eq_comm, as_close_iff hv]
    have ha := h.above k rfl
    simp only [middle, Nat.succ_eq_add_one] at ha ⊢
    rcases ha with hx | ⟨hx, he⟩
    · exact .inl (by linarith)
    · exact (lt_or_eq_of_le (by linarith)).imp_right fun heq => ⟨heq.symm, he⟩
  · have hv := p.value_strictMono hgt
    have hk := p.value_strictMono.monotone (Nat.succ_le_of_lt hgt)
    rw [closer_left_iff hv, as_close_iff hv]
    have hb := h.below (Nat.lt_of_lt_of_le hgt hr')
    simp only [middle, Nat.succ_eq_add_one] at hb hk ⊢
    rcases hb with hx | ⟨hx, he⟩
    · exact .inl (by linarith)
    · exact (lt_or_eq_of_le (by linarith)).imp_right fun heq => ⟨heq, he⟩

theorem Rounds.le_middle (h : p.Rounds x r) (hr : r < p.top) : x ≤ p.middle r :=
  (h.below hr).elim le_of_lt fun hx => le_of_eq hx.1

theorem Rounds.middle_le {k : Nat} (h : p.Rounds x (k + 1)) : p.middle k ≤ x :=
  (h.above k rfl).elim le_of_lt fun hx => le_of_eq hx.1

theorem Rounds.le (h : p.Rounds x r) (h' : p.Rounds y r') (hxy : x ≤ y) : r ≤ r' := by
  by_contra hlt
  obtain ⟨k, rfl⟩ := Nat.exists_eq_succ_of_ne_zero (Nat.ne_zero_of_lt (Nat.lt_of_not_le hlt))
  have hr' : r' < p.top := Nat.lt_of_lt_of_le (Nat.lt_of_not_le hlt) h.le_top
  have hm : p.middle k ≤ p.middle r' := (h.middle_le.trans hxy).trans (h'.le_middle hr')
  have hk : k = r' := Nat.le_antisymm (p.middle_strictMono.le_iff_le.1 hm) (by omega)
  subst hk
  rcases h.above k rfl with hx | ⟨hx, he⟩
  · exact absurd (h'.le_middle hr') (not_le.2 (hx.trans_le hxy))
  · rcases h'.below hr' with hy | ⟨hy, he'⟩
    · exact absurd hxy (not_le.2 (hx ▸ hy))
    · omega

theorem Rounds.unique (h : p.Rounds x r) (h' : p.Rounds x r') : r = r' :=
  Nat.le_antisymm (h.le h' le_rfl) (h'.le h le_rfl)

theorem rounds_value (h : r ≤ p.top) : p.Rounds (p.value r) r :=
  ⟨h, fun k hk => .inl (hk ▸ p.middle_lt_value k), fun _ => .inl (p.value_lt_middle r)⟩

def quotient (p : Precision) (n d : Nat) : ℚ :=
  n / d / (2 ^ p.scale : Nat)

section

variable {n d n' d' : Nat}

theorem cast_scale_pos (p : Precision) : (0 : ℚ) < (2 ^ p.scale : Nat) := by
  exact_mod_cast Nat.two_pow_pos p.scale

theorem value_eq_quotient (p : Precision) (r : Nat) : p.value r = p.quotient (p.quanta r) 1 := by
  rw [value, quotient, Nat.cast_one, div_one]

theorem middle_eq_quotient (p : Precision) (r : Nat) : p.middle r = p.quotient (p.quanta r + p.quanta (r + 1)) 2 := by
  rw [middle, value, value, quotient, ← add_div, div_right_comm]
  push_cast
  rfl

theorem quotient_lt_iff (hd : 0 < d) (hd' : 0 < d') : p.quotient n d < p.quotient n' d' ↔ n * d' < n' * d := by
  have hd : (0 : ℚ) < d := by exact_mod_cast hd
  have hd' : (0 : ℚ) < d' := by exact_mod_cast hd'
  rw [quotient, quotient, div_lt_div_iff_of_pos_right p.cast_scale_pos, div_lt_div_iff₀ hd hd']
  exact_mod_cast Iff.rfl

theorem quotient_le_iff (hd : 0 < d) (hd' : 0 < d') : p.quotient n d ≤ p.quotient n' d' ↔ n * d' ≤ n' * d := by
  rw [← not_lt, quotient_lt_iff hd' hd, Nat.not_lt]

theorem quotient_eq_iff (hd : 0 < d) (hd' : 0 < d') : p.quotient n d = p.quotient n' d' ↔ n * d' = n' * d := by
  rw [le_antisymm_iff, quotient_le_iff hd hd', quotient_le_iff hd' hd, ← Nat.le_antisymm_iff]

theorem roundDiv_cases (n d : Nat) :
    2 * (n % d) < d ∧ roundDiv n d = n / d ∨ d < 2 * (n % d) ∧ roundDiv n d = n / d + 1 ∨
      2 * (n % d) = d ∧ roundDiv n d = n / d + n / d % 2 := by
  unfold roundDiv
  split
  · exact .inl ⟨‹_›, rfl⟩
  · split
    · exact .inr (.inl ⟨‹_›, rfl⟩)
    · exact .inr (.inr ⟨by omega, rfl⟩)

theorem significand_of_log2 (p : Precision) (m : Nat) {e : Nat} (he : e = m.log2 + 1 - p.digits) :
    m / 2 ^ e < 2 * p.block ∧ (e = 0 ∨ p.block ≤ m / 2 ^ e) := by
  have hlt : m < 2 ^ (m.log2 + 1) := Nat.lt_log2_self
  rcases Nat.eq_zero_or_pos e with h0 | hpos
  · refine ⟨?_, .inl h0⟩
    rw [h0, Nat.pow_zero, Nat.div_one, two_mul_block]
    exact hlt.trans_le (Nat.pow_le_pow_right (by decide) (by omega))
  · have hd : 0 < p.digits := by cases p <;> decide
    have hm : m ≠ 0 := by
      rintro rfl
      simp at he
      omega
    have hle := Nat.log2_self_le hm
    constructor
    · rw [Nat.div_lt_iff_lt_mul (Nat.two_pow_pos e), two_mul_block, ← Nat.pow_add]
      exact hlt.trans_le (Nat.pow_le_pow_right (by decide) (by omega))
    · right
      rw [Nat.le_div_iff_mul_le (Nat.two_pow_pos e), block, Nat.pow_eq, ← Nat.pow_add]
      exact (Nat.pow_le_pow_right (by decide) (by omega)).trans hle

-- the quotient lies between two neighbouring ranks, and goes to the nearer one or else to the even one
theorem nearest_cases (p : Precision) (n : Nat) (hd : 0 < d) : ∃ f r, p.nearest n d = min p.top r ∧
    p.quanta f * d ≤ n ∧ n < p.quanta (f + 1) * d ∧
    (2 * n < (p.quanta f + p.quanta (f + 1)) * d ∧ r = f ∨
      (p.quanta f + p.quanta (f + 1)) * d < 2 * n ∧ r = f + 1 ∨
      (p.quanta f + p.quanta (f + 1)) * d = 2 * n ∧ r = f + f % 2) := by
  obtain ⟨e, he⟩ : ∃ e, e = (n / d).log2 + 1 - p.digits := ⟨_, rfl⟩
  have hq := p.significand_of_log2 (n / d) he
  rw [Nat.div_div_eq_div_mul] at hq
  have hf := quanta_eq hq.1.le hq.2
  have hf' := quanta_succ hq.1 hq.2
  have hn := Nat.div_add_mod n (d * 2 ^ e)
  have hm := Nat.mod_lt n (Nat.mul_pos hd (Nat.two_pow_pos e))
  have hc := roundDiv_cases n (d * 2 ^ e)
  refine ⟨e * p.block + n / (d * 2 ^ e), e * p.block + roundDiv n (d * 2 ^ e), by rw [nearest, ← he, Nat.pow_eq], ?_⟩
  generalize n / (d * 2 ^ e) = a at *
  generalize n % (d * 2 ^ e) = b at *
  generalize roundDiv n (d * 2 ^ e) = c at *
  have hl : p.quanta (e * p.block + a) * d = d * 2 ^ e * a := by rw [hf]; ring
  have hu : p.quanta (e * p.block + a + 1) * d = d * 2 ^ e * a + d * 2 ^ e := by rw [hf']; ring
  have hb : e * p.block % 2 = 0 := by rw [Nat.mul_mod, block_mod_two, Nat.mul_zero, Nat.zero_mod]
  rw [Nat.add_mul, hl, hu]
  generalize d * 2 ^ e = D at *
  generalize D * a = A at *
  generalize e * p.block = B at *
  omega

theorem rounds_nearest (p : Precision) (n : Nat) (hd : 0 < d) : p.Rounds (p.quotient n d) (p.nearest n d) := by
  obtain ⟨f, r, hr, hl, hu, hc⟩ := p.nearest_cases n hd
  have hlow : ∀ k < f, p.middle k < p.quotient n d := fun k hk => by
    refine (p.middle_lt_value k).trans_le ?_
    rw [value_eq_quotient, quotient_le_iff Nat.one_pos hd, Nat.mul_one]
    exact (Nat.mul_le_mul_right d (p.quanta_strictMono.monotone hk)).trans hl
  have hhigh : ∀ k, f < k → p.quotient n d < p.middle k := fun k hk => by
    refine lt_of_lt_of_le ?_ (p.value_lt_middle k).le
    rw [value_eq_quotient, quotient_lt_iff hd Nat.one_pos, Nat.mul_one]
    exact hu.trans_le (Nat.mul_le_mul_right d (p.quanta_strictMono.monotone hk))
  have hmid : p.quotient n d < p.middle f ∧ r = f ∨ p.middle f < p.quotient n d ∧ r = f + 1 ∨
      p.middle f = p.quotient n d ∧ r = f + f % 2 := by
    rwa [middle_eq_quotient, quotient_lt_iff hd Nat.two_pos, quotient_lt_iff Nat.two_pos hd,
      quotient_eq_iff Nat.two_pos hd, Nat.mul_comm n]
  rw [hr]
  refine ⟨Nat.min_le_left .., fun k hk => ?_, fun ht => ?_⟩
  · rcases Nat.lt_or_ge k f with hkf | hkf
    · exact .inl (hlow k hkf)
    · have hk' : k = f ∧ r = f + 1 ∧ min p.top r = r := by omega
      obtain ⟨rfl, rfl, hmin⟩ := hk'
      rcases hmid with ⟨_, h⟩ | ⟨h, _⟩ | ⟨h, hodd⟩
      · omega
      · exact .inl h
      · exact .inr ⟨h, by omega⟩
  · have hmin : min p.top r = r := by omega
    rw [hmin]
    rcases hmid with ⟨h, rfl⟩ | ⟨_, rfl⟩ | ⟨h, hrf⟩
    · exact .inl h
    · exact .inl (hhigh _ (Nat.lt_succ_self f))
    · rcases Nat.mod_two_eq_zero_or_one f with he | ho
      · obtain rfl : r = f := by omega
        exact .inr ⟨h.symm, he⟩
      · exact .inl (hhigh r (by omega))

end

end Precision

namespace Binary

variable {p : Precision}

def IsNearest (x : ℚ) : Binary p → Prop
  | .nan => False
  | .number negative r _ => negative = decide (x < 0) ∧ p.IsNearest |x| r

theorem IsNearest.unique {x : ℚ} {a b : Binary p} (ha : a.IsNearest x) (hb : b.IsNearest x) : a = b := by
  cases a with
  | nan => exact ha.elim
  | number s r hr =>
    cases b with
    | nan => exact hb.elim
    | number s' r' hr' =>
      obtain ⟨rfl, ha⟩ := ha
      obtain ⟨rfl, hb⟩ := hb
      obtain rfl := ha.rounds.unique hb.rounds
      rfl

theorem IsNearest.not_isNearest {x : ℚ} {a b : Binary p} (hb : b.IsNearest x) (h : a.toBits ≠ b.toBits) :
    ¬ a.IsNearest x :=
  fun ha => h (congrArg toBits (ha.unique hb))

theorem isNearest_ofInt (z : Int) : (ofInt z : Binary p).IsNearest z := by
  have hz : |(z : ℚ)| = p.quotient (z.natAbs * 2 ^ p.scale) 1 := by
    rw [Precision.quotient, Nat.cast_one, div_one, Nat.cast_mul, mul_div_assoc, div_self p.cast_scale_pos.ne', mul_one,
      Nat.cast_natAbs, Int.cast_abs]
  refine ⟨by simp, ?_⟩
  rw [hz]
  exact (p.rounds_nearest _ Nat.one_pos).isNearest

end Binary

end OneStep
