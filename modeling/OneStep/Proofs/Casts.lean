import OneStep.Proofs.Integers

namespace OneStep

theorem Words.InRange.eq_of_modEq {n : Nat} {isSigned : Bool} {a b : Int} (hn : 0 < n) (ha : InRange isSigned n a)
    (hb : InRange isSigned n b) (h : a ≡ b [ZMOD 2 ^ n]) : a = b := by
  have hw : BitVec.ofInt n a = BitVec.ofInt n b := ofInt_congr h
  rw [← readBits_ofInt_of_inRange hn ha, hw, readBits_ofInt_of_inRange hn hb]

namespace Scalar

def integer (isSigned : Bool) (w : Width) : Scalar :=
  if isSigned then .int w else .word w

def Counts : Scalar → Int → Prop
  | .bool, n => n = 0 ∨ n = 1
  | .int w, n => Words.InRange true w.size n
  | .word w, n => Words.InRange false w.size n
  | .float _, _ => False

theorem counts_of_number {s : Scalar} {c : s.kind.Carrier} {n : Int}
    (h : Data.number? (.scalar s c) = some n) : s.Counts n := by
  cases s with
  | bool =>
    cases h
    cases c
    · exact .inl rfl
    · exact .inr rfl
  | int w =>
    cases h
    exact @Words.inRange_readBits _ true c
  | word w =>
    cases h
    exact @Words.inRange_readBits _ false c
  | float p => cases h

end Scalar

namespace Operator

open Outcome

variable {model : FloatModel} {ρ : Assignment}

theorem cast_integer (isSigned : Bool) {v : Width} (x : Term (.bits v)) (targetSigned : Bool) (w : Width) :
    cast (integer isSigned x) (.ofScalar (.integer targetSigned w)) =
      .ok (integer targetSigned (resize isSigned w x)) := by
  cases isSigned <;> cases targetSigned <;> cases w <;> rfl

theorem cast_truth (x : Term .bool) (isSigned : Bool) (w : Width) :
    cast (.scalar .bool x) (.ofScalar (.integer isSigned w)) =
      .ok (integer isSigned (.ite x (literal (w := w) 1) (literal 0))) := by
  cases isSigned <;> cases w <;> rfl

theorem cast_of_number {s : Scalar} {x : Term s.kind} {n : Int}
    (hn : Data.number? (.scalar s (x.eval model ρ)) = some n) (isSigned : Bool) (w : Width) :
    ∃ t : Term (.bits w), cast (.scalar s x) (.ofScalar (.integer isSigned w)) = .ok (integer isSigned t) ∧
      t.eval model ρ = BitVec.ofInt w.size n := by
  cases s with
  | bool =>
    cases hn
    refine ⟨_, cast_truth x isSigned w, ?_⟩
    rw [Term.eval]
    cases x.eval model ρ <;> rfl
  | int v =>
    cases hn
    exact ⟨_, cast_integer true x isSigned w, eval_resize model ρ true w x⟩
  | word v =>
    cases hn
    exact ⟨_, cast_integer false x isSigned w, eval_resize model ρ false w x⟩
  | float p => cases hn

theorem cast_twice {s : Scalar} {x : Term s.kind} {n : Int}
    (hn : Data.number? (.scalar s (x.eval model ρ)) = some n) (firstSigned : Bool) (v : Width) (isSigned : Bool)
    (w : Width) :
    ∃ t : Term (.bits w), (cast (.scalar s x) (.ofScalar (.integer firstSigned v)) >>= fun y =>
        cast y (.ofScalar (.integer isSigned w))) = .ok (integer isSigned t) ∧
      t.eval model ρ = BitVec.ofInt w.size (readBits firstSigned (BitVec.ofInt v.size n)) := by
  obtain ⟨t, ht, he⟩ := cast_of_number hn firstSigned v
  refine ⟨resize firstSigned w t, ?_, ?_⟩
  · rw [ht]
    exact cast_integer firstSigned t isSigned w
  · rw [eval_resize, he]

theorem cast_back {isSigned : Bool} {w : Width} {x : Term (.bits w)} (targetSigned : Bool) (v : Width)
    (hr : Words.InRange targetSigned v.size (readBits isSigned (x.eval model ρ))) :
    ∃ y, (cast (integer isSigned x) (.ofScalar (.integer targetSigned v)) >>= fun y =>
        cast y (.ofScalar (.integer isSigned w))) = .ok y ∧
      y.eval model ρ = (integer isSigned x).eval model ρ := by
  refine ⟨integer isSigned (resize targetSigned w (resize isSigned v x)), ?_, eval_integer_congr ?_⟩
  · rw [cast_integer isSigned x targetSigned v]
    exact cast_integer targetSigned _ isSigned w
  · rw [eval_resize, eval_resize, Words.readBits_ofInt_of_inRange v.size_pos hr, Words.ofInt_readBits]

structure Casts (model : FloatModel) (ρ : Assignment) (s : Scalar) (x : Term s.kind) (n : Int) : Prop where
  -- the one integer of the target that is congruent to it
  reduces isSigned w : ∃ m, Shows model ρ isSigned w (cast (.scalar s x) (.ofScalar (.integer isSigned w))) m ∧
    ∀ a, Words.InRange isSigned w.size a ∧ a ≡ n [ZMOD 2 ^ w.size] ↔ a = m
  -- a type in between that is as wide as the target, or has all that the source has, does not show
  composes firstSigned v isSigned w :
    (w.size ≤ v.size ∨ ∀ a, s.Counts a → Words.InRange firstSigned v.size a) →
    ∃ y z, (cast (.scalar s x) (.ofScalar (.integer firstSigned v)) >>= fun y =>
        cast y (.ofScalar (.integer isSigned w))) = .ok y ∧
      cast (.scalar s x) (.ofScalar (.integer isSigned w)) = .ok z ∧ y.eval model ρ = z.eval model ρ
  -- there and back
  returns targetSigned v : s ≠ .bool → Words.InRange targetSigned v.size n →
    ∃ y, (cast (.scalar s x) (.ofScalar (.integer targetSigned v)) >>= fun y => cast y (.ofScalar s)) = .ok y ∧
      y.eval model ρ = .scalar s (x.eval model ρ)

theorem casts_reduce_and_compose (model : FloatModel) (ρ : Assignment) {s : Scalar} (x : Term s.kind) {n : Int}
    (hn : Data.number? (.scalar s (x.eval model ρ)) = some n) : Casts model ρ s x n where
  reduces isSigned w := by
    obtain ⟨t, ht, he⟩ := cast_of_number hn isSigned w
    obtain ⟨m, hm, hr, hc⟩ := reduces_of_eval ht he
    refine ⟨m, hm, fun a => ⟨fun ⟨ha, hac⟩ => ?_, fun ha => ?_⟩⟩
    · exact ha.eq_of_modEq w.size_pos hr (hac.trans hc.symm)
    · subst ha
      exact ⟨hr, hc⟩
  composes firstSigned v isSigned w h := by
    obtain ⟨t, ht, he⟩ := cast_twice hn firstSigned v isSigned w
    obtain ⟨u, hu, hd⟩ := cast_of_number hn isSigned w
    refine ⟨_, _, ht, hu, eval_integer_congr (he.trans (Eq.trans ?_ hd.symm))⟩
    rcases h with h | h
    · exact Words.ofInt_readBits_ofInt firstSigned n h
    · rw [Words.readBits_ofInt_of_inRange v.size_pos (h n (Scalar.counts_of_number hn))]
  returns targetSigned v hs hr := by
    cases s with
    | bool => exact absurd rfl hs
    | int w =>
      cases hn
      exact @cast_back model ρ true w x targetSigned v hr
    | word w =>
      cases hn
      exact @cast_back model ρ false w x targetSigned v hr
    | float p => cases hn

theorem minus_one_casts_to_greatest :
    Data.number? (.scalar (.int .w8) ((literal (-1)).eval .ieee (fun _ k => k.default))) = some (-1) ∧
      Shows .ieee (fun _ k => k.default) false .w16 (cast (.scalar (.int .w8) (literal (-1))) (.word 16)) 65535 := by
  have hn : Data.number? (.scalar (.int .w8) ((literal (-1)).eval .ieee (fun _ k => k.default))) = some (-1) := by
    rw [eval_literal]
    rfl
  have hc := @casts_reduce_and_compose .ieee (fun _ k => k.default) (.int .w8) (literal (-1)) _ hn
  obtain ⟨m, hm, hu⟩ := hc.reduces false .w16
  have hg : (65535 : Int) = m := (hu 65535).1 ⟨⟨by decide, by decide⟩, by decide⟩
  exact ⟨hn, hg ▸ hm⟩

end Operator

end OneStep
