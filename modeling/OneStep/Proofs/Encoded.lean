import OneStep.Proofs.Outcome
import OneStep.Proofs.Shape
import OneStep.Proofs.Words
import OneStep.Symbolic.Operator

namespace OneStep

theorem Comparison.test_converse (op : Comparison) (a b : Int) : op.converse.test b a = op.test a b := by
  cases op <;> rfl

namespace SymValue

variable (model : FloatModel) (ρ : Assignment)

@[simp] theorem eval_scalar (s : Scalar) (t : Term s.kind) :
    eval model ρ (.scalar s t) = .scalar s (t.eval model ρ) := by
  simp [eval]

@[simp] theorem eval_array (items : List SymValue) :
    eval model ρ (.array items) = .array (items.map (eval model ρ)) := by
  simp only [eval, Value.map_array]
  rfl

@[simp] theorem eval_struct (items : List SymValue) :
    eval model ρ (.struct items) = .struct (items.map (eval model ρ)) := by
  simp only [eval, Value.map_struct]
  rfl

theorem conforms_eval (t : StreamType) (v : SymValue) : (eval model ρ v).Conforms t ↔ v.Conforms t :=
  Value.conforms_map _ t v

variable {model : FloatModel} {ρ : Assignment}

theorem zipItems_induction {cond : Term .bool} {P : SymValue → SymValue → SymValue → Prop}
    {Q : List SymValue → List SymValue → List SymValue → Prop} (nil : Q [] [] [])
    (cons : ∀ x y v xs ys vs, P x y v → Q xs ys vs → Q (x :: xs) (y :: ys) (v :: vs)) {xs ys vs : List SymValue}
    (ih : ∀ x ∈ xs, ∀ y v, select cond x y = .ok v → P x y v) (hl : xs.length = ys.length)
    (h : zipItems (fun a b => .ok (.ite cond a b)) xs ys = .ok vs) : Q xs ys vs := by
  induction xs generalizing ys vs with
  | nil =>
    obtain rfl : ys = [] := List.length_eq_zero_iff.1 hl.symm
    cases h
    exact nil
  | cons x xs iht =>
    cases ys with
    | nil => cases hl
    | cons y ys =>
      obtain ⟨v, hv, h⟩ := Outcome.bind_eq_ok_iff.1 h
      obtain ⟨vs, hvs, h⟩ := Outcome.bind_eq_ok_iff.1 h
      cases h
      exact cons _ _ _ _ _ _ (ih x (List.mem_cons_self ..) y v hv)
        (iht (fun u hu => ih u (List.mem_cons_of_mem _ hu)) (Nat.succ.inj hl) hvs)

theorem select_induction {cond : Term .bool} {P : SymValue → SymValue → SymValue → Prop}
    {Q : List SymValue → List SymValue → List SymValue → Prop}
    (scalar : ∀ s a b, P (.scalar s a) (.scalar s b) (.scalar s (.ite cond a b)))
    (array : ∀ xs ys vs, Q xs ys vs → P (.array xs) (.array ys) (.array vs))
    (struct : ∀ xs ys vs, Q xs ys vs → P (.struct xs) (.struct ys) (.struct vs)) (nil : Q [] [] [])
    (cons : ∀ x y v xs ys vs, P x y v → Q xs ys vs → Q (x :: xs) (y :: ys) (v :: vs)) {x y v : SymValue}
    (h : select cond x y = .ok v) : P x y v := by
  induction x using Value.shape_induction generalizing y v with
  | scalar s a =>
    cases y with
    | scalar t b =>
      simp only [select, zip] at h
      split at h
      · next hs =>
        subst hs
        cases h
        exact scalar s a b
      · cases h
    | array ys => cases h
    | struct ys => cases h
  | array xs ih =>
    cases y with
    | scalar t b => cases h
    | array ys =>
      simp only [select, zip] at h
      split at h
      · split at h
        · next hl =>
          obtain ⟨vs, hz, h⟩ := Outcome.bind_eq_ok_iff.1 h
          cases h
          exact array xs ys vs (zipItems_induction nil cons (fun x hx y v => @ih x hx y v) hl hz)
        · cases h
      · cases h
    | struct ys => cases h
  | struct xs ih =>
    cases y with
    | scalar t b => cases h
    | array ys => cases h
    | struct ys =>
      simp only [select, zip] at h
      split at h
      · next hl =>
        obtain ⟨vs, hz, h⟩ := Outcome.bind_eq_ok_iff.1 h
        cases h
        exact struct xs ys vs (zipItems_induction nil cons (fun x hx y v => @ih x hx y v) hl hz)
      · cases h

theorem select_eval {cond : Term .bool} {x y v : SymValue} (h : select cond x y = .ok v) :
    v.eval model ρ = if cond.eval model ρ then x.eval model ρ else y.eval model ρ := by
  refine select_induction (P := fun x y v => v.eval model ρ = if cond.eval model ρ then x.eval model ρ
      else y.eval model ρ) (Q := fun xs ys vs => vs.map (eval model ρ) = if cond.eval model ρ
      then xs.map (eval model ρ) else ys.map (eval model ρ)) ?_ ?_ ?_ ?_ ?_ h
  · intro s a b
    simp only [eval_scalar, Term.eval]
    split <;> rfl
  · intro xs ys vs hq
    simp only [eval_array, hq]
    split <;> rfl
  · intro xs ys vs hq
    simp only [eval_struct, hq]
    split <;> rfl
  · simp
  · intro x y v xs ys vs hp hq
    simp only [List.map_cons, hp, hq]
    split <;> rfl

end SymValue

namespace Operator

variable (model : FloatModel) (ρ : Assignment)

attribute [local simp] Term.eval

@[simp] theorem eval_literal {w : Width} (n : Int) :
    (literal (w := w) n).eval model ρ = BitVec.ofInt w.size n := by
  simp [literal]

@[simp] theorem eval_floatLiteral {p : Precision} (n : Int) :
    (floatLiteral (p := p) n).eval model ρ = Binary.ofInt n := by
  simp [floatLiteral]

theorem eval_equalBits {w : Width} (x y : Term (.bits w)) :
    (equalBits x y).eval model ρ = (x.eval model ρ == y.eval model ρ) := by
  unfold equalBits
  split
  · simp only [Term.eval, CoreBinary.apply]
    exact Bool.beq_comm
  · rfl

theorem eval_compareSigned (op : Comparison) {w : Width} (x y : Term (.bits w)) :
    (compareSigned op x y).eval model ρ = op.test (x.eval model ρ).toInt (y.eval model ρ).toInt := by
  unfold compareSigned
  split
  · exact op.test_converse _ _
  · rfl

theorem eval_compareUnsigned (op : Comparison) {w : Width} (x y : Term (.bits w)) :
    (compareUnsigned op x y).eval model ρ = op.test (x.eval model ρ).toNat (y.eval model ρ).toNat := by
  rfl

theorem eval_resize (isSigned : Bool) {v : Width} (w : Width) (x : Term (.bits v)) :
    (resize isSigned w x).eval model ρ = BitVec.ofInt w.size (readBits isSigned (x.eval model ρ)) := by
  unfold resize
  split
  · next h =>
    subst h
    exact (Words.ofInt_readBits isSigned _).symm
  · split
    · cases isSigned
      · exact Words.setWidth_eq_ofInt_toNat _
      · rfl
    · exact Words.setWidth_eq_ofInt isSigned _ (by omega)

theorem le_wider_left (v w : Width) : v.size ≤ (wider v w).size := by
  unfold wider
  split <;> omega

theorem le_wider_right (v w : Width) : w.size ≤ (wider v w).size := by
  unfold wider
  split <;> omega

theorem eval_shiftBits (left isSigned : Bool) {v w : Width} (x : Term (.bits v)) (amount : Term (.bits w)) :
    (shiftBits left isSigned x amount).eval model ρ = BitVec.ofInt v.size
      (if left then readBits isSigned (x.eval model ρ) * 2 ^ (amount.eval model ρ).toNat
        else readBits isSigned (x.eval model ρ) / 2 ^ (amount.eval model ρ).toNat) := by
  have hv := le_wider_left v w
  have ha := Words.readBits_extend false (amount.eval model ρ) w.size_pos (le_wider_right v w)
  simp only [Words.readBits_false, Int.natCast_inj] at ha
  rw [shiftBits, eval_resize]
  cases left with
  | true =>
    simp only [if_true, Term.eval, CoreBinary.apply, eval_resize, Words.shiftLeftBits_eq]
    rw [Words.ofInt_readBits_ofInt isSigned _ hv, Words.readBits_false, ha]
    have hx := (Words.readBits_modEq false _).symm.trans
      (Words.readBits_ofInt_modEq (n := (wider v w).size) false (readBits isSigned (x.eval model ρ)))
    exact Words.ofInt_congr (Words.modEq_of_le hv (hx.mul_right _))
  | false =>
    simp only [Bool.false_eq_true, if_false, Term.eval, CoreBinary.apply, eval_resize,
      Words.readBits_shiftRightBits, Words.readBits_extend isSigned _ v.size_pos hv]
    rw [Words.readBits_false, ha]

variable {model : FloatModel} {ρ : Assignment}

theorem eval_negative (isSigned : Bool) {w : Width} (x : Term (.bits w)) :
    (if isSigned then compareSigned .lt x (literal 0) else compareUnsigned .lt x (literal 0)).eval model ρ =
      decide (readBits isSigned (x.eval model ρ) < 0) := by
  cases isSigned
  · simp [eval_compareUnsigned, Comparison.test, readBits]
  · simp [eval_compareSigned, Comparison.test, readBits]

theorem eval_absBits (isSigned : Bool) {w : Width} (x : Term (.bits w)) :
    (Term.ite (if isSigned then compareSigned .lt x (literal 0) else compareUnsigned .lt x (literal 0))
      (negateBits x) x).eval model ρ = BitVec.ofInt w.size (readBits isSigned (x.eval model ρ)).natAbs := by
  rw [← Words.abs_eq_ofInt]
  simp only [Term.eval, eval_negative, decide_eq_true_eq]
  rfl

theorem eval_signBits (isSigned : Bool) {w : Width} (x : Term (.bits w)) :
    (signBits (if isSigned then compareSigned .lt x (literal 0) else compareUnsigned .lt x (literal 0)) x).eval
      model ρ = BitVec.ofInt w.size (readBits isSigned (x.eval model ρ)).sign := by
  rw [← Words.sign_eq_ofInt]
  simp only [signBits, Term.eval, eval_equalBits, eval_literal, eval_negative, decide_eq_true_eq, beq_iff_eq]

theorem not_eval {x v : SymValue} (h : not x = .ok v) :
    (Data.testBools (fun a _ => !a) (x.eval model ρ) (x.eval model ρ)).map Data.truth = some (v.eval model ρ) := by
  rcases x with ⟨_ | w | w | p, t⟩ | items | items <;> cases h
  simp [Data.testBools, Data.truth, Term.negate, CoreUnary.apply]

theorem abs_eval {x v : SymValue} (h : abs x = .ok v) :
    (Data.onInteger (fun n => n.natAbs) (x.eval model ρ) <|> Data.onFloat (Data.absFloat model) (x.eval model ρ)) =
      some (v.eval model ρ) := by
  rcases x with ⟨_ | w | w | p, t⟩ | items | items <;> cases h
  · simp only [SymValue.eval_scalar, Data.onInteger_int, ← eval_absBits true]
    rfl
  · simp only [SymValue.eval_scalar, Data.onInteger_word, ← eval_absBits false]
    rfl
  · simp [Data.onInteger, Data.integer?, Data.onFloat, Data.absFloat]

theorem sign_eval {x v : SymValue} (h : sign x = .ok v) :
    (Data.onInteger Int.sign (x.eval model ρ) <|> Data.onFloat (Data.signFloat model) (x.eval model ρ)) =
      some (v.eval model ρ) := by
  rcases x with ⟨_ | w | w | p, t⟩ | items | items <;> cases h
  · simp only [SymValue.eval_scalar, Data.onInteger_int, ← eval_signBits true]
    rfl
  · simp only [SymValue.eval_scalar, Data.onInteger_word, ← eval_signBits false]
    rfl
  · simp [Data.onInteger, Data.integer?, Data.onFloat, Data.signFloat]

theorem recip_eval {x v : SymValue} (h : recip x = .ok v) :
    Data.onFloat (fun p x => model.binary (.div p) (Binary.ofInt 1) x) (x.eval model ρ) = some (v.eval model ρ) := by
  rcases x with ⟨_ | w | w | p, t⟩ | items | items <;> cases h
  simp [Data.onFloat]

theorem onFloat_eval {name : String} {build : (p : Precision) → FloatUnary (.float p) (.float p)} {x v : SymValue}
    (h : onFloat name build x = .ok v) :
    Data.onFloat (fun p => model.unary (build p)) (x.eval model ρ) = some (v.eval model ρ) := by
  rcases x with ⟨_ | w | w | p, t⟩ | items | items <;> cases h
  simp [Data.onFloat]

theorem bitNot_eval {x v : SymValue} (h : bitNot x = .ok v) :
    Data.onBits (fun _ a _ => ~~~a) (x.eval model ρ) (x.eval model ρ) = some (v.eval model ρ) := by
  rcases x with ⟨_ | w | w | p, t⟩ | items | items <;> cases h
  · simp [Data.onBits, CoreUnary.apply]
  · simp [Data.onBits, CoreUnary.apply]

theorem getField_eval {x v : SymValue} {position : Option Nat} (h : getField x (position.map Int.ofNat) = .ok v) :
    Data.unary model .getField (x.eval model ρ) .bool position = some (v.eval model ρ) := by
  rcases x with ⟨s, t⟩ | items | items
  · cases h
  · cases h
  · cases position with
    | none => cases h
    | some i =>
      simp only [getField, Option.map_some] at h
      split at h
      · next u hu =>
        cases h
        simp [Data.unary, hu]
      · cases h

theorem castScalar_eval {x v : SymValue} {t : Scalar} (h : castScalar x t = some v) :
    Data.castTo model (x.eval model ρ) t = some (v.eval model ρ) := by
  rcases x with ⟨_ | w | w | p, x⟩ | items | items
  · cases h
    rcases t with _ | u | u | q
    · rfl
    · simp [castBool, Data.castTo, Data.number?, Data.ofInteger]
      cases x.eval model ρ <;> rfl
    · simp [castBool, Data.castTo, Data.number?, Data.ofInteger]
      cases x.eval model ρ <;> rfl
    · simp [castBool, Data.castTo]
      cases x.eval model ρ <;> rfl
  · rcases t with _ | u | u | q <;> cases h
    · simp [Data.castTo, Data.number?, Data.integer?, Data.ofInteger, eval_resize, readBits]
    · simp [Data.castTo, Data.number?, Data.integer?, Data.ofInteger, eval_resize, readBits]
    · simp [Data.castTo]
  · rcases t with _ | u | u | q <;> cases h
    · simp [Data.castTo, Data.number?, Data.integer?, Data.ofInteger, eval_resize, readBits]
    · simp [Data.castTo, Data.number?, Data.integer?, Data.ofInteger, eval_resize, readBits]
    · simp [Data.castTo]
  · rcases t with _ | u | u | q <;> simp only [castScalar, castFloat] at h
    · cases h
    · cases h; simp [Data.castTo]
    · cases h; simp [Data.castTo]
    · split at h
      · next hp => subst hp; cases h; simp [Data.castTo]
      · next hp => cases h; simp [Data.castTo, hp]
  · cases h
  · cases h

theorem cast_eval {x v : SymValue} {t : StreamType} (h : cast x t = .ok v) :
    t.scalar?.bind (Data.castTo model (x.eval model ρ)) = some (v.eval model ρ) := by
  obtain ⟨s, hs, h⟩ := Outcome.bind_eq_ok_iff.1 h
  cases hc : castScalar x s with
  | none => rw [hc] at h; cases h
  | some u =>
    rw [hc] at h
    cases h
    unfold castTarget at hs
    split at hs
    · next ht =>
      cases hs
      simpa [ht] using castScalar_eval hc
    · obtain ⟨_, _, hs⟩ := Outcome.bind_eq_ok_iff.1 hs
      cases hs

theorem unary_eval {op : UnaryOp} {x v : SymValue} {t : StreamType} {position : Option Nat}
    (h : unary op x t (position.map Int.ofNat) = .ok v) :
    Data.unary model op (x.eval model ρ) t position = some (v.eval model ρ) := by
  cases op with
  | not => exact not_eval h
  | abs => exact abs_eval h
  | sign => exact sign_eval h
  | recip => exact recip_eval h
  | sqrt => exact onFloat_eval h
  | ceiling => exact onFloat_eval h
  | floor => exact onFloat_eval h
  | bitNot => exact bitNot_eval h
  | cast => exact cast_eval h
  | getField => exact getField_eval h
  | call f => exact onFloat_eval h
  | unknown name =>
    simp only [unary, unknownUnary, refuseName] at h
    split at h
    · obtain ⟨_, _, h⟩ := Outcome.bind_eq_ok_iff.1 h
      cases h
    · cases h

theorem pair_eq_ok_iff {op : String} {family : Family} {x y : SymValue}
    {s : Scalar} {a b : Term s.kind} :
    pair op family x y = .ok ⟨s, a, b⟩ ↔ x = .scalar s a ∧ y = .scalar s b ∧ family.admits s = true := by
  rcases x with ⟨s', a'⟩ | items | items
  · rcases y with ⟨t', b'⟩ | items | items
    · simp only [pair]
      split
      · next hf =>
        split
        · next hst =>
          subst hst
          simp only [Bool.and_self] at hf
          constructor
          · intro h
            cases h
            exact ⟨rfl, rfl, hf⟩
          · rintro ⟨h, h', -⟩
            cases h
            cases h'
            rfl
        · next hst =>
          constructor
          · intro h; cases h
          · rintro ⟨h, h', -⟩
            cases h
            cases h'
            exact absurd rfl hst
      · next hf =>
        constructor
        · intro h; cases h
        · rintro ⟨h, h', h''⟩
          cases h
          cases h'
          exact absurd (by simp [h'']) hf
    · simp [pair, refuse]
    · simp [pair, refuse]
  · simp [pair, refuse]
  · simp [pair, refuse]

theorem logic_eval {name : String} {core : CoreBinary .bool .bool .bool} {x y v : SymValue}
    (h : logic name core x y = .ok v) :
    (Data.testBools core.apply (x.eval model ρ) (y.eval model ρ)).map Data.truth = some (v.eval model ρ) := by
  unfold logic at h
  split at h
  · cases h
    simp [Data.testBools, Data.truth]
  · cases h

theorem arith_eval {op : Arithmetic} {x y v : SymValue} (h : arith op x y = .ok v) :
    (Data.onIntegers op.onIntegers (x.eval model ρ) (y.eval model ρ) <|>
      Data.onFloats (fun p => model.binary (.arith op p)) (x.eval model ρ) (y.eval model ρ)) =
      some (v.eval model ρ) := by
  obtain ⟨⟨s, a, b⟩, hp, h⟩ := Outcome.bind_eq_ok_iff.1 h
  obtain ⟨rfl, rfl, -⟩ := pair_eq_ok_iff.1 hp
  rcases s with _ | w | w | p <;> cases h
  · simp only [SymValue.eval_scalar, Data.onIntegers_int, ← Words.arithBits_eq true]
    rfl
  · simp only [SymValue.eval_scalar, Data.onIntegers_word, ← Words.arithBits_eq false]
    rfl
  · simp [Data.onIntegers, Data.integer?, Data.onFloats]

theorem integral_eval {name : String} {build : Bool → (w : Width) → CoreBinary (.bits w) (.bits w) (.bits w)}
    {f : Int → Int → Int}
    (hf : ∀ isSigned (w : Width) (a b : BitVec w.size),
      (build isSigned w).apply a b = BitVec.ofInt w.size (f (readBits isSigned a) (readBits isSigned b)))
    {x y v : SymValue} (h : integral name build x y = .ok v) :
    Data.onIntegers f (x.eval model ρ) (y.eval model ρ) = some (v.eval model ρ) := by
  obtain ⟨⟨s, a, b⟩, hp, h⟩ := Outcome.bind_eq_ok_iff.1 h
  obtain ⟨rfl, rfl, -⟩ := pair_eq_ok_iff.1 hp
  rcases s with _ | w | w | p <;> cases h
  · simp only [SymValue.eval_scalar, Data.onIntegers_int, ← hf true]
    rfl
  · simp only [SymValue.eval_scalar, Data.onIntegers_word, ← hf false]
    rfl

theorem div_apply (isSigned : Bool) (w : Width) (a b : BitVec w.size) :
    (CoreBinary.div isSigned w).apply a b =
      BitVec.ofInt w.size (Data.quotient (readBits isSigned a) (readBits isSigned b)) := by
  cases isSigned
  · exact Words.smtUDiv_eq_ofInt a b
  · exact Words.smtSDiv_eq_ofInt a b

theorem rem_apply (isSigned : Bool) (w : Width) (a b : BitVec w.size) :
    (CoreBinary.rem isSigned w).apply a b =
      BitVec.ofInt w.size ((readBits isSigned a).tmod (readBits isSigned b)) := by
  cases isSigned
  · exact Words.umod_eq_ofInt a b
  · exact Words.srem_eq_ofInt a b

theorem bitwise_eval {op : Bitwise} {name : String} {x y v : SymValue}
    (h : integral name (fun _ => .bitwise op) x y = .ok v) :
    Data.onBits (Data.bitwise op) (x.eval model ρ) (y.eval model ρ) = some (v.eval model ρ) := by
  obtain ⟨⟨s, a, b⟩, hp, h⟩ := Outcome.bind_eq_ok_iff.1 h
  obtain ⟨rfl, rfl, -⟩ := pair_eq_ok_iff.1 hp
  rcases s with _ | w | w | p <;> cases h
  · cases op <;> simp [Data.onBits, Data.bitwise, CoreBinary.apply, CoreBinary.bitwiseBits]
  · cases op <;> simp [Data.onBits, Data.bitwise, CoreBinary.apply, CoreBinary.bitwiseBits]

theorem onFloats_eval {name : String} {build : (p : Precision) → FloatBinary (.float p) (.float p) (.float p)}
    {x y v : SymValue} (h : onFloats name build x y = .ok v) :
    Data.onFloats (fun p => model.binary (build p)) (x.eval model ρ) (y.eval model ρ) = some (v.eval model ρ) := by
  obtain ⟨⟨s, a, b⟩, hp, h⟩ := Outcome.bind_eq_ok_iff.1 h
  obtain ⟨rfl, rfl, -⟩ := pair_eq_ok_iff.1 hp
  rcases s with _ | w | w | p <;> cases h
  simp [Data.onFloats]

theorem compare_eval {op : Comparison} {x y v : SymValue} (h : compare op x y = .ok v) :
    (Data.testIntegers op.test (x.eval model ρ) (y.eval model ρ) <|>
      Data.testFloats (fun p => model.binary (.compare op p)) (x.eval model ρ) (y.eval model ρ)).map Data.truth =
      some (v.eval model ρ) := by
  obtain ⟨⟨s, a, b⟩, hp, h⟩ := Outcome.bind_eq_ok_iff.1 h
  obtain ⟨rfl, rfl, -⟩ := pair_eq_ok_iff.1 hp
  rcases s with _ | w | w | p <;> cases h
  · simp [Data.testIntegers, Data.integer?, Data.truth, eval_compareSigned]
  · simp [Data.testIntegers, Data.integer?, Data.truth, eval_compareUnsigned]
  · simp [Data.testIntegers, Data.integer?, Data.testFloats, Data.truth]

theorem equal_eval {x y : SymValue} {t : Term .bool} (h : equal x y = .ok t) :
    Data.equal? model (x.eval model ρ) (y.eval model ρ) = some (t.eval model ρ) := by
  unfold equal at h
  split at h
  · split at h
    · cases h
      simp [Data.equal?, Data.testBools, CoreBinary.apply]
    · split at h
      · next hw =>
        subst hw
        cases h
        simp [Data.equal?, Data.testBools, Data.testIntegers_int, eval_equalBits, Words.readBits_beq]
      · cases h
    · split at h
      · next hw =>
        subst hw
        cases h
        simp [Data.equal?, Data.testBools, Data.testIntegers_word, eval_equalBits, Words.readBits_beq]
      · cases h
    · split at h
      · next hp =>
        subst hp
        cases h
        simp [Data.equal?, Data.testBools, Data.testIntegers, Data.integer?, Data.testFloats]
      · cases h
    · cases h
  · cases h

theorem shift_eval {left : Bool} {x y v : SymValue} (h : shift left x y = .ok v) :
    ((y.eval model ρ).pattern?.bind fun n =>
      Data.onInteger (fun a => if left then a * 2 ^ n else a / 2 ^ n) (x.eval model ρ)) = some (v.eval model ρ) := by
  rcases x with ⟨_ | u | u | p, a⟩ | items | items <;> rcases y with ⟨_ | w | w | q, b⟩ | items' | items' <;> cases h
  · simp [Data.pattern?, Data.onInteger_int, eval_shiftBits]
  · simp [Data.pattern?, Data.onInteger_int, eval_shiftBits]
  · simp [Data.pattern?, Data.onInteger_word, eval_shiftBits]
  · simp [Data.pattern?, Data.onInteger_word, eval_shiftBits]

theorem unknownBinary_ne_ok {name : Datum} {v : SymValue} : unknownBinary name ≠ .ok v := by
  intro h
  unfold unknownBinary at h
  split at h
  · obtain ⟨_, _, h⟩ := Outcome.bind_eq_ok_iff.1 h
    cases h
  · cases h

theorem binary_eval {op : BinaryOp} {x y v : SymValue} (h : binary op x y = .ok v) :
    Data.binary model op (x.eval model ρ) (y.eval model ρ) = some (v.eval model ρ) := by
  cases op with
  | and => exact logic_eval h
  | or => exact logic_eval h
  | arith op => exact arith_eval h
  | div => exact integral_eval div_apply h
  | mod => exact integral_eval rem_apply h
  | fdiv => exact onFloats_eval h
  | eq =>
    obtain ⟨t, ht, h⟩ := Outcome.bind_eq_ok_iff.1 h
    cases h
    simp [Data.binary, equal_eval ht, Data.truth]
  | ne =>
    obtain ⟨t, ht, h⟩ := Outcome.bind_eq_ok_iff.1 h
    cases h
    simp [Data.binary, equal_eval ht, Data.truth, Term.negate, CoreUnary.apply]
  | compare op => exact compare_eval h
  | bitwise op => exact bitwise_eval h
  | shiftLeft => exact shift_eval h
  | shiftRight => exact shift_eval h
  | call f => exact onFloats_eval h
  | index => exact absurd h unknownBinary_ne_ok
  | unknown name => exact absurd h unknownBinary_ne_ok

theorem readBits_lt_limit (i : Index) (x : BitVec i.width.size) : readBits i.isSigned x < i.limit := by
  obtain ⟨isSigned, w, t⟩ := i
  cases isSigned with
  | false =>
    have h : (x.toNat : Int) < (2 ^ w.size : Nat) := by exact_mod_cast x.isLt
    simpa [Index.limit, readBits] using h
  | true => simpa [Index.limit, readBits] using @BitVec.toInt_lt _ x

theorem eval_equalBits_literal (i : Index) {position : Nat} (h : position < i.limit) :
    (equalBits i.term (literal position)).eval model ρ =
      decide (readBits i.isSigned (i.term.eval model ρ) = position) := by
  have hp : readBits i.isSigned (BitVec.ofInt i.width.size position) = position := by
    obtain ⟨isSigned, w, t⟩ := i
    cases isSigned with
    | false =>
      simp only [Index.limit, Nat.pow_eq, Bool.false_eq_true, if_false] at h
      simp [readBits, Nat.mod_eq_of_lt h]
    | true =>
      simp only [Index.limit, Nat.pow_eq, if_true] at h
      have hpos : (0 : Int) < 2 ^ (w.size - 1) := Int.pow_pos (by decide)
      exact BitVec.toInt_ofInt_eq_self w.size_pos (by omega) (by exact_mod_cast h)
  rw [eval_equalBits, eval_literal, ← Words.readBits_beq i.isSigned, hp]
  rfl

theorem lookupFrom_eval {i : Index} {outside v : SymValue} {position : Nat} {items : List SymValue}
    (h : lookupFrom i outside position items = .ok v) :
    v.eval model ρ = (Data.lookup? (items.map (SymValue.eval model ρ))
      (readBits i.isSigned (i.term.eval model ρ) - position)).getD (outside.eval model ρ) := by
  have hlimit := readBits_lt_limit i (i.term.eval model ρ)
  induction items generalizing position v with
  | nil =>
    cases h
    simp [Data.lookup?]
  | cons u rest ih =>
    obtain ⟨others, ho, h⟩ := Outcome.bind_eq_ok_iff.1 h
    have hi := ih ho
    split at h
    · next hle =>
      cases h
      rw [hi, Data.lookup?, Data.lookup?, if_neg (by omega), if_neg (by omega)]
    · next hlt =>
      split at h
      · rw [SymValue.select_eval h, eval_equalBits_literal i (by omega), hi]
        generalize readBits i.isSigned (i.term.eval model ρ) = z
        simp only [decide_eq_true_eq, List.map_cons]
        rcases lt_trichotomy z position with hz | hz | hz
        · rw [if_neg (by omega), Data.lookup?, Data.lookup?, if_neg (by omega), if_neg (by omega)]
        · simp [hz, Data.lookup?]
        · have hs : (z - position).toNat = (z - (position + 1 : Nat)).toNat + 1 := by omega
          rw [if_neg (by omega), Data.lookup?, Data.lookup?, if_pos (by omega), if_pos (by omega), hs,
            List.getElem?_cons_succ]
      · cases h

theorem lookup_eval {items : List SymValue} {i : Index} {outside v : SymValue}
    (h : lookup items i outside = .ok v) :
    v.eval model ρ = (Data.lookup? (items.map (SymValue.eval model ρ))
      (readBits i.isSigned (i.term.eval model ρ))).getD (outside.eval model ρ) := by
  have h0 : v.eval model ρ = _ := lookupFrom_eval h
  simpa using h0

def Index.operand : Index → SymValue
  | ⟨true, w, t⟩ => .scalar (.int w) t
  | ⟨false, w, t⟩ => .scalar (.word w) t

@[simp] theorem Index.operand_signed (w : Width) (t : Term (.bits w)) :
    Index.operand ⟨true, w, t⟩ = .scalar (.int w) t := rfl

@[simp] theorem Index.operand_unsigned (w : Width) (t : Term (.bits w)) :
    Index.operand ⟨false, w, t⟩ = .scalar (.word w) t := rfl

theorem integer?_operand (model : FloatModel) (ρ : Assignment) (i : Index) :
    (i.operand.eval model ρ).integer? = some (readBits i.isSigned (i.term.eval model ρ)) := by
  obtain ⟨isSigned, w, t⟩ := i
  cases isSigned with
  | false => simp [Data.integer?, readBits]
  | true => simp [Data.integer?, readBits]

theorem Index.eval_term_eq {i : Index} {ρ' : Assignment} (h : i.operand.eval model ρ' = i.operand.eval model ρ) :
    i.term.eval model ρ' = i.term.eval model ρ := by
  obtain ⟨isSigned, w, t⟩ := i
  cases isSigned with
  | false => simpa using h
  | true => simpa using h

theorem indexOperands_eq_ok_iff {x y : SymValue} {items : List SymValue} {i : Index} :
    indexOperands x y = .ok (items, i) ↔ x = .array items ∧ y = i.operand := by
  constructor
  · intro h
    obtain ⟨items', hx, h⟩ := Outcome.bind_eq_ok_iff.1 h
    rcases x with ⟨s, t⟩ | xs | xs <;> cases hx
    rcases y with ⟨_ | w | w | p, t⟩ | ys | ys <;> cases h
    · exact ⟨rfl, rfl⟩
    · exact ⟨rfl, rfl⟩
  · rintro ⟨rfl, rfl⟩
    obtain ⟨isSigned, w, t⟩ := i
    cases isSigned <;> rfl

theorem ternary_eval (model : FloatModel) (ρ : Assignment) {op : TernaryOp} {x y z v : SymValue}
    (h : ternary op x y z = .ok v) :
    ∃ b, op = .mux ∧ x.eval model ρ = Data.truth b ∧
      v.eval model ρ = if b then y.eval model ρ else z.eval model ρ := by
  cases op with
  | mux =>
    obtain ⟨cond, hc, h⟩ := Outcome.bind_eq_ok_iff.1 h
    rcases x with ⟨_ | w | w | p, t⟩ | xs | xs <;> cases hc
    exact ⟨_, rfl, SymValue.eval_scalar .., SymValue.select_eval h⟩
  | unknown name =>
    obtain ⟨_, _, h⟩ := Outcome.bind_eq_ok_iff.1 h
    cases h

end Operator

end OneStep
