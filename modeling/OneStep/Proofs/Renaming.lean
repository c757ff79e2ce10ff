import OneStep.Proofs.Literals

namespace OneStep

namespace Term

@[simp] def rename (f : Symbol → Symbol) {k : Kind} : Term k → Term k
  | .bool b => .bool b
  | .bits v => .bits v
  | .float x => .float x
  | .symbol s k => .symbol (f s) k
  | .unary op x => .unary op (x.rename f)
  | .binary op x y => .binary op (x.rename f) (y.rename f)
  | .floatUnary op x => .floatUnary op (x.rename f)
  | .floatBinary op x y => .floatBinary op (x.rename f) (y.rename f)
  | .ite c x y => .ite (c.rename f) (x.rename f) (y.rename f)

variable {f : Symbol → Symbol}

theorem rename_injective (hf : Function.Injective f) {k : Kind} :
    Function.Injective (rename f : Term k → Term k) := by
  intro t
  induction t with
  | bool b => intro t' h; cases t' <;> simp_all [rename]
  | bits v => intro t' h; cases t' <;> simp_all [rename]
  | float x => intro t' h; cases t' <;> simp_all [rename]
  | symbol s k =>
    intro t' h
    cases t' <;> simp only [rename, reduceCtorEq, symbol.injEq] at h
    rw [hf h]
  | unary op x ih =>
    intro t' h
    cases t' <;> simp only [rename, reduceCtorEq, unary.injEq] at h
    obtain ⟨rfl, ho, hx⟩ := h
    rw [eq_of_heq ho, ih (eq_of_heq hx)]
  | binary op x y ihx ihy =>
    intro t' h
    cases t' <;> simp only [rename, reduceCtorEq, binary.injEq] at h
    obtain ⟨rfl, rfl, ho, hx, hy⟩ := h
    rw [eq_of_heq ho, ihx (eq_of_heq hx), ihy (eq_of_heq hy)]
  | floatUnary op x ih =>
    intro t' h
    cases t' <;> simp only [rename, reduceCtorEq, floatUnary.injEq] at h
    obtain ⟨rfl, ho, hx⟩ := h
    rw [eq_of_heq ho, ih (eq_of_heq hx)]
  | floatBinary op x y ihx ihy =>
    intro t' h
    cases t' <;> simp only [rename, reduceCtorEq, floatBinary.injEq] at h
    obtain ⟨rfl, rfl, ho, hx, hy⟩ := h
    rw [eq_of_heq ho, ihx (eq_of_heq hx), ihy (eq_of_heq hy)]
  | ite c x y ihc ihx ihy =>
    intro t' h
    cases t' <;> simp only [rename, reduceCtorEq, ite.injEq] at h
    rw [ihc h.1, ihx h.2.1, ihy h.2.2]

@[simp] theorem isLiteral_rename {k : Kind} (t : Term k) : (t.rename f).isLiteral = t.isLiteral := by
  cases t <;> rfl

theorem eval_rename (model : FloatModel) (ρ : Assignment) {k : Kind} (t : Term k) :
    (t.rename f).eval model ρ = t.eval model fun s => ρ (f s) := by
  induction t with
  | bool b => rfl
  | bits v => rfl
  | float x => rfl
  | symbol s k => rfl
  | unary op x ih => simp only [rename, eval, ih]
  | binary op x y ihx ihy => simp only [rename, eval, ihx, ihy]
  | floatUnary op x ih => simp only [rename, eval, ih]
  | floatBinary op x y ihx ihy => simp only [rename, eval, ihx, ihy]
  | ite c x y ihc ihx ihy => simp only [rename, eval, ihc, ihx, ihy]

theorem valid_rename_iff (hf : Function.Injective f) (model : FloatModel) (t : Term .bool) :
    (∀ ρ, (t.rename f).eval model ρ = true) ↔ ∀ ρ, t.eval model ρ = true := by
  constructor
  · intro h ρ
    have : Nonempty Symbol := ⟨⟨"", none⟩⟩
    have hi := h fun s => ρ (Function.invFun f s)
    rw [eval_rename] at hi
    simpa only [Function.leftInverse_invFun hf _] using hi
  · intro h ρ
    rw [eval_rename]
    exact h _

end Term

namespace SymValue

def rename (f : Symbol → Symbol) (v : SymValue) : SymValue :=
  Value.map (fun _ t => t.rename f) v

variable {f : Symbol → Symbol}

@[simp] theorem rename_scalar (s : Scalar) (t : Term s.kind) : rename f (.scalar s t) = .scalar s (t.rename f) := by
  simp [rename]

@[simp] theorem rename_array (items : List SymValue) : rename f (.array items) = .array (items.map (rename f)) := by
  simp only [rename, Value.map_array]
  rfl

@[simp] theorem rename_struct (items : List SymValue) : rename f (.struct items) = .struct (items.map (rename f)) := by
  simp only [rename, Value.map_struct]
  rfl

@[simp] theorem tag_rename (v : SymValue) : (rename f v).tag = v.tag :=
  Value.map_tag _ v

@[simp] theorem tag_scalar (s : Scalar) (t : Term s.kind) : (Value.scalar s t : SymValue).tag = .scalar s := rfl

@[simp] theorem tag_struct (items : List SymValue) : (Value.struct items : SymValue).tag = .struct := rfl

@[simp] theorem tag_array_rename (items : List SymValue) :
    (Value.array (items.map (rename f)) : SymValue).tag = (Value.array items : SymValue).tag := by
  cases items <;> rfl

theorem rename_injective (hf : Function.Injective f) : Function.Injective (rename f) :=
  Value.map_injective fun _ => Term.rename_injective hf

@[simp] theorem describe_rename (vs : List SymValue) : describe (vs.map (rename f)) = describe vs := by
  simp [describe, Function.comp_def]

theorem zipItems_rename {cond : Term .bool} {xs ys : List SymValue}
    (ih : ∀ x ∈ xs, ∀ y, select (cond.rename f) (rename f x) (rename f y) = rename f <$> select cond x y) :
    zipItems (fun a b => .ok (.ite (cond.rename f) a b)) (xs.map (rename f)) (ys.map (rename f)) =
      List.map (rename f) <$> zipItems (fun a b => .ok (.ite cond a b)) xs ys := by
  induction xs generalizing ys with
  | nil => cases ys <;> rfl
  | cons x xs iht =>
    cases ys with
    | nil => rfl
    | cons y ys =>
      have hx := ih x (List.mem_cons_self ..) y
      have hs := @iht ys fun x hx => ih x (List.mem_cons_of_mem _ hx)
      unfold select at hx
      simp only [List.map_cons, zipItems, hx, hs]
      cases zip (fun a b => .ok (.ite cond a b)) x y with
      | error e => rfl
      | ok v => cases zipItems (fun a b => .ok (.ite cond a b)) xs ys <;> rfl

theorem differ_rename (x y : SymValue) :
    (differ (rename f x) (rename f y) : Except Fault SymValue) = rename f <$> differ x y := by
  simp only [differ, tag_rename]
  rfl

theorem select_rename (cond : Term .bool) (x y : SymValue) :
    select (cond.rename f) (rename f x) (rename f y) = rename f <$> select cond x y := by
  induction x using Value.shape_induction generalizing y with
  | scalar s a =>
    cases y with
    | scalar t b =>
      by_cases h : s = t
      · subst h
        simp [select, zip]
      · simp only [select, rename_scalar, zip, dif_neg h]
        exact differ_rename (.scalar s a) (.scalar t b)
    | array ys => exact differ_rename (.scalar s a) (.array ys)
    | struct ys => exact differ_rename (.scalar s a) (.struct ys)
  | array xs ih =>
    cases y with
    | scalar t b => exact differ_rename (.array xs) (.scalar t b)
    | array ys =>
      have hx : (Value.array (xs.map (rename f)) : SymValue).tag = (Value.array xs : SymValue).tag := by
        rw [← rename_array, tag_rename]
      have hy : (Value.array (ys.map (rename f)) : SymValue).tag = (Value.array ys : SymValue).tag := by
        rw [← rename_array, tag_rename]
      simp only [select, rename_array, zip, hx, hy, List.length_map, zipItems_rename ih]
      split
      · split
        · cases zipItems (fun a b => .ok (.ite cond a b)) xs ys with
          | error e => rfl
          | ok vs => simp [pure, Except.pure, bind, Except.bind]
        · simp only [differInLength, List.length_map]
          rfl
      · have hd := differ_rename (f := f) (.array xs) (.array ys)
        simpa only [rename_array] using hd
    | struct ys =>
      have hd := differ_rename (f := f) (.array xs) (.struct ys)
      simpa only [rename_array, rename_struct, select, zip] using hd
  | struct xs ih =>
    cases y with
    | scalar t b => exact differ_rename (.struct xs) (.scalar t b)
    | array ys =>
      have hd := differ_rename (f := f) (.struct xs) (.array ys)
      simpa only [rename_array, rename_struct, select, zip] using hd
    | struct ys =>
      simp only [select, rename_struct, zip, List.length_map, zipItems_rename ih]
      split
      · cases zipItems (fun a b => .ok (.ite cond a b)) xs ys with
        | error e => rfl
        | ok vs => simp [pure, Except.pure, bind, Except.bind]
      · simp only [differInLength, List.length_map]
        rfl

end SymValue

namespace Operator

open SymValue (rename)

variable {f : Symbol → Symbol}

theorem refuse_rename {α β : Type} (g : α → β) (op : String) (family : Family) (vs : List SymValue) :
    refuse op family (vs.map (rename f)) = g <$> (refuse op family vs : Except Fault α) := by
  simp only [refuse, SymValue.describe_rename]
  rfl

@[simp] theorem literal_rename {w : Width} (n : Int) : (literal n : Term (.bits w)).rename f = literal n := rfl

@[simp] theorem floatLiteral_rename {p : Precision} (n : Int) :
    (floatLiteral n : Term (.float p)).rename f = floatLiteral n := rfl

@[simp] theorem swapsOperands_rename {w : Width} (x y : Term (.bits w)) :
    swapsOperands (x.rename f) (y.rename f) = swapsOperands x y := by
  simp [swapsOperands]

@[simp] theorem equalBits_rename {w : Width} (x y : Term (.bits w)) :
    (equalBits x y).rename f = equalBits (x.rename f) (y.rename f) := by
  simp only [equalBits, swapsOperands_rename]
  split <;> rfl

@[simp] theorem compareSigned_rename (op : Comparison) {w : Width} (x y : Term (.bits w)) :
    (compareSigned op x y).rename f = compareSigned op (x.rename f) (y.rename f) := by
  simp only [compareSigned, swapsOperands_rename]
  split <;> rfl

@[simp] theorem compareUnsigned_rename (op : Comparison) {w : Width} (x y : Term (.bits w)) :
    (compareUnsigned op x y).rename f = compareUnsigned op (x.rename f) (y.rename f) := rfl

@[simp] theorem negateBits_rename {w : Width} (x : Term (.bits w)) :
    (negateBits x).rename f = negateBits (x.rename f) := rfl

@[simp] theorem signBits_rename {w : Width} (b : Term .bool) (x : Term (.bits w)) :
    (signBits b x).rename f = signBits (b.rename f) (x.rename f) := by
  simp [signBits]

@[simp] theorem resize_rename (isSigned : Bool) {v : Width} (w : Width) (x : Term (.bits v)) :
    (resize isSigned w x).rename f = resize isSigned w (x.rename f) := by
  unfold resize
  split
  · next h =>
    subst h
    rfl
  · split <;> rfl

@[simp] theorem shiftBits_rename (left isSigned : Bool) {v w : Width} (x : Term (.bits v)) (amount : Term (.bits w)) :
    (shiftBits left isSigned x amount).rename f = shiftBits left isSigned (x.rename f) (amount.rename f) := by
  simp [shiftBits]

theorem not_rename (x : SymValue) : not (rename f x) = rename f <$> not x := by
  rcases x with ⟨_ | w | w | p, t⟩ | xs | xs <;> simp [not, refuse, SymValue.describe, Term.negate]

theorem abs_rename (x : SymValue) : abs (rename f x) = rename f <$> abs x := by
  rcases x with ⟨_ | w | w | p, t⟩ | xs | xs <;> simp [abs, refuse, SymValue.describe]

theorem sign_rename (x : SymValue) : sign (rename f x) = rename f <$> sign x := by
  rcases x with ⟨_ | w | w | p, t⟩ | xs | xs <;> simp [sign, refuse, SymValue.describe]

theorem recip_rename (x : SymValue) : recip (rename f x) = rename f <$> recip x := by
  rcases x with ⟨_ | w | w | p, t⟩ | xs | xs <;> simp [recip, refuse, SymValue.describe]

theorem onFloat_rename (op : String) (build : (p : Precision) → FloatUnary (.float p) (.float p)) (x : SymValue) :
    onFloat op build (rename f x) = rename f <$> onFloat op build x := by
  rcases x with ⟨_ | w | w | p, t⟩ | xs | xs <;> simp [onFloat, refuse, SymValue.describe]

theorem bitNot_rename (x : SymValue) : bitNot (rename f x) = rename f <$> bitNot x := by
  rcases x with ⟨_ | w | w | p, t⟩ | xs | xs <;> simp [bitNot, refuse, SymValue.describe]

theorem getField_rename (x : SymValue) (position : Option Int) :
    getField (rename f x) position = rename f <$> getField x position := by
  rcases x with ⟨s, t⟩ | xs | xs
  · simp [getField]
  · simp [getField]
  · rcases position with _ | i | i
    · simp [getField]
    · simp only [SymValue.rename_struct, getField, List.getElem?_map, List.length_map]
      cases xs[i]? <;> rfl
    · simp [getField]

theorem castBits_rename (isSigned : Bool) {v : Width} (x : Term (.bits v)) (t : Scalar) :
    castBits isSigned (x.rename f) t = (castBits isSigned x t).map (rename f) := by
  cases t <;> simp [castBits]

theorem castBool_rename (x : Term .bool) (t : Scalar) : castBool (x.rename f) t = rename f (castBool x t) := by
  cases t <;> simp [castBool]

theorem castFloat_rename {p : Precision} (x : Term (.float p)) (t : Scalar) :
    castFloat (x.rename f) t = (castFloat x t).map (rename f) := by
  cases t with
  | float q =>
    simp only [castFloat]
    split
    · next h =>
      subst h
      simp
    · simp
  | _ => simp [castFloat]

theorem castScalar_rename (x : SymValue) (t : Scalar) :
    castScalar (rename f x) t = (castScalar x t).map (rename f) := by
  rcases x with ⟨_ | w | w | p, a⟩ | xs | xs
  · simp [castScalar, castBool_rename]
  · simp [castScalar, castBits_rename]
  · simp [castScalar, castBits_rename]
  · simp [castScalar, castFloat_rename]
  · rfl
  · rfl

theorem cast_rename (x : SymValue) (t : StreamType) : cast (rename f x) t = rename f <$> cast x t := by
  simp only [cast, castScalar_rename, SymValue.tag_rename]
  cases castTarget t with
  | error e => rfl
  | ok k =>
    cases hc : castScalar x k with
    | none =>
      simp only [bind, Except.bind, hc, Option.map_none]
      rfl
    | some v => simp [bind, Except.bind, hc]

theorem refuseName_map {α β : Type} (g : α → β) (arity : String) (name : Datum) :
    g <$> (refuseName arity name : Except Fault α) = refuseName arity name := by
  unfold refuseName
  cases name.asText <;> rfl

theorem unknownUnary_map {α β : Type} (g : α → β) (name : Datum) :
    g <$> (unknownUnary name : Except Fault α) = unknownUnary name := by
  unfold unknownUnary
  split
  · exact refuseName_map g "unary" name
  · rfl

theorem unary_rename (op : UnaryOp) (x : SymValue) (t : StreamType) (position : Option Int) :
    unary op (rename f x) t position = rename f <$> unary op x t position := by
  cases op with
  | not => exact not_rename x
  | abs => exact abs_rename x
  | sign => exact sign_rename x
  | recip => exact recip_rename x
  | sqrt => exact onFloat_rename _ _ x
  | ceiling => exact onFloat_rename _ _ x
  | floor => exact onFloat_rename _ _ x
  | bitNot => exact bitNot_rename x
  | cast => exact cast_rename x t
  | getField => exact getField_rename x position
  | call g => exact onFloat_rename _ _ x
  | unknown name => exact (unknownUnary_map (rename f) name).symm

def renamePair (f : Symbol → Symbol) (p : (s : Scalar) × Term s.kind × Term s.kind) :
    (s : Scalar) × Term s.kind × Term s.kind :=
  ⟨p.1, p.2.1.rename f, p.2.2.rename f⟩

theorem pair_rename (op : String) (family : Family) (x y : SymValue) :
    pair op family (rename f x) (rename f y) = renamePair f <$> pair op family x y := by
  have hr := refuse_rename (f := f) (renamePair f) op family [x, y]
  rcases x with ⟨s, a⟩ | xs | xs
  · rcases y with ⟨t, b⟩ | ys | ys
    · simp only [SymValue.rename_scalar, pair]
      split
      · split
        · next h =>
          subst h
          rfl
        · simp [SymValue.describe]
      · simpa using hr
    · simpa [pair] using hr
    · simpa [pair] using hr
  · simpa [pair] using hr
  · simpa [pair] using hr

theorem logic_rename (op : String) (core : CoreBinary .bool .bool .bool) (x y : SymValue) :
    logic op core (rename f x) (rename f y) = rename f <$> logic op core x y := by
  have hr := refuse_rename (f := f) (rename f) op .bool [x, y]
  rcases x with ⟨_ | w | w | p, a⟩ | xs | xs
  · rcases y with ⟨_ | v | v | q, b⟩ | ys | ys
    · simp [logic]
    all_goals simpa [logic] using hr
  all_goals simpa [logic] using hr

theorem arith_rename (op : Arithmetic) (x y : SymValue) :
    arith op (rename f x) (rename f y) = rename f <$> arith op x y := by
  have hr := refuse_rename (f := f) (rename f) (BinaryOp.arith op).name .numeric [x, y]
  simp only [arith, pair_rename]
  cases pair (BinaryOp.arith op).name .numeric x y with
  | error e => rfl
  | ok p =>
    obtain ⟨_ | w | w | p, a, b⟩ := p
    · exact hr
    all_goals simp [bind, Except.bind, pure, Except.pure, renamePair]

theorem integral_rename (op : String) (build : Bool → (w : Width) → CoreBinary (.bits w) (.bits w) (.bits w))
    (x y : SymValue) : integral op build (rename f x) (rename f y) = rename f <$> integral op build x y := by
  have hr := refuse_rename (f := f) (rename f) op .integral [x, y]
  simp only [integral, pair_rename]
  cases pair op .integral x y with
  | error e => rfl
  | ok p =>
    obtain ⟨_ | w | w | p, a, b⟩ := p
    · exact hr
    · simp [bind, Except.bind, pure, Except.pure, renamePair]
    · simp [bind, Except.bind, pure, Except.pure, renamePair]
    · exact hr

theorem onFloats_rename (op : String) (build : (p : Precision) → FloatBinary (.float p) (.float p) (.float p))
    (x y : SymValue) : onFloats op build (rename f x) (rename f y) = rename f <$> onFloats op build x y := by
  have hr := refuse_rename (f := f) (rename f) op .float [x, y]
  simp only [onFloats, pair_rename]
  cases pair op .float x y with
  | error e => rfl
  | ok p =>
    obtain ⟨_ | w | w | p, a, b⟩ := p
    · exact hr
    · exact hr
    · exact hr
    · simp [bind, Except.bind, pure, Except.pure, renamePair]

theorem compare_rename (op : Comparison) (x y : SymValue) :
    compare op (rename f x) (rename f y) = rename f <$> compare op x y := by
  have hr := refuse_rename (f := f) (rename f) (BinaryOp.compare op).name .numeric [x, y]
  simp only [compare, pair_rename]
  cases pair (BinaryOp.compare op).name .numeric x y with
  | error e => rfl
  | ok p =>
    obtain ⟨_ | w | w | p, a, b⟩ := p
    · exact hr
    all_goals simp [bind, Except.bind, pure, Except.pure, renamePair]

theorem equal_rename (x y : SymValue) : equal (rename f x) (rename f y) = Term.rename f <$> equal x y := by
  simp only [equal, SymValue.tag_rename]
  split
  · next htag =>
    rcases x with ⟨s, a⟩ | xs | xs
    · rcases y with ⟨t, b⟩ | ys | ys
      · cases htag
        cases s <;> simp
      · cases ys <;> cases htag
      · cases htag
    · simp [SymValue.describe]
    · simp [SymValue.describe]
  · simp [SymValue.describe]

theorem shift_rename (left : Bool) (x y : SymValue) :
    shift left (rename f x) (rename f y) = rename f <$> shift left x y := by
  have hr := refuse_rename (f := f) (rename f) (if left then BinaryOp.shiftLeft else BinaryOp.shiftRight).name
    .integral [x, y]
  rcases x with ⟨_ | w | w | p, a⟩ | xs | xs
  · simpa [shift] using hr
  · rcases y with ⟨_ | v | v | q, b⟩ | ys | ys
    · simpa [shift] using hr
    · simp [shift]
    · simp [shift]
    all_goals simpa [shift] using hr
  · rcases y with ⟨_ | v | v | q, b⟩ | ys | ys
    · simpa [shift] using hr
    · simp [shift]
    · simp [shift]
    all_goals simpa [shift] using hr
  all_goals simpa [shift] using hr

theorem unknownBinary_map {α β : Type} (g : α → β) (name : Datum) :
    g <$> (unknownBinary name : Except Fault α) = unknownBinary name := by
  unfold unknownBinary
  split
  · exact refuseName_map g "binary" name
  · rfl

theorem binary_rename (op : BinaryOp) (x y : SymValue) :
    binary op (rename f x) (rename f y) = rename f <$> binary op x y := by
  cases op with
  | and => exact logic_rename _ _ x y
  | or => exact logic_rename _ _ x y
  | arith op => exact arith_rename op x y
  | div => exact integral_rename _ _ x y
  | mod => exact integral_rename _ _ x y
  | fdiv => exact onFloats_rename _ _ x y
  | eq =>
    simp only [binary, equal_rename]
    cases equal x y <;> simp [bind, Except.bind, pure, Except.pure]
  | ne =>
    simp only [binary, equal_rename]
    cases equal x y <;> simp [bind, Except.bind, pure, Except.pure, Term.negate]
  | compare op => exact compare_rename op x y
  | bitwise op => exact integral_rename (BinaryOp.bitwise op).name (fun _ => .bitwise op) x y
  | shiftLeft => exact shift_rename true x y
  | shiftRight => exact shift_rename false x y
  | call g => exact onFloats_rename _ _ x y
  | index => exact (unknownBinary_map (rename f) _).symm
  | unknown name => exact (unknownBinary_map (rename f) name).symm

def Index.rename (f : Symbol → Symbol) (i : Index) : Index :=
  ⟨i.isSigned, i.width, i.term.rename f⟩

theorem indexOperands_rename (x y : SymValue) :
    indexOperands (rename f x) (rename f y) =
      (fun p => (p.1.map (rename f), p.2.rename f)) <$> indexOperands x y := by
  have hr := fun g : List SymValue × Index → List SymValue × Index => refuse_rename (f := f) g "index" .integral [y]
  rcases x with ⟨s, a⟩ | xs | xs
  · rfl
  · rw [SymValue.rename_array]
    rcases y with ⟨_ | w | w | p, b⟩ | ys | ys
    · rfl
    · rfl
    · rfl
    · rfl
    · simpa [indexOperands, indexedItems, bind, Except.bind] using hr _
    · rfl
  · rfl

theorem lookupFrom_rename (i : Index) (outside : SymValue) (position : Nat) (items : List SymValue) :
    lookupFrom (i.rename f) (rename f outside) position (items.map (rename f)) =
      rename f <$> lookupFrom i outside position items := by
  induction items generalizing position with
  | nil => rfl
  | cons v rest ih =>
    simp only [List.map_cons, lookupFrom, ih]
    cases lookupFrom i outside (position + 1) rest with
    | error e => rfl
    | ok others =>
      have hs := SymValue.select_rename (f := f) (equalBits i.term (literal position)) v others
      rw [equalBits_rename, literal_rename] at hs
      simp only [bind, Except.bind, Functor.map, Except.map, SymValue.tag_rename] at hs ⊢
      by_cases hl : i.limit ≤ position
      · rw [if_pos hl, if_pos (show (i.rename f).limit ≤ position from hl)]
        rfl
      · rw [if_neg hl, if_neg (show ¬(i.rename f).limit ≤ position from hl)]
        split
        · exact hs
        · rfl

theorem ternary_rename (op : TernaryOp) (x y z : SymValue) :
    ternary op (rename f x) (rename f y) (rename f z) = rename f <$> ternary op x y z := by
  cases op with
  | mux =>
    rcases x with ⟨_ | w | w | p, c⟩ | xs | xs
    · have hs := SymValue.select_rename (f := f) c y z
      simpa [ternary, muxCondition, bind, Except.bind] using hs
    all_goals simp [ternary, muxCondition, bind, Except.bind]
  | unknown name => exact (refuseName_map (rename f) "ternary" name).symm

end Operator

theorem Constant.rename_of_encode {f : Symbol → Symbol} {t : StreamType} {d : Datum} {v : SymValue}
    (h : encode t d = .ok v) : v.rename f = v := by
  refine encode_induction (motive := fun _ _ v => v.rename f = v)
    ?bool ?int ?word ?single ?double ?empty ?array ?struct h
  case bool => exact fun _ => rfl
  case int => exact fun _ _ _ => rfl
  case word => exact fun _ _ _ => rfl
  case single => exact fun _ _ _ => rfl
  case double => exact fun _ _ _ => rfl
  case empty => exact fun _ _ => rfl
  case array =>
    intro element d items vs _ _ hvs
    rw [SymValue.rename_array, List.map_congr_left (g := id), List.map_id]
    intro v hv
    obtain ⟨_, _, hr⟩ := Outcome.forall₂_exists_of_mem hvs.flip hv
    exact hr
  case struct =>
    intro name fields d values vs _ _ hvs
    rw [SymValue.rename_struct, List.map_congr_left (g := id), List.map_id]
    intro v hv
    obtain ⟨_, _, hr⟩ := Outcome.forall₂_exists_of_mem hvs.flip hv
    exact hr

end OneStep
