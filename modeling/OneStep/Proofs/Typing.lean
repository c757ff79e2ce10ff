import OneStep.Proofs.Literals
import OneStep.Proofs.Names

namespace OneStep

namespace StreamType

open Operator (Family)

theorem isIntegral_iff {t : StreamType} :
    t.isIntegral = true ↔ ∃ k, t = .ofScalar k ∧ Family.integral.admits k = true := by
  simp only [← scalar?_eq_some_iff, isIntegral]
  cases t.scalar? with
  | none => simp
  | some k => cases k <;> simp [Family.admits]

theorem isFloating_iff {t : StreamType} :
    t.isFloating = true ↔ ∃ k, t = .ofScalar k ∧ Family.float.admits k = true := by
  simp only [← scalar?_eq_some_iff, isFloating]
  cases t.scalar? with
  | none => simp
  | some k => cases k <;> simp [Family.admits]

theorem isNumeric_iff {t : StreamType} :
    t.isNumeric = true ↔ ∃ k, t = .ofScalar k ∧ Family.numeric.admits k = true := by
  simp only [← scalar?_eq_some_iff, isNumeric, isIntegral, isFloating]
  cases t.scalar? with
  | none => simp
  | some k => cases k <;> simp [Family.admits]

theorem isScalar_iff {t : StreamType} : t.isScalar = true ↔ ∃ k, t = .ofScalar k := by
  simp only [← scalar?_eq_some_iff, isScalar, Option.isSome_iff_exists]

mutual

def isKnown : StreamType → Bool
  | .array _ element => element.isKnown
  | .struct _ fields => fieldsKnown fields
  | t => t.isScalar

def fieldsKnown : List (String × StreamType) → Bool
  | [] => true
  | (_, t) :: fields => t.isKnown && fieldsKnown fields

end

theorem fieldsKnown_iff {fields : List (String × StreamType)} :
    fieldsKnown fields = true ↔ ∀ f ∈ fields, f.2.isKnown = true := by
  induction fields with
  | nil => simp [fieldsKnown]
  | cons f fields ih =>
    obtain ⟨name, t⟩ := f
    simp [fieldsKnown, ih]

theorem isKnown_ofScalar (k : Scalar) : (ofScalar k).isKnown = true := by
  cases k with
  | bool => rfl
  | int w => cases w <;> rfl
  | word w => cases w <;> rfl
  | float p => cases p <;> rfl

theorem mem_of_findField? {fields : List (String × StreamType)} {name : String} {i : Nat} {t : StreamType}
    (h : findField? fields name = some (i, t)) : fields[i]? = some (name, t) := by
  induction fields generalizing i with
  | nil => cases h
  | cons f fields ih =>
    obtain ⟨name', t'⟩ := f
    rw [findField?] at h
    split at h
    · next hn =>
      cases h
      simp [hn]
    · obtain ⟨⟨j, t''⟩, hj, he⟩ := Option.map_eq_some_iff.1 h
      cases he
      simpa using ih hj

end StreamType

def UnaryOp.Admits (op : UnaryOp) (arg : StreamType) (field : Datum) (result : StreamType) : Prop :=
  match op with
  | .not => arg = .bool ∧ result = .bool
  | .abs | .sign => arg.isNumeric = true ∧ result = arg
  | .recip | .sqrt | .ceiling | .floor | .call _ => arg.isFloating = true ∧ result = arg
  | .bitNot => arg.isIntegral = true ∧ result = arg
  | .cast => arg.isScalar = true ∧ result.isScalar = true ∧ (result = .bool → arg = .bool)
  | .getField => ∃ name fields i, arg = .struct name fields ∧ StreamType.findNamed? fields field = some (i, result)
  | .unknown _ => False

def BinaryOp.Admits (op : BinaryOp) (left right result : StreamType) : Prop :=
  match op with
  | .and | .or => left = .bool ∧ right = .bool ∧ result = .bool
  | .arith _ => left.isNumeric = true ∧ right = left ∧ result = left
  | .div | .mod | .bitwise _ => left.isIntegral = true ∧ right = left ∧ result = left
  | .fdiv | .call _ => left.isFloating = true ∧ right = left ∧ result = left
  | .eq | .ne => left.isScalar = true ∧ right = left ∧ result = .bool
  | .compare _ => left.isNumeric = true ∧ right = left ∧ result = .bool
  | .shiftLeft | .shiftRight => left.isIntegral = true ∧ right.isIntegral = true ∧ result = left
  | .index => (∃ length, left = .array length result) ∧ right.isIntegral = true
  | .unknown _ => False

inductive Expr.WellTyped (registry : Registry) (inputType : String → StreamType) : Expr → Prop where
  | const {t : StreamType} {d : Datum} (known : t.isKnown = true) (fits : (Data.read? t d).isSome = true) :
    WellTyped registry inputType (.const t d)
  | drop {t : StreamType} {k id : Int} {st : Stream} (declared : registry.find? id = some st) (typed : t = st.type)
    (nonneg : 0 ≤ k) (le_length : k ≤ st.buffer.length) : WellTyped registry inputType (.drop t k id)
  | input {t : StreamType} {name : String} (known : t.isKnown = true) (typed : t = inputType name) :
    WellTyped registry inputType (.input t name)
  | unary {t : StreamType} {op : UnaryOp} {arg : Expr} {field : Datum} (operand : WellTyped registry inputType arg)
    (admits : op.Admits arg.type field t) : WellTyped registry inputType (.unary t op arg field)
  | binary {t : StreamType} {op : BinaryOp} {left right : Expr} (first : WellTyped registry inputType left)
    (second : WellTyped registry inputType right) (admits : op.Admits left.type right.type t) :
    WellTyped registry inputType (.binary t op left right)
  | mux {t : StreamType} {cond whenTrue whenFalse : Expr} (first : WellTyped registry inputType cond)
    (second : WellTyped registry inputType whenTrue) (third : WellTyped registry inputType whenFalse)
    (condition : cond.type = .bool) (typed : whenTrue.type = t) (typed' : whenFalse.type = t) :
    WellTyped registry inputType (.ternary t .mux cond whenTrue whenFalse)

structure Registry.WellTyped (registry : Registry) (inputType : String → StreamType) : Prop where
  known : ∀ id st, registry.find? id = some st → st.type.isKnown = true
  typed : ∀ id st, registry.find? id = some st → st.expr.WellTyped registry inputType ∧ st.expr.type = st.type

theorem UnaryOp.Admits.isKnown {op : UnaryOp} {arg result : StreamType} {field : Datum}
    (h : op.Admits arg field result) (ha : arg.isKnown = true) : result.isKnown = true := by
  cases op with
  | getField =>
    obtain ⟨name, fields, i, rfl, hf⟩ := h
    cases field <;> simp only [StreamType.findNamed?, reduceCtorEq] at hf
    have hm := List.mem_of_getElem? (StreamType.mem_of_findField? hf)
    exact StreamType.fieldsKnown_iff.1 ha _ hm
  | cast =>
    obtain ⟨k, rfl⟩ := StreamType.isScalar_iff.1 h.2.1
    exact StreamType.isKnown_ofScalar k
  | not =>
    rw [h.2]
    rfl
  | unknown name => cases h
  | _ =>
    rw [h.2]
    exact ha

theorem BinaryOp.Admits.isKnown {op : BinaryOp} {left right result : StreamType} (h : op.Admits left right result)
    (hl : left.isKnown = true) : result.isKnown = true := by
  cases op with
  | index =>
    obtain ⟨⟨length, rfl⟩, _⟩ := h
    exact hl
  | unknown name => cases h
  | and | or | eq | ne | compare op =>
    rw [h.2.2]
    rfl
  | _ =>
    rw [h.2.2]
    exact hl

theorem Expr.WellTyped.isKnown {registry : Registry} {inputType : String → StreamType} {e : Expr}
    (hr : registry.WellTyped inputType) (h : e.WellTyped registry inputType) : e.type.isKnown = true := by
  induction h with
  | const known _ => exact known
  | drop declared typed _ _ =>
    rw [Expr.type, typed]
    exact hr.known _ _ declared
  | input known _ => exact known
  | unary _ admits ih => exact admits.isKnown ih
  | binary _ _ admits ih _ => exact admits.isKnown ih
  | mux _ _ _ _ typed _ _ ih _ => exact typed ▸ ih

namespace SymValue

theorem forall₂_replicate_iff {R : StreamType → SymValue → Prop} {t : StreamType} {n : Nat} {vs : List SymValue} :
    List.Forall₂ R (List.replicate n t) vs ↔ vs.length = n ∧ ∀ v ∈ vs, R t v := by
  induction n generalizing vs with
  | zero => cases vs <;> simp
  | succ n ih =>
    cases vs with
    | nil => simp [List.replicate_succ]
    | cons v vs =>
      simp only [List.replicate_succ, List.forall₂_cons, ih, List.length_cons, Nat.succ.injEq, List.forall_mem_cons]
      tauto

theorem zipItems_typed {cond : Term .bool} (ts : List StreamType) {xs ys : List SymValue}
    (ih : ∀ x ∈ xs, ∀ t y, x.Conforms t → y.Conforms t → ∃ v, select cond x y = .ok v ∧ v.Conforms t)
    (hx : List.Forall₂ (fun t x => x.Conforms t) ts xs) (hy : List.Forall₂ (fun t y => y.Conforms t) ts ys) :
    ∃ vs, zipItems (fun a b => .ok (.ite cond a b)) xs ys = .ok vs ∧
      List.Forall₂ (fun t v => v.Conforms t) ts vs := by
  induction hx generalizing ys with
  | nil =>
    cases hy
    exact ⟨[], rfl, .nil⟩
  | cons hx _ iht =>
    cases hy with
    | cons hy hys =>
      obtain ⟨v, hv, ht⟩ := ih _ (List.mem_cons_self ..) _ _ hx hy
      obtain ⟨vs, hvs, hts⟩ := iht (fun x hm => ih x (List.mem_cons_of_mem _ hm)) hys
      refine ⟨v :: vs, ?_, .cons ht hts⟩
      rw [zipItems]
      exact Outcome.bind_eq_ok_iff.2 ⟨v, hv, Outcome.bind_eq_ok_iff.2 ⟨vs, hvs, rfl⟩⟩

theorem select_typed (cond : Term .bool) {x y : SymValue} {t : StreamType} (hx : x.Conforms t) (hy : y.Conforms t) :
    ∃ v, select cond x y = .ok v ∧ v.Conforms t := by
  induction x using Value.shape_induction generalizing t y with
  | scalar s a =>
    obtain rfl := (Value.conforms_scalar ..).1 hx
    obtain ⟨b, rfl⟩ := Value.conforms_ofScalar.1 hy
    exact ⟨.scalar s (.ite cond a b), by simp [select, zip, pure, Except.pure, bind, Except.bind], by simp⟩
  | array xs ih =>
    obtain ⟨element, rfl, hxs⟩ := (Value.conforms_array ..).1 hx
    obtain ⟨ys, rfl, hl, hys⟩ := Value.conforms_array_iff.1 hy
    obtain ⟨vs, hvs, hts⟩ := zipItems_typed (List.replicate xs.length element) (fun x hm _ _ hx hy => ih x hm hx hy)
      (forall₂_replicate_iff.2 ⟨rfl, hxs⟩) (forall₂_replicate_iff.2 ⟨hl, hys⟩)
    refine ⟨.array vs, ?_, Value.conforms_array_iff.2 ⟨vs, rfl, forall₂_replicate_iff.1 hts⟩⟩
    have htag : (Value.array xs : SymValue).tag = (Value.array ys : SymValue).tag :=
      Except.ok.inj (hx.tag_eq.symm.trans hy.tag_eq)
    rw [select, zip, if_pos htag, if_pos hl.symm]
    exact Outcome.bind_eq_ok_iff.2 ⟨vs, hvs, rfl⟩
  | struct xs ih =>
    obtain ⟨name, fields, rfl, hxs⟩ := (Value.conforms_struct ..).1 hx
    obtain ⟨ys, rfl, hys⟩ := Value.conforms_struct_iff.1 hy
    obtain ⟨vs, hvs, hts⟩ := zipItems_typed (fields.map (·.2)) (fun x hm _ _ hx hy => ih x hm hx hy)
      (List.forall₂_map_left_iff.2 hxs) (List.forall₂_map_left_iff.2 hys)
    refine ⟨.struct vs, ?_, Value.conforms_struct_iff.2 ⟨vs, rfl, List.forall₂_map_left_iff.1 hts⟩⟩
    rw [select, zip, if_pos (hxs.length_eq.symm.trans hys.length_eq)]
    exact Outcome.bind_eq_ok_iff.2 ⟨vs, hvs, rfl⟩

end SymValue

namespace Operator

theorem pair_typed {op : String} {family : Family} {k : Scalar} (h : family.admits k = true) (a b : Term k.kind) :
    pair op family (.scalar k a) (.scalar k b) = .ok ⟨k, a, b⟩ :=
  pair_eq_ok_iff.2 ⟨rfl, rfl, h⟩

theorem castScalar_typed {j k : Scalar} (x : Term j.kind) (h : k = .bool → j = .bool) :
    ∃ v, castScalar (.scalar j x) k = some v ∧ v.Conforms (.ofScalar k) := by
  cases j with
  | bool => cases k <;> exact ⟨_, rfl, (Value.conforms_scalar ..).2 rfl⟩
  | int v =>
    cases k with
    | bool => cases h rfl
    | _ => exact ⟨_, rfl, by simp⟩
  | word v =>
    cases k with
    | bool => cases h rfl
    | _ => exact ⟨_, rfl, by simp⟩
  | float p =>
    cases k with
    | bool => cases h rfl
    | float q =>
      by_cases hq : p = q
      · exact ⟨_, dif_pos hq, by simp⟩
      · exact ⟨_, dif_neg hq, by simp⟩
    | _ => exact ⟨_, rfl, by simp⟩

theorem cast_typed {a t : StreamType} {x : SymValue} (hx : x.Conforms a) (ha : a.isScalar = true)
    (ht : t.isScalar = true) (hb : t = .bool → a = .bool) : ∃ v, cast x t = .ok v ∧ v.Conforms t := by
  obtain ⟨j, rfl⟩ := StreamType.isScalar_iff.1 ha
  obtain ⟨k, rfl⟩ := StreamType.isScalar_iff.1 ht
  obtain ⟨c, rfl⟩ := Value.conforms_ofScalar.1 hx
  obtain ⟨v, hv, hk⟩ := castScalar_typed (k := k) c fun h => StreamType.ofScalar_inj.1 (hb (congrArg _ h))
  refine ⟨v, ?_, hk⟩
  simp only [cast, castTarget, StreamType.scalar?_ofScalar]
  exact Outcome.bind_eq_ok_iff.2 ⟨k, rfl, by rw [hv]; rfl⟩

theorem getField_typed {name : String} {fields : List (String × StreamType)} {field : Datum} {i : Nat}
    {t : StreamType} {x : SymValue} (hx : x.Conforms (.struct name fields))
    (hf : StreamType.findNamed? fields field = some (i, t)) : ∃ v, getField x (some i) = .ok v ∧ v.Conforms t := by
  obtain ⟨items, rfl, hi⟩ := Value.conforms_struct_iff.1 hx
  cases field <;> simp only [StreamType.findNamed?, reduceCtorEq] at hf
  next text =>
  have hm := StreamType.mem_of_findField? hf
  obtain ⟨hlt, hget⟩ := List.getElem?_eq_some_iff.1 hm
  have hlt' : i < items.length := hi.length_eq ▸ hlt
  refine ⟨items[i], ?_, ?_⟩
  · simp only [getField, List.getElem?_eq_getElem hlt']
  · have := hi.get hlt hlt'
    simpa [hget] using this

theorem unary_typed {op : UnaryOp} {a t : StreamType} {field : Datum} {x : SymValue} (position : Option Int)
    (h : op.Admits a field t) (hx : x.Conforms a) (hf : op.takesField = false) :
    ∃ v, unary op x t position = .ok v ∧ v.Conforms t := by
  cases op with
  | not =>
    obtain ⟨rfl, rfl⟩ := h
    obtain ⟨c, rfl⟩ := Value.conforms_ofScalar (s := .bool).1 hx
    exact ⟨_, rfl, hx⟩
  | abs | sign =>
    obtain ⟨hn, rfl⟩ := h
    obtain ⟨k, rfl, hk⟩ := StreamType.isNumeric_iff.1 hn
    obtain ⟨c, rfl⟩ := Value.conforms_ofScalar.1 hx
    cases k with
    | bool => cases hk
    | _ => exact ⟨_, rfl, hx⟩
  | recip | sqrt | ceiling | floor | call f =>
    obtain ⟨hn, rfl⟩ := h
    obtain ⟨k, rfl, hk⟩ := StreamType.isFloating_iff.1 hn
    obtain ⟨c, rfl⟩ := Value.conforms_ofScalar.1 hx
    cases k with
    | float p => exact ⟨_, rfl, hx⟩
    | _ => cases hk
  | bitNot =>
    obtain ⟨hn, rfl⟩ := h
    obtain ⟨k, rfl, hk⟩ := StreamType.isIntegral_iff.1 hn
    obtain ⟨c, rfl⟩ := Value.conforms_ofScalar.1 hx
    cases k with
    | int w | word w => exact ⟨_, rfl, hx⟩
    | _ => cases hk
  | cast => exact cast_typed hx h.1 h.2.1 h.2.2
  | getField => cases hf
  | unknown name => cases h

theorem scalars_of_conforms {family : Family} {t : StreamType} {x y : SymValue}
    (ht : ∃ k, t = .ofScalar k ∧ family.admits k = true) (hx : x.Conforms t) (hy : y.Conforms t) :
    ∃ k a b, family.admits k = true ∧ t = .ofScalar k ∧ x = .scalar k a ∧ y = .scalar k b := by
  obtain ⟨k, rfl, hk⟩ := ht
  obtain ⟨a, rfl⟩ := Value.conforms_ofScalar.1 hx
  obtain ⟨b, rfl⟩ := Value.conforms_ofScalar.1 hy
  exact ⟨k, a, b, hk, rfl, rfl, rfl⟩

theorem equal_typed {k : Scalar} (a b : Term k.kind) : ∃ t, equal (.scalar k a) (.scalar k b) = .ok t := by
  cases k <;> simp [equal, Value.tag]

theorem compare_typed (op : Comparison) {k : Scalar} (h : Family.numeric.admits k = true) (a b : Term k.kind) :
    ∃ t, compare op (.scalar k a) (.scalar k b) = .ok (.scalar .bool t) := by
  rw [compare, pair_typed h]
  cases k with
  | bool => cases h
  | _ => exact ⟨_, rfl⟩

theorem arith_typed (op : Arithmetic) {k : Scalar} (h : Family.numeric.admits k = true) (a b : Term k.kind) :
    ∃ t, arith op (.scalar k a) (.scalar k b) = .ok (.scalar k t) := by
  rw [arith, pair_typed h]
  cases k with
  | bool => cases h
  | _ => exact ⟨_, rfl⟩

theorem integral_typed (op : String) (build : Bool → (w : Width) → CoreBinary (.bits w) (.bits w) (.bits w))
    {k : Scalar} (h : Family.integral.admits k = true) (a b : Term k.kind) :
    ∃ t, integral op build (.scalar k a) (.scalar k b) = .ok (.scalar k t) := by
  rw [integral, pair_typed h]
  cases k with
  | int w | word w => exact ⟨_, rfl⟩
  | _ => cases h

theorem onFloats_typed (op : String) (build : (p : Precision) → FloatBinary (.float p) (.float p) (.float p))
    {k : Scalar} (h : Family.float.admits k = true) (a b : Term k.kind) :
    ∃ t, onFloats op build (.scalar k a) (.scalar k b) = .ok (.scalar k t) := by
  rw [onFloats, pair_typed h]
  cases k with
  | float p => exact ⟨_, rfl⟩
  | _ => cases h

theorem shift_typed (left : Bool) {j k : Scalar} (hj : Family.integral.admits j = true)
    (hk : Family.integral.admits k = true) (a : Term j.kind) (b : Term k.kind) :
    ∃ t, shift left (.scalar j a) (.scalar k b) = .ok (.scalar j t) := by
  cases j with
  | int v | word v =>
    cases k with
    | int w | word w => exact ⟨_, rfl⟩
    | _ => cases hk
  | _ => cases hj

theorem binary_typed {op : BinaryOp} {l r t : StreamType} {x y : SymValue} (h : op.Admits l r t)
    (hx : x.Conforms l) (hy : y.Conforms r) (hi : op ≠ .index) : ∃ v, binary op x y = .ok v ∧ v.Conforms t := by
  cases op with
  | and | or =>
    obtain ⟨rfl, rfl, rfl⟩ := h
    obtain ⟨a, rfl⟩ := Value.conforms_ofScalar (s := .bool).1 hx
    obtain ⟨b, rfl⟩ := Value.conforms_ofScalar (s := .bool).1 hy
    exact ⟨_, rfl, hx⟩
  | arith op =>
    obtain ⟨hn, rfl, rfl⟩ := h
    obtain ⟨k, a, b, hk, rfl, rfl, rfl⟩ := scalars_of_conforms (StreamType.isNumeric_iff.1 hn) hx hy
    obtain ⟨c, hc⟩ := arith_typed op hk a b
    exact ⟨_, hc, by simp⟩
  | bitwise op =>
    obtain ⟨hn, rfl, rfl⟩ := h
    obtain ⟨k, a, b, hk, rfl, rfl, rfl⟩ := scalars_of_conforms (StreamType.isIntegral_iff.1 hn) hx hy
    obtain ⟨c, hc⟩ := integral_typed (BinaryOp.bitwise op).name (fun _ => .bitwise op) hk a b
    exact ⟨_, hc, by simp⟩
  | div | mod =>
    obtain ⟨hn, rfl, rfl⟩ := h
    obtain ⟨k, a, b, hk, rfl, rfl, rfl⟩ := scalars_of_conforms (StreamType.isIntegral_iff.1 hn) hx hy
    obtain ⟨c, hc⟩ := integral_typed _ _ hk a b
    exact ⟨_, hc, by simp⟩
  | fdiv | call f =>
    obtain ⟨hn, rfl, rfl⟩ := h
    obtain ⟨k, a, b, hk, rfl, rfl, rfl⟩ := scalars_of_conforms (StreamType.isFloating_iff.1 hn) hx hy
    obtain ⟨c, hc⟩ := onFloats_typed _ _ hk a b
    exact ⟨_, hc, by simp⟩
  | eq | ne =>
    obtain ⟨hn, rfl, rfl⟩ := h
    obtain ⟨k, rfl⟩ := StreamType.isScalar_iff.1 hn
    obtain ⟨a, rfl⟩ := Value.conforms_ofScalar.1 hx
    obtain ⟨b, rfl⟩ := Value.conforms_ofScalar.1 hy
    obtain ⟨c, hc⟩ := equal_typed a b
    exact ⟨_, Outcome.bind_eq_ok_iff.2 ⟨c, hc, rfl⟩, (Value.conforms_scalar ..).2 rfl⟩
  | compare op =>
    obtain ⟨hn, rfl, rfl⟩ := h
    obtain ⟨k, a, b, hk, rfl, rfl, rfl⟩ := scalars_of_conforms (StreamType.isNumeric_iff.1 hn) hx hy
    obtain ⟨c, hc⟩ := compare_typed op hk a b
    exact ⟨_, hc, (Value.conforms_scalar ..).2 rfl⟩
  | shiftLeft | shiftRight =>
    obtain ⟨hl, hr, rfl⟩ := h
    obtain ⟨j, rfl, hj⟩ := StreamType.isIntegral_iff.1 hl
    obtain ⟨k, rfl, hk⟩ := StreamType.isIntegral_iff.1 hr
    obtain ⟨a, rfl⟩ := Value.conforms_ofScalar.1 hx
    obtain ⟨b, rfl⟩ := Value.conforms_ofScalar.1 hy
    obtain ⟨c, hc⟩ := shift_typed _ hj hk a b
    exact ⟨_, hc, by simp⟩
  | index => exact absurd rfl hi
  | unknown name => cases h

theorem indexOperands_typed {length : Nat} {element r : StreamType} {x y : SymValue}
    (hx : x.Conforms (.array length element)) (hy : y.Conforms r) (hr : r.isIntegral = true) :
    ∃ items i, indexOperands x y = .ok (items, i) ∧ ∀ v ∈ items, v.Conforms element := by
  obtain ⟨items, rfl, _, hi⟩ := Value.conforms_array_iff.1 hx
  obtain ⟨k, rfl, hk⟩ := StreamType.isIntegral_iff.1 hr
  obtain ⟨c, rfl⟩ := Value.conforms_ofScalar.1 hy
  cases k with
  | int w | word w => exact ⟨items, _, rfl, hi⟩
  | _ => cases hk

theorem lookupFrom_typed {i : Index} {outside : SymValue} {t : StreamType} (ho : outside.Conforms t)
    {items : List SymValue} (hi : ∀ v ∈ items, v.Conforms t) (position : Nat) :
    ∃ v, lookupFrom i outside position items = .ok v ∧ v.Conforms t := by
  induction items generalizing position with
  | nil => exact ⟨outside, rfl, ho⟩
  | cons u rest ih =>
    obtain ⟨others, hr, ht⟩ := ih (fun v hv => hi v (List.mem_cons_of_mem _ hv)) (position + 1)
    have hu := hi u (List.mem_cons_self ..)
    by_cases hl : i.limit ≤ position
    · exact ⟨others, Outcome.bind_eq_ok_iff.2 ⟨others, hr, if_pos hl⟩, ht⟩
    · have htag : u.tag = others.tag := Except.ok.inj (hu.tag_eq.symm.trans ht.tag_eq)
      obtain ⟨v, hv, hc⟩ := SymValue.select_typed (equalBits i.term (literal position)) hu ht
      refine ⟨v, Outcome.bind_eq_ok_iff.2 ⟨others, hr, ?_⟩, hc⟩
      rw [if_neg hl, if_pos htag]
      exact hv

theorem mux_typed {t : StreamType} {x y z : SymValue} (hx : x.Conforms .bool) (hy : y.Conforms t)
    (hz : z.Conforms t) : ∃ v, ternary .mux x y z = .ok v ∧ v.Conforms t := by
  obtain ⟨c, rfl⟩ := Value.conforms_ofScalar (s := .bool).1 hx
  obtain ⟨v, hv, ht⟩ := SymValue.select_typed c hy hz
  exact ⟨v, Outcome.bind_eq_ok_iff.2 ⟨c, rfl, hv⟩, ht⟩

end Operator

end OneStep
