import OneStep.Proofs.Conformance
import OneStep.Proofs.Decoding
import OneStep.Proofs.Memos

namespace OneStep

namespace SymValue

def SameScalar (x v : SymValue) : Prop :=
  ∃ k a b, x = .scalar k a ∧ v = .scalar k b

def IsTruth (v : SymValue) : Prop :=
  ∃ a, v = .scalar .bool a

theorem SameScalar.conforms {x v : SymValue} (h : x.SameScalar v) {t : StreamType} (hx : x.Conforms t) :
    v.Conforms t := by
  obtain ⟨k, a, b, rfl, rfl⟩ := h
  rw [Value.conforms_scalar] at hx ⊢
  exact hx

theorem IsTruth.conforms {v : SymValue} (h : v.IsTruth) : v.Conforms .bool := by
  obtain ⟨a, rfl⟩ := h
  exact (Value.conforms_scalar ..).2 rfl

end SymValue

namespace Operator

open Outcome SymValue

variable {x y v : SymValue}

theorem not_isTruth (h : not x = .ok v) : v.IsTruth := by
  unfold not at h
  split at h <;> cases h
  exact ⟨_, rfl⟩

theorem abs_sameScalar (h : abs x = .ok v) : x.SameScalar v := by
  unfold abs at h
  split at h <;> cases h <;> exact ⟨_, _, _, rfl, rfl⟩

theorem sign_sameScalar (h : sign x = .ok v) : x.SameScalar v := by
  unfold sign at h
  split at h <;> cases h <;> exact ⟨_, _, _, rfl, rfl⟩

theorem recip_sameScalar (h : recip x = .ok v) : x.SameScalar v := by
  unfold recip at h
  split at h <;> cases h
  exact ⟨_, _, _, rfl, rfl⟩

theorem onFloat_sameScalar {name : String} {build : (p : Precision) → FloatUnary (.float p) (.float p)}
    (h : onFloat name build x = .ok v) : x.SameScalar v := by
  unfold onFloat at h
  split at h <;> cases h
  exact ⟨_, _, _, rfl, rfl⟩

theorem bitNot_sameScalar (h : bitNot x = .ok v) : x.SameScalar v := by
  unfold bitNot at h
  split at h <;> cases h <;> exact ⟨_, _, _, rfl, rfl⟩

theorem logic_isTruth {name : String} {core : CoreBinary .bool .bool .bool} (h : logic name core x y = .ok v) :
    v.IsTruth := by
  unfold logic at h
  split at h <;> cases h
  exact ⟨_, rfl⟩

theorem compare_isTruth {op : Comparison} (h : compare op x y = .ok v) : v.IsTruth := by
  obtain ⟨⟨k, a, b⟩, _, h⟩ := bind_eq_ok_iff.1 h
  cases k <;> cases h <;> exact ⟨_, rfl⟩

theorem arith_sameScalar {op : Arithmetic} (h : arith op x y = .ok v) : x.SameScalar v := by
  obtain ⟨⟨k, a, b⟩, hp, h⟩ := bind_eq_ok_iff.1 h
  obtain ⟨rfl, rfl, _⟩ := pair_eq_ok_iff.1 hp
  cases k <;> cases h <;> exact ⟨_, _, _, rfl, rfl⟩

theorem integral_sameScalar {name : String}
    {build : Bool → (w : Width) → CoreBinary (.bits w) (.bits w) (.bits w)} (h : integral name build x y = .ok v) :
    x.SameScalar v := by
  obtain ⟨⟨k, a, b⟩, hp, h⟩ := bind_eq_ok_iff.1 h
  obtain ⟨rfl, rfl, _⟩ := pair_eq_ok_iff.1 hp
  cases k <;> cases h <;> exact ⟨_, _, _, rfl, rfl⟩

theorem onFloats_sameScalar {name : String}
    {build : (p : Precision) → FloatBinary (.float p) (.float p) (.float p)} (h : onFloats name build x y = .ok v) :
    x.SameScalar v := by
  obtain ⟨⟨k, a, b⟩, hp, h⟩ := bind_eq_ok_iff.1 h
  obtain ⟨rfl, rfl, _⟩ := pair_eq_ok_iff.1 hp
  cases k <;> cases h
  exact ⟨_, _, _, rfl, rfl⟩

theorem shift_sameScalar {left : Bool} (h : shift left x y = .ok v) : x.SameScalar v := by
  unfold shift at h
  dsimp only at h
  split at h <;> cases h <;> exact ⟨_, _, _, rfl, rfl⟩

theorem unknownUnary_ne_ok {name : Datum} : unknownUnary name ≠ .ok v := by
  unfold unknownUnary
  split
  · intro h
    obtain ⟨_, _, h⟩ := bind_eq_ok_iff.1 h
    cases h
  · intro h
    cases h

end Operator

namespace Spec.Decode

open Outcome

variable {entries : List (Datum × Datum)} {path : String} {t : StreamType} {x y v : SymValue}

inductive Infers (entries : List (Datum × Datum)) (path : String) : List Expr → Expr → Prop where
  | unary {op : UnaryOp} {arg : Expr} {t : StreamType} {field : String}
    (inferred : inferUnary op arg entries path = .ok t) (named : fieldName entries = .ok field) :
    Infers entries path [arg] (.unary t op arg (.text field))
  | binary {op : BinaryOp} {left right : Expr} {t : StreamType} (inferred : inferBinary op left path = .ok t) :
    Infers entries path [left, right] (.binary t op left right)
  | ternary {op : TernaryOp} {first second third : Expr} :
    Infers entries path [first, second, third] (.ternary (inferTernary second) op first second third)

theorem unknownOperator_ne_ok {α : Type} {op : Datum} {arity : Nat} {a : α} :
    (unknownOperator op arity path : Except Fault α) ≠ .ok a := by
  intro h
  obtain ⟨_, _, h⟩ := bind_eq_ok_iff.1 h
  cases h

theorem infers_of_operation {op : Datum} {args : List Expr} {e : Expr} (hd : Datum.find? entries "type" = none)
    (h : operation op args entries path = .ok e) : Infers entries path args e := by
  have hn {d : Option StreamType} (h : declaredType entries path = .ok d) : d = none := by
    rw [declaredType, hd] at h
    exact (Except.ok.inj h).symm
  cases hl : isLookedUp op with
  | false =>
    simp only [operation, hl] at h
    cases h
  | true =>
    simp only [operation, hl, Bool.not_true, Bool.false_eq_true, if_false] at h
    split at h
    · split at h
      · exact absurd h unknownOperator_ne_ok
      · obtain ⟨d, hd', h⟩ := bind_eq_ok_iff.1 h
        obtain rfl := hn hd'
        obtain ⟨t, ht, h⟩ := bind_eq_ok_iff.1 h
        obtain ⟨field, hf, h⟩ := bind_eq_ok_iff.1 h
        cases h
        exact .unary ht hf
    · split at h
      · exact absurd h unknownOperator_ne_ok
      · obtain ⟨d, hd', h⟩ := bind_eq_ok_iff.1 h
        obtain rfl := hn hd'
        obtain ⟨t, ht, h⟩ := bind_eq_ok_iff.1 h
        cases h
        exact .binary ht
    · split at h
      · exact absurd h unknownOperator_ne_ok
      · obtain ⟨d, hd', h⟩ := bind_eq_ok_iff.1 h
        obtain rfl := hn hd'
        cases h
        exact .ternary
    · exact absurd h unknownOperator_ne_ok

theorem inferUnary_conforms {op : UnaryOp} {arg : Expr} {field : String} {position : Option Nat}
    (ht : inferUnary op arg entries path = .ok t) (hf : fieldName entries = .ok field) (hx : x.Conforms arg.type)
    (hp : Encoding.positionTaken op arg (.text field) = .ok position)
    (hv : Operator.unary op x t (position.map Int.ofNat) = .ok v) : v.Conforms t := by
  cases op with
  | not =>
    cases ht
    exact (Operator.not_isTruth hv).conforms
  | getField =>
    obtain ⟨i, hi, rfl⟩ := map_eq_ok_iff.1 hp
    obtain ⟨name, fields, u, harg, hu⟩ := Encoding.fieldPosition_ok hi
    rw [harg] at hx
    obtain ⟨w, hw, hc⟩ := Operator.getField_typed hx hu
    cases hw.symm.trans hv
    -- the position and the type are those of the same field, the first of its name
    have hfind : StreamType.findField? fields field = some (i, u) := hu
    simp only [inferUnary, harg, hf] at ht
    obtain ⟨_, hfield, ht⟩ := bind_eq_ok_iff.1 ht
    cases hfield
    rw [hfind] at ht
    cases ht
    exact hc
  | cast => cases ht
  | abs =>
    cases ht
    exact (Operator.abs_sameScalar hv).conforms hx
  | sign =>
    cases ht
    exact (Operator.sign_sameScalar hv).conforms hx
  | recip =>
    cases ht
    exact (Operator.recip_sameScalar hv).conforms hx
  | bitNot =>
    cases ht
    exact (Operator.bitNot_sameScalar hv).conforms hx
  | sqrt | ceiling | floor | call f =>
    cases ht
    exact (Operator.onFloat_sameScalar hv).conforms hx
  | unknown name => exact absurd hv Operator.unknownUnary_ne_ok

theorem inferBinary_conforms {op : BinaryOp} {left : Expr} (ht : inferBinary op left path = .ok t)
    (hx : x.Conforms left.type) (hv : Operator.binary op x y = .ok v) : v.Conforms t := by
  cases op with
  | and | or =>
    cases ht
    exact (Operator.logic_isTruth hv).conforms
  | eq | ne =>
    cases ht
    obtain ⟨c, _, hv⟩ := bind_eq_ok_iff.1 hv
    cases hv
    exact (Value.conforms_scalar ..).2 rfl
  | compare op =>
    cases ht
    exact (Operator.compare_isTruth hv).conforms
  | arith op =>
    cases ht
    exact (Operator.arith_sameScalar hv).conforms hx
  | div | mod =>
    cases ht
    exact (Operator.integral_sameScalar hv).conforms hx
  | bitwise op =>
    cases ht
    have hv : Operator.integral (BinaryOp.bitwise op).name (fun _ => .bitwise op) x y = .ok v := hv
    exact (Operator.integral_sameScalar hv).conforms hx
  | fdiv | call f =>
    cases ht
    exact (Operator.onFloats_sameScalar hv).conforms hx
  | shiftLeft | shiftRight =>
    cases ht
    exact (Operator.shift_sameScalar hv).conforms hx
  | index => exact absurd hv Operator.unknownBinary_ne_ok
  | unknown name => exact absurd hv Operator.unknownBinary_ne_ok

end Spec.Decode

inductive Encoder.Used (registry : Registry) : Encoder → Prop where
  | fresh (s : Encoder) (empty : s.memo = {}) : Used registry s
  | encoded {s : Encoder} (used : Used registry s) (e : Expr) (o : Int) :
    Used registry ((Encoding.encode registry e o).run s).2
  | asked {s : Encoder} (used : Used registry s) (r : Request) : Used registry ((r.ask registry).run s).2
  | applied {s : Encoder} (used : Used registry s) (op : BinaryOp) (x y : SymValue) (t : StreamType) :
    Used registry ((Encoding.binary op x y t).run s).2

namespace Encoding

variable {registry : Registry} {s s' : Encoder} {x y v : SymValue} {t : StreamType}

theorem grows_ask (registry : Registry) (r : Request) : Outcome.Moves Encoder.Grows (r.ask registry) := by
  cases r with
  | past id o => exact grows_past registry id o
  | input name t o => exact grows_input name t o
  | outside element array index =>
    cases index with
    | scalar k a => exact grows_outside _
    | array items => exact Outcome.moves_throw _
    | struct items => exact Outcome.moves_throw _

theorem shaped_of_used (h : s.Used registry) {l : Lookup} (hl : s.memo.find? (.outside l) = some v) :
    v.Conforms l.element := by
  induction h generalizing l v with
  | fresh s empty =>
    rw [empty] at hl
    cases hl
  | encoded _ e o ih => exact (grows_encode registry e o _).shaped (fun _ _ => ih) l v hl
  | asked _ r ih => exact (grows_ask registry r _).shaped (fun _ _ => ih) l v hl
  | applied _ op x y t ih => exact (grows_binary op x y t _).shaped (fun _ _ => ih) l v hl

theorem conforms_of_outside (hs : s.Used registry) {l : Lookup} (h : (outside l).run s = (.ok v, s')) :
    v.Conforms l.element := by
  rcases outside_ok h with h | h
  · exact shaped_of_used hs h.found
  · obtain ⟨supply, hd, _⟩ := h.drawn
    exact Supply.conforms_of_draw hd

theorem conforms_of_lookup {fallback : (k : Kind) → Term k → Encoding SymValue}
    (hf : ∀ k i w s', (fallback k i).run s = (.ok w, s') → w.Conforms t)
    (h : (lookup x y fallback).run s = (.ok v, s')) : v.Conforms t := by
  obtain ⟨⟨items, i⟩, _, h⟩ := Outcome.run_bind_lift_eq_ok_iff.1 h
  obtain ⟨w, s₁, hw, h⟩ := Outcome.run_bind_eq_ok_iff.1 h
  exact Operator.lookupFrom_conforms (hf _ _ _ _ hw) (Outcome.run_lift_eq_ok_iff.1 h).1

inductive Applies (apply : BinaryOp → SymValue → SymValue → StreamType → Encoding SymValue) (s : Encoder) :
    Expr → List SymValue → SymValue → Encoder → Prop where
  | unary {t : StreamType} {op : UnaryOp} {arg : Expr} {field : Datum} {position : Option Nat} {x v : SymValue}
    (placed : positionTaken op arg field = .ok position)
    (accepted : Operator.unary op x t (position.map Int.ofNat) = .ok v) :
    Applies apply s (.unary t op arg field) [x] v s
  | binary {t : StreamType} {op : BinaryOp} {left right : Expr} {x y v : SymValue} {s' : Encoder}
    (accepted : (apply op x y t).run s = (.ok v, s')) : Applies apply s (.binary t op left right) [x, y] v s'
  | ternary {t : StreamType} {op : TernaryOp} {first second third : Expr} {x y z v : SymValue}
    (accepted : Operator.ternary op x y z = .ok v) : Applies apply s (.ternary t op first second third) [x, y, z] v s

theorem Applies.conforms {apply : BinaryOp → SymValue → SymValue → StreamType → Encoding SymValue}
    (hi : ∀ x y t v s', (apply .index x y t).run s = (.ok v, s') → v.Conforms t)
    (hb : ∀ op x y t, op ≠ .index → apply op x y t = liftM (Operator.binary op x y))
    {entries : List (Datum × Datum)} {path : String} {args : List Expr} {e : Expr}
    (he : Spec.Decode.Infers entries path args e) {xs : List SymValue}
    (hx : List.Forall₂ (fun arg x => x.Conforms arg.type) args xs) (h : Applies apply s e xs v s') :
    v.Conforms e.type := by
  cases he with
  | unary inferred named =>
    cases h with
    | unary placed accepted =>
      obtain _ | ⟨hx, _⟩ := hx
      exact Spec.Decode.inferUnary_conforms inferred named hx placed accepted
  | @binary op _ _ _ inferred =>
    cases h with
    | binary accepted =>
      obtain _ | ⟨hx, _⟩ := hx
      by_cases hop : op = .index
      · subst hop
        exact hi _ _ _ _ _ accepted
      · rw [hb op _ _ _ hop] at accepted
        exact Spec.Decode.inferBinary_conforms inferred hx (Outcome.run_lift_eq_ok_iff.1 accepted).1
  | ternary =>
    cases h with
    | ternary accepted =>
      obtain _ | ⟨_, _ | ⟨hy, _⟩⟩ := hx
      exact Operator.ternary_conforms accepted hy

theorem conforms_of_index (hs : s.Used registry) (h : (binary .index x y t).run s = (.ok v, s')) : v.Conforms t :=
  conforms_of_lookup (fun _ _ _ _ hw => conforms_of_outside hs hw) h

theorem conforms_of_indexAlone (h : (binaryAlone .index x y t).run s = (.ok v, s')) : v.Conforms t :=
  conforms_of_lookup (fun _ _ _ _ hw => conforms_of_draw hw) h

theorem binaryAlone_of_ne_index {op : BinaryOp} (h : op ≠ .index) (x y : SymValue) (t : StreamType) :
    binaryAlone op x y t = liftM (Operator.binary op x y) := by
  cases op with
  | index => exact absurd rfl h
  | _ => rfl

theorem run_operands_eq_ok {o : Int} {arg : Expr} {args : List Expr} {x : SymValue} {xs : List SymValue}
    (h : ((arg :: args).mapM fun arg => encode registry arg o).run s = (.ok (x :: xs), s')) :
    ∃ s₁, (encode registry arg o).run s = (.ok x, s₁) ∧
      (args.mapM fun arg => encode registry arg o).run s₁ = (.ok xs, s') := by
  rw [List.mapM_cons] at h
  obtain ⟨_, s₁, hx, h⟩ := Outcome.run_bind_eq_ok_iff.1 h
  obtain ⟨_, s₂, hxs, h⟩ := Outcome.run_bind_eq_ok_iff.1 h
  cases h
  exact ⟨s₁, hx, hxs⟩

theorem run_encode_of_applies {entries : List (Datum × Datum)} {path : String} {args : List Expr} {e : Expr}
    (he : Spec.Decode.Infers entries path args e) {xs : List SymValue} {o : Int} {s₀ : Encoder}
    (hx : (args.mapM fun arg => encode registry arg o).run s₀ = (.ok xs, s)) (h : Applies binary s e xs v s') :
    (encode registry e o).run s₀ = (checked e v).run s' := by
  cases he with
  | unary inferred named =>
    cases h with
    | unary placed accepted =>
      obtain ⟨_, hx, hr⟩ := run_operands_eq_ok hx
      cases hr
      rw [encode, encodeAt_unary (nonpos_of_ok hx), ← encode, Outcome.run_bind_of_ok hx, finishUnary, placed]
      exact congrArg (fun r => (liftM r >>= checked _ : Encoding SymValue).run s) accepted
  | binary inferred =>
    cases h with
    | binary accepted =>
      obtain ⟨_, hx, hr⟩ := run_operands_eq_ok hx
      obtain ⟨_, hy, hr⟩ := run_operands_eq_ok hr
      cases hr
      rw [encode, encodeAt_binary (nonpos_of_ok hx), ← encode, Outcome.run_bind_of_ok hx, ← encode,
        Outcome.run_bind_of_ok hy, finishBinary, Outcome.run_bind_of_ok accepted]
  | ternary =>
    cases h with
    | ternary accepted =>
      obtain ⟨_, hx, hr⟩ := run_operands_eq_ok hx
      obtain ⟨_, hy, hr⟩ := run_operands_eq_ok hr
      obtain ⟨_, hz, hr⟩ := run_operands_eq_ok hr
      cases hr
      rw [encode, encodeAt_ternary (nonpos_of_ok hx), ← encode, Outcome.run_bind_of_ok hx, ← encode,
        Outcome.run_bind_of_ok hy, ← encode, Outcome.run_bind_of_ok hz, finishTernary, accepted]
      rfl

theorem inferred_types_agree {registry : Registry} {op : Datum} {args : List Expr} {entries : List (Datum × Datum)}
    {path : String} {e : Expr} (hd : Datum.find? entries "type" = none)
    (he : Spec.Decode.operation op args entries path = .ok e) {xs : List SymValue}
    (hx : List.Forall₂ (fun arg x => x.Conforms arg.type) args xs) {s : Encoder} (hs : s.Used registry) :
    (∀ v s', Applies binary s e xs v s' ∨ Applies binaryAlone s e xs v s' → v.Conforms e.type) ∧
    ∀ s₀ o, (args.mapM fun arg => encode registry arg o).run s₀ = (.ok xs, s) →
      ∀ v s', Applies binary s e xs v s' → ∃ s'', (encode registry e o).run s₀ = (.ok v, s'') := by
  have hi := Spec.Decode.infers_of_operation hd he
  have hshared {v : SymValue} {s' : Encoder} (h : Applies binary s e xs v s') : v.Conforms e.type :=
    h.conforms (fun _ _ _ _ _ => conforms_of_index hs) (fun _ _ _ _ => (binary_of_ne_index · ..)) hi hx
  refine ⟨fun v s' h => ?_, fun s₀ o hr v s' h => ?_⟩
  · rcases h with h | h
    · exact hshared h
    · exact h.conforms (fun _ _ _ _ _ => conforms_of_indexAlone) (fun _ _ _ _ => (binaryAlone_of_ne_index · ..)) hi hx
  · obtain ⟨s'', hc, _⟩ := exists_checked (hshared h).tag_eq s'
    exact ⟨s'', (run_encode_of_applies hi hr h).trans hc⟩

def pairType : StreamType :=
  .struct "Pair" [("x", .bool), ("x", .array 0 (.int 8))]

def onlyField : List (Datum × Datum) :=
  [(.text "field", .text "x")]

theorem first_field_inferred :
    Spec.Decode.operation (.text "get_field") [.input pairType "p"] onlyField "e" =
      .ok (.unary .bool .getField (.input pairType "p") (.text "x")) ∧
    Applies binary {} (.unary .bool .getField (.input pairType "p") (.text "x"))
      [.struct [.scalar .bool (.bool true), .array []]] (.scalar .bool (.bool true)) {} ∧
    (.scalar .bool (.bool true) : SymValue).Conforms .bool := by
  have he : Spec.Decode.operation (.text "get_field") [.input pairType "p"] onlyField "e" =
      .ok (.unary .bool .getField (.input pairType "p") (.text "x")) := rfl
  have ha : Applies binary {} (.unary .bool .getField (.input pairType "p") (.text "x"))
      [.struct [.scalar .bool (.bool true), .array []]] (.scalar .bool (.bool true)) {} :=
    .unary (rfl : positionTaken .getField (.input pairType "p") (.text "x") = .ok (some 0)) rfl
  have hs : Encoder.Used {} {} := .fresh {} rfl
  refine ⟨he, ha, (inferred_types_agree rfl he ?_ hs).1 _ _ (.inl ha)⟩
  simp [pairType, Expr.type, StreamType.ofScalar]

end Encoding

end OneStep
