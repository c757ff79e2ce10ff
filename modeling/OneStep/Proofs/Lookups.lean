import OneStep.Proofs.Conformance

namespace OneStep

namespace SymValue

theorem tag_eq_of_outline {x y : SymValue} (h : x.outline = y.outline) : x.tag = y.tag := by
  rw [← Value.map_tag (fun _ _ => ()) x, ← outline, h, outline, Value.map_tag]

theorem zipItems_of_outline {cond : Term .bool} {xs ys : List SymValue}
    (ih : ∀ x ∈ xs, ∀ y, x.outline = y.outline → ∃ v, select cond x y = .ok v)
    (h : xs.map outline = ys.map outline) : ∃ vs, zipItems (fun a b => .ok (.ite cond a b)) xs ys = .ok vs := by
  induction xs generalizing ys with
  | nil => exact ⟨[], rfl⟩
  | cons x xs iht =>
    cases ys with
    | nil => cases h
    | cons y ys =>
      obtain ⟨hxy, hs⟩ := List.cons.inj h
      obtain ⟨v, hv⟩ := ih x (List.mem_cons_self ..) y hxy
      obtain ⟨vs, hvs⟩ := iht (fun x hx => ih x (List.mem_cons_of_mem _ hx)) hs
      rw [zipItems]
      exact ⟨v :: vs, Outcome.bind_eq_ok_iff.2 ⟨v, hv, Outcome.bind_eq_ok_iff.2 ⟨vs, hvs, rfl⟩⟩⟩

theorem select_of_outline (cond : Term .bool) {x y : SymValue} (h : x.outline = y.outline) :
    ∃ v, select cond x y = .ok v := by
  induction x using Value.shape_induction generalizing y with
  | scalar s a =>
    cases y with
    | scalar t b =>
      simp only [outline, Value.map_scalar, Value.scalar.injEq] at h
      obtain ⟨rfl, -⟩ := h
      exact ⟨.scalar s (.ite cond a b), by simp [select, zip, pure, Except.pure, bind, Except.bind]⟩
    | array ys => simp [outline] at h
    | struct ys => simp [outline] at h
  | array xs ih =>
    cases y with
    | scalar t b => simp [outline] at h
    | array ys =>
      have htag := tag_eq_of_outline h
      simp only [outline, Value.map_array, Value.array.injEq] at h
      obtain ⟨vs, hvs⟩ := zipItems_of_outline (fun x hx y => @ih x hx y) h
      rw [select, zip, if_pos htag, if_pos (by simpa using congrArg List.length h)]
      exact ⟨.array vs, Outcome.bind_eq_ok_iff.2 ⟨vs, hvs, rfl⟩⟩
    | struct ys => simp [outline] at h
  | struct xs ih =>
    cases y with
    | scalar t b => simp [outline] at h
    | array ys => simp [outline] at h
    | struct ys =>
      simp only [outline, Value.map_struct, Value.struct.injEq] at h
      obtain ⟨vs, hvs⟩ := zipItems_of_outline (fun x hx y => @ih x hx y) h
      rw [select, zip, if_pos (by simpa using congrArg List.length h)]
      exact ⟨.struct vs, Outcome.bind_eq_ok_iff.2 ⟨vs, hvs, rfl⟩⟩

end SymValue

namespace Operator

open Outcome SymValue

theorem lookupFrom_of_outline (i : Index) {outside : SymValue} {items : List SymValue}
    (h : ∀ v ∈ items, v.outline = outside.outline) (position : Nat) :
    ∃ v, lookupFrom i outside position items = .ok v ∧ v.outline = outside.outline := by
  induction items generalizing position with
  | nil => exact ⟨outside, rfl, rfl⟩
  | cons u rest ih =>
    obtain ⟨hu, hrest⟩ := List.forall_mem_cons.1 h
    obtain ⟨others, hr, ho⟩ := ih hrest (position + 1)
    by_cases hl : i.limit ≤ position
    · exact ⟨others, bind_eq_ok_iff.2 ⟨others, hr, if_pos hl⟩, ho⟩
    · have huo : u.outline = others.outline := hu.trans ho.symm
      obtain ⟨v, hv⟩ := select_of_outline (equalBits i.term (literal position)) huo
      refine ⟨v, bind_eq_ok_iff.2 ⟨others, hr, ?_⟩, (select_outline hv).2.trans ho⟩
      rw [if_neg hl, if_pos (tag_eq_of_outline huo)]
      exact hv

theorem lookupFrom_of_limit_le {i : Index} (outside : SymValue) (items : List SymValue) {position : Nat}
    (h : i.limit ≤ position) : lookupFrom i outside position items = .ok outside := by
  induction items generalizing position with
  | nil => rfl
  | cons u rest ih => exact bind_eq_ok_iff.2 ⟨outside, ih (by omega), if_pos h⟩

theorem lookupFrom_take (i : Index) (outside : SymValue) (items : List SymValue) (position : Nat) :
    lookupFrom i outside position (items.take (i.limit - position)) = lookupFrom i outside position items := by
  induction items generalizing position with
  | nil => rw [List.take_nil]
  | cons u rest ih =>
    by_cases h : i.limit ≤ position
    · rw [lookupFrom_of_limit_le outside _ h, lookupFrom_of_limit_le outside _ h]
    · have hs : i.limit - position = i.limit - (position + 1) + 1 := by omega
      rw [hs, List.take_succ_cons, lookupFrom, lookupFrom, ih]

theorem lookup_take (i : Index) (outside : SymValue) (items : List SymValue) :
    lookup (items.take i.limit) i outside = lookup items i outside :=
  lookupFrom_take i outside items 0

end Operator

theorem Data.lookup?_map_of_lt {α : Type} (f : α → Data) {items : List α} {i : Int} {k : Nat} (hi : i = k)
    (hk : k < items.length) : lookup? (items.map f) i = some (f items[k]) := by
  subst hi
  simp [lookup?, hk]

theorem Data.lookup?_eq_none {items : List Data} {i : Int} (h : ¬(0 ≤ i ∧ i < items.length)) :
    lookup? items i = none := by
  unfold lookup?
  split
  · exact List.getElem?_eq_none (by omega)
  · rfl

namespace Encoding

open Operator Outcome

theorem run_lookup_array {items : List SymValue} {i : Index} {outside : SymValue}
    {fallback : (k : Kind) → Term k → Encoding SymValue} {s s' : Encoder}
    (hf : (fallback (.bits i.width) i.term).run s = (.ok outside, s')) :
    (lookup (.array items) i.operand fallback).run s = (Operator.lookup items i outside, s') := by
  rw [lookup, indexOperands_eq_ok_iff.2 ⟨rfl, rfl⟩, run_bind_of_ok (run_lift (.ok (items, i)) s)]
  exact (run_bind_of_ok hf).trans (run_lift _ s')

theorem lookup_exact {items : List SymValue} {i : Index} {outside : SymValue}
    {fallback : (k : Kind) → Term k → Encoding SymValue} {s s' : Encoder}
    (hf : (fallback (.bits i.width) i.term).run s = (.ok outside, s'))
    (hs : ∀ v ∈ items, v.outline = outside.outline) :
    ∃ v, (lookup (.array items) i.operand fallback).run s = (.ok v, s') ∧ v.outline = outside.outline ∧
      (∀ model ρ (k : Nat) (hk : k < items.length), readBits i.isSigned (i.term.eval model ρ) = k →
        v.eval model ρ = items[k].eval model ρ) ∧
      (∀ model ρ, ¬(0 ≤ readBits i.isSigned (i.term.eval model ρ) ∧
        readBits i.isSigned (i.term.eval model ρ) < items.length) → v.eval model ρ = outside.eval model ρ) ∧
      -- elements that the index cannot name are as good as not there
      (lookup (.array (items.take i.limit)) i.operand fallback).run s = (.ok v, s') ∧
      (∀ model ρ, readBits i.isSigned (i.term.eval model ρ) < 0 → v.eval model ρ = outside.eval model ρ) := by
  obtain ⟨v, hv, ho⟩ := lookupFrom_of_outline i hs 0
  have hout model ρ (h : ¬(0 ≤ readBits i.isSigned (i.term.eval model ρ) ∧
      readBits i.isSigned (i.term.eval model ρ) < items.length)) : v.eval model ρ = outside.eval model ρ := by
    rw [lookup_eval hv, Data.lookup?_eq_none (by simpa using h), Option.getD_none]
  refine ⟨v, ?_, ho, fun model ρ k hk hi => ?_, hout, ?_, fun model ρ hi => hout model ρ (by omega)⟩
  · rw [run_lookup_array hf]
    exact congrArg (·, s') hv
  · rw [lookup_eval hv, Data.lookup?_map_of_lt _ hi hk, Option.getD_some]
  · rw [run_lookup_array hf, lookup_take]
    exact congrArg (·, s') hv

theorem lookup_exact_negative : ∃ v,
    (lookup (.array (List.replicate 300 (.struct [.scalar .bool (.bool true)]))) (.scalar (.int .w8) (literal (-56)))
      fun _ _ => pure (.struct [.scalar .bool (.bool false)])).run {} = (.ok v, {}) ∧
    ∀ model ρ, v.eval model ρ = .struct [.scalar .bool false] := by
  obtain ⟨v, hv, -, -, -, -, hn⟩ := @lookup_exact (List.replicate 300 (.struct [.scalar .bool (.bool true)]))
    ⟨true, .w8, literal (-56)⟩ (.struct [.scalar .bool (.bool false)])
    (fun _ _ => pure (.struct [.scalar .bool (.bool false)])) {} {} rfl
    (fun v hv => by rw [List.eq_of_mem_replicate hv]; simp [SymValue.outline])
  refine ⟨v, hv, fun model ρ => (hn model ρ ?_).trans ?_⟩
  · rw [eval_literal]
    decide
  · simp [Term.eval]

end Encoding

end OneStep
