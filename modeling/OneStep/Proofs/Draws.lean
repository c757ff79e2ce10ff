import OneStep.Proofs.Shape
import OneStep.Symbolic.Fresh

namespace OneStep

theorem StreamType.scalar_eq_ok_iff {t : StreamType} {k : Scalar} : t.scalar = .ok k ↔ t = .ofScalar k := by
  rw [← scalar?_eq_some_iff]
  unfold scalar
  cases t.scalar? <;> simp

namespace Supply

def drawAll : List (StreamType × String) → Drawing (List SymValue)
  | [] => return []
  | (t, hint) :: parts => do
    let v ← draw t hint
    let vs ← drawAll parts
    return v :: vs

def itemHints (length : Nat) (element : StreamType) (hint : String) : List (StreamType × String) :=
  (List.range length).map fun i => (element, s!"{hint}[{i}]")

def fieldHints (fields : List (String × StreamType)) (hint : String) : List (StreamType × String) :=
  fields.map fun (name, t) => (t, s!"{hint}.{name}")

theorem drawAll_map {ι : Type} (f : ι → StreamType × String) (xs : List ι) :
    drawAll (xs.map f) = xs.mapM fun i => draw (f i).1 (f i).2 := by
  induction xs with
  | nil => rfl
  | cons x xs ih => simp only [List.map_cons, drawAll, List.mapM_cons, ih]

theorem draw_array (length : Nat) (element : StreamType) (hint : String) :
    draw (.array length element) hint = do
      let items ← drawAll (itemHints length element hint)
      return .array items := by
  rw [draw, itemHints, drawAll_map]

theorem drawFields_eq (fields : List (String × StreamType)) (hint : String) :
    drawFields fields hint = drawAll (fieldHints fields hint) := by
  induction fields with
  | nil => rfl
  | cons f fields ih =>
    obtain ⟨name, t⟩ := f
    rw [drawFields, ih]
    rfl

theorem draw_struct (name : String) (fields : List (String × StreamType)) (hint : String) :
    draw (.struct name fields) hint = do
      let items ← drawAll (fieldHints fields hint)
      return .struct items := by
  rw [draw, drawFields_eq]

structure Inductive (P : StreamType → String → Drawing SymValue → Prop)
    (Q : List (StreamType × String) → Drawing (List SymValue) → Prop) : Prop where
  scalar : ∀ t hint, (∀ length element, t ≠ .array length element) → (∀ name fields, t ≠ .struct name fields) →
    P t hint (drawScalar t hint)
  nil : Q [] (pure [])
  cons : ∀ t hint parts m n, P t hint m → Q parts n → Q ((t, hint) :: parts) (do
    let v ← m
    let vs ← n
    return v :: vs)
  array : ∀ length element hint m, Q (itemHints length element hint) m → P (.array length element) hint (do
    let items ← m
    return .array items)
  struct : ∀ name fields hint m, Q (fieldHints fields hint) m → P (.struct name fields) hint (do
    let items ← m
    return .struct items)

namespace Inductive

variable {P : StreamType → String → Drawing SymValue → Prop}
  {Q : List (StreamType × String) → Drawing (List SymValue) → Prop}

theorem drawAll (hi : Inductive P Q) {parts : List (StreamType × String)}
    (h : ∀ p ∈ parts, P p.1 p.2 (Supply.draw p.1 p.2)) : Q parts (Supply.drawAll parts) := by
  induction parts with
  | nil => exact hi.nil
  | cons p parts ih =>
    obtain ⟨t, hint⟩ := p
    exact hi.cons t hint parts _ _ (h (t, hint) (List.mem_cons_self ..))
      (ih fun p hp => h p (List.mem_cons_of_mem _ hp))

theorem draw (hi : Inductive P Q) (t : StreamType) (hint : String) : P t hint (Supply.draw t hint) := by
  induction t using StreamType.shape_induction generalizing hint with
  | unknown => exact hi.scalar _ hint (by simp) (by simp)
  | bool => exact hi.scalar _ hint (by simp) (by simp)
  | int bits => exact hi.scalar _ hint (by simp) (by simp)
  | word bits => exact hi.scalar _ hint (by simp) (by simp)
  | float bits => exact hi.scalar _ hint (by simp) (by simp)
  | array length element ih =>
    rw [draw_array]
    refine hi.array length element hint _ (hi.drawAll fun p hp => ?_)
    obtain ⟨i, _, rfl⟩ := List.mem_map.1 hp
    exact ih _
  | struct name fields ih =>
    rw [draw_struct]
    refine hi.struct name fields hint _ (hi.drawAll fun p hp => ?_)
    obtain ⟨f, hf, rfl⟩ := List.mem_map.1 hp
    exact ih f hf _

end Inductive

def counted (s : Supply) (hint : String) (t : StreamType) : Supply :=
  ⟨s.count + 1, .fresh (Symbol.fullName (hintText hint) s.count) t :: s.journal⟩

def symbolFor (s : Supply) (hint : String) (k : Scalar) : SymValue :=
  .scalar k (.symbol (.ofHint (hintText hint) s.count) k.kind)

theorem run_drawScalar (t : StreamType) (hint : String) (s : Supply) :
    (drawScalar t hint).run s = match t.tag, t.scalar with
      | .error f, _ => (.error f, s)
      | .ok _, .error f => (.error f, counted s hint t)
      | .ok _, .ok k =>
        (if Text.hasHalves (hintText hint) then .error .halfInName else .ok (symbolFor s hint k),
          counted s hint t) := by
  unfold drawScalar
  rw [Outcome.run_bind, Outcome.run_lift]
  cases t.tag with
  | error f => rfl
  | ok tag =>
    cases t.scalar with
    | error f => rfl
    | ok k =>
      cases hh : Text.hasHalves (hintText hint) with
      | true => simp only [hh, if_true]; rfl
      | false => simp only [hh]; rfl

theorem run_drawScalar_eq_ok_iff {t : StreamType} {hint : String} {s s' : Supply} {v : SymValue} :
    (drawScalar t hint).run s = (.ok v, s') ↔ ∃ k, t = .ofScalar k ∧ Text.hasHalves (hintText hint) = false ∧
      v = symbolFor s hint k ∧ s' = counted s hint t := by
  rw [run_drawScalar]
  constructor
  · intro h
    split at h
    · cases h
    · cases h
    · next tag k _ hk =>
      cases hh : Text.hasHalves (hintText hint) with
      | true =>
        rw [hh] at h
        cases h
      | false =>
        rw [hh] at h
        cases h
        exact ⟨k, StreamType.scalar_eq_ok_iff.1 hk, rfl, rfl, rfl⟩
  · rintro ⟨k, rfl, hh, rfl, rfl⟩
    simp [StreamType.tag_ofScalar, StreamType.scalar, StreamType.scalar?_ofScalar, hh]

theorem moves_draw {R : Supply → Supply → Prop} [IsPreorder Supply R] (h : ∀ s hint t, R s (counted s hint t))
    (t : StreamType) (hint : String) : Outcome.Moves R (draw t hint) := by
  refine Inductive.draw (P := fun _ _ m => Outcome.Moves R m) (Q := fun _ m => Outcome.Moves R m)
    ⟨?_, ?_, ?_, ?_, ?_⟩ t hint
  · intro t hint _ _ s
    rw [run_drawScalar]
    split
    · exact refl s
    · exact h s hint t
    · exact h s hint t
  · exact Outcome.moves_pure _
  · intro t hint parts m n hm hn
    exact Outcome.moves_bind hm fun v => Outcome.moves_bind hn fun vs => Outcome.moves_pure _
  · intro length element hint m hm
    exact Outcome.moves_bind hm fun items => Outcome.moves_pure _
  · intro name fields hint m hm
    exact Outcome.moves_bind hm fun items => Outcome.moves_pure _

instance : IsPreorder Supply fun s s' => s.count ≤ s'.count where
  refl s := Nat.le_refl s.count
  trans _ _ _ h h' := Nat.le_trans h h'

theorem count_le_draw (t : StreamType) (hint : String) (s : Supply) : s.count ≤ ((draw t hint).run s).2.count :=
  moves_draw (R := fun s s' => s.count ≤ s'.count) (fun s _ _ => Nat.le_succ s.count) t hint s

theorem conforms_of_draw {t : StreamType} {hint : String} {s s' : Supply} {v : SymValue}
    (h : (draw t hint).run s = (.ok v, s')) : v.Conforms t := by
  refine Inductive.draw (P := fun t _ m => ∀ s v s', m.run s = (.ok v, s') → v.Conforms t)
    (Q := fun parts m => ∀ s vs s', m.run s = (.ok vs, s') → List.Forall₂ (fun p v => v.Conforms p.1) parts vs)
    ⟨?_, ?_, ?_, ?_, ?_⟩ t hint s v s' h
  · intro t hint _ _ s v s' h
    obtain ⟨k, rfl, _, rfl, _⟩ := run_drawScalar_eq_ok_iff.1 h
    exact (Value.conforms_scalar ..).2 rfl
  · intro s vs s' h
    cases h
    exact .nil
  · intro t hint parts m n hm hn s vs s' h
    obtain ⟨v, s₁, hv, h⟩ := Outcome.run_bind_eq_ok_iff.1 h
    obtain ⟨vs, s₂, hvs, h⟩ := Outcome.run_bind_eq_ok_iff.1 h
    cases h
    exact .cons (hm _ _ _ hv) (hn _ _ _ hvs)
  · intro length element hint m hm s v s' h
    obtain ⟨items, s₁, hi, h⟩ := Outcome.run_bind_eq_ok_iff.1 h
    cases h
    have hl := hm _ _ _ hi
    simp only [itemHints, List.forall₂_map_left_iff] at hl
    refine (Value.conforms_array ..).2 ⟨element, by simp [← hl.length_eq], fun v hv => ?_⟩
    obtain ⟨_, _, h⟩ := Outcome.forall₂_exists_of_mem hl.flip hv
    exact h
  · intro name fields hint m hm s v s' h
    obtain ⟨items, s₁, hi, h⟩ := Outcome.run_bind_eq_ok_iff.1 h
    cases h
    refine (Value.conforms_struct ..).2 ⟨name, fields, rfl, ?_⟩
    simpa only [fieldHints, List.forall₂_map_left_iff] using hm _ _ _ hi

end Supply

end OneStep
