import OneStep.CommandLine.Run
import OneStep.Proofs.Names
import OneStep.Proofs.Renaming

namespace OneStep

namespace Symbol

def shift (c : Nat) (s : Symbol) : Symbol :=
  { s with index := s.index.map (· + c) }

theorem shift_injective (c : Nat) : Function.Injective (shift c) := by
  rintro ⟨hint, i⟩ ⟨hint', i'⟩ h
  simp only [shift, mk.injEq] at h
  obtain ⟨rfl, hi⟩ := h
  rw [Option.map_injective (add_left_injective c) hi]

theorem shift_ofHint {hint : String} (h : Text.Avoids isZero hint) (c i : Nat) :
    (ofHint hint i).shift c = ofHint hint (i + c) := by
  rw [ofHint_of_avoids h, ofHint_of_avoids h]
  rfl

end Symbol

abbrev SymValue.later (c : Nat) : SymValue → SymValue :=
  rename (.shift c)

namespace Supply

def Later (c : Nat) (s s' : Supply) : Prop :=
  s'.count = s.count + c

theorem tracks_drawScalar (c : Nat) (t : StreamType) {hint : String} (h : Text.Avoids isZero hint) :
    Outcome.Tracks (Later c) (SymValue.later c) (drawScalar t hint) (drawScalar t hint) := by
  intro s s' hs
  have hc : Later c (s.counted hint t) (s'.counted hint t) := by
    simp only [Later, counted] at hs ⊢
    omega
  rw [run_drawScalar, run_drawScalar]
  cases t.tag with
  | error f => exact ⟨rfl, hs⟩
  | ok tag =>
    cases t.scalar with
    | error f => exact ⟨rfl, hc⟩
    | ok k =>
      refine ⟨?_, hc⟩
      cases Text.hasHalves (hintText hint) with
      | true => rfl
      | false =>
        have hv : symbolFor s' hint k = SymValue.later c (symbolFor s hint k) := by
          simp only [symbolFor, SymValue.rename_scalar, Term.rename]
          rw [Symbol.shift_ofHint (avoids_hintText isZero_unprinted h), hs]
        exact congrArg Except.ok hv

theorem tracks_draw (c : Nat) {t : StreamType} {hint : String} (h : Avoids isZero t hint) :
    Outcome.Tracks (Later c) (SymValue.later c) (draw t hint) (draw t hint) := by
  refine Inductive.draw
    (P := fun t hint m => Avoids isZero t hint → Outcome.Tracks (Later c) (SymValue.later c) m m)
    (Q := fun parts m => (∀ p ∈ parts, Avoids isZero p.1 p.2) →
      Outcome.Tracks (Later c) (List.map (SymValue.later c)) m m) ⟨?_, ?_, ?_, ?_, ?_⟩ t hint h
  · exact fun t hint _ _ h => tracks_drawScalar c t h.hint
  · exact fun _ => Outcome.tracks_pure rfl
  · intro t hint parts m n hm hn hp
    refine Outcome.tracks_bind (hm (hp _ (List.mem_cons_self ..))) fun v => ?_
    refine Outcome.tracks_bind (hn fun p h => hp p (List.mem_cons_of_mem _ h)) fun vs => ?_
    exact Outcome.tracks_pure rfl
  · intro length element hint m hm h
    refine Outcome.tracks_bind (hm (avoids_itemHints isZero_unprinted h)) fun items => ?_
    exact Outcome.tracks_pure (SymValue.rename_array items).symm
  · intro name fields hint m hm h
    refine Outcome.tracks_bind (hm (avoids_fieldHints isZero_unprinted h)) fun items => ?_
    exact Outcome.tracks_pure (SymValue.rename_struct items).symm

end Supply

def Lookup.rename (f : Symbol → Symbol) (l : Lookup) : Lookup :=
  ⟨l.element, l.array.rename f, l.kind, l.index.rename f⟩

theorem Lookup.rename_injective {f : Symbol → Symbol} (hf : Function.Injective f) :
    Function.Injective (Lookup.rename f) := by
  rintro ⟨t, x, k, i⟩ ⟨t', x', k', i'⟩ h
  simp only [Lookup.rename, Lookup.mk.injEq] at h
  obtain ⟨rfl, hx, rfl, hi⟩ := h
  rw [SymValue.rename_injective hf hx, Term.rename_injective hf (eq_of_heq hi)]

def Unknown.rename (f : Symbol → Symbol) : Unknown → Unknown
  | .past id o => .past id o
  | .input name o => .input name o
  | .outside l => .outside (l.rename f)

theorem Unknown.rename_injective {f : Symbol → Symbol} (hf : Function.Injective f) :
    Function.Injective (Unknown.rename f) := by
  intro u u' h
  cases u <;> cases u' <;> simp only [rename, reduceCtorEq, outside.injEq, past.injEq, input.injEq] at h
  · rw [h.1, h.2]
  · rw [h.1, h.2]
  · rw [Lookup.rename_injective hf h]

structure Encoder.Later (c : Nat) (s s' : Encoder) : Prop where
  supply : s.supply.Later c s'.supply
  memo : ∀ u, s'.memo.find? (u.rename (.shift c)) = (s.memo.find? u).map (SymValue.later c)

namespace Encoding

variable {c : Nat} {registry : Registry}

abbrev Tracks {α : Type} (c : Nat) (g : α → α) (m m' : Encoding α) : Prop :=
  Outcome.Tracks (Encoder.Later c) g m m'

theorem tracks_draw {t : StreamType} {hint : String} (h : Supply.Avoids isZero t hint) :
    Tracks c (SymValue.later c) (draw t hint) (draw t hint) := by
  intro s s' hs
  obtain ⟨hv, hc⟩ := Supply.tracks_draw c h s.supply s'.supply hs.supply
  exact ⟨hv, hc, hs.memo⟩

theorem tracks_note (e : Event) : Tracks c id (note e) (note e) :=
  fun _ _ hs => ⟨rfl, hs.supply, hs.memo⟩

def remember (u : Unknown) (v : SymValue) : Encoding Unit :=
  modify fun encoder => { encoder with memo := encoder.memo.add v u }

theorem run_memoized_none {u : Unknown} {make : Encoding SymValue} {after : Encoding Unit} {s : Encoder}
    (h : s.memo.find? u = none) :
    (memoized u make after).run s =
      (do miss; let v ← make; remember u v; after; return v : Encoding SymValue).run s := by
  have hg : (get : Encoding Encoder).run s = (.ok s, s) := rfl
  rw [memoized, Outcome.run_bind_of_ok hg, h]
  rfl

theorem tracks_remember (u : Unknown) (v : SymValue) :
    Tracks c id (remember u v) (remember (u.rename (.shift c)) (v.later c)) := by
  refine fun s s' hs => ⟨rfl, hs.supply, fun u' => ?_⟩
  show (s'.memo.add (v.later c) (u.rename (.shift c))).find? (u'.rename (.shift c)) =
    ((s.memo.add v u).find? u').map (SymValue.later c)
  simp only [Memo.find?_add, hs.memo, (Unknown.rename_injective (Symbol.shift_injective c)).eq_iff, Option.map_or]
  split <;> rfl

theorem tracks_memoized (u : Unknown) {make make' : Encoding SymValue} {after : Encoding Unit}
    (hm : Tracks c (SymValue.later c) make make') (ha : Tracks c id after after) :
    Tracks c (SymValue.later c) (memoized u make after) (memoized (u.rename (.shift c)) make' after) := by
  intro s s' hs
  have hu := hs.memo u
  cases hf : s.memo.find? u with
  | some v =>
    rw [hf] at hu
    rw [run_memoized, run_memoized, hf, hu]
    exact ⟨rfl, hs.supply, hs.memo⟩
  | none =>
    rw [hf] at hu
    rw [run_memoized_none hf, run_memoized_none hu]
    have hmiss : Tracks c id miss miss := fun _ _ hs => ⟨rfl, hs.supply, hs.memo⟩
    have hdone : ∀ v, Tracks c (SymValue.later c) (pure v) (pure (v.later c)) := fun v => Outcome.tracks_pure rfl
    exact Outcome.tracks_bind hmiss (fun _ => Outcome.tracks_bind hm fun v =>
      Outcome.tracks_bind (tracks_remember u v) fun _ => Outcome.tracks_bind ha fun _ => hdone v) s s' hs

theorem tracks_checked (e : Expr) (v : SymValue) :
    Tracks c (SymValue.later c) (checked e v) (checked e (v.later c)) := by
  unfold checked
  refine Outcome.tracks_bind_lift fun tag _ => ?_
  rw [SymValue.tag_rename]
  split
  · intro s s' hs
    rw [run_share, run_share]
    exact ⟨rfl, hs.supply, hs.memo⟩
  · exact Outcome.tracks_bind_lift fun _ _ => Outcome.tracks_throw _

theorem tracks_past (hr : ∀ id st, registry.find? id = some st → ∀ name ∈ st.type.names, Text.Avoids isZero name)
    (id o : Int) : Tracks c (SymValue.later c) (past registry id o) (past registry id o) := by
  rw [past_eq]
  split
  · exact Outcome.tracks_throw _
  · refine tracks_memoized (.past id o) ?_ (tracks_note _)
    refine Outcome.tracks_bind_lift fun st hst => ?_
    refine Outcome.tracks_bind_lift fun i hi => Outcome.tracks_bind_lift fun n hn => ?_
    rw [writeInt_eq_ok hi, writeInt_eq_ok hn]
    exact tracks_draw (Supply.avoids_pastHint isZero_unprinted id o (hr id st (Registry.get_eq_ok_iff.1 hst)))

theorem tracks_input {t : StreamType} {name : String} (h : (Expr.input t name).Avoids isZero) (o : Int) :
    Tracks c (SymValue.later c) (input name t o) (input name t o) := by
  rw [input_eq]
  split
  · exact Outcome.tracks_throw _
  · refine tracks_memoized (.input name o) ?_ (Outcome.tracks_pure rfl)
    refine Outcome.tracks_bind_lift fun n hn => ?_
    rw [writeInt_eq_ok hn]
    exact tracks_draw (Supply.avoids_inputHint isZero_unprinted o h.inputName h.inputType)

theorem tracks_outside (l : Lookup) (h : ∀ name ∈ l.element.names, Text.Avoids isZero name) :
    Tracks c (SymValue.later c) (outside l) (outside (l.rename (.shift c))) := by
  rw [outside_eq, outside_eq]
  exact tracks_memoized (.outside l) (tracks_draw (Supply.avoids_outsideHint isZero_unprinted h))
    (Outcome.tracks_pure rfl)

theorem tracks_binary (op : BinaryOp) (x y : SymValue) {t : StreamType}
    (h : op = .index → ∀ name ∈ t.names, Text.Avoids isZero name) :
    Tracks c (SymValue.later c) (binary op x y t) (binary op (x.later c) (y.later c) t) := by
  by_cases hop : op = .index
  · subst hop
    refine Outcome.tracks_bind (Outcome.tracks_lift (Operator.indexOperands_rename x y)) fun (items, i) => ?_
    refine Outcome.tracks_bind (tracks_outside ⟨t, x, .bits i.width, i.term⟩ (h rfl)) fun w => ?_
    exact Outcome.tracks_lift (Operator.lookupFrom_rename i w 0 items)
  · rw [binary_of_ne_index hop, binary_of_ne_index hop]
    exact Outcome.tracks_lift (Operator.binary_rename op x y)

theorem tracks_const (t : StreamType) (d : Datum) :
    Tracks c (SymValue.later c) (liftM (Constant.encode t d)) (liftM (Constant.encode t d)) := by
  refine Outcome.tracks_lift ?_
  cases hv : Constant.encode t d with
  | error e => rfl
  | ok v => exact congrArg Except.ok (Constant.rename_of_encode hv).symm

theorem inductive_tracks (c : Nat) (hr : ∀ id st, registry.find? id = some st →
      (∀ name ∈ st.type.names, Text.Avoids isZero name) ∧ st.expr.Avoids isZero) :
    Inductive registry (fun _ => True) (fun e _ m => e.Avoids isZero → Tracks c (SymValue.later c) m m)
      (fun st _ m => st.expr.Avoids isZero → Tracks c (SymValue.later c) m m) where
  future _ _ _ _ := Outcome.tracks_throw _
  const t d _ _ := tracks_const t d
  past t k id o _ _ _ := Outcome.tracks_bind (tracks_past (fun id st h => (hr id st h).1) id (o + k)) fun v =>
    tracks_checked _ v
  present t k id o m _ _ _ hm _ := Outcome.tracks_bind_lift fun st hst =>
    have hf := Registry.get_eq_ok_iff.1 hst
    Outcome.tracks_bind (hm st hf (hr id st hf).2) fun v => tracks_checked _ v
  input t name o _ h := Outcome.tracks_bind (tracks_input h o) fun v => tracks_checked _ v
  unary t op arg field o m _ _ hm h := Outcome.tracks_bind (hm h.arg) fun x =>
    Outcome.tracks_bind_lift fun position _ =>
      Outcome.tracks_bind (Outcome.tracks_lift (Operator.unary_rename op x t _)) fun v => tracks_checked _ v
  binary t op left right o m n _ _ _ hm hn h := by
    refine Outcome.tracks_bind (hm h.left) fun x => Outcome.tracks_bind (hn h.right) fun y => ?_
    refine Outcome.tracks_bind (tracks_binary op x y ?_) fun v => tracks_checked _ v
    rintro rfl
    exact h.element
  ternary t op first second third o l m n _ _ _ _ hl hm hn h := by
    refine Outcome.tracks_bind (hl h.first) fun x => Outcome.tracks_bind (hm h.second) fun y => ?_
    refine Outcome.tracks_bind (hn h.third) fun z => ?_
    exact Outcome.tracks_bind (Outcome.tracks_lift (Operator.ternary_rename op x y z)) fun v => tracks_checked _ v
  refused _ _ _ _ _ _ := Outcome.tracks_throw _
  exhausted _ _ _ := Outcome.tracks_throw _
  repeated _ _ _ := Outcome.tracks_bind (tracks_note _) fun _ => Outcome.tracks_throw _
  unrolled _ _ _ _ hm h := Outcome.tracks_bind (tracks_note _) fun _ => hm h

theorem tracks_encodeProperty (c : Nat) (hr : ∀ id st, registry.find? id = some st →
      (∀ name ∈ st.type.names, Text.Avoids isZero name) ∧ st.expr.Avoids isZero)
    {e : Expr} (h : e.Avoids isZero) :
    Tracks c (Term.rename (.shift c)) (encodeProperty registry e) (encodeProperty registry e) := by
  have he : Tracks c (SymValue.later c) (encode registry e 0) (encode registry e 0) :=
    (inductive_tracks c hr).encode (.trivially registry _) e 0 h
  refine Outcome.tracks_bind he fun v => ?_
  have hrefused : Tracks c (Term.rename (.shift c))
      (throw (mismatch "property" "BOOL" v.tag.name) : Encoding (Term .bool))
      (throw (mismatch "property" "BOOL" (v.later c).tag.name)) := by
    rw [SymValue.tag_rename]
    exact Outcome.tracks_throw _
  rcases v with ⟨_ | w | w | p, t⟩ | xs | xs
  · exact Outcome.tracks_pure rfl
  all_goals exact hrefused

end Encoding

theorem Prover.run_encodeProperty (registry : Registry) (e : Expr) (progress : Progress) :
    (encodeProperty registry e).run progress =
      match (Encoding.encodeProperty registry e).run { supply := progress.supply } with
      | (result, encoder) => (.ok (result, encoder.memo), { progress with supply := encoder.supply }) :=
  rfl

theorem Encoder.later_of_fresh (supply : Supply) : Encoder.Later supply.count {} { supply } where
  supply := (Nat.zero_add _).symm
  memo u := by cases u <;> rfl

theorem properties_isolated (spec : Spec) (registry : Registry) (hr : Registry.ofStreams spec.streams = .ok registry)
    (hz : ∀ name ∈ spec.names, '\x00' ∉ name.toList) (p : Property) (hp : p ∈ spec.properties) (progress : Progress) :
    ∃ result memo progress' alone memo₀ progress₀,
      (Prover.encodeProperty registry p.expr).run progress = (.ok (result, memo), progress') ∧
      (Prover.encodeProperty registry p.expr).run {} = (.ok (alone, memo₀), progress₀) ∧
      result = Term.rename (.shift progress.supply.count) <$> alone ∧
      Function.Injective (Symbol.shift progress.supply.count) ∧
      progress'.supply.count = progress₀.supply.count + progress.supply.count ∧
      (∀ t t₀ model, result = .ok t → alone = .ok t₀ →
        ((∀ ρ, t.eval model ρ = true) ↔ ∀ ρ, t₀.eval model ρ = true)) ∧
      ∀ yaml files request, Spec.load yaml files request.file = .ok spec →
        spec.properties.find? (·.name = request.property) = some p →
        (CommandLine.formulaOf yaml files request).run {} = (some <$> alone, progress₀) := by
  have hz' : ∀ name ∈ spec.names, Text.Avoids isZero name := fun name hname => avoids_isZero.2 (hz name hname)
  have hstreams := fun id st (h : registry.find? id = some st) =>
    Spec.avoids_stream hz' (Registry.find?_ofStreams hr h).1
  have ht := Encoding.tracks_encodeProperty progress.supply.count hstreams (Spec.avoids_property hz' hp) {}
    { supply := progress.supply } (Encoder.later_of_fresh progress.supply)
  rcases hrun : (Encoding.encodeProperty registry p.expr).run { supply := progress.supply } with ⟨result, encoder⟩
  rcases hrun₀ : (Encoding.encodeProperty registry p.expr).run {} with ⟨alone, encoder₀⟩
  rw [hrun, hrun₀] at ht
  obtain ⟨hv, hc⟩ := ht
  refine ⟨result, encoder.memo, { progress with supply := encoder.supply }, alone, encoder₀.memo,
    { supply := encoder₀.supply }, ?_, ?_, hv, Symbol.shift_injective _, hc.supply, ?_, ?_⟩
  · rw [Prover.run_encodeProperty, hrun]
  · rw [Prover.run_encodeProperty, hrun₀]
  · rintro t t₀ model rfl rfl
    cases hv
    exact Term.valid_rename_iff (Symbol.shift_injective _) model t₀
  · intro yaml files request hl hf
    unfold CommandLine.formulaOf
    rw [hl]
    refine (Outcome.run_bind_of_ok (a := spec) rfl).trans ?_
    rw [hr]
    refine (Outcome.run_bind_of_ok (a := registry) rfl).trans ?_
    rw [hf]
    have he : (Prover.encodeProperty registry p.expr).run {} =
        (.ok (alone, encoder₀.memo), { supply := encoder₀.supply }) := by
      rw [Prover.run_encodeProperty, hrun₀]
    refine (Outcome.run_bind_of_ok he).trans ?_
    cases alone <;> rfl

def equalInputs (x y : String) : Expr :=
  .binary .bool .eq (.input .bool x) (.input .bool y)

theorem equal_inputs_isolated : ∃ result memo progress' alone memo₀ progress₀,
    (Prover.encodeProperty {} (equalInputs "a" "b")).run { supply := { count := 5 } } =
      (.ok (result, memo), progress') ∧
    (Prover.encodeProperty {} (equalInputs "a" "b")).run {} = (.ok (alone, memo₀), progress₀) ∧
    result = Term.rename (.shift 5) <$> alone := by
  obtain ⟨result, memo, progress', alone, memo₀, progress₀, h, h₀, he, _⟩ :=
    properties_isolated ⟨[], [⟨"p", equalInputs "a" "b"⟩]⟩ {} rfl (by decide) ⟨"p", equalInputs "a" "b"⟩
      (List.mem_singleton.2 rfl) { supply := { count := 5 } }
  exact ⟨result, memo, progress', alone, memo₀, progress₀, h, h₀, he⟩

theorem run_equalInputs {x y : String} (hxy : x ≠ y)
    (hx : Text.hasHalves (Supply.hintText (Encoding.inputHint x 0)) = false)
    (hy : Text.hasHalves (Supply.hintText (Encoding.inputHint y 0)) = false) (progress : Progress) :
    ∃ memo progress', (Prover.encodeProperty {} (equalInputs x y)).run progress = (.ok (.ok (.binary .iff
        (.symbol (.ofHint (Supply.hintText (Encoding.inputHint x 0)) progress.supply.count) .bool)
        (.symbol (.ofHint (Supply.hintText (Encoding.inputHint y 0)) (progress.supply.count + 1)) .bool)),
        memo), progress') ∧
      progress'.supply.count = progress.supply.count + 2 := by
  obtain ⟨s', h, hc⟩ := Encoding.run_equal_inputs {} hxy hx hy (s := { supply := progress.supply }) rfl
  refine ⟨s'.memo, { progress with supply := s'.supply }, ?_, hc⟩
  rw [Prover.run_encodeProperty, equalInputs, h]

theorem zero_in_names_ties_properties : ∃ first memo₁ progress t memo progress' t₀ memo₀ progress₀,
    (Prover.encodeProperty {} (equalInputs "a" "b")).run {} = (.ok (.ok first, memo₁), progress) ∧
    (Prover.encodeProperty {} (equalInputs "y_0!3\x00" "y")).run progress = (.ok (.ok t, memo), progress') ∧
    (Prover.encodeProperty {} (equalInputs "y_0!3\x00" "y")).run {} = (.ok (.ok t₀, memo₀), progress₀) ∧
    ∀ model, (∀ ρ, t.eval model ρ = true) ∧ ∃ ρ, t₀.eval model ρ = false := by
  obtain ⟨memo₁, progress, h₁, hc⟩ := run_equalInputs (x := "a") (y := "b") (by decide) (by decide) (by decide) {}
  obtain ⟨memo, progress', h, _⟩ :=
    run_equalInputs (x := "y_0!3\x00") (y := "y") (by decide) (by decide) (by decide) progress
  obtain ⟨memo₀, progress₀, h₀, _⟩ :=
    run_equalInputs (x := "y_0!3\x00") (y := "y") (by decide) (by decide) (by decide) {}
  refine ⟨_, _, _, _, _, _, _, _, _, h₁, h, h₀, fun model => ⟨fun ρ => ?_, ?_⟩⟩
  · have hs : Symbol.ofHint (Supply.hintText (Encoding.inputHint "y_0!3\x00" 0)) 2 =
        Symbol.ofHint (Supply.hintText (Encoding.inputHint "y" 0)) (2 + 1) := by decide
    have hc' : progress.supply.count = 2 := hc
    rw [hc']
    simp [Term.eval, CoreBinary.apply, hs]
  · refine ⟨.marking 1, ?_⟩
    have hx : Symbol.ofHint (Supply.hintText (Encoding.inputHint "y_0!3\x00" 0)) 0 = ⟨"y_0", some 3⟩ := by decide
    have hy : Symbol.ofHint (Supply.hintText (Encoding.inputHint "y" 0)) (0 + 1) = ⟨"y_0", some 1⟩ := by decide
    rw [hx, hy]
    rfl

end OneStep
