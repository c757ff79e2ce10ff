import OneStep.Proofs.Evaluation
import OneStep.Proofs.Names

namespace OneStep

namespace Assignment

def AgreeBelow (c : Nat) (ρ ρ' : Assignment) : Prop :=
  ∀ hint i k, i < c → ρ ⟨hint, some i⟩ k = ρ' ⟨hint, some i⟩ k

theorem AgreeBelow.refl (c : Nat) (ρ : Assignment) : AgreeBelow c ρ ρ :=
  fun _ _ _ _ => rfl

theorem AgreeBelow.trans {c c' : Nat} {ρ ρ' ρ'' : Assignment} (h : AgreeBelow c ρ ρ') (h' : AgreeBelow c' ρ' ρ'')
    (hc : c ≤ c') : AgreeBelow c ρ ρ'' :=
  fun hint i k hi => (h hint i k hi).trans (h' hint i k (Nat.lt_of_lt_of_le hi hc))

def update (ρ : Assignment) (s : Symbol) (k : Kind) (x : k.Carrier) : Assignment :=
  fun s' k' => if h : s' = s ∧ k = k' then h.2 ▸ x else ρ s' k'

theorem update_self (ρ : Assignment) (s : Symbol) (k : Kind) (x : k.Carrier) : ρ.update s k x s k = x := by
  simp [update]

theorem agreeBelow_update (ρ : Assignment) (hint : String) (c : Nat) (k : Kind) (x : k.Carrier) :
    AgreeBelow c ρ (ρ.update ⟨hint, some c⟩ k x) := by
  intro hint' i k' hi
  have hne : ¬((⟨hint', some i⟩ : Symbol) = ⟨hint, some c⟩ ∧ k = k') := by
    rintro ⟨h, _⟩
    cases h
    exact Nat.lt_irrefl _ hi
  rw [update, dif_neg hne]

end Assignment

namespace Supply

variable {model : FloatModel}

def Assigns (model : FloatModel) (t : StreamType) (hint : String) (m : Drawing SymValue) : Prop :=
  Avoids isZero t hint → ∀ s v s', m.run s = (.ok v, s') → s.count ≤ s'.count ∧
    ∀ x : Data, x.Conforms t → ∀ ρ, ∃ ρ', Assignment.AgreeBelow s.count ρ ρ' ∧
      ∀ ρ'', Assignment.AgreeBelow s'.count ρ' ρ'' → v.eval model ρ'' = x

def AssignsAll (model : FloatModel) (parts : List (StreamType × String)) (m : Drawing (List SymValue)) : Prop :=
  (∀ p ∈ parts, Avoids isZero p.1 p.2) → ∀ s vs s', m.run s = (.ok vs, s') → s.count ≤ s'.count ∧
    ∀ xs : List Data, List.Forall₂ (fun p x => Value.Conforms p.1 x) parts xs →
      ∀ ρ, ∃ ρ', Assignment.AgreeBelow s.count ρ ρ' ∧
        ∀ ρ'', Assignment.AgreeBelow s'.count ρ' ρ'' → vs.map (SymValue.eval model ρ'') = xs

theorem assigns_scalar (t : StreamType) (hint : String) : Assigns model t hint (drawScalar t hint) := by
  intro ha s v s' h
  obtain ⟨k, rfl, _, rfl, rfl⟩ := run_drawScalar_eq_ok_iff.1 h
  refine ⟨Nat.le_succ _, fun x hx ρ => ?_⟩
  obtain ⟨c, rfl⟩ := Value.conforms_ofScalar.1 hx
  have hs := Symbol.ofHint_of_avoids (avoids_hintText isZero_unprinted ha.hint) s.count
  refine ⟨ρ.update ⟨hintText hint, some s.count⟩ k.kind c, ρ.agreeBelow_update _ _ _ _, fun ρ'' hρ'' => ?_⟩
  have hc := hρ'' (hintText hint) s.count k.kind (Nat.lt_succ_self _)
  rw [Assignment.update_self] at hc
  rw [symbolFor, SymValue.eval_scalar, hs, Term.eval, ← hc]

theorem assigns_nil : AssignsAll model [] (pure []) := by
  intro _ s vs s' h
  cases h
  refine ⟨Nat.le_refl _, fun xs hxs ρ => ⟨ρ, .refl _ ρ, fun _ _ => ?_⟩⟩
  cases hxs
  rfl

theorem assigns_cons {t : StreamType} {hint : String} {parts : List (StreamType × String)} {m : Drawing SymValue}
    {n : Drawing (List SymValue)} (hm : Assigns model t hint m) (hn : AssignsAll model parts n) :
    AssignsAll model ((t, hint) :: parts) (do
      let v ← m
      let vs ← n
      return v :: vs) := by
  intro ha s us s' h
  obtain ⟨v, s₁, hv, h⟩ := Outcome.run_bind_eq_ok_iff.1 h
  obtain ⟨vs, s₂, hvs, h⟩ := Outcome.run_bind_eq_ok_iff.1 h
  cases h
  obtain ⟨hc, hx⟩ := hm (ha (t, hint) (List.mem_cons_self ..)) _ _ _ hv
  obtain ⟨hcs, hxs⟩ := hn (fun p hp => ha p (List.mem_cons_of_mem _ hp)) _ _ _ hvs
  refine ⟨Nat.le_trans hc hcs, fun ys hys ρ => ?_⟩
  obtain ⟨y, ys', hy, hys', rfl⟩ := List.forall₂_cons_left_iff.1 hys
  obtain ⟨ρ₁, hρ₁, he₁⟩ := hx y hy ρ
  obtain ⟨ρ₂, hρ₂, he₂⟩ := hxs ys' hys' ρ₁
  refine ⟨ρ₂, hρ₁.trans hρ₂ hc, fun ρ'' hρ'' => ?_⟩
  rw [List.map_cons, he₁ ρ'' (hρ₂.trans hρ'' hcs), he₂ ρ'' hρ'']

theorem forall₂_itemHints {element : StreamType} {hint : String} {items : List Data}
    (h : ∀ x ∈ items, Value.Conforms element x) :
    List.Forall₂ (fun p x => Value.Conforms p.1 x) (itemHints items.length element hint) items := by
  rw [itemHints, List.forall₂_map_left_iff, List.forall₂_iff_get]
  refine ⟨by simp, fun i hi hi' => h _ (List.get_mem ..)⟩

theorem assigns_array {length : Nat} {element : StreamType} {hint : String} {m : Drawing (List SymValue)}
    (hm : AssignsAll model (itemHints length element hint) m) : Assigns model (.array length element) hint (do
      let items ← m
      return .array items) := by
  intro ha s v s' h
  obtain ⟨vs, s₁, hvs, h⟩ := Outcome.run_bind_eq_ok_iff.1 h
  cases h
  obtain ⟨hc, hxs⟩ := hm (avoids_itemHints isZero_unprinted ha) _ _ _ hvs
  refine ⟨hc, fun x hx ρ => ?_⟩
  obtain ⟨items, rfl, rfl, hi⟩ := Value.conforms_array_iff.1 hx
  obtain ⟨ρ', hρ', he⟩ := hxs items (forall₂_itemHints hi) ρ
  exact ⟨ρ', hρ', fun ρ'' hρ'' => by rw [SymValue.eval_array, he ρ'' hρ'']⟩

theorem assigns_struct {name : String} {fields : List (String × StreamType)} {hint : String}
    {m : Drawing (List SymValue)} (hm : AssignsAll model (fieldHints fields hint) m) :
    Assigns model (.struct name fields) hint (do
      let items ← m
      return .struct items) := by
  intro ha s v s' h
  obtain ⟨vs, s₁, hvs, h⟩ := Outcome.run_bind_eq_ok_iff.1 h
  cases h
  obtain ⟨hc, hxs⟩ := hm (avoids_fieldHints isZero_unprinted ha) _ _ _ hvs
  refine ⟨hc, fun x hx ρ => ?_⟩
  obtain ⟨items, rfl, hi⟩ := Value.conforms_struct_iff.1 hx
  obtain ⟨ρ', hρ', he⟩ := hxs items (List.forall₂_map_left_iff.2 hi) ρ
  exact ⟨ρ', hρ', fun ρ'' hρ'' => by rw [SymValue.eval_struct, he ρ'' hρ'']⟩

theorem assigns_draw (model : FloatModel) (t : StreamType) (hint : String) : Assigns model t hint (draw t hint) :=
  Inductive.draw (Q := AssignsAll model) ⟨fun t hint _ _ => assigns_scalar t hint, assigns_nil,
    fun _ _ _ _ _ hm hn => assigns_cons hm hn, fun _ _ _ _ hm => assigns_array hm,
    fun _ _ _ _ hm => assigns_struct hm⟩ t hint

end Supply

def Encoder.Settles (env : Surroundings) (model : FloatModel) (ρ : Assignment) (s : Encoder) : Prop :=
  ∀ ρ', ρ.AgreeBelow s.supply.count ρ' → env.Covers model ρ' s.memo

def Encoder.Extends (env : Surroundings) (model : FloatModel) (s s' : Encoder) : Prop :=
  ∀ ρ, s.Settles env model ρ → ∃ ρ', ρ.AgreeBelow s.supply.count ρ' ∧ s'.Settles env model ρ'

namespace Encoder

variable {env : Surroundings} {model : FloatModel} {s s' s'' : Encoder}

theorem extends_of_eq (hc : s'.supply.count = s.supply.count) (hm : ∀ u, s'.memo.find? u = s.memo.find? u) :
    s.Extends env model s' := by
  intro ρ h
  refine ⟨ρ, .refl _ ρ, fun ρ' hρ' u v hv => ?_⟩
  exact h ρ' (hc ▸ hρ') u v (hm u ▸ hv)

theorem Extends.trans (h : s.Extends env model s') (h' : s'.Extends env model s'')
    (hc : s.supply.count ≤ s'.supply.count) : s.Extends env model s'' := by
  intro ρ hρ
  obtain ⟨ρ₁, hρ₁, hs₁⟩ := h ρ hρ
  obtain ⟨ρ₂, hρ₂, hs₂⟩ := h' ρ₁ hs₁
  exact ⟨ρ₂, hρ₁.trans hρ₂ hc, hs₂⟩

theorem Draws.toExtends {u : Unknown} {t : StreamType} {hint : String} {v : SymValue} (h : s.Draws u t hint v s')
    (ha : Supply.Avoids isZero t hint)
    (hx : ∀ ρ, s.Settles env model ρ → ∃ x : Data, x.Conforms t ∧
      ∀ ρ', ρ.AgreeBelow s.supply.count ρ' → env.Allows model ρ' u x) : s.Extends env model s' := by
  intro ρ hρ
  obtain ⟨supply, hd, hc⟩ := h.drawn
  obtain ⟨hle, hassign⟩ := Supply.assigns_draw model t hint ha _ _ _ hd
  obtain ⟨x, hxt, hxu⟩ := hx ρ hρ
  obtain ⟨ρ₁, hρ₁, he⟩ := hassign x hxt ρ
  refine ⟨ρ₁, hρ₁, fun ρ₂ hρ₂ u' v' hv' => ?_⟩
  rw [hc] at hρ₂
  have hρρ₂ := hρ₁.trans hρ₂ hle
  rw [h.memo_eq, ← Memo.find?_add] at hv'
  rcases Memo.found_or_added hv' with hv' | ⟨rfl, rfl⟩
  · exact hρ ρ₂ hρρ₂ u' v' hv'
  · rw [he ρ₂ hρ₂]
    exact hxu ρ₂ hρρ₂

theorem Recalls.toExtends {u : Unknown} {v : SymValue} (h : s.Recalls u v s') : s.Extends env model s' :=
  extends_of_eq h.count_eq h.memo_eq

end Encoder

structure Surroundings.Supplies (env : Surroundings) (registry : Registry) : Prop where
  past : ∀ {id st}, registry.find? id = some st → ∀ o, ∃ x : Data, x.Conforms st.type ∧ env.past id o x
  outside : ∀ t array k c, (∃ y : Data, y.Conforms t) → ∃ x : Data, x.Conforms t ∧ env.outside t array k c x
  unique : env.Agree env

structure Expr.Supplied (e : Expr) (env : Surroundings) : Prop where
  names : e.Avoids isZero
  inputs : ∀ p ∈ e.inputs, ∀ o, ∃ x : Data, x.Conforms p.2 ∧ env.input p.1 o x

namespace Expr.Supplied

variable {env : Surroundings} {t : StreamType}

theorem arg {op : UnaryOp} {arg : Expr} {field : Datum} (h : (Expr.unary t op arg field).Supplied env) :
    arg.Supplied env where
  names := h.names.arg
  inputs p hp := h.inputs p (List.mem_append_right _ hp)

theorem left {op : BinaryOp} {left right : Expr} (h : (Expr.binary t op left right).Supplied env) :
    left.Supplied env where
  names := h.names.left
  inputs p hp := h.inputs p (List.mem_append_left _ (List.mem_append_right _ hp))

theorem right {op : BinaryOp} {left right : Expr} (h : (Expr.binary t op left right).Supplied env) :
    right.Supplied env where
  names := h.names.right
  inputs p hp := h.inputs p (List.mem_append_right _ hp)

theorem first {op : TernaryOp} {first second third : Expr} (h : (Expr.ternary t op first second third).Supplied env) :
    first.Supplied env where
  names := h.names.first
  inputs p hp := h.inputs p (List.mem_append_left _ (List.mem_append_left _ (List.mem_append_right _ hp)))

theorem second {op : TernaryOp} {first second third : Expr} (h : (Expr.ternary t op first second third).Supplied env) :
    second.Supplied env where
  names := h.names.second
  inputs p hp := h.inputs p (List.mem_append_left _ (List.mem_append_right _ hp))

theorem third {op : TernaryOp} {first second third : Expr} (h : (Expr.ternary t op first second third).Supplied env) :
    third.Supplied env where
  names := h.names.third
  inputs p hp := h.inputs p (List.mem_append_right _ hp)

end Expr.Supplied

namespace Encoding

variable {registry : Registry} {model : FloatModel} {env : Surroundings}

def Extends (registry : Registry) (model : FloatModel) (env : Surroundings) (e : Expr) (o : Int)
    (m : Encoding SymValue) : Prop :=
  (∀ ρ, Simulates registry model ρ env e o m) ∧
    (e.Supplied env → ∀ s v s', m.run s = (.ok v, s') → s.Extends env model s')

theorem extends_checked {e : Expr} {m : Encoding SymValue} {s s' : Encoder} {v : SymValue}
    (hm : ∀ s₁, m.run s = (.ok v, s₁) → s.Extends env model s₁) (hg : Outcome.Moves Encoder.Grows m)
    (h : (m >>= checked e).run s = (.ok v, s')) : s.Extends env model s' := by
  obtain ⟨w, s₁, hw, h⟩ := Outcome.run_bind_eq_ok_iff.1 h
  obtain ⟨_, rfl, rfl⟩ := run_checked_eq_ok_iff.1 h
  exact (hm s₁ hw).trans (Encoder.extends_of_eq rfl fun _ => rfl) (moves_run hg hw).count_le

theorem extends_lift {x : Except Fault SymValue} {s s' : Encoder} {v : SymValue}
    (h : (liftM x : Encoding SymValue).run s = (.ok v, s')) : s.Extends env model s' := by
  obtain ⟨_, rfl⟩ := Outcome.run_lift_eq_ok_iff.1 h
  exact Encoder.extends_of_eq rfl fun _ => rfl

theorem extends_index (he : env.Supplies registry) {t : StreamType} {left right : Expr} {o : Int} {x y v : SymValue}
    {s s' : Encoder} (ht : ∀ name ∈ t.names, Text.Avoids isZero name)
    (hx : ∀ ρ, env.Covers model ρ s.memo → Evaluates registry model env left o (x.eval model ρ))
    (hy : ∀ ρ, env.Covers model ρ s.memo → Evaluates registry model env right o (y.eval model ρ))
    (h : (binary .index x y t).run s = (.ok v, s')) : s.Extends env model s' := by
  obtain ⟨items, i, w, rfl, rfl, hw, hv⟩ := index_ok h
  rcases outside_ok hw with hw | hw
  · exact hw.toExtends
  · refine hw.toExtends (Supply.avoids_outsideHint isZero_unprinted ht) fun ρ hρ => ?_
    obtain ⟨supply, hd, _⟩ := hw.drawn
    have hwt := (SymValue.conforms_eval model ρ t w).2 (Supply.conforms_of_draw hd)
    obtain ⟨z, hzt, hz⟩ := he.outside t (SymValue.eval model ρ (.array items)) (.bits i.width) (i.term.eval model ρ)
      ⟨_, hwt⟩
    refine ⟨z, hzt, fun ρ' hρ' => ?_⟩
    have hc := hρ ρ (.refl _ ρ)
    have hc' := hρ ρ' hρ'
    have hxe := (hx ρ' hc').unique he.unique (hx ρ hc)
    have hye := Operator.Index.eval_term_eq ((hy ρ' hc').unique he.unique (hy ρ hc))
    simpa only [Surroundings.Allows, hxe, hye] using hz

theorem inductive_extends (he : env.Supplies registry)
    (hr : ∀ id st, registry.find? id = some st →
      (∀ name ∈ st.type.names, Text.Avoids isZero name) ∧ st.expr.Supplied env) :
    Inductive registry (Outcome.Moves Encoder.Grows) (Extends registry model env)
      (fun st total m => (∀ ρ, Simulates registry model ρ env st.expr (total - st.buffer.length) m) ∧
        (st.expr.Supplied env → ∀ s v s', m.run s = (.ok v, s') → s.Extends env model s')) where
  future e o ho := ⟨fun _ => inductive_simulates.future e o ho, fun _ _ _ _ h => by cases h⟩
  const t d o := ⟨fun _ => inductive_simulates.const t d o, fun _ _ _ _ h => extends_lift h⟩
  past t k id o ho hk := by
    refine ⟨fun _ => inductive_simulates.past t k id o ho hk, fun _ s v s' h => ?_⟩
    refine extends_checked (fun s₁ hv => ?_) (grows_past registry id (o + k)) h
    rcases past_ok hv with hv | ⟨st, hst, hv⟩
    · exact hv.toExtends
    · refine hv.toExtends (Supply.avoids_pastHint isZero_unprinted _ _ (hr id st hst).1) fun ρ _ => ?_
      obtain ⟨x, hxt, hx⟩ := he.past hst (o + k)
      exact ⟨x, hxt, fun _ _ => hx⟩
  present t k id o m ho hk hg hm := by
    refine ⟨fun ρ => inductive_simulates.present t k id o m ho hk hg fun st hst => (hm st hst).1 ρ,
      fun _ s v s' h => ?_⟩
    obtain ⟨st, hst, h⟩ := Outcome.run_bind_lift_eq_ok_iff.1 h
    have hst := Registry.get_eq_ok_iff.1 hst
    exact extends_checked (fun s₁ hv => (hm st hst).2 (hr id st hst).2 _ _ _ hv) (hg st hst) h
  input t name o ho := by
    refine ⟨fun _ => inductive_simulates.input t name o ho, fun hs s v s' h => ?_⟩
    refine extends_checked (fun s₁ hv => ?_) (grows_input name t o) h
    rcases input_ok hv with hv | hv
    · exact hv.toExtends
    · refine hv.toExtends (Supply.avoids_inputHint isZero_unprinted o ?_ ?_) fun ρ _ => ?_
      · exact hs.names.inputName
      · exact hs.names.inputType
      · obtain ⟨x, hxt, hx⟩ := hs.inputs (name, t) (List.mem_cons_self ..) o
        exact ⟨x, hxt, fun _ _ => hx⟩
  unary t op arg field o m ho hg hm := by
    refine ⟨fun ρ => inductive_simulates.unary t op arg field o m ho hg (hm.1 ρ), fun hs s v s' h => ?_⟩
    obtain ⟨x, s₁, hx, h⟩ := Outcome.run_bind_eq_ok_iff.1 h
    obtain ⟨position, _, h⟩ := Outcome.run_bind_lift_eq_ok_iff.1 h
    refine (hm.2 hs.arg _ _ _ hx).trans ?_ (moves_run hg hx).count_le
    exact extends_checked (fun s₂ hv => extends_lift hv) (Outcome.moves_lift _) h
  binary t op left right o m n ho hgm hgn hm hn := by
    refine ⟨fun ρ => inductive_simulates.binary t op left right o m n ho hgm hgn (hm.1 ρ) (hn.1 ρ),
      fun hs s v s' h => ?_⟩
    obtain ⟨x, s₁, hx, h⟩ := Outcome.run_bind_eq_ok_iff.1 h
    obtain ⟨y, s₂, hy, h⟩ := Outcome.run_bind_eq_ok_iff.1 h
    have hs₁ := hm.2 hs.left _ _ _ hx
    have hs₂ := hs₁.trans (hn.2 hs.right _ _ _ hy) (moves_run hgm hx).count_le
    refine hs₂.trans (extends_checked (fun s₃ hv => ?_) (grows_binary op x y t) h)
      (Nat.le_trans (moves_run hgm hx).count_le (moves_run hgn hy).count_le)
    cases op with
    | index =>
      exact extends_index he hs.names.element (fun ρ hc => hm.1 ρ _ _ _ hx (hc.of_grows (moves_run hgn hy)))
        (fun ρ hc => hn.1 ρ _ _ _ hy hc) hv
    | _ => exact extends_lift hv
  ternary t op first second third o l m n ho hgl hgm hgn hl hm hn := by
    refine ⟨fun ρ => inductive_simulates.ternary t op first second third o l m n ho hgl hgm hgn (hl.1 ρ) (hm.1 ρ)
      (hn.1 ρ), fun hs s v s' h => ?_⟩
    obtain ⟨x, s₁, hx, h⟩ := Outcome.run_bind_eq_ok_iff.1 h
    obtain ⟨y, s₂, hy, h⟩ := Outcome.run_bind_eq_ok_iff.1 h
    obtain ⟨z, s₃, hz, h⟩ := Outcome.run_bind_eq_ok_iff.1 h
    have hc₁ := (moves_run hgl hx).count_le
    have hc₂ := Nat.le_trans hc₁ (moves_run hgm hy).count_le
    have hs₂ := (hl.2 hs.first _ _ _ hx).trans (hm.2 hs.second _ _ _ hy) hc₁
    have hs₃ := hs₂.trans (hn.2 hs.third _ _ _ hz) hc₂
    exact hs₃.trans (extends_checked (fun s₄ hv => extends_lift hv) (Outcome.moves_lift _) h)
      (Nat.le_trans hc₂ (moves_run hgn hz).count_le)
  refused e construct details o he := ⟨fun _ => inductive_simulates.refused e construct details o he,
    fun _ _ _ _ h => by cases h⟩
  exhausted st total := ⟨fun _ => inductive_simulates.exhausted st total, fun _ _ _ _ h => by cases h⟩
  repeated st total := ⟨fun _ => inductive_simulates.repeated st total, fun _ _ _ _ h => by cases h⟩
  unrolled st total m hg hm := by
    refine ⟨fun ρ => inductive_simulates.unrolled st total m hg (hm.1 ρ), fun hs s v s' h => ?_⟩
    obtain ⟨_, s₁, hn, h⟩ := Outcome.run_bind_eq_ok_iff.1 h
    have hs₁ : s.Extends env model s₁ := by
      cases hn
      exact Encoder.extends_of_eq rfl fun _ => rfl
    exact hs₁.trans (hm.2 hs _ _ _ h) (moves_run (grows_note _) hn).count_le

theorem exists_assignment (he : env.Supplies registry)
    (hr : ∀ id st, registry.find? id = some st →
      (∀ name ∈ st.type.names, Text.Avoids isZero name) ∧ st.expr.Supplied env)
    {e : Expr} (hs : e.Supplied env) {o : Int} {s s' : Encoder} {v : SymValue} (hm : s.memo = {})
    (h : (encode registry e o).run s = (.ok v, s')) : ∃ ρ, env.Covers model ρ s'.memo := by
  have hx : s.Extends env model s' :=
    ((inductive_extends he hr).encode (inductive_grows registry) e o).2 hs s v s' h
  obtain ⟨ρ, _, hρ⟩ := hx (fun _ k => k.default) fun ρ' _ u v hv => by
    rw [hm] at hv
    cases u <;> cases hv
  exact ⟨ρ, hρ ρ (.refl _ ρ)⟩

end Encoding

end OneStep
