import OneStep.Proofs.Literals
import OneStep.Proofs.Unknowns

namespace OneStep

structure Surroundings where
  past : Int → Int → Data → Prop
  input : String → Int → Data → Prop
  outside : StreamType → Data → (k : Kind) → k.Carrier → Data → Prop

def Expr.position? (arg : Expr) (field : Datum) : Option Nat :=
  match arg.type with
  | .struct _ fields => (StreamType.findNamed? fields field).map (·.1)
  | _ => none

section

variable (registry : Registry) (model : FloatModel)

inductive Evaluates (env : Surroundings) : Expr → Int → Data → Prop where
  | const {t : StreamType} {d : Datum} {o : Int} {x : Data} (value : Data.read? t d = some x) :
    Evaluates env (.const t d) o x
  | past {t : StreamType} {k id o : Int} {x : Data} (before : o + k < 0) (value : env.past id (o + k) x) :
    Evaluates env (.drop t k id) o x
  | present {t : StreamType} {k id o : Int} {st : Stream} {x : Data} (after : 0 ≤ o + k)
    (stream : registry.find? id = some st) (value : Evaluates env st.expr (o + k - st.buffer.length) x) :
    Evaluates env (.drop t k id) o x
  | input {t : StreamType} {name : String} {o : Int} {x : Data} (value : env.input name o x) :
    Evaluates env (.input t name) o x
  | unary {t : StreamType} {op : UnaryOp} {arg : Expr} {field : Datum} {o : Int} {x y : Data}
    (operand : Evaluates env arg o x) (value : Data.unary model op x t (arg.position? field) = some y) :
    Evaluates env (.unary t op arg field) o y
  | binary {t : StreamType} {op : BinaryOp} {left right : Expr} {o : Int} {x y z : Data}
    (first : Evaluates env left o x) (second : Evaluates env right o y) (value : Data.binary model op x y = some z) :
    Evaluates env (.binary t op left right) o z
  | inside {t : StreamType} {left right : Expr} {o i : Int} {items : List Data} {y z : Data}
    (first : Evaluates env left o (.array items)) (second : Evaluates env right o y)
    (index : y.integer? = some i) (value : Data.lookup? items i = some z) :
    Evaluates env (.binary t .index left right) o z
  | outside {t : StreamType} {left right : Expr} {o i : Int} {items : List Data} {s : Scalar} {c : s.kind.Carrier}
    {z : Data} (first : Evaluates env left o (.array items)) (second : Evaluates env right o (.scalar s c))
    (index : Data.integer? (.scalar s c) = some i) (missing : Data.lookup? items i = none)
    (value : env.outside t (.array items) s.kind c z) :
    Evaluates env (.binary t .index left right) o z
  | mux {t : StreamType} {first second third : Expr} {o : Int} {b : Bool} {x y : Data}
    (cond : Evaluates env first o (Data.truth b)) (whenTrue : Evaluates env second o x)
    (whenFalse : Evaluates env third o y) :
    Evaluates env (.ternary t .mux first second third) o (if b then x else y)

end

namespace Encoding

theorem positionTaken_unary (model : FloatModel) {op : UnaryOp} {arg : Expr} {field : Datum} {position : Option Nat}
    (h : positionTaken op arg field = .ok position) (x : Data) (t : StreamType) :
    Data.unary model op x t (arg.position? field) = Data.unary model op x t position := by
  cases op with
  | getField =>
    obtain ⟨i, hi, rfl⟩ := Outcome.map_eq_ok_iff.1 h
    obtain ⟨name, fields, u, ht, hu⟩ := fieldPosition_ok hi
    simp only [Expr.position?, ht, hu, Option.map_some]
  | _ => rfl

end Encoding

structure Surroundings.Agree (a b : Surroundings) : Prop where
  past : ∀ {id o x y}, a.past id o x → b.past id o y → x = y
  input : ∀ {name o x y}, a.input name o x → b.input name o y → x = y
  outside : ∀ {t array k c x y}, a.outside t array k c x → b.outside t array k c y → x = y

theorem Evaluates.unique {registry : Registry} {model : FloatModel} {a b : Surroundings} (hab : a.Agree b)
    {e : Expr} {o : Int} {x y : Data} (hx : Evaluates registry model a e o x) (hy : Evaluates registry model b e o y) :
    x = y := by
  induction hx generalizing y with
  | const hv =>
    cases hy with
    | const hv' => exact Option.some.inj (hv.symm.trans hv')
  | past ho hv =>
    cases hy with
    | past _ hv' => exact hab.past hv hv'
    | present ho' _ _ => omega
  | present ho hst _ ih =>
    cases hy with
    | past ho' _ => omega
    | present _ hst' hv' =>
      cases hst.symm.trans hst'
      exact ih hv'
  | input hv =>
    cases hy with
    | input hv' => exact hab.input hv hv'
  | unary _ hv ih =>
    cases hy with
    | unary hx' hv' =>
      cases ih hx'
      exact Option.some.inj (hv.symm.trans hv')
  | binary _ _ hv ihl ihr =>
    cases hy with
    | binary hl' hr' hv' =>
      cases ihl hl'
      cases ihr hr'
      exact Option.some.inj (hv.symm.trans hv')
    | inside => cases hv
    | outside => cases hv
  | inside _ _ hi hv ihl ihr =>
    cases hy with
    | binary _ _ hv' => cases hv'
    | inside hl' hr' hi' hv' =>
      cases ihl hl'
      cases ihr hr'
      cases hi.symm.trans hi'
      exact Option.some.inj (hv.symm.trans hv')
    | outside hl' hr' hi' hv' _ =>
      cases ihl hl'
      cases ihr hr'
      cases hi.symm.trans hi'
      cases hv.symm.trans hv'
  | outside _ _ hi hn hv ihl ihr =>
    cases hy with
    | binary _ _ hv' => cases hv'
    | inside hl' hr' hi' hv' =>
      cases ihl hl'
      cases ihr hr'
      cases hi.symm.trans hi'
      cases hn.symm.trans hv'
    | outside hl' hr' hi' _ hv' =>
      cases ihl hl'
      cases ihr hr'
      exact hab.outside hv hv'
  | mux _ _ _ ihc iht ihf =>
    cases hy with
    | mux hc' ht' hf' =>
      cases ihc hc'
      cases iht ht'
      cases ihf hf'
      rfl

namespace Surroundings

variable (env : Surroundings) (model : FloatModel) (ρ : Assignment)

def Allows : Unknown → Data → Prop
  | .past id o, x => env.past id o x
  | .input name o, x => env.input name o x
  | .outside l, x => env.outside l.element (l.array.eval model ρ) l.kind (l.index.eval model ρ) x

def Covers (m : Memo) : Prop :=
  ∀ u v, m.find? u = some v → env.Allows model ρ u (v.eval model ρ)

variable {env model ρ}

theorem Covers.of_grows {s s' : Encoder} (h : env.Covers model ρ s'.memo) (hs : s.Grows s') :
    env.Covers model ρ s.memo :=
  fun u v hv => h u v (hs.kept u v hv)

end Surroundings

namespace Encoding

def Simulates (registry : Registry) (model : FloatModel) (ρ : Assignment) (env : Surroundings) (e : Expr) (o : Int)
    (m : Encoding SymValue) : Prop :=
  ∀ s v s', m.run s = (.ok v, s') → env.Covers model ρ s'.memo → Evaluates registry model env e o (v.eval model ρ)

variable {registry : Registry} {model : FloatModel} {ρ : Assignment} {env : Surroundings}

theorem moves_run {R : Encoder → Encoder → Prop} {α : Type} {m : Encoding α} (hm : Outcome.Moves R m)
    {s s' : Encoder} {r : Except Fault α} (h : m.run s = (r, s')) : R s s' := by
  have := hm s
  rwa [h] at this

theorem find?_past {id o : Int} {s s' : Encoder} {v : SymValue} (h : (past registry id o).run s = (.ok v, s')) :
    s'.memo.find? (.past id o) = some v := by
  rcases past_ok h with h | ⟨st, _, h⟩
  · exact h.find?
  · exact h.find?

theorem find?_input {name : String} {t : StreamType} {o : Int} {s s' : Encoder} {v : SymValue}
    (h : (input name t o).run s = (.ok v, s')) : s'.memo.find? (.input name o) = some v := by
  rcases input_ok h with h | h
  · exact h.find?
  · exact h.find?

theorem find?_outside {l : Lookup} {s s' : Encoder} {v : SymValue} (h : (outside l).run s = (.ok v, s')) :
    s'.memo.find? (.outside l) = some v := by
  rcases outside_ok h with h | h
  · exact h.find?
  · exact h.find?

theorem simulates_index {t : StreamType} {left right : Expr} {o : Int} {x y v : SymValue} {s s' : Encoder}
    (hx : Evaluates registry model env left o (x.eval model ρ))
    (hy : Evaluates registry model env right o (y.eval model ρ))
    (h : (binary .index x y t).run s = (.ok v, s')) (hc : env.Covers model ρ s'.memo) :
    Evaluates registry model env (.binary t .index left right) o (v.eval model ρ) := by
  obtain ⟨items, i, w, rfl, rfl, hw, hv⟩ := index_ok h
  have ho := hc _ w (find?_outside hw)
  simp only [Surroundings.Allows, SymValue.eval_array] at ho
  rw [SymValue.eval_array] at hx
  rw [Operator.lookup_eval hv]
  cases hl : Data.lookup? (items.map (SymValue.eval model ρ)) (readBits i.isSigned (i.term.eval model ρ)) with
  | some z => exact .inside hx hy (Operator.integer?_operand model ρ i) hl
  | none =>
    have hi := Operator.integer?_operand model ρ i
    obtain ⟨isSigned, w', term⟩ := i
    cases isSigned with
    | true => exact .outside (s := .int w') (c := term.eval model ρ) hx (by simpa using hy) (by simpa using hi) hl ho
    | false => exact .outside (s := .word w') (c := term.eval model ρ) hx (by simpa using hy) (by simpa using hi) hl ho

theorem run_bind_checked {e : Expr} {m : Encoding SymValue} {s s' : Encoder} {v : SymValue}
    (h : (m >>= checked e).run s = (.ok v, s')) : ∃ s₁, m.run s = (.ok v, s₁) ∧ s₁.memo = s'.memo := by
  obtain ⟨w, s₁, hw, h⟩ := Outcome.run_bind_eq_ok_iff.1 h
  obtain ⟨_, rfl, rfl⟩ := run_checked_eq_ok_iff.1 h
  exact ⟨s₁, hw, rfl⟩

theorem inductive_simulates : Inductive registry (Outcome.Moves Encoder.Grows) (Simulates registry model ρ env)
    (fun st total m => Simulates registry model ρ env st.expr (total - st.buffer.length) m) where
  future _ _ _ _ _ _ h := by cases h
  const t d o s v s' h _ := by
    obtain ⟨h, _⟩ := Outcome.run_lift_eq_ok_iff.1 h
    exact .const (Constant.encode_eval h)
  past t k id o _ hk s v s' h hc := by
    obtain ⟨s₁, hv, hs⟩ := run_bind_checked h
    exact .past hk (hc (.past id (o + k)) v (hs ▸ find?_past hv))
  present t k id o m _ hk hg hm s v s' h hc := by
    obtain ⟨st, hst, h⟩ := Outcome.run_bind_lift_eq_ok_iff.1 h
    obtain ⟨s₁, hv, hs⟩ := run_bind_checked h
    have hst := Registry.get_eq_ok_iff.1 hst
    exact .present hk hst (hm st hst _ _ _ hv (hs ▸ hc))
  input t name o _ s v s' h hc := by
    obtain ⟨s₁, hv, hs⟩ := run_bind_checked h
    exact .input (hc (.input name o) v (hs ▸ find?_input hv))
  unary t op arg field o m _ hg hm s v s' h hc := by
    obtain ⟨x, s₁, hx, h⟩ := Outcome.run_bind_eq_ok_iff.1 h
    obtain ⟨position, hp, h⟩ := Outcome.run_bind_lift_eq_ok_iff.1 h
    obtain ⟨s₂, hv, hs⟩ := run_bind_checked h
    obtain ⟨hu, rfl⟩ := Outcome.run_lift_eq_ok_iff.1 hv
    exact .unary (hm _ _ _ hx (hs ▸ hc)) ((positionTaken_unary model hp _ _).trans (Operator.unary_eval hu))
  binary t op left right o m n _ hgm hgn hm hn s v s' h hc := by
    obtain ⟨x, s₁, hx, h⟩ := Outcome.run_bind_eq_ok_iff.1 h
    obtain ⟨y, s₂, hy, h⟩ := Outcome.run_bind_eq_ok_iff.1 h
    obtain ⟨s₃, hv, hs⟩ := run_bind_checked h
    have hc₃ : env.Covers model ρ s₃.memo := hs ▸ hc
    have hc₂ := hc₃.of_grows (moves_run (grows_binary op x y t) hv)
    have hx := hm _ _ _ hx (hc₂.of_grows (moves_run hgn hy))
    have hy := hn _ _ _ hy hc₂
    cases op with
    | index => exact simulates_index hx hy hv hc₃
    | _ => exact .binary hx hy (Operator.binary_eval (Outcome.run_lift_eq_ok_iff.1 hv).1)
  ternary t op first second third o l m n _ hgl hgm hgn hl hm hn s v s' h hc := by
    obtain ⟨x, s₁, hx, h⟩ := Outcome.run_bind_eq_ok_iff.1 h
    obtain ⟨y, s₂, hy, h⟩ := Outcome.run_bind_eq_ok_iff.1 h
    obtain ⟨z, s₃, hz, h⟩ := Outcome.run_bind_eq_ok_iff.1 h
    obtain ⟨s₄, hv, hs⟩ := run_bind_checked h
    obtain ⟨hu, rfl⟩ := Outcome.run_lift_eq_ok_iff.1 hv
    have hc₃ : env.Covers model ρ s₃.memo := hs ▸ hc
    have hc₂ := hc₃.of_grows (moves_run hgn hz)
    obtain ⟨b, rfl, hb, he⟩ := Operator.ternary_eval model ρ hu
    rw [he]
    exact .mux (hb ▸ hl _ _ _ hx (hc₂.of_grows (moves_run hgm hy))) (hm _ _ _ hy hc₂) (hn _ _ _ hz hc₃)
  refused _ _ _ _ _ _ _ _ h := by cases h
  exhausted _ _ _ _ _ h := by cases h
  repeated _ _ _ _ _ h := by cases h
  unrolled st total m _ hm s v s' h hc := by
    obtain ⟨_, s₁, _, h⟩ := Outcome.run_bind_eq_ok_iff.1 h
    exact hm _ _ _ h hc

theorem evaluates_of_encode {e : Expr} {o : Int} {s s' : Encoder} {v : SymValue}
    (h : (encode registry e o).run s = (.ok v, s')) (hc : env.Covers model ρ s'.memo) :
    Evaluates registry model env e o (v.eval model ρ) :=
  inductive_simulates.encode (inductive_grows registry) e o s v s' h hc

end Encoding

def Memo.surroundings (m : Memo) (model : FloatModel) (ρ : Assignment) : Surroundings where
  past id o x := ∃ v, m.past.find? (id, o) = some v ∧ x = v.eval model ρ
  input name o x := ∃ v, m.inputs.find? (name, o) = some v ∧ x = v.eval model ρ
  outside t _ _ _ x := x.Conforms t

def Surroundings.inRange (env : Surroundings) : Surroundings :=
  { env with outside := fun _ _ _ _ _ => False }

inductive Encoder.Reachable (registry : Registry) : Encoder → Prop where
  | fresh (s : Encoder) (empty : s.memo = {}) : Reachable registry s
  | step {s : Encoder} (reached : Reachable registry s) (e : Expr) (o : Int) :
    Reachable registry ((Encoding.encode registry e o).run s).2

theorem Encoder.Reachable.shaped {registry : Registry} {s : Encoder} (hs : s.Reachable registry) (l : Lookup)
    (v : SymValue) (h : s.memo.find? (.outside l) = some v) : v.Conforms l.element := by
  induction hs generalizing l v with
  | fresh s empty =>
    rw [empty] at h
    cases h
  | step _ e o ih => exact (Encoding.grows_encode registry e o _).shaped ih l v h

theorem Memo.surroundings_covers {m : Memo} {model : FloatModel} {ρ : Assignment}
    (h : ∀ l v, m.find? (.outside l) = some v → v.Conforms l.element) :
    (m.surroundings model ρ).Covers model ρ m := by
  intro u v hv
  cases u with
  | past id o => exact ⟨v, hv, rfl⟩
  | input name o => exact ⟨v, hv, rfl⟩
  | outside l => exact (SymValue.conforms_eval model ρ _ v).2 (h l v hv)

theorem Memo.surroundings_agree (m : Memo) (model : FloatModel) (ρ : Assignment) :
    (m.surroundings model ρ).inRange.Agree (m.surroundings model ρ) where
  past := by
    rintro id o _ _ ⟨v, hv, rfl⟩ ⟨w, hw, rfl⟩
    cases hv.symm.trans hw
    rfl
  input := by
    rintro name o _ _ ⟨v, hv, rfl⟩ ⟨w, hw, rfl⟩
    cases hv.symm.trans hw
    rfl
  outside := False.elim

namespace Encoding

variable {registry : Registry} {model : FloatModel} {ρ : Assignment}

theorem evaluates_of_reachable {s s' : Encoder} (hs : s.Reachable registry) {e : Expr} {o : Int} {v : SymValue}
    (h : (encode registry e o).run s = (.ok v, s')) :
    Evaluates registry model (s'.memo.surroundings model ρ) e o (v.eval model ρ) := by
  have hs' : s'.Reachable registry := by
    have := hs.step e o
    rwa [h] at this
  exact evaluates_of_encode h (Memo.surroundings_covers hs'.shaped)

theorem evaluates_iff_of_reachable {s s' : Encoder} (hs : s.Reachable registry) {e : Expr} {o : Int} {v : SymValue}
    (h : (encode registry e o).run s = (.ok v, s')) {x : Data}
    (hx : Evaluates registry model (s'.memo.surroundings model ρ).inRange e o x) (y : Data) :
    Evaluates registry model (s'.memo.surroundings model ρ) e o y ↔ y = v.eval model ρ := by
  have hv : Evaluates registry model _ e o (v.eval model ρ) := evaluates_of_reachable hs h
  have agree := s'.memo.surroundings_agree model ρ
  constructor
  · intro hy
    exact (hx.unique agree hy).symm.trans (hx.unique agree hv)
  · rintro rfl
    exact hv

theorem encoding_faithful (registry : Registry) (model : FloatModel) (ρ : Assignment) (s : Encoder)
    (hs : s.Reachable registry) :
    (∀ e o v s', (encode registry e o).run s = (.ok v, s') →
      Evaluates registry model (s'.memo.surroundings model ρ) e o (v.eval model ρ) ∧
      ((∃ x, Evaluates registry model (s'.memo.surroundings model ρ).inRange e o x) →
        ∀ y, Evaluates registry model (s'.memo.surroundings model ρ) e o y ↔ y = v.eval model ρ)) ∧
    (∀ p t s', (encodeProperty registry p).run s = (.ok t, s') → t.eval model ρ = false →
      Evaluates registry model (s'.memo.surroundings model ρ) p 0 (Data.truth false) ∧
      ((∃ x, Evaluates registry model (s'.memo.surroundings model ρ).inRange p 0 x) →
        ¬ Evaluates registry model (s'.memo.surroundings model ρ) p 0 (Data.truth true))) := by
  refine ⟨fun e o v s' h => ⟨evaluates_of_reachable hs h, fun ⟨x, hx⟩ => evaluates_iff_of_reachable hs h hx⟩, ?_⟩
  intro p t s' h ht
  have he := run_encodeProperty_eq_ok_iff.1 h
  have hv : SymValue.eval model ρ (.scalar .bool t) = Data.truth false := by
    rw [SymValue.eval_scalar, ht]
    rfl
  refine ⟨hv ▸ evaluates_of_reachable hs he, fun ⟨x, hx⟩ hy => ?_⟩
  cases ((evaluates_iff_of_reachable hs he hx _).1 hy).trans hv

theorem differing_inputs_falsify_equality : ∃ (ρ : Assignment) (s' : Encoder),
    Evaluates {} .ieee (s'.memo.surroundings .ieee ρ) (.binary .bool .eq (.input .bool "a") (.input .bool "b")) 0
      (Data.truth false) := by
  obtain ⟨s', h, _⟩ := run_equal_inputs {} (x := "a") (y := "b") (s := {}) (by decide) (by decide) (by decide) rfl
  refine ⟨.marking 0, s', ((encoding_faithful {} .ieee (.marking 0) {} (.fresh {} rfl)).2 _ _ s' h ?_).1⟩
  have ha : Symbol.ofHint (Supply.hintText (inputHint "a" 0)) 0 = ⟨"a_0", some 0⟩ := by decide
  have hb : Symbol.ofHint (Supply.hintText (inputHint "b" 0)) (0 + 1) = ⟨"b_0", some 1⟩ := by decide
  rw [ha, hb]
  rfl

end Encoding

end OneStep
