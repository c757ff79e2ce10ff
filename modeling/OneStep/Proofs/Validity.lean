import OneStep.Proofs.Assignments

namespace OneStep

structure World where
  stream : Int → Nat → Data
  input : String → Nat → Data
  outside : StreamType → Data → (k : Kind) → k.Carrier → Data

namespace World

def element (W : World) (t : StreamType) : Data → Data → Option Data
  | .array items, .scalar s c =>
    (Data.integer? (.scalar s c)).map fun i => (Data.lookup? items i).getD (W.outside t (.array items) s.kind c)
  | _, _ => none

def choice : Data → Data → Data → Option Data
  | .scalar .bool b, x, y => some (if b then x else y)
  | _, _, _ => none

def meaning (W : World) (model : FloatModel) (n : Nat) : Expr → Option Data
  | .const t d => Data.read? t d
  | .drop _ k id => some (W.stream id (n + k).toNat)
  | .input _ name => some (W.input name n)
  | .unary t op arg field => do Data.unary model op (← W.meaning model n arg) t (arg.position? field)
  | .binary t op left right => do
    let x ← W.meaning model n left
    let y ← W.meaning model n right
    match op with
    | .index => W.element t x y
    | op => Data.binary model op x y
  | .ternary _ .mux first second third => do
    choice (← W.meaning model n first) (← W.meaning model n second) (← W.meaning model n third)
  | _ => none

def around (W : World) (n : Nat) : Surroundings where
  past id o x := x = W.stream id (n + o).toNat
  input name o x := x = W.input name (n + o).toNat
  outside t array k c x := x = W.outside t array k c

theorem around_unique (W : World) (n : Nat) : (W.around n).Agree (W.around n) where
  past h h' := h.trans h'.symm
  input h h' := h.trans h'.symm
  outside h h' := h.trans h'.symm

end World

-- streams that follow their buffers and recurrences, and inputs of the types that they are used at
structure Behaviour (model : FloatModel) (spec : Spec) extends World where
  stream_typed : ∀ st ∈ spec.streams, ∀ n, (stream st.id n).Conforms st.type
  input_typed : ∀ e ∈ spec.exprs, ∀ p ∈ e.inputs, ∀ n, (input p.1 n).Conforms p.2
  outside_typed : ∀ t array k c, (∃ x : Data, x.Conforms t) → (outside t array k c).Conforms t
  initial : ∀ st ∈ spec.streams, ∀ n d, st.buffer[n]? = some d → Data.read? st.type d = some (stream st.id n)
  recurrent : ∀ st ∈ spec.streams, ∀ n, st.buffer.length ≤ n →
    toWorld.meaning model (n - st.buffer.length) st.expr = some (stream st.id n)

inductive Expr.Reaches (registry : Registry) : Expr → Int → Prop where
  | direct {e : Expr} {id : Int} (mem : id ∈ e.streams) : Reaches registry e id
  | through {e : Expr} {id id' : Int} {st : Stream} (mem : id ∈ e.streams) (found : registry.find? id = some st)
    (reached : Reaches registry st.expr id') : Reaches registry e id'

namespace Expr.Reaches

variable {registry : Registry} {t : StreamType} {id : Int}

theorem of_subset {e e' : Expr} (h : e'.Reaches registry id) (hs : ∀ id ∈ e'.streams, id ∈ e.streams) :
    e.Reaches registry id := by
  cases h with
  | direct mem => exact .direct (hs _ mem)
  | through mem found reached => exact .through (hs _ mem) found reached

theorem of_arg {op : UnaryOp} {arg : Expr} {field : Datum} (h : arg.Reaches registry id) :
    (unary t op arg field).Reaches registry id :=
  h.of_subset fun _ hi => List.mem_append_right _ hi

theorem of_left {op : BinaryOp} {left right : Expr} (h : left.Reaches registry id) :
    (binary t op left right).Reaches registry id :=
  h.of_subset fun _ hi => List.mem_append_left _ (List.mem_append_right _ hi)

theorem of_right {op : BinaryOp} {left right : Expr} (h : right.Reaches registry id) :
    (binary t op left right).Reaches registry id :=
  h.of_subset fun _ hi => List.mem_append_right _ hi

theorem of_first {op : TernaryOp} {first second third : Expr} (h : first.Reaches registry id) :
    (ternary t op first second third).Reaches registry id :=
  h.of_subset fun _ hi => List.mem_append_left _ (List.mem_append_left _ (List.mem_append_right _ hi))

theorem of_second {op : TernaryOp} {first second third : Expr} (h : second.Reaches registry id) :
    (ternary t op first second third).Reaches registry id :=
  h.of_subset fun _ hi => List.mem_append_left _ (List.mem_append_right _ hi)

theorem of_third {op : TernaryOp} {first second third : Expr} (h : third.Reaches registry id) :
    (ternary t op first second third).Reaches registry id :=
  h.of_subset fun _ hi => List.mem_append_right _ hi

end Expr.Reaches

section

variable {model : FloatModel} {spec : Spec} {registry : Registry}

theorem Behaviour.meaning_of_evaluates (B : Behaviour model spec)
    (hr : Registry.ofStreams spec.streams = .ok registry) {n : Nat} {e : Expr} {o : Int} {x : Data}
    (h : Evaluates registry model (B.around n) e o x) {m : Nat} (hm : (m : Int) = n + o)
    (hn : ∀ id st, e.Reaches registry id → registry.find? id = some st → st.buffer.length ≤ n) :
    B.meaning model m e = some x := by
  induction h generalizing m with
  | const hv => exact hv
  | @past t k id o x _ hv =>
    have hi : (m + k).toNat = (n + (o + k)).toNat := by omega
    rw [World.meaning, hi]
    exact congrArg some hv.symm
  | @present t k id o st x ho hst _ ih =>
    have hmem : id ∈ (Expr.drop t k id).streams := List.mem_singleton_self id
    have hl : st.buffer.length ≤ n := hn id st (.direct hmem) hst
    obtain ⟨hs, hid⟩ := Registry.find?_ofStreams hr hst
    have hx := @ih ((m + k).toNat - st.buffer.length) (by omega)
      fun id' st' h hst' => hn id' st' (.through hmem hst h) hst'
    have hrec := B.recurrent st hs (m + k).toNat (by omega)
    rw [World.meaning, ← hid, ← hrec, hx]
  | @input t name o x hv =>
    have hi : m = (n + o).toNat := by omega
    rw [World.meaning, hi]
    exact congrArg some hv.symm
  | unary _ hv ih =>
    rw [World.meaning, ih hm fun id st h => hn id st h.of_arg]
    exact hv
  | @binary t op left right o x y z _ _ hv ihl ihr =>
    rw [World.meaning, ihl hm fun id st h => hn id st h.of_left, ihr hm fun id st h => hn id st h.of_right]
    cases op with
    | index => cases hv
    | _ => exact hv
  | @inside t left right o i items y z _ _ hi hv ihl ihr =>
    rw [World.meaning, ihl hm fun id st h => hn id st h.of_left, ihr hm fun id st h => hn id st h.of_right]
    rcases y with ⟨s, c⟩ | ys | ys
    · simp [World.element, hi, hv]
    · cases hi
    · cases hi
  | @outside t left right o i items s c z _ _ hi hnone hv ihl ihr =>
    rw [World.meaning, ihl hm fun id st h => hn id st h.of_left, ihr hm fun id st h => hn id st h.of_right]
    simpa [World.element, hi, hnone] using hv.symm
  | @mux t first second third o b x y _ _ _ ihc iht ihf =>
    rw [World.meaning, ihc hm fun id st h => hn id st h.of_first, iht hm fun id st h => hn id st h.of_second,
      ihf hm fun id st h => hn id st h.of_third]
    rfl

theorem Behaviour.supplies (B : Behaviour model spec) (hr : Registry.ofStreams spec.streams = .ok registry) (n : Nat) :
    (B.around n).Supplies registry where
  past hst o := by
    obtain ⟨hs, rfl⟩ := Registry.find?_ofStreams hr hst
    exact ⟨_, B.stream_typed _ hs _, rfl⟩
  outside t array k c h := ⟨_, B.outside_typed t array k c h, rfl⟩
  unique := B.around_unique n

theorem Behaviour.supplied (B : Behaviour model spec) (hz : ∀ name ∈ spec.names, Text.Avoids isZero name) (n : Nat)
    {e : Expr} (he : e ∈ spec.exprs) : e.Supplied (B.around n) where
  names := Spec.avoids_expr hz he
  inputs p hp _ := ⟨_, B.input_typed e he p hp _, rfl⟩

theorem Behaviour.exists_covering (B : Behaviour model spec) (hr : Registry.ofStreams spec.streams = .ok registry)
    (hz : ∀ name ∈ spec.names, Text.Avoids isZero name) (n : Nat) {e : Expr} (he : e ∈ spec.exprs) {o : Int}
    {s s' : Encoder} {v : SymValue} (hm : s.memo = {}) (h : (Encoding.encode registry e o).run s = (.ok v, s')) :
    ∃ ρ, (B.around n).Covers model ρ s'.memo := by
  refine Encoding.exists_assignment (B.supplies hr n) (fun id st hst => ?_) (B.supplied hz n he) hm h
  obtain ⟨hs, _⟩ := Registry.find?_ofStreams hr hst
  exact ⟨(Spec.avoids_stream hz hs).1, B.supplied hz n (List.mem_append_left _ (List.mem_map_of_mem hs))⟩

theorem valid_property_holds (model : FloatModel) (spec : Spec) (registry : Registry)
    (hr : Registry.ofStreams spec.streams = .ok registry)
    (hz : ∀ name ∈ spec.names, '\x00' ∉ name.toList)
    (p : Property) (hp : p ∈ spec.properties) (s s' : Encoder) (hm : s.memo = {}) (t : Term .bool)
    (h : (Encoding.encodeProperty registry p.expr).run s = (.ok t, s')) (ht : ∀ ρ, t.eval model ρ = true)
    (B : Behaviour model spec) (n : Nat)
    (hn : ∀ id st, p.expr.Reaches registry id → registry.find? id = some st → st.buffer.length ≤ n) :
    B.meaning model n p.expr = some (Data.truth true) := by
  have he := Encoding.run_encodeProperty_eq_ok_iff.1 h
  have hz' : ∀ name ∈ spec.names, Text.Avoids isZero name := fun name hname => avoids_isZero.2 (hz name hname)
  have hmem : p.expr ∈ spec.exprs := List.mem_append_right _ (List.mem_map_of_mem hp)
  obtain ⟨ρ, hρ⟩ := B.exists_covering hr hz' n hmem hm he
  have hx := B.meaning_of_evaluates hr (Encoding.evaluates_of_encode he hρ) (m := n) (by omega) hn
  rw [hx, SymValue.eval_scalar, ht ρ]
  rfl

end

theorem World.exists_outside : ∃ f : StreamType → Data, ∀ t, (∃ x : Data, x.Conforms t) → (f t).Conforms t := by
  have h : ∀ t : StreamType, ∃ y : Data, (∃ x : Data, x.Conforms t) → y.Conforms t := by
    intro t
    by_cases hx : ∃ x : Data, x.Conforms t
    · exact ⟨hx.choose, fun _ => hx.choose_spec⟩
    · exact ⟨.truth false, fun h => absurd h hx⟩
  exact ⟨fun t => (h t).choose, fun t => (h t).choose_spec⟩

theorem Data.truth_conforms (b : Bool) : (Data.truth b).Conforms .bool :=
  (Value.conforms_scalar ..).2 rfl

def echo : Stream :=
  ⟨0, .bool, [], .input .bool "x"⟩

def echoed : Expr :=
  .binary .bool .eq (.drop .bool 0 0) (.input .bool "x")

def echoSpec : Spec :=
  ⟨[echo], [⟨"p", echoed⟩]⟩

theorem run_echoed : ∃ t s', (Encoding.encodeProperty ⟨[(0, echo)]⟩ echoed).run {} = (.ok (.binary .iff t t), s') := by
  let registry : Registry := ⟨[(0, echo)]⟩
  let noted : Encoder := { supply := { journal := [.unrolling 0 0 0] } }
  let within := Encoding.unroll registry 1 [(0, 0)]
  let present := Encoding.unroll registry (Encoding.places registry + 1) []
  let t : Term .bool := .symbol (.ofHint (Supply.hintText (Encoding.inputHint "x" 0)) 0) .bool
  have hname : Text.hasHalves (Supply.hintText (Encoding.inputHint "x" 0)) = false := by decide
  obtain ⟨s₁, h₁, _, hm, _⟩ := Encoding.run_encodeWith_input registry within hname (s := noted) rfl
  obtain ⟨s₂, h₂, _, hm₂⟩ := Encoding.exists_checked (e := .drop .bool 0 0) (v := .scalar .bool t) rfl s₁
  obtain ⟨s₃, h₃⟩ := Encoding.run_encodeWith_input_found registry present (hm₂ ▸ hm)
  obtain ⟨s₄, h₄, _⟩ := Encoding.exists_checked (e := echoed) (v := .scalar .bool (.binary .iff t t)) rfl s₃
  refine ⟨t, s₄, Encoding.run_encodeProperty_eq_ok_iff.2 ?_⟩
  have hleft : (Encoding.encodeWith registry present 0 (.drop .bool 0 0)).run {} = (.ok (.scalar .bool t), s₂) :=
    (Outcome.run_bind_of_ok h₁).trans h₂
  have hbinary : (Encoding.encodeWith registry present 0 echoed).run {} =
      (.ok (.scalar .bool (.binary .iff t t)), s₄) :=
    (Outcome.run_bind_of_ok hleft).trans ((Outcome.run_bind_of_ok h₃).trans h₄)
  exact hbinary

theorem exists_echo_behaviour : Nonempty (Behaviour .ieee echoSpec) := by
  obtain ⟨outside, ho⟩ := World.exists_outside
  refine ⟨{
    stream := fun _ n => .truth (n % 2 == 0)
    input := fun _ n => .truth (n % 2 == 0)
    outside := fun t _ _ _ => outside t
    stream_typed := fun st hst n => ?_
    input_typed := fun e he p hp n => ?_
    outside_typed := fun t _ _ _ => ho t
    initial := fun st hst n d hd => ?_
    recurrent := fun st hst n _ => ?_ }⟩
  · obtain rfl := List.mem_singleton.1 hst
    exact Data.truth_conforms _
  · have hp' : p = ("x", .bool) := by
      simp only [Spec.exprs, echoSpec, List.map_cons, List.map_nil, List.cons_append, List.nil_append, List.mem_cons,
        List.not_mem_nil, or_false] at he
      rcases he with rfl | rfl <;> exact List.mem_singleton.1 hp
    subst hp'
    exact Data.truth_conforms _
  · obtain rfl := List.mem_singleton.1 hst
    cases hd
  · obtain rfl := List.mem_singleton.1 hst
    rfl

theorem echo_property_holds : ∃ B : Behaviour .ieee echoSpec,
    B.meaning .ieee 1 echoed = some (Data.truth true) := by
  obtain ⟨B⟩ := exists_echo_behaviour
  obtain ⟨t, s', h⟩ := run_echoed
  have ht : ∀ ρ, (Term.binary .iff t t).eval .ieee ρ = true := fun ρ => by simp [Term.eval, CoreBinary.apply]
  refine ⟨B, valid_property_holds .ieee echoSpec ⟨[(0, echo)]⟩ rfl (by decide) ⟨"p", echoed⟩
    (List.mem_singleton.2 rfl) {} s' rfl _ h ht B 1 fun id st _ hst => ?_⟩
  obtain ⟨hmem, _⟩ := Registry.find?_ofStreams (rfl : Registry.ofStreams [echo] = .ok ⟨[(0, echo)]⟩) hst
  obtain rfl := List.mem_singleton.1 hmem
  exact Nat.zero_le 1

def sameInputs : Expr :=
  .binary .bool .eq (.input .bool "k\x00 1") (.input .bool "k\x00 2")

theorem zero_in_names_makes_false_property_valid :
    ∃ t s', (Encoding.encodeProperty {} sameInputs).run {} = (.ok t, s') ∧ (∀ model ρ, t.eval model ρ = true) ∧
      ∀ model, ∃ B : Behaviour model ⟨[], [⟨"p", sameInputs⟩]⟩,
        B.meaning model 0 sameInputs = some (Data.truth false) := by
  obtain ⟨s', h, _⟩ := Encoding.run_equal_inputs {} (x := "k\x00 1") (y := "k\x00 2") (s := {})
    (by decide) (by decide) (by decide) rfl
  refine ⟨_, s', h, fun model ρ => ?_, fun model => ?_⟩
  · have hs : Symbol.ofHint (Supply.hintText (Encoding.inputHint "k\x00 1" 0)) 0 =
        Symbol.ofHint (Supply.hintText (Encoding.inputHint "k\x00 2" 0)) (0 + 1) := by decide +kernel
    simp [Term.eval, CoreBinary.apply, hs]
  · obtain ⟨outside, ho⟩ := World.exists_outside
    refine ⟨{
      stream := fun _ _ => .truth false
      input := fun name _ => .truth (name == "k\x00 1")
      outside := fun t _ _ _ => outside t
      stream_typed := by simp
      input_typed := fun e he p hp n => ?_
      outside_typed := fun t _ _ _ => ho t
      initial := by simp
      recurrent := by simp }, ?_⟩
    · simp [Spec.exprs, sameInputs] at he
      subst he
      simp [Expr.inputs, Expr.gather] at hp
      rcases hp with rfl | rfl <;> exact Data.truth_conforms _
    · rfl

end OneStep
