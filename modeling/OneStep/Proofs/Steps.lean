import OneStep.Encoding
import OneStep.Proofs.Shape

namespace OneStep

theorem Table.foldlM_entries {κ ν : Type} [BEq κ] {pairs : List (κ × ν)} {t t' : Table κ ν}
    (h : pairs.foldlM (fun t (key, value) => if t.contains key then .error key else .ok (t.add key value)) t =
      Except.ok t') : t'.entries = t.entries ++ pairs := by
  induction pairs generalizing t with
  | nil =>
    cases h
    simp
  | cons p pairs ih =>
    obtain ⟨key, value⟩ := p
    simp only [List.foldlM_cons] at h
    by_cases hc : t.contains key = true
    · rw [if_pos hc] at h
      cases h
    · rw [if_neg hc] at h
      rw [ih h, Table.add, List.append_assoc]
      rfl

theorem Registry.entries_ofStreams {streams : List Stream} {registry : Registry}
    (h : Registry.ofStreams streams = .ok registry) : registry.entries = streams.map fun st => (st.id, st) := by
  unfold Registry.ofStreams at h
  split at h
  · next t ht =>
    cases h
    exact (Table.foldlM_entries ht).trans (List.nil_append _)
  · cases h

theorem Registry.find?_ofStreams {streams : List Stream} {registry : Registry}
    (h : Registry.ofStreams streams = .ok registry) {id : Int} {st : Stream} (hs : registry.find? id = some st) :
    st ∈ streams ∧ st.id = id := by
  obtain ⟨⟨key, st'⟩, hf, rfl⟩ := Option.map_eq_some_iff.1 hs
  have hmem := List.mem_of_find?_eq_some hf
  rw [entries_ofStreams h] at hmem
  obtain ⟨st₁, hst₁, he⟩ := List.mem_map.1 hmem
  cases he
  exact ⟨hst₁, by simpa using List.find?_some hf⟩

theorem Registry.get_eq_ok_iff {registry : Registry} {id : Int} {st : Stream} :
    registry.get id = .ok st ↔ registry.find? id = some st := by
  unfold Registry.get
  cases registry.find? id with
  | some st' => simp
  | none =>
    simp only [reduceCtorEq, iff_false]
    intro h
    obtain ⟨_, _, h⟩ := Outcome.bind_eq_ok_iff.1 h
    cases h

def Expr.isEncodable : Expr → Bool
  | .letIn .. | .var .. | .label .. | .bare _ => false
  | _ => true

namespace Encoding

theorem share_term {k : Kind} (t : Term k) (pool : Pool) :
    (((·.1) <$> t.share : StateM Pool (Term k)).run pool).1 = t :=
  ((t.share).run pool).1.2

theorem share_items {items : List SymValue}
    (ih : ∀ v ∈ items, ∀ pool, ((SymValue.share v).run pool).1 = v) (pool : Pool) :
    ((Value.mapMItems (fun _ t => (·.1) <$> Term.share t) items : StateM Pool (List SymValue)).run pool).1 = items := by
  induction items generalizing pool with
  | nil => rfl
  | cons v items iht =>
    have hv := ih v (List.mem_cons_self ..) pool
    have hs := iht (fun u hu => ih u (List.mem_cons_of_mem _ hu))
      ((SymValue.share v).run pool).2
    exact congrArg₂ List.cons hv hs

theorem share_value (v : SymValue) (pool : Pool) : ((SymValue.share v).run pool).1 = v := by
  induction v using Value.shape_induction generalizing pool with
  | scalar s t => exact congrArg (Value.scalar s) (share_term t pool)
  | array items ih => exact congrArg Value.array (share_items ih pool)
  | struct items ih => exact congrArg Value.struct (share_items ih pool)

theorem run_share (v : SymValue) (s : Encoder) :
    (share v).run s = (.ok v, { s with pool := ((SymValue.share v).run s.pool).2 }) := by
  have h : (share v).run s =
      (.ok ((SymValue.share v).run s.pool).1, { s with pool := ((SymValue.share v).run s.pool).2 }) := rfl
  rw [h, share_value]

theorem run_checked_eq_ok_iff {e : Expr} {v u : SymValue} {s s' : Encoder} :
    (checked e v).run s = (.ok u, s') ↔
      e.type.tag = .ok v.tag ∧ u = v ∧ s' = { s with pool := ((SymValue.share v).run s.pool).2 } := by
  unfold checked
  simp only [Outcome.run_bind_eq_ok_iff, Outcome.run_lift_eq_ok_iff]
  constructor
  · rintro ⟨tag, _, ⟨ht, rfl⟩, h⟩
    split at h
    · next hv =>
      rw [run_share] at h
      cases h
      exact ⟨hv ▸ ht, rfl, rfl⟩
    · obtain ⟨_, _, _, h⟩ := Outcome.run_bind_eq_ok_iff.1 h
      cases h
  · rintro ⟨ht, rfl, rfl⟩
    refine ⟨u.tag, s, ⟨ht, rfl⟩, ?_⟩
    rw [if_pos rfl, run_share]

theorem exists_checked {e : Expr} {v : SymValue} (h : e.type.tag = .ok v.tag) (s : Encoder) :
    ∃ s', (checked e v).run s = (.ok v, s') ∧ s'.supply = s.supply ∧ s'.memo = s.memo :=
  ⟨_, run_checked_eq_ok_iff.2 ⟨h, rfl, rfl⟩, rfl, rfl⟩

theorem run_encodeProperty_eq_ok_iff {registry : Registry} {e : Expr} {s s' : Encoder} {t : Term .bool} :
    (encodeProperty registry e).run s = (.ok t, s') ↔ (encode registry e 0).run s = (.ok (.scalar .bool t), s') := by
  unfold encodeProperty
  rw [Outcome.run_bind_eq_ok_iff]
  constructor
  · rintro ⟨v, s₁, hv, h⟩
    split at h
    · cases h
      exact hv
    · cases h
  · intro h
    exact ⟨_, s', h, rfl⟩

theorem encodeAt_eq (registry : Registry) (present : Stream → Int → Encoding SymValue) (e : Expr) (o : Int) :
    encodeAt registry present e o =
      if 0 < o then throw (.instantOffset o) else encodeWith registry present o e := by
  unfold encodeAt
  split
  · rfl
  · rfl

theorem unroll_succ_eq (registry : Registry) (fuel : Nat) (active : List (Int × Int)) (st : Stream) (total : Int) :
    unroll registry (fuel + 1) active st total = (do
      note (.unrolling st.id total st.buffer.length)
      if (st.id, total) ∈ active then
        throw .endless
      else
        encodeAt registry (unroll registry fuel ((st.id, total) :: active)) st.expr (total - st.buffer.length)) := by
  rw [unroll]
  congr 1

theorem binary_of_ne_index {op : BinaryOp} (h : op ≠ .index) (x y : SymValue) (t : StreamType) :
    binary op x y t = liftM (Operator.binary op x y) := by
  cases op with
  | index => exact absurd rfl h
  | _ => rfl

def positionTaken (op : UnaryOp) (arg : Expr) (field : Datum) : Except Fault (Option Nat) :=
  if op.takesField then some <$> fieldPosition arg field else .ok none

theorem fieldPosition_ok {arg : Expr} {field : Datum} {i : Nat} (h : fieldPosition arg field = .ok i) :
    ∃ name fields u, arg.type = .struct name fields ∧ StreamType.findNamed? fields field = some (i, u) := by
  unfold fieldPosition at h
  split at h
  · next name fields ht =>
    split at h
    · next j u hu =>
      cases h
      exact ⟨name, fields, u, ht, hu⟩
    · obtain ⟨_, _, h⟩ := Outcome.bind_eq_ok_iff.1 h
      cases h
  · obtain ⟨_, _, h⟩ := Outcome.bind_eq_ok_iff.1 h
    cases h

theorem encodeWith_unary (registry : Registry) (present : Stream → Int → Encoding SymValue) (o : Int)
    (t : StreamType) (op : UnaryOp) (arg : Expr) (field : Datum) :
    encodeWith registry present o (.unary t op arg field) = (do
      let x ← encodeWith registry present o arg
      let position ← positionTaken op arg field
      let v ← Operator.unary op x t (position.map Int.ofNat)
      checked (.unary t op arg field) v) := by
  rw [encodeWith]
  congr 1
  funext x
  unfold positionTaken
  split
  · cases fieldPosition arg field <;> rfl
  · rfl

-- `P` is about the steps of an expression at an offset, `S` about those of a stream at an offset from now on;
-- `G` is what is known already of the steps of every part
structure Inductive (registry : Registry) (G : Encoding SymValue → Prop) (P : Expr → Int → Encoding SymValue → Prop)
    (S : Stream → Int → Encoding SymValue → Prop) : Prop where
  future : ∀ e o, 0 < o → P e o (throw (.instantOffset o))
  const : ∀ t d o, P (.const t d) o (liftM (Constant.encode t d))
  past : ∀ t k id o, o ≤ 0 → o + k < 0 → P (.drop t k id) o (do
    let v ← Encoding.past registry id (o + k)
    checked (.drop t k id) v)
  present : ∀ t k id o (m : Stream → Encoding SymValue), o ≤ 0 → 0 ≤ o + k →
    (∀ st, registry.find? id = some st → G (m st)) →
    (∀ st, registry.find? id = some st → S st (o + k) (m st)) → P (.drop t k id) o (do
      let st ← registry.get id
      let v ← m st
      checked (.drop t k id) v)
  input : ∀ t name o, o ≤ 0 → P (.input t name) o (do
    let v ← Encoding.input name t o
    checked (.input t name) v)
  unary : ∀ t op arg field o m, o ≤ 0 → G m → P arg o m → P (.unary t op arg field) o (do
    let x ← m
    let position ← positionTaken op arg field
    let v ← Operator.unary op x t (position.map Int.ofNat)
    checked (.unary t op arg field) v)
  binary : ∀ t op left right o m n, o ≤ 0 → G m → G n → P left o m → P right o n →
    P (.binary t op left right) o (do
      let x ← m
      let y ← n
      let v ← Encoding.binary op x y t
      checked (.binary t op left right) v)
  ternary : ∀ t op first second third o l m n, o ≤ 0 → G l → G m → G n →
    P first o l → P second o m → P third o n → P (.ternary t op first second third) o (do
      let x ← l
      let y ← m
      let z ← n
      let v ← Operator.ternary op x y z
      checked (.ternary t op first second third) v)
  refused : ∀ e construct details o, e.isEncodable = false → P e o (unsupported construct details)
  exhausted : ∀ st total, S st total (throw .endless)
  repeated : ∀ st total, S st total (do
    note (.unrolling st.id total st.buffer.length)
    throw .endless)
  unrolled : ∀ st total m, G m → P st.expr (total - st.buffer.length) m → S st total (do
    note (.unrolling st.id total st.buffer.length)
    m)

namespace Inductive

variable {registry : Registry} {G : Encoding SymValue → Prop} {P : Expr → Int → Encoding SymValue → Prop}
  {S : Stream → Int → Encoding SymValue → Prop} {present : Stream → Int → Encoding SymValue}

theorem encodeWith (hi : Inductive registry G P S)
    (hp : ∀ st total, G (present st total) ∧ S st total (present st total)) {o : Int} (ho : o ≤ 0)
    (hg : ∀ e, G (Encoding.encodeWith registry present o e)) (e : Expr) :
    P e o (Encoding.encodeWith registry present o e) := by
  induction e with
  | const t d => exact hi.const t d o
  | drop t k id =>
    rw [Encoding.encodeWith]
    split
    · next hk => exact hi.past t k id o ho hk
    · next hk =>
      exact hi.present t k id o (fun st => present st (o + k)) ho (by omega) (fun st _ => (hp st (o + k)).1)
        fun st _ => (hp st (o + k)).2
  | input t name => exact hi.input t name o ho
  | unary t op arg field ih =>
    rw [encodeWith_unary]
    exact hi.unary t op arg field o _ ho (hg arg) ih
  | binary t op left right ihl ihr => exact hi.binary t op left right o _ _ ho (hg left) (hg right) ihl ihr
  | ternary t op first second third ih₁ ih₂ ih₃ =>
    exact hi.ternary t op first second third o _ _ _ ho (hg first) (hg second) (hg third) ih₁ ih₂ ih₃
  | letIn t name boundType bound body _ _ => exact hi.refused _ _ _ o rfl
  | var t name => exact hi.refused _ _ _ o rfl
  | label t label body _ => exact hi.refused _ _ _ o rfl
  | bare t => exact hi.refused _ _ _ o rfl

theorem unroll (hi : Inductive registry G P S)
    (hg : Inductive registry (fun _ => True) (fun _ _ m => G m) (fun _ _ m => G m)) (fuel : Nat)
    (active : List (Int × Int)) (st : Stream) (total : Int) :
    G (Encoding.unroll registry fuel active st total) ∧ S st total (Encoding.unroll registry fuel active st total) := by
  induction fuel generalizing active st total with
  | zero => exact ⟨hg.exhausted st total, hi.exhausted st total⟩
  | succ fuel ih =>
    rw [unroll_succ_eq]
    split
    · exact ⟨hg.repeated st total, hi.repeated st total⟩
    · rw [encodeAt_eq]
      split
      · next ho =>
        exact ⟨hg.unrolled st total _ trivial (hg.future st.expr _ ho),
          hi.unrolled st total _ (hg.future st.expr _ ho) (hi.future st.expr _ ho)⟩
      · next ho =>
        have ho' : total - st.buffer.length ≤ 0 := by omega
        have hp := fun st' total' => ih ((st.id, total) :: active) st' total'
        have hge := hg.encodeWith (fun st' total' => ⟨trivial, (hp st' total').1⟩) ho' fun _ => trivial
        have he := hi.encodeWith hp ho' hge st.expr
        exact ⟨hg.unrolled st total _ trivial (hge st.expr), hi.unrolled st total _ (hge st.expr) he⟩

theorem trivially (registry : Registry) (G : Encoding SymValue → Prop) :
    Inductive registry G (fun _ _ _ => True) (fun _ _ _ => True) := by
  constructor <;> intros <;> trivial

theorem encode (hi : Inductive registry G P S)
    (hg : Inductive registry (fun _ => True) (fun _ _ m => G m) (fun _ _ m => G m)) (e : Expr) (o : Int) :
    P e o (Encoding.encode registry e o) := by
  rw [Encoding.encode, encodeAt_eq]
  split
  · next ho => exact hi.future e o ho
  · next ho =>
    have ho' : o ≤ 0 := by omega
    have hp := hi.unroll hg (places registry + 1) []
    exact hi.encodeWith hp ho' (hg.encodeWith (fun st total => ⟨trivial, (hp st total).1⟩) ho' fun _ => trivial) e

end Inductive

end Encoding

end OneStep
