import OneStep.Proofs.Stability
import OneStep.Proofs.Typing

namespace OneStep

namespace StreamType

theorem eq_ofScalar_of_tag {t : StreamType} {k : Scalar} (hk : t.isKnown = true) (h : t.tag = .ok (.scalar k)) :
    t = .ofScalar k := by
  have hs : t.isScalar = true := by
    cases t with
    | array length element =>
      simp only [tag] at h
      split at h <;> cases h
    | struct name fields => cases h
    | _ => exact hk
  obtain ⟨k', rfl⟩ := isScalar_iff.1 hs
  rw [tag_ofScalar] at h
  cases h
  rfl

def Alike (t u : StreamType) : Prop :=
  t.tag = u.tag → t.shape = u.shape

end StreamType

theorem Value.Conforms.of_alike {t u : StreamType} {α : Scalar → Type} {v : Value α} (h : Conforms t v) (ha : t.Alike u)
    (ht : u.tag = .ok v.tag) : Conforms u v :=
  h.iff_shape_eq.2 (ha (h.tag_eq.trans ht.symm))

namespace SymValue

theorem IsScalar.conforms {t : StreamType} {v : SymValue} (h : v.IsScalar) (hk : t.isKnown = true)
    (ht : t.tag = .ok v.tag) : v.Conforms t := by
  obtain ⟨k, a, rfl⟩ := h
  exact (Value.conforms_scalar ..).2 (StreamType.eq_ofScalar_of_tag hk ht)

def outline (v : SymValue) : Value fun _ => Unit :=
  v.map fun _ _ => ()

theorem select_outline {cond : Term .bool} {x y v : SymValue} (h : select cond x y = .ok v) :
    v.outline = x.outline ∧ v.outline = y.outline := by
  refine select_induction (P := fun x y v => v.outline = x.outline ∧ v.outline = y.outline)
    (Q := fun xs ys vs => vs.map outline = xs.map outline ∧ vs.map outline = ys.map outline) ?_ ?_ ?_ ?_ ?_ h
  · exact fun _ _ _ => ⟨rfl, rfl⟩
  · intro xs ys vs hq
    simp only [outline, Value.map_array, Value.array.injEq]
    exact hq
  · intro xs ys vs hq
    simp only [outline, Value.map_struct, Value.struct.injEq]
    exact hq
  · exact ⟨rfl, rfl⟩
  · rintro x y v xs ys vs ⟨hx, hy⟩ ⟨hxs, hys⟩
    exact ⟨congrArg₂ List.cons hx hxs, congrArg₂ List.cons hy hys⟩

theorem conforms_of_outline {v w : SymValue} (h : v.outline = w.outline) {t : StreamType} (hw : w.Conforms t) :
    v.Conforms t := by
  rw [← Value.conforms_map (fun _ _ => ()) t, ← outline, h, outline, Value.conforms_map]
  exact hw

end SymValue

namespace Operator

open Outcome SymValue

theorem lookupFrom_conforms {i : Index} {outside v : SymValue} {t : StreamType} (ho : outside.Conforms t)
    {position : Nat} {items : List SymValue} (h : lookupFrom i outside position items = .ok v) : v.Conforms t := by
  induction items generalizing position v with
  | nil =>
    cases h
    exact ho
  | cons u rest ih =>
    obtain ⟨others, hr, h⟩ := bind_eq_ok_iff.1 h
    split at h
    · cases h
      exact ih hr
    · split at h
      · exact conforms_of_outline (select_outline h).2 (ih hr)
      · cases h

theorem ternary_conforms {op : TernaryOp} {x y z v : SymValue} {t : StreamType} (h : ternary op x y z = .ok v)
    (hy : y.Conforms t) : v.Conforms t := by
  cases op with
  | mux =>
    obtain ⟨c, _, h⟩ := bind_eq_ok_iff.1 h
    exact conforms_of_outline (select_outline h).1 hy
  | unknown name =>
    obtain ⟨_, _, h⟩ := bind_eq_ok_iff.1 h
    cases h

end Operator

def Expr.Agrees (registry : Registry) : Expr → Prop
  | .drop t _ id => ∀ st, registry.find? id = some st → st.type.Alike t ∧ st.expr.type.Alike t
  | .unary t op arg field => arg.Agrees registry ∧ t.isKnown = true ∧
    (op.takesField = true → ∀ i u, arg.type.field field = .ok (i, u) → u.Alike t)
  | .binary t _ left right => left.Agrees registry ∧ right.Agrees registry ∧ t.isKnown = true
  | .ternary t _ first second third =>
    first.Agrees registry ∧ second.Agrees registry ∧ third.Agrees registry ∧ second.type.Alike t
  | _ => True

def Expr.Declares (declared : String → StreamType → Prop) : Expr → Prop
  | .input t name => declared name t
  | .unary _ _ arg _ => arg.Declares declared
  | .binary _ _ left right => left.Declares declared ∧ right.Declares declared
  | .ternary _ _ first second third =>
    first.Declares declared ∧ second.Declares declared ∧ third.Declares declared
  | _ => True

theorem Expr.declares_any (e : Expr) : e.Declares fun _ _ => True := by
  induction e with
  | unary _ _ _ _ ih => exact ih
  | binary _ _ _ _ ihl ihr => exact ⟨ihl, ihr⟩
  | ternary _ _ _ _ _ ih₁ ih₂ ih₃ => exact ⟨ih₁, ih₂, ih₃⟩
  | _ => trivial

structure Registry.Agrees (registry : Registry) (declared : String → StreamType → Prop) : Prop where
  streams : ∀ id st, registry.find? id = some st → st.expr.Agrees registry
  inputs : ∀ name t u, declared name t → declared name u → t.Alike u

def Unknown.Shaped (registry : Registry) (declared : String → StreamType → Prop) (u : Unknown) (v : SymValue) : Prop :=
  match u with
  | .past id _ => ∃ st, registry.find? id = some st ∧ v.Conforms st.type
  | .input name _ => ∃ t, declared name t ∧ v.Conforms t
  | .outside l => v.Conforms l.element

namespace Outcome

variable {σ α : Type} {I : σ → Prop} {Q : α → Prop}

theorem keeps_result (x : Except Fault α) :
    Keeps I (fun _ => True) (fun a => x = .ok a) (liftM x : ExceptT Fault (StateM σ) α) :=
  fun _ hs => ⟨hs, fun _ h => h, fun _ _ => trivial⟩

theorem keeps_fault (f : Fault) : Keeps I (fun _ => True) Q (throw f : ExceptT Fault (StateM σ) α) :=
  keeps_throw trivial

end Outcome

namespace Encoding

variable {registry : Registry} {declared : String → StreamType → Prop}

def Holds (registry : Registry) (declared : String → StreamType → Prop) {α : Type} (Q : α → Prop) (m : Encoding α) :
    Prop :=
  Outcome.Keeps (fun s => s.memo.All (Unknown.Shaped registry declared)) (fun _ => True) Q m

theorem holds_draw (t : StreamType) (hint : String) : Holds registry declared (Value.Conforms t) (draw t hint) :=
  fun _ hs => ⟨hs, fun _ h => conforms_of_draw (Prod.ext h rfl), fun _ _ => trivial⟩

theorem holds_note (e : Event) : Holds registry declared (fun _ => True) (note e) :=
  fun _ hs => ⟨hs, fun _ _ => trivial, fun _ _ => trivial⟩

theorem holds_done : Holds registry declared (fun _ => True) (pure ()) :=
  fun _ hs => ⟨hs, fun _ _ => trivial, fun _ _ => trivial⟩

theorem holds_checked {e : Expr} {v : SymValue} {Q : SymValue → Prop} (h : e.type.tag = .ok v.tag → Q v) :
    Holds registry declared Q (checked e v) := by
  refine Outcome.keeps_bind (Outcome.keeps_result _) fun tag ht => ?_
  split
  · next hv => exact Outcome.keeps_of_ok fun s hs => ⟨v, _, run_share v s, h (hv ▸ ht), hs⟩
  · exact Outcome.keeps_bind (Outcome.keeps_result _) fun _ _ => Outcome.keeps_fault _

theorem holds_past (id o : Int) :
    Holds registry declared (fun v => ∃ st, registry.find? id = some st ∧ v.Conforms st.type) (past registry id o) := by
  rw [past_eq]
  split
  · exact Outcome.keeps_fault _
  · refine keeps_memoized (u := .past id o) ?_ (holds_note _)
    refine Outcome.keeps_bind (Outcome.keeps_result _) fun st hst => ?_
    refine Outcome.keeps_bind (Outcome.keeps_result _) fun _ _ => ?_
    refine Outcome.keeps_bind (Outcome.keeps_result _) fun _ _ s hs => ?_
    obtain ⟨hi, hv, hf⟩ := holds_draw st.type _ s hs
    exact ⟨hi, fun v h => ⟨st, Registry.get_eq_ok_iff.1 hst, hv v h⟩, hf⟩

theorem holds_input {name : String} {t : StreamType} (hd : declared name t) (o : Int) :
    Holds registry declared (fun v => ∃ u, declared name u ∧ v.Conforms u) (input name t o) := by
  rw [input_eq]
  split
  · exact Outcome.keeps_fault _
  · refine keeps_memoized (u := .input name o) ?_ holds_done
    refine Outcome.keeps_bind (Outcome.keeps_result _) fun _ _ s hs => ?_
    obtain ⟨hi, hv, hf⟩ := holds_draw t _ s hs
    exact ⟨hi, fun v h => ⟨t, hd, hv v h⟩, hf⟩

theorem holds_outside (l : Lookup) : Holds registry declared (Value.Conforms l.element) (outside l) := by
  rw [outside_eq]
  exact keeps_memoized (u := .outside l) (holds_draw _ _) holds_done

theorem holds_binary (op : BinaryOp) (x y : SymValue) (t : StreamType) :
    Holds registry declared (fun v => v.Conforms t ∨ v.IsScalar) (binary op x y t) := by
  unfold binary
  split
  · refine Outcome.keeps_bind (Outcome.keeps_result _) fun (items, i) _ => ?_
    refine Outcome.keeps_bind (holds_outside ⟨t, x, .bits i.width, i.term⟩) fun w hw => ?_
    exact fun _ hs => ⟨hs, fun v h => .inl (Operator.lookupFrom_conforms hw h), fun _ _ => trivial⟩
  · exact fun _ hs => ⟨hs, fun v h => .inr (Operator.isScalar_of_binary h), fun _ _ => trivial⟩

theorem unary_conforms {t : StreamType} {op : UnaryOp} {arg : Expr} {field : Datum} {position : Option Nat}
    {x v : SymValue} (ha : (Expr.unary t op arg field).Agrees registry) (hx : x.Conforms arg.type)
    (hp : positionTaken op arg field = .ok position)
    (hv : Operator.unary op x t (position.map Int.ofNat) = .ok v) (ht : t.tag = .ok v.tag) : v.Conforms t := by
  obtain ⟨_, hk, hf⟩ := ha
  cases op with
  | getField =>
    obtain ⟨i, hi, rfl⟩ := Outcome.map_eq_ok_iff.1 hp
    obtain ⟨name, fields, u, harg, hu⟩ := fieldPosition_ok hi
    obtain ⟨w, hw, hc⟩ := Operator.getField_typed (harg ▸ hx) hu
    cases hw.symm.trans hv
    refine hc.of_alike (hf rfl i u ?_) ht
    rw [harg, StreamType.field, hu]
  | _ => exact (Operator.isScalar_of_unary rfl hv).conforms hk ht

theorem inductive_holds (hd : ∀ id st, registry.find? id = some st → st.expr.Declares declared) :
    Inductive registry (fun _ => True)
      (fun e _ m => e.Declares declared →
        Holds registry declared (fun v => registry.Agrees declared → e.Agrees registry → v.Conforms e.type) m)
      (fun st _ m => (∃ id, registry.find? id = some st) →
        Holds registry declared (fun v => registry.Agrees declared → v.Conforms st.expr.type) m) where
  future _ _ _ _ := Outcome.keeps_fault _
  const t d o _ := fun _ hs => ⟨hs, fun v h _ _ => Constant.encode_conforms h, fun _ _ => trivial⟩
  past t k id o _ _ _ := by
    refine Outcome.keeps_bind (holds_past id (o + k)) fun v hv => holds_checked fun ht _ ha => ?_
    obtain ⟨st, hst, hc⟩ := hv
    exact hc.of_alike (ha st hst).1 ht
  present t k id o m _ _ _ hm _ := by
    refine Outcome.keeps_bind (Outcome.keeps_result _) fun st hst => ?_
    have hst' := Registry.get_eq_ok_iff.1 hst
    refine Outcome.keeps_bind (hm st hst' ⟨id, hst'⟩) fun v hv => holds_checked fun ht hr ha => ?_
    exact (hv hr).of_alike (ha st hst').2 ht
  input t name o _ he := by
    refine Outcome.keeps_bind (holds_input he o) fun v hv => holds_checked fun ht hr _ => ?_
    obtain ⟨u, hu, hc⟩ := hv
    exact hc.of_alike (hr.inputs name u t hu he) ht
  unary t op arg field o m _ _ hm he := by
    refine Outcome.keeps_bind (hm he) fun x hx => ?_
    refine Outcome.keeps_bind (Outcome.keeps_result _) fun position hp => ?_
    refine Outcome.keeps_bind (Outcome.keeps_result _) fun v hv => holds_checked fun ht hr ha => ?_
    exact unary_conforms ha (hx hr ha.1) hp hv ht
  binary t op left right o m n _ _ _ hm hn he := by
    refine Outcome.keeps_bind (hm he.1) fun x _ => ?_
    refine Outcome.keeps_bind (hn he.2) fun y _ => ?_
    refine Outcome.keeps_bind (holds_binary op x y t) fun v hv => holds_checked fun ht _ ha => ?_
    exact hv.elim id fun h => h.conforms ha.2.2 ht
  ternary t op first second third o l m n _ _ _ _ hl hm hn he := by
    refine Outcome.keeps_bind (hl he.1) fun x _ => ?_
    refine Outcome.keeps_bind (hm he.2.1) fun y hy => ?_
    refine Outcome.keeps_bind (hn he.2.2) fun z _ => ?_
    refine Outcome.keeps_bind (Outcome.keeps_result _) fun v hv => holds_checked fun ht hr ha => ?_
    exact (Operator.ternary_conforms hv (hy hr ha.2.1)).of_alike ha.2.2.2 ht
  refused _ _ _ _ _ _ := Outcome.keeps_fault _
  exhausted _ _ _ := Outcome.keeps_fault _
  repeated _ _ _ := Outcome.keeps_bind (holds_note _) fun _ _ => Outcome.keeps_fault _
  unrolled st total m _ hm hst := by
    obtain ⟨id, hst⟩ := hst
    refine Outcome.keeps_bind (holds_note _) fun _ _ s hs => ?_
    obtain ⟨hi, hv, hf⟩ := hm (hd id st hst) s hs
    exact ⟨hi, fun v h hr => hv v h hr (hr.streams id st hst), hf⟩

theorem holds_encode (hd : ∀ id st, registry.find? id = some st → st.expr.Declares declared) {e : Expr}
    (he : e.Declares declared) (o : Int) :
    Holds registry declared (fun v => registry.Agrees declared → e.Agrees registry → v.Conforms e.type)
      (encode registry e o) :=
  (inductive_holds hd).encode (.trivially registry _) e o he

theorem all_after (hd : ∀ id st, registry.find? id = some st → st.expr.Declares declared) {s : Encoder}
    (hs : s.memo.All (Unknown.Shaped registry declared)) {todo : List (Expr × Int)}
    (ht : ∀ r ∈ todo, r.1.Declares declared) :
    (after registry s todo).memo.All (Unknown.Shaped registry declared) := by
  induction todo generalizing s with
  | nil => exact hs
  | cons r todo ih =>
    obtain ⟨hr, ht⟩ := List.forall_mem_cons.1 ht
    exact ih (holds_encode hd hr r.2 s hs).1 ht

def Tagged (e : Expr) (m : Encoding SymValue) : Prop :=
  ∀ s v s', m.run s = (.ok v, s') → e.type.tag = .ok v.tag

theorem tagged_throw (e : Expr) (f : Fault) : Tagged e (throw f) := by
  intro s v s' h
  cases h

theorem tagged_bind {α : Type} {e : Expr} (m : Encoding α) {f : α → Encoding SymValue} (hf : ∀ a, Tagged e (f a)) :
    Tagged e (m >>= f) := by
  intro s v s' h
  obtain ⟨a, s₁, _, h⟩ := Outcome.run_bind_eq_ok_iff.1 h
  exact hf a s₁ v s' h

theorem tagged_checked (e : Expr) (v : SymValue) : Tagged e (checked e v) := by
  intro s w s' h
  obtain ⟨ht, rfl, _⟩ := run_checked_eq_ok_iff.1 h
  exact ht

theorem inductive_tagged (registry : Registry) :
    Inductive registry (fun _ => True) (fun e _ m => Tagged e m) (fun _ _ _ => True) where
  future e o _ := tagged_throw e (.instantOffset o)
  const _ _ _ := fun _ _ _ h => (Constant.encode_conforms (Prod.mk.inj h).1).tag_eq
  past _ _ _ _ _ _ := tagged_bind _ (tagged_checked _)
  present _ _ _ _ _ _ _ _ _ := tagged_bind _ fun _ => tagged_bind _ (tagged_checked _)
  input _ _ _ _ := tagged_bind _ (tagged_checked _)
  unary _ _ _ _ _ _ _ _ _ := tagged_bind _ fun _ => tagged_bind _ fun _ => tagged_bind _ (tagged_checked _)
  binary _ _ _ _ _ _ _ _ _ _ _ _ := tagged_bind _ fun _ => tagged_bind _ fun _ => tagged_bind _ (tagged_checked _)
  ternary _ _ _ _ _ _ _ _ _ _ _ _ _ _ _ _ :=
    tagged_bind _ fun _ => tagged_bind _ fun _ => tagged_bind _ fun _ => tagged_bind _ (tagged_checked _)
  refused e _ _ _ _ := tagged_throw e _
  exhausted _ _ := trivial
  repeated _ _ := trivial
  unrolled _ _ _ _ _ := trivial

theorem tagged_encode (registry : Registry) (e : Expr) (o : Int) : Tagged e (encode registry e o) :=
  (inductive_tagged registry).encode (.trivially registry _) e o

structure Compared (e : Expr) (u : StreamType) (v : SymValue) (r : Except Fault SymValue) : Prop where
  tagged : u.tag = .ok v.tag
  accepted : e.type.tag = u.tag → r = .ok v
  refused : ∀ expected text, e.type.tag = .ok expected → expected ≠ v.tag → e.describe = .ok text →
    r = .error (mismatch text expected.name v.tag.name)
  conforms_iff : v.Conforms u → (v.Conforms e.type ↔ u.shape = e.type.shape)

theorem compared_checked {e : Expr} {u : StreamType} {v : SymValue} (h : u.tag = .ok v.tag) (s : Encoder) :
    Compared e u v ((checked e v).run s).1 where
  tagged := h
  accepted ht := by rw [run_checked_eq_ok_iff.2 ⟨ht.trans h, rfl, rfl⟩]
  refused expected text ht hne hd := by
    rw [checked, ht]
    show ((if v.tag = expected then share v else _ : Encoding SymValue).run s).1 = _
    rw [if_neg hne.symm, hd]
    rfl
  conforms_iff hv := hv.iff_shape_eq

section

variable {t u : StreamType} {k id o : Int} {name : String} {st : Stream} {s s₁ s₂ : Encoder} {v : SymValue}

theorem compared_past (hs : s.memo.All (Unknown.Shaped registry declared)) (hst : registry.find? id = some st)
    (ho : o ≤ 0) (hk : o + k < 0) (h : (past registry id (o + k)).run s = (.ok v, s₁)) :
    v.Conforms st.type ∧ Compared (.drop t k id) st.type v ((encode registry (.drop t k id) o).run s).1 := by
  obtain ⟨st', hst', hv⟩ := (holds_past id (o + k) s hs).2.1 v (by rw [h])
  cases hst.symm.trans hst'
  rw [encode, encodeAt_of_nonpos ho, encodeWith_drop, if_pos hk, Outcome.run_bind_of_ok h]
  exact ⟨hv, compared_checked hv.tag_eq s₁⟩

theorem compared_present (hr : ∀ id st, registry.find? id = some st → st.id = id)
    (hst : registry.find? id = some st) (ho : o ≤ 0) (hk : 0 ≤ o + k)
    (h : (encode registry st.expr (o + k - st.buffer.length)).run
      (s.noted (.unrolling st.id (o + k) st.buffer.length)) = (.ok v, s₁)) :
    Compared (.drop t k id) st.expr.type v ((encode registry (.drop t k id) o).run s).1 := by
  have hrun := (Unrolls.drop (t := t) (s := s) ho hk hst).run_of_ok hr h
  rw [Call.run] at hrun
  rw [hrun]
  exact compared_checked (tagged_encode registry _ _ _ _ _ h) s₁

theorem compared_input (h : (encode registry (.input u name) o).run s = (.ok v, s₁)) (hs : s₁.Grows s₂) :
    Compared (.input t name) u v ((encode registry (.input t name) o).run s₂).1 := by
  have ho : o ≤ 0 := nonpos_of_ok h
  have ht := tagged_encode registry _ _ _ _ _ h
  rw [encode, encodeAt_of_nonpos ho, encodeWith] at h
  obtain ⟨w, s₀, hw, hc⟩ := Outcome.run_bind_eq_ok_iff.1 h
  have hg := Trans.trans (moves_run (grows_checked _ _) hc) hs
  obtain ⟨_, rfl, _⟩ := run_checked_eq_ok_iff.1 hc
  obtain ⟨s', hv, _⟩ := run_memoized_found (hg.kept _ _ (find?_input hw)) (drawInput name t o) (pure ())
  rw [encode, encodeAt_of_nonpos ho, encodeWith, input_eq, if_neg (by omega), Outcome.run_bind_of_ok hv]
  exact compared_checked ht s'

end

theorem encoding_conforms {streams : List Stream} {registry : Registry}
    (hr : Registry.ofStreams streams = .ok registry) :
    (∀ s e o v s', (encode registry e o).run s = (.ok v, s') → e.type.tag = .ok v.tag) ∧
    (∀ declared : String → StreamType → Prop, (∀ name t u, declared name t → declared name u → t.Alike u) →
      (∀ st ∈ streams, st.expr.Declares declared ∧ st.expr.Agrees registry) →
      ∀ s todo, s.memo = {} → (∀ r ∈ todo, r.1.Declares declared) →
      ∀ e o v s', e.Declares declared → e.Agrees registry →
        (encode registry e o).run (after registry s todo) = (.ok v, s') → v.Conforms e.type) ∧
    (∀ s todo t k id o st v s₁, s.memo = {} → registry.find? id = some st → o ≤ 0 → o + k < 0 →
      (past registry id (o + k)).run (after registry s todo) = (.ok v, s₁) →
      v.Conforms st.type ∧
        Compared (.drop t k id) st.type v ((encode registry (.drop t k id) o).run (after registry s todo)).1) ∧
    (∀ s t k id o st v s₁, registry.find? id = some st → o ≤ 0 → 0 ≤ o + k →
      (encode registry st.expr (o + k - st.buffer.length)).run
        (s.noted (.unrolling st.id (o + k) st.buffer.length)) = (.ok v, s₁) →
      Compared (.drop t k id) st.expr.type v ((encode registry (.drop t k id) o).run s).1) ∧
    (∀ s t u name o v s₁ s₂, (encode registry (.input u name) o).run s = (.ok v, s₁) → s₁.Grows s₂ →
      Compared (.input t name) u v ((encode registry (.input t name) o).run s₂).1) := by
  have hfresh : ∀ (declared : String → StreamType → Prop) (s : Encoder), s.memo = {} →
      s.memo.All (Unknown.Shaped registry declared) := by
    intro declared s hs u v hv
    rw [hs] at hv
    cases u <;> cases hv
  refine ⟨fun s e o v s' => tagged_encode registry e o s v s', ?_, ?_, ?_, ?_⟩
  · intro declared hi hst s todo hs ht e o v s' hd ha h
    have hdecl : ∀ id st, registry.find? id = some st → st.expr.Declares declared :=
      fun id st hf => (hst st (Registry.find?_ofStreams hr hf).1).1
    have hagree : registry.Agrees declared := ⟨fun id st hf => (hst st (Registry.find?_ofStreams hr hf).1).2, hi⟩
    have hall := all_after hdecl (hfresh declared s hs) ht
    exact (holds_encode hdecl hd o _ hall).2.1 v (by rw [h]) hagree ha
  · intro s todo t k id o st v s₁ hs hst ho hk h
    have htodo : ∀ r ∈ todo, r.1.Declares fun _ _ => True := fun r _ => r.1.declares_any
    have hall := all_after (fun _ st _ => st.expr.declares_any) (hfresh _ s hs) htodo
    exact compared_past hall hst ho hk h
  · intro s t k id o st v s₁ hst ho hk h
    exact compared_present (fun id st hf => (Registry.find?_ofStreams hr hf).2) hst ho hk h
  · intro s t u name o v s₁ s₂ h hs
    exact compared_input h hs

def reading : StreamType :=
  .struct "Reading" [("valid", .bool), ("levels", .array 2 .bool)]

def sample : StreamType :=
  .struct "Sample" [("ok", .bool), ("bits", .array 2 .bool)]

def sensor : Stream :=
  ⟨0, reading, [], .const reading (.tuple [.bool true, .tuple [.bool true, .bool false]])⟩

theorem renamed_fields_conform : ∃ v s',
    (encode ⟨[(0, sensor)]⟩ (.drop sample 0 0) 0).run {} = (.ok v, s') ∧ v.Conforms sample := by
  have hr : Registry.ofStreams [sensor] = .ok ⟨[(0, sensor)]⟩ := rfl
  have hst : Table.find? (⟨[(0, sensor)]⟩ : Registry) 0 = some sensor := by simp [Table.find?]
  obtain ⟨_, hdeep, _, hpresent, _⟩ := encoding_conforms hr
  have hv := hpresent {} sample 0 0 0 sensor _ _ hst (by decide) (by decide) rfl
  have hrun := Prod.ext (hv.accepted rfl) rfl
  refine ⟨_, _, hrun, hdeep (fun _ _ => False) (fun _ _ _ h => h.elim) ?_ {} [] rfl (by simp) (.drop sample 0 0) 0 _ _
    trivial ?_ hrun⟩
  · intro st hmem
    obtain rfl := List.mem_singleton.1 hmem
    exact ⟨trivial, trivial⟩
  · intro st hf
    cases hst.symm.trans hf
    exact ⟨fun _ => rfl, fun _ => rfl⟩

def twins : Stream :=
  ⟨0, .array 2 .bool, [], .const (.array 2 .bool) (.tuple [.bool true, .bool true])⟩

def tally : Stream :=
  ⟨1, .int 32, [], .const (.word 8) (.int 1)⟩

theorem other_types_accepted :
    Registry.ofStreams [twins, tally] = .ok ⟨[(0, twins), (1, tally)]⟩ ∧
    (∃ v s', (encode ⟨[(0, twins), (1, tally)]⟩ (.drop (.array 3 .bool) 0 0) 0).run {} = (.ok v, s') ∧
      ¬ v.Conforms (.array 3 .bool)) ∧
    (∃ v s', (encode ⟨[(0, twins), (1, tally)]⟩ (.drop (.word 8) 0 1) 0).run {} = (.ok v, s')) ∧
    tally.type.tag ≠ (StreamType.word 8).tag := by
  have hr : Registry.ofStreams [twins, tally] = .ok ⟨[(0, twins), (1, tally)]⟩ := rfl
  have hids : ∀ id st, Table.find? (⟨[(0, twins), (1, tally)]⟩ : Registry) id = some st → st.id = id :=
    fun _ _ hf => (Registry.find?_ofStreams hr hf).2
  have h₀ : Table.find? (⟨[(0, twins), (1, tally)]⟩ : Registry) 0 = some twins := by simp [Table.find?]
  have h₁ : Table.find? (⟨[(0, twins), (1, tally)]⟩ : Registry) 1 = some tally := by simp [Table.find?]
  have hv := compared_present (t := .array 3 .bool) (o := 0) (k := 0) (s := {}) hids h₀ (by decide) (by decide) rfl
  have hw := compared_present (t := .word 8) (o := 0) (k := 0) (s := {}) hids h₁ (by decide) (by decide) rfl
  refine ⟨hr, ⟨_, _, Prod.ext (hv.accepted rfl) rfl, ?_⟩, ⟨_, _, Prod.ext (hw.accepted rfl) rfl⟩, ?_⟩
  · simp
  · intro ht
    cases ht

end Encoding

end OneStep
