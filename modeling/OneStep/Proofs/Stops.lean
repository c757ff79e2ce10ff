import OneStep.Proofs.Decoding
import OneStep.Proofs.Faults
import OneStep.Proofs.Progress

namespace OneStep

open Fault Outcome

def Expr.nodes : Expr → List Expr :=
  gather fun e => [e]

theorem Expr.mem_nodes_self (e : Expr) : e ∈ e.nodes := by
  cases e <;> simp [nodes, gather]

namespace Spec

def nodes (spec : Spec) : List Expr :=
  spec.exprs.flatMap Expr.nodes

def isWritten (spec : Spec) : Bool :=
  spec.streams.all (fun st => Text.isWritable st.buffer.length) && spec.nodes.all Expr.isWritten

inductive Stops (spec : Spec) : Fault → Prop where
  | ahead {t : StreamType} {k o : Int} {st : Stream} (node : .drop t k st.id ∈ spec.nodes) (stream : st ∈ spec.streams)
    (positive : 0 < o) (beyond : st.buffer.length + o ≤ k) : Stops spec (.instantOffset o)
  | integer (long : spec.isWritten = false) : Stops spec .unwritable
  | name {name : String} (named : name ∈ spec.names) (half : Text.hasHalves name = true) : Stops spec .halfInName

inductive Faults (spec : Spec) : Fault → Prop where
  | reported (e : Error) : Faults spec (.reported e)
  | endless : Faults spec .endless
  | stops {f : Fault} (h : spec.Stops f) : Faults spec f

variable {spec : Spec} {registry : Registry}

theorem written_node {e : Expr} (h : e ∈ spec.nodes) : e.isWritten = true ∨ spec.Faults .unwritable := by
  cases hw : spec.isWritten with
  | false => exact .inr (.stops (.integer hw))
  | true => exact .inl (List.all_eq_true.1 (Bool.and_eq_true_iff.1 hw).2 e h)

theorem written_buffer {st : Stream} (h : st ∈ spec.streams) :
    Text.isWritable st.buffer.length = true ∨ spec.Faults .unwritable := by
  cases hw : spec.isWritten with
  | false => exact .inr (.stops (.integer hw))
  | true => exact .inl (List.all_eq_true.1 (Bool.and_eq_true_iff.1 hw).1 st h)

theorem halts_draw {t : StreamType} {hint : String} (hk : t.isKnown = true)
    (h : (∀ name ∈ spec.names, Text.Avoids Text.isHalf name) → Supply.Avoids Text.isHalf t hint) :
    Halts spec.Faults (Supply.draw t hint) := by
  by_cases hn : ∀ name ∈ spec.names, Text.hasHalves name = false
  · intro s
    obtain ⟨v, s', hv⟩ := Supply.exists_draw hk (h fun name hname => Text.avoids_isHalf.2 (hn name hname)) s
    rw [hv]
    trivial
  · push Not at hn
    obtain ⟨name, hname, hh⟩ := hn
    exact Supply.halts_draw (.inl hk) (.stops (.name hname (Bool.not_eq_false _ ▸ hh))) hint

end Spec

namespace Encoding

variable {spec : Spec} {registry : Registry}

structure Occurs (spec : Spec) (e : Expr) : Prop where
  nodes : ∀ n ∈ e.nodes, n ∈ spec.nodes
  names : (∀ name ∈ spec.names, Text.Avoids Text.isHalf name) → e.Avoids Text.isHalf
  wellFormed : e.WellFormed

theorem occurs_expr {e : Expr} (he : e ∈ spec.exprs) (hw : e.WellFormed) : Occurs spec e where
  nodes _ hn := List.mem_flatMap.2 ⟨e, he, hn⟩
  names ha := Spec.avoids_expr ha he
  wellFormed := hw

namespace Occurs

variable {t : StreamType}

theorem mem {e : Expr} (h : Occurs spec e) : e ∈ spec.nodes :=
  h.nodes e e.mem_nodes_self

theorem arg {op : UnaryOp} {arg : Expr} {field : Datum} (h : Occurs spec (.unary t op arg field)) :
    Occurs spec arg where
  nodes n hn := h.nodes n (List.mem_append_right _ hn)
  names ha := (h.names ha).arg
  wellFormed := by cases h.wellFormed; assumption

theorem left {op : BinaryOp} {left right : Expr} (h : Occurs spec (.binary t op left right)) : Occurs spec left where
  nodes n hn := h.nodes n (List.mem_append_left _ (List.mem_append_right _ hn))
  names ha := (h.names ha).left
  wellFormed := by cases h.wellFormed; assumption

theorem right {op : BinaryOp} {left right : Expr} (h : Occurs spec (.binary t op left right)) : Occurs spec right where
  nodes n hn := h.nodes n (List.mem_append_right _ hn)
  names ha := (h.names ha).right
  wellFormed := by cases h.wellFormed; assumption

theorem first {op : TernaryOp} {first second third : Expr} (h : Occurs spec (.ternary t op first second third)) :
    Occurs spec first where
  nodes n hn := h.nodes n (List.mem_append_left _ (List.mem_append_left _ (List.mem_append_right _ hn)))
  names ha := (h.names ha).first
  wellFormed := by cases h.wellFormed; assumption

theorem second {op : TernaryOp} {first second third : Expr} (h : Occurs spec (.ternary t op first second third)) :
    Occurs spec second where
  nodes n hn := h.nodes n (List.mem_append_left _ (List.mem_append_right _ hn))
  names ha := (h.names ha).second
  wellFormed := by cases h.wellFormed; assumption

theorem third {op : TernaryOp} {first second third : Expr} (h : Occurs spec (.ternary t op first second third)) :
    Occurs spec third where
  nodes n hn := h.nodes n (List.mem_append_right _ hn)
  names ha := (h.names ha).third
  wellFormed := by cases h.wellFormed; assumption

theorem halts_checked {e : Expr} (h : Occurs spec e) (v : SymValue) : Halts spec.Faults (checked e v) :=
  Encoding.halts_checked .reported (.inl h.wellFormed.isKnown) (Spec.written_node h.mem) v

end Occurs

structure Reached (spec : Spec) (o : Int) : Prop where
  future : 0 < o → spec.Faults (.instantOffset o)
  written : o ≤ 0 → Text.isWritable o = true ∨ spec.Faults .unwritable

theorem inductive_stops (hr : Registry.ofStreams spec.streams = .ok registry) (hw : spec.WellFormed) :
    Inductive registry (fun _ => True)
      (fun e o m => Occurs spec e → Reached spec o → Halts spec.Faults m)
      (fun st total m => st ∈ spec.streams → 0 ≤ total → (∃ t k, .drop t k st.id ∈ spec.nodes ∧ total ≤ k) →
        Halts spec.Faults m) where
  future e o ho _ hreach := halts_throw (hreach.future ho)
  const t d o hocc _ := by
    have hwritten := Spec.written_node hocc.mem
    cases hocc.wellFormed with
    | const known =>
      have ht := hwritten.imp_left fun h => (Bool.and_eq_true_iff.1 h).1
      have hd := hwritten.imp_left fun h => (Bool.and_eq_true_iff.1 h).2
      exact halts_lift (Constant.meets_encode (fun _ _ => .reported _) (.inl known) ht hd)
  past t k id o ho hk hocc hreach := by
    have hid := (Spec.written_node hocc.mem).imp_left fun h => (Bool.and_eq_true_iff.1 h).2
    cases hocc.wellFormed with
    | drop known nonneg =>
      have ho' := (hreach.written ho).imp_left fun h => Text.isWritable_of_le (m := o + k) h (by omega)
      refine halts_bind (halts_past .reported (.inl hk) hid ho' fun st hst => ?_) hocc.halts_checked
      obtain ⟨hmem, _⟩ := Registry.find?_ofStreams hr hst
      exact Spec.halts_draw (hw.stream st hmem).1 fun ha =>
        Supply.avoids_pastHint Text.isHalf_unprinted id _ (Spec.avoids_stream ha hmem).1
  present t k id o m ho hk _ hm hocc hreach := by
    have hid := (Spec.written_node hocc.mem).imp_left fun h => (Bool.and_eq_true_iff.1 h).2
    refine halts_bind_lift (Registry.yields_get .reported hid) fun st hst => ?_
    obtain ⟨hmem, rfl⟩ := Registry.find?_ofStreams hr hst
    exact halts_bind (hm st hst hmem hk ⟨t, k, hocc.mem, by omega⟩) hocc.halts_checked
  input t name o ho hocc hreach := by
    cases hocc.wellFormed with
    | input known =>
      refine halts_bind (halts_input (.inl ho) (hreach.written ho) ?_) hocc.halts_checked
      exact Spec.halts_draw known fun ha =>
        Supply.avoids_inputHint Text.isHalf_unprinted o (hocc.names ha).inputName (hocc.names ha).inputType
  unary t op arg field o m ho _ hm hocc hreach := by
    have hwritten := Spec.written_node hocc.mem
    have ht := StreamType.shown (hwritten.imp_left fun h => (Bool.and_eq_true_iff.1 h).1)
    have ha := StreamType.shown (hwritten.imp_left fun h => (Bool.and_eq_true_iff.1 h).2)
    refine halts_bind (hm hocc.arg hreach) fun x => ?_
    cases hocc.wellFormed with
    | unary known named operand =>
      refine halts_bind_lift (meets_positionTaken .reported (.inl rfl) ha) fun position _ => ?_
      exact halts_bind_lift (Operator.meets_unary .reported (.inl named) x ht _) fun v _ => hocc.halts_checked v
  binary t op left right o m n ho _ _ hm hn hocc hreach := by
    refine halts_bind (hm hocc.left hreach) fun x => halts_bind (hn hocc.right hreach) fun y => ?_
    cases hocc.wellFormed with
    | binary known named first second =>
      refine halts_bind (halts_binary .reported (.inl named) x y ?_) hocc.halts_checked
      rintro rfl
      exact Spec.halts_draw known fun ha => Supply.avoids_outsideHint Text.isHalf_unprinted (hocc.names ha).element
  ternary t op first second third o l m n ho _ _ _ hl hm hn hocc hreach := by
    refine halts_bind (hl hocc.first hreach) fun x => halts_bind (hm hocc.second hreach) fun y =>
      halts_bind (hn hocc.third hreach) fun z => ?_
    cases hocc.wellFormed with
    | mux known hf hs ht =>
      exact halts_bind_lift (Operator.meets_ternary .reported (.inl rfl) x y z) fun v _ => hocc.halts_checked v
  refused e construct details o he _ _ := halts_throw (.reported _)
  exhausted _ _ _ _ _ := halts_throw .endless
  repeated _ _ _ _ _ := halts_bind (fun _ => trivial) fun _ => halts_throw .endless
  unrolled st total m _ hm hst htotal hdrop := by
    obtain ⟨t, k, hnode, hk⟩ := hdrop
    refine halts_bind (fun _ => trivial) fun _ => hm (occurs_expr ?_ (hw.stream st hst).2) ⟨fun ho => ?_, fun ho => ?_⟩
    · exact List.mem_append_left _ (List.mem_map_of_mem hst)
    · exact .stops (.ahead hnode hst ho (by omega))
    · exact (Spec.written_buffer hst).imp_left fun h => Text.isWritable_of_le h (by omega)

theorem halts_encodeProperty (hr : Registry.ofStreams spec.streams = .ok registry) (hw : spec.WellFormed)
    {p : Property} (hp : p ∈ spec.properties) : Halts spec.Faults (encodeProperty registry p.expr) := by
  have hocc := occurs_expr (List.mem_append_right _ (List.mem_map_of_mem hp)) (hw.property p hp)
  have hreach : Reached spec 0 := ⟨by omega, fun _ => .inl (isWritable_digit (by decide))⟩
  refine halts_bind ((inductive_stops hr hw).encode (.trivially registry _) p.expr 0 hocc hreach) fun v => ?_
  split
  · exact halts_pure _
  · exact halts_throw (.reported _)

end Encoding

end OneStep
