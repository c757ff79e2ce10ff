import OneStep.Proofs.Typing

namespace OneStep

namespace Text

def isHalf (c : Char) : Bool :=
  (half? c).isSome

theorem isHalf_unprinted : Unprinted isHalf := by
  intro c hc
  simp only [isPrinted, Bool.and_eq_true, decide_eq_true_eq] at hc
  have hz : c.toNat - halfShift = 0 := by
    simp only [halfShift]
    omega
  simp [isHalf, half?, hz, isHalfCode]

theorem avoids_isHalf {s : String} : Avoids isHalf s ↔ hasHalves s = false := by
  simp only [Avoids, hasHalves, List.any_eq_false, isHalf]
  exact forall₂_congr fun c _ => Bool.eq_false_iff

theorem isWritable_of_le {m n : Int} (hn : isWritable n = true) (h : m.natAbs ≤ n.natAbs) : isWritable m = true := by
  unfold isWritable at *
  simp only [decide_eq_true_eq] at *
  exact Nat.lt_of_le_of_lt h hn

end Text

theorem Supply.exists_draw {t : StreamType} {hint : String} (hk : t.isKnown = true) (h : Avoids Text.isHalf t hint)
    (s : Supply) : ∃ v s', (draw t hint).run s = (.ok v, s') := by
  refine Inductive.draw
    (P := fun t hint m => t.isKnown = true → Avoids Text.isHalf t hint → ∀ s, ∃ v s', m.run s = (.ok v, s'))
    (Q := fun parts m => (∀ p ∈ parts, p.1.isKnown = true ∧ Avoids Text.isHalf p.1 p.2) →
      ∀ s, ∃ vs s', m.run s = (.ok vs, s')) ⟨?_, ?_, ?_, ?_, ?_⟩ t hint hk h s
  · intro t hint ha hs hk h s
    have ht : t.isScalar = true := by
      cases t with
      | array length element => exact absurd rfl (ha length element)
      | struct name fields => exact absurd rfl (hs name fields)
      | _ => exact hk
    obtain ⟨k, rfl⟩ := StreamType.isScalar_iff.1 ht
    have hh := Text.avoids_isHalf.1 (avoids_hintText Text.isHalf_unprinted h.hint)
    exact ⟨_, _, run_drawScalar_eq_ok_iff.2 ⟨k, rfl, hh, rfl, rfl⟩⟩
  · exact fun _ s => ⟨[], s, rfl⟩
  · intro t hint parts m n hm hn hp s
    obtain ⟨v, s₁, hv⟩ := hm (hp _ (List.mem_cons_self ..)).1 (hp _ (List.mem_cons_self ..)).2 s
    obtain ⟨vs, s₂, hvs⟩ := hn (fun p h => hp p (List.mem_cons_of_mem _ h)) s₁
    exact ⟨v :: vs, s₂, Outcome.run_bind_eq_ok_iff.2 ⟨v, s₁, hv, Outcome.run_bind_eq_ok_iff.2 ⟨vs, s₂, hvs, rfl⟩⟩⟩
  · intro length element hint m hm hk h s
    have hp := avoids_itemHints Text.isHalf_unprinted h
    obtain ⟨items, s₁, hi⟩ := hm (fun p hmem => ⟨by obtain ⟨i, _, rfl⟩ := List.mem_map.1 hmem; exact hk, hp p hmem⟩) s
    exact ⟨.array items, s₁, Outcome.run_bind_eq_ok_iff.2 ⟨items, s₁, hi, rfl⟩⟩
  · intro name fields hint m hm hk h s
    have hp := avoids_fieldHints Text.isHalf_unprinted h
    have hf := StreamType.fieldsKnown_iff.1 hk
    obtain ⟨items, s₁, hi⟩ := hm (fun p hmem =>
      ⟨by obtain ⟨f, hfield, rfl⟩ := List.mem_map.1 hmem; exact hf f hfield, hp p hmem⟩) s
    exact ⟨.struct items, s₁, Outcome.run_bind_eq_ok_iff.2 ⟨items, s₁, hi, rfl⟩⟩

def Unknown.Fits (registry : Registry) (inputType : String → StreamType) (v : SymValue) : Unknown → Prop
  | .past id _ => ∃ st, registry.find? id = some st ∧ v.Conforms st.type
  | .input name _ => v.Conforms (inputType name)
  | .outside l => v.Conforms l.element

def Memo.WellTyped (registry : Registry) (inputType : String → StreamType) (m : Memo) : Prop :=
  ∀ u v, m.find? u = some v → u.Fits registry inputType v

structure Registry.Sayable (registry : Registry) : Prop where
  written : ∀ id st, registry.find? id = some st →
    Text.isWritable id = true ∧ Text.isWritable st.buffer.length = true
  named : ∀ id st, registry.find? id = some st →
    (∀ name ∈ st.type.names, Text.Avoids Text.isHalf name) ∧ st.expr.Avoids Text.isHalf

namespace Encoding

variable {registry : Registry} {inputType : String → StreamType}

def Succeeds (registry : Registry) (inputType : String → StreamType) {α : Type} (Q : α → Prop) (m : Encoding α) :
    Prop :=
  Outcome.Keeps (fun s => s.memo.WellTyped registry inputType) (· = .endless) Q m

theorem succeeds_draw {t : StreamType} {hint : String} (hk : t.isKnown = true)
    (h : Supply.Avoids Text.isHalf t hint) : Succeeds registry inputType (Value.Conforms t) (draw t hint) := by
  refine Outcome.keeps_of_ok fun s hs => ?_
  obtain ⟨v, supply, hv⟩ := Supply.exists_draw hk h s.supply
  have hd : (draw t hint).run s = (.ok v, { s with supply }) := run_draw_eq_ok_iff.2 ⟨supply, hv, rfl⟩
  exact ⟨v, _, hd, conforms_of_draw hd, hs⟩

theorem succeeds_memoized {u : Unknown} {make : Encoding SymValue} {after : Encoding Unit}
    (hm : Succeeds registry inputType (u.Fits registry inputType) make)
    (ha : Succeeds registry inputType (fun _ => True) after) :
    Succeeds registry inputType (u.Fits registry inputType) (memoized u make after) :=
  keeps_memoized (A := fun u v => u.Fits registry inputType v) hm ha

theorem succeeds_note (e : Event) : Succeeds registry inputType (fun _ => True) (note e) :=
  Outcome.keeps_of_ok fun _ hs => ⟨(), _, rfl, trivial, hs⟩

theorem succeeds_done : Succeeds registry inputType (fun _ => True) (pure ()) :=
  Outcome.keeps_of_ok fun s hs => ⟨(), s, rfl, trivial, hs⟩

theorem succeeds_checked {e : Expr} {v : SymValue} (h : v.Conforms e.type) :
    Succeeds registry inputType (Value.Conforms e.type) (checked e v) :=
  Outcome.keeps_of_ok fun _ hs => ⟨v, _, run_checked_eq_ok_iff.2 ⟨h.tag_eq, rfl, rfl⟩, h, hs⟩

theorem succeeds_past (hr : registry.WellTyped inputType) (hs : registry.Sayable) {id o : Int} {st : Stream}
    (hst : registry.find? id = some st) (ho : o < 0) (hw : Text.isWritable o = true) :
    Succeeds registry inputType (Value.Conforms st.type) (past registry id o) := by
  have hd : Succeeds registry inputType ((Unknown.past id o).Fits registry inputType) (drawPast registry id o) := by
    refine Outcome.keeps_bind_lift (Registry.get_eq_ok_iff.2 hst) ?_
    refine Outcome.keeps_bind_lift (writeInt_of_isWritable (hs.written id st hst).1) ?_
    refine Outcome.keeps_bind_lift (writeInt_of_isWritable hw) fun s hm => ?_
    have h := succeeds_draw (hr.known id st hst)
      (Supply.avoids_pastHint Text.isHalf_unprinted id o (hs.named id st hst).1) s hm
    exact ⟨h.1, fun v hv => ⟨st, hst, h.2.1 v hv⟩, h.2.2⟩
  rw [past_eq, if_neg (by omega)]
  intro s hm
  obtain ⟨hi, hv, hf⟩ := succeeds_memoized hd (succeeds_note _) s hm
  refine ⟨hi, fun v h => ?_, hf⟩
  obtain ⟨st', hst', ht⟩ := hv v h
  cases hst.symm.trans hst'
  exact ht

theorem succeeds_input {t : StreamType} {name : String} {o : Int} (hk : t.isKnown = true) (ht : t = inputType name)
    (hn : (Expr.input t name).Avoids Text.isHalf) (ho : o ≤ 0) (hw : Text.isWritable o = true) :
    Succeeds registry inputType (Value.Conforms t) (input name t o) := by
  subst ht
  rw [input_eq, if_neg (by omega)]
  refine succeeds_memoized (u := .input name o) (Outcome.keeps_bind_lift (writeInt_of_isWritable hw) ?_) succeeds_done
  exact succeeds_draw hk (Supply.avoids_inputHint Text.isHalf_unprinted o hn.inputName hn.inputType)

theorem succeeds_outside (l : Lookup) (hk : l.element.isKnown = true)
    (hn : ∀ name ∈ l.element.names, Text.Avoids Text.isHalf name) :
    Succeeds registry inputType (Value.Conforms l.element) (outside l) := by
  rw [outside_eq]
  refine succeeds_memoized (u := .outside l) ?_ succeeds_done
  exact succeeds_draw hk (Supply.avoids_outsideHint Text.isHalf_unprinted hn)

theorem succeeds_binary {op : BinaryOp} {l r t : StreamType} {x y : SymValue} (h : op.Admits l r t)
    (hx : x.Conforms l) (hy : y.Conforms r) (hk : t.isKnown = true)
    (hn : op = .index → ∀ name ∈ t.names, Text.Avoids Text.isHalf name) :
    Succeeds registry inputType (Value.Conforms t) (binary op x y t) := by
  by_cases hop : op = .index
  · subst hop
    obtain ⟨⟨length, rfl⟩, hr⟩ := h
    obtain ⟨items, i, hi, hitems⟩ := Operator.indexOperands_typed hx hy hr
    refine Outcome.keeps_bind_lift hi (Outcome.keeps_bind (Q := Value.Conforms t) ?_ fun w hw => ?_)
    · exact succeeds_outside ⟨t, x, .bits i.width, i.term⟩ hk (hn rfl)
    · obtain ⟨v, hv, ht⟩ := Operator.lookupFrom_typed hw hitems 0
      exact Outcome.keeps_lift hv ht
  · obtain ⟨v, hv, ht⟩ := Operator.binary_typed h hx hy hop
    rw [binary_of_ne_index hop]
    exact Outcome.keeps_lift hv ht

theorem succeeds_unary {op : UnaryOp} {arg : Expr} {t : StreamType} {field : Datum} {x : SymValue}
    (h : op.Admits arg.type field t) (hx : x.Conforms arg.type) :
    ∃ position v, positionTaken op arg field = .ok position ∧
      Operator.unary op x t (position.map Int.ofNat) = .ok v ∧ v.Conforms t := by
  cases hf : op.takesField with
  | false =>
    obtain ⟨v, hv, ht⟩ := Operator.unary_typed none h hx hf
    exact ⟨none, v, by rw [positionTaken, hf]; rfl, hv, ht⟩
  | true =>
    cases op <;> simp only [UnaryOp.takesField, Bool.false_eq_true] at hf
    obtain ⟨name, fields, i, ha, hi⟩ := h
    obtain ⟨v, hv, ht⟩ := Operator.getField_typed (ha ▸ hx) hi
    refine ⟨some i, v, ?_, hv, ht⟩
    simp only [positionTaken, UnaryOp.takesField, if_true, fieldPosition, ha, hi]
    rfl

theorem inductive_succeeds (hr : registry.WellTyped inputType) (hs : registry.Sayable) :
    Inductive registry (fun _ => True)
      (fun e o m => e.WellTyped registry inputType → e.Avoids Text.isHalf → o ≤ 0 → Text.isWritable o = true →
        Succeeds registry inputType (Value.Conforms e.type) m)
      (fun st total m => ∀ id, registry.find? id = some st → 0 ≤ total → total ≤ st.buffer.length →
        Succeeds registry inputType (Value.Conforms st.type) m) where
  future e o ho _ _ ho' _ := by omega
  const t d o ht _ _ _ := by
    cases ht with
    | const known fits =>
      obtain ⟨x, hx⟩ := Option.isSome_iff_exists.1 fits
      obtain ⟨v, hv⟩ := Constant.encode_of_read hx
      exact Outcome.keeps_lift hv (Constant.encode_conforms hv)
  past t k id o ho hk ht hn _ hw := by
    cases ht with
    | drop declared typed nonneg le_length =>
      have hw' : Text.isWritable (o + k) = true := Text.isWritable_of_le hw (by omega)
      exact Outcome.keeps_bind (succeeds_past hr hs declared hk hw') fun v hv => succeeds_checked (typed ▸ hv)
  present t k id o m ho hk _ hm ht hn _ hw := by
    cases ht with
    | drop declared typed nonneg le_length =>
      refine Outcome.keeps_bind_lift (Registry.get_eq_ok_iff.2 declared) ?_
      exact Outcome.keeps_bind (hm _ declared id declared hk (by omega)) fun v hv => succeeds_checked (typed ▸ hv)
  input t name o ho ht hn _ hw := by
    cases ht with
    | input known typed =>
      exact Outcome.keeps_bind (succeeds_input known typed hn ho hw) fun v hv => succeeds_checked hv
  unary t op arg field o m ho _ hm ht hn _ hw := by
    cases ht with
    | unary operand admits =>
      refine Outcome.keeps_bind (hm operand hn.arg ho hw) fun x hx => ?_
      obtain ⟨position, v, hp, hv, hc⟩ := succeeds_unary admits hx
      exact Outcome.keeps_bind_lift hp (Outcome.keeps_bind_lift hv (succeeds_checked hc))
  binary t op left right o m n ho _ _ hm hn' ht hn _ hw := by
    cases ht with
    | binary first second admits =>
      refine Outcome.keeps_bind (hm first hn.left ho hw) fun x hx => ?_
      refine Outcome.keeps_bind (hn' second hn.right ho hw) fun y hy => ?_
      have hk := admits.isKnown (first.isKnown hr)
      refine Outcome.keeps_bind (succeeds_binary admits hx hy hk ?_) fun v hv => succeeds_checked hv
      rintro rfl
      exact hn.element
  ternary t op first second third o l m n ho _ _ _ hl hm hn' ht hn _ hw := by
    cases ht with
    | mux tf ts tt condition typed typed' =>
      refine Outcome.keeps_bind (hl tf hn.first ho hw) fun x hx => ?_
      refine Outcome.keeps_bind (hm ts hn.second ho hw) fun y hy => ?_
      refine Outcome.keeps_bind (hn' tt hn.third ho hw) fun z hz => ?_
      obtain ⟨v, hv, hc⟩ := Operator.mux_typed (condition ▸ hx) (typed ▸ hy) (typed' ▸ hz)
      exact Outcome.keeps_bind_lift hv (succeeds_checked hc)
  refused e construct details o he ht := by cases ht <;> cases he
  exhausted _ _ _ _ _ _ := Outcome.keeps_throw rfl
  repeated _ _ _ _ _ _ := Outcome.keeps_bind (succeeds_note _) fun _ _ => Outcome.keeps_throw rfl
  unrolled st total m _ hm id hst hz hl := by
    refine Outcome.keeps_bind (succeeds_note _) fun _ _ => ?_
    obtain ⟨ht, htype⟩ := hr.typed id st hst
    have hw := Text.isWritable_of_le (m := total - st.buffer.length) (hs.written id st hst).2 (by omega)
    exact htype ▸ hm ht (hs.named id st hst).2 (by omega) hw

theorem encode_succeeds (hr : registry.WellTyped inputType) (hs : registry.Sayable) {e : Expr}
    (ht : e.WellTyped registry inputType) (hn : e.Avoids Text.isHalf) {o : Int} (ho : o ≤ 0)
    (hw : Text.isWritable o = true) : Succeeds registry inputType (Value.Conforms e.type) (encode registry e o) :=
  (inductive_succeeds hr hs).encode (.trivially registry _) e o ht hn ho hw

theorem encodeProperty_succeeds (hr : registry.WellTyped inputType) (hs : registry.Sayable) {e : Expr}
    (ht : e.WellTyped registry inputType) (hn : e.Avoids Text.isHalf) (hb : e.type = .bool) :
    Succeeds registry inputType (fun _ => True) (encodeProperty registry e) := by
  have hw : Text.isWritable 0 = true := isWritable_digit (by decide)
  refine Outcome.keeps_bind (encode_succeeds hr hs ht hn (Int.le_refl 0) hw) fun v hv => ?_
  obtain ⟨t, rfl⟩ := Value.conforms_ofScalar (s := .bool).1 (hb ▸ hv)
  exact Outcome.keeps_of_ok fun s hs => ⟨t, s, rfl, trivial, hs⟩

theorem Succeeds.run {α : Type} {Q : α → Prop} {m : Encoding α} (h : Succeeds registry inputType Q m) {s : Encoder}
    (hs : s.memo.WellTyped registry inputType) :
    ∃ s', s'.memo.WellTyped registry inputType ∧
      ((∃ a, m.run s = (.ok a, s') ∧ Q a) ∨ m.run s = (.error .endless, s')) := by
  obtain ⟨hi, hq, hf⟩ := h s hs
  refine ⟨(m.run s).2, hi, ?_⟩
  rcases hr : m.run s with ⟨f | a, s'⟩
  · rw [hr] at hf
    exact .inr (by rw [hf f rfl])
  · rw [hr] at hq
    exact .inl ⟨a, rfl, hq a rfl⟩

end Encoding

theorem well_typed_encoding_succeeds (spec : Spec) (registry : Registry)
    (hr : Registry.ofStreams spec.streams = .ok registry) (inputType : String → StreamType)
    (ht : ∀ st ∈ spec.streams,
      st.type.isKnown = true ∧ st.expr.WellTyped registry inputType ∧ st.expr.type = st.type)
    (hw : ∀ st ∈ spec.streams, Text.isWritable st.id = true ∧ Text.isWritable st.buffer.length = true)
    (hn : ∀ name ∈ spec.names, Text.hasHalves name = false)
    (s : Encoder) (hs : s.memo.WellTyped registry inputType) :
    (∀ p ∈ spec.properties, p.expr.WellTyped registry inputType → p.expr.type = .bool →
      ∃ s', s'.memo.WellTyped registry inputType ∧
        ((∃ t, (Encoding.encodeProperty registry p.expr).run s = (.ok t, s')) ∨
          (Encoding.encodeProperty registry p.expr).run s = (.error .endless, s'))) ∧
    ∀ e, e.WellTyped registry inputType → (∀ name ∈ e.names, Text.hasHalves name = false) →
      ∀ o ≤ 0, Text.isWritable o = true → ∃ s', s'.memo.WellTyped registry inputType ∧
        ((∃ v, (Encoding.encode registry e o).run s = (.ok v, s') ∧ v.Conforms e.type ∧
            (v.tag = .emptyArray ↔ ∃ element, e.type = .array 0 element)) ∨
          (Encoding.encode registry e o).run s = (.error .endless, s')) := by
  have hreg : registry.WellTyped inputType :=
    ⟨fun id st h => (ht st (Registry.find?_ofStreams hr h).1).1,
      fun id st h => (ht st (Registry.find?_ofStreams hr h).1).2⟩
  have hnames : ∀ name ∈ spec.names, Text.Avoids Text.isHalf name := fun name h => Text.avoids_isHalf.2 (hn name h)
  have hsay : registry.Sayable := by
    refine ⟨fun id st h => ?_, fun id st h => Spec.avoids_stream hnames (Registry.find?_ofStreams hr h).1⟩
    obtain ⟨hmem, rfl⟩ := Registry.find?_ofStreams hr h
    exact hw st hmem
  refine ⟨fun p hp htp hb => ?_, fun e hte hne o ho hwo => ?_⟩
  · have hnp := Spec.avoids_property hnames hp
    obtain ⟨s', hs', h⟩ := (Encoding.encodeProperty_succeeds hreg hsay htp hnp hb).run hs
    exact ⟨s', hs', h.imp_left fun ⟨t, h, _⟩ => ⟨t, h⟩⟩
  · have hne' : e.Avoids Text.isHalf := fun name hname => Text.avoids_isHalf.2 (hne name hname)
    obtain ⟨s', hs', h⟩ := (Encoding.encode_succeeds hreg hsay hte hne' ho hwo).run hs
    exact ⟨s', hs', h.imp_left fun ⟨v, h, hv⟩ => ⟨v, h, hv, hv.emptyArray_iff⟩⟩

def feedback (id : Int) : Stream :=
  ⟨id, .bool, [.bool true], .drop .bool 0 id⟩

def feedbackSpec (id : Int) : Spec :=
  ⟨[feedback id], [⟨"p", .drop .bool 0 id⟩]⟩

theorem feedback_wellTyped (id : Int) (inputType : String → StreamType) :
    (Expr.drop .bool 0 id).WellTyped ⟨[(id, feedback id)]⟩ inputType := by
  have hst : Table.find? (⟨[(id, feedback id)]⟩ : Registry) id = some (feedback id) := by simp [Table.find?]
  exact .drop hst rfl (Int.le_refl 0) (by simp [feedback])

theorem run_feedback :
    ∃ t s', (Encoding.encodeProperty ⟨[(0, feedback 0)]⟩ (.drop .bool 0 0)).run {} = (.ok t, s') := by
  let registry : Registry := ⟨[(0, feedback 0)]⟩
  let noted : Encoder := { supply := { journal := [.unrolling 0 0 1] } }
  let t : Term .bool := .symbol (.ofHint (Supply.hintText (Encoding.pastHint 0 (-1))) 0) .bool
  have hname : Text.hasHalves (Supply.hintText (Encoding.pastHint 0 (-1))) = false := by decide
  obtain ⟨s₁, h₁⟩ := Encoding.run_past_new (k := .bool) (s := noted) (rfl : registry.find? 0 = some (feedback 0)) rfl
    (by decide) (Encoding.isWritable_digit (by decide)) (Encoding.isWritable_digit (by decide)) hname rfl
  obtain ⟨s₂, h₂, _⟩ := Encoding.exists_checked (e := .drop .bool 0 0) (v := .scalar .bool t) rfl s₁
  obtain ⟨s₃, h₃, _⟩ := Encoding.exists_checked (e := .drop .bool 0 0) (v := .scalar .bool t) rfl s₂
  -- the recurrence is read one step ago, where the stream is an unknown
  have hinner : (Encoding.encodeWith registry (Encoding.unroll registry 2 [(0, 0)]) (-1) (.drop .bool 0 0)).run noted =
      (.ok (.scalar .bool t), s₂) := (Outcome.run_bind_of_ok h₁).trans h₂
  have houter : (Encoding.encode registry (.drop .bool 0 0) 0).run {} = (.ok (.scalar .bool t), s₃) :=
    (Outcome.run_bind_of_ok hinner).trans h₃
  exact ⟨t, s₃, Encoding.run_encodeProperty_eq_ok_iff.2 houter⟩

theorem feedback_encoding_succeeds : ∃ t s', s'.memo.WellTyped ⟨[(0, feedback 0)]⟩ (fun _ => .bool) ∧
    (Encoding.encodeProperty ⟨[(0, feedback 0)]⟩ (.drop .bool 0 0)).run {} = (.ok t, s') := by
  have hw : Text.isWritable 0 = true ∧ Text.isWritable 1 = true :=
    ⟨Encoding.isWritable_digit (by decide), Encoding.isWritable_digit (by decide)⟩
  have ht := feedback_wellTyped 0 fun _ => .bool
  obtain ⟨s', hs, h⟩ := (well_typed_encoding_succeeds (feedbackSpec 0) ⟨[(0, feedback 0)]⟩ rfl (fun _ => .bool)
    (by simpa [feedbackSpec] using ⟨rfl, ht, rfl⟩) (by simpa [feedbackSpec, feedback] using hw) (by decide) {}
    (fun u v h => by cases u <;> cases h)).1 ⟨"p", .drop .bool 0 0⟩ (List.mem_singleton.2 rfl) ht rfl
  obtain ⟨t, s₁, hrun⟩ := run_feedback
  rcases h with ⟨t', h⟩ | h
  · exact ⟨t', s', hs, h⟩
  · cases hrun.symm.trans h

theorem run_past_unwritable {registry : Registry} {id o : Int} {st : Stream} {s : Encoder}
    (hst : registry.find? id = some st) (ho : o < 0) (hi : Text.isWritable id = false)
    (hn : s.memo.find? (.past id o) = none) :
    (Encoding.past registry id o).run s = (.error .unwritable, s.missed) := by
  have hw : writeInt id = .error .unwritable := by
    rw [writeInt, hi]
    rfl
  rw [Encoding.past_eq, if_neg (by omega), Encoding.run_memoized, hn, Encoding.drawPast,
    Registry.get_eq_ok_iff.2 hst, hw]
  rfl

theorem run_feedback_unwritable {id : Int} (hi : Text.isWritable id = false) :
    ∃ s', (Encoding.encodeProperty ⟨[(id, feedback id)]⟩ (.drop .bool 0 id)).run {} = (.error .unwritable, s') := by
  have hst : Table.find? (⟨[(id, feedback id)]⟩ : Registry) id = some (feedback id) := by simp [Table.find?]
  have hp := run_past_unwritable (o := -1) (s := { supply := { journal := [.unrolling id 0 1] } }) hst
    (by decide) hi rfl
  refine ⟨Encoder.missed { supply := { journal := [.unrolling id 0 1] } }, Outcome.run_bind_of_error ?_⟩
  rw [Encoding.encode, Encoding.encodeAt_eq, if_neg (by decide), Encoding.encodeWith, if_neg (by decide),
    Registry.get_eq_ok_iff.2 hst]
  refine (Outcome.run_bind_of_ok (a := feedback id) rfl).trans (Outcome.run_bind_of_error ?_)
  rw [Encoding.unroll_succ_eq]
  exact (Outcome.run_bind_of_ok (a := ()) rfl).trans (Outcome.run_bind_of_error hp)

def longId : Int :=
  16 ^ 3600 - 1

theorem long_id_stops_well_typed_encoding :
    Registry.ofStreams (feedbackSpec longId).streams = .ok ⟨[(longId, feedback longId)]⟩ ∧
    (∀ st ∈ (feedbackSpec longId).streams, st.type.isKnown = true ∧
      st.expr.WellTyped ⟨[(longId, feedback longId)]⟩ (fun _ => .bool) ∧ st.expr.type = st.type) ∧
    (∀ p ∈ (feedbackSpec longId).properties,
      p.expr.WellTyped ⟨[(longId, feedback longId)]⟩ (fun _ => .bool) ∧ p.expr.type = .bool ∧
      ∃ s', (Encoding.encodeProperty ⟨[(longId, feedback longId)]⟩ p.expr).run {} = (.error .unwritable, s')) := by
  have ht := feedback_wellTyped longId fun _ => .bool
  refine ⟨rfl, fun st hst => ?_, fun p hp => ?_⟩
  · obtain rfl := List.mem_singleton.1 hst
    exact ⟨rfl, ht, rfl⟩
  · obtain rfl := List.mem_singleton.1 hp
    exact ⟨ht, rfl, run_feedback_unwritable Encoding.not_isWritable_hex⟩

end OneStep
