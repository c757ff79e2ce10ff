import OneStep.Proofs.Decoding
import OneStep.Proofs.Locality

namespace OneStep

mutual

def StreamType.document : StreamType → Datum
  | .array length element => .object [("array", .int length), ("of", element.document)]
  | .struct name fields => .object [("struct", .text name), ("fields", .list (StreamType.fieldDocuments fields))]
  | t => .text t.text

def StreamType.fieldDocuments : List (String × StreamType) → List Datum
  | [] => []
  | (name, t) :: fields => .list [.text name, t.document] :: StreamType.fieldDocuments fields

end

namespace Datum

mutual

def document : Datum → Datum
  | .tuple items => .list (documents items)
  | .map entries => .map (entryDocuments entries)
  | d => d

def documents : List Datum → List Datum
  | [] => []
  | d :: items => d.document :: documents items

def entryDocuments : List (Datum × Datum) → List (Datum × Datum)
  | [] => []
  | (k, v) :: entries => (k, v.document) :: entryDocuments entries

end

def isScalar : Datum → Bool
  | .list _ | .tuple _ | .set _ | .map _ | .loop .. | .again _ => false
  | _ => true

mutual

def isCanonical : StreamType → Datum → Bool
  | .array _ element, .tuple items => items.all fun d => isCanonical element d
  | .struct _ fields, .map entries => decide (fields.map (·.1)).Nodup && fieldsCanonical fields entries
  | .array _ _, _ => false
  | .struct _ _, _ => false
  | .float _, .text _ => false
  | _, d => d.isScalar

def fieldsCanonical : List (String × StreamType) → List (Datum × Datum) → Bool
  | [], [] => true
  | (name, t) :: fields, (.text key, d) :: entries => key == name && isCanonical t d && fieldsCanonical fields entries
  | _, _ => false

end

end Datum

def Expr.document : Expr → Datum
  | .const t value => .object [("const", value.document), ("type", t.document)]
  | .drop t k id => .object [("drop", .int k), ("stream", .int id), ("type", t.document)]
  | .input t name => .object [("extern", .text name), ("type", t.document)]
  | .unary t op arg field => .object [
    ("op", .text op.name), ("args", .list [arg.document]), ("type", t.document), ("field", field)]
  | .binary t op left right => .object [
    ("op", .text op.name), ("args", .list [left.document, right.document]), ("type", t.document)]
  | .ternary t op first second third => .object [
    ("op", .text op.name), ("args", .list [first.document, second.document, third.document]), ("type", t.document)]
  | .letIn t name _ bound body => .object [
    ("local", .text name), ("bound", bound.document), ("body", body.document), ("type", t.document)]
  | .var t name => .object [("var", .text name), ("type", t.document)]
  | .label _ text body => .object [("label", .text text), ("expr", body.document)]
  | .bare t => t.document

def Stream.document (st : Stream) : Datum :=
  .object [("id", .int st.id), ("type", st.type.document), ("buffer", .list (Datum.documents st.buffer)),
    ("expr", st.expr.document)]

def Property.document (p : Property) : Datum :=
  .object [("name", .text p.name), ("expr", p.expr.document)]

def Spec.document (spec : Spec) : Datum :=
  .object [("streams", .list (spec.streams.map Stream.document)),
    ("properties", .list (spec.properties.map Property.document))]

def Expr.constants : Expr → List (StreamType × Datum) :=
  gather fun
    | .const t value => [(t, value)]
    | _ => []

structure Spec.Canonical (spec : Spec) : Prop where
  buffer : ∀ st ∈ spec.streams, ∀ d ∈ st.buffer, d.isCanonical st.type = true
  constant : ∀ e ∈ spec.exprs, ∀ c ∈ e.constants, c.2.isCanonical c.1 = true

namespace Spec.Decode

open Outcome

theorem lookup_named {t : StreamType} (h : t.isScalar = true) : StreamType.named.lookup t.text = some t := by
  obtain ⟨k, rfl⟩ := StreamType.isScalar_iff.1 h
  cases k with
  | bool => rfl
  | int w => cases w <;> rfl
  | word w => cases w <;> rfl
  | float p => cases p <;> rfl

theorem asText_text (s : String) : (Datum.text s).asText = .ok s :=
  rfl

theorem fields_document {turn : String → Datum → Except Fault StreamType} {path : String}
    {fields : List (String × StreamType)}
    (h : ∀ f ∈ fields, ∀ whole path, typeIn turn whole path f.2.document = .ok f.2) (i : Nat) :
    Decode.fields turn path i (StreamType.fieldDocuments fields) = .ok fields := by
  induction fields generalizing i with
  | nil => rfl
  | cons f fields ih =>
    obtain ⟨hf, h⟩ := List.forall_mem_cons.1 h
    rw [StreamType.fieldDocuments, Decode.fields, asText_text, hf, ih h]
    rfl

theorem typeIn_document {turn : String → Datum → Except Fault StreamType} {whole : Datum} {path : String}
    {t : StreamType} (h : t.isKnown = true) : typeIn turn whole path t.document = .ok t := by
  induction t using StreamType.shape_induction generalizing whole path with
  | array length item ih =>
    have hl : ¬ (length : Int) < 0 := by omega
    simp only [StreamType.document, Datum.object, List.map, typeIn, Datum.find?, if_true, hl, if_false, element_eq]
    exact bind_eq_ok_iff.2 ⟨item, ih h, rfl⟩
  | struct name fields ih =>
    have hf := StreamType.fieldsKnown_iff.1 h
    have hr : recordFields turn path
        [(.text "struct", .text name), (.text "fields", .list (StreamType.fieldDocuments fields))] = .ok fields := by
      rw [recordFields_eq]
      exact fields_document (fun f hmem whole path => ih f hmem (hf f hmem)) 0
    exact bind_eq_ok_iff.2 ⟨fields, hr, rfl⟩
  | unknown => cases h
  | bool => rfl
  | int bits => simp only [StreamType.document, typeIn, lookup_named h]
  | word bits => simp only [StreamType.document, typeIn, lookup_named h]
  | float bits => simp only [StreamType.document, typeIn, lookup_named h]

theorem type_document {path : String} {t : StreamType} (h : t.isKnown = true) : type path t.document = .ok t := by
  have hu : t.document.unroll = t.document := by cases t <;> rfl
  rw [type, typeAt, hu]
  exact typeIn_document h

theorem document_of_isScalar {d : Datum} (h : d.isScalar = true) : d.document = d := by
  cases d with
  | tuple items => cases h
  | map entries => cases h
  | _ => rfl

theorem documents_eq (items : List Datum) : Datum.documents items = items.map Datum.document := by
  induction items with
  | nil => rfl
  | cons d items ih => rw [Datum.documents, ih, List.map_cons]

theorem find?_entryDocuments {entries : List (Datum × Datum)} (hn : (entries.map (·.1)).Nodup) {key : String}
    {d : Datum} (h : (.text key, d) ∈ entries) : Datum.find? (Datum.entryDocuments entries) key = some d.document := by
  induction entries with
  | nil => cases h
  | cons e entries ih =>
    obtain ⟨k, v⟩ := e
    obtain ⟨hk, hn'⟩ := List.nodup_cons.1 hn
    rw [Datum.entryDocuments]
    rcases List.mem_cons.1 h with h' | h'
    · cases h'
      rw [Datum.find?, if_pos rfl]
    · have hrest := ih hn' h'
      have hne : k ≠ .text key := fun he => hk (List.mem_map.2 ⟨_, h', he.symm⟩)
      cases k with
      | text s =>
        rw [Datum.find?, if_neg fun hs => hne (congrArg _ hs)]
        exact hrest
      | _ => exact hrest

theorem sameKey_text {k : Datum} {s : String} (h : k.sameKey (.text s) = true) : k = .text s := by
  unfold Datum.sameKey at h
  split at h
  case h_2 heq => exact (congrArg _ (beq_iff_eq.1 h)).trans heq.symm
  case h_6 =>
    split at h
    · rename_i hp
      exact absurd hp.symm (Option.some_ne_none _)
    · exact absurd (Bool.and_eq_true_iff.1 h).2 Bool.false_ne_true
  all_goals contradiction

theorem insert_new {entries : List (Datum × Datum)} {key : String} (d : Datum) (h : .text key ∉ entries.map (·.1)) :
    Datum.insert entries (.text key) d = entries ++ [(.text key, d)] := by
  induction entries with
  | nil => rfl
  | cons e entries ih =>
    obtain ⟨he, h⟩ := not_or.1 (mt List.mem_cons.2 h)
    have hk : e.1.sameKey (.text key) = false := Bool.eq_false_iff.2 fun hk => he (sameKey_text hk).symm
    rw [Datum.insert, hk, ih h]
    rfl

theorem fieldsCanonical_cons {f : String × StreamType} {fields : List (String × StreamType)}
    {entries : List (Datum × Datum)} (h : Datum.fieldsCanonical (f :: fields) entries = true) :
    ∃ d rest, entries = (.text f.1, d) :: rest ∧ d.isCanonical f.2 = true ∧
      Datum.fieldsCanonical fields rest = true := by
  cases entries with
  | nil => cases h
  | cons e entries =>
    obtain ⟨k, d⟩ := e
    cases k with
    | text key =>
      simp only [Datum.fieldsCanonical, Bool.and_eq_true, beq_iff_eq] at h
      exact ⟨d, entries, by rw [h.1.1], h.1.2, h.2⟩
    | _ => cases h

theorem keys_of_fieldsCanonical {fields : List (String × StreamType)} {entries : List (Datum × Datum)}
    (h : Datum.fieldsCanonical fields entries = true) : entries.map (·.1) = fields.map (fun f => Datum.text f.1) := by
  induction fields generalizing entries with
  | nil =>
    cases entries with
    | nil => rfl
    | cons e entries => cases h
  | cons f fields ih =>
    obtain ⟨d, rest, rfl, _, hc⟩ := fieldsCanonical_cons h
    rw [List.map_cons, List.map_cons, ih hc]

theorem fieldLiterals_document {fields : List (String × StreamType)} {entries whole done : List (Datum × Datum)}
    (hc : Datum.fieldsCanonical fields entries = true)
    (hl : ∀ f ∈ fields, ∀ d : Datum, d.isCanonical f.2 = true → literal f.2 d.document = .ok d)
    (hw : ∀ key d, (.text key, d) ∈ entries → Datum.find? whole key = some d.document)
    (hn : ((done ++ entries).map (·.1)).Nodup) : fieldLiterals fields whole done = .ok (done ++ entries) := by
  induction fields generalizing entries done with
  | nil =>
    cases entries with
    | nil => rw [fieldLiterals, List.append_nil]
    | cons e entries => cases hc
  | cons f fields ih =>
    obtain ⟨d, rest, rfl, hd, hc⟩ := fieldsCanonical_cons hc
    obtain ⟨ht, hl⟩ := List.forall_mem_cons.1 hl
    have hnew : Datum.text f.1 ∉ done.map (·.1) := by
      rw [List.map_append, List.map_cons] at hn
      exact fun hmem => (List.nodup_append.1 hn).2.2 _ hmem _ (List.mem_cons_self ..) rfl
    rw [fieldLiterals, hw f.1 d (List.mem_cons_self ..)]
    refine bind_eq_ok_iff.2 ⟨d, ht d hd, ?_⟩
    rw [insert_new d hnew, ih hc hl (fun k x hx => hw k x (List.mem_cons_of_mem _ hx)) (by simpa using hn),
      List.append_assoc]
    rfl

theorem literal_document {t : StreamType} {d : Datum} (h : d.isCanonical t = true) : literal t d.document = .ok d := by
  induction t using StreamType.shape_induction generalizing d with
  | array length element ih =>
    cases d with
    | tuple items =>
      rw [Datum.isCanonical, List.all_eq_true] at h
      rw [Datum.document, documents_eq, literal]
      refine bind_eq_ok_iff.2 ⟨items, mapM_eq_ok_iff.2 ?_, rfl⟩
      rw [List.forall₂_map_left_iff]
      exact List.forall₂_same.2 fun d hd => ih (h d hd)
    | _ => cases h
  | struct name fields ih =>
    cases d with
    | map entries =>
      rw [Datum.isCanonical, Bool.and_eq_true, decide_eq_true_eq] at h
      obtain ⟨hn, hc⟩ := h
      have hkeys : (entries.map (·.1)).Nodup := by
        rw [keys_of_fieldsCanonical hc, ← Function.comp_def, ← List.map_map]
        exact hn.map fun a b hab => Datum.text.inj hab
      rw [Datum.document, literal]
      exact bind_eq_ok_iff.2 ⟨entries, fieldLiterals_document hc (fun f hf d => ih f hf)
        (fun key d hd => find?_entryDocuments hkeys hd) hkeys, rfl⟩
    | _ => cases h
  | float bits =>
    cases d with
    | text s => cases h
    | _ => exact congrArg Except.ok (document_of_isScalar h)
  | _ => exact congrArg Except.ok (document_of_isScalar h)

theorem UnaryOp.ofName_name {op : UnaryOp} (h : op ∈ UnaryOp.known) : UnaryOp.ofName op.name = op := by
  cases op with
  | call f => cases f <;> rfl
  | unknown d => simp [UnaryOp.known] at h
  | _ => rfl

theorem BinaryOp.ofName_name {op : BinaryOp} (h : op ∈ BinaryOp.known) : BinaryOp.ofName op.name = op := by
  cases op with
  | arith op => cases op <;> rfl
  | compare op => cases op <;> rfl
  | bitwise op => cases op <;> rfl
  | call f => cases f <;> rfl
  | unknown d => simp [BinaryOp.known] at h
  | _ => rfl

section

variable {types : List (Int × StreamType)} {turn : String → Datum → Except Fault Expr} {whole : Datum} {path : String}
  {entries : List (Datum × Datum)} {t : StreamType}

theorem declaredType_document (hf : Datum.find? entries "type" = some t.document) (h : t.isKnown = true) :
    declaredType entries path = .ok (some t) := by
  rw [declaredType, hf]
  exact bind_eq_ok_iff.2 ⟨t, type_document h, rfl⟩

theorem requiredType_document (hf : Datum.find? entries "type" = some t.document) (h : t.isKnown = true) :
    requiredType entries path = .ok t :=
  bind_eq_ok_iff.2 ⟨some t, declaredType_document hf h, rfl⟩

theorem unary_document {op : UnaryOp} (hop : op ∈ UnaryOp.known) {arg : Expr} {field : String}
    (ht : declaredType entries path = .ok (some t)) (hf : Datum.find? entries "field" = some (.text field)) :
    operation (.text op.name) [arg] entries path = .ok (.unary t op arg (.text field)) := by
  have hn := UnaryOp.ofName_name hop
  have hfield : fieldName entries = .ok field := by
    rw [fieldName, hf]
    rfl
  cases op with
  | unknown d => simp [UnaryOp.known] at hop
  | _ => simp only [operation, isLookedUp, Datum.isKey, hn, ht, hfield]; rfl

theorem binary_document {op : BinaryOp} (hop : op ∈ BinaryOp.known) {left right : Expr}
    (ht : declaredType entries path = .ok (some t)) :
    operation (.text op.name) [left, right] entries path = .ok (.binary t op left right) := by
  have hn := BinaryOp.ofName_name hop
  cases op with
  | unknown d => simp [BinaryOp.known] at hop
  | _ => simp only [operation, isLookedUp, Datum.isKey, hn, ht]; rfl

theorem mux_document {first second third : Expr} (ht : declaredType entries path = .ok (some t)) :
    operation (.text "mux") [first, second, third] entries path = .ok (.ternary t .mux first second third) := by
  have hn : TernaryOp.ofName "mux" = .mux := rfl
  simp only [operation, isLookedUp, Datum.isKey, hn, ht]
  rfl

theorem drop_document {k id : Int} (hk : 0 ≤ k) (ht : declaredType entries path = .ok (some t))
    (hs : Datum.find? entries "stream" = some (.int id)) : drop types (.int k) entries path = .ok (.drop t k id) := by
  rw [drop, if_neg (Int.not_lt.2 hk), hs]
  exact bind_eq_ok_iff.2 ⟨some t, ht, rfl⟩

theorem exprs_document {es : List Expr} (h : ∀ e ∈ es, ∀ path, exprIn types turn e.document path e.document = .ok e)
    (i : Nat) : exprs types turn path i (es.map Expr.document) = .ok es := by
  induction es generalizing i with
  | nil => rfl
  | cons e es ih =>
    obtain ⟨he, h⟩ := List.forall_mem_cons.1 h
    rw [List.map_cons, exprs]
    exact bind_eq_ok_iff.2 ⟨e, he _, bind_eq_ok_iff.2 ⟨es, ih h (i + 1), rfl⟩⟩

theorem operands_document {es : List Expr} (hf : Datum.find? entries "args" = some (.list (es.map Expr.document)))
    (h : ∀ e ∈ es, ∀ path, exprIn types turn e.document path e.document = .ok e) :
    operands types turn path entries = .ok es := by
  rw [operands_eq, hf]
  exact exprs_document h 0

theorem entryExpr_document {e : Expr} {key : String} (hf : Datum.find? entries key = some e.document)
    (h : ∀ path, exprIn types turn e.document path e.document = .ok e) :
    entryExpr types turn path key entries = .ok e := by
  rw [entryExpr_eq, hf]
  exact h _

theorem exprIn_document {e : Expr} (h : e.WellFormed) (hc : ∀ c ∈ e.constants, c.2.isCanonical c.1 = true) :
    exprIn types turn whole path e.document = .ok e := by
  induction h generalizing whole path with
  | @const t value known =>
    have hl := literal_document (hc _ (List.mem_singleton_self (t, value)))
    refine bind_eq_ok_iff.2 ⟨t, requiredType_document rfl known, ?_⟩
    rw [constant, hl]
  | @drop t k id known nonneg =>
    show drop types (.int k) (Expr.drop t k id).document.entries path = _
    exact drop_document nonneg (declaredType_document rfl known) rfl
  | @input t name known => exact bind_eq_ok_iff.2 ⟨t, requiredType_document rfl known, rfl⟩
  | @unary t op arg field known named operand ih =>
    refine bind_eq_ok_iff.2 ⟨[arg], operands_document rfl ?_,
      unary_document named (declaredType_document rfl known) rfl⟩
    exact List.forall_mem_singleton.2 fun path => ih fun c hm => hc c (List.mem_append_right _ hm)
  | @binary t op left right known named first second ih₁ ih₂ =>
    refine bind_eq_ok_iff.2 ⟨[left, right], operands_document rfl ?_,
      binary_document named (declaredType_document rfl known)⟩
    refine List.forall_mem_cons.2 ⟨fun path => ih₁ ?_, List.forall_mem_singleton.2 fun path => ih₂ ?_⟩
    · exact fun c hm => hc c (List.mem_append_left _ (List.mem_append_right _ hm))
    · exact fun c hm => hc c (List.mem_append_right _ hm)
  | @mux t first second third known _ _ _ ih₁ ih₂ ih₃ =>
    refine bind_eq_ok_iff.2 ⟨[first, second, third], operands_document rfl ?_,
      mux_document (declaredType_document rfl known)⟩
    refine List.forall_mem_cons.2 ⟨fun path => ih₁ ?_,
      List.forall_mem_cons.2 ⟨fun path => ih₂ ?_, List.forall_mem_singleton.2 fun path => ih₃ ?_⟩⟩
    · exact fun c hm => hc c (List.mem_append_left _ (List.mem_append_left _ (List.mem_append_right _ hm)))
    · exact fun c hm => hc c (List.mem_append_left _ (List.mem_append_right _ hm))
    · exact fun c hm => hc c (List.mem_append_right _ hm)
  | @letIn t name bound body known first second ih₁ ih₂ =>
    have hbound (path : String) : exprIn types turn bound.document path bound.document = .ok bound :=
      ih₁ fun c hm => hc c (List.mem_append_left _ (List.mem_append_right _ hm))
    have hbody (path : String) : exprIn types turn body.document path body.document = .ok body :=
      ih₂ fun c hm => hc c (List.mem_append_right _ hm)
    refine bind_eq_ok_iff.2 ⟨bound, entryExpr_document rfl hbound, ?_⟩
    refine bind_eq_ok_iff.2 ⟨body, entryExpr_document rfl hbody, ?_⟩
    exact bind_eq_ok_iff.2 ⟨some t, declaredType_document rfl known, rfl⟩
  | @var t name known => exact bind_eq_ok_iff.2 ⟨some t, declaredType_document rfl known, rfl⟩
  | @label text body operand ih =>
    have hbody (path : String) : exprIn types turn body.document path body.document = .ok body :=
      ih fun c hm => hc c (List.mem_append_right _ hm)
    exact bind_eq_ok_iff.2 ⟨body, entryExpr_document rfl hbody, rfl⟩

theorem expr_document {e : Expr} (h : e.WellFormed) (hc : ∀ c ∈ e.constants, c.2.isCanonical c.1 = true) :
    expr types path e.document = .ok e := by
  have hu : e.document.unroll = e.document := by cases h <;> rfl
  rw [expr, exprAt, hu]
  exact exprIn_document h hc

theorem streamTypes_document {streams : List Stream} {done : List (Int × StreamType)}
    (h : ∀ st ∈ streams, st.type.isKnown = true) (hn : (done.map (·.1) ++ streams.map (·.id)).Nodup) (i : Nat) :
    streamTypes done i (streams.map Stream.document) = .ok (done ++ streams.map fun st => (st.id, st.type)) := by
  induction streams generalizing done i with
  | nil => exact congrArg Except.ok (List.append_nil done).symm
  | cons st streams ih =>
    obtain ⟨hst, h⟩ := List.forall_mem_cons.1 h
    have hnew : ¬ (done.lookup st.id).isSome = true := by
      intro hl
      obtain ⟨p, hp, he⟩ := List.lookup_isSome_iff.1 hl
      exact (List.nodup_append.1 hn).2.2 _ (List.mem_map_of_mem hp) _ (List.mem_cons_self ..) (beq_iff_eq.1 he).symm
    show (if (done.lookup st.id).isSome = true then _ else type _ st.type.document >>= _) = _
    rw [if_neg hnew]
    refine bind_eq_ok_iff.2 ⟨st.type, type_document hst, ?_⟩
    rw [ih h (by simpa using hn), List.append_assoc]
    rfl

theorem stream_document {st : Stream} (h : st.expr.WellFormed) (hb : ∀ d ∈ st.buffer, d.isCanonical st.type = true)
    (hc : ∀ c ∈ st.expr.constants, c.2.isCanonical c.1 = true) :
    stream types st.id st.type st.document.entries path = .ok st := by
  have hbuffer : (Datum.documents st.buffer).mapM (literal st.type) = .ok st.buffer := by
    rw [documents_eq, mapM_eq_ok_iff, List.forall₂_map_left_iff]
    exact List.forall₂_same.2 fun d hd => literal_document (hb d hd)
  exact bind_eq_ok_iff.2 ⟨st.buffer, hbuffer, bind_eq_ok_iff.2 ⟨st.expr, expr_document h hc, rfl⟩⟩

theorem streams_document {streams : List Stream} (h : ∀ st ∈ streams, ∀ path,
      stream types st.id st.type st.document.entries path = .ok st) (i : Nat) :
    Decode.streams types i (streams.map fun st => (st.id, st.type)) (streams.map Stream.document) = .ok streams := by
  induction streams generalizing i with
  | nil => rfl
  | cons st streams ih =>
    obtain ⟨hst, h⟩ := List.forall_mem_cons.1 h
    exact bind_eq_ok_iff.2 ⟨st, hst _, bind_eq_ok_iff.2 ⟨streams, ih h (i + 1), rfl⟩⟩

theorem properties_document {properties : List Property} (h : ∀ p ∈ properties, ∀ path,
      expr types path p.expr.document = .ok p.expr) (i : Nat) :
    Decode.properties types i (properties.map Property.document) = .ok properties := by
  induction properties generalizing i with
  | nil => rfl
  | cons p properties ih =>
    obtain ⟨hp, h⟩ := List.forall_mem_cons.1 h
    refine bind_eq_ok_iff.2 ⟨p.name, rfl, bind_eq_ok_iff.2 ⟨p.expr, hp _, ?_⟩⟩
    exact bind_eq_ok_iff.2 ⟨properties, ih h (i + 1), rfl⟩

end

end Spec.Decode

namespace Spec

open Decode Outcome

theorem ofDatum_document {spec : Spec} (h : spec.WellFormed) (hc : spec.Canonical) :
    ofDatum spec.document = .ok spec := by
  have hexpr {e : Expr} (he : e ∈ spec.exprs) := hc.constant e he
  let types := spec.streams.map fun st => (st.id, st.type)
  have hn : (([] : List (Int × StreamType)).map (·.1) ++ spec.streams.map (·.id)).Nodup := h.distinct
  have htypes : streamTypes [] 0 (spec.streams.map Stream.document) = .ok types :=
    streamTypes_document (fun st hst => (h.stream st hst).1) hn 0
  have hstreams : Decode.streams types 0 types (spec.streams.map Stream.document) = .ok spec.streams := by
    refine streams_document (fun st hst path => ?_) 0
    exact stream_document (h.stream st hst).2 (hc.buffer st hst)
      (hexpr (List.mem_append_left _ (List.mem_map_of_mem hst)))
  have hproperties : Decode.properties types 0 (spec.properties.map Property.document) = .ok spec.properties := by
    refine properties_document (fun p hp path => ?_) 0
    exact expr_document (h.property p hp) (hexpr (List.mem_append_right _ (List.mem_map_of_mem hp)))
  refine bind_eq_ok_iff.2 ⟨types, htypes, bind_eq_ok_iff.2 ⟨spec.streams, hstreams, ?_⟩⟩
  exact bind_eq_ok_iff.2 ⟨spec.properties, hproperties, rfl⟩

theorem decoder_exact :
    (∀ d spec, ofDatum d = .ok spec →
      spec.WellFormed ∧ ∃ registry, Registry.ofStreams spec.streams = .ok registry) ∧
    ∀ spec : Spec, spec.WellFormed → spec.Canonical → ofDatum spec.document = .ok spec := by
  refine ⟨fun d spec h => ?_, fun spec => ofDatum_document⟩
  have hw := wellFormed_ofDatum h
  exact ⟨hw, _, Registry.ofStreams_eq_ok_iff.2 ⟨hw.distinct, rfl⟩⟩

def gauge : Spec where
  streams := [{
    id := 3
    type := .struct "reading" [("level", .float 64), ("flags", .array 2 .bool)]
    buffer := [.map [(.text "level", .float .nan), (.text "flags", .tuple [.bool true, .bool false])]]
    expr := .drop (.struct "reading" [("level", .float 64), ("flags", .array 2 .bool)]) 0 3 }]
  properties := [{
    name := "bounded"
    expr := .label .bool "limit" (.letIn .bool "x" .bool (.input .bool "on")
      (.ternary .bool .mux (.var .bool "x") (.unary .bool .not (.input .bool "off") (.text ""))
        (.binary .bool (.compare .le) (.const (.int 8) (.int 1)) (.const (.int 8) (.int 2))))) }]

theorem gauge_read_back : gauge.WellFormed ∧ gauge.Canonical ∧ ofDatum gauge.document = .ok gauge := by
  have hw : gauge.WellFormed := by
    refine ⟨List.nodup_singleton 3, List.forall_mem_singleton.2 ⟨rfl, .drop rfl (by decide)⟩, ?_⟩
    have hnot : UnaryOp.not ∈ UnaryOp.known := List.mem_cons_self ..
    have hle : BinaryOp.compare .le ∈ BinaryOp.known := by simp [BinaryOp.known]
    refine List.forall_mem_singleton.2 (.label (.letIn rfl (.input rfl) (.mux rfl (.var rfl) ?_ ?_)))
    · exact .unary rfl hnot (.input rfl)
    · exact .binary rfl hle (.const rfl) (.const rfl)
  have hc : gauge.Canonical := ⟨by decide, by decide⟩
  exact ⟨hw, hc, decoder_exact.2 gauge hw hc⟩

end Spec

end OneStep
