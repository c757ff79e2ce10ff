import OneStep.Proofs.Documents
import OneStep.Proofs.Typing

namespace OneStep

open Outcome

inductive Expr.WellFormed : Expr → Prop where
  | const {t : StreamType} {value : Datum} (known : t.isKnown = true) : WellFormed (.const t value)
  | drop {t : StreamType} {k id : Int} (known : t.isKnown = true) (nonneg : 0 ≤ k) : WellFormed (.drop t k id)
  | input {t : StreamType} {name : String} (known : t.isKnown = true) : WellFormed (.input t name)
  | unary {t : StreamType} {op : UnaryOp} {arg : Expr} {field : String} (known : t.isKnown = true)
    (named : op ∈ UnaryOp.known) (operand : WellFormed arg) : WellFormed (.unary t op arg (.text field))
  | binary {t : StreamType} {op : BinaryOp} {left right : Expr} (known : t.isKnown = true)
    (named : op ∈ BinaryOp.known) (first : WellFormed left) (second : WellFormed right) :
    WellFormed (.binary t op left right)
  | mux {t : StreamType} {cond whenTrue whenFalse : Expr} (known : t.isKnown = true) (first : WellFormed cond)
    (second : WellFormed whenTrue) (third : WellFormed whenFalse) :
    WellFormed (.ternary t .mux cond whenTrue whenFalse)
  | letIn {t : StreamType} {name : String} {bound body : Expr} (known : t.isKnown = true) (first : WellFormed bound)
    (second : WellFormed body) : WellFormed (.letIn t name bound.type bound body)
  | var {t : StreamType} {name : String} (known : t.isKnown = true) : WellFormed (.var t name)
  | label {text : String} {body : Expr} (operand : WellFormed body) : WellFormed (.label body.type text body)

theorem Expr.WellFormed.isKnown {e : Expr} (h : e.WellFormed) : e.type.isKnown = true := by
  induction h with
  | label _ ih => exact ih
  | _ => assumption

structure Spec.WellFormed (spec : Spec) : Prop where
  distinct : (spec.streams.map (·.id)).Nodup
  stream : ∀ st ∈ spec.streams, st.type.isKnown = true ∧ st.expr.WellFormed
  property : ∀ p ∈ spec.properties, p.expr.WellFormed

theorem StreamType.isKnown_of_named {p : String × StreamType} (h : p ∈ named) : p.2.isKnown = true := by
  revert p
  decide

namespace Spec.Decode

inductive Misread : StreamType → Datum → String → Prop where
  | float {bits : Int} {s : String} (h : floatLiteral s = .error (.floatText s)) : Misread (.float bits) (.text s) s
  | item {length : Nat} {element : StreamType} {d x : Datum} {items : List Datum} {s : String}
    (list : d.unroll = .list items) (mem : x ∈ items) (h : Misread element x s) : Misread (.array length element) d s
  | field {name : String} {fields : List (String × StreamType)} {f : String × StreamType} {d x : Datum}
    {entries : List (Datum × Datum)} {s : String} (map : d.unroll = .map entries) (mem : f ∈ fields)
    (found : Datum.find? entries f.1 = some x) (h : Misread f.2 x s) : Misread (.struct name fields) d s

def form? (entries : List (Datum × Datum)) : Option String :=
  ["const", "drop", "extern", "op", "local", "var", "label"].find? fun key => (Datum.find? entries key).isSome

def isIterable : Datum → Bool
  | .list _ | .text _ | .bytes _ | .set _ | .map _ | .loop .. => true
  | _ => false

inductive Unguarded (d : Datum) : Fault → Prop where
  | integer (long : d.isWritable = false) : Unguarded d .unwritable
  | fields {entries : List (Datum × Datum)} {x : Datum} (map : (Datum.map entries).Within d)
    (struct : (Datum.find? entries "struct").isSome = true) (found : Datum.find? entries "fields" = some x)
    (single : isIterable x = false) : Unguarded d .notIterable
  | operator {entries : List (Datum × Datum)} {x : Datum} (map : (Datum.map entries).Within d)
    (form : form? entries = some "op") (found : Datum.find? entries "op" = some x) (key : isLookedUp x = false) :
    Unguarded d .unusableKey
  | keys {entries : List (Datum × Datum)} {k k' : Datum} (map : (Datum.map entries).Within d)
    (form : form? entries = none) (mem : k ∈ entries.map (·.1)) (mem' : k' ∈ entries.map (·.1))
    (unordered : Datum.less? k k' = none) : Unguarded d .unorderedKeys
  | number {entries : List (Datum × Datum)} {declared x : Datum} {path s : String} {t : StreamType}
    {items : List Datum} (map : (Datum.map entries).Within d) (typed : Datum.find? entries "type" = some declared)
    (type : type path declared = .ok t) (buffer : Datum.find? entries "buffer" = some (.list items)) (mem : x ∈ items)
    (misread : Misread t x s) : Unguarded d (.floatText s)

inductive Explains (d : Datum) : Fault → Prop where
  | format (message path : String) : Explains d (malformedAt message path)
  | unguarded {f : Fault} (h : Unguarded d f) : Explains d f

theorem Explains.of_within {x d : Datum} {f : Fault} (h : Explains x f) (hx : x.Within d) : Explains d f := by
  cases h with
  | format message path => exact .format message path
  | unguarded h =>
    refine .unguarded ?_
    cases h with
    | integer long =>
      refine .integer (Bool.eq_false_iff.2 fun hd => ?_)
      exact absurd (hx.isWritable hd) (Bool.eq_false_iff.1 long)
    | fields map struct found single => exact .fields (map.trans hx) struct found single
    | operator map form found key => exact .operator (map.trans hx) form found key
    | keys map form mem mem' unordered => exact .keys (map.trans hx) form mem mem' unordered
    | number map typed type buffer mem misread => exact .number (map.trans hx) typed type buffer mem misread

-- faults that a value may stop its decoding with; nothing is said of those that loops stop with
structure Admits (F : Fault → Prop) (d : Datum) : Prop where
  explained : ∀ f, Explains d f → F f
  looped : d.countLoops ≠ 0 → ∀ f, F f

variable {F : Fault → Prop} {d x : Datum} {entries : List (Datum × Datum)} {path key : String} {t : StreamType}

namespace Admits

theorem part (h : Admits F d) (hx : x.Within d) : Admits F x where
  explained f hf := h.explained f (hf.of_within hx)
  looped hl := h.looped (by have := hx.countLoops_le; omega)

theorem item (h : Admits F d) (hx : x ∈ d.parts) : Admits F x :=
  h.part (Datum.within_of_mem hx)

theorem entry (h : Admits F (.map entries)) (hx : Datum.find? entries key = some x) : Admits F x :=
  h.item (Datum.mem_parts_of_find? hx)

theorem unroll (h : Admits F d) : Admits F d.unroll := by
  by_cases hl : d.countLoops = 0
  · rw [Datum.unroll_of_countLoops hl]
    exact h
  · exact ⟨fun f _ => h.looped hl f, fun _ => h.looped hl⟩

theorem malformed {α : Type} {Q : α → Prop} (h : Admits F d) (message path : String) :
    Yields F Q (Decode.malformed message path : Except Fault α) :=
  h.explained _ (.format message path)

theorem describe (h : Admits F d) : Yields F (fun _ => True) d.describe := by
  rw [Datum.describe]
  split
  · trivial
  · next hw => exact h.explained _ (.unguarded (.integer (Bool.eq_false_iff.2 hw)))

theorem asText (h : Admits F d) : Yields F (fun _ => True) d.asText := by
  rw [Datum.asText]
  split
  · trivial
  · next hw => exact h.explained _ (.unguarded (.integer (Bool.eq_false_iff.2 hw)))

end Admits

theorem element_eq (turn : String → Datum → Except Fault StreamType) (path : String)
    (entries : List (Datum × Datum)) :
    element turn path entries = (Datum.find? entries "of").map fun d => typeIn turn d (path ++ ".of") d := by
  induction entries with
  | nil => rfl
  | cons e entries ih =>
    obtain ⟨k, v⟩ := e
    cases k with
    | text s =>
      by_cases hs : s = "of"
      · subst hs
        simp [element, Datum.find?]
      · simp [element, Datum.find?, hs, ih]
    | _ => simp [element, Datum.find?, ih]

def declaredFields (turn : String → Datum → Except Fault StreamType) (path : String) :
    Datum → Except Fault (List (String × StreamType))
  | .list items => fields turn path 0 items
  | .loop label d =>
    match (Datum.loop label d).unroll with
    | .list items => loopFields turn path 0 items
    | _ => noField path 0
  | .text s => if s.isEmpty then .ok [] else noField path 0
  | .bytes content => if content.isEmpty then .ok [] else noField path 0
  | .set items => if items.isEmpty then .ok [] else noField path 0
  | .map entries => if entries.isEmpty then .ok [] else noField path 0
  | _ => .error .notIterable

theorem recordFields_eq (turn : String → Datum → Except Fault StreamType) (path : String)
    (entries : List (Datum × Datum)) : recordFields turn path entries = match Datum.find? entries "fields" with
      | some d => declaredFields turn path d
      | none => .ok [] := by
  induction entries with
  | nil => rfl
  | cons e entries ih =>
    obtain ⟨k, v⟩ := e
    cases k with
    | text s =>
      by_cases hs : s = "fields"
      · subst hs
        cases v <;> rfl
      · simp [recordFields, Datum.find?, hs, ih]
    | _ => simp [recordFields, Datum.find?, ih]

def Known (fields : List (String × StreamType)) : Prop :=
  ∀ f ∈ fields, f.2.isKnown = true

theorem yields_field {name : Except Fault String} {type : Except Fault StreamType}
    {rest : Except Fault (List (String × StreamType))} (hn : Yields F (fun _ => True) name)
    (ht : Yields F (fun t => t.isKnown = true) type) (hr : Yields F Known rest) : Yields F Known (do
      let name ← name
      let t ← type
      return (name, t) :: (← rest)) :=
  yields_bind hn fun _ _ => yields_bind ht fun _ ht => yields_bind hr fun _ hr => List.forall_mem_cons.2 ⟨ht, hr⟩

section

variable {turn : String → Datum → Except Fault StreamType}
  (hturn : ∀ path x, Yields (fun _ => True) (fun t => t.isKnown = true) (turn path x))

include hturn

theorem yields_loopFields (h : ∀ f, F f) (path : String) (i : Nat) (items : List Datum) :
    Yields F Known (loopFields turn path i items) := by
  have ha (d : Datum) : Admits F d := ⟨fun f _ => h f, fun _ => h⟩
  induction items generalizing i with
  | nil => exact List.forall_mem_nil _
  | cons d items ih =>
    have hrest := ih (i + 1)
    rw [loopFields]
    split
    · next name x _ => exact yields_field (ha name).asText ((hturn _ x).faults fun f _ => h f) hrest
    · next name x _ => exact yields_field (ha name).asText ((hturn _ x).faults fun f _ => h f) hrest
    · exact h _

theorem yields_fields {items : List Datum} (h : ∀ d ∈ items, Admits F d)
    (ht : ∀ d ∈ items, ∀ x ∈ d.parts, ∀ path, Yields F (fun t => t.isKnown = true) (typeIn turn x path x))
    (path : String) (i : Nat) : Yields F Known (fields turn path i items) := by
  induction items generalizing i with
  | nil => exact List.forall_mem_nil _
  | cons d items ih =>
    obtain ⟨hd, h⟩ := List.forall_mem_cons.1 h
    obtain ⟨htd, ht⟩ := List.forall_mem_cons.1 ht
    have hrest := ih h ht (i + 1)
    rw [fields.eq_def]
    split
    · exact List.forall_mem_nil _
    · next name x rest he =>
      cases he
      exact yields_field (hd.item (List.mem_cons_self ..)).asText
        (htd x (List.mem_cons_of_mem _ (List.mem_cons_self ..)) _) hrest
    · next name x rest he =>
      cases he
      exact yields_field (hd.item (List.mem_cons_self ..)).asText
        (htd x (List.mem_cons_of_mem _ (List.mem_cons_self ..)) _) hrest
    · next label x rest he =>
      cases he
      have hf := hd.looped (Nat.succ_ne_zero _)
      refine yields_bind (yields_loopFields hturn hf path i _) fun loop hl => yields_bind hrest fun fs hfs => ?_
      exact List.forall_mem_append.2 ⟨hl, hfs⟩
    · exact hd.malformed ..

theorem yields_declaredFields (h : Admits F d) (hi : isIterable d = false → F .notIterable)
    (ht : ∀ p ∈ d.parts, ∀ x ∈ p.parts, ∀ path, Yields F (fun t => t.isKnown = true) (typeIn turn x path x)) :
    Yields F Known (declaredFields turn path d) := by
  have hn : Yields F Known (noField path 0) := h.malformed ..
  have hnil : Yields F Known (.ok []) := List.forall_mem_nil _
  cases d with
  | list items => exact yields_fields hturn (fun d hd => h.item hd) ht path 0
  | loop label d =>
    rw [declaredFields]
    split
    · exact yields_loopFields hturn (h.looped (Nat.succ_ne_zero _)) path 0 _
    · exact hn
  | text s => exact iteInduction (fun _ => hnil) fun _ => hn
  | bytes content => exact iteInduction (fun _ => hnil) fun _ => hn
  | set items => exact iteInduction (fun _ => hnil) fun _ => hn
  | map entries => exact iteInduction (fun _ => hnil) fun _ => hn
  | _ => exact hi rfl

theorem yields_typeIn {whole : Datum} (hw : Admits F whole) (h : Admits F d) :
    Yields F (fun t => t.isKnown = true) (typeIn turn whole path d) := by
  induction d using Datum.within_induction generalizing whole path with
  | h d ih =>
    have hno : Yields F (fun t : StreamType => t.isKnown = true) (noType whole path) :=
      yields_bind hw.describe fun _ _ => hw.malformed ..
    have hpart {p x : Datum} {path : String} (hp : p ∈ d.parts) (hx : x.Within p) :
        Yields F (fun t : StreamType => t.isKnown = true) (typeIn turn x path x) :=
      have hx' := h.part (hx.trans (Datum.within_of_mem hp))
      ih p hp x hx hx' hx'
    cases d with
    | text name =>
      rw [typeIn]
      split
      · next t ht => exact StreamType.isKnown_of_named (mem_of_lookup ht)
      · exact h.malformed ..
    | map entries =>
      rw [typeIn]
      split
      · split
        · exact h.malformed ..
        · rw [element_eq]
          cases hd : Datum.find? entries "of" with
          | none => exact h.malformed ..
          | some x => exact yields_bind (hpart (Datum.mem_parts_of_find? hd) .refl) fun t ht => ht
      · exact h.malformed ..
      · split
        · next name hname =>
          have hfields : Yields F Known (recordFields turn path entries) := by
            rw [recordFields_eq]
            cases hd : Datum.find? entries "fields" with
            | none => exact List.forall_mem_nil _
            | some x =>
              have hx := Datum.mem_parts_of_find? hd
              refine yields_declaredFields hturn (h.item hx) (fun hi => ?_) fun p hp y hy path =>
                hpart hx ((Datum.within_of_mem hy).trans (Datum.within_of_mem hp))
              exact h.explained _ (.unguarded (.fields .refl (by rw [hname]; rfl) hd hi))
          refine yields_bind hfields fun fs hfs => yields_bind (h.entry hname).asText fun name _ => ?_
          exact StreamType.fieldsKnown_iff.2 hfs
        · exact hno
    | loop label d => exact (hturn path _).faults fun f _ => h.looped (Nat.succ_ne_zero _) f
    | _ => exact hno

end

theorem yields_typeAt_any (turns : Nat) (path : String) (d : Datum) :
    Yields (fun _ => True) (fun t => t.isKnown = true) (typeAt turns path d) := by
  induction turns generalizing path d with
  | zero => trivial
  | succ turns ih =>
    have ha (d : Datum) : Admits (fun _ => True) d := ⟨fun _ _ => trivial, fun _ _ => trivial⟩
    exact yields_typeIn ih (ha d) (ha _)

theorem yields_type (h : Admits F d) : Yields F (fun t => t.isKnown = true) (type path d) :=
  yields_typeIn (yields_typeAt_any _) h h.unroll

theorem yields_fieldLiterals {fields : List (String × StreamType)}
    (h : ∀ f ∈ fields, ∀ x, Datum.find? entries f.1 = some x → Yields F (fun _ => True) (literal f.2 x))
    (done : List (Datum × Datum)) : Yields F (fun _ => True) (fieldLiterals fields entries done) := by
  induction fields generalizing done with
  | nil => trivial
  | cons f fields ih =>
    obtain ⟨hf, h⟩ := List.forall_mem_cons.1 h
    rw [fieldLiterals]
    split
    · next x hx => exact yields_bind (hf x hx) fun _ _ => ih h _
    · exact ih h done

theorem yields_floatLiteral (bits : Int) (s : String) :
    Yields (fun f => ∃ s', f = .floatText s' ∧ Misread (.float bits) (.text s) s') (fun _ => True)
      (floatLiteral s) := by
  cases h : floatLiteral s with
  | ok d => trivial
  | error f =>
    have hf : f = .floatText s := by
      unfold floatLiteral at h
      split at h
      · cases h
      · split at h <;> cases h
        rfl
    subst hf
    exact ⟨s, rfl, .float h⟩

theorem yields_literal (t : StreamType) (d : Datum) :
    Yields (fun f => ∃ s, f = .floatText s ∧ Misread t d s) (fun _ => True) (literal t d) := by
  induction t using StreamType.shape_induction generalizing d with
  | float bits =>
    cases d with
    | text s => exact yields_floatLiteral bits s
    | _ => trivial
  | array length element ih =>
    rw [literal]
    split
    · next items hd =>
      refine yields_bind (yields_mapM fun x hx => (ih x).faults ?_) fun _ _ => trivial
      rintro _ ⟨s, rfl, hm⟩
      exact ⟨s, rfl, .item hd hx hm⟩
    · trivial
  | struct name fields ih =>
    rw [literal]
    split
    · next entries hd =>
      refine yields_bind (yields_fieldLiterals (fun f hf x hx => (ih f hf x).faults ?_) []) fun _ _ => trivial
      rintro _ ⟨s, rfl, hm⟩
      exact ⟨s, rfl, .field hd hf hx hm⟩
    · trivial
  | _ => trivial

theorem yields_constant (h : Admits F d) (ht : t.isKnown = true) (value : Datum) :
    Yields F Expr.WellFormed (constant t value path) := by
  have hl := yields_literal t value
  unfold constant
  split
  · exact .const ht
  · exact h.malformed ..
  · next f hf hv =>
    rw [hv] at hl
    obtain ⟨s, rfl, _⟩ := hl
    exact absurd rfl (hf s)

theorem Admits.writeInt {n : Int} (h : Admits F (.int n)) : Yields F (fun _ => True) (writeInt n) := by
  unfold OneStep.writeInt
  split
  · trivial
  · next hw => exact h.explained _ (.unguarded (.integer (Bool.eq_false_iff.2 hw)))

theorem yields_declaredType (h : Admits F (.map entries)) (path : String) :
    Yields F (fun t => t.all StreamType.isKnown = true) (declaredType entries path) := by
  unfold declaredType
  split
  · next d hd => exact yields_bind (yields_type (h.entry hd)) fun t ht => ht
  · rfl

theorem yields_requiredType (h : Admits F (.map entries)) (path : String) :
    Yields F (fun t => t.isKnown = true) (requiredType entries path) := by
  refine yields_bind (yields_declaredType h path) fun t ht => ?_
  cases t with
  | none => exact h.malformed ..
  | some t => exact ht

theorem yields_fieldName (h : Admits F (.map entries)) : Yields F (fun _ => True) (fieldName entries) := by
  unfold fieldName
  split
  · next d hd => exact (h.entry hd).asText
  · trivial

variable {types : List (Int × StreamType)}

theorem yields_drop (hs : ∀ p ∈ types, p.2.isKnown = true) (h : Admits F (.map entries)) (count : Datum) :
    Yields F Expr.WellFormed (drop types count entries path) := by
  unfold drop
  split
  · split
    · exact h.malformed ..
    · next k hk =>
      split
      · next id hid =>
        refine yields_bind (yields_declaredType h path) fun t ht => ?_
        split
        · next t' ht' =>
          refine .drop ?_ (Int.not_lt.1 hk)
          cases t with
          | none => exact hs _ (mem_of_lookup ht')
          | some t =>
            cases ht'
            exact ht
        · exact yields_bind (h.entry hid).writeInt fun _ _ => h.malformed ..
      · exact h.malformed ..
  · exact h.malformed ..

theorem mem_of_find?_getD {α : Type} {p : α → Bool} {known : List α} {op unknown : α}
    (h : (known.find? p).getD unknown = op) (hn : op ≠ unknown) : op ∈ known := by
  cases hf : known.find? p with
  | none => exact absurd (by rw [← h, hf]; rfl) hn
  | some op' =>
    rw [hf] at h
    exact h ▸ List.mem_of_find?_eq_some hf

theorem yields_inferUnary (h : Admits F (.map entries)) {arg : Expr} (ha : arg.WellFormed) (op : UnaryOp) :
    Yields F (fun t => t.isKnown = true) (inferUnary op arg entries path) := by
  unfold inferUnary
  split
  · rfl
  · split
    · next name fields ht =>
      refine yields_bind (yields_fieldName h) fun field _ => ?_
      split
      · next i t hf =>
        have hk : (StreamType.struct name fields).isKnown = true := ht ▸ ha.isKnown
        have hm := List.mem_of_getElem? (StreamType.mem_of_findField? hf)
        exact StreamType.fieldsKnown_iff.1 hk _ hm
      · exact h.malformed ..
    · exact h.malformed ..
  · exact h.malformed ..
  · exact ha.isKnown

theorem yields_inferBinary (h : Admits F d) {left : Expr} (hl : left.WellFormed) (op : BinaryOp) :
    Yields F (fun t => t.isKnown = true) (inferBinary op left path) := by
  unfold inferBinary
  split
  · rfl
  · rfl
  · rfl
  · rfl
  · rfl
  · split
    · next length element ht =>
      have hk : (StreamType.array length element).isKnown = true := ht ▸ hl.isKnown
      exact hk
    · exact h.malformed ..
  · exact hl.isKnown

theorem yields_unknownOperator {α : Type} {Q : α → Prop} {op : Datum} (h : Admits F op) (arity : Nat) :
    Yields F Q (unknownOperator op arity path : Except Fault α) :=
  yields_bind h.asText fun _ _ => h.malformed ..

theorem yields_operation (h : Admits F (.map entries)) {op : Datum} (hop : Admits F op)
    (hk : isLookedUp op = false → F .unusableKey) {args : List Expr} (ha : ∀ e ∈ args, e.WellFormed) :
    Yields F Expr.WellFormed (operation op args entries path) := by
  have hu (arity : Nat) : Yields F Expr.WellFormed (unknownOperator op arity path) := yields_unknownOperator hop arity
  have hd := yields_declaredType h path
  have hf := yields_fieldName h
  cases hl : isLookedUp op with
  | false =>
    simp only [operation, hl]
    exact hk hl
  | true =>
    simp only [operation, hl, Bool.not_true, Bool.false_eq_true, if_false]
    split
    · next name a =>
      have ha : a.WellFormed := by simpa using ha
      split
      · exact hu 1
      · next hn =>
        have hm : UnaryOp.ofName name ∈ UnaryOp.known := mem_of_find?_getD rfl (hn _)
        refine yields_bind hd fun t ht => ?_
        cases t with
        | some t => exact yields_bind hf fun field _ => .unary ht hm ha
        | none => exact yields_bind (yields_inferUnary h ha _) fun t ht => yields_bind hf fun field _ => .unary ht hm ha
    · next name a b =>
      obtain ⟨ha, hb⟩ : a.WellFormed ∧ b.WellFormed := by simpa using ha
      split
      · exact hu 2
      · next hn =>
        have hm : BinaryOp.ofName name ∈ BinaryOp.known := mem_of_find?_getD rfl (hn _)
        refine yields_bind hd fun t ht => ?_
        cases t with
        | some t => exact .binary ht hm ha hb
        | none => exact yields_bind (yields_inferBinary h ha _) fun t ht => .binary ht hm ha hb
    · next name a b c =>
      obtain ⟨ha, hb, hc⟩ : a.WellFormed ∧ b.WellFormed ∧ c.WellFormed := by simpa using ha
      cases hn : TernaryOp.ofName name with
      | unknown d => exact hu 3
      | mux =>
        refine yields_bind hd fun t ht => ?_
        cases t with
        | some t => exact .mux ht ha hb hc
        | none => exact .mux hb.isKnown ha hb hc
    · exact hu _

def declaredArgs (types : List (Int × StreamType)) (turn : String → Datum → Except Fault Expr) (path : String) :
    Datum → Except Fault (List Expr)
  | .list items => exprs types turn path 0 items
  | .loop label d =>
    match (Datum.loop label d).unroll with
    | .list items => loopExprs turn path 0 items
    | _ => malformed "'args' must be a list" path
  | _ => malformed "'args' must be a list" path

theorem operands_eq (types : List (Int × StreamType)) (turn : String → Datum → Except Fault Expr) (path : String)
    (entries : List (Datum × Datum)) : operands types turn path entries = match Datum.find? entries "args" with
      | some d => declaredArgs types turn path d
      | none => .ok [] := by
  induction entries with
  | nil => rfl
  | cons e entries ih =>
    obtain ⟨k, v⟩ := e
    cases k with
    | text s =>
      by_cases hs : s = "args"
      · subst hs
        cases v <;> rfl
      · simp [operands, Datum.find?, hs, ih]
    | _ => simp [operands, Datum.find?, ih]

theorem entryExpr_eq (types : List (Int × StreamType)) (turn : String → Datum → Except Fault Expr) (path key : String)
    (entries : List (Datum × Datum)) : entryExpr types turn path key entries = match Datum.find? entries key with
      | some d => exprIn types turn d s!"{path}.{key}" d
      | none => notMapping .null s!"{path}.{key}" := by
  induction entries with
  | nil => rfl
  | cons e entries ih =>
    obtain ⟨k, v⟩ := e
    cases k with
    | text s =>
      by_cases hs : s = key
      · simp [entryExpr, Datum.find?, hs]
      · simp [entryExpr, Datum.find?, hs, ih]
    | _ => simp [entryExpr, Datum.find?, ih]

section

variable {turn : String → Datum → Except Fault Expr}

theorem yields_exprs {items : List Datum}
    (h : ∀ d ∈ items, ∀ path, Yields F Expr.WellFormed (exprIn types turn d path d)) (path : String) (i : Nat) :
    Yields F (fun es => ∀ e ∈ es, e.WellFormed) (exprs types turn path i items) := by
  induction items generalizing i with
  | nil => exact List.forall_mem_nil _
  | cons d items ih =>
    obtain ⟨hd, h⟩ := List.forall_mem_cons.1 h
    rw [exprs]
    exact yields_bind (hd _) fun e he => yields_bind (ih h (i + 1)) fun es hes => List.forall_mem_cons.2 ⟨he, hes⟩

theorem yields_entryExpr (h : Admits F (.map entries))
    (he : ∀ x ∈ (Datum.map entries).parts, ∀ path, Yields F Expr.WellFormed (exprIn types turn x path x)) :
    Yields F Expr.WellFormed (entryExpr types turn path key entries) := by
  rw [entryExpr_eq]
  split
  · next d hd => exact he d (Datum.mem_parts_of_find? hd) _
  · exact h.malformed ..

variable (hturn : ∀ path x, Yields (fun _ => True) Expr.WellFormed (turn path x))

include hturn

theorem yields_loopExprs (h : ∀ f, F f) (path : String) (i : Nat) (items : List Datum) :
    Yields F (fun es => ∀ e ∈ es, e.WellFormed) (loopExprs turn path i items) := by
  induction items generalizing i with
  | nil => exact List.forall_mem_nil _
  | cons d items ih =>
    refine yields_bind ((hturn _ d).faults fun f _ => h f) fun e he => ?_
    exact yields_bind (ih (i + 1)) fun es hes => List.forall_mem_cons.2 ⟨he, hes⟩

theorem yields_declaredArgs (h : Admits F d)
    (he : ∀ x ∈ d.parts, ∀ path, Yields F Expr.WellFormed (exprIn types turn x path x)) :
    Yields F (fun es => ∀ e ∈ es, e.WellFormed) (declaredArgs types turn path d) := by
  cases d with
  | list items => exact yields_exprs he path 0
  | loop label d =>
    rw [declaredArgs]
    split
    · exact yields_loopExprs hturn (h.looped (Nat.succ_ne_zero _)) path 0 _
    · exact h.malformed ..
  | _ => exact h.malformed ..

theorem yields_operands (h : Admits F (.map entries)) (he : ∀ p ∈ (Datum.map entries).parts, ∀ x ∈ p.parts,
      ∀ path, Yields F Expr.WellFormed (exprIn types turn x path x)) :
    Yields F (fun es => ∀ e ∈ es, e.WellFormed) (operands types turn path entries) := by
  rw [operands_eq]
  split
  · next d hd =>
    have hd := Datum.mem_parts_of_find? hd
    exact yields_declaredArgs hturn (h.item hd) (he d hd)
  · exact List.forall_mem_nil _

end

theorem yields_sortedKeys (h : Admits F (.map entries)) (hform : form? entries = none) :
    Yields F (fun keys => ∀ k ∈ keys, k ∈ (Datum.map entries).parts) (sortedKeys (entries.map (·.1))) := by
  unfold sortedKeys
  split
  · next keys hk => exact fun k hmem => List.mem_append_left _ (Sorting.mem_of_sort? hk k hmem)
  · next hk =>
    by_contra hn
    have hl (a b : Datum) (ha : a ∈ entries.map (·.1)) (hb : b ∈ entries.map (·.1)) :
        ∃ c, Datum.less? a b = some c := by
      refine Option.ne_none_iff_exists'.1 fun hless => hn ?_
      exact h.explained _ (.unguarded (.keys .refl hform ha hb hless))
    obtain ⟨ys, hys⟩ := Sorting.exists_sort hl fun x hx => hx
    cases hk.symm.trans hys

theorem Admits.describeList (h : Admits F d) {items : List Datum} (hi : ∀ x ∈ items, x ∈ d.parts) :
    Yields F (fun _ => True) (Datum.list items).describe := by
  unfold Datum.describe
  split
  · trivial
  · next hw =>
    refine h.explained _ (.unguarded (.integer (Bool.eq_false_iff.2 fun hd => hw ?_)))
    exact Datum.areWritable_iff.2 fun x hx => Datum.isWritable_of_mem (hi x hx) hd

theorem yields_exprIn (hs : ∀ p ∈ types, p.2.isKnown = true) {turn : String → Datum → Except Fault Expr}
    (hturn : ∀ path x, Yields (fun _ => True) Expr.WellFormed (turn path x)) {whole : Datum} (hw : Admits F whole)
    (h : Admits F d) : Yields F Expr.WellFormed (exprIn types turn whole path d) := by
  induction d using Datum.within_induction generalizing whole path with
  | h d ih =>
    have hno : Yields F Expr.WellFormed (notMapping whole path) :=
      yields_bind hw.describe fun _ _ => hw.malformed ..
    have hpart {p x : Datum} {path : String} (hp : p ∈ d.parts) (hx : x.Within p) :
        Yields F Expr.WellFormed (exprIn types turn x path x) :=
      have hx' := h.part (hx.trans (Datum.within_of_mem hp))
      ih p hp x hx hx' hx'
    cases d with
    | map entries =>
      have hentry (key : String) : Yields F Expr.WellFormed (entryExpr types turn path key entries) :=
        yields_entryExpr h fun x hx path => hpart hx .refl
      rw [exprIn]
      split
      · exact yields_bind (yields_requiredType h path) fun t ht => yields_constant h ht _
      next hconst =>
      split
      · exact yields_drop hs h _
      next hdrop =>
      split
      · next name hname =>
        exact yields_bind (yields_requiredType h path) fun t ht =>
          yields_bind (h.entry hname).asText fun _ _ => .input ht
      next hextern =>
      split
      · next op hop =>
        have hargs : Yields F (fun es => ∀ e ∈ es, e.WellFormed) (operands types turn path entries) :=
          yields_operands hturn h fun p hp x hx path => hpart hp (Datum.within_of_mem hx)
        refine yields_bind hargs fun args ha => yields_operation h (h.entry hop) (fun hk => ?_) ha
        have hform : form? entries = some "op" := by simp [form?, hconst, hdrop, hextern, hop]
        exact h.explained _ (.unguarded (.operator .refl hform hop hk))
      next hop =>
      split
      · next name hname =>
        refine yields_bind (hentry "bound") fun bound hbound => yields_bind (hentry "body") fun body hbody => ?_
        refine yields_bind (yields_declaredType h path) fun t ht => yields_bind (h.entry hname).asText fun _ _ => ?_
        refine .letIn ?_ hbound hbody
        cases t with
        | none => exact hbody.isKnown
        | some t => exact ht
      next hlocal =>
      split
      · next name hname =>
        refine yields_bind (yields_declaredType h path) fun t ht => yields_bind (h.entry hname).asText fun _ _ => ?_
        refine .var ?_
        cases t with
        | none => rfl
        | some t => exact ht
      next hvar =>
      split
      · next label hlabel =>
        exact yields_bind (hentry "expr") fun body hbody => yields_bind (h.entry hlabel).asText fun _ _ => .label hbody
      · next hlabel =>
        have hform : form? entries = none := by
          simp [form?, hconst, hdrop, hextern, hop, hlocal, hvar, hlabel]
        refine yields_bind (yields_sortedKeys h hform) fun keys hk => ?_
        exact yields_bind (h.describeList hk) fun _ _ => h.malformed ..
    | loop label d => exact (hturn path _).faults fun f _ => h.looped (Nat.succ_ne_zero _) f
    | _ => exact hno

theorem yields_exprAt_any (hs : ∀ p ∈ types, p.2.isKnown = true) (turns : Nat) (path : String) (d : Datum) :
    Yields (fun _ => True) Expr.WellFormed (exprAt types turns path d) := by
  induction turns generalizing path d with
  | zero => trivial
  | succ turns ih =>
    have ha (d : Datum) : Admits (fun _ => True) d := ⟨fun _ _ => trivial, fun _ _ => trivial⟩
    exact yields_exprIn hs ih (ha d) (ha _)

theorem yields_expr (hs : ∀ p ∈ types, p.2.isKnown = true) (h : Admits F d) :
    Yields F Expr.WellFormed (expr types path d) :=
  yields_exprIn hs (yields_exprAt_any hs _) h h.unroll

def Declares (p : Int × StreamType) (d : Datum) : Prop :=
  ∃ entries declared path, d.unroll = .map entries ∧ Datum.find? entries "type" = some declared ∧
    type path declared = .ok p.2

theorem yields_streamTypes {items : List Datum} (h : ∀ d ∈ items, Admits F d) {done : List (Int × StreamType)}
    (hk : ∀ p ∈ done, p.2.isKnown = true) (hn : (done.map (·.1)).Nodup) (i : Nat) :
    Yields F (fun types => (∀ p ∈ types, p.2.isKnown = true) ∧ (types.map (·.1)).Nodup ∧
      ∃ new, types = done ++ new ∧ List.Forall₂ Declares new items) (streamTypes done i items) := by
  induction items generalizing done i with
  | nil => exact ⟨hk, hn, [], by simp, .nil⟩
  | cons d items ih =>
    obtain ⟨hd, h⟩ := List.forall_mem_cons.1 h
    rw [streamTypes]
    split
    · next entries hu =>
      have he : Admits F (.map entries) := hu ▸ hd.unroll
      split
      · next id declared hid hdeclared =>
        split
        · refine yields_bind (he.entry hid).writeInt fun _ _ => ?_
          exact yields_bind (P := fun _ => False) (hd.malformed ..) fun _ hf => hf.elim
        · next hnew =>
          refine yields_bind (yields_self (yields_type (he.entry hdeclared))) fun t ht => ?_
          have hid : id ∉ done.map (·.1) := by
            intro hmem
            obtain ⟨p, hp, rfl⟩ := List.mem_map.1 hmem
            exact hnew (List.lookup_isSome_iff.2 ⟨p, hp, beq_self_eq_true p.1⟩)
          have hk' : ∀ p ∈ done ++ [(id, t)], p.2.isKnown = true :=
            List.forall_mem_append.2 ⟨hk, List.forall_mem_singleton.2 ht.1⟩
          have hn' : ((done ++ [(id, t)]).map (·.1)).Nodup := by
            rw [List.map_append]
            exact hn.append (List.nodup_singleton id) (List.disjoint_singleton.2 hid)
          refine (ih h hk' hn' (i + 1)).imp (fun _ hf => hf) ?_
          rintro types ⟨hk, hn, new, rfl, hnew⟩
          exact ⟨hk, hn, (id, t) :: new, by simp, .cons ⟨entries, declared, _, hu, hdeclared, ht.2⟩ hnew⟩
      · exact hd.malformed ..
      · exact hd.malformed ..
    · exact hd.malformed ..

theorem Admits.listOr (h : Admits F (.map entries)) {items : List Datum} (hi : listOr entries key = some items) :
    ∀ x ∈ items, Admits F x := by
  unfold Decode.listOr Datum.findOpen? at hi
  cases hd : Datum.find? entries key with
  | none =>
    rw [hd] at hi
    cases hi
    exact List.forall_mem_nil _
  | some d =>
    have hu := (h.entry hd).unroll
    rw [hd] at hi
    simp only [Option.map_some] at hi
    split at hi
    · next he => cases he
    · next items' he =>
      cases hi
      rw [Option.some.inj he] at hu
      exact fun x hx => hu.item hx
    · split at hi <;> cases hi
      exact List.forall_mem_nil _

theorem listOr_eq_some {items : List Datum} (hl : (Datum.map entries).countLoops = 0)
    (hi : listOr entries key = some items) : items = [] ∨ Datum.find? entries key = some (.list items) := by
  unfold listOr Datum.findOpen? at hi
  cases hd : Datum.find? entries key with
  | none =>
    rw [hd] at hi
    cases hi
    exact .inl rfl
  | some d =>
    have hle := (Datum.within_of_mem (Datum.mem_parts_of_find? hd)).countLoops_le
    rw [hd, Option.map_some, Datum.unroll_of_countLoops (by omega)] at hi
    split at hi
    · next he => cases he
    · next items' he =>
      cases hi
      exact .inr he
    · split at hi <;> cases hi
      exact .inl rfl

theorem yields_buffer (h : Admits F (.map entries)) {id : Int} (hd : Declares (id, t) (.map entries))
    {items : List Datum} (hi : listOr entries "buffer" = some items) :
    Yields F (fun _ => True) (items.mapM (literal t)) := by
  refine (yields_mapM fun x hx => (yields_literal t x).faults ?_).imp (fun _ hf => hf) fun _ _ => trivial
  rintro _ ⟨s, rfl, hm⟩
  by_cases hl : (Datum.map entries).countLoops = 0
  · obtain ⟨_, declared, path, ⟨⟩, hdeclared, htype⟩ := hd
    rcases listOr_eq_some hl hi with rfl | hb
    · cases hx
    · exact h.explained _ (.unguarded (.number .refl hdeclared htype hb hx hm))
  · exact h.looped hl _

theorem yields_stream (hs : ∀ p ∈ types, p.2.isKnown = true) (h : Admits F (.map entries)) {id : Int}
    (ht : t.isKnown = true) (hd : Declares (id, t) (.map entries)) :
    Yields F (fun st => st.id = id ∧ st.type.isKnown = true ∧ st.expr.WellFormed) (stream types id t entries path) := by
  unfold stream
  split
  · next buffer hbuffer =>
    split
    · next e he =>
      refine yields_bind (yields_buffer h hd hbuffer) fun buffer _ => ?_
      exact yields_bind (yields_expr hs (h.entry he)) fun e he => ⟨rfl, ht, he⟩
    · exact h.malformed ..
  · exact h.malformed ..

theorem yields_streams (hs : ∀ p ∈ types, p.2.isKnown = true) {items : List Datum} (h : ∀ d ∈ items, Admits F d)
    {declared : List (Int × StreamType)} (hk : ∀ p ∈ declared, p.2.isKnown = true)
    (hd : List.Forall₂ Declares declared items) (i : Nat) :
    Yields F (fun streams => streams.map (·.id) = declared.map (·.1) ∧
      ∀ st ∈ streams, st.type.isKnown = true ∧ st.expr.WellFormed) (streams types i declared items) := by
  induction hd generalizing i with
  | nil => exact ⟨rfl, List.forall_mem_nil _⟩
  | @cons p d declared items hd _ ih =>
    obtain ⟨hp, hk⟩ := List.forall_mem_cons.1 hk
    obtain ⟨ha, h⟩ := List.forall_mem_cons.1 h
    obtain ⟨entries, x, path, hu, hd⟩ := hd
    have he : d.entries = entries := by rw [Datum.entries, hu]
    rw [streams, he]
    refine yields_bind (yields_stream hs (hu ▸ ha.unroll) hp ⟨entries, x, path, rfl, hd⟩) fun st hst => ?_
    refine yields_bind (ih h hk (i + 1)) fun sts hsts => ⟨?_, List.forall_mem_cons.2 ⟨hst.2, hsts.2⟩⟩
    rw [List.map_cons, List.map_cons, hst.1, hsts.1]

theorem yields_properties (hs : ∀ p ∈ types, p.2.isKnown = true) {items : List Datum} (h : ∀ d ∈ items, Admits F d)
    (i : Nat) : Yields F (fun ps => ∀ p ∈ ps, p.expr.WellFormed) (properties types i items) := by
  induction items generalizing i with
  | nil => exact List.forall_mem_nil _
  | cons d items ih =>
    obtain ⟨hd, h⟩ := List.forall_mem_cons.1 h
    rw [properties]
    split
    · next entries hu =>
      have he : Admits F (.map entries) := hu ▸ hd.unroll
      split
      · next name e hname hexpr =>
        refine yields_bind (he.entry hname).asText fun name _ => ?_
        refine yields_bind (yields_expr hs (he.entry hexpr)) fun e he => ?_
        exact yields_bind (ih h (i + 1)) fun ps hps => List.forall_mem_cons.2 ⟨he, hps⟩
      · exact hd.malformed ..
    · exact hd.malformed ..

end Spec.Decode

namespace Spec

open Decode

theorem yields_ofDatum {F : Fault → Prop} {d : Datum} (h : Admits F d) : Yields F Spec.WellFormed (ofDatum d) := by
  unfold ofDatum
  split
  · next entries hu =>
    have he : Admits F (.map entries) := hu ▸ h.unroll
    split
    · next items properties hitems hproperties =>
      have hi := he.listOr hitems
      refine yields_bind (yields_streamTypes hi (List.forall_mem_nil _) List.nodup_nil 0) fun types ht => ?_
      obtain ⟨hs, hn, new, rfl, hnew⟩ := ht
      refine yields_bind (yields_streams hs hi hs hnew 0) fun sts hsts => ?_
      refine yields_bind (yields_properties hs (he.listOr hproperties) 0) fun ps hps => ⟨?_, hsts.2, hps⟩
      rw [hsts.1]
      exact hn
    · exact h.malformed ..
  · exact h.malformed ..

theorem wellFormed_ofDatum {d : Datum} {spec : Spec} (h : ofDatum d = .ok spec) : spec.WellFormed := by
  have ha : Admits (fun _ => True) d := ⟨fun _ _ => trivial, fun _ _ => trivial⟩
  have hy := yields_ofDatum ha
  rw [h] at hy
  exact hy

theorem malformed_documents_reported (d : Datum) (h : d.countLoops = 0) :
    (∃ spec, ofDatum d = .ok spec) ∨ (∃ message path, ofDatum d = .error (malformedAt message path)) ∨
      ∃ f, ofDatum d = .error f ∧ Unguarded d f := by
  have hy := yields_ofDatum (F := Explains d) ⟨fun _ => id, fun hl => absurd h hl⟩
  cases ho : ofDatum d with
  | ok spec => exact .inl ⟨spec, rfl⟩
  | error f =>
    rw [ho] at hy
    cases hy with
    | format message path => exact .inr (.inl ⟨message, path, rfl⟩)
    | unguarded hu => exact .inr (.inr ⟨f, rfl, hu⟩)

def streamOf (type : Datum) (buffer : List Datum) (e : Datum) : Datum :=
  .object [("streams", .list [.object [("id", .int 0), ("type", type), ("buffer", .list buffer), ("expr", e)]])]

theorem misspelt_type_reported : (streamOf (.text "Boolean") [] .null).countLoops = 0 ∧
    ∃ message path, ofDatum (streamOf (.text "Boolean") [] .null) = .error (malformedAt message path) := by
  refine ⟨rfl, ?_⟩
  rcases malformed_documents_reported (streamOf (.text "Boolean") [] .null) rfl with ⟨spec, ho⟩ | h | ⟨f, ho, hu⟩
  · cases ho
  · exact h
  · cases ho
    cases hu

theorem unguarded_documents_not_reported :
    let yes : Datum := .object [("const", .bool true), ("type", .text "Bool")]
    ofDatum (streamOf (.text "Double") [.text "abc"] yes) = .error (.floatText "abc") ∧
    ofDatum (streamOf (.object [("struct", .text "p"), ("fields", .null)]) [] yes) = .error .notIterable ∧
    ofDatum (streamOf (.text "Bool") [] (.object [("op", .list [])])) = .error .unusableKey ∧
    ofDatum (streamOf (.text "Bool") [] (.map [(.int 0, .null), (.null, .null)])) = .error .unorderedKeys :=
  ⟨rfl, rfl, rfl, rfl⟩

end Spec

end OneStep
