import OneStep.Proofs.Unknowns

namespace OneStep

namespace Text

def Avoids (bad : Char → Bool) (s : String) : Prop :=
  ∀ c ∈ s.toList, bad c = false

def isPrinted (c : Char) : Bool :=
  32 ≤ c.toNat && c.toNat < 127

def Unprinted (bad : Char → Bool) : Prop :=
  ∀ c, isPrinted c = true → bad c = false

variable {bad : Char → Bool}

theorem avoids_append {s t : String} : Avoids bad (s ++ t) ↔ Avoids bad s ∧ Avoids bad t := by
  simp only [Avoids, String.toList_append, List.mem_append]
  constructor
  · intro h
    exact ⟨fun c hc => h c (.inl hc), fun c hc => h c (.inr hc)⟩
  · rintro ⟨hs, ht⟩ c (hc | hc)
    · exact hs c hc
    · exact ht c hc

theorem avoids_of_all {s : String} (h : (s.toList.all fun c => !bad c) = true) : Avoids bad s :=
  fun c hc => by simpa using List.all_eq_true.1 h c hc

theorem avoids_of_printed (hb : Unprinted bad) {s : String} (h : s.toList.all isPrinted = true) : Avoids bad s :=
  fun c hc => hb c (List.all_eq_true.1 h c hc)

theorem isPrinted_of_isDigit {c : Char} (h : c.isDigit = true) : isPrinted c = true := by
  simp only [Char.isDigit, Bool.and_eq_true, decide_eq_true_eq, ge_iff_le, UInt32.le_iff_toNat_le] at h
  simp only [isPrinted, Bool.and_eq_true, decide_eq_true_eq, Char.toNat]
  have h0 : '0'.val.toNat = 48 := rfl
  have h9 : '9'.val.toNat = 57 := rfl
  omega

theorem isDigit_of_mem_nat {n : Nat} {c : Char} (hc : c ∈ (toString n).toList) : c.isDigit = true := by
  rw [Nat.toString_eq_ofList_toDigits, String.toList_ofList] at hc
  exact Nat.isDigit_of_mem_toDigits (by decide) (by decide) hc

theorem avoids_nat (hb : Unprinted bad) (n : Nat) : Avoids bad (toString n) :=
  fun c hc => hb c (isPrinted_of_isDigit (isDigit_of_mem_nat hc))

theorem avoids_int (hb : Unprinted bad) (n : Int) : Avoids bad (toString n) := by
  cases n with
  | ofNat n => exact avoids_nat hb n
  | negSucc n => exact avoids_append.2 ⟨avoids_of_printed hb (by decide), avoids_nat hb (n + 1)⟩

end Text

theorem Supply.avoids_plainHint {bad : Char → Bool} (hb : Text.Unprinted bad) {afterMask : Bool} {cs : List Char}
    (h : ∀ c ∈ cs, bad c = false) : ∀ c ∈ plainHint afterMask cs, bad c = false := by
  induction cs generalizing afterMask with
  | nil => simp [plainHint]
  | cons c cs ih =>
    have hcs := fun c hc => h c (List.mem_cons_of_mem _ hc)
    rw [plainHint]
    split
    · split
      · exact ih hcs
      · exact List.forall_mem_cons.2 ⟨hb '_' (by decide), ih hcs⟩
    · exact List.forall_mem_cons.2 ⟨h c (List.mem_cons_self ..), ih hcs⟩

theorem Supply.avoids_hintText {bad : Char → Bool} (hb : Text.Unprinted bad) {hint : String}
    (h : Text.Avoids bad hint) : Text.Avoids bad (hintText hint) := by
  simp only [hintText]
  split
  · exact Text.avoids_of_printed hb (by decide)
  · unfold Text.Avoids
    rw [String.toList_ofList]
    exact avoids_plainHint hb h

def isZero (c : Char) : Bool :=
  c == '\x00'

theorem isZero_unprinted : Text.Unprinted isZero := by
  intro c hc
  simp only [Text.isPrinted, Bool.and_eq_true, decide_eq_true_eq] at hc
  simp only [isZero, beq_eq_false_iff_ne, ne_eq]
  rintro rfl
  exact absurd hc.1 (by decide)

theorem avoids_isZero {s : String} : Text.Avoids isZero s ↔ '\x00' ∉ s.toList := by
  simp only [Text.Avoids, isZero, beq_eq_false_iff_ne, ne_eq]
  constructor
  · intro h hc
    exact h _ hc rfl
  · rintro h c hc rfl
    exact h hc

theorem Symbol.ofHint_of_avoids {hint : String} (h : Text.Avoids isZero hint) (i : Nat) :
    ofHint hint i = ⟨hint, some i⟩ := by
  have hz : hint.toList.contains '\x00' = false := by
    simpa only [List.contains_eq_mem, decide_eq_false_iff_not] using avoids_isZero.1 h
  simp only [ofHint, hz, Bool.false_eq_true, if_false]

mutual

def StreamType.names : StreamType → List String
  | .array _ element => element.names
  | .struct _ fields => StreamType.fieldNames fields
  | _ => []

def StreamType.fieldNames : List (String × StreamType) → List String
  | [] => []
  | (name, t) :: fields => name :: t.names ++ StreamType.fieldNames fields

end

def Expr.gather {α : Type} (f : Expr → List α) : Expr → List α
  | .unary t op arg field => f (.unary t op arg field) ++ arg.gather f
  | .binary t op left right => f (.binary t op left right) ++ left.gather f ++ right.gather f
  | .ternary t op first second third =>
    f (.ternary t op first second third) ++ first.gather f ++ second.gather f ++ third.gather f
  | .letIn t name boundType bound body =>
    f (.letIn t name boundType bound body) ++ bound.gather f ++ body.gather f
  | .label t text body => f (.label t text body) ++ body.gather f
  | e => f e

def Expr.names : Expr → List String :=
  gather fun
    | .input t name => name :: t.names
    | .binary t .index _ _ => t.names
    | _ => []

def Expr.inputs : Expr → List (String × StreamType) :=
  gather fun
    | .input t name => [(name, t)]
    | _ => []

def Expr.streams : Expr → List Int :=
  gather fun
    | .drop _ _ id => [id]
    | _ => []

def Spec.exprs (spec : Spec) : List Expr :=
  spec.streams.map (·.expr) ++ spec.properties.map (·.expr)

def Spec.names (spec : Spec) : List String :=
  spec.streams.flatMap (·.type.names) ++ spec.exprs.flatMap Expr.names

theorem StreamType.mem_fieldNames {fields : List (String × StreamType)} {f : String × StreamType} (hf : f ∈ fields) :
    f.1 ∈ fieldNames fields ∧ ∀ name ∈ f.2.names, name ∈ fieldNames fields := by
  induction fields with
  | nil => cases hf
  | cons g fields ih =>
    obtain ⟨name, t⟩ := g
    simp only [fieldNames, List.cons_append, List.mem_cons, List.mem_append]
    rcases List.mem_cons.1 hf with rfl | hf
    · exact ⟨.inl rfl, fun _ h => .inr (.inl h)⟩
    · exact ⟨.inr (.inr (ih hf).1), fun name' h => .inr (.inr ((ih hf).2 name' h))⟩

def Expr.Avoids (bad : Char → Bool) (e : Expr) : Prop :=
  ∀ name ∈ e.names, Text.Avoids bad name

namespace Expr.Avoids

variable {bad : Char → Bool} {t : StreamType}

theorem inputName {name : String} (h : (Expr.input t name).Avoids bad) : Text.Avoids bad name :=
  h name (List.mem_cons_self ..)

theorem inputType {name : String} (h : (Expr.input t name).Avoids bad) : ∀ name ∈ t.names, Text.Avoids bad name :=
  fun name hn => h name (List.mem_cons_of_mem _ hn)

theorem arg {op : UnaryOp} {arg : Expr} {field : Datum} (h : (Expr.unary t op arg field).Avoids bad) :
    arg.Avoids bad :=
  fun name hn => h name (List.mem_append_right _ hn)

theorem left {op : BinaryOp} {left right : Expr} (h : (Expr.binary t op left right).Avoids bad) : left.Avoids bad :=
  fun name hn => h name (List.mem_append_left _ (List.mem_append_right _ hn))

theorem right {op : BinaryOp} {left right : Expr} (h : (Expr.binary t op left right).Avoids bad) : right.Avoids bad :=
  fun name hn => h name (List.mem_append_right _ hn)

theorem element {left right : Expr} (h : (Expr.binary t .index left right).Avoids bad) :
    ∀ name ∈ t.names, Text.Avoids bad name :=
  fun name hn => h name (List.mem_append_left _ (List.mem_append_left _ hn))

theorem first {op : TernaryOp} {first second third : Expr} (h : (Expr.ternary t op first second third).Avoids bad) :
    first.Avoids bad :=
  fun name hn => h name (List.mem_append_left _ (List.mem_append_left _ (List.mem_append_right _ hn)))

theorem second {op : TernaryOp} {first second third : Expr} (h : (Expr.ternary t op first second third).Avoids bad) :
    second.Avoids bad :=
  fun name hn => h name (List.mem_append_left _ (List.mem_append_right _ hn))

theorem third {op : TernaryOp} {first second third : Expr} (h : (Expr.ternary t op first second third).Avoids bad) :
    third.Avoids bad :=
  fun name hn => h name (List.mem_append_right _ hn)

end Expr.Avoids

namespace Spec

variable {bad : Char → Bool} {spec : Spec}

theorem avoids_expr (h : ∀ name ∈ spec.names, Text.Avoids bad name) {e : Expr} (he : e ∈ spec.exprs) : e.Avoids bad :=
  fun name hn => h name (List.mem_append_right _ (List.mem_flatMap.2 ⟨e, he, hn⟩))

theorem avoids_stream (h : ∀ name ∈ spec.names, Text.Avoids bad name) {st : Stream} (hst : st ∈ spec.streams) :
    (∀ name ∈ st.type.names, Text.Avoids bad name) ∧ st.expr.Avoids bad :=
  ⟨fun name hn => h name (List.mem_append_left _ (List.mem_flatMap.2 ⟨st, hst, hn⟩)),
    avoids_expr h (List.mem_append_left _ (List.mem_map_of_mem hst))⟩

theorem avoids_property (h : ∀ name ∈ spec.names, Text.Avoids bad name) {p : Property} (hp : p ∈ spec.properties) :
    p.expr.Avoids bad :=
  avoids_expr h (List.mem_append_right _ (List.mem_map_of_mem hp))

end Spec

namespace Supply

variable {bad : Char → Bool}

structure Avoids (bad : Char → Bool) (t : StreamType) (hint : String) : Prop where
  hint : Text.Avoids bad hint
  names : ∀ name ∈ t.names, Text.Avoids bad name

theorem avoids_itemHints (hb : Text.Unprinted bad) {length : Nat} {element : StreamType} {hint : String}
    (h : Avoids bad (.array length element) hint) : ∀ p ∈ itemHints length element hint, Avoids bad p.1 p.2 := by
  intro p hp
  obtain ⟨i, _, rfl⟩ := List.mem_map.1 hp
  refine ⟨?_, h.names⟩
  simp only [Text.avoids_append]
  exact ⟨⟨⟨h.hint, Text.avoids_of_printed hb (by decide)⟩, Text.avoids_nat hb i⟩, Text.avoids_of_printed hb (by decide)⟩

theorem avoids_fieldHints (hb : Text.Unprinted bad) {name : String} {fields : List (String × StreamType)}
    {hint : String} (h : Avoids bad (.struct name fields) hint) :
    ∀ p ∈ fieldHints fields hint, Avoids bad p.1 p.2 := by
  intro p hp
  obtain ⟨f, hf, rfl⟩ := List.mem_map.1 hp
  have hn := StreamType.mem_fieldNames hf
  refine ⟨?_, fun name hname => h.names name (hn.2 name hname)⟩
  simp only [Text.avoids_append]
  exact ⟨⟨h.hint, Text.avoids_of_printed hb (by decide)⟩, h.names f.1 hn.1⟩

theorem avoids_pastHint (hb : Text.Unprinted bad) {t : StreamType} (id o : Int)
    (h : ∀ name ∈ t.names, Text.Avoids bad name) : Avoids bad t (Encoding.pastHint id o) := by
  refine ⟨?_, h⟩
  simp only [Encoding.pastHint, Text.avoids_append]
  exact ⟨⟨⟨Text.avoids_of_printed hb (by decide), Text.avoids_int hb id⟩, Text.avoids_of_printed hb (by decide)⟩,
    Text.avoids_int hb o⟩

theorem avoids_inputHint (hb : Text.Unprinted bad) {name : String} {t : StreamType} (o : Int)
    (hn : Text.Avoids bad name) (h : ∀ name ∈ t.names, Text.Avoids bad name) :
    Avoids bad t (Encoding.inputHint name o) := by
  refine ⟨?_, h⟩
  simp only [Encoding.inputHint, Text.avoids_append]
  exact ⟨⟨hn, Text.avoids_of_printed hb (by decide)⟩, Text.avoids_int hb o⟩

theorem avoids_outsideHint (hb : Text.Unprinted bad) {t : StreamType} (h : ∀ name ∈ t.names, Text.Avoids bad name) :
    Avoids bad t "index_out_of_range" :=
  ⟨Text.avoids_of_printed hb (by decide), h⟩

end Supply

end OneStep
