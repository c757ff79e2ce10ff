import OneStep.Proofs.Faults
import OneStep.Proofs.Integers

namespace OneStep

namespace Datum

-- a collection may contain itself, so that its items show in its unrolled form only
inductive Lists (d : Datum) (items : List Datum) : Prop where
  | list (h : d.unroll = .list items)
  | tuple (h : d.unroll = .tuple items)

inductive Orders (d : Datum) : List Datum → Prop where
  | items {items : List Datum} (h : d.Lists items) : Orders d items
  | characters {s : String} (h : d.unroll = .text s) : Orders d (s.toList.map fun c => .text c.toString)
  | numbers {content : List UInt8} (h : d.unroll = .bytes content) : Orders d (content.map fun b => .int b.toNat)

inductive Gives (fields : List (String × StreamType)) (d : Datum) (values : List Datum) : Prop where
  | named {entries : List (Datum × Datum)} (hd : d.unroll = .map entries)
      (hv : List.Forall₂ (fun f x => Datum.find? entries f.1 = some x) fields values)
  | ordered (hd : d.Orders values) (hl : values.length = fields.length)

theorem Gives.length_eq {fields : List (String × StreamType)} {d : Datum} {values : List Datum}
    (h : Gives fields d values) : values.length = fields.length := by
  cases h with
  | named _ hv => exact hv.length_eq.symm
  | ordered _ hl => exact hl

end Datum

namespace Constant

inductive Fits : StreamType → Datum → List Datum → Prop where
  | bool (b : Bool) : Fits .bool (.bool b) [.bool b]
  | int {w : Width} {n : Int} (h : Words.InRange true w.size n) : Fits (.int w.size) (.int n) [.int n]
  | word {w : Width} {n : Int} (h : Words.InRange false w.size n) : Fits (.word w.size) (.int n) [.int n]
  | whole (p : Precision) (n : Int) : Fits (.float p.size) (.int n) [.int n]
  | float (p : Precision) (x : Binary .double) : Fits (.float p.size) (.float x) [.float x]
  | empty (element : StreamType) (d : Datum) : Fits (.array 0 element) d []
  | array {length : Nat} {element : StreamType} {d : Datum} {items : List Datum} {scalars : List (List Datum)}
      (hz : length ≠ 0) (hd : d.Lists items) (hl : items.length = length)
      (h : List.Forall₂ (fun p s => Fits p.1 p.2 s) (items.map (element, ·)) scalars) :
      Fits (.array length element) d scalars.flatten
  | struct {name : String} {fields : List (String × StreamType)} {d : Datum} {values : List Datum}
      {scalars : List (List Datum)} (hd : d.Gives fields values)
      (h : List.Forall₂ (fun p s => Fits p.1.2 p.2 s) (fields.zip values) scalars) :
      Fits (.struct name fields) d scalars.flatten

inductive ReadsAs : (s : Scalar) × Term s.kind → Datum → Prop where
  | bool (b : Bool) : ReadsAs ⟨.bool, .bool b⟩ (.bool b)
  | int {w : Width} (x : BitVec w.size) : ReadsAs ⟨.int w, .bits x⟩ (.int x.toInt)
  | word {w : Width} (x : BitVec w.size) : ReadsAs ⟨.word w, .bits x⟩ (.int x.toNat)
  | float {p : Precision} (x : Binary p) (d : Datum) : ReadsAs ⟨.float p, .float x⟩ d

def Refused (t : StreamType) (d : Datum) (f : Fault) : Prop :=
  (∃ expected actual, f = mismatch "encode_constant" expected actual) ∨
    f = .unwritable ∧ ¬(t.isWritten = true ∧ d.isWritable = true)

theorem elements?_eq_some_iff {d : Datum} {items : List Datum} : elements? d = some items ↔ d.Lists items := by
  unfold elements?
  constructor
  · intro h
    split at h
    · next hd => cases h; exact .list hd
    · next hd => cases h; exact .tuple hd
    · cases h
  · rintro (h | h) <;> rw [h]

theorem sequence?_eq_some_iff {d : Datum} {values : List Datum} : sequence? d = some values ↔ d.Orders values := by
  unfold sequence?
  constructor
  · intro h
    split at h
    · next hd => cases h; exact .items (.list hd)
    · next hd => cases h; exact .items (.tuple hd)
    · next hd => cases h; exact .characters hd
    · next hd => cases h; exact .numbers hd
    · cases h
  · rintro ((h | h) | h | h) <;> rw [h]

theorem fieldValues_eq_ok_iff_gives {t : StreamType} {fields : List (String × StreamType)} {d : Datum}
    {values : List Datum} : fieldValues t fields d = .ok values ↔ d.Gives fields values := by
  rw [fieldValues_eq_ok_iff]
  by_cases hd : ∃ entries, d.unroll = .map entries
  · obtain ⟨entries, hd⟩ := hd
    rw [fieldData_of_map hd, Outcome.mapM_eq_some_iff]
    constructor
    · exact fun h => .named hd h.1
    · rintro (⟨hd', h⟩ | ⟨(h | h) | h | h, _⟩)
      · rw [hd] at hd'
        cases hd'
        exact ⟨h, h.length_eq.symm⟩
      all_goals rw [hd] at h; cases h
  · rw [fieldData_of_sequence fun entries he => hd ⟨entries, he⟩, sequence?_eq_some_iff]
    constructor
    · exact fun h => .ordered h.1 h.2
    · rintro (⟨he, _⟩ | ⟨h, hl⟩)
      · exact absurd ⟨_, he⟩ hd
      · exact ⟨h, hl⟩

theorem encode_empty (element : StreamType) (d : Datum) : encode (.array 0 element) d = .ok (.array []) := by
  rw [encode, if_pos rfl]

theorem encode_array_eq_ok_iff {length : Nat} {element : StreamType} {d : Datum} {v : SymValue} (hz : length ≠ 0) :
    encode (.array length element) d = .ok v ↔ ∃ items vs, d.Lists items ∧ items.length = length ∧
      List.Forall₂ (fun d v => encode element d = .ok v) items vs ∧ v = .array vs := by
  rw [encode, if_neg hz]
  cases hi : elements? d with
  | none =>
    refine iff_of_false refuseDatum_ne_ok ?_
    rintro ⟨items, _, hd, _⟩
    rw [elements?_eq_some_iff.2 hd] at hi
    cases hi
  | some items =>
    constructor
    · intro h
      dsimp only at h
      split at h
      · next hl =>
        obtain ⟨vs, hvs, h⟩ := Outcome.bind_eq_ok_iff.1 h
        cases h
        exact ⟨items, vs, elements?_eq_some_iff.1 hi, hl, Outcome.mapM_eq_ok_iff.1 hvs, rfl⟩
      · exact absurd h refuseDatum_ne_ok
    · rintro ⟨items', vs, hd, hl, hvs, rfl⟩
      rw [elements?_eq_some_iff.2 hd] at hi
      cases hi
      dsimp only
      rw [if_pos hl]
      exact Outcome.bind_eq_ok_iff.2 ⟨vs, Outcome.mapM_eq_ok_iff.2 hvs, rfl⟩

theorem encode_struct_eq_ok_iff {name : String} {fields : List (String × StreamType)} {d : Datum} {v : SymValue} :
    encode (.struct name fields) d = .ok v ↔ ∃ values vs, d.Gives fields values ∧
      List.Forall₂ (fun p v => encode p.1.2 p.2 = .ok v) (fields.zip values) vs ∧ v = .struct vs := by
  rw [encode, Outcome.bind_eq_ok_iff]
  constructor
  · rintro ⟨values, hv, h⟩
    obtain ⟨vs, hvs, h⟩ := Outcome.bind_eq_ok_iff.1 h
    cases h
    have hg := fieldValues_eq_ok_iff_gives.1 hv
    exact ⟨values, vs, hg, (encodeFields_eq_ok_iff hg.length_eq).1 hvs, rfl⟩
  · rintro ⟨values, vs, hg, hvs, rfl⟩
    exact ⟨values, fieldValues_eq_ok_iff_gives.2 hg,
      Outcome.bind_eq_ok_iff.2 ⟨vs, (encodeFields_eq_ok_iff hg.length_eq).2 hvs, rfl⟩⟩

theorem inInt_iff {w : Width} {n : Int} : Data.inInt w n = true ↔ Words.InRange true w.size n := by
  simp [Data.inInt, Words.InRange]

theorem inWord_iff {w : Width} {n : Int} : Data.inWord w n = true ↔ Words.InRange false w.size n := by
  simp [Data.inWord, Words.InRange]

theorem encodeFloat_size (p : Precision) (x : Binary .double) :
    ∃ y, encodeFloat p.size x = .ok (.scalar (.float p) (.float y)) := by
  cases p
  · exact ⟨_, rfl⟩
  · exact ⟨_, rfl⟩

theorem readsAs_leavesOf {α : Type} {xs : List α} {scalars : List (List Datum)} {Enc : α → SymValue → Prop}
    {Fit : α → List Datum → Prop} (h : List.Forall₂ Fit xs scalars)
    (he : ∀ x ∈ xs, ∀ s, Fit x s → ∃ v, Enc x v ∧ List.Forall₂ ReadsAs v.leaves s) :
    ∃ vs, List.Forall₂ Enc xs vs ∧ List.Forall₂ ReadsAs (Value.leavesOf vs) scalars.flatten := by
  induction h with
  | nil => exact ⟨[], .nil, .nil⟩
  | @cons x s xs scalars hx _ ih =>
    obtain ⟨v, hv, hs⟩ := he x (List.mem_cons_self ..) s hx
    obtain ⟨vs, hvs, hss⟩ := ih fun y hy => he y (List.mem_cons_of_mem _ hy)
    exact ⟨v :: vs, .cons hv hvs, List.rel_append hs hss⟩

theorem encode_of_fits {t : StreamType} {d : Datum} {scalars : List Datum} (h : Fits t d scalars) :
    ∃ v, encode t d = .ok v ∧ List.Forall₂ ReadsAs v.leaves scalars := by
  induction t using StreamType.shape_induction generalizing d scalars with
  | unknown => cases h
  | bool =>
    cases h with
    | bool b => exact ⟨.scalar .bool (.bool b), by rw [encode], .cons (.bool b) .nil⟩
  | int bits =>
    cases h with
    | @int w n h =>
      refine ⟨.scalar (.int w) (.bits (BitVec.ofInt w.size n)), ?_, .cons ?_ .nil⟩
      · rw [encode]
        exact encodeInt_eq_ok_iff.2 ⟨w, Width.ofSize?_size w, inInt_iff.2 h, rfl⟩
      · have hn : (BitVec.ofInt w.size n).toInt = n := Words.readBits_ofInt_of_inRange w.size_pos h
        have hs := ReadsAs.int (BitVec.ofInt w.size n)
        rwa [hn] at hs
  | word bits =>
    cases h with
    | @word w n h =>
      refine ⟨.scalar (.word w) (.bits (BitVec.ofInt w.size n)), ?_, .cons ?_ .nil⟩
      · rw [encode]
        exact encodeWord_eq_ok_iff.2 ⟨w, Width.ofSize?_size w, inWord_iff.2 h, rfl⟩
      · have hn : ((BitVec.ofInt w.size n).toNat : Int) = n := Words.readBits_ofInt_of_inRange w.size_pos h
        have hs := ReadsAs.word (BitVec.ofInt w.size n)
        rwa [hn] at hs
  | float bits =>
    cases h with
    | whole p n =>
      obtain ⟨y, hy⟩ := encodeFloat_size p (Binary.ofInt n)
      exact ⟨.scalar (.float p) (.float y), by rw [encode]; exact hy, .cons (.float y _) .nil⟩
    | float p x =>
      obtain ⟨y, hy⟩ := encodeFloat_size p x
      exact ⟨.scalar (.float p) (.float y), by rw [encode]; exact hy, .cons (.float y _) .nil⟩
  | array length element ih =>
    cases h with
    | empty => exact ⟨.array [], encode_empty element d, .nil⟩
    | @array _ _ _ items scalars hz hd hl h =>
      obtain ⟨vs, hvs, hs⟩ := readsAs_leavesOf (List.forall₂_map_left_iff.1 h) fun _ _ _ hf => ih hf
      exact ⟨.array vs, (encode_array_eq_ok_iff hz).2 ⟨items, vs, hd, hl, hvs, rfl⟩, hs⟩
  | struct name fields ih =>
    cases h with
    | @struct _ _ _ values scalars hd h =>
      obtain ⟨vs, hvs, hs⟩ := readsAs_leavesOf h fun p hp _ hf => ih p.1 (List.of_mem_zip hp).1 hf
      exact ⟨.struct vs, encode_struct_eq_ok_iff.2 ⟨values, vs, hd, hvs, rfl⟩, hs⟩

theorem fits_of_double {p : Precision} {d : Datum} {x : Binary .double} (h : Data.double? d = some x) :
    ∃ scalars, Fits (.float p.size) d scalars := by
  cases d <;> cases h
  · exact ⟨_, .whole p _⟩
  · exact ⟨_, .float p _⟩

theorem fits_of_encode {t : StreamType} {d : Datum} {v : SymValue} (h : encode t d = .ok v) :
    ∃ scalars, Fits t d scalars := by
  refine encode_induction (motive := fun t d _ => ∃ scalars, Fits t d scalars)
    ?bool ?int ?word ?single ?double ?empty ?array ?struct h
  case bool => exact fun b => ⟨_, .bool b⟩
  case int => exact fun w n hn => ⟨_, .int (inInt_iff.1 hn)⟩
  case word => exact fun w n hn => ⟨_, .word (inWord_iff.1 hn)⟩
  case single => exact fun d x hx => fits_of_double (p := .single) hx
  case double => exact fun d x hx => fits_of_double (p := .double) hx
  case empty => exact fun element d => ⟨[], .empty element d⟩
  case array =>
    intro element d items vs hz hi hvs
    have hf : ∀ x ∈ items, ∃ s, Fits element x s := by
      intro x hx
      obtain ⟨_, _, hs⟩ := Outcome.forall₂_exists_of_mem hvs hx
      exact hs
    obtain ⟨scalars, hs⟩ := Outcome.exists_forall₂ hf
    exact ⟨_, .array hz (elements?_eq_some_iff.1 hi) rfl (List.forall₂_map_left_iff.2 hs)⟩
  case struct =>
    intro name fields d values vs hd hl hvs
    have hf : ∀ p ∈ fields.zip values, ∃ s, Fits p.1.2 p.2 s := by
      intro p hp
      obtain ⟨_, _, hs⟩ := Outcome.forall₂_exists_of_mem hvs hp
      exact hs
    obtain ⟨scalars, hs⟩ := Outcome.exists_forall₂ hf
    have hg : d.Gives fields values :=
      (fieldValues_eq_ok_iff_gives (t := .struct name fields)).1 (fieldValues_eq_ok_iff.2 ⟨hd, hl⟩)
    exact ⟨_, .struct hg hs⟩

theorem symbols_of_readsAs {v : SymValue} {scalars : List Datum} (h : List.Forall₂ ReadsAs v.leaves scalars) :
    v.symbols = [] := by
  rw [SymValue.symbols, List.flatMap_eq_nil_iff]
  intro leaf hl
  obtain ⟨_, _, hs⟩ := Outcome.forall₂_exists_of_mem h hl
  cases hs <;> rfl

theorem run_encode_const {registry : Registry} {t : StreamType} {d : Datum} {v : SymValue} (h : encode t d = .ok v)
    {o : Int} (ho : o ≤ 0) (s : Encoder) : (Encoding.encode registry (.const t d) o).run s = (.ok v, s) := by
  rw [Encoding.encode, Encoding.encodeAt_eq, if_neg (by omega), Encoding.encodeWith]
  exact Outcome.run_lift_eq_ok_iff.2 ⟨h, rfl⟩

theorem meets_encode_refused {t : StreamType} (hk : t.isKnown = true) (d : Datum) :
    Outcome.Meets (Refused t d) (encode t d) := by
  have hr : ∀ expected actual, Refused t d (mismatch "encode_constant" expected actual) :=
    fun expected actual => .inl ⟨expected, actual, rfl⟩
  by_cases hw : t.isWritten = true ∧ d.isWritable = true
  · exact meets_encode hr (.inl hk) (.inl hw.1) (.inl hw.2)
  · have hu : Refused t d .unwritable := .inr ⟨rfl, hw⟩
    exact meets_encode hr (.inl hk) (.inr hu) (.inr hu)

theorem constants_exact {t : StreamType} (hk : t.isKnown = true) (d : Datum) :
    ((∃ v, encode t d = .ok v) ↔ ∃ scalars, Fits t d scalars) ∧
    (∀ v, encode t d = .ok v → v.Conforms t ∧
      (∀ scalars, Fits t d scalars → List.Forall₂ ReadsAs v.leaves scalars) ∧
      -- no symbol is in it and none is drawn for it
      v.symbols = [] ∧ ∀ registry o s, o ≤ 0 → (Encoding.encode registry (.const t d) o).run s = (.ok v, s)) ∧
    ∀ f, encode t d = .error f → Refused t d f := by
  refine ⟨⟨fun ⟨v, hv⟩ => fits_of_encode hv, fun ⟨scalars, hs⟩ => ?_⟩, fun v hv => ?_, fun f hf => ?_⟩
  · obtain ⟨v, hv, _⟩ := encode_of_fits hs
    exact ⟨v, hv⟩
  · have hread : ∀ scalars, Fits t d scalars → List.Forall₂ ReadsAs v.leaves scalars := by
      intro scalars hs
      obtain ⟨u, hu, hl⟩ := encode_of_fits hs
      rw [hv] at hu
      cases hu
      exact hl
    obtain ⟨scalars, hs⟩ := fits_of_encode hv
    exact ⟨encode_conforms hv, hread, symbols_of_readsAs (hread scalars hs), fun _ _ s ho => run_encode_const hv ho s⟩
  · have hm := meets_encode_refused hk d
    rw [hf] at hm
    exact hm

def bounds : StreamType :=
  .struct "bounds" [("range", .array 2 (.int 8)), ("closed", .bool)]

def extremes : Datum :=
  .map [(.text "closed", .bool true), (.text "unit", .null), (.text "range", .tuple [.int (-128), .int 127])]

theorem fits_extremes : Fits bounds extremes [.int (-128), .int 127, .bool true] := by
  have hn : ∀ n : Int, Words.InRange true 8 n → Fits (.int 8) (.int n) [.int n] := fun n h => .int (w := .w8) h
  have ha : Fits (.array 2 (.int 8)) (.tuple [.int (-128), .int 127]) (List.flatten [[.int (-128)], [.int 127]]) :=
    .array (by decide) (.tuple rfl) rfl (.cons (hn _ ⟨by decide, by decide⟩) (.cons (hn _ ⟨by decide, by decide⟩) .nil))
  have hs : Fits bounds extremes (List.flatten [[.int (-128), .int 127], [.bool true]]) :=
    .struct (.named rfl (.cons rfl (.cons rfl .nil))) (.cons ha (.cons (.bool true) .nil))
  exact hs

theorem extremes_exact : bounds.isKnown = true ∧ ∃ v, encode bounds extremes = .ok v ∧ v.Conforms bounds ∧
    List.Forall₂ ReadsAs v.leaves [.int (-128), .int 127, .bool true] := by
  have he := @constants_exact bounds rfl extremes
  obtain ⟨v, hv⟩ := he.1.2 ⟨_, fits_extremes⟩
  obtain ⟨hc, hs, _⟩ := he.2.1 v hv
  exact ⟨rfl, v, hv, hc, hs _ fits_extremes⟩

theorem long_integer_not_refused : StreamType.bool.isKnown = true ∧
    (¬∃ scalars, Fits .bool (.int (16 ^ 3600 - 1)) scalars) ∧
    encode .bool (.int (16 ^ 3600 - 1)) = .error .unwritable := by
  refine ⟨rfl, ?_, ?_⟩
  · rintro ⟨_, hf⟩
    cases hf
  · have hd : (Datum.int (16 ^ 3600 - 1)).describe = .error .unwritable := by
      rw [Datum.describe, Datum.isWritable, Encoding.not_isWritable_hex]
      rfl
    simp only [encode, hd]
    rfl

end Constant

end OneStep
