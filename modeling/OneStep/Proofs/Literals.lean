import OneStep.Proofs.Calculus
import OneStep.Proofs.Encoded

namespace OneStep.Binary

theorem eq_infinity_of_not_isFinite {p : Precision} {negative : Bool} {rank : Nat} {h : rank ≤ p.top}
    (hf : (number negative rank h).isFinite = false) : number negative rank h = infinity negative := by
  have hr : rank = p.top := by simpa [isFinite] using hf
  subst hr
  rfl

-- a rounding that overflows already gives the infinity of the number's sign
theorem toSingle_eq_convert (x : Binary .double) : x.toSingle = x.convert := by
  unfold toSingle pack?
  by_cases h : x.isFinite = true ∧ (x.convert : Binary .single).isFinite = false
  · obtain ⟨hx, hy⟩ := h
    cases x with
    | nan => cases hx
    | number negative rank hr =>
      have hne : rank ≠ Precision.double.top := by simpa [isFinite] using hx
      simp only [convert, if_neg hne, ofQuotient] at hy ⊢
      rw [eq_infinity_of_not_isFinite hy, hx]
      rfl
  · have hb : (x.isFinite && !(x.convert : Binary .single).isFinite) = false := by simpa using h
    simp [hb]

end OneStep.Binary

namespace OneStep.Constant

variable {model : FloatModel} {ρ : Assignment}

theorem inRange_eq_ok_iff {t : StreamType} {low high n : Int} {u : Unit} :
    inRange t low high n = .ok u ↔ low ≤ n ∧ n ≤ high := by
  unfold inRange
  split
  · next h => simp [h]
  · next h =>
    simp only [h, iff_false]
    intro hc
    obtain ⟨_, _, hc⟩ := Outcome.bind_eq_ok_iff.1 hc
    obtain ⟨_, _, hc⟩ := Outcome.bind_eq_ok_iff.1 hc
    obtain ⟨_, _, hc⟩ := Outcome.bind_eq_ok_iff.1 hc
    obtain ⟨_, _, hc⟩ := Outcome.bind_eq_ok_iff.1 hc
    cases hc

theorem power_of_width (w : Width) : power w.size = .ok (2 ^ w.size) := by
  cases w <;> rfl

theorem power_of_half_width (w : Width) : power (w.size - 1) = .ok (2 ^ (w.size - 1)) := by
  cases w <;> rfl

theorem encodeInt_eq_ok_iff {bits n : Int} {v : SymValue} :
    encodeInt bits n = .ok v ↔ ∃ w, Width.ofSize? bits = some w ∧ Data.inInt w n = true ∧
      v = .scalar (.int w) (.bits (BitVec.ofInt w.size n)) := by
  unfold encodeInt
  cases hw : Width.ofSize? bits with
  | none =>
    simp only [reduceCtorEq, false_and, exists_false, iff_false]
    intro h
    obtain ⟨_, _, h⟩ := Outcome.bind_eq_ok_iff.1 h
    obtain ⟨_, _, h⟩ := Outcome.bind_eq_ok_iff.1 h
    obtain ⟨_, _, h⟩ := Outcome.bind_eq_ok_iff.1 h
    cases h
  | some w =>
    obtain rfl := Width.eq_size_of_ofSize? hw
    simp only [Outcome.bind_eq_ok_iff, power_of_half_width, Except.ok.injEq, exists_eq_left', inRange_eq_ok_iff,
      Option.some.injEq, Data.inInt, Bool.and_eq_true, decide_eq_true_eq, pure, Except.pure]
    constructor
    · rintro ⟨_, h, rfl⟩
      exact ⟨⟨h.1, by omega⟩, rfl⟩
    · rintro ⟨⟨h, h'⟩, rfl⟩
      exact ⟨(), ⟨h, by omega⟩, rfl⟩

theorem encodeWord_eq_ok_iff {bits n : Int} {v : SymValue} :
    encodeWord bits n = .ok v ↔ ∃ w, Width.ofSize? bits = some w ∧ Data.inWord w n = true ∧
      v = .scalar (.word w) (.bits (BitVec.ofInt w.size n)) := by
  unfold encodeWord
  cases hw : Width.ofSize? bits with
  | none =>
    simp only [reduceCtorEq, false_and, exists_false, iff_false]
    intro h
    obtain ⟨_, _, h⟩ := Outcome.bind_eq_ok_iff.1 h
    obtain ⟨_, _, h⟩ := Outcome.bind_eq_ok_iff.1 h
    obtain ⟨_, _, h⟩ := Outcome.bind_eq_ok_iff.1 h
    cases h
  | some w =>
    obtain rfl := Width.eq_size_of_ofSize? hw
    simp only [Outcome.bind_eq_ok_iff, power_of_width, Except.ok.injEq, exists_eq_left', inRange_eq_ok_iff,
      Option.some.injEq, Data.inWord, Bool.and_eq_true, decide_eq_true_eq, pure, Except.pure]
    constructor
    · rintro ⟨_, h, rfl⟩
      exact ⟨⟨h.1, by omega⟩, rfl⟩
    · rintro ⟨⟨h, h'⟩, rfl⟩
      exact ⟨(), ⟨h, by omega⟩, rfl⟩

theorem encodeFloat_eq_ok_iff {bits : Int} {x : Binary .double} {v : SymValue} :
    encodeFloat bits x = .ok v ↔ bits = 32 ∧ v = .scalar (.float .single) (.float x.convert) ∨
      bits = 64 ∧ v = .scalar (.float .double) (.float x) := by
  unfold encodeFloat
  rw [Binary.toSingle_eq_convert]
  split
  · next h => simp [h, eq_comm]
  · next h => split <;> simp [*, eq_comm]

theorem encodeFloat_of_ofDouble {bits : Int} {x : Binary .double} {d : Data} (h : Data.ofDouble bits x = some d) :
    ∃ v, encodeFloat bits x = .ok v := by
  unfold Data.ofDouble at h
  split at h
  · next hb => exact ⟨_, encodeFloat_eq_ok_iff.2 (.inl ⟨hb, rfl⟩)⟩
  · split at h
    · next hb => exact ⟨_, encodeFloat_eq_ok_iff.2 (.inr ⟨hb, rfl⟩)⟩
    · cases h

theorem missingFields_isEmpty_iff {fields : List (String × StreamType)} {entries : List (Datum × Datum)} :
    (missingFields fields entries).isEmpty = true ↔ ∀ f ∈ fields, (Datum.find? entries f.1).isSome = true := by
  simp [missingFields, List.filter_eq_nil_iff, Option.isSome_iff_ne_none]

theorem mapM_eq_some_iff_filterMap {α β : Type} {g : α → Option β} {xs : List α} {ys : List β} :
    xs.mapM g = some ys ↔ (∀ x ∈ xs, (g x).isSome = true) ∧ xs.filterMap g = ys := by
  induction xs generalizing ys with
  | nil => simp
  | cons x xs ih =>
    cases hx : g x with
    | none => simp [hx]
    | some y =>
      simp only [List.mapM_cons, hx, Option.bind_eq_bind, Option.bind_some, Option.bind_eq_some_iff, ih,
        List.forall_mem_cons, Option.isSome_some, true_and, List.filterMap_cons_some hx]
      constructor
      · rintro ⟨zs, ⟨h, rfl⟩, he⟩
        exact ⟨h, Option.some.inj he⟩
      · rintro ⟨h, rfl⟩
        exact ⟨_, ⟨h, rfl⟩, rfl⟩

theorem refuseDatum_ne_ok {α : Type} {t : StreamType} {d : Datum} {a : α} : refuseDatum t d ≠ .ok a := by
  intro h
  obtain ⟨_, _, h⟩ := Outcome.bind_eq_ok_iff.1 h
  obtain ⟨_, _, h⟩ := Outcome.bind_eq_ok_iff.1 h
  cases h

theorem fieldData_of_map {fields : List (String × StreamType)} {d : Datum} {entries : List (Datum × Datum)}
    (h : d.unroll = .map entries) :
    Data.fieldData? fields d = fields.mapM fun (name, _) => Datum.find? entries name := by
  simp only [Data.fieldData?, h]

theorem fieldData_of_sequence {fields : List (String × StreamType)} {d : Datum}
    (h : ∀ entries, d.unroll = .map entries → False) : Data.fieldData? fields d = sequence? d := by
  unfold Data.fieldData?
  split
  · next entries he => exact absurd he (h entries)
  · rfl

theorem fieldValues_eq_ok_iff {t : StreamType} {fields : List (String × StreamType)} {d : Datum}
    {values : List Datum} :
    fieldValues t fields d = .ok values ↔ Data.fieldData? fields d = some values ∧ values.length = fields.length := by
  unfold fieldValues
  split
  · next entries hd =>
    simp only [fieldData_of_map hd, mapM_eq_some_iff_filterMap, ← missingFields_isEmpty_iff]
    split
    · next hm =>
      have hl := (Outcome.mapM_eq_some_iff.1
        (mapM_eq_some_iff_filterMap.2 ⟨missingFields_isEmpty_iff.1 hm, rfl⟩)).length_eq
      simp only [Except.ok.injEq, hm, true_and]
      exact ⟨fun h => ⟨h, h ▸ hl.symm⟩, fun h => h.1⟩
    · next hm =>
      simp only [hm, Bool.false_eq_true, false_and, iff_false]
      intro h
      obtain ⟨_, _, h⟩ := Outcome.bind_eq_ok_iff.1 h
      cases h
  · next hd =>
    rw [fieldData_of_sequence hd]
    cases sequence? d with
    | none => simp [refuseDatum_ne_ok]
    | some items =>
      simp only [Option.some.injEq]
      split
      · next hl =>
        simp only [Except.ok.injEq]
        exact ⟨fun h => ⟨h, h ▸ hl⟩, fun h => h.1⟩
      · next hl =>
        simp only [refuseDatum_ne_ok, false_iff]
        rintro ⟨rfl, h⟩
        exact hl h

theorem encodeFields_eq_ok_iff {fields : List (String × StreamType)} {values : List Datum} {vs : List SymValue}
    (hl : values.length = fields.length) :
    encodeFields fields values = .ok vs ↔
      List.Forall₂ (fun p v => encode p.1.2 p.2 = .ok v) (fields.zip values) vs := by
  induction fields generalizing values vs with
  | nil => cases vs <;> simp [encodeFields]
  | cons f fields ih =>
    cases values with
    | nil => cases hl
    | cons d values =>
      simp only [encodeFields, Outcome.bind_eq_ok_iff, pure, Except.pure, Except.ok.injEq, ih (Nat.succ.inj hl),
        List.zip_cons_cons, List.forall₂_cons_left_iff]
      constructor
      · rintro ⟨v, hv, ws, hws, rfl⟩
        exact ⟨v, ws, hv, hws, rfl⟩
      · rintro ⟨v, ws, hv, hws, rfl⟩
        exact ⟨v, hv, ws, hws, rfl⟩

theorem readFields_eq_some_iff {fields : List (String × StreamType)} {values : List Datum} {xs : List Data} :
    Data.readFields? fields values = some xs ↔ values.length = fields.length ∧
      List.Forall₂ (fun p x => Data.read? p.1.2 p.2 = some x) (fields.zip values) xs := by
  induction fields generalizing values xs with
  | nil => cases values <;> cases xs <;> simp [Data.readFields?]
  | cons f fields ih =>
    cases values with
    | nil => simp [Data.readFields?]
    | cons d values =>
      simp only [Data.readFields?, Option.bind_eq_bind, Option.bind_eq_some_iff, ih, Option.pure_def,
        Option.some.injEq, List.zip_cons_cons, List.forall₂_cons_left_iff, List.length_cons, Nat.add_right_cancel_iff]
      constructor
      · rintro ⟨x, hx, ws, ⟨hl, hws⟩, rfl⟩
        exact ⟨hl, x, ws, hx, hws, rfl⟩
      · rintro ⟨hl, x, ws, hx, hws, rfl⟩
        exact ⟨x, hx, ws, ⟨hl, hws⟩, rfl⟩

theorem encode_induction {motive : StreamType → Datum → SymValue → Prop}
    (bool : ∀ b, motive .bool (.bool b) (.scalar .bool (.bool b)))
    (int : ∀ (w : Width) n, Data.inInt w n = true →
      motive (.int w.size) (.int n) (.scalar (.int w) (.bits (BitVec.ofInt w.size n))))
    (word : ∀ (w : Width) n, Data.inWord w n = true →
      motive (.word w.size) (.int n) (.scalar (.word w) (.bits (BitVec.ofInt w.size n))))
    (single : ∀ d x, Data.double? d = some x →
      motive (.float 32) d (.scalar (.float .single) (.float x.convert)))
    (double : ∀ d x, Data.double? d = some x → motive (.float 64) d (.scalar (.float .double) (.float x)))
    (empty : ∀ element d, motive (.array 0 element) d (.array []))
    (array : ∀ element d items vs, items.length ≠ 0 → elements? d = some items →
      List.Forall₂ (motive element) items vs → motive (.array items.length element) d (.array vs))
    (struct : ∀ name fields d values vs, Data.fieldData? fields d = some values → values.length = fields.length →
      List.Forall₂ (fun p v => motive p.1.2 p.2 v) (fields.zip values) vs →
        motive (.struct name fields) d (.struct vs))
    {t : StreamType} {d : Datum} {v : SymValue} (h : encode t d = .ok v) : motive t d v := by
  have float {bits d x v} (hd : Data.double? d = some x) (h : encodeFloat bits x = .ok v) :
      motive (.float bits) d v := by
    obtain ⟨rfl, rfl⟩ | ⟨rfl, rfl⟩ := encodeFloat_eq_ok_iff.1 h
    · exact single d x hd
    · exact double d x hd
  induction t using StreamType.shape_induction generalizing d v with
  | unknown =>
    simp only [encode, refuse] at h
    cases h
  | bool =>
    simp only [encode] at h
    split at h
    · cases h
      exact bool _
    · obtain ⟨_, _, h⟩ := Outcome.bind_eq_ok_iff.1 h
      cases h
  | int bits =>
    simp only [encode] at h
    split at h
    · obtain ⟨w, hw, hn, rfl⟩ := encodeInt_eq_ok_iff.1 h
      obtain rfl := Width.eq_size_of_ofSize? hw
      exact int w _ hn
    · exact absurd h refuseDatum_ne_ok
  | word bits =>
    simp only [encode] at h
    split at h
    · obtain ⟨w, hw, hn, rfl⟩ := encodeWord_eq_ok_iff.1 h
      obtain rfl := Width.eq_size_of_ofSize? hw
      exact word w _ hn
    · exact absurd h refuseDatum_ne_ok
  | float bits =>
    simp only [encode] at h
    split at h
    · exact float rfl h
    · exact float rfl h
    · exact absurd h refuseDatum_ne_ok
  | array length element ih =>
    simp only [encode] at h
    by_cases hz : length = 0
    · rw [if_pos hz] at h
      cases h
      exact hz ▸ empty element d
    · rw [if_neg hz] at h
      split at h
      · next items hi =>
        split at h
        · next hl =>
          subst hl
          obtain ⟨vs, hvs, h⟩ := Outcome.bind_eq_ok_iff.1 h
          cases h
          exact array element d items vs hz hi ((Outcome.mapM_eq_ok_iff.1 hvs).imp fun d v h => ih h)
        · exact absurd h refuseDatum_ne_ok
      · exact absurd h refuseDatum_ne_ok
  | struct name fields ih =>
    simp only [encode] at h
    obtain ⟨values, hv, h⟩ := Outcome.bind_eq_ok_iff.1 h
    obtain ⟨vs, hvs, h⟩ := Outcome.bind_eq_ok_iff.1 h
    cases h
    obtain ⟨hd, hl⟩ := fieldValues_eq_ok_iff.1 hv
    exact struct name fields d values vs hd hl (Outcome.forall₂_imp_of_mem
      (fun p hp v _ h => ih p.1 (List.of_mem_zip hp).1 h) ((encodeFields_eq_ok_iff hl).1 hvs))

theorem encode_eval {t : StreamType} {d : Datum} {v : SymValue} (h : encode t d = .ok v) :
    Data.read? t d = some (v.eval model ρ) := by
  refine encode_induction (motive := fun t d v => Data.read? t d = some (v.eval model ρ))
    ?bool ?int ?word ?single ?double ?empty ?array ?struct h
  case bool => simp [Data.read?, Term.eval]
  case int =>
    intro w n hn
    simp [Data.read?, Width.ofSize?_size, hn, Data.ofInteger, Term.eval]
  case word =>
    intro w n hn
    simp [Data.read?, Width.ofSize?_size, hn, Data.ofInteger, Term.eval]
  case single =>
    intro d x hx
    simp [Data.read?, hx, Data.ofDouble, Term.eval]
  case double =>
    intro d x hx
    simp [Data.read?, hx, Data.ofDouble, Term.eval]
  case empty => simp [Data.read?]
  case array =>
    intro element d items vs hz hi hvs
    have hx : items.mapM (fun d => Data.read? element d) = some (vs.map (SymValue.eval model ρ)) := by
      rw [Outcome.mapM_eq_some_iff, List.forall₂_map_right_iff]
      exact hvs
    simp [Data.read?, hz, hi, hx]
  case struct =>
    intro name fields d values vs hd hl hvs
    have hx : Data.readFields? fields values = some (vs.map (SymValue.eval model ρ)) := by
      rw [readFields_eq_some_iff, List.forall₂_map_right_iff]
      exact ⟨hl, hvs⟩
    simp [Data.read?, hd, hx]

theorem encode_of_read {t : StreamType} {d : Datum} {x : Data} (h : Data.read? t d = some x) :
    ∃ v, encode t d = .ok v := by
  induction t using StreamType.shape_induction generalizing d x with
  | unknown => simp [Data.read?] at h
  | bool =>
    cases d <;> simp [Data.read?] at h
    exact ⟨_, by rw [encode]⟩
  | int bits =>
    cases d <;> simp only [Data.read?, reduceCtorEq] at h
    next n =>
    obtain ⟨w, hw, h⟩ := Option.bind_eq_some_iff.1 h
    split at h
    · next hn => exact ⟨_, by rw [encode]; exact encodeInt_eq_ok_iff.2 ⟨w, hw, hn, rfl⟩⟩
    · cases h
  | word bits =>
    cases d <;> simp only [Data.read?, reduceCtorEq] at h
    next n =>
    obtain ⟨w, hw, h⟩ := Option.bind_eq_some_iff.1 h
    split at h
    · next hn => exact ⟨_, by rw [encode]; exact encodeWord_eq_ok_iff.2 ⟨w, hw, hn, rfl⟩⟩
    · cases h
  | float bits =>
    simp only [Data.read?] at h
    obtain ⟨y, hy, h⟩ := Option.bind_eq_some_iff.1 h
    obtain ⟨v, hv⟩ := encodeFloat_of_ofDouble h
    cases d <;> simp only [Data.double?, reduceCtorEq, Option.some.injEq] at hy
    · subst hy; exact ⟨v, by simpa only [encode] using hv⟩
    · subst hy; exact ⟨v, by simpa only [encode] using hv⟩
  | array length element ih =>
    simp only [Data.read?] at h
    by_cases hz : length = 0
    · exact ⟨.array [], by simp only [encode, hz, if_true]⟩
    · rw [if_neg hz] at h
      obtain ⟨items, hi, h⟩ := Option.bind_eq_some_iff.1 h
      split at h
      · next hl =>
        obtain ⟨xs, hxs, rfl⟩ := Option.map_eq_some_iff.1 h
        have hx := Outcome.mapM_eq_some_iff.1 hxs
        have he : ∀ d ∈ items, ∃ v, encode element d = .ok v := by
          intro d hd
          obtain ⟨_, _, hr⟩ := Outcome.forall₂_exists_of_mem hx hd
          exact ih hr
        obtain ⟨vs, hvs⟩ := Outcome.exists_forall₂ he
        refine ⟨.array vs, ?_⟩
        rw [encode, if_neg hz]
        simp only [hi, hl, if_true, Outcome.mapM_eq_ok_iff.2 hvs]
        rfl
      · cases h
  | struct name fields ih =>
    simp only [Data.read?] at h
    obtain ⟨values, hv, h⟩ := Option.bind_eq_some_iff.1 h
    obtain ⟨xs, hxs, rfl⟩ := Option.map_eq_some_iff.1 h
    obtain ⟨hl, hx⟩ := readFields_eq_some_iff.1 hxs
    have he : ∀ p ∈ fields.zip values, ∃ v, encode p.1.2 p.2 = .ok v := by
      intro p hp
      obtain ⟨_, _, hr⟩ := Outcome.forall₂_exists_of_mem hx hp
      exact ih p.1 (List.of_mem_zip hp).1 hr
    obtain ⟨vs, hvs⟩ := Outcome.exists_forall₂ he
    refine ⟨.struct vs, ?_⟩
    rw [encode]
    exact Outcome.bind_eq_ok_iff.2 ⟨values, fieldValues_eq_ok_iff.2 ⟨hv, hl⟩,
      Outcome.bind_eq_ok_iff.2 ⟨vs, (encodeFields_eq_ok_iff hl).2 hvs, rfl⟩⟩

theorem encode_conforms {t : StreamType} {d : Datum} {v : SymValue} (h : encode t d = .ok v) : v.Conforms t := by
  refine encode_induction (motive := fun t _ v => v.Conforms t)
    ?bool ?int ?word ?single ?double ?empty ?array ?struct h
  case bool => exact fun _ => (Value.conforms_scalar ..).2 rfl
  case int => exact fun _ _ _ => (Value.conforms_scalar ..).2 rfl
  case word => exact fun _ _ _ => (Value.conforms_scalar ..).2 rfl
  case single => exact fun _ _ _ => (Value.conforms_scalar ..).2 rfl
  case double => exact fun _ _ _ => (Value.conforms_scalar ..).2 rfl
  case empty => exact fun _ _ => Value.conforms_array_iff.2 ⟨[], rfl, rfl, by simp⟩
  case array =>
    intro element d items vs _ _ hvs
    refine Value.conforms_array_iff.2 ⟨vs, rfl, hvs.length_eq.symm, fun v hv => ?_⟩
    obtain ⟨_, _, hc⟩ := Outcome.forall₂_exists_of_mem hvs.flip hv
    exact hc
  case struct =>
    intro name fields d values vs _ hl hvs
    have hm := (List.forall₂_map_left_iff (f := Prod.fst)
      (R := fun (f : String × StreamType) (v : SymValue) => v.Conforms f.2)).2 hvs
    rw [List.map_fst_zip hl.ge] at hm
    exact Value.conforms_struct_iff.2 ⟨vs, rfl, hm⟩

end OneStep.Constant
