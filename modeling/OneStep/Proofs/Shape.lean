import OneStep.Proofs.Outcome
import OneStep.Symbolic.Value

namespace OneStep

theorem Width.eq_size_of_ofSize? {n : Int} {w : Width} (h : Width.ofSize? n = some w) : n = w.size := by
  unfold Width.ofSize? at h
  split at h
  · next hn => cases h; exact hn
  split at h
  · next hn => cases h; exact hn
  split at h
  · next hn => cases h; exact hn
  split at h
  · next hn => cases h; exact hn
  · cases h

namespace StreamType

theorem shape_induction {motive : StreamType → Prop}
    (unknown : motive .unknown) (bool : motive .bool)
    (int : ∀ bits, motive (.int bits)) (word : ∀ bits, motive (.word bits))
    (float : ∀ bits, motive (.float bits))
    (array : ∀ length element, motive element → motive (.array length element))
    (struct : ∀ name fields, (∀ f ∈ fields, motive f.2) → motive (.struct name fields))
    (t : StreamType) : motive t :=
  @StreamType.rec motive (fun fields => ∀ f ∈ fields, motive f.2) (fun f => motive f.2)
    unknown bool int word float array struct (by simp)
    (fun _ _ hf hs => List.forall_mem_cons.2 ⟨hf, hs⟩) (fun _ _ h => h) t

theorem scalar?_eq_some_iff (t : StreamType) (s : Scalar) : t.scalar? = some s ↔ t = ofScalar s := by
  constructor
  · intro h
    cases t with
    | bool => simp only [scalar?, Option.some.injEq] at h; subst h; rfl
    | int bits =>
      obtain ⟨w, hw, rfl⟩ := Option.map_eq_some_iff.1 h
      exact congrArg StreamType.int (Width.eq_size_of_ofSize? hw)
    | word bits =>
      obtain ⟨w, hw, rfl⟩ := Option.map_eq_some_iff.1 h
      exact congrArg StreamType.word (Width.eq_size_of_ofSize? hw)
    | float bits =>
      simp only [scalar?] at h
      split at h
      · next hb => cases h; simp [ofScalar, Precision.size, hb]
      · split at h
        · next hb => cases h; simp [ofScalar, Precision.size, hb]
        · cases h
    | unknown => cases h
    | array _ _ => cases h
    | struct _ _ => cases h
  · rintro rfl
    exact scalar?_ofScalar s

theorem ofScalar_inj {s s' : Scalar} : ofScalar s = ofScalar s' ↔ s = s' := by
  constructor
  · intro h
    have hs := scalar?_ofScalar s
    rw [h, scalar?_ofScalar] at hs
    exact (Option.some.inj hs).symm
  · rintro rfl
    rfl

theorem tag_ofScalar (s : Scalar) : (ofScalar s).tag = .ok (.scalar s) := by
  cases s with
  | bool => rfl
  | int w => cases w <;> rfl
  | word w => cases w <;> rfl
  | float p => cases p <;> rfl

end StreamType

namespace Value

variable {α β γ : Scalar → Type}

theorem shape_induction {motive : Value α → Prop}
    (scalar : ∀ s leaf, motive (.scalar s leaf))
    (array : ∀ items, (∀ v ∈ items, motive v) → motive (.array items))
    (struct : ∀ items, (∀ v ∈ items, motive v) → motive (.struct items))
    (v : Value α) : motive v :=
  @Value.rec α motive (fun items => ∀ v ∈ items, motive v) scalar array struct (by simp)
    (fun _ _ hv hs => List.forall_mem_cons.2 ⟨hv, hs⟩) v

@[simp] theorem mapItems_eq (f : (s : Scalar) → α s → β s) (items : List (Value α)) :
    mapItems f items = items.map (map f) := by
  induction items with
  | nil => rfl
  | cons v items ih => exact congrArg (map f v :: ·) ih

@[simp] theorem map_scalar (f : (s : Scalar) → α s → β s) (s : Scalar) (leaf : α s) :
    map f (.scalar s leaf) = .scalar s (f s leaf) := rfl

@[simp] theorem map_array (f : (s : Scalar) → α s → β s) (items : List (Value α)) :
    map f (.array items) = .array (items.map (map f)) :=
  congrArg Value.array (mapItems_eq f items)

@[simp] theorem map_struct (f : (s : Scalar) → α s → β s) (items : List (Value α)) :
    map f (.struct items) = .struct (items.map (map f)) :=
  congrArg Value.struct (mapItems_eq f items)

@[simp] theorem map_tag (f : (s : Scalar) → α s → β s) (v : Value α) : (map f v).tag = v.tag := by
  cases v with
  | scalar s leaf => simp [tag]
  | array items => cases items <;> simp [tag]
  | struct items => simp [tag]

theorem map_items_injective {f : Value α → Value β} {items : List (Value α)}
    (h : ∀ v ∈ items, ∀ w, f v = f w → v = w) (others : List (Value α))
    (he : items.map f = others.map f) : items = others := by
  induction items generalizing others with
  | nil => simpa using he.symm
  | cons v items ih =>
    cases others with
    | nil => simp at he
    | cons w others =>
      simp only [List.map_cons, List.cons.injEq] at he
      rw [h v (by simp) w he.1, ih (fun u hu => h u (by simp [hu])) others he.2]

theorem map_injective {f : (s : Scalar) → α s → β s} (hf : ∀ s, Function.Injective (f s)) :
    Function.Injective (map f) := by
  intro v
  induction v using shape_induction with
  | scalar s leaf =>
    intro w h
    cases w <;> simp at h
    obtain ⟨rfl, h⟩ := h
    rw [hf _ (eq_of_heq h)]
  | array items ih =>
    intro w h
    cases w <;> simp at h
    rw [map_items_injective (fun v hv w => @ih v hv w) _ h]
  | struct items ih =>
    intro w h
    cases w <;> simp at h
    rw [map_items_injective (fun v hv w => @ih v hv w) _ h]

section

attribute [local simp] Conforms FieldsConform

theorem fieldsConform_iff (fields : List (String × StreamType)) (items : List (Value α)) :
    FieldsConform fields items ↔ List.Forall₂ (fun f v => Conforms f.2 v) fields items := by
  induction fields generalizing items with
  | nil => cases items <;> simp
  | cons f fields ih => cases items <;> simp [ih]

@[simp] theorem conforms_scalar (t : StreamType) (s : Scalar) (leaf : α s) :
    Conforms t (.scalar s leaf) ↔ t = .ofScalar s := by
  rw [← StreamType.scalar?_eq_some_iff]
  cases t <;> simp [StreamType.scalar?]

@[simp] theorem conforms_array (t : StreamType) (items : List (Value α)) :
    Conforms t (.array items) ↔
      ∃ element, t = .array items.length element ∧ ∀ v ∈ items, Conforms element v := by
  cases t with
  | array length element =>
    simp only [Conforms, StreamType.array.injEq]
    constructor
    · rintro ⟨rfl, h⟩
      exact ⟨element, ⟨rfl, rfl⟩, h⟩
    · rintro ⟨_, ⟨rfl, rfl⟩, h⟩
      exact ⟨rfl, h⟩
  | _ => simp

@[simp] theorem conforms_struct (t : StreamType) (items : List (Value α)) :
    Conforms t (.struct items) ↔
      ∃ name fields, t = .struct name fields ∧ List.Forall₂ (fun f v => Conforms f.2 v) fields items := by
  cases t with
  | struct name fields => simp [fieldsConform_iff]
  | _ => simp

end

theorem conforms_ofScalar {s : Scalar} {v : Value α} : Conforms (.ofScalar s) v ↔ ∃ leaf, v = .scalar s leaf := by
  cases v with
  | scalar s' leaf =>
    rw [conforms_scalar, StreamType.ofScalar_inj]
    constructor
    · rintro rfl
      exact ⟨leaf, rfl⟩
    · rintro ⟨_, h⟩
      cases h
      rfl
  | array items => cases s <;> simp [StreamType.ofScalar]
  | struct items => cases s <;> simp [StreamType.ofScalar]

theorem conforms_array_iff {length : Nat} {element : StreamType} {v : Value α} :
    Conforms (.array length element) v ↔
      ∃ items, v = .array items ∧ items.length = length ∧ ∀ u ∈ items, Conforms element u := by
  cases v with
  | scalar s leaf => cases s <;> simp [StreamType.ofScalar]
  | array items => simp [Conforms]
  | struct items => simp

theorem conforms_struct_iff {name : String} {fields : List (String × StreamType)} {v : Value α} :
    Conforms (.struct name fields) v ↔
      ∃ items, v = .struct items ∧ List.Forall₂ (fun f u => Conforms f.2 u) fields items := by
  cases v with
  | scalar s leaf => cases s <;> simp [StreamType.ofScalar]
  | array items => simp
  | struct items => simp [Conforms, fieldsConform_iff]

theorem conforms_map (f : (s : Scalar) → α s → β s) (t : StreamType) (v : Value α) :
    Conforms t (map f v) ↔ Conforms t v := by
  induction v using shape_induction generalizing t with
  | scalar s leaf => simp
  | array items ih =>
    simp only [map_array, conforms_array, List.length_map, List.forall_mem_map]
    exact exists_congr fun element => and_congr_right fun _ => forall₂_congr fun v hv => ih v hv element
  | struct items ih =>
    simp only [map_struct, conforms_struct, List.forall₂_map_right_iff]
    exact exists₂_congr fun name fields => and_congr_right fun _ =>
      ⟨Outcome.forall₂_imp_of_mem fun f _ v hv => (ih v hv f.2).1,
        Outcome.forall₂_imp_of_mem fun f _ v hv => (ih v hv f.2).2⟩

theorem Conforms.tag_eq {t : StreamType} {v : Value α} (h : Conforms t v) : t.tag = .ok v.tag := by
  cases v with
  | scalar s leaf =>
    rw [(conforms_scalar t s leaf).1 h]
    exact StreamType.tag_ofScalar s
  | array items =>
    obtain ⟨element, rfl, _⟩ := (conforms_array t items).1 h
    cases items <;> simp [StreamType.tag, tag]
  | struct items =>
    obtain ⟨name, fields, rfl, _⟩ := (conforms_struct t items).1 h
    rfl

theorem Conforms.emptyArray_iff {t : StreamType} {v : Value α} (h : Conforms t v) :
    v.tag = .emptyArray ↔ ∃ element, t = .array 0 element := by
  cases v with
  | scalar s leaf =>
    rw [(conforms_scalar t s leaf).1 h]
    cases s <;> simp [tag, StreamType.ofScalar]
  | array items =>
    obtain ⟨element, rfl, _⟩ := (conforms_array t items).1 h
    cases items <;> simp [tag]
  | struct items =>
    obtain ⟨name, fields, rfl, _⟩ := (conforms_struct t items).1 h
    simp [tag]

end Value

namespace StreamType

mutual

def shape : StreamType → StreamType
  | .array 0 _ => .array 0 .unknown
  | .array (length + 1) element => .array (length + 1) element.shape
  | .struct _ fields => .struct "" (fieldShapes fields)
  | t => t

def fieldShapes : List (String × StreamType) → List (String × StreamType)
  | [] => []
  | (_, t) :: fields => ("", t.shape) :: fieldShapes fields

end

theorem fieldShapes_eq (fields : List (String × StreamType)) :
    fieldShapes fields = fields.map fun f => ("", f.2.shape) := by
  induction fields with
  | nil => rfl
  | cons f fields ih => rw [fieldShapes, ih, List.map_cons]

end StreamType

namespace Value

variable {α : Scalar → Type}

theorem conforms_shape (t : StreamType) (v : Value α) : Conforms t.shape v ↔ Conforms t v := by
  induction t using StreamType.shape_induction generalizing v with
  | array length element ih =>
    cases length with
    | zero =>
      simp only [StreamType.shape, conforms_array_iff, List.length_eq_zero_iff]
      refine exists_congr fun items => and_congr_right fun _ => and_congr_right fun h => ?_
      simp [h]
    | succ length => simp only [StreamType.shape, conforms_array_iff, ih]
  | struct name fields ih =>
    simp only [StreamType.shape, conforms_struct_iff, StreamType.fieldShapes_eq, List.forall₂_map_left_iff]
    exact exists_congr fun items => and_congr_right fun _ =>
      ⟨Outcome.forall₂_imp_of_mem fun f hf v _ => (ih f hf v).1,
        Outcome.forall₂_imp_of_mem fun f hf v _ => (ih f hf v).2⟩
  | unknown => rfl
  | bool => rfl
  | int bits => rfl
  | word bits => rfl
  | float bits => rfl

theorem fieldShapes_eq_of_conforms {items : List (Value α)}
    (ih : ∀ v ∈ items, ∀ t u, Conforms t v → Conforms u v → t.shape = u.shape)
    {fields fields' : List (String × StreamType)} (h : List.Forall₂ (fun f v => Conforms f.2 v) fields items)
    (h' : List.Forall₂ (fun f v => Conforms f.2 v) fields' items) :
    StreamType.fieldShapes fields = StreamType.fieldShapes fields' := by
  induction h generalizing fields' with
  | nil =>
    cases h'
    rfl
  | cons hv _ iht =>
    cases h' with
    | cons hv' h' =>
      have hs := ih _ (List.mem_cons_self ..) _ _ hv hv'
      have ht := iht (fun v hm => ih v (List.mem_cons_of_mem _ hm)) h'
      rw [StreamType.fieldShapes, StreamType.fieldShapes, hs, ht]

theorem shape_eq_of_conforms {t u : StreamType} {v : Value α} (ht : Conforms t v) (hu : Conforms u v) :
    t.shape = u.shape := by
  induction v using shape_induction generalizing t u with
  | scalar s leaf => rw [(conforms_scalar ..).1 ht, (conforms_scalar ..).1 hu]
  | array items ih =>
    obtain ⟨element, rfl, hte⟩ := (conforms_array ..).1 ht
    obtain ⟨element', rfl, hue⟩ := (conforms_array ..).1 hu
    cases items with
    | nil => rfl
    | cons v items =>
      have hv := List.mem_cons_self (a := v) (l := items)
      rw [List.length_cons, StreamType.shape, StreamType.shape, ih v hv (hte v hv) (hue v hv)]
  | struct items ih =>
    obtain ⟨_, fields, rfl, htf⟩ := (conforms_struct ..).1 ht
    obtain ⟨_, fields', rfl, huf⟩ := (conforms_struct ..).1 hu
    rw [StreamType.shape, StreamType.shape, fieldShapes_eq_of_conforms (fun v hv t u => @ih v hv t u) htf huf]

theorem Conforms.iff_shape_eq {t u : StreamType} {v : Value α} (h : Conforms t v) :
    Conforms u v ↔ t.shape = u.shape := by
  constructor
  · exact shape_eq_of_conforms h
  · intro hs
    rwa [← conforms_shape, ← hs, conforms_shape]

end Value

end OneStep
