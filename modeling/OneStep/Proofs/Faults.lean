import OneStep.Proofs.Documents
import OneStep.Proofs.Typing

namespace OneStep

namespace Fault

def isEndless : Fault → Bool
  | .endless => true
  | _ => false

def Lenient (F : Fault → Prop) : Prop :=
  ∀ f, f.isEndless = false → F f

theorem lenient_ne_endless : Lenient (· ≠ .endless) := by
  rintro f hf rfl
  cases hf

theorem reported_ne_endless (e : Error) : Fault.reported e ≠ .endless :=
  lenient_ne_endless _ rfl

theorem unwritable_ne_endless : Fault.unwritable ≠ .endless :=
  lenient_ne_endless _ rfl

end Fault

namespace Outcome

variable {α β σ : Type}

def Decides (x : Except Fault α) : Prop :=
  x ≠ .error .endless

theorem not_decides_iff {x : Except Fault α} : ¬ Decides x ↔ x = .error .endless :=
  Classical.not_not

theorem decides_error_iff {e : Fault} : Decides (.error e : Except Fault α) ↔ e ≠ .endless := by
  simp [Decides]

theorem decides_ok (a : α) : Decides (.ok a) := by
  intro h
  cases h

theorem decides_of_ok {r : Except Fault α × σ} {a : α} {s : σ} (h : r = (.ok a, s)) : Decides r.1 := by
  rw [h]
  exact decides_ok a

theorem decides_error {e : Fault} (h : e.isEndless = false) : Decides (.error e : Except Fault α) :=
  decides_error_iff.2 (Fault.lenient_ne_endless e h)

theorem decides_of_yields {Q : α → Prop} {x : Except Fault α} (h : Yields (· ≠ .endless) Q x) : Decides x := by
  cases x with
  | error e => exact decides_error_iff.2 h
  | ok a => exact decides_ok a

def Ends (m : ExceptT Fault (StateM σ) α) : Prop :=
  ∀ s, Decides (m.run s).1

theorem ends_lift {x : Except Fault α} (hx : Decides x) : Ends (liftM x : ExceptT Fault (StateM σ) α) :=
  fun _ => hx

theorem decides_run_bind_iff {m : ExceptT Fault (StateM σ) α} {f : α → ExceptT Fault (StateM σ) β} {s : σ} :
    Decides ((m >>= f).run s).1 ↔
      Decides (m.run s).1 ∧ ∀ a s₁, m.run s = (.ok a, s₁) → Decides ((f a).run s₁).1 := by
  rw [run_bind]
  rcases m.run s with ⟨e | a, s₁⟩
  · rw [decides_error_iff, decides_error_iff]
    refine ⟨fun h => ⟨h, fun a s₁ hr => ?_⟩, And.left⟩
    cases hr
  · constructor
    · rintro h
      refine ⟨decides_ok a, ?_⟩
      rintro _ _ ⟨⟩
      exact h
    · rintro ⟨_, h⟩
      exact h a s₁ rfl

theorem not_decides_run_bind {m : ExceptT Fault (StateM σ) α} {f : α → ExceptT Fault (StateM σ) β} {s : σ}
    (h : ¬ Decides ((m >>= f).run s).1) :
    ¬ Decides (m.run s).1 ∨ ∃ a s₁, m.run s = (.ok a, s₁) ∧ ¬ Decides ((f a).run s₁).1 := by
  rw [decides_run_bind_iff, not_and_or] at h
  refine h.imp_right fun h => ?_
  push Not at h
  exact h

theorem not_decides_of_bind {m : ExceptT Fault (StateM σ) α} {f : α → ExceptT Fault (StateM σ) β} (hf : ∀ a, Ends (f a))
    {s : σ} (h : ¬ Decides ((m >>= f).run s).1) : ¬ Decides (m.run s).1 := by
  rcases not_decides_run_bind h with h | ⟨a, s₁, _, h⟩
  · exact h
  · exact absurd (hf a s₁) h

theorem ends_bind {m : ExceptT Fault (StateM σ) α} {f : α → ExceptT Fault (StateM σ) β} (hm : Ends m)
    (hf : ∀ a, Ends (f a)) : Ends (m >>= f) :=
  fun s => decides_run_bind_iff.2 ⟨hm s, fun a s₁ _ => hf a s₁⟩

variable {F : Fault → Prop}

abbrev Meets (F : Fault → Prop) (x : Except Fault α) : Prop :=
  Yields F (fun _ => True) x

theorem Yields.meets {Q : α → Prop} {x : Except Fault α} (h : Yields F Q x) : Meets F x :=
  h.imp (fun _ hf => hf) fun _ _ => trivial

def Halts (F : Fault → Prop) (m : ExceptT Fault (StateM σ) α) : Prop :=
  ∀ s, Meets F (m.run s).1

theorem halts_lift {Q : α → Prop} {x : Except Fault α} (hx : Yields F Q x) :
    Halts F (liftM x : ExceptT Fault (StateM σ) α) :=
  fun _ => hx.meets

theorem halts_pure (a : α) : Halts F (pure a : ExceptT Fault (StateM σ) α) :=
  fun _ => trivial

theorem halts_throw {f : Fault} (h : F f) : Halts F (throw f : ExceptT Fault (StateM σ) α) :=
  fun _ => h

theorem halts_bind {m : ExceptT Fault (StateM σ) α} {f : α → ExceptT Fault (StateM σ) β} (hm : Halts F m)
    (hf : ∀ a, Halts F (f a)) : Halts F (m >>= f) :=
  fun s => yields_run_bind (hm s) fun a s' _ => hf a s'

theorem halts_bind_lift {Q : α → Prop} {x : Except Fault α} {f : α → ExceptT Fault (StateM σ) β} (hx : Yields F Q x)
    (hf : ∀ a, Q a → Halts F (f a)) : Halts F (liftM x >>= f) :=
  fun _ => yields_run_bind hx fun a s' ha => hf a ha s'

theorem ends_of_halts {m : ExceptT Fault (StateM σ) α} (h : Halts (· ≠ .endless) m) : Ends m :=
  fun s => decides_of_yields (h s)

end Outcome

open Fault Outcome

variable {F : Fault → Prop}

theorem yields_writeInt {n : Int} (h : Text.isWritable n = true ∨ F .unwritable) :
    Yields F (· = toString n) (writeInt n) := by
  unfold writeInt
  split
  · rfl
  · next hn => exact h.resolve_left hn

theorem Datum.meets_describe {d : Datum} (h : d.isWritable = true ∨ F .unwritable) : Meets F d.describe := by
  unfold describe
  split
  · trivial
  · next hd => exact h.resolve_left hd

theorem Datum.meets_asText {d : Datum} (h : d.isWritable = true ∨ F .unwritable) : Meets F d.asText := by
  unfold asText
  split
  · trivial
  · next hd => exact h.resolve_left hd

theorem Text.isWritable_of_natAbs_le {n : Int} (h : n.natAbs ≤ 2 ^ 64) : isWritable n = true := by
  have hl : 10 ^ 20 ≤ 10 ^ digitLimit := Nat.pow_le_pow_right (by decide) (by decide)
  unfold isWritable
  rw [Nat.pow_eq]
  exact decide_eq_true (by omega)

theorem Registry.yields_get (hr : ∀ e, F (.reported e)) {registry : Registry} {id : Int}
    (h : Text.isWritable id = true ∨ F .unwritable) :
    Yields F (fun st => registry.find? id = some st) (registry.get id) := by
  unfold get
  split
  · next st hst => exact hst
  · exact yields_bind (yields_writeInt h) fun _ _ => hr _

namespace StreamType

theorem meets_describe {t : StreamType} (h : t.isWritable = true ∨ F .unwritable) : Meets F t.describe := by
  unfold describe
  split
  · trivial
  · next ht => exact h.resolve_left ht

theorem exists_tag {t : StreamType} (h : t.isKnown = true) : ∃ tag, t.tag = .ok tag := by
  cases t with
  | array length element => exact ⟨_, rfl⟩
  | struct name fields => exact ⟨_, rfl⟩
  | _ =>
    obtain ⟨k, hk⟩ := isScalar_iff.1 h
    exact ⟨.scalar k, hk ▸ tag_ofScalar k⟩

theorem meets_tag {t : StreamType} (h : t.isKnown = true ∨ Lenient F) : Meets F t.tag := by
  rcases h with h | hl
  · obtain ⟨tag, ht⟩ := exists_tag h
    rw [ht]
    trivial
  · unfold tag
    split
    case h_3 | h_4 =>
      split
      · trivial
      · exact yields_bind (yields_writeInt (.inr (hl _ rfl))) fun _ _ => hl _ rfl
    case h_1 => exact hl _ rfl
    all_goals trivial

mutual

def isWritten : StreamType → Bool
  | .array length element => Text.isWritable length && element.isWritten
  | .struct _ fields => fieldsWritten fields
  | t => t.isWritable

def fieldsWritten : List (String × StreamType) → Bool
  | [] => true
  | (_, t) :: fields => t.isWritten && fieldsWritten fields

end

theorem fieldsWritten_iff {fields : List (String × StreamType)} :
    fieldsWritten fields = true ↔ ∀ f ∈ fields, f.2.isWritten = true := by
  induction fields with
  | nil => simp [fieldsWritten]
  | cons f fields ih =>
    obtain ⟨name, t⟩ := f
    simp [fieldsWritten, ih]

theorem isWritable_of_isWritten {t : StreamType} (h : t.isWritten = true) : t.isWritable = true := by
  induction t using shape_induction with
  | array length element ih =>
    simp only [isWritten, Bool.and_eq_true] at h
    simp only [isWritable, Bool.and_eq_true]
    exact ⟨h.1, ih h.2⟩
  | struct name fields _ => rfl
  | _ => exact h

theorem shown {t : StreamType} (h : t.isWritten = true ∨ F .unwritable) : t.isWritable = true ∨ F .unwritable :=
  h.imp_left isWritable_of_isWritten

end StreamType

theorem StreamType.width_of_isKnown_int {bits : Int} (h : (StreamType.int bits).isKnown = true) :
    ∃ w : Width, bits = w.size := by
  obtain ⟨k, hk⟩ := isScalar_iff.1 h
  cases k with
  | int w => exact ⟨w, StreamType.int.inj hk⟩
  | _ => cases hk

theorem StreamType.width_of_isKnown_word {bits : Int} (h : (StreamType.word bits).isKnown = true) :
    ∃ w : Width, bits = w.size := by
  obtain ⟨k, hk⟩ := isScalar_iff.1 h
  cases k with
  | word w => exact ⟨w, StreamType.word.inj hk⟩
  | _ => cases hk

theorem StreamType.size_of_isKnown_float {bits : Int} (h : (StreamType.float bits).isKnown = true) :
    bits = 32 ∨ bits = 64 := by
  obtain ⟨k, hk⟩ := isScalar_iff.1 h
  cases k with
  | float p =>
    cases p with
    | single => exact .inl (StreamType.float.inj hk)
    | double => exact .inr (StreamType.float.inj hk)
  | _ => cases hk

namespace Datum

mutual

theorem isWritable_fill {label : Nat} {value : Datum} (hv : value.isWritable = true) (d : Datum)
    (h : d.isWritable = true) : (fill label value d).isWritable = true := by
  cases d with
  | again l =>
    simp only [fill]
    split
    · exact hv
    · rfl
  | loop l d =>
    simp only [fill]
    split
    · exact h
    · exact isWritable_fill hv d h
  | list items => exact areWritable_fillItems hv items h
  | tuple items => exact areWritable_fillItems hv items h
  | set items => exact areWritable_fillItems hv items h
  | map entries => exact entriesWritable_fillEntries hv entries h
  | _ => exact h

theorem areWritable_fillItems {label : Nat} {value : Datum} (hv : value.isWritable = true) (items : List Datum)
    (h : areWritable items = true) : areWritable (fillItems label value items) = true := by
  cases items with
  | nil => rfl
  | cons d items =>
    simp only [areWritable, fillItems, Bool.and_eq_true] at h ⊢
    exact ⟨isWritable_fill hv d h.1, areWritable_fillItems hv items h.2⟩

theorem entriesWritable_fillEntries {label : Nat} {value : Datum} (hv : value.isWritable = true)
    (entries : List (Datum × Datum)) (h : entriesWritable entries = true) :
    entriesWritable (fillEntries label value entries) = true := by
  cases entries with
  | nil => rfl
  | cons e entries =>
    obtain ⟨k, v⟩ := e
    simp only [entriesWritable, fillEntries, Bool.and_eq_true] at h ⊢
    exact ⟨⟨isWritable_fill hv k h.1.1, isWritable_fill hv v h.1.2⟩, entriesWritable_fillEntries hv entries h.2⟩

end

theorem isWritable_unroll {d : Datum} (h : d.isWritable = true) : d.unroll.isWritable = true := by
  cases d with
  | loop label d => exact isWritable_fill h d h
  | _ => exact h

end Datum

namespace Constant

theorem isWritable_of_sequence? {d : Datum} {items : List Datum} (h : sequence? d = some items)
    (hd : d.isWritable = true) : ∀ x ∈ items, x.isWritable = true := by
  have hu := Datum.isWritable_unroll hd
  unfold sequence? at h
  split at h
  · next hl =>
    cases h
    rw [hl] at hu
    exact Datum.areWritable_iff.1 hu
  · next hl =>
    cases h
    rw [hl] at hu
    exact Datum.areWritable_iff.1 hu
  · cases h
    intro x hx
    obtain ⟨c, _, rfl⟩ := List.mem_map.1 hx
    rfl
  · cases h
    intro x hx
    obtain ⟨b, _, rfl⟩ := List.mem_map.1 hx
    have hb : b.toNat < 256 := b.toNat_lt
    exact Text.isWritable_of_natAbs_le (by omega)
  · cases h

theorem sequence?_of_elements? {d : Datum} {items : List Datum} (h : elements? d = some items) :
    sequence? d = some items := by
  unfold elements? at h
  unfold sequence?
  cases hu : d.unroll with
  | list items => rwa [hu] at h
  | tuple items => rwa [hu] at h
  | _ =>
    rw [hu] at h
    cases h

variable (hr : ∀ expected actual, F (mismatch "encode_constant" expected actual))
include hr

theorem yields_refuseDatum {α : Type} {Q : α → Prop} {t : StreamType} {d : Datum}
    (ht : t.isWritable = true ∨ F .unwritable) (hd : d.isWritable = true ∨ F .unwritable) :
    Yields F Q (refuseDatum t d) :=
  yields_bind (StreamType.meets_describe ht) fun _ _ => yields_bind (Datum.meets_describe hd) fun _ _ => hr _ _

theorem meets_inRange {t : StreamType} {low high n : Int} (ht : t.isWritable = true ∨ F .unwritable)
    (hl : Text.isWritable low = true ∨ F .unwritable) (hh : Text.isWritable high = true ∨ F .unwritable)
    (hn : Text.isWritable n = true ∨ F .unwritable) : Meets F (inRange t low high n) := by
  unfold inRange
  split
  · trivial
  · exact yields_bind (StreamType.meets_describe ht) fun _ _ => yields_bind (yields_writeInt hl) fun _ _ =>
      yields_bind (yields_writeInt hh) fun _ _ => yields_bind (yields_writeInt hn) fun _ _ => hr _ _

omit hr in
theorem yields_power {exponent : Int} (h : 0 ≤ exponent ∧ exponent ≤ 64 ∨ Lenient F) :
    Yields F (fun n => 0 < n ∧ n ≤ 2 ^ 64 ∨ Lenient F) (power exponent) := by
  unfold power
  split
  · next hn => exact h.elim (by omega) fun hl => hl _ rfl
  split
  · next hn => exact h.elim (by omega) fun hl => hl _ rfl
  split
  · next hn => exact h.elim (by omega) fun hl => hl _ rfl
  · refine h.imp_left fun hle => ?_
    have hlt : 2 ^ exponent.toNat ≤ 2 ^ 64 := Nat.pow_le_pow_right (by decide) (by omega)
    exact ⟨Int.natCast_pos.2 (Nat.two_pow_pos _), Int.ofNat_le.2 hlt⟩

omit hr in
theorem written_of_small {n : Int} (h : n.natAbs ≤ 2 ^ 64 ∨ Lenient F) : Text.isWritable n = true ∨ F .unwritable :=
  h.imp Text.isWritable_of_natAbs_le fun hl => hl _ rfl

omit hr in
theorem bits_of_width {bits : Int} (h : ∃ w : Width, bits = w.size) : 8 ≤ bits ∧ bits ≤ 64 := by
  obtain ⟨w, rfl⟩ := h
  cases w <;> decide

omit hr in
theorem meets_unsized {bits : Int} (h : (∃ w : Width, bits = w.size) ∨ Lenient F) (make : Width → SymValue)
    (name : String → String) : Meets F (match Width.ofSize? bits with
      | some w => return make w
      | none => do throw (.unknownTag (name (← writeInt bits))) : Except Fault SymValue) := by
  split
  · trivial
  · next hnone =>
    rcases h with ⟨w, rfl⟩ | hl
    · rw [Width.ofSize?_size] at hnone
      cases hnone
    · exact yields_bind (yields_writeInt (.inr (hl _ rfl))) fun _ _ => hl _ rfl

theorem meets_encodeInt {bits n : Int} (hk : (StreamType.int bits).isKnown = true ∨ Lenient F)
    (hn : Text.isWritable n = true ∨ F .unwritable) : Meets F (encodeInt bits n) := by
  have hw := hk.imp_left StreamType.width_of_isKnown_int
  have hb := hw.imp_left bits_of_width
  refine yields_bind (yields_power (hb.imp_left fun h => by omega)) fun half hhalf => ?_
  refine yields_bind (meets_inRange hr ?_ ?_ ?_ hn) fun _ _ => meets_unsized hw _ _
  · exact written_of_small (hb.imp_left fun h => by omega)
  · exact written_of_small (hhalf.imp_left fun h => by omega)
  · exact written_of_small (hhalf.imp_left fun h => by omega)

theorem meets_encodeWord {bits n : Int} (hk : (StreamType.word bits).isKnown = true ∨ Lenient F)
    (hn : Text.isWritable n = true ∨ F .unwritable) : Meets F (encodeWord bits n) := by
  have hw := hk.imp_left StreamType.width_of_isKnown_word
  have hb := hw.imp_left bits_of_width
  refine yields_bind (yields_power (hb.imp_left fun h => by omega)) fun whole hwhole => ?_
  refine yields_bind (meets_inRange hr ?_ ?_ ?_ hn) fun _ _ => meets_unsized hw _ _
  · exact written_of_small (hb.imp_left fun h => by omega)
  · exact written_of_small (.inl (by decide))
  · exact written_of_small (hwhole.imp_left fun h => by omega)

omit hr in
theorem meets_encodeFloat {bits : Int} (hk : (StreamType.float bits).isKnown = true ∨ Lenient F) (x : Binary .double) :
    Meets F (encodeFloat bits x) := by
  unfold encodeFloat
  split
  · trivial
  split
  · trivial
  · next h32 h64 =>
    rcases hk with hk | hl
    · rcases StreamType.size_of_isKnown_float hk with h | h
      · exact absurd h h32
      · exact absurd h h64
    · exact hl _ rfl

theorem yields_fieldValues {t : StreamType} (fields : List (String × StreamType)) {d : Datum}
    (ht : t.isWritable = true ∨ F .unwritable) (hd : d.isWritable = true ∨ F .unwritable) :
    Yields F (fun values => ∀ v ∈ values, v.isWritable = true ∨ F .unwritable) (fieldValues t fields d) := by
  unfold fieldValues
  split
  · next entries hu =>
    dsimp only
    split
    · intro v hv
      obtain ⟨f, _, hf⟩ := List.mem_filterMap.1 hv
      refine hd.imp_left fun hd => ?_
      have hw := Datum.isWritable_unroll hd
      rw [hu] at hw
      exact (Datum.entriesWritable_iff.1 hw _ (Datum.mem_of_find? hf)).2
    · exact yields_bind (StreamType.meets_describe ht) fun _ _ => hr _ _
  · split
    · next values hs =>
      split
      · exact fun v hv => hd.imp_left fun hd => isWritable_of_sequence? hs hd v hv
      · exact yields_refuseDatum hr ht hd
    · exact yields_refuseDatum hr ht hd

omit hr in
theorem meets_encodeFields {fields : List (String × StreamType)} {values : List Datum}
    (h : ∀ f ∈ fields, ∀ d ∈ values, Meets F (encode f.2 d)) : Meets F (encodeFields fields values) := by
  induction fields generalizing values with
  | nil => trivial
  | cons f fields ih =>
    cases values with
    | nil => trivial
    | cons d values =>
      rw [encodeFields]
      have hs := ih fun g hg v hv => h g (List.mem_cons_of_mem _ hg) v (List.mem_cons_of_mem _ hv)
      exact yields_bind (h f (List.mem_cons_self ..) d (List.mem_cons_self ..)) fun _ _ =>
        yields_bind hs fun _ _ => trivial

theorem meets_encode {t : StreamType} {d : Datum} (hk : t.isKnown = true ∨ Lenient F)
    (ht : t.isWritten = true ∨ F .unwritable) (hd : d.isWritable = true ∨ F .unwritable) : Meets F (encode t d) := by
  induction t using StreamType.shape_induction generalizing d with
  | unknown =>
    unfold encode
    exact hr _ _
  | bool =>
    unfold encode
    split
    · trivial
    · exact yields_bind (Datum.meets_describe hd) fun _ _ => hr _ _
  | int bits =>
    unfold encode
    split
    · exact meets_encodeInt hr hk hd
    · exact yields_refuseDatum hr (StreamType.shown ht) hd
  | word bits =>
    unfold encode
    split
    · exact meets_encodeWord hr hk hd
    · exact yields_refuseDatum hr (StreamType.shown ht) hd
  | float bits =>
    unfold encode
    split
    · exact meets_encodeFloat hk _
    · exact meets_encodeFloat hk _
    · exact yields_refuseDatum hr (StreamType.shown ht) hd
  | array length element ih =>
    have hte : element.isWritten = true ∨ F .unwritable := ht.imp_left fun h => (Bool.and_eq_true_iff.1 h).2
    unfold encode
    split
    · trivial
    · split
      · next items hi =>
        split
        · have hitems : ∀ x ∈ items, Meets F (encode element x) := fun x hx =>
            ih hk hte (hd.imp_left fun hd => isWritable_of_sequence? (sequence?_of_elements? hi) hd x hx)
          exact yields_bind (yields_mapM hitems) fun _ _ => trivial
        · exact yields_refuseDatum hr (StreamType.shown ht) hd
      · exact yields_refuseDatum hr (StreamType.shown ht) hd
  | struct name fields ih =>
    unfold encode
    refine yields_bind (yields_fieldValues hr fields (StreamType.shown ht) hd) fun values hv => ?_
    refine yields_bind (meets_encodeFields fun f hf v hm => ?_) fun _ _ => trivial
    have htf : f.2.isWritten = true ∨ F .unwritable := ht.imp_left fun h => StreamType.fieldsWritten_iff.1 h f hf
    exact ih f hf (hk.imp_left fun h => StreamType.fieldsKnown_iff.1 h f hf) htf (hv v hm)

end Constant

section

variable (hr : ∀ e, F (.reported e))
include hr

namespace SymValue

omit hr in
def IsScalar (v : SymValue) : Prop :=
  ∃ k a, v = .scalar k a

omit hr in
theorem meets_zipItems {combine : Combining} {xs : List SymValue} (h : ∀ x ∈ xs, ∀ y, Meets F (zip combine x y))
    (ys : List SymValue) : Meets F (zipItems combine xs ys) := by
  induction xs generalizing ys with
  | nil => trivial
  | cons x xs ih =>
    cases ys with
    | nil => trivial
    | cons y ys =>
      rw [zipItems]
      have hs := ih (fun z hz => h z (List.mem_cons_of_mem _ hz)) ys
      exact yields_bind (h x (List.mem_cons_self ..) y) fun _ _ => yields_bind hs fun _ _ => trivial

theorem meets_select (cond : Term .bool) (x y : SymValue) : Meets F (select cond x y) := by
  unfold select
  induction x using Value.shape_induction generalizing y with
  | scalar s a =>
    cases y with
    | scalar t b =>
      rw [zip]
      split
      · trivial
      · exact hr _
    | _ => exact hr _
  | array xs ih =>
    cases y with
    | array ys =>
      rw [zip]
      split
      · split
        · exact yields_bind (meets_zipItems ih ys) fun _ _ => trivial
        · exact hr _
      · exact hr _
    | _ => exact hr _
  | struct xs ih =>
    cases y with
    | struct ys =>
      rw [zip]
      split
      · exact yields_bind (meets_zipItems ih ys) fun _ _ => trivial
      · exact hr _
    | _ => exact hr _

end SymValue

namespace Operator

open SymValue

theorem yields_onFloat (op : String) (build : (p : Precision) → FloatUnary (.float p) (.float p)) (x : SymValue) :
    Yields F IsScalar (onFloat op build x) := by
  unfold onFloat
  split
  · exact ⟨_, _, rfl⟩
  · exact hr _

theorem meets_getField (x : SymValue) (position : Option Int) : Meets F (getField x position) := by
  unfold getField
  split
  · dsimp only
    split
    · split
      · trivial
      · exact hr _
    · exact hr _
  · exact hr _

omit hr in
theorem isScalar_castScalar {x v : SymValue} {k : Scalar} (h : castScalar x k = some v) : v.IsScalar := by
  unfold castScalar at h
  split at h
  · cases h
    cases k <;> exact ⟨_, _, rfl⟩
  · cases k <;> cases h <;> exact ⟨_, _, rfl⟩
  · cases k <;> cases h <;> exact ⟨_, _, rfl⟩
  · cases k with
    | bool => cases h
    | float q =>
      simp only [castFloat] at h
      split at h <;> cases h <;> exact ⟨_, _, rfl⟩
    | _ =>
      cases h
      exact ⟨_, _, rfl⟩
  · cases h

theorem yields_cast (x : SymValue) {target : StreamType} (ht : target.isWritable = true ∨ F .unwritable) :
    Yields F IsScalar (cast x target) := by
  have hk : Meets F (castTarget target) := by
    unfold castTarget
    split
    · trivial
    · exact yields_bind (StreamType.meets_describe ht) fun _ _ => hr _
  refine yields_bind hk fun k _ => ?_
  split
  · next v hv => exact isScalar_castScalar hv
  · exact hr _

omit hr in
theorem yields_refuseName {α : Type} {Q : α → Prop} (hl : Lenient F) (arity : String) (name : Datum) :
    Yields F Q (refuseName arity name) :=
  yields_bind (Datum.meets_asText (.inr (hl _ rfl))) fun _ _ => hl _ rfl

theorem yields_unary {op : UnaryOp} (hop : op ∈ UnaryOp.known ∨ Lenient F) (hf : op.takesField = false) (x : SymValue)
    {result : StreamType} (ht : result.isWritable = true ∨ F .unwritable) (position : Option Int) :
    Yields F IsScalar (unary op x result position) := by
  cases op with
  | not =>
    rw [unary]
    unfold not
    split
    · exact ⟨_, _, rfl⟩
    · exact hr _
  | abs =>
    rw [unary]
    unfold abs
    split
    case h_4 => exact hr _
    all_goals exact ⟨_, _, rfl⟩
  | sign =>
    rw [unary]
    unfold sign
    split
    case h_4 => exact hr _
    all_goals exact ⟨_, _, rfl⟩
  | recip =>
    rw [unary]
    unfold recip
    split
    · exact ⟨_, _, rfl⟩
    · exact hr _
  | bitNot =>
    rw [unary]
    unfold bitNot
    split
    case h_3 => exact hr _
    all_goals exact ⟨_, _, rfl⟩
  | cast => exact yields_cast hr x ht
  | getField => cases hf
  | unknown name =>
    have hl : Lenient F := hop.resolve_left (by simp [UnaryOp.known])
    rw [unary, unknownUnary]
    split
    · exact yields_refuseName hl "unary" name
    · exact hl _ rfl
  | _ => exact yields_onFloat hr _ _ x

omit hr in
theorem isScalar_of_unary {op : UnaryOp} (hf : op.takesField = false) {x v : SymValue} {result : StreamType}
    {position : Option Int} (h : unary op x result position = .ok v) : v.IsScalar :=
  (yields_unary (F := fun _ => True) (fun _ => trivial) (.inr fun _ _ => trivial) hf x (.inr trivial) position).of_ok h

theorem meets_unary {op : UnaryOp} (hop : op ∈ UnaryOp.known ∨ Lenient F) (x : SymValue) {result : StreamType}
    (ht : result.isWritable = true ∨ F .unwritable) (position : Option Int) : Meets F (unary op x result position) := by
  cases hf : op.takesField with
  | true =>
    cases op with
    | getField => exact meets_getField hr x position
    | _ => cases hf
  | false => exact (yields_unary hr hop hf x ht position).meets

theorem meets_pair (op : String) (family : Family) (x y : SymValue) : Meets F (pair op family x y) := by
  unfold pair
  split
  · split
    · split
      · trivial
      · exact hr _
    · exact hr _
  · exact hr _

theorem meets_equal (x y : SymValue) : Meets F (equal x y) := by
  unfold equal
  split
  · split
    · trivial
    case h_5 => exact hr _
    all_goals
      split
      · trivial
      · exact hr _
  · exact hr _

theorem yields_arith (op : Arithmetic) (x y : SymValue) : Yields F IsScalar (arith op x y) := by
  refine yields_bind (meets_pair hr _ .numeric x y) fun _ _ => ?_
  split
  case h_4 => exact hr _
  all_goals exact ⟨_, _, rfl⟩

theorem yields_compare (op : Comparison) (x y : SymValue) : Yields F IsScalar (compare op x y) := by
  refine yields_bind (meets_pair hr _ .numeric x y) fun _ _ => ?_
  split
  case h_4 => exact hr _
  all_goals exact ⟨_, _, rfl⟩

theorem yields_integral (op : String) (build : Bool → (w : Width) → CoreBinary (.bits w) (.bits w) (.bits w))
    (x y : SymValue) : Yields F IsScalar (integral op build x y) := by
  refine yields_bind (meets_pair hr op .integral x y) fun _ _ => ?_
  split
  case h_3 => exact hr _
  all_goals exact ⟨_, _, rfl⟩

theorem yields_onFloats (op : String) (build : (p : Precision) → FloatBinary (.float p) (.float p) (.float p))
    (x y : SymValue) : Yields F IsScalar (onFloats op build x y) := by
  refine yields_bind (meets_pair hr op .float x y) fun _ _ => ?_
  split
  · exact ⟨_, _, rfl⟩
  · exact hr _

theorem yields_logic (op : String) (core : CoreBinary .bool .bool .bool) (x y : SymValue) :
    Yields F IsScalar (logic op core x y) := by
  unfold logic
  split
  · exact ⟨_, _, rfl⟩
  · exact hr _

theorem yields_shift (left : Bool) (x y : SymValue) : Yields F IsScalar (shift left x y) := by
  unfold shift
  dsimp only
  split
  case h_5 => exact hr _
  all_goals exact ⟨_, _, rfl⟩

omit hr in
theorem yields_unknownBinary {α : Type} {Q : α → Prop} (hl : Lenient F) (name : Datum) :
    Yields F Q (unknownBinary name) := by
  unfold unknownBinary
  split
  · exact yields_refuseName hl "binary" name
  · exact hl _ rfl

theorem yields_binary {op : BinaryOp} (hop : op ∈ BinaryOp.known ∧ op ≠ .index ∨ Lenient F) (x y : SymValue) :
    Yields F IsScalar (binary op x y) := by
  cases op with
  | and => exact yields_logic hr _ _ x y
  | or => exact yields_logic hr _ _ x y
  | arith op => exact yields_arith hr op x y
  | eq => exact yields_bind (meets_equal hr x y) fun _ _ => ⟨_, _, rfl⟩
  | ne => exact yields_bind (meets_equal hr x y) fun _ _ => ⟨_, _, rfl⟩
  | compare op => exact yields_compare hr op x y
  | shiftLeft => exact yields_shift hr true x y
  | shiftRight => exact yields_shift hr false x y
  | fdiv => exact yields_onFloats hr _ _ x y
  | call f => exact yields_onFloats hr _ _ x y
  | index => exact yields_unknownBinary (hop.resolve_left fun h => h.2 rfl) _
  | unknown name => exact yields_unknownBinary (hop.resolve_left (by simp [BinaryOp.known])) name
  | bitwise op => exact yields_integral hr _ (fun _ => .bitwise op) x y
  | _ => exact yields_integral hr _ _ x y

omit hr in
theorem isScalar_of_binary {op : BinaryOp} {x y v : SymValue} (h : binary op x y = .ok v) : v.IsScalar :=
  (yields_binary (F := fun _ => True) (fun _ => trivial) (.inr fun _ _ => trivial) x y).of_ok h

theorem meets_indexOperands (x y : SymValue) : Meets F (indexOperands x y) := by
  have hi : Meets F (indexedItems x) := by
    unfold indexedItems
    split
    · trivial
    · exact hr _
  refine yields_bind hi fun _ _ => ?_
  split
  · trivial
  · trivial
  · exact hr _

theorem meets_lookupFrom (i : Index) (outside : SymValue) (position : Nat) (items : List SymValue) :
    Meets F (lookupFrom i outside position items) := by
  induction items generalizing position with
  | nil => trivial
  | cons v items ih =>
    rw [lookupFrom]
    refine yields_bind (ih _) fun others _ => ?_
    split
    · trivial
    · split
      · exact SymValue.meets_select hr _ _ _
      · exact hr _

theorem meets_ternary {op : TernaryOp} (hop : op = .mux ∨ Lenient F) (x y z : SymValue) :
    Meets F (ternary op x y z) := by
  cases op with
  | mux =>
    have hc : Meets F (muxCondition x) := by
      unfold muxCondition
      split
      · trivial
      · exact hr _
    exact yields_bind hc fun _ _ => SymValue.meets_select hr _ y z
  | unknown name => exact yields_refuseName (hop.resolve_left (by simp)) "ternary" name

end Operator

end

theorem StreamType.meets_scalar {t : StreamType} (h : t.isScalar = true ∨ Lenient F) : Meets F t.scalar := by
  unfold scalar
  split
  · trivial
  · next hn =>
    refine h.elim (fun hs => ?_) fun hl => hl _ rfl
    rw [isScalar, hn] at hs
    cases hs

theorem Supply.halts_draw {t : StreamType} (hk : t.isKnown = true ∨ Lenient F) (hh : F .halfInName) (hint : String) :
    Halts F (draw t hint) := by
  refine Inductive.draw (P := fun t _ m => t.isKnown = true ∨ Lenient F → Halts F m)
    (Q := fun parts m => (∀ p ∈ parts, p.1.isKnown = true ∨ Lenient F) → Halts F m) ⟨?_, ?_, ?_, ?_, ?_⟩ t hint hk
  · intro t hint ha hs hk s
    have hscalar : t.isScalar = true ∨ Lenient F := by
      refine hk.imp_left fun hk => ?_
      cases t with
      | array length element => exact absurd rfl (ha length element)
      | struct name fields => exact absurd rfl (hs name fields)
      | _ => exact hk
    have hmeets := StreamType.meets_tag hk
    rw [run_drawScalar]
    cases htag : t.tag with
    | error f =>
      rw [htag] at hmeets
      exact hmeets
    | ok tag =>
      have hmeets := StreamType.meets_scalar hscalar
      cases hk : t.scalar with
      | error f =>
        rw [hk] at hmeets
        exact hmeets
      | ok k =>
        dsimp only
        cases Text.hasHalves (hintText hint) with
        | true => exact hh
        | false => trivial
  · exact fun _ => halts_pure _
  · intro t hint parts m n hm hn hp
    exact halts_bind (hm (hp _ (List.mem_cons_self ..))) fun v =>
      halts_bind (hn fun p h => hp p (List.mem_cons_of_mem _ h)) fun vs => halts_pure _
  · intro length element hint m hm hk
    refine halts_bind (hm fun p hp => ?_) fun items => halts_pure _
    obtain ⟨i, _, rfl⟩ := List.mem_map.1 hp
    exact hk
  · intro name fields hint m hm hk
    refine halts_bind (hm fun p hp => ?_) fun items => halts_pure _
    obtain ⟨f, hf, rfl⟩ := List.mem_map.1 hp
    exact hk.imp_left fun hk => StreamType.fieldsKnown_iff.1 hk f hf

namespace Encoding

theorem halts_draw {t : StreamType} {hint : String} (h : Halts F (Supply.draw t hint)) : Halts F (draw t hint) :=
  fun s => h s.supply

theorem halts_memoized {u : Unknown} {make : Encoding SymValue} {after : Encoding Unit} (hm : Halts F make)
    (ha : Halts F after) : Halts F (memoized u make after) := by
  intro s
  rw [run_memoized]
  split
  · trivial
  · have h := hm s.missed
    split
    · exact halts_bind ha (fun _ => halts_pure _) _
    · next hr =>
      rw [hr] at h
      exact h

theorem halts_past (hr : ∀ e, F (.reported e)) {registry : Registry} {id o : Int} (ho : o < 0 ∨ Lenient F)
    (hi : Text.isWritable id = true ∨ F .unwritable) (hw : Text.isWritable o = true ∨ F .unwritable)
    (hd : ∀ st, registry.find? id = some st → Halts F (Supply.draw st.type (pastHint id o))) :
    Halts F (past registry id o) := by
  rw [past_eq]
  split
  · exact halts_throw (ho.elim (by omega) fun hl => hl _ rfl)
  · refine halts_memoized ?_ fun _ => trivial
    refine halts_bind_lift (Registry.yields_get hr hi) fun st hst => ?_
    refine halts_bind_lift (yields_writeInt hi) ?_
    rintro _ rfl
    refine halts_bind_lift (yields_writeInt hw) ?_
    rintro _ rfl
    exact halts_draw (hd st hst)

theorem halts_input {name : String} {t : StreamType} {o : Int} (ho : o ≤ 0 ∨ Lenient F)
    (hw : Text.isWritable o = true ∨ F .unwritable) (hd : Halts F (Supply.draw t (inputHint name o))) :
    Halts F (input name t o) := by
  rw [input_eq]
  split
  · exact halts_throw (ho.elim (by omega) fun hl => hl _ rfl)
  · refine halts_memoized (halts_bind_lift (yields_writeInt hw) ?_) (halts_pure _)
    rintro _ rfl
    exact halts_draw hd

theorem halts_outside {l : Lookup} (hd : Halts F (Supply.draw l.element "index_out_of_range")) :
    Halts F (outside l) := by
  rw [outside_eq]
  exact halts_memoized (halts_draw hd) (halts_pure _)

end Encoding

def Expr.isWritten : Expr → Bool
  | .const t d => t.isWritten && d.isWritable
  | .drop _ k id => Text.isWritable k && Text.isWritable id
  | .unary t _ arg _ => t.isWritten && arg.type.isWritten
  | _ => true

theorem Expr.meets_describe {e : Expr} (h : e.isWritten = true ∨ F .unwritable) : Meets F e.describe := by
  cases e with
  | drop t k id =>
    have hk := h.imp_left fun h => (Bool.and_eq_true_iff.1 h).1
    have hi := h.imp_left fun h => (Bool.and_eq_true_iff.1 h).2
    exact yields_bind (yields_writeInt hi) fun _ _ => yields_bind (yields_writeInt hk) fun _ _ => trivial
  | _ => trivial

namespace Encoding

variable (hr : ∀ e, F (.reported e))
include hr

theorem halts_binary {op : BinaryOp} (hop : op ∈ BinaryOp.known ∨ Lenient F) (x y : SymValue) {t : StreamType}
    (hd : op = .index → Halts F (Supply.draw t "index_out_of_range")) : Halts F (binary op x y t) := by
  by_cases hi : op = .index
  · subst hi
    refine halts_bind_lift (Operator.meets_indexOperands hr x y) fun (items, i) _ => ?_
    exact halts_bind (halts_outside (hd rfl)) fun _ => halts_lift (Operator.meets_lookupFrom hr i _ 0 items)
  · rw [binary_of_ne_index hi]
    exact halts_lift (Operator.yields_binary hr (hop.imp_left fun h => ⟨h, hi⟩) x y)

theorem halts_checked {e : Expr} (hk : e.type.isKnown = true ∨ Lenient F) (hw : e.isWritten = true ∨ F .unwritable)
    (v : SymValue) : Halts F (checked e v) := by
  unfold checked
  refine halts_bind_lift (StreamType.meets_tag hk) fun tag _ => ?_
  split
  · exact fun _ => trivial
  · exact halts_bind_lift (Expr.meets_describe hw) fun _ _ => halts_throw (hr _)

theorem meets_positionTaken {op : UnaryOp} {arg : Expr} {field : Datum} (hf : field.isWritable = true ∨ F .unwritable)
    (ht : arg.type.isWritable = true ∨ F .unwritable) : Meets F (positionTaken op arg field) := by
  unfold positionTaken
  split
  · have hp : Meets F (fieldPosition arg field) := by
      unfold fieldPosition
      split
      · split
        · trivial
        · exact yields_bind (Datum.meets_asText hf) fun _ _ => hr _
      · exact yields_bind (StreamType.meets_describe ht) fun _ _ => hr _
    exact yields_bind hp fun _ _ => trivial
  · trivial

end Encoding

theorem Registry.decides_get (registry : Registry) (id : Int) : Decides (registry.get id) :=
  decides_of_yields (Registry.yields_get reported_ne_endless (.inr unwritable_ne_endless))

theorem Constant.decides_encode (t : StreamType) (d : Datum) : Decides (encode t d) :=
  decides_of_yields (meets_encode (fun _ _ => reported_ne_endless _) (.inr lenient_ne_endless)
    (.inr unwritable_ne_endless) (.inr unwritable_ne_endless))

theorem Operator.decides_unary (op : UnaryOp) (x : SymValue) (result : StreamType) (position : Option Int) :
    Decides (unary op x result position) :=
  decides_of_yields (meets_unary reported_ne_endless (.inr lenient_ne_endless) x (.inr unwritable_ne_endless) position)

theorem Operator.decides_ternary (op : TernaryOp) (x y z : SymValue) : Decides (ternary op x y z) :=
  decides_of_yields (meets_ternary reported_ne_endless (.inr lenient_ne_endless) x y z)

namespace Encoding

theorem halts_anyDraw (t : StreamType) (hint : String) : Halts (· ≠ .endless) (Supply.draw t hint) :=
  Supply.halts_draw (.inr lenient_ne_endless) (lenient_ne_endless _ rfl) hint

theorem ends_past (registry : Registry) (id o : Int) : Ends (past registry id o) :=
  ends_of_halts (halts_past reported_ne_endless (.inr lenient_ne_endless) (.inr unwritable_ne_endless)
    (.inr unwritable_ne_endless) fun st _ => halts_anyDraw st.type _)

theorem ends_input (name : String) (t : StreamType) (o : Int) : Ends (input name t o) :=
  ends_of_halts (halts_input (.inr lenient_ne_endless) (.inr unwritable_ne_endless) (halts_anyDraw t _))

theorem ends_binary (op : BinaryOp) (x y : SymValue) (t : StreamType) : Ends (binary op x y t) :=
  ends_of_halts (halts_binary reported_ne_endless (.inr lenient_ne_endless) x y fun _ => halts_anyDraw t _)

theorem ends_checked (e : Expr) (v : SymValue) : Ends (checked e v) :=
  ends_of_halts (halts_checked reported_ne_endless (.inr lenient_ne_endless) (.inr unwritable_ne_endless) v)

theorem decides_positionTaken (op : UnaryOp) (arg : Expr) (field : Datum) : Decides (positionTaken op arg field) :=
  decides_of_yields (meets_positionTaken reported_ne_endless (.inr unwritable_ne_endless) (.inr unwritable_ne_endless))

end Encoding

end OneStep
