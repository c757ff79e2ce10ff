import OneStep.Proofs.Constants
import OneStep.Proofs.Rendering

namespace OneStep

namespace StreamType

mutual

def isDistinct : StreamType → Bool
  | .array _ element => element.isDistinct
  | .struct _ fields => decide (fields.map (·.1)).Nodup && fieldsDistinct fields
  | _ => true

def fieldsDistinct : List (String × StreamType) → Bool
  | [] => true
  | (_, t) :: fields => t.isDistinct && fieldsDistinct fields

end

theorem fieldsDistinct_iff {fields : List (String × StreamType)} :
    fieldsDistinct fields = true ↔ ∀ f ∈ fields, f.2.isDistinct = true := by
  induction fields with
  | nil => simp [fieldsDistinct]
  | cons f fields ih =>
    obtain ⟨name, t⟩ := f
    simp [fieldsDistinct, ih]

theorem isDistinct_struct_iff {name : String} {fields : List (String × StreamType)} :
    (struct name fields).isDistinct = true ↔ (fields.map (·.1)).Nodup ∧ ∀ f ∈ fields, f.2.isDistinct = true := by
  rw [isDistinct, Bool.and_eq_true, decide_eq_true_eq, fieldsDistinct_iff]

end StreamType

theorem Datum.find?_insert (entries : List (Datum × Datum)) (name : String) (d : Datum) (key : String) :
    find? (insert entries (.text name) d) key = if name = key then some d else find? entries key := by
  induction entries with
  | nil => rfl
  | cons e entries ih =>
    obtain ⟨k, x⟩ := e
    rw [insert]
    split
    · next hk =>
      obtain rfl := Spec.Decode.sameKey_text hk
      simp only [find?]
      split <;> rfl
    · next hk =>
      cases k with
      | text s =>
        simp only [find?, ih]
        by_cases hs : s = key
        · have hne : name ≠ key := fun hn => hk (by simp [sameKey, hs, hn])
          rw [if_pos hs, if_neg hne, if_pos hs]
        · rw [if_neg hs, if_neg hs]
      | _ => simpa only [find?] using ih

namespace Constant

open Spec.Decode (literal fieldLiterals)

inductive Writes (fields : List (String × StreamType)) (values : List Datum) : Datum → Prop where
  | ordered : Writes fields values (.list values)
  | named : Writes fields values (.map (List.zipWith (fun f x => (.text f.1, x)) fields values))

inductive Alike : StreamType → Datum → Datum → Prop where
  | same (t : StreamType) (d : Datum) : Alike t d d
  | array {length : Nat} {element : StreamType} {items items' : List Datum}
      (h : List.Forall₂ (fun p x => Alike p.1 p.2 x) (items.map (element, ·)) items') :
      Alike (.array length element) (.list items) (.list items')
  | struct {name : String} {fields : List (String × StreamType)} {values values' : List Datum} {d d' : Datum}
      (hl : values.length = fields.length)
      (h : List.Forall₂ (fun p x => Alike p.1.2 p.2 x) (fields.zip values) values')
      (hd : Writes fields values d) (hd' : Writes fields values' d') : Alike (.struct name fields) d d'

inductive Holds : StreamType → Datum → StreamType → Datum → Prop where
  | here (t : StreamType) (d : Datum) : Holds t d t d
  | item {length : Nat} {element u : StreamType} {d x y : Datum} {items : List Datum} (hd : d.unroll = .list items)
      (hx : x ∈ items) (h : Holds element x u y) : Holds (.array length element) d u y
  | ordered {name : String} {fields : List (String × StreamType)} {u : StreamType} {d y : Datum} {values : List Datum}
      {p : (String × StreamType) × Datum} (hd : d.unroll = .list values) (hp : p ∈ fields.zip values)
      (h : Holds p.1.2 p.2 u y) : Holds (.struct name fields) d u y
  | named {name : String} {fields : List (String × StreamType)} {f : String × StreamType} {u : StreamType}
      {d x y : Datum} {entries : List (Datum × Datum)} (hd : d.unroll = .map entries) (hf : f ∈ fields)
      (hx : Datum.find? entries f.1 = some x) (h : Holds f.2 x u y) : Holds (.struct name fields) d u y

def Textless (t : StreamType) (d : Datum) : Prop :=
  ∀ bits s, ¬Holds t d (.float bits) (.text s)

def Spelled (t : StreamType) (d : Datum) : Prop :=
  ∀ name fields x values, Holds t d (.struct name fields) x → x.unroll = .list values → Textless (.struct name fields) x

theorem Spelled.part {t u : StreamType} {d x : Datum} (hs : Spelled t d)
    (h : ∀ v y, Holds u x v y → Holds t d v y) : Spelled u x :=
  fun name fields y values hy => hs name fields y values (h _ y hy)

def Readable (t : StreamType) (d : Datum) : Prop :=
  ∃ x, literal t d = .ok x

def Reads (t : StreamType) (d : Datum) (v : SymValue) : Prop :=
  ∃ x, literal t d = .ok x ∧ encode t x = .ok v

theorem Reads.readable {t : StreamType} {d : Datum} {v : SymValue} (h : Reads t d v) : Readable t d :=
  h.imp fun _ h => h.1

theorem reads_of_kept {t : StreamType} {d : Datum} (h : literal t d = .ok d) :
    Readable t d ∧ ∀ v, Reads t d v ↔ encode t d = .ok v := by
  refine ⟨⟨d, h⟩, fun v => ⟨?_, fun hv => ⟨d, h, hv⟩⟩⟩
  rintro ⟨x, hx, hv⟩
  rw [h] at hx
  cases hx
  exact hv

section

variable {α β γ : Type}

theorem forall₂_exists_iff {R : α → β → Prop} {Q : α → β → γ → Prop} {xs : List α} {zs : List γ} :
    List.Forall₂ (fun x z => ∃ y, R x y ∧ Q x y z) xs zs ↔
      ∃ ys, List.Forall₂ R xs ys ∧ List.Forall₂ (fun p z => Q p.1 p.2 z) (xs.zip ys) zs := by
  constructor
  · intro h
    induction h with
    | nil => exact ⟨[], .nil, .nil⟩
    | cons h _ ih =>
      obtain ⟨y, hr, hq⟩ := h
      obtain ⟨ys, hrs, hqs⟩ := ih
      exact ⟨y :: ys, .cons hr hrs, .cons hq hqs⟩
  · rintro ⟨ys, hr, hq⟩
    induction hr generalizing zs with
    | nil =>
      cases hq
      exact .nil
    | cons hr _ ih =>
      cases hq with
      | cons hq hqs => exact .cons ⟨_, hr, hq⟩ (ih hqs)

theorem forall₂_comp_iff {R : α → β → Prop} {Q : β → γ → Prop} {xs : List α} {zs : List γ} :
    List.Forall₂ (fun x z => ∃ y, R x y ∧ Q y z) xs zs ↔ ∃ ys, List.Forall₂ R xs ys ∧ List.Forall₂ Q ys zs := by
  rw [forall₂_exists_iff (Q := fun _ y z => Q y z)]
  refine exists_congr fun ys => and_congr_right fun hr => ?_
  rw [← List.forall₂_map_left_iff (f := Prod.snd), List.map_snd_zip hr.length_eq.ge]

theorem forall₂_congr_left {R : α → γ → Prop} {S : β → γ → Prop} {xs : List α} {ys : List β} {zs : List γ}
    (h : List.Forall₂ (fun x y => ∀ z, R x z ↔ S y z) xs ys) : List.Forall₂ R xs zs ↔ List.Forall₂ S ys zs := by
  induction h generalizing zs with
  | nil => simp
  | cons h _ ih => simp [List.forall₂_cons_left_iff, h, ih]

theorem forall_mem_congr {P : α → Prop} {Q : β → Prop} {xs : List α} {ys : List β}
    (h : List.Forall₂ (fun x y => P x ↔ Q y) xs ys) : (∀ x ∈ xs, P x) ↔ ∀ y ∈ ys, Q y := by
  induction h with
  | nil => simp
  | cons h _ ih => simp [h, ih]

theorem forall₂_zip_right {R : α × β → γ → Prop} {xs : List α} {ys : List β} {zs : List γ}
    (hl : ys.length = xs.length) (h : List.Forall₂ R (xs.zip ys) zs) :
    List.Forall₂ (fun p q => p.1 = q.1 ∧ R p q.2) (xs.zip ys) (xs.zip zs) := by
  induction xs generalizing ys zs with
  | nil => exact .nil
  | cons x xs ih =>
    cases ys with
    | nil => cases hl
    | cons y ys =>
      cases h with
      | cons h hs => exact .cons ⟨rfl, h⟩ (ih (Nat.succ.inj hl) hs)

end

variable {name : String} {length : Nat} {element : StreamType} {fields : List (String × StreamType)}

theorem literal_list_eq_ok_iff {d x : Datum} {items : List Datum} (hd : d.unroll = .list items) :
    literal (.array length element) d = .ok x ↔
      ∃ xs, List.Forall₂ (fun d x => literal element d = .ok x) items xs ∧ x = .tuple xs := by
  rw [literal, hd]
  constructor
  · intro h
    obtain ⟨xs, hxs, h⟩ := Outcome.bind_eq_ok_iff.1 h
    cases h
    exact ⟨xs, Outcome.mapM_eq_ok_iff.1 hxs, rfl⟩
  · rintro ⟨xs, hxs, rfl⟩
    exact Outcome.bind_eq_ok_iff.2 ⟨xs, Outcome.mapM_eq_ok_iff.2 hxs, rfl⟩

theorem readable_list_iff {d : Datum} {items : List Datum} (hd : d.unroll = .list items) :
    Readable (.array length element) d ↔ ∀ x ∈ items, Readable element x := by
  unfold Readable
  simp only [literal_list_eq_ok_iff hd]
  constructor
  · rintro ⟨_, xs, hxs, _⟩ x hx
    obtain ⟨y, _, hy⟩ := Outcome.forall₂_exists_of_mem hxs hx
    exact ⟨y, hy⟩
  · intro h
    obtain ⟨xs, hxs⟩ := Outcome.exists_forall₂ h
    exact ⟨_, xs, hxs, rfl⟩

theorem reads_empty_iff {d : Datum} {v : SymValue} :
    Reads (.array 0 element) d v ↔ Readable (.array 0 element) d ∧ v = .array [] := by
  constructor
  · rintro ⟨x, hx, hv⟩
    rw [encode_empty] at hv
    cases hv
    exact ⟨⟨x, hx⟩, rfl⟩
  · rintro ⟨⟨x, hx⟩, rfl⟩
    exact ⟨x, hx, encode_empty element x⟩

theorem lists_tuple_iff {xs items : List Datum} : (Datum.tuple xs).Lists items ↔ items = xs := by
  constructor
  · rintro (h | h) <;> cases h
    rfl
  · rintro rfl
    exact .tuple rfl

theorem lists_iff_of_list {d : Datum} {xs items : List Datum} (hd : d.unroll = .list xs) :
    d.Lists items ↔ items = xs := by
  constructor
  · rintro (h | h) <;> rw [hd] at h <;> cases h
    rfl
  · rintro rfl
    exact .list hd

theorem reads_list_iff {d : Datum} {items : List Datum} {v : SymValue} (hz : length ≠ 0) (hd : d.unroll = .list items) :
    Reads (.array length element) d v ↔
      items.length = length ∧ ∃ vs, List.Forall₂ (Reads element) items vs ∧ v = .array vs := by
  unfold Reads
  simp only [literal_list_eq_ok_iff hd, encode_array_eq_ok_iff hz, forall₂_comp_iff]
  constructor
  · rintro ⟨_, ⟨xs, hxs, rfl⟩, items', vs, hl, hlen, hvs, rfl⟩
    obtain rfl := lists_tuple_iff.1 hl
    exact ⟨hxs.length_eq.trans hlen, vs, ⟨items', hxs, hvs⟩, rfl⟩
  · rintro ⟨hlen, vs, ⟨xs, hxs, hvs⟩, rfl⟩
    exact ⟨_, ⟨xs, hxs, rfl⟩, xs, vs, lists_tuple_iff.2 rfl, hxs.length_eq.symm.trans hlen, hvs, rfl⟩

theorem encode_list_iff {d : Datum} {items : List Datum} {v : SymValue} (hz : length ≠ 0)
    (hd : d.unroll = .list items) :
    encode (.array length element) d = .ok v ↔
      items.length = length ∧ ∃ vs, List.Forall₂ (fun d v => encode element d = .ok v) items vs ∧ v = .array vs := by
  rw [encode_array_eq_ok_iff hz]
  simp only [lists_iff_of_list hd]
  constructor
  · rintro ⟨_, vs, rfl, hlen, hvs, rfl⟩
    exact ⟨hlen, vs, hvs, rfl⟩
  · rintro ⟨hlen, vs, hvs, rfl⟩
    exact ⟨items, vs, rfl, hlen, hvs, rfl⟩

theorem exists_fieldLiterals_iff {entries done : List (Datum × Datum)} :
    (∃ out, fieldLiterals fields entries done = .ok out) ↔
      ∀ f ∈ fields, ∀ d, Datum.find? entries f.1 = some d → Readable f.2 d := by
  induction fields generalizing done with
  | nil => simp [fieldLiterals]
  | cons f fields ih =>
    rw [List.forall_mem_cons, fieldLiterals]
    cases he : Datum.find? entries f.1 with
    | none => simp [ih]
    | some d =>
      simp only [Outcome.bind_eq_ok_iff, Option.some.injEq, forall_eq']
      constructor
      · rintro ⟨out, x, hx, ho⟩
        exact ⟨⟨x, hx⟩, ih.1 ⟨out, ho⟩⟩
      · rintro ⟨⟨x, hx⟩, h⟩
        obtain ⟨out, ho⟩ := ih.2 h
        exact ⟨out, x, hx, ho⟩

theorem find?_fieldLiterals {entries done out : List (Datum × Datum)} (hn : (fields.map (·.1)).Nodup)
    (h : fieldLiterals fields entries done = .ok out) :
    (∀ f ∈ fields, Datum.find? done f.1 = none → ∀ x,
      Datum.find? out f.1 = some x ↔ ∃ d, Datum.find? entries f.1 = some d ∧ literal f.2 d = .ok x) ∧
    ∀ key, key ∉ fields.map (·.1) → Datum.find? out key = Datum.find? done key := by
  induction fields generalizing done with
  | nil =>
    rw [fieldLiterals] at h
    cases h
    simp
  | cons f fields ih =>
    obtain ⟨hnew, hn⟩ := List.nodup_cons.1 hn
    rw [fieldLiterals] at h
    cases he : Datum.find? entries f.1 with
    | none =>
      rw [he] at h
      obtain ⟨hfound, hkept⟩ := ih hn h
      refine ⟨fun g hg hd x => ?_, fun key hk => hkept key fun hm => hk (List.mem_cons_of_mem _ hm)⟩
      rcases List.mem_cons.1 hg with rfl | hg
      · rw [he, hkept _ hnew, hd]
        simp
      · exact hfound g hg hd x
    | some d =>
      rw [he] at h
      obtain ⟨y, hy, h⟩ := Outcome.bind_eq_ok_iff.1 h
      obtain ⟨hfound, hkept⟩ := ih hn h
      refine ⟨fun g hg hd x => ?_, fun key hk => ?_⟩
      · rcases List.mem_cons.1 hg with rfl | hg
        · rw [he, hkept _ hnew, Datum.find?_insert, if_pos rfl]
          simp [hy]
        · have hne : f.1 ≠ g.1 := fun heq => hnew (List.mem_map.2 ⟨g, hg, heq.symm⟩)
          refine hfound g hg ?_ x
          rw [Datum.find?_insert, if_neg hne, hd]
      · obtain ⟨hne, hk⟩ := not_or.1 (mt List.mem_cons.2 hk)
        rw [hkept key hk, Datum.find?_insert, if_neg (Ne.symm hne)]

theorem literal_map_eq_ok_iff {d x : Datum} {entries : List (Datum × Datum)} (hd : d.unroll = .map entries) :
    literal (.struct name fields) d = .ok x ↔ ∃ out, fieldLiterals fields entries [] = .ok out ∧ x = .map out := by
  rw [literal, hd]
  constructor
  · intro h
    obtain ⟨out, ho, h⟩ := Outcome.bind_eq_ok_iff.1 h
    cases h
    exact ⟨out, ho, rfl⟩
  · rintro ⟨out, ho, rfl⟩
    exact Outcome.bind_eq_ok_iff.2 ⟨out, ho, rfl⟩

theorem readable_map_iff {d : Datum} {entries : List (Datum × Datum)} (hd : d.unroll = .map entries) :
    Readable (.struct name fields) d ↔ ∀ f ∈ fields, ∀ x, Datum.find? entries f.1 = some x → Readable f.2 x := by
  rw [← @exists_fieldLiterals_iff fields entries [], Readable]
  simp only [literal_map_eq_ok_iff hd]
  exact ⟨fun ⟨_, out, ho, _⟩ => ⟨out, ho⟩, fun ⟨out, ho⟩ => ⟨_, out, ho, rfl⟩⟩

theorem encode_map_iff {d : Datum} {entries : List (Datum × Datum)} {v : SymValue} (hd : d.unroll = .map entries) :
    encode (.struct name fields) d = .ok v ↔ ∃ vs, List.Forall₂ (fun f v =>
      ∃ x, Datum.find? entries f.1 = some x ∧ encode f.2 x = .ok v) fields vs ∧ v = .struct vs := by
  simp only [encode_struct_eq_ok_iff,
    forall₂_exists_iff (Q := fun (f : String × StreamType) x v => encode f.2 x = .ok v)]
  constructor
  · rintro ⟨values, vs, hg, hvs, rfl⟩
    cases hg with
    | named hd' hv =>
      rw [hd] at hd'
      cases hd'
      exact ⟨vs, ⟨values, hv, hvs⟩, rfl⟩
    | ordered ho => rcases ho with (h | h) | h | h <;> rw [hd] at h <;> cases h
  · rintro ⟨vs, ⟨values, hv, hvs⟩, rfl⟩
    exact ⟨values, vs, .named hd hv, hvs, rfl⟩

theorem reads_map_iff {d : Datum} {entries : List (Datum × Datum)} {v : SymValue} (hn : (fields.map (·.1)).Nodup)
    (hd : d.unroll = .map entries) : Reads (.struct name fields) d v ↔ ∃ vs, List.Forall₂ (fun f v =>
      ∃ x, Datum.find? entries f.1 = some x ∧ Reads f.2 x v) fields vs ∧ v = .struct vs := by
  have hfields : ∀ {out}, fieldLiterals fields entries [] = .ok out → ∀ f ∈ fields, ∀ v,
      (∃ y, Datum.find? out f.1 = some y ∧ encode f.2 y = .ok v) ↔
        ∃ x, Datum.find? entries f.1 = some x ∧ Reads f.2 x v := by
    intro out ho f hf v
    simp only [(find?_fieldLiterals hn ho).1 f hf rfl]
    exact ⟨fun ⟨y, ⟨x, hx, hy⟩, hv⟩ => ⟨x, hx, y, hy, hv⟩, fun ⟨x, hx, y, hy, hv⟩ => ⟨y, ⟨x, hx, hy⟩, hv⟩⟩
  constructor
  · rintro ⟨x, hx, hv⟩
    obtain ⟨out, ho, rfl⟩ := (literal_map_eq_ok_iff hd).1 hx
    obtain ⟨vs, hvs, rfl⟩ := (encode_map_iff rfl).1 hv
    exact ⟨vs, Outcome.forall₂_imp_of_mem (fun f hf v _ => (hfields ho f hf v).1) hvs, rfl⟩
  · rintro ⟨vs, hvs, rfl⟩
    obtain ⟨y, hy⟩ : Readable (.struct name fields) d := by
      refine (readable_map_iff hd).2 fun f hf x hx => ?_
      obtain ⟨v, _, x', hx', hr⟩ := Outcome.forall₂_exists_of_mem hvs hf
      rw [hx] at hx'
      cases hx'
      exact hr.readable
    obtain ⟨out, ho, rfl⟩ := (literal_map_eq_ok_iff hd).1 hy
    exact ⟨_, hy, (encode_map_iff rfl).2
      ⟨vs, Outcome.forall₂_imp_of_mem (fun f hf v _ => (hfields ho f hf v).2) hvs, rfl⟩⟩

theorem literal_array_kept {d : Datum} (h : ¬∃ items, d.unroll = .list items) :
    literal (.array length element) d = .ok d := by
  rw [literal]
  split
  · next hd => exact absurd ⟨_, hd⟩ h
  · rfl

theorem literal_struct_kept {d : Datum} (h : ¬∃ entries, d.unroll = .map entries) :
    literal (.struct name fields) d = .ok d := by
  rw [literal]
  split
  · next hd => exact absurd ⟨_, hd⟩ h
  · rfl

theorem reads_of_textless {t : StreamType} {d : Datum} (hn : t.isDistinct = true) (h : Textless t d) :
    Readable t d ∧ ∀ v, Reads t d v ↔ encode t d = .ok v := by
  induction t using StreamType.shape_induction generalizing d with
  | unknown => exact reads_of_kept rfl
  | bool => exact reads_of_kept rfl
  | int bits => exact reads_of_kept rfl
  | word bits => exact reads_of_kept rfl
  | float bits =>
    cases d with
    | text s => exact absurd (.here _ _) (h bits s)
    | _ => exact reads_of_kept rfl
  | array length element ih =>
    by_cases hd : ∃ items, d.unroll = .list items
    · obtain ⟨items, hd⟩ := hd
      have hi : ∀ x ∈ items, Readable element x ∧ ∀ v, Reads element x v ↔ encode element x = .ok v :=
        fun x hx => ih hn fun bits s hb => h bits s (.item hd hx hb)
      have hr : Readable (.array length element) d := (readable_list_iff hd).2 fun x hx => (hi x hx).1
      refine ⟨hr, fun v => ?_⟩
      by_cases hz : length = 0
      · subst hz
        rw [reads_empty_iff, encode_empty, Except.ok.injEq, eq_comm]
        exact and_iff_right hr
      · rw [reads_list_iff hz hd, encode_list_iff hz hd]
        have hf : List.Forall₂ (fun x y => ∀ v, Reads element x v ↔ encode element y = .ok v) items items :=
          List.forall₂_same.2 fun x hx => (hi x hx).2
        simp only [forall₂_congr_left hf]
    · exact reads_of_kept (literal_array_kept hd)
  | struct name fields ih =>
    by_cases hd : ∃ entries, d.unroll = .map entries
    · obtain ⟨entries, hd⟩ := hd
      obtain ⟨hn, hfields⟩ := StreamType.isDistinct_struct_iff.1 hn
      have hi : ∀ f ∈ fields, ∀ x, Datum.find? entries f.1 = some x →
          Readable f.2 x ∧ ∀ v, Reads f.2 x v ↔ encode f.2 x = .ok v :=
        fun f hf x hx => ih f hf (hfields f hf) fun bits s hb => h bits s (.named hd hf hx hb)
      refine ⟨(readable_map_iff hd).2 fun f hf x hx => (hi f hf x hx).1, fun v => ?_⟩
      rw [reads_map_iff hn hd, encode_map_iff hd]
      have hf : List.Forall₂ (fun (f g : String × StreamType) => ∀ v,
          (∃ x, Datum.find? entries f.1 = some x ∧ Reads f.2 x v) ↔
            ∃ x, Datum.find? entries g.1 = some x ∧ encode g.2 x = .ok v) fields fields :=
        List.forall₂_same.2 fun f hf v => exists_congr fun x => and_congr_right fun hx => (hi f hf x hx).2 v
      simp only [forall₂_congr_left hf]
    · exact reads_of_kept (literal_struct_kept hd)

theorem find?_named {values : List Datum} (hn : (fields.map (·.1)).Nodup) (hl : values.length = fields.length) :
    List.Forall₂ (fun f x => Datum.find? (List.zipWith (fun f x => (.text f.1, x)) fields values) f.1 = some x)
      fields values := by
  induction fields generalizing values with
  | nil =>
    cases values with
    | nil => exact .nil
    | cons x values => cases hl
  | cons f fields ih =>
    cases values with
    | nil => cases hl
    | cons x values =>
      obtain ⟨hnew, hn⟩ := List.nodup_cons.1 hn
      refine .cons (by simp [Datum.find?])
        (Outcome.forall₂_imp_of_mem (fun g hg y _ hy => ?_) (ih hn (Nat.succ.inj hl)))
      have hne : f.1 ≠ g.1 := fun heq => hnew (List.mem_map.2 ⟨g, hg, heq.symm⟩)
      simpa [Datum.find?, hne] using hy

theorem forall₂_eq_of_find? {entries : List (Datum × Datum)} {values values' : List Datum}
    (h : List.Forall₂ (fun f x => Datum.find? entries f.1 = some x) fields values)
    (h' : List.Forall₂ (fun f x => Datum.find? entries f.1 = some x) fields values') : values' = values :=
  List.right_unique_forall₂' (fun _ _ _ hx hy => Option.some.inj (hx.symm.trans hy)) h' h

theorem gives_list_iff {values values' : List Datum} (hl : values.length = fields.length) :
    (Datum.list values).Gives fields values' ↔ values' = values := by
  constructor
  · rintro (⟨hd, _⟩ | ⟨(h | h) | h | h, _⟩)
    · cases hd
    · cases h
      rfl
    all_goals cases h
  · rintro rfl
    exact .ordered (.items (.list rfl)) hl

theorem Spelled.textless {d : Datum} {values : List Datum} (h : Spelled (.struct name fields) d)
    (hd : d.unroll = .list values) : ∀ p ∈ fields.zip values, Textless p.1.2 p.2 :=
  fun _ hp bits s hb => h name fields d values (.here _ d) hd bits s (.ordered hd hp hb)

theorem spelled_of_writes {values : List Datum} {d : Datum} (hn : (fields.map (·.1)).Nodup)
    (hl : values.length = fields.length) (hd : Writes fields values d) (h : Spelled (.struct name fields) d) :
    ∀ p ∈ fields.zip values, Spelled p.1.2 p.2 := by
  intro p hp
  refine h.part fun v y hy => ?_
  cases hd with
  | ordered => exact .ordered rfl hp hy
  | named =>
    have hf := List.forall₂_iff_zip.1 (find?_named hn hl)
    exact .named rfl (List.of_mem_zip hp).1 (hf.2 hp) hy

theorem reads_of_writes {values : List Datum} {d : Datum} (hn : (StreamType.struct name fields).isDistinct = true)
    (hl : values.length = fields.length) (hd : Writes fields values d) (h : Spelled (.struct name fields) d) :
    (Readable (.struct name fields) d ↔ ∀ p ∈ fields.zip values, Readable p.1.2 p.2) ∧
    ∀ v, Reads (.struct name fields) d v ↔
      ∃ vs, List.Forall₂ (fun p v => Reads p.1.2 p.2 v) (fields.zip values) vs ∧ v = .struct vs := by
  obtain ⟨hnames, hfields⟩ := StreamType.isDistinct_struct_iff.1 hn
  cases hd with
  | ordered =>
    have hp : ∀ p ∈ fields.zip values, Readable p.1.2 p.2 ∧ ∀ v, Reads p.1.2 p.2 v ↔ encode p.1.2 p.2 = .ok v :=
      fun p hp => reads_of_textless (hfields p.1 (List.of_mem_zip hp).1) (h.textless rfl p hp)
    obtain ⟨hr, hv⟩ := @reads_of_kept (.struct name fields) (.list values) rfl
    refine ⟨iff_of_true hr fun p h => (hp p h).1, fun v => ?_⟩
    have hf : List.Forall₂ (fun p q => ∀ v, encode p.1.2 p.2 = .ok v ↔ Reads q.1.2 q.2 v)
        (fields.zip values) (fields.zip values) :=
      List.forall₂_same.2 fun p h v => ((hp p h).2 v).symm
    rw [hv, encode_struct_eq_ok_iff]
    simp only [gives_list_iff hl, ← forall₂_congr_left hf]
    exact ⟨fun ⟨_, vs, he, hvs, hv⟩ => ⟨vs, he ▸ hvs, hv⟩, fun ⟨vs, hvs, hv⟩ => ⟨values, vs, rfl, hvs, hv⟩⟩
  | named =>
    have hf := find?_named hnames hl
    constructor
    · rw [readable_map_iff rfl]
      constructor
      · exact fun hr p hp => hr p.1 (List.of_mem_zip hp).1 p.2 ((List.forall₂_iff_zip.1 hf).2 hp)
      · intro hr f hmem x hx
        have hboth : List.Forall₂ (fun f x => Datum.find? (List.zipWith (fun f x => (.text f.1, x)) fields values) f.1 =
            some x ∧ Readable f.2 x) fields values :=
          List.forall₂_iff_zip.2 ⟨hf.length_eq, fun hp => ⟨(List.forall₂_iff_zip.1 hf).2 hp, hr _ hp⟩⟩
        obtain ⟨y, _, hy, hread⟩ := Outcome.forall₂_exists_of_mem hboth hmem
        rw [hx] at hy
        cases hy
        exact hread
    · intro v
      rw [reads_map_iff hnames rfl]
      simp only [forall₂_exists_iff (Q := fun (f : String × StreamType) x v => Reads f.2 x v)]
      constructor
      · rintro ⟨vs, ⟨values', hv', hvs⟩, rfl⟩
        rw [forall₂_eq_of_find? hf hv'] at hvs
        exact ⟨vs, hvs, rfl⟩
      · rintro ⟨vs, hvs, rfl⟩
        exact ⟨vs, ⟨values, hf, hvs⟩, rfl⟩

theorem reads_of_alike {t : StreamType} {d d' : Datum} (hn : t.isDistinct = true) (h : Alike t d d')
    (hd : Spelled t d) (hd' : Spelled t d') : (Readable t d ↔ Readable t d') ∧ ∀ v, Reads t d v ↔ Reads t d' v := by
  induction t using StreamType.shape_induction generalizing d d' with
  | array length element ih =>
    cases h with
    | same => exact ⟨.rfl, fun _ => .rfl⟩
    | @array _ _ items items' h =>
      have hi : List.Forall₂ (fun x y => (Readable element x ↔ Readable element y) ∧
          ∀ v, Reads element x v ↔ Reads element y v) items items' := by
        refine Outcome.forall₂_imp_of_mem (fun x hx y hy ha => ?_) (List.forall₂_map_left_iff.1 h)
        exact ih hn ha (hd.part fun _ _ => .item rfl hx) (hd'.part fun _ _ => .item rfl hy)
      have hr : Readable (.array length element) (.list items) ↔ Readable (.array length element) (.list items') := by
        rw [readable_list_iff rfl, readable_list_iff rfl]
        exact forall_mem_congr (hi.imp fun _ _ h => h.1)
      refine ⟨hr, fun v => ?_⟩
      by_cases hz : length = 0
      · subst hz
        rw [reads_empty_iff, reads_empty_iff, hr]
      · rw [reads_list_iff hz rfl, reads_list_iff hz rfl, hi.length_eq]
        simp only [forall₂_congr_left (hi.imp fun _ _ h => h.2)]
  | struct name fields ih =>
    cases h with
    | same => exact ⟨.rfl, fun _ => .rfl⟩
    | @struct _ _ values values' _ _ hl h hw hw' =>
      obtain ⟨hnames, hfields⟩ := StreamType.isDistinct_struct_iff.1 hn
      have hl' : values'.length = fields.length := by
        rw [← h.length_eq, List.length_zip, hl, Nat.min_self]
      have hp : List.Forall₂ (fun p q => (Readable p.1.2 p.2 ↔ Readable q.1.2 q.2) ∧
          ∀ v, Reads p.1.2 p.2 v ↔ Reads q.1.2 q.2 v) (fields.zip values) (fields.zip values') := by
        refine Outcome.forall₂_imp_of_mem (fun p hp q hq ha => ?_) (forall₂_zip_right hl h)
        obtain ⟨f, x⟩ := p
        obtain ⟨g, y⟩ := q
        obtain ⟨rfl, ha⟩ := ha
        have hf := (List.of_mem_zip hp).1
        exact ih f hf (hfields f hf) ha (spelled_of_writes hnames hl hw hd _ hp)
          (spelled_of_writes hnames hl' hw' hd' _ hq)
      obtain ⟨hr, hv⟩ := reads_of_writes hn hl hw hd
      obtain ⟨hr', hv'⟩ := reads_of_writes hn hl' hw' hd'
      refine ⟨?_, fun v => ?_⟩
      · rw [hr, hr']
        exact forall_mem_congr (hp.imp fun _ _ h => h.1)
      · rw [hv, hv']
        simp only [forall₂_congr_left (hp.imp fun _ _ h => h.2)]
  | _ =>
    cases h
    exact ⟨.rfl, fun _ => .rfl⟩

def document (d type : Datum) : Datum :=
  .map [(.text "const", d), (.text "type", type)]

def Means (registry : Registry) (types : List (Int × StreamType)) (path : String) (d : Datum) (v : SymValue) : Prop :=
  ∃ e, Spec.Decode.expr types path d = .ok e ∧ ∀ s, (Encoding.encode registry e 0).run s = (.ok v, s)

theorem constant_eq_ok_iff {t : StreamType} {d : Datum} {path : String} {e : Expr} :
    Spec.Decode.constant t d path = .ok e ↔ ∃ x, literal t d = .ok x ∧ e = .const t x := by
  unfold Spec.Decode.constant
  cases hx : literal t d with
  | ok x => simp [eq_comm]
  | error f => cases f <;> simp [Spec.Decode.malformed]

theorem expr_document_eq_ok_iff {types : List (Int × StreamType)} {path : String} {d type : Datum} {t : StreamType}
    {e : Expr} (ht : Spec.Decode.type (path ++ ".type") type = .ok t) :
    Spec.Decode.expr types path (document d type) = .ok e ↔ ∃ x, literal t d = .ok x ∧ e = .const t x := by
  have hr : Spec.Decode.requiredType [(.text "const", d), (.text "type", type)] path = .ok t :=
    Outcome.bind_eq_ok_iff.2 ⟨some t, Outcome.bind_eq_ok_iff.2 ⟨t, ht, rfl⟩, rfl⟩
  have he : Spec.Decode.expr types path (document d type) =
      (Spec.Decode.requiredType [(.text "const", d), (.text "type", type)] path >>= fun t =>
        Spec.Decode.constant t d path) := rfl
  rw [he, hr]
  exact constant_eq_ok_iff

theorem means_document_iff {registry : Registry} {types : List (Int × StreamType)} {path : String} {d type : Datum}
    {t : StreamType} {v : SymValue} (ht : Spec.Decode.type (path ++ ".type") type = .ok t) :
    Means registry types path (document d type) v ↔ Reads t d v := by
  unfold Means
  simp only [expr_document_eq_ok_iff ht]
  constructor
  · rintro ⟨_, ⟨x, hx, rfl⟩, hv⟩
    have he := hv {}
    rw [Encoding.encode, Encoding.encodeAt_eq, if_neg (by decide), Encoding.encodeWith] at he
    exact ⟨x, hx, (Outcome.run_lift_eq_ok_iff.1 he).1⟩
  · rintro ⟨x, hx, hv⟩
    exact ⟨_, ⟨x, hx, rfl⟩, fun s => run_encode_const hv (le_refl 0) s⟩

theorem record_notations_agree {t : StreamType} {path : String} {type d d' : Datum}
    (ht : Spec.Decode.type (path ++ ".type") type = .ok t) (hn : t.isDistinct = true) (h : Alike t d d')
    (hd : Spelled t d) (hd' : Spelled t d') (registry : Registry) (types : List (Int × StreamType)) (v : SymValue) :
    Means registry types path (document d type) v ↔ Means registry types path (document d' type) v := by
  rw [means_document_iff ht, means_document_iff ht]
  exact (reads_of_alike hn h hd hd').2 v

theorem alike_notations {values : List Datum} (hl : values.length = fields.length) :
    Alike (.struct name fields) (.list values) (.map (List.zipWith (fun f x => (.text f.1, x)) fields values)) := by
  have hv : List.Forall₂ (fun p x => Alike p.1.2 p.2 x) (fields.zip values) ((fields.zip values).map Prod.snd) :=
    List.forall₂_map_right_iff.2 (List.forall₂_same.2 fun p _ => .same p.1.2 p.2)
  rw [List.map_snd_zip hl.le] at hv
  exact .struct hl hv .ordered .named

theorem Holds.trans {t u v : StreamType} {d x y : Datum} (h : Holds t d u x) (h' : Holds u x v y) : Holds t d v y := by
  induction h with
  | here => exact h'
  | item hd hx _ ih => exact .item hd hx (ih h')
  | ordered hd hp _ ih => exact .ordered hd hp (ih h')
  | named hd hf hx _ ih => exact .named hd hf hx (ih h')

theorem Textless.spelled {t : StreamType} {d : Datum} (h : Textless t d) : Spelled t d :=
  fun _ _ _ _ hx _ bits s hb => h bits s (hx.trans hb)

def point : StreamType :=
  .struct "point" [("x", .float 32), ("marks", .array 2 .bool)]

def marks : Datum :=
  .list [.bool true, .bool false]

theorem textless_marks : Textless (.array 2 .bool) marks := by
  intro bits s h
  cases h with
  | item _ _ h => cases h

theorem textless_one : Textless (.float 32) (.int 1) := by
  intro bits s h
  cases h

theorem points_agree : (StreamType.array 1 point).isDistinct = true ∧
    ∃ v, Means ⟨[]⟩ [] "" (document (.list [.list [.int 1, marks]]) (StreamType.array 1 point).document) v ∧
      Means ⟨[]⟩ [] "" (document (.list [.map [(.text "x", .int 1), (.text "marks", marks)]])
        (StreamType.array 1 point).document) v := by
  have hd : Textless (.array 1 point) (.list [.list [.int 1, marks]]) := by
    intro bits s h
    cases h with
    | item hd hx h =>
      cases hd
      cases List.mem_singleton.1 hx
      cases h with
      | ordered hd hp h =>
        cases hd
        rcases List.mem_cons.1 hp with rfl | hp
        · exact textless_one bits s h
        · cases List.mem_singleton.1 hp
          exact textless_marks bits s h
      | named hd => cases hd
  have hd' : Textless (.array 1 point) (.list [.map [(.text "x", .int 1), (.text "marks", marks)]]) := by
    intro bits s h
    cases h with
    | item hd hx h =>
      cases hd
      cases List.mem_singleton.1 hx
      cases h with
      | ordered hd => cases hd
      | named hd hf hx h =>
        cases hd
        rcases List.mem_cons.1 hf with rfl | hf
        · cases hx
          exact textless_one bits s h
        · cases List.mem_singleton.1 hf
          cases hx
          exact textless_marks bits s h
  have ha : Alike (.array 1 point) (.list [.list [.int 1, marks]])
      (.list [.map [(.text "x", .int 1), (.text "marks", marks)]]) :=
    .array (.cons (alike_notations rfl) .nil)
  have ht : Spec.Decode.type ("" ++ ".type") (StreamType.array 1 point).document = .ok (.array 1 point) :=
    Spec.Decode.type_document rfl
  have hv : Means ⟨[]⟩ [] "" (document (.list [.list [.int 1, marks]]) (StreamType.array 1 point).document)
      (.array [.struct [.scalar (.float .single) (.float (Binary.ofInt 1).toSingle),
        .array [.scalar .bool (.bool true), .scalar .bool (.bool false)]]]) :=
    (means_document_iff ht).2 ⟨_, rfl, rfl⟩
  exact ⟨rfl, _, hv, (record_notations_agree ht rfl ha hd.spelled hd'.spelled _ _ _).1 hv⟩

def reading : StreamType :=
  .struct "reading" [("x", .float 32)]

theorem text_in_order_refused :
    reading.isDistinct = true ∧ Alike reading (.list [.text "nan"]) (.map [(.text "x", .text "nan")]) ∧
    Means ⟨[]⟩ [] "" (document (.map [(.text "x", .text "nan")]) reading.document)
      (.struct [.scalar (.float .single) (.float .nan)]) ∧
    ¬∃ v, Means ⟨[]⟩ [] "" (document (.list [.text "nan"]) reading.document) v := by
  have ht : Spec.Decode.type ("" ++ ".type") reading.document = .ok reading := Spec.Decode.type_document rfl
  refine ⟨rfl, alike_notations rfl, ?_, ?_⟩
  · refine (means_document_iff ht).2 ⟨.map [(.text "x", .float .nan)], ?_, rfl⟩
    rfl
  · rintro ⟨v, hv⟩
    obtain ⟨x, hx, he⟩ := (means_document_iff ht).1 hv
    cases hx
    obtain ⟨values, vs, hg, hvs, _⟩ := encode_struct_eq_ok_iff.1 he
    obtain rfl := (gives_list_iff rfl).1 hg
    cases hvs with
    | cons hv _ => exact refuseDatum_ne_ok hv

end Constant

end OneStep
