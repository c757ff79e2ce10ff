import Mathlib.Data.List.Forall2
import Mathlib.Data.List.Nodup
import Mathlib.Data.String.Basic
import OneStep.Proofs.Lines
import OneStep.Proofs.Sessions

namespace OneStep

open SExpr

namespace Model

def nullary? : SExpr → Option (String × SExpr)
  | .list [.atom "define-fun", .atom s, .list [], _, value] => some (s, value)
  | _ => none

def entryOf (d : String × SExpr) : String × String :=
  (bareName d.1, d.2.render)

theorem definition?_eq {e : SExpr} (h : isNameless e = false) : definition? e = .ok ((nullary? e).map entryOf) := by
  unfold definition?
  split
  · next name sort value =>
    cases name with
    | atom s => rfl
    | list items => cases h
  · next hne =>
    have hn : nullary? e = none := by
      unfold nullary?
      split
      · next s sort value => exact absurd rfl (hne _ _ _)
      · rfl
    rw [hn]
    rfl

def defineAll (model : List (String × String)) (ds : List (String × String)) : List (String × String) :=
  ds.foldl (fun m d => define m d.1 d.2) model

theorem collect_eq {es : List SExpr} (h : ∀ e ∈ es, isNameless e = false) (model : List (String × String)) :
    collect model es = .ok (defineAll model ((es.filterMap nullary?).map entryOf)) := by
  induction es generalizing model with
  | nil => rfl
  | cons e es ih =>
    obtain ⟨he, hes⟩ := List.forall_mem_cons.1 h
    rw [collect, definition?_eq he]
    cases hn : nullary? e with
    | none =>
      rw [List.filterMap_cons_none hn]
      exact ih hes model
    | some d =>
      rw [List.filterMap_cons_some hn]
      exact ih hes _

section

variable {model ds : List (String × String)} {k n v w : String}

theorem mem_keys_define : k ∈ (define model n v).map (·.1) ↔ k = n ∨ k ∈ model.map (·.1) := by
  induction model with
  | nil => simp [define]
  | cons d model ih =>
    by_cases hd : d.1 = n
    · rw [define, if_pos hd, List.map_cons, List.map_cons, List.mem_cons, ← hd]
      exact (or_iff_right_of_imp .inl).symm
    · rw [define, if_neg hd, List.map_cons, List.map_cons, List.mem_cons, List.mem_cons, ih]
      exact or_left_comm

theorem nodup_define (h : (model.map (·.1)).Nodup) : ((define model n v).map (·.1)).Nodup := by
  induction model with
  | nil => simp [define]
  | cons d model ih =>
    obtain ⟨hd, hm⟩ := List.nodup_cons.1 h
    by_cases hn : d.1 = n
    · rw [define, if_pos hn]
      exact h
    · rw [define, if_neg hn]
      exact List.nodup_cons.2 ⟨fun hk => (mem_keys_define.1 hk).elim hn hd, ih hm⟩

theorem mem_define_of_ne (h : k ≠ n) : (k, w) ∈ define model n v ↔ (k, w) ∈ model := by
  induction model with
  | nil => simp [define, h]
  | cons d model ih =>
    by_cases hd : d.1 = n
    · have hk : (k, w) ≠ (d.1, v) ∧ (k, w) ≠ d :=
        ⟨fun he => h ((congrArg Prod.fst he).trans hd), fun he => h ((congrArg Prod.fst he).trans hd)⟩
      rw [define, if_pos hd, List.mem_cons, List.mem_cons, or_iff_right hk.1, or_iff_right hk.2]
    · rw [define, if_neg hd, List.mem_cons, List.mem_cons, ih]

theorem mem_define_self (h : n ∉ model.map (·.1)) : (n, w) ∈ define model n v ↔ w = v := by
  induction model with
  | nil => simp [define]
  | cons d model ih =>
    obtain ⟨hd, hm⟩ := not_or.1 (mt List.mem_cons.2 h)
    have hne : (n, w) ≠ d := fun he => hd (congrArg Prod.fst he)
    rw [define, if_neg (Ne.symm hd), List.mem_cons, or_iff_right hne, ih hm]

theorem nodup_defineAll (h : (model.map (·.1)).Nodup) : ((defineAll model ds).map (·.1)).Nodup := by
  induction ds generalizing model with
  | nil => exact h
  | cons d ds ih => exact ih (nodup_define h)

theorem mem_defineAll_of_not_mem (h : k ∉ ds.map (·.1)) : (k, w) ∈ defineAll model ds ↔ (k, w) ∈ model := by
  induction ds generalizing model with
  | nil => exact Iff.rfl
  | cons d ds ih =>
    obtain ⟨hd, hds⟩ := not_or.1 (mt List.mem_cons.2 h)
    exact (ih hds).trans (mem_define_of_ne hd)

theorem mem_defineAll (h : (ds.map (·.1)).count k ≤ 1) (hm : k ∉ model.map (·.1)) :
    (k, w) ∈ defineAll model ds ↔ (k, w) ∈ ds := by
  induction ds generalizing model with
  | nil =>
    refine ⟨fun hw => absurd (List.mem_map_of_mem hw) hm, fun hw => ?_⟩
    cases hw
  | cons d ds ih =>
    by_cases hd : d.1 = k
    · subst hd
      have hds : d.1 ∉ ds.map (·.1) := by
        rw [List.map_cons, List.count_cons_self] at h
        exact List.count_eq_zero.1 (by omega)
      have hnot : (d.1, w) ∉ ds := fun hw => hds (List.mem_map.2 ⟨_, hw, rfl⟩)
      have he : (d.1, w) = d ↔ w = d.2 := by
        obtain ⟨n, v⟩ := d
        simp
      rw [List.mem_cons, or_iff_left hnot, he]
      exact (mem_defineAll_of_not_mem hds).trans (mem_define_self hm)
    · have hne : (k, w) ≠ d := fun he => hd (congrArg Prod.fst he).symm
      rw [List.map_cons, List.count_cons_of_ne hd] at h
      rw [List.mem_cons, or_iff_right hne]
      exact ih h fun hk => (mem_keys_define.1 hk).elim (Ne.symm hd) hm

theorem sort_perm (model : List (String × String)) : (sort model).Perm model :=
  List.mergeSort_perm ..

theorem sort_sorted (h : (model.map (·.1)).Nodup) : (sort model).Pairwise fun a b => a.1 < b.1 := by
  have hs : (sort model).Pairwise fun a b => a.1 ≤ b.1 := by
    unfold sort
    refine (List.pairwise_mergeSort (fun a b c hab hbc => ?_) (fun a b => ?_) model).imp fun {a b} hab => ?_
    · simp only [Bool.not_eq_true', decide_eq_false_iff_not, not_lt] at *
      exact hab.trans hbc
    · simp only [Bool.or_eq_true, Bool.not_eq_true', decide_eq_false_iff_not, not_lt]
      exact le_total a.1 b.1
    · simpa only [Bool.not_eq_true', decide_eq_false_iff_not, not_lt] using hab
  have hn : (sort model).Pairwise fun a b => a.1 ≠ b.1 :=
    List.pairwise_map.1 (((sort_perm model).map _).nodup_iff.2 h)
  exact (hs.and hn).imp fun ⟨hle, hne⟩ => lt_of_le_of_ne hle hne

end

inductive Spells (name : String) : String → Prop
  | barred (unbarred : '|' ∉ name.toList) : Spells name ("|" ++ name ++ "|")
  | bare (unbarred : '|' ∉ name.toList) : Spells name name

inductive Entry : SExpr → List (String × SExpr) → Prop
  | symbol {name written : String} {sort value : SExpr} (spells : Spells name written) :
      Entry (.list [.atom "define-fun", .atom written, .list [], sort, value]) [(name, value)]
  | function {name arg : SExpr} {args rest : List SExpr} :
      Entry (.list (.atom "define-fun" :: name :: .list (arg :: args) :: rest)) []
  | other {head : String} {items : List SExpr} (undefined : head ≠ "define-fun") :
      Entry (.list (.atom head :: items)) []

def startsDefinition : SExpr → Bool
  | .atom "define-fun" => true
  | .list (.atom "define-fun" :: _) => true
  | _ => false

inductive Part : SExpr → List (String × SExpr) → Prop
  | atom (s : String) : Part (.atom s) []
  | alone {items : List SExpr} {ds : List (String × SExpr)} (entry : Entry (.list (.atom "define-fun" :: items)) ds) :
      Part (.list (.atom "define-fun" :: items)) ds
  | other {head : String} {items : List SExpr} (undefined : head ≠ "define-fun")
      (free : ∀ e ∈ items, startsDefinition e = false) : Part (.list (.atom head :: items)) []
  | enclosed {es : List SExpr} {groups : List (List (String × SExpr))} (entries : List.Forall₂ Entry es groups) :
      Part (.list es) groups.flatten
  | model {es : List SExpr} {groups : List (List (String × SExpr))} (entries : List.Forall₂ Entry es groups) :
      Part (.list (.atom "model" :: es)) groups.flatten

theorem bareName_of_spells {name written : String} (h : Spells name written) : bareName written = name := by
  have hnone : '|' ∉ name.toList → Text.strip isBar name.toList = name.toList := fun unbarred =>
    Text.strip_of_none fun c hc => beq_eq_false_iff_ne.2 fun he => unbarred (he ▸ hc)
  cases h with
  | bare unbarred => rw [bareName, hnone unbarred, String.ofList_toList]
  | barred unbarred =>
    have hw : ("|" ++ name ++ "|").toList = ['|'] ++ (name.toList ++ ['|']) := by simp
    have hbar : ∀ c ∈ ['|'], isBar c = true := by simp [isBar]
    rw [bareName, hw, Text.strip_around hbar hbar, hnone unbarred, String.ofList_toList]

def bareEntry (d : String × SExpr) : String × SExpr :=
  (bareName d.1, d.2)

structure Reads (es : List SExpr) (ds : List (String × SExpr)) : Prop where
  named : ∀ e ∈ es, isNameless e = false
  read : (es.filterMap nullary?).map bareEntry = ds

theorem reads_nil : Reads [] [] :=
  ⟨by simp, rfl⟩

theorem Reads.append {es es' : List SExpr} {ds ds' : List (String × SExpr)} (h : Reads es ds) (h' : Reads es' ds') :
    Reads (es ++ es') (ds ++ ds') := by
  refine ⟨fun e he => (List.mem_append.1 he).elim (h.named e) (h'.named e), ?_⟩
  rw [List.filterMap_append, List.map_append, h.read, h'.read]

theorem reads_flatMap {α : Type} {f : α → List SExpr} {xs : List α} {groups : List (List (String × SExpr))}
    (h : List.Forall₂ (fun x ds => Reads (f x) ds) xs groups) : Reads (xs.flatMap f) groups.flatten := by
  induction h with
  | nil => exact reads_nil
  | cons hx _ ih => exact hx.append ih

theorem reads_nothing {es : List SExpr} (h : ∀ e ∈ es, startsDefinition e = false) : Reads es [] := by
  have hn : ∀ e, startsDefinition e = false → isNameless e = false ∧ nullary? e = none := by
    intro e he
    constructor
    · unfold isNameless
      split
      · simp [startsDefinition] at he
      · rfl
    · unfold nullary?
      split
      · simp [startsDefinition] at he
      · rfl
  refine ⟨fun e he => (hn e (h e he)).1, ?_⟩
  rw [List.filterMap_eq_nil_iff.2 fun e he => (hn e (h e he)).2]
  rfl

theorem Entry.reads {e : SExpr} {ds : List (String × SExpr)} (h : Entry e ds) : Reads [e] ds := by
  cases h with
  | symbol spells =>
    refine ⟨by simp [isNameless], ?_⟩
    simp [nullary?, bareEntry, bareName_of_spells spells]
  | function => exact ⟨by simp [isNameless], by simp [nullary?]⟩
  | other undefined => exact reads_nothing (by simp [startsDefinition, undefined])

theorem reads_entries {es : List SExpr} {groups : List (List (String × SExpr))} (h : List.Forall₂ Entry es groups) :
    Reads es groups.flatten := by
  have hr := reads_flatMap (f := fun e => [e]) (h.imp fun _ _ he => he.reads)
  rwa [List.flatMap_singleton'] at hr

def unnamed : List SExpr → List SExpr
  | .atom "model" :: rest => rest
  | items => items

def listed (items : List SExpr) : List SExpr :=
  match items with
  | .atom "define-fun" :: _ => [.list items]
  | items => items

theorem entries_eq (items : List SExpr) : entries (.list items) = listed (unnamed items) := rfl

theorem listed_of_not_atom {items : List SExpr} (h : ∀ rest, items ≠ .atom "define-fun" :: rest) :
    listed items = items := by
  unfold listed
  split
  · exact absurd rfl (h _)
  · rfl

theorem unnamed_of_not_atom {items : List SExpr} (h : ∀ rest, items ≠ .atom "model" :: rest) :
    unnamed items = items := by
  unfold unnamed
  split
  · exact absurd rfl (h _)
  · rfl

theorem ne_atom_of_entries {es : List SExpr} {groups : List (List (String × SExpr))} (h : List.Forall₂ Entry es groups)
    (s : String) (rest : List SExpr) : es ≠ .atom s :: rest := by
  rintro rfl
  cases h with
  | cons he _ => cases he

theorem Part.reads {e : SExpr} {ds : List (String × SExpr)} (h : Part e ds) : Reads (entries e) ds := by
  cases h with
  | atom s => exact reads_nil
  | alone entry => exact entry.reads
  | @other head items undefined free =>
    have hi : ∀ rest, items ≠ .atom "define-fun" :: rest := by
      rintro rest rfl
      cases free _ (List.mem_cons_self ..)
    rw [entries_eq]
    by_cases hm : head = "model"
    · subst hm
      rw [unnamed, listed_of_not_atom hi]
      exact reads_nothing free
    · rw [unnamed_of_not_atom (by simp [hm]), listed_of_not_atom (by simp [undefined])]
      exact reads_nothing (List.forall_mem_cons.2 ⟨by simp [startsDefinition, undefined], free⟩)
  | enclosed hes =>
    rw [entries_eq, unnamed_of_not_atom (ne_atom_of_entries hes _), listed_of_not_atom (ne_atom_of_entries hes _)]
    exact reads_entries hes
  | model hes =>
    rw [entries_eq, unnamed, listed_of_not_atom (ne_atom_of_entries hes _)]
    exact reads_entries hes

theorem reads_parts {tops : List SExpr} {groups : List (List (String × SExpr))} (h : List.Forall₂ Part tops groups) :
    Reads (tops.flatMap entries) groups.flatten :=
  reads_flatMap (h.imp fun _ _ he => he.reads)

def rendered (ds : List (String × SExpr)) : List (String × String) :=
  ds.map fun d => (d.1, d.2.render)

theorem keys_rendered (ds : List (String × SExpr)) : (rendered ds).map (·.1) = ds.map (·.1) := by
  rw [rendered, List.map_map]
  rfl

theorem read_of_reads {text : String} {tops : List SExpr} {ds : List (String × SExpr)} (ht : read? text = some tops)
    (h : Reads (tops.flatMap entries) ds) : Model.read text = .ok (sort (defineAll [] (rendered ds))) := by
  have hd : rendered ds = ((tops.flatMap entries).filterMap nullary?).map entryOf := by
    rw [rendered, ← h.read, List.map_map]
    rfl
  unfold Model.read
  rw [ht, hd]
  dsimp only
  rw [collect_eq h.named]
  rfl

section

variable {ds : List (String × SExpr)}

theorem nodup_rendered : ((defineAll [] (rendered ds)).map (·.1)).Nodup :=
  nodup_defineAll (by simp)

theorem sort_defineAll_perm (h : (ds.map (·.1)).Nodup) : (sort (defineAll [] (rendered ds))).Perm (rendered ds) := by
  rw [← keys_rendered] at h
  refine (sort_perm _).trans ((List.perm_ext_iff_of_nodup (.of_map _ nodup_rendered) (.of_map _ h)).2 fun d => ?_)
  exact mem_defineAll (List.nodup_iff_count_le_one.1 h d.1) (by simp)

theorem mem_sort_defineAll {name w : String} {value : SExpr} (h : (ds.map (·.1)).count name ≤ 1)
    (hd : (name, value) ∈ ds) : (name, w) ∈ sort (defineAll [] (rendered ds)) ↔ w = value.render := by
  rw [← keys_rendered] at h
  have hv : (name, value.render) ∈ defineAll [] (rendered ds) :=
    (mem_defineAll h (by simp)).2 (List.mem_map.2 ⟨_, hd, rfl⟩)
  rw [(sort_perm _).mem_iff]
  constructor
  · intro hw
    exact congrArg Prod.snd (List.inj_on_of_nodup_map nodup_rendered hw hv rfl)
  · rintro rfl
    exact hv

end

end Model

end OneStep
