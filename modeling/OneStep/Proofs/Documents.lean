import Mathlib.Logic.Relation
import OneStep.Proofs.Outcome
import OneStep.Spec.Decode

namespace OneStep

theorem mem_of_lookup {α β : Type} [BEq α] [LawfulBEq α] {pairs : List (α × β)} {a : α} {b : β}
    (h : pairs.lookup a = some b) : (a, b) ∈ pairs := by
  obtain ⟨l, l', rfl, _⟩ := List.lookup_eq_some_iff.1 h
  exact List.mem_append_right l (List.mem_cons_self ..)

namespace Datum

theorem mem_of_find? {entries : List (Datum × Datum)} {key : String} {d : Datum} (h : find? entries key = some d) :
    (.text key, d) ∈ entries := by
  fun_induction find? entries key with
  | case1 => cases h
  | case2 v rest =>
    cases h
    exact List.mem_cons_self ..
  | case3 s v rest _ ih => exact List.mem_cons_of_mem _ (ih h)
  | case4 e rest _ ih => exact List.mem_cons_of_mem _ (ih h)

def parts : Datum → List Datum
  | .list items | .tuple items | .set items => items
  | .map entries => entries.map (·.1) ++ entries.map (·.2)
  | _ => []

def Within : Datum → Datum → Prop :=
  Relation.ReflTransGen fun x d => x ∈ d.parts

theorem Within.trans {x y d : Datum} (hx : x.Within y) (hy : y.Within d) : x.Within d :=
  Relation.ReflTransGen.trans hx hy

theorem within_of_mem {x d : Datum} (h : x ∈ d.parts) : x.Within d :=
  .single h

theorem mem_parts_of_find? {entries : List (Datum × Datum)} {key : String} {d : Datum}
    (h : find? entries key = some d) : d ∈ (Datum.map entries).parts :=
  List.mem_append_right _ (List.mem_map_of_mem (mem_of_find? h))

theorem sizeOf_lt_of_mem {x d : Datum} (h : x ∈ d.parts) : sizeOf x < sizeOf d := by
  cases d with
  | list items => exact Nat.lt_trans (List.sizeOf_lt_of_mem h) (by simp [parts])
  | tuple items => exact Nat.lt_trans (List.sizeOf_lt_of_mem h) (by simp [parts])
  | set items => exact Nat.lt_trans (List.sizeOf_lt_of_mem h) (by simp [parts])
  | map entries =>
    rcases List.mem_append.1 h with h | h <;> obtain ⟨e, he, rfl⟩ := List.mem_map.1 h
    all_goals
      have hlt := List.sizeOf_lt_of_mem he
      obtain ⟨k, v⟩ := e
      simp only [Prod.mk.sizeOf_spec, Datum.map.sizeOf_spec] at *
      omega
  | _ => cases h

theorem parts_induction {P : Datum → Prop} (h : ∀ d, (∀ x ∈ d.parts, P x) → P d) (d : Datum) : P d :=
  h d fun x _ => parts_induction h x
termination_by sizeOf d
decreasing_by exact sizeOf_lt_of_mem ‹_›

theorem within_induction {P : Datum → Prop} (h : ∀ d, (∀ p ∈ d.parts, ∀ x, x.Within p → P x) → P d) (d : Datum) :
    P d := by
  have hp (d : Datum) : ∀ x, x.Within d → P x := by
    induction d using parts_induction with
    | h d ih =>
      intro x hx
      rcases Relation.ReflTransGen.cases_tail hx with rfl | ⟨p, hx, hp⟩
      · exact h _ ih
      · exact ih p hp x hx
  exact hp d d .refl

theorem countLoops_le_itemLoops {items : List Datum} {d : Datum} (h : d ∈ items) : d.countLoops ≤ itemLoops items := by
  induction items with
  | nil => cases h
  | cons x items ih =>
    rw [itemLoops]
    rcases List.mem_cons.1 h with rfl | h
    · omega
    · have := ih h
      omega

theorem countLoops_le_entryLoops {entries : List (Datum × Datum)} {e : Datum × Datum} (h : e ∈ entries) :
    e.1.countLoops ≤ entryLoops entries ∧ e.2.countLoops ≤ entryLoops entries := by
  induction entries with
  | nil => cases h
  | cons e' entries ih =>
    rw [entryLoops]
    rcases List.mem_cons.1 h with rfl | h
    · omega
    · have := ih h
      omega

theorem countLoops_le_of_mem {x d : Datum} (h : x ∈ d.parts) : x.countLoops ≤ d.countLoops := by
  cases d with
  | list items => exact countLoops_le_itemLoops h
  | tuple items => exact countLoops_le_itemLoops h
  | set items => exact countLoops_le_itemLoops h
  | map entries =>
    rcases List.mem_append.1 h with h | h <;> obtain ⟨e, he, rfl⟩ := List.mem_map.1 h
    · exact (countLoops_le_entryLoops he).1
    · exact (countLoops_le_entryLoops he).2
  | _ => cases h

theorem areWritable_iff {items : List Datum} : areWritable items = true ↔ ∀ d ∈ items, d.isWritable = true := by
  induction items with
  | nil => simp [areWritable]
  | cons d items ih => simp [areWritable, ih]

theorem entriesWritable_iff {entries : List (Datum × Datum)} :
    entriesWritable entries = true ↔ ∀ e ∈ entries, e.1.isWritable = true ∧ e.2.isWritable = true := by
  induction entries with
  | nil => simp [entriesWritable]
  | cons e entries ih => simp [entriesWritable, ih]

theorem isWritable_of_mem {x d : Datum} (h : x ∈ d.parts) (hd : d.isWritable = true) : x.isWritable = true := by
  cases d with
  | list items => exact areWritable_iff.1 hd x h
  | tuple items => exact areWritable_iff.1 hd x h
  | set items => exact areWritable_iff.1 hd x h
  | map entries =>
    rcases List.mem_append.1 h with h | h <;> obtain ⟨e, he, rfl⟩ := List.mem_map.1 h
    · exact (entriesWritable_iff.1 hd e he).1
    · exact (entriesWritable_iff.1 hd e he).2
  | _ => cases h

variable {x d : Datum}

theorem Within.countLoops_le (h : x.Within d) : x.countLoops ≤ d.countLoops := by
  induction h with
  | refl => exact Nat.le_refl _
  | tail _ hp ih => exact Nat.le_trans ih (countLoops_le_of_mem hp)

theorem Within.isWritable (h : x.Within d) (hd : d.isWritable = true) : x.isWritable = true := by
  induction h with
  | refl => exact hd
  | tail _ hp ih => exact ih (isWritable_of_mem hp hd)

theorem unroll_of_countLoops (h : d.countLoops = 0) : d.unroll = d := by
  cases d with
  | loop label d => cases h
  | _ => rfl

end Datum

namespace Sorting

variable {α : Type} {less? : α → α → Option Bool} {S : α → Prop}

theorem takeRun_append {goesOn? : α → α → Option Bool} {last : α} {xs run rest : List α}
    (h : takeRun goesOn? last xs = some (run, rest)) : run ++ rest = xs := by
  induction xs generalizing last run rest with
  | nil =>
    cases h
    rfl
  | cons x xs ih =>
    simp only [takeRun, Option.bind_eq_bind, Option.bind_eq_some_iff] at h
    obtain ⟨b, _, h⟩ := h
    split at h
    · obtain ⟨⟨run, rest⟩, hr, h⟩ := Option.bind_eq_some_iff.1 h
      cases h
      exact congrArg (x :: ·) (ih hr)
    · cases h
      rfl

theorem exists_takeRun {goesOn? : α → α → Option Bool} (hg : ∀ a b, S a → S b → ∃ c, goesOn? a b = some c) {last : α}
    {xs : List α} (hl : S last) (hs : ∀ x ∈ xs, S x) : ∃ run rest, takeRun goesOn? last xs = some (run, rest) := by
  induction xs generalizing last with
  | nil => exact ⟨[], [], rfl⟩
  | cons x xs ih =>
    obtain ⟨hx, hs⟩ := List.forall_mem_cons.1 hs
    obtain ⟨c, hc⟩ := hg last x hl hx
    obtain ⟨run, rest, hr⟩ := ih hx hs
    cases c with
    | true => exact ⟨x :: run, rest, by simp [takeRun, hc, hr]⟩
    | false => exact ⟨[], x :: xs, by simp [takeRun, hc]⟩

theorem exists_place (hl : ∀ a b, S a → S b → ∃ c, less? a b = some c) {x : α} (hx : S x) {sorted : Array α}
    (hs : ∀ y ∈ sorted, S y) {low high : Nat} (hh : high ≤ sorted.size) :
    ∃ i, place? less? x sorted low high = some i := by
  fun_induction place? less? x sorted low high with
  | case1 low high hlt middle hn =>
    rw [Array.getElem?_eq_none_iff] at hn
    omega
  | case2 low high hlt middle y hy ih₁ ih₂ =>
    obtain ⟨c, hc⟩ := hl x y hx (hs y (Array.mem_of_getElem? hy))
    rw [hc]
    cases c with
    | true => exact ih₁ (by omega)
    | false => exact ih₂ hh
  | case3 low high _ => exact ⟨low, rfl⟩

theorem mem_of_insert? {sorted ys : List α} {x : α} (h : insert? less? sorted x = some ys) :
    ∀ y ∈ ys, y = x ∨ y ∈ sorted := by
  obtain ⟨i, _, h⟩ := Option.bind_eq_some_iff.1 h
  cases h
  intro y hy
  rcases List.mem_append.1 hy with hy | hy
  · exact .inr (List.mem_of_mem_take hy)
  · exact (List.mem_cons.1 hy).imp_right List.mem_of_mem_drop

theorem mem_of_insertAll {sorted xs ys : List α} (h : xs.foldlM (insert? less?) sorted = some ys) :
    ∀ y ∈ ys, y ∈ sorted ∨ y ∈ xs := by
  induction xs generalizing sorted with
  | nil =>
    cases h
    exact fun y hy => .inl hy
  | cons x xs ih =>
    rw [List.foldlM_cons] at h
    obtain ⟨zs, hz, h⟩ := Option.bind_eq_some_iff.1 h
    intro y hy
    rcases ih h y hy with hy | hy
    · rcases mem_of_insert? hz y hy with rfl | hy
      · exact .inr (List.mem_cons_self ..)
      · exact .inl hy
    · exact .inr (List.mem_cons_of_mem _ hy)

theorem exists_insert (hl : ∀ a b, S a → S b → ∃ c, less? a b = some c) {sorted : List α} {x : α}
    (hs : ∀ y ∈ sorted, S y) (hx : S x) : ∃ ys, insert? less? sorted x = some ys := by
  obtain ⟨i, hi⟩ : ∃ i, place? less? x sorted.toArray 0 sorted.length = some i :=
    exists_place hl hx (by simpa using hs) (Nat.le_refl _)
  exact ⟨_, Option.bind_eq_some_iff.2 ⟨i, hi, rfl⟩⟩

theorem exists_insertAll (hl : ∀ a b, S a → S b → ∃ c, less? a b = some c) {sorted xs : List α}
    (hs : ∀ y ∈ sorted, S y) (hx : ∀ x ∈ xs, S x) : ∃ ys, xs.foldlM (insert? less?) sorted = some ys := by
  induction xs generalizing sorted with
  | nil => exact ⟨sorted, rfl⟩
  | cons x xs ih =>
    obtain ⟨hx, hxs⟩ := List.forall_mem_cons.1 hx
    obtain ⟨zs, hz⟩ := exists_insert hl hs hx
    have hzs : ∀ z ∈ zs, S z := fun z hmem => (mem_of_insert? hz z hmem).elim (· ▸ hx) (hs z)
    obtain ⟨ys, hy⟩ := ih hzs hxs
    exact ⟨ys, by rw [List.foldlM_cons]; exact Option.bind_eq_some_iff.2 ⟨zs, hz, hy⟩⟩

theorem mem_of_sort? {xs ys : List α} (h : sort? less? xs = some ys) : ∀ y ∈ ys, y ∈ xs := by
  unfold sort? at h
  split at h
  · next x y rest =>
    obtain ⟨descends, _, h⟩ := Option.bind_eq_some_iff.1 h
    obtain ⟨⟨run, rest'⟩, hr, h⟩ := Option.bind_eq_some_iff.1 h
    have hrun := takeRun_append hr
    intro z hz
    have hz : z ∈ x :: y :: run ∨ z ∈ rest' := by
      refine (mem_of_insertAll h z hz).imp_left fun hz => ?_
      split at hz
      · exact List.mem_reverse.1 hz
      · exact hz
    rw [← hrun]
    simpa [or_assoc] using hz
  · cases h
    exact fun y hy => hy

theorem exists_sort (hl : ∀ a b, S a → S b → ∃ c, less? a b = some c) {xs : List α} (hx : ∀ x ∈ xs, S x) :
    ∃ ys, sort? less? xs = some ys := by
  unfold sort?
  split
  · next x y rest =>
    obtain ⟨hx, hy, hrest⟩ : S x ∧ S y ∧ ∀ z ∈ rest, S z := by simpa using hx
    obtain ⟨descends, hd⟩ := hl y x hy hx
    have hg (a b : α) (ha : S a) (hb : S b) : ∃ c, (less? b a).map (· == descends) = some c := by
      obtain ⟨c, hc⟩ := hl b a hb ha
      exact ⟨_, Option.map_eq_some_iff.2 ⟨c, hc, rfl⟩⟩
    obtain ⟨run, rest', hr⟩ := exists_takeRun hg hy hrest
    have hrun : ∀ z ∈ run ++ rest', S z := takeRun_append hr ▸ hrest
    have hsorted : ∀ z ∈ if descends then (x :: y :: run).reverse else x :: y :: run, S z := by
      have : ∀ z ∈ x :: y :: run, S z := by
        simp only [List.mem_cons, List.mem_append] at hrun ⊢
        rintro z (rfl | rfl | hz)
        · exact hx
        · exact hy
        · exact hrun z (.inl hz)
      split
      · exact fun z hz => this z (List.mem_reverse.1 hz)
      · exact this
    obtain ⟨ys, hys⟩ := exists_insertAll hl hsorted fun z hz => hrun z (List.mem_append_right _ hz)
    exact ⟨ys, Option.bind_eq_some_iff.2 ⟨descends, hd, Option.bind_eq_some_iff.2 ⟨(run, rest'), hr, hys⟩⟩⟩
  · exact ⟨_, rfl⟩

end Sorting

end OneStep
