import OneStep.Proofs.Names

namespace OneStep

namespace Symbol

theorem takeWhile_fullName (hint : String) (i : Nat) :
    (fullName hint i).toList.reverse.takeWhile Char.isDigit = (Nat.toDigits 10 i).reverse := by
  have hd : ∀ c ∈ (Nat.toDigits 10 i).reverse, c.isDigit = true := fun c hc =>
    Nat.isDigit_of_mem_toDigits (by decide) (by decide) (List.mem_reverse.1 hc)
  have hname : (fullName hint i).toList.reverse = (Nat.toDigits 10 i).reverse ++ '!' :: hint.toList.reverse := by
    simp only [fullName, String.toList_append, List.reverse_append, Nat.toString_eq_ofList_toDigits,
      String.toList_ofList]
    rfl
  rw [hname, List.takeWhile_append_of_pos hd, List.takeWhile_cons_of_neg (by decide), List.append_nil]

theorem fullName_inj {hint hint' : String} {i i' : Nat} (h : fullName hint i = fullName hint' i') : i = i' := by
  have hd : (Nat.toDigits 10 i).reverse = (Nat.toDigits 10 i').reverse := by
    rw [← takeWhile_fullName hint, ← takeWhile_fullName hint', h]
  have hn := congrArg (fun ds => Nat.ofDigitChars 10 ds 0) (List.reverse_injective hd)
  simpa using hn

end Symbol

namespace SymValue

def symbolLeaf (m : Scalar × Symbol) : (s : Scalar) × Term s.kind :=
  ⟨m.1, .symbol m.2 m.1.kind⟩

def names (v : SymValue) : List String :=
  v.symbols.map (·.1.name)

def IsFresh (v : SymValue) : Prop :=
  ∃ marks : List (Scalar × Symbol), v.leaves = marks.map symbolLeaf ∧ (marks.map (·.2.name)).Nodup

theorem names_of_leaves {v : SymValue} {marks : List (Scalar × Symbol)} (h : v.leaves = marks.map symbolLeaf) :
    v.names = marks.map (·.2.name) := by
  rw [names, symbols, h]
  clear h
  induction marks with
  | nil => rfl
  | cons m marks ih => simpa [symbolLeaf, Term.symbols] using ih

end SymValue

namespace Supply

def numbered (count : Nat) : List (Scalar × String) → List (Scalar × Symbol)
  | [] => []
  | (k, hint) :: marks => (k, ⟨hintText hint, some count⟩) :: numbered (count + 1) marks

theorem numbered_append (count : Nat) (marks others : List (Scalar × String)) :
    numbered count (marks ++ others) = numbered count marks ++ numbered (count + marks.length) others := by
  induction marks generalizing count with
  | nil => rfl
  | cons m marks ih =>
    rw [List.cons_append, numbered, numbered, ih, List.cons_append, List.length_cons, Nat.add_right_comm, Nat.add_assoc]

theorem name_of_numbered {count : Nat} {marks : List (Scalar × String)} {name : String}
    (h : name ∈ (numbered count marks).map (·.2.name)) :
    ∃ hint i, name = Symbol.fullName hint i ∧ count ≤ i ∧ i < count + marks.length := by
  induction marks generalizing count with
  | nil => cases h
  | cons m marks ih =>
    rcases List.mem_cons.1 h with rfl | h
    · exact ⟨_, _, rfl, Nat.le_refl _, by simp⟩
    · obtain ⟨hint, i, hn, hl, hu⟩ := ih h
      exact ⟨hint, i, hn, by omega, by rw [List.length_cons]; omega⟩

theorem nodup_numbered (count : Nat) (marks : List (Scalar × String)) :
    ((numbered count marks).map (·.2.name)).Nodup := by
  induction marks generalizing count with
  | nil => exact List.nodup_nil
  | cons m marks ih =>
    refine List.nodup_cons.2 ⟨fun h => ?_, ih (count + 1)⟩
    obtain ⟨hint, i, hn, hl, _⟩ := name_of_numbered h
    have := Symbol.fullName_inj hn
    omega

mutual

def leafHints : StreamType → String → List (Scalar × String)
  | .array length element, hint => (List.range length).flatMap fun i => leafHints element s!"{hint}[{i}]"
  | .struct _ fields, hint => fieldLeafHints fields hint
  | t, hint => t.scalar?.toList.map (·, hint)

def fieldLeafHints : List (String × StreamType) → String → List (Scalar × String)
  | [], _ => []
  | (name, t) :: fields, hint => leafHints t s!"{hint}.{name}" ++ fieldLeafHints fields hint

end

def partHints (parts : List (StreamType × String)) : List (Scalar × String) :=
  parts.flatMap fun p => leafHints p.1 p.2

theorem leafHints_ofScalar (k : Scalar) (hint : String) : leafHints (.ofScalar k) hint = [(k, hint)] := by
  have hk := StreamType.scalar?_ofScalar k
  cases k <;> simp_all [StreamType.ofScalar, leafHints]

theorem leafHints_array (length : Nat) (element : StreamType) (hint : String) :
    leafHints (.array length element) hint = partHints (itemHints length element hint) := by
  rw [leafHints, partHints, itemHints, List.flatMap_map]

theorem leafHints_struct (name : String) (fields : List (String × StreamType)) (hint : String) :
    leafHints (.struct name fields) hint = partHints (fieldHints fields hint) := by
  rw [leafHints]
  induction fields with
  | nil => rfl
  | cons f fields ih =>
    rw [fieldLeafHints, ih]
    rfl

structure LeavesDrawn (s s' : Supply) (marks : List (Scalar × String)) (leaves : List ((s : Scalar) × Term s.kind)) :
    Prop where
  leaves : leaves = (numbered s.count marks).map SymValue.symbolLeaf
  count : s'.count = s.count + marks.length

theorem LeavesDrawn.append {s s₁ s' : Supply} {marks others : List (Scalar × String)}
    {xs ys : List ((s : Scalar) × Term s.kind)} (hx : LeavesDrawn s s₁ marks xs) (hy : LeavesDrawn s₁ s' others ys) :
    LeavesDrawn s s' (marks ++ others) (xs ++ ys) := by
  constructor
  · rw [numbered_append, List.map_append, hx.leaves, hy.leaves, hx.count]
  · rw [hy.count, hx.count, List.length_append, Nat.add_assoc]

theorem leaves_of_draw {t : StreamType} {hint : String} {s s' : Supply} {v : SymValue} (hz : Avoids isZero t hint)
    (h : (draw t hint).run s = (.ok v, s')) : LeavesDrawn s s' (leafHints t hint) v.leaves := by
  refine Inductive.draw
    (P := fun t hint m => Avoids isZero t hint → ∀ s v s', m.run s = (.ok v, s') →
      LeavesDrawn s s' (leafHints t hint) v.leaves)
    (Q := fun parts m => (∀ p ∈ parts, Avoids isZero p.1 p.2) → ∀ s vs s', m.run s = (.ok vs, s') →
      LeavesDrawn s s' (partHints parts) (Value.leavesOf vs)) ⟨?_, ?_, ?_, ?_, ?_⟩ t hint hz s v s' h
  · intro t hint _ _ hz s v s' h
    obtain ⟨k, rfl, _, rfl, rfl⟩ := run_drawScalar_eq_ok_iff.1 h
    have hs := Symbol.ofHint_of_avoids (avoids_hintText isZero_unprinted hz.hint) s.count
    rw [leafHints_ofScalar]
    exact ⟨by rw [symbolFor, hs]; rfl, rfl⟩
  · rintro _ s _ _ ⟨⟩
    exact ⟨rfl, rfl⟩
  · intro t hint parts m n hm hn hp s vs s' h
    obtain ⟨v, s₁, hv, h⟩ := Outcome.run_bind_eq_ok_iff.1 h
    obtain ⟨vs, s₂, hvs, h⟩ := Outcome.run_bind_eq_ok_iff.1 h
    cases h
    rw [Value.leavesOf]
    exact (hm (hp _ (List.mem_cons_self ..)) _ _ _ hv).append
      (hn (fun p hmem => hp p (List.mem_cons_of_mem _ hmem)) _ _ _ hvs)
  · intro length element hint m hm hz s v s' h
    obtain ⟨items, s₁, hi, h⟩ := Outcome.run_bind_eq_ok_iff.1 h
    cases h
    rw [leafHints_array]
    exact hm (avoids_itemHints isZero_unprinted hz) _ _ _ hi
  · intro name fields hint m hm hz s v s' h
    obtain ⟨items, s₁, hi, h⟩ := Outcome.run_bind_eq_ok_iff.1 h
    cases h
    rw [leafHints_struct]
    exact hm (avoids_fieldHints isZero_unprinted hz) _ _ _ hi

end Supply

namespace SymValue

def DrawnBetween (low high : Nat) (v : SymValue) : Prop :=
  ∃ marks, v.leaves = (Supply.numbered low marks).map symbolLeaf ∧ low + marks.length ≤ high

variable {v v' : SymValue} {low high low' high' : Nat}

theorem DrawnBetween.isFresh (h : DrawnBetween low high v) : v.IsFresh := by
  obtain ⟨marks, hl, _⟩ := h
  exact ⟨_, hl, Supply.nodup_numbered low marks⟩

theorem DrawnBetween.mono (h : DrawnBetween low high v) (hle : high ≤ high') : DrawnBetween low high' v := by
  obtain ⟨marks, hl, hm⟩ := h
  exact ⟨marks, hl, Nat.le_trans hm hle⟩

theorem DrawnBetween.disjoint (h : DrawnBetween low high v) (h' : DrawnBetween low' high' v') (hle : high ≤ low') :
    v.names.Disjoint v'.names := by
  obtain ⟨marks, hl, hm⟩ := h
  obtain ⟨marks', hl', _⟩ := h'
  rw [names_of_leaves hl, names_of_leaves hl']
  intro name hn hn'
  obtain ⟨hint, i, rfl, _, hi⟩ := Supply.name_of_numbered hn
  obtain ⟨hint', i', he, hi', _⟩ := Supply.name_of_numbered hn'
  have := Symbol.fullName_inj he
  omega

theorem DrawnBetween.names_ne_nil (h : DrawnBetween low high v) (hl : v.leaves ≠ []) : v.names ≠ [] := by
  obtain ⟨marks, hm, _⟩ := h
  rw [names_of_leaves hm]
  rw [hm] at hl
  simpa using hl

structure Apart {κ : Type} (held : κ → SymValue → Prop) (count : Nat) : Prop where
  drawn : ∀ k v, held k v → ∃ low, v.DrawnBetween low count
  disjoint : ∀ k v k' v', held k v → held k' v' → k ≠ k' → v.names.Disjoint v'.names

theorem Apart.extend {κ : Type} {held held' : κ → SymValue → Prop} {N : κ → Prop} {count count' : Nat}
    (h : Apart held count) (hle : count ≤ count')
    (hd : ∀ k v, held' k v → held k v ∨ N k ∧ v.DrawnBetween count count')
    (hn : ∀ k k', N k → N k' → k = k') : Apart held' count' := by
  constructor
  · intro k v hv
    rcases hd k v hv with hv | ⟨_, hv⟩
    · obtain ⟨low, hv⟩ := h.drawn k v hv
      exact ⟨low, hv.mono hle⟩
    · exact ⟨_, hv⟩
  · intro k v k' v' hv hv' hne
    rcases hd k v hv with hv | ⟨hk, hv⟩ <;> rcases hd k' v' hv' with hv' | ⟨hk', hv'⟩
    · exact h.disjoint k v k' v' hv hv' hne
    · obtain ⟨low, hv⟩ := h.drawn k v hv
      exact hv.disjoint hv' (Nat.le_refl _)
    · obtain ⟨low, hv'⟩ := h.drawn k' v' hv'
      exact (hv'.disjoint hv (Nat.le_refl _)).symm
    · exact absurd (hn k k' hk hk') hne

end SymValue

theorem Supply.drawnBetween_of_draw {t : StreamType} {hint : String} {s s' : Supply} {v : SymValue}
    (hz : Avoids isZero t hint) (h : (draw t hint).run s = (.ok v, s')) : v.DrawnBetween s.count s'.count := by
  have hd := leaves_of_draw hz h
  exact ⟨_, hd.leaves, hd.count.ge⟩

end OneStep
