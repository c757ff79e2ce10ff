import OneStep.Proofs.Nesting

namespace OneStep.Encoding

variable {registry : Registry} {a b c start : Call} {ps qs : List (Int × Int)}

def Precedes (registry : Registry) (a b : Call) : Prop :=
  Outcome.Decides (a.run registry).1 ∧ (a.run registry).2.Grows b.state

theorem precedes_of_ok {v : SymValue} {s : Encoder} (h : a.run registry = (.ok v, s)) (hs : s.Grows b.state) :
    Precedes registry a b := by
  refine ⟨Outcome.decides_of_ok h, ?_⟩
  rw [h]
  exact hs

theorem Precedes.trans_grows (h : Precedes registry a b) (hs : b.state.Grows c.state) : Precedes registry a c :=
  ⟨h.1, Trans.trans h.2 hs⟩

theorem Precedes.of_nests (h : Precedes registry b c) (hn : Nests registry b ps a) : Precedes registry a c := by
  obtain ⟨hd, hg⟩ := hn.decides h.1
  exact ⟨hd, Trans.trans hg h.2⟩

theorem Within.compare (h₁ : Within registry c a) (h₂ : Within registry c b) :
    a = b ∨ Precedes registry a b ∨ Precedes registry b a := by
  cases h₁ with
  | arg => cases h₂; exact .inl rfl
  | left =>
    cases h₂ with
    | left => exact .inl rfl
    | right _ before => exact .inr (.inl (precedes_of_ok before (refl _)))
  | right _ before =>
    cases h₂ with
    | left => exact .inr (.inr (precedes_of_ok before (refl _)))
    | right _ before' =>
      cases before.symm.trans before'
      exact .inl rfl
  | first =>
    cases h₂ with
    | first => exact .inl rfl
    | second _ before => exact .inr (.inl (precedes_of_ok before (refl _)))
    | third _ earlier before =>
      exact .inr (.inl (precedes_of_ok earlier (moves_run (grows_encode registry _ _) before)))
  | second _ before =>
    cases h₂ with
    | first => exact .inr (.inr (precedes_of_ok before (refl _)))
    | second _ before' =>
      cases before.symm.trans before'
      exact .inl rfl
    | third _ earlier' before' =>
      cases before.symm.trans earlier'
      exact .inr (.inl (precedes_of_ok before' (refl _)))
  | third _ earlier before =>
    cases h₂ with
    | first => exact .inr (.inr (precedes_of_ok earlier (moves_run (grows_encode registry _ _) before)))
    | second _ before' =>
      cases earlier.symm.trans before'
      exact .inr (.inr (precedes_of_ok before (refl _)))
    | third _ earlier' before' =>
      cases earlier.symm.trans earlier'
      cases before.symm.trans before'
      exact .inl rfl

theorem Unrolls.unique {p q : Int × Int} (h₁ : Unrolls registry c p a) (h₂ : Unrolls registry c q b) : a = b := by
  cases h₁ with
  | drop _ _ stream =>
    cases h₂ with
    | drop _ _ stream' =>
      cases stream.symm.trans stream'
      rfl

theorem Within.not_unrolls {p : Int × Int} (h : Within registry c a) : ¬ Unrolls registry c p b := by
  intro h'
  cases h' with
  | drop => cases h

theorem Nests.compare (h₁ : Nests registry c ps a) (h₂ : Nests registry c qs b) :
    (∃ rs, Nests registry a rs b) ∨ (∃ rs, Nests registry b rs a) ∨ Precedes registry a b ∨ Precedes registry b a := by
  induction h₁ generalizing qs b with
  | here c => exact .inl ⟨qs, h₂⟩
  | within step rest ih =>
    cases h₂ with
    | here => exact .inr (.inl ⟨_, .within step rest⟩)
    | within step' rest' =>
      rcases step.compare step' with rfl | h | h
      · exact ih rest'
      · exact .inr (.inr (.inl ((h.of_nests rest).trans_grows rest'.grows)))
      · exact .inr (.inr (.inr ((h.of_nests rest').trans_grows rest.grows)))
    | unrolled step' => exact absurd step' step.not_unrolls
  | unrolled step rest ih =>
    cases h₂ with
    | here => exact .inr (.inl ⟨_, .unrolled step rest⟩)
    | within step' => exact absurd step step'.not_unrolls
    | unrolled step' rest' =>
      obtain rfl := step.unique step'
      exact ih rest'

section

variable {t t' : StreamType} {k k' id o o' : Int} {s s' s₁ s₁' : Encoder} {v v' : SymValue}

theorem run_drop_ok (h : (encode registry (.drop t k id) o).run s = (.ok v, s')) :
    o ≤ 0 ∧ ∃ s₁, s₁.Grows s' ∧
      (o + k < 0 ∧ (past registry id (o + k)).run s = (.ok v, s₁) ∨
        ∃ st, 0 ≤ o + k ∧ registry.find? id = some st ∧
          (unroll registry (places registry + 1) [] st (o + k)).run s = (.ok v, s₁)) := by
  have ho : o ≤ 0 := nonpos_of_ok h
  refine ⟨ho, ?_⟩
  rw [encode, encodeAt_of_nonpos ho, encodeWith_drop] at h
  split at h
  · next hk =>
    obtain ⟨w, s₁, hw, hc⟩ := Outcome.run_bind_eq_ok_iff.1 h
    have hg := moves_run (grows_checked _ _) hc
    obtain ⟨_, rfl, _⟩ := run_checked_eq_ok_iff.1 hc
    exact ⟨s₁, hg, .inl ⟨hk, hw⟩⟩
  · next hk =>
    obtain ⟨st, hst, h⟩ := Outcome.run_bind_lift_eq_ok_iff.1 h
    obtain ⟨w, s₁, hw, hc⟩ := Outcome.run_bind_eq_ok_iff.1 h
    have hg := moves_run (grows_checked _ _) hc
    obtain ⟨_, rfl, _⟩ := run_checked_eq_ok_iff.1 hc
    exact ⟨s₁, hg, .inr ⟨st, by omega, Registry.get_eq_ok_iff.1 hst, hw⟩⟩

theorem drop_eq_of_grows (h : (encode registry (.drop t k id) o).run s = (.ok v, s'))
    (h' : (encode registry (.drop t' k' id) o').run s₁ = (.ok v', s₁')) (hs : s'.Grows s₁) (ho : o + k = o' + k') :
    v = v' := by
  obtain ⟨_, s₂, hg, hv⟩ := run_drop_ok h
  obtain ⟨_, s₂', hg', hv'⟩ := run_drop_ok h'
  rw [← ho] at hv'
  have hkept : s₂.Grows s₁ := Trans.trans hg hs
  rcases hv with ⟨hk, hv⟩ | ⟨st, hk, hst, hv⟩
  · rcases hv' with ⟨_, hv'⟩ | ⟨_, hk', _⟩
    · have hfound := (moves_run (grows_past registry id (o + k)) hv').kept _ _ (hkept.kept _ _ (find?_past hv))
      exact Option.some.inj (hfound.symm.trans (find?_past hv'))
    · omega
  · rcases hv' with ⟨hk', _⟩ | ⟨st', _, hst', hv'⟩
    · omega
    · cases hst.symm.trans hst'
      obtain ⟨_, hagain, _⟩ := replays_unroll registry _ _ _ _ _ _ _ s₁ hv hkept
      cases hagain.symm.trans hv'
      rfl

theorem drop_eq_of_nests (hn : Nests registry ⟨.drop t k id, o, s⟩ ps ⟨.drop t' k' id, o', s₁⟩)
    (h : (encode registry (.drop t k id) o).run s = (.ok v, s'))
    (h' : (encode registry (.drop t' k' id) o').run s₁ = (.ok v', s₁')) (ho : o + k = o' + k') : v = v' := by
  cases hn with
  | here =>
    cases h.symm.trans h'
    rfl
  | within step => cases step
  | unrolled step rest =>
    cases step with
    | drop now after stream =>
      obtain ⟨now', _⟩ := run_drop_ok h'
      have hagain : Unrolls registry ⟨.drop t' k' id, o', s₁⟩ _ _ := .drop now' (ho ▸ after) stream
      rw [← ho] at hagain
      have hd : Outcome.Decides (Call.run registry ⟨.drop t k id, o, s⟩).1 := Outcome.decides_of_ok h
      have hrep := (Nests.unrolled (Unrolls.drop (t := t) (s := s) now after stream) rest).snoc hagain
      exact absurd (decides_runTo_of_run hd) (not_decides_of_repeated hrep (List.mem_cons_self ..) _)

theorem drop_eq_of_compare
    (hc : (∃ rs, Nests registry ⟨.drop t k id, o, s⟩ rs ⟨.drop t' k' id, o', s₁⟩) ∨
      (∃ rs, Nests registry ⟨.drop t' k' id, o', s₁⟩ rs ⟨.drop t k id, o, s⟩) ∨
      Precedes registry ⟨.drop t k id, o, s⟩ ⟨.drop t' k' id, o', s₁⟩ ∨
      Precedes registry ⟨.drop t' k' id, o', s₁⟩ ⟨.drop t k id, o, s⟩)
    (h : (encode registry (.drop t k id) o).run s = (.ok v, s'))
    (h' : (encode registry (.drop t' k' id) o').run s₁ = (.ok v', s₁')) (ho : o + k = o' + k') : v = v' := by
  rcases hc with ⟨_, hn⟩ | ⟨_, hn⟩ | ⟨_, hg⟩ | ⟨_, hg⟩
  · exact drop_eq_of_nests hn h h' ho
  · exact (drop_eq_of_nests hn h' h ho.symm).symm
  · rw [Call.run, h] at hg
    exact drop_eq_of_grows h h' hg ho
  · rw [Call.run, h'] at hg
    exact (drop_eq_of_grows h' h hg ho.symm).symm

end

def after (registry : Registry) (s : Encoder) (todo : List (Expr × Int)) : Encoder :=
  todo.foldl (fun s (e, o) => ((encode registry e o).run s).2) s

theorem grows_after (registry : Registry) (s : Encoder) (todo : List (Expr × Int)) :
    s.Grows (after registry s todo) := by
  induction todo generalizing s with
  | nil => exact refl s
  | cons request todo ih => exact Trans.trans (grows_encode registry request.1 request.2 s) (ih _)

inductive Makes (registry : Registry) : Encoder → List (Expr × Int) → Call → Prop where
  | now {s : Encoder} {e : Expr} {o : Int} {todo : List (Expr × Int)} {ps : List (Int × Int)} {c : Call}
    (nested : Nests registry ⟨e, o, s⟩ ps c) : Makes registry s ((e, o) :: todo) c
  | later {s : Encoder} {e : Expr} {o : Int} {todo : List (Expr × Int)} {c : Call}
    (ended : Outcome.Decides ((encode registry e o).run s).1)
    (rest : Makes registry ((encode registry e o).run s).2 todo c) : Makes registry s ((e, o) :: todo) c

variable {s : Encoder} {todo : List (Expr × Int)}

theorem Makes.moves {R : Encoder → Encoder → Prop} [IsPreorder Encoder R]
    (hm : ∀ e o, Outcome.Moves R (encode registry e o)) (hn : ∀ e, Outcome.Moves R (note e))
    (h : Makes registry s todo c) : R s c.state := by
  induction h with
  | now nested => exact nested.moves hm hn
  | later _ _ ih => exact Trans.trans (hm _ _ _) ih

theorem Makes.grows (h : Makes registry s todo c) : s.Grows c.state :=
  h.moves (grows_encode registry) grows_note

theorem Makes.compare (h₁ : Makes registry s todo a) (h₂ : Makes registry s todo b) :
    (∃ rs, Nests registry a rs b) ∨ (∃ rs, Nests registry b rs a) ∨ Precedes registry a b ∨ Precedes registry b a := by
  induction h₁ generalizing b with
  | now nested =>
    cases h₂ with
    | now nested' => exact nested.compare nested'
    | later ended rest =>
      obtain ⟨hd, hg⟩ := nested.decides ended
      exact .inr (.inr (.inl ⟨hd, Trans.trans hg rest.grows⟩))
  | later ended rest ih =>
    cases h₂ with
    | now nested =>
      obtain ⟨hd, hg⟩ := nested.decides ended
      exact .inr (.inr (.inr ⟨hd, Trans.trans hg rest.grows⟩))
    | later _ rest' => exact ih rest'

theorem encoding_repeats (registry : Registry) :
    (∀ s e o v s₁ more, (encode registry e o).run s = (.ok v, s₁) →
      ∃ t, (encode registry e o).run (after registry s₁ more) = (.ok v, t) ∧ (after registry s₁ more).Settled t) ∧
    (∀ s e o ps c v s₁ more, Outcome.Decides ((encode registry e o).run s).1 → Nests registry ⟨e, o, s⟩ ps c →
      (encode registry c.expr c.offset).run c.state = (.ok v, s₁) →
      ∃ t, (encode registry c.expr c.offset).run (after registry s ((e, o) :: more)) = (.ok v, t) ∧
        (after registry s ((e, o) :: more)).Settled t) ∧
    (∀ s todo id t k o s₁ v s₁' t' k' o' s₂ v' s₂', o + k = o' + k' →
      Makes registry s todo ⟨.drop t k id, o, s₁⟩ → (encode registry (.drop t k id) o).run s₁ = (.ok v, s₁') →
      Makes registry s todo ⟨.drop t' k' id, o', s₂⟩ → (encode registry (.drop t' k' id) o').run s₂ = (.ok v', s₂') →
      v = v') := by
  refine ⟨?_, ?_, ?_⟩
  · intro s e o v s₁ more h
    exact replays_encode registry e o s v s₁ _ h (grows_after registry s₁ more)
  · intro s e o ps c v s₁ more ended nested h
    have hg := (nested.decides ended).2
    rw [Call.run, h] at hg
    exact replays_encode registry _ _ _ v s₁ _ h (Trans.trans hg (grows_after registry _ more))
  · intro s todo id t k o s₁ v s₁' t' k' o' s₂ v' s₂' ho hm h hm' h'
    exact drop_eq_of_compare (hm.compare hm') h h' ho

theorem equal_inputs_repeat : ∃ v s₁,
    (encode {} (.binary .bool .eq (.input .bool "a") (.input .bool "b")) 0).run {} = (.ok v, s₁) ∧
    ∀ more, ∃ t, (encode {} (.binary .bool .eq (.input .bool "a") (.input .bool "b")) 0).run (after {} s₁ more) =
      (.ok v, t) ∧ (after {} s₁ more).Settled t := by
  obtain ⟨s₁, h, _⟩ := run_equal_inputs {} (x := "a") (y := "b") (s := {}) (by decide) (by decide) (by decide) rfl
  have he := run_encodeProperty_eq_ok_iff.1 h
  exact ⟨_, s₁, he, fun more => (encoding_repeats {}).1 {} _ 0 _ s₁ more he⟩

end OneStep.Encoding
