import OneStep.Proofs.Recursion
import OneStep.Proofs.Replay

namespace OneStep

def Encoder.noted (s : Encoder) (e : Event) : Encoder :=
  { s with supply.journal := e :: s.supply.journal }

namespace Encoding

theorem run_note (e : Event) (s : Encoder) : (note e).run s = (.ok (), s.noted e) :=
  rfl

structure Call where
  expr : Expr
  offset : Int
  state : Encoder

variable (registry : Registry)

def Call.run (c : Call) : Except Fault SymValue × Encoder :=
  (encode registry c.expr c.offset).run c.state

def Call.runTo (depth : Nat) (c : Call) : Except Fault SymValue × Encoder :=
  (encodeTo registry depth c.expr c.offset).run c.state

inductive Within : Call → Call → Prop where
  | arg {t : StreamType} {op : UnaryOp} {arg : Expr} {field : Datum} {o : Int} {s : Encoder} (now : o ≤ 0) :
    Within ⟨.unary t op arg field, o, s⟩ ⟨arg, o, s⟩
  | left {t : StreamType} {op : BinaryOp} {left right : Expr} {o : Int} {s : Encoder} (now : o ≤ 0) :
    Within ⟨.binary t op left right, o, s⟩ ⟨left, o, s⟩
  | right {t : StreamType} {op : BinaryOp} {left right : Expr} {o : Int} {s s₁ : Encoder} {x : SymValue} (now : o ≤ 0)
    (before : (encode registry left o).run s = (.ok x, s₁)) :
    Within ⟨.binary t op left right, o, s⟩ ⟨right, o, s₁⟩
  | first {t : StreamType} {op : TernaryOp} {first second third : Expr} {o : Int} {s : Encoder} (now : o ≤ 0) :
    Within ⟨.ternary t op first second third, o, s⟩ ⟨first, o, s⟩
  | second {t : StreamType} {op : TernaryOp} {first second third : Expr} {o : Int} {s s₁ : Encoder} {x : SymValue}
    (now : o ≤ 0) (before : (encode registry first o).run s = (.ok x, s₁)) :
    Within ⟨.ternary t op first second third, o, s⟩ ⟨second, o, s₁⟩
  | third {t : StreamType} {op : TernaryOp} {first second third : Expr} {o : Int} {s s₁ s₂ : Encoder} {x y : SymValue}
    (now : o ≤ 0) (earlier : (encode registry first o).run s = (.ok x, s₁))
    (before : (encode registry second o).run s₁ = (.ok y, s₂)) :
    Within ⟨.ternary t op first second third, o, s⟩ ⟨third, o, s₂⟩

inductive Unrolls : Call → Int × Int → Call → Prop where
  | drop {t : StreamType} {k id o : Int} {s : Encoder} {st : Stream} (now : o ≤ 0) (after : 0 ≤ o + k)
    (stream : registry.find? id = some st) :
    Unrolls ⟨.drop t k id, o, s⟩ (id, o + k)
      ⟨st.expr, o + k - st.buffer.length, s.noted (.unrolling st.id (o + k) st.buffer.length)⟩

inductive Nests : Call → List (Int × Int) → Call → Prop where
  | here (c : Call) : Nests c [] c
  | within {c c' c'' : Call} {ps : List (Int × Int)} (step : Within registry c c') (rest : Nests c' ps c'') :
    Nests c ps c''
  | unrolled {c c' c'' : Call} {p : Int × Int} {ps : List (Int × Int)} (step : Unrolls registry c p c')
    (rest : Nests c' ps c'') : Nests c (p :: ps) c''

variable {registry} {c c' c'' : Call} {p : Int × Int} {ps qs : List (Int × Int)}

namespace Nests

theorem trans (h : Nests registry c ps c') (h' : Nests registry c' qs c'') : Nests registry c (ps ++ qs) c'' := by
  induction h with
  | here c => exact h'
  | within step _ ih => exact .within step (ih h')
  | unrolled step _ ih => exact .unrolled step (ih h')

theorem snoc (h : Nests registry c ps c') (step : Unrolls registry c' p c'') :
    Nests registry c (ps ++ [p]) c'' :=
  h.trans (.unrolled step (.here c''))

theorem split (h : Nests registry c (ps ++ p :: qs) c'') :
    ∃ c₀ c₁, Nests registry c ps c₀ ∧ Unrolls registry c₀ p c₁ ∧ Nests registry c₁ qs c'' := by
  generalize hl : ps ++ p :: qs = places at h
  induction h generalizing ps with
  | here c => simp at hl
  | within step _ ih =>
    obtain ⟨c₀, c₁, h₀, h₁, h₂⟩ := ih hl
    exact ⟨c₀, c₁, .within step h₀, h₁, h₂⟩
  | @unrolled c c' c'' q rest step h ih =>
    cases ps with
    | nil =>
      obtain ⟨rfl, rfl⟩ := List.cons.inj hl
      exact ⟨c, c', .here c, step, h⟩
    | cons r ps =>
      obtain ⟨rfl, ht⟩ := List.cons.inj hl
      obtain ⟨c₀, c₁, h₀, h₁, h₂⟩ := ih ht
      exact ⟨c₀, c₁, .unrolled step h₀, h₁, h₂⟩

end Nests

theorem Unrolls.stream (h : Unrolls registry c p c') :
    0 ≤ p.2 ∧ ∃ st, registry.find? p.1 = some st ∧ c'.expr = st.expr ∧ c'.offset = p.2 - st.buffer.length := by
  cases h with
  | drop _ after stream => exact ⟨after, _, stream, rfl, rfl⟩

theorem Unrolls.moves {R : Encoder → Encoder → Prop} (hn : ∀ e, Outcome.Moves R (note e))
    (h : Unrolls registry c p c') : R c.state c'.state := by
  cases h with
  | drop => exact hn _ _

section

variable {R : Encoder → Encoder → Prop} [IsPreorder Encoder R] (hm : ∀ e o, Outcome.Moves R (encode registry e o))
include hm

theorem Within.moves (h : Within registry c c') : R c.state c'.state := by
  cases h with
  | arg => exact refl _
  | left => exact refl _
  | right _ before => exact moves_run (hm _ _) before
  | first => exact refl _
  | second _ before => exact moves_run (hm _ _) before
  | third _ earlier before => exact Trans.trans (moves_run (hm _ _) earlier) (moves_run (hm _ _) before)

theorem Nests.moves (hn : ∀ e, Outcome.Moves R (note e)) (h : Nests registry c ps c') : R c.state c'.state := by
  induction h with
  | here c => exact refl _
  | within step _ ih => exact Trans.trans (step.moves hm) ih
  | unrolled step _ ih => exact Trans.trans (step.moves hn) ih

end

theorem Within.grows (h : Within registry c c') : c.state.Grows c'.state :=
  h.moves (grows_encode registry)

theorem Nests.grows (h : Nests registry c ps c') : c.state.Grows c'.state :=
  h.moves (grows_encode registry) grows_note

theorem Within.replay (h : Within registry c c') {t : Encoder} (ht : c'.state.Grows t) :
    ∃ t', Within registry ⟨c.expr, c.offset, t⟩ ⟨c'.expr, c'.offset, t'⟩ ∧ t.Settled t' := by
  cases h with
  | arg now => exact ⟨t, .arg now, refl t⟩
  | left now => exact ⟨t, .left now, refl t⟩
  | right now before =>
    obtain ⟨t₁, h₁, hs⟩ := replays_encode registry _ _ _ _ _ t before ht
    exact ⟨t₁, .right now h₁, hs⟩
  | first now => exact ⟨t, .first now, refl t⟩
  | second now before =>
    obtain ⟨t₁, h₁, hs⟩ := replays_encode registry _ _ _ _ _ t before ht
    exact ⟨t₁, .second now h₁, hs⟩
  | third now earlier before =>
    have hg := moves_run (grows_encode registry _ _) before
    obtain ⟨t₁, h₁, hs₁⟩ := replays_encode registry _ _ _ _ _ t earlier (Trans.trans hg ht)
    obtain ⟨t₂, h₂, hs₂⟩ := replays_encode registry _ _ _ _ _ t₁ before (Trans.trans ht hs₁.grows)
    exact ⟨t₂, .third now h₁ h₂, Trans.trans hs₁ hs₂⟩

theorem Unrolls.replay (h : Unrolls registry c p c') (t : Encoder) :
    ∃ t', Unrolls registry ⟨c.expr, c.offset, t⟩ p ⟨c'.expr, c'.offset, t'⟩ ∧ t.Settled t' := by
  cases h with
  | drop now after stream => exact ⟨_, .drop now after stream, rfl, rfl, rfl, rfl⟩

theorem Nests.replay (h : Nests registry c ps c') {t : Encoder} (ht : c'.state.Grows t) :
    ∃ t', Nests registry ⟨c.expr, c.offset, t⟩ ps ⟨c'.expr, c'.offset, t'⟩ ∧ t.Settled t' := by
  induction h generalizing t with
  | here c => exact ⟨t, .here _, refl t⟩
  | within step rest ih =>
    obtain ⟨t₁, h₁, hs₁⟩ := step.replay (Trans.trans rest.grows ht)
    obtain ⟨t₂, h₂, hs₂⟩ := ih (Trans.trans ht hs₁.grows)
    exact ⟨t₂, .within h₁ h₂, Trans.trans hs₁ hs₂⟩
  | unrolled step rest ih =>
    obtain ⟨t₁, h₁, hs₁⟩ := step.replay t
    obtain ⟨t₂, h₂, hs₂⟩ := ih (Trans.trans ht hs₁.grows)
    exact ⟨t₂, .unrolled h₁ h₂, Trans.trans hs₁ hs₂⟩

section

variable {present : Stream → Int → Encoding SymValue}

def Faithful (registry : Registry) (present : Stream → Int → Encoding SymValue) : Prop :=
  ∀ e o s x s₁, (encode registry e o).run s = (.ok x, s₁) →
    Outcome.Decides ((encodeAt registry present e o).run s).1 → (encodeAt registry present e o).run s = (.ok x, s₁)

theorem Within.run_eq (h : Within registry c c') (hp : Faithful registry present)
    (hg : ∀ e o, Outcome.Moves Encoder.Grows (encodeAt registry present e o))
    (hd : Outcome.Decides ((encodeAt registry present c.expr c.offset).run c.state).1) :
    ∃ f : SymValue → Encoding SymValue, (∀ x, Outcome.Moves Encoder.Grows (f x)) ∧
      (encodeAt registry present c.expr c.offset).run c.state =
        (encodeAt registry present c'.expr c'.offset >>= f).run c'.state := by
  cases h with
  | arg now =>
    rw [encodeAt_unary now]
    exact ⟨_, grows_finishUnary _ _ _ _, rfl⟩
  | left now =>
    rw [encodeAt_binary now]
    refine ⟨_, fun x => ?_, rfl⟩
    exact Outcome.moves_bind (hg _ _) (grows_finishBinary _ _ _ _ x)
  | right now before =>
    rw [encodeAt_binary now] at hd ⊢
    have hx := hp _ _ _ _ _ before (Outcome.decides_run_bind_iff.1 hd).1
    exact ⟨_, grows_finishBinary _ _ _ _ _, Outcome.run_bind_of_ok hx⟩
  | first now =>
    rw [encodeAt_ternary now]
    refine ⟨_, fun x => ?_, rfl⟩
    exact Outcome.moves_bind (hg _ _) fun y => Outcome.moves_bind (hg _ _) (grows_finishTernary _ _ _ _ _ x y)
  | second now before =>
    rw [encodeAt_ternary now] at hd ⊢
    have hx := hp _ _ _ _ _ before (Outcome.decides_run_bind_iff.1 hd).1
    refine ⟨_, fun y => ?_, Outcome.run_bind_of_ok hx⟩
    exact Outcome.moves_bind (hg _ _) (grows_finishTernary _ _ _ _ _ _ y)
  | third now earlier before =>
    rw [encodeAt_ternary now] at hd ⊢
    obtain ⟨hd₁, hd₂⟩ := Outcome.decides_run_bind_iff.1 hd
    have hx := hp _ _ _ _ _ earlier hd₁
    have hy := hp _ _ _ _ _ before (Outcome.decides_run_bind_iff.1 (hd₂ _ _ hx)).1
    exact ⟨_, grows_finishTernary _ _ _ _ _ _ _, (Outcome.run_bind_of_ok hx).trans (Outcome.run_bind_of_ok hy)⟩

theorem Within.decides (h : Within registry c c') (hp : Faithful registry present)
    (hg : ∀ e o, Outcome.Moves Encoder.Grows (encodeAt registry present e o))
    (hd : Outcome.Decides ((encodeAt registry present c.expr c.offset).run c.state).1) :
    Outcome.Decides ((encodeAt registry present c'.expr c'.offset).run c'.state).1 ∧
      ((encodeAt registry present c'.expr c'.offset).run c'.state).2.Grows
        ((encodeAt registry present c.expr c.offset).run c.state).2 := by
  obtain ⟨f, hf, heq⟩ := h.run_eq hp hg hd
  rw [heq] at hd ⊢
  exact ⟨(Outcome.decides_run_bind_iff.1 hd).1, Outcome.moves_continue hf _⟩

end

theorem faithful_encode (registry : Registry) : Faithful registry (unroll registry (places registry + 1) []) :=
  fun _ _ _ _ _ h _ => h

theorem faithful_encodeTo (registry : Registry) (depth : Nat) : Faithful registry (unrollTo registry depth) :=
  fun _ _ _ _ _ h hd => run_encodeTo_of_run_encode h (Outcome.decides_ok _) hd

theorem grows_encodeTo (registry : Registry) (depth : Nat) (e : Expr) (o : Int) :
    Outcome.Moves Encoder.Grows (encodeTo registry depth e o) :=
  (inductive_grows registry).encodeTo (.trivially registry _) depth e o

theorem Unrolls.decides (h : Unrolls registry c p c') (hd : Outcome.Decides (c.run registry).1) :
    Outcome.Decides (c'.run registry).1 ∧ (c'.run registry).2.Grows (c.run registry).2 := by
  cases h with
  | @drop t k id o s st now after stream =>
    have heq : encode registry (.drop t k id) o = _ := encodeAt_drop now registry _ t k id after stream
    simp only [Call.run, heq] at hd ⊢
    have hd := (Outcome.decides_run_bind_iff.1 hd).1
    have hg := Outcome.moves_continue (m := unroll registry (places registry + 1) [] st (o + k))
      (grows_checked (.drop t k id)) s
    rw [unroll_succ_eq, Outcome.run_bind_of_ok (run_note _ s), if_neg List.not_mem_nil] at hd hg
    rw [extends_encode (Nat.le_succ _) _ _ _ _ hd]
    exact ⟨hd, hg⟩

theorem Nests.decides (h : Nests registry c ps c') (hd : Outcome.Decides (c.run registry).1) :
    Outcome.Decides (c'.run registry).1 ∧ (c'.run registry).2.Grows (c.run registry).2 := by
  induction h with
  | here c => exact ⟨hd, refl _⟩
  | within step _ ih =>
    obtain ⟨hd', hg⟩ := step.decides (faithful_encode registry) (grows_encode registry) hd
    exact ⟨(ih hd').1, Trans.trans (ih hd').2 hg⟩
  | unrolled step _ ih =>
    obtain ⟨hd', hg⟩ := step.decides hd
    exact ⟨(ih hd').1, Trans.trans (ih hd').2 hg⟩

theorem Unrolls.decides_runTo (h : Unrolls registry c p c') {depth : Nat}
    (hd : Outcome.Decides (c.runTo registry depth).1) :
    ∃ rest, depth = rest + 1 ∧ Outcome.Decides (c'.runTo registry rest).1 := by
  cases h with
  | @drop t k id o s st now after stream =>
    simp only [Call.runTo] at hd ⊢
    rw [encodeTo, encodeAt_drop now registry _ t k id after stream] at hd
    have hd := (Outcome.decides_run_bind_iff.1 hd).1
    cases depth with
    | zero => exact absurd rfl hd
    | succ rest =>
      rw [unrollTo_succ, Outcome.run_bind_of_ok (run_note _ s)] at hd
      exact ⟨rest, rfl, hd⟩

theorem Nests.decides_runTo (h : Nests registry c ps c') {depth : Nat}
    (hd : Outcome.Decides (c.runTo registry depth).1) :
    ∃ rest, depth = rest + ps.length ∧ Outcome.Decides (c'.runTo registry rest).1 := by
  induction h generalizing depth with
  | here c => exact ⟨depth, rfl, hd⟩
  | within step _ ih =>
    exact ih (step.decides (faithful_encodeTo registry depth) (grows_encodeTo registry depth) hd).1
  | unrolled step _ ih =>
    obtain ⟨rest, rfl, hd'⟩ := step.decides_runTo hd
    obtain ⟨rest', rfl, hd''⟩ := ih hd'
    exact ⟨rest', rfl, hd''⟩

theorem Unrolls.entry_eq {c₀ c₁ : Call} (h : Unrolls registry c p c') (h' : Unrolls registry c₀ p c₁) :
    c'.expr = c₁.expr ∧ c'.offset = c₁.offset := by
  obtain ⟨_, st, hst, he, ho⟩ := h.stream
  obtain ⟨_, st', hst', he', ho'⟩ := h'.stream
  cases hst.symm.trans hst'
  exact ⟨he.trans he'.symm, ho.trans ho'.symm⟩

-- the way from a call back to itself can be gone once more, from the state that it has led to
theorem not_decides_of_cycle (h : Nests registry c ps c') (hne : ps ≠ []) (he : c'.expr = c.expr)
    (ho : c'.offset = c.offset) (depth : Nat) {t : Encoder} (ht : c'.state.Grows t) :
    ¬ Outcome.Decides (Call.runTo registry depth ⟨c.expr, c.offset, t⟩).1 := by
  induction depth using Nat.strong_induction_on generalizing t with
  | _ depth ih =>
    intro hd
    obtain ⟨t', h', hs⟩ := h.replay ht
    obtain ⟨rest, hl, hd'⟩ := h'.decides_runTo hd
    have hpos := List.length_pos_iff.2 hne
    rw [he, ho] at hd'
    exact ih rest (by omega) (Trans.trans ht hs.grows) hd'

theorem Nests.exists_cycle (h : Nests registry c (ps ++ [p]) c') (hp : p ∈ ps) :
    ∃ as bs c₀ c₁ c₂ c₃, Nests registry c as c₀ ∧ Unrolls registry c₀ p c₁ ∧ Nests registry c₁ bs c₂ ∧
      Unrolls registry c₂ p c₃ := by
  obtain ⟨as, bs, rfl⟩ := List.append_of_mem hp
  rw [List.append_assoc] at h
  obtain ⟨c₀, c₁, h₀, hu, h⟩ := h.split
  obtain ⟨c₂, c₃, h₂, hu', _⟩ := h.split
  exact ⟨as, bs, c₀, c₁, c₂, c₃, h₀, hu, h₂, hu'⟩

theorem not_decides_of_repeated (h : Nests registry c (ps ++ [p]) c') (hp : p ∈ ps) (depth : Nat) :
    ¬ Outcome.Decides (c.runTo registry depth).1 := by
  intro hd
  obtain ⟨as, bs, c₀, c₁, c₂, c₃, h₀, hu, h₂, hu'⟩ := h.exists_cycle hp
  obtain ⟨he, ho⟩ := hu'.entry_eq hu
  have hcycle := h₂.snoc hu'
  obtain ⟨rest, _, hd'⟩ := ((h₀.snoc hu).trans hcycle).decides_runTo hd
  have hne : bs ++ [p] ≠ [] := by simp
  have hend := not_decides_of_cycle hcycle hne he ho rest (refl c₃.state)
  rw [← he, ← ho] at hend
  exact hend hd'

theorem nonpos_of_endless {present : Stream → Int → Encoding SymValue} {e : Expr} {o : Int} {s : Encoder}
    (h : ¬ Outcome.Decides ((encodeAt registry present e o).run s).1) : o ≤ 0 := by
  by_contra ho
  rw [encodeAt_eq, if_pos (by omega)] at h
  exact h (Outcome.decides_error rfl)

theorem nonpos_of_ok {e : Expr} {o : Int} {s s' : Encoder} {v : SymValue}
    (h : (encode registry e o).run s = (.ok v, s')) : o ≤ 0 := by
  by_contra ho
  rw [encode, encodeAt_eq, if_pos (by omega)] at h
  cases h

theorem exists_endless_drop {present : Stream → Int → Encoding SymValue}
    (hs : ∀ e o s x s₁, (encodeAt registry present e o).run s = (.ok x, s₁) → (encode registry e o).run s = (.ok x, s₁))
    {o : Int} (ho : o ≤ 0) {e : Expr} {s : Encoder}
    (h : ¬ Outcome.Decides ((encodeAt registry present e o).run s).1) :
    ∃ t k id s' st, Nests registry ⟨e, o, s⟩ [] ⟨.drop t k id, o, s'⟩ ∧ 0 ≤ o + k ∧ registry.find? id = some st ∧
      ¬ Outcome.Decides ((present st (o + k)).run s').1 := by
  induction e generalizing s with
  | const t d =>
    rw [encodeAt_of_nonpos ho, encodeWith] at h
    exact absurd (Constant.decides_encode t d) h
  | drop t k id =>
    by_cases hk : o + k < 0
    · rw [encodeAt_of_nonpos ho, encodeWith_drop, if_pos hk] at h
      exact absurd (Outcome.ends_bind (ends_past registry id _) (ends_checked _) s) h
    · cases hget : registry.get id with
      | error f =>
        rw [encodeAt_of_nonpos ho, encodeWith_drop, if_neg hk, hget] at h
        exact absurd (Outcome.decides_error_iff.2 (Outcome.decides_error_iff.1 (hget ▸ registry.decides_get id))) h
      | ok st =>
        have hst := Registry.get_eq_ok_iff.1 hget
        rw [encodeAt_drop ho registry present t k id (by omega) hst] at h
        exact ⟨t, k, id, s, st, .here _, by omega, hst, Outcome.not_decides_of_bind (ends_checked _) h⟩
  | input t name =>
    rw [encodeAt_of_nonpos ho, encodeWith] at h
    exact absurd (Outcome.ends_bind (ends_input name t o) (ends_checked _) s) h
  | unary t op arg field ih =>
    rw [encodeAt_unary ho] at h
    obtain ⟨t', k, id, s', st, hn, hrest⟩ := ih (Outcome.not_decides_of_bind (ends_finishUnary t op arg field) h)
    exact ⟨t', k, id, s', st, .within (.arg ho) hn, hrest⟩
  | binary t op left right ihl ihr =>
    rw [encodeAt_binary ho] at h
    rcases Outcome.not_decides_run_bind h with h | ⟨x, s₁, hx, h⟩
    · obtain ⟨t', k, id, s', st, hn, hrest⟩ := ihl h
      exact ⟨t', k, id, s', st, .within (.left ho) hn, hrest⟩
    · obtain ⟨t', k, id, s', st, hn, hrest⟩ := ihr (Outcome.not_decides_of_bind (ends_finishBinary t op left right x) h)
      exact ⟨t', k, id, s', st, .within (.right ho (hs _ _ _ _ _ hx)) hn, hrest⟩
  | ternary t op first second third ih₁ ih₂ ih₃ =>
    rw [encodeAt_ternary ho] at h
    rcases Outcome.not_decides_run_bind h with h | ⟨x, s₁, hx, h⟩
    · obtain ⟨t', k, id, s', st, hn, hrest⟩ := ih₁ h
      exact ⟨t', k, id, s', st, .within (.first ho) hn, hrest⟩
    rcases Outcome.not_decides_run_bind h with h | ⟨y, s₂, hy, h⟩
    · obtain ⟨t', k, id, s', st, hn, hrest⟩ := ih₂ h
      exact ⟨t', k, id, s', st, .within (.second ho (hs _ _ _ _ _ hx)) hn, hrest⟩
    · obtain ⟨t', k, id, s', st, hn, hrest⟩ :=
        ih₃ (Outcome.not_decides_of_bind (ends_finishTernary t op first second third x y) h)
      exact ⟨t', k, id, s', st, .within (.third ho (hs _ _ _ _ _ hx) (hs _ _ _ _ _ hy)) hn, hrest⟩
  | _ =>
    rw [encodeAt_of_nonpos ho, encodeWith] at h
    exact absurd (Outcome.decides_error rfl) h

theorem exists_repeated (hr : ∀ id st, registry.find? id = some st → st.id = id) {fuel : Nat}
    {active : List (Int × Int)} (ha : ∀ p ∈ active, Placed registry p) (hn : active.Nodup)
    (hf : places registry < active.length + fuel) (hle : fuel ≤ places registry + 1) {e : Expr} {o : Int} {s : Encoder}
    (h : ¬ Outcome.Decides ((encodeAt registry (unroll registry fuel active) e o).run s).1) :
    ∃ ps p c, Nests registry ⟨e, o, s⟩ (ps ++ [p]) c ∧ (p ∈ ps ∨ p ∈ active) := by
  induction fuel generalizing active e o s with
  | zero =>
    have := length_le_places ha hn
    omega
  | succ fuel ih =>
    have ho : o ≤ 0 := nonpos_of_endless h
    have hs : ∀ e o s x s₁, (encodeAt registry (unroll registry (fuel + 1) active) e o).run s = (.ok x, s₁) →
        (encode registry e o).run s = (.ok x, s₁) := by
      intro e o s x s₁ hx
      rw [extends_encode hle active e o s (Outcome.decides_of_ok hx), hx]
    obtain ⟨t, k, id, s', st, hnests, hk, hst, h⟩ := exists_endless_drop hs ho h
    have hu : Unrolls registry _ _ _ := .drop (t := t) (s := s') ho hk hst
    have hid := hr id st hst
    rw [unroll_succ_eq, Outcome.run_bind_of_ok (run_note _ s'), hid] at h
    split at h
    · next hmem => exact ⟨[], (id, o + k), _, hnests.snoc hu, .inr hmem⟩
    · next hnew =>
      have ho' := nonpos_of_endless h
      have hplaced : Placed registry (id, o + k) := ⟨st, hst, hk, by simp only; omega⟩
      obtain ⟨ps, p, c, hps, hp⟩ := ih (List.forall_mem_cons.2 ⟨hplaced, ha⟩) (List.nodup_cons.2 ⟨hnew, hn⟩)
        (by simp only [List.length_cons]; omega) (by omega) h
      refine ⟨(id, o + k) :: ps, p, c, hnests.trans (.unrolled (hid ▸ hu) hps), ?_⟩
      rw [List.mem_cons] at hp ⊢
      exact hp.elim (fun h => .inl (.inr h)) fun h => h.imp_left .inl

theorem exists_repeated_of_run (hr : ∀ id st, registry.find? id = some st → st.id = id)
    (h : ¬ Outcome.Decides (c.run registry).1) : ∃ ps p c', Nests registry c (ps ++ [p]) c' ∧ p ∈ ps := by
  have ha : ∀ p ∈ ([] : List (Int × Int)), Placed registry p :=
    fun _ hp => absurd hp List.not_mem_nil
  obtain ⟨ps, p, c', hn, hp⟩ := exists_repeated hr ha List.nodup_nil (by simp) (Nat.le_refl _) h
  exact ⟨ps, p, c', hn, hp.resolve_right (List.not_mem_nil)⟩

theorem decides_runTo_of_run (h : Outcome.Decides (c.run registry).1) :
    Outcome.Decides (c.runTo registry (places registry + 1)).1 := by
  rw [Call.runTo, extends_watched _ [] _ _ _ h]
  exact h

theorem decides_run_iff (hr : ∀ id st, registry.find? id = some st → st.id = id) :
    Outcome.Decides (c.run registry).1 ↔ ∃ depth, Outcome.Decides (c.runTo registry depth).1 := by
  constructor
  · intro h
    exact ⟨_, decides_runTo_of_run h⟩
  · rintro ⟨depth, hd⟩
    by_contra h
    obtain ⟨ps, p, c', hn, hp⟩ := exists_repeated_of_run hr h
    exact not_decides_of_repeated hn hp depth hd

theorem runTo_eq_run (hr : ∀ id st, registry.find? id = some st → st.id = id) {depth : Nat}
    (hd : Outcome.Decides (c.runTo registry depth).1) : c.runTo registry depth = c.run registry :=
  run_encodeTo_of_run_encode rfl ((decides_run_iff hr).2 ⟨depth, hd⟩) hd

theorem Unrolls.run_of_ok (hr : ∀ id st, registry.find? id = some st → st.id = id) (h : Unrolls registry c p c')
    {v : SymValue} {s₁ : Encoder} (hv : c'.run registry = (.ok v, s₁)) :
    c.run registry = (checked c.expr v).run s₁ := by
  have hto := (runTo_eq_run hr (decides_runTo_of_run (Outcome.decides_of_ok hv))).trans hv
  have hrun : c.runTo registry (places registry + 1 + 1) = (checked c.expr v).run s₁ := by
    cases h with
    | @drop t k id o s st now after stream =>
      rw [Call.runTo, encodeTo, encodeAt_drop now registry _ t k id after stream, unrollTo_succ]
      exact Outcome.run_bind_of_ok ((Outcome.run_bind_of_ok (run_note _ s)).trans hto)
  rw [← hrun]
  refine (runTo_eq_run hr ?_).symm
  rw [hrun]
  exact ends_checked _ _ _

theorem run_endless_iff (hr : ∀ id st, registry.find? id = some st → st.id = id) :
    (c.run registry).1 = .error .endless ↔ ∀ depth, (c.runTo registry depth).1 = .error .endless := by
  simp only [← Outcome.not_decides_iff, decides_run_iff hr, not_exists]

theorem endless_iff_repeated (hr : ∀ id st, registry.find? id = some st → st.id = id) :
    (∀ depth, (c.runTo registry depth).1 = .error .endless) ↔
      ∃ ps p c', Nests registry c (ps ++ [p]) c' ∧ p ∈ ps := by
  rw [← run_endless_iff hr, ← Outcome.not_decides_iff]
  constructor
  · exact exists_repeated_of_run hr
  · rintro ⟨ps, p, c', hn, hp⟩ hd
    exact not_decides_of_repeated hn hp _ (decides_runTo_of_run hd)

end Encoding

end OneStep
