import OneStep.Proofs.Evaluation

namespace OneStep

structure Encoder.Settled (s s' : Encoder) : Prop where
  count_eq : s'.supply.count = s.supply.count
  past_eq : s'.memo.past = s.memo.past
  inputs_eq : s'.memo.inputs = s.memo.inputs
  lookups_eq : s'.memo.lookups = s.memo.lookups

namespace Encoder

instance : IsPreorder Encoder Settled where
  refl _ := ⟨rfl, rfl, rfl, rfl⟩
  trans _ _ _ h h' := ⟨h'.count_eq.trans h.count_eq, h'.past_eq.trans h.past_eq, h'.inputs_eq.trans h.inputs_eq,
    h'.lookups_eq.trans h.lookups_eq⟩

theorem Settled.grows {s s' : Encoder} (h : s.Settled s') : s.Grows s' := by
  refine grows_of_memo_eq (Nat.le_of_eq h.count_eq.symm) fun u => ?_
  cases u with
  | past id o => exact congrArg (Table.find? · _) h.past_eq
  | input name o => exact congrArg (Table.find? · _) h.inputs_eq
  | outside l => exact congrArg (Table.find? · _) h.lookups_eq

end Encoder

namespace Encoding

variable {α β : Type}

def Replays (m : Encoding α) : Prop :=
  ∀ s a s₁ t, m.run s = (.ok a, s₁) → s₁.Grows t → ∃ t', m.run t = (.ok a, t') ∧ t.Settled t'

theorem replays_throw (f : Fault) : Replays (throw f : Encoding α) := by
  intro s a s₁ t h
  cases h

theorem replays_lift (x : Except Fault α) : Replays (liftM x : Encoding α) := by
  intro s a s₁ t h _
  obtain ⟨rfl, _⟩ := Outcome.run_lift_eq_ok_iff.1 h
  exact ⟨t, rfl, refl t⟩

theorem replays_note (e : Event) : Replays (note e) :=
  fun _ _ _ _ _ _ => ⟨_, rfl, rfl, rfl, rfl, rfl⟩

theorem replays_bind {m : Encoding α} {f : α → Encoding β} (hm : Replays m)
    (hg : ∀ a, Outcome.Moves Encoder.Grows (f a)) (hf : ∀ a, Replays (f a)) : Replays (m >>= f) := by
  intro s b s₂ t h ht
  obtain ⟨a, s₁, ha, hb⟩ := Outcome.run_bind_eq_ok_iff.1 h
  obtain ⟨t₁, ha', hs₁⟩ := hm _ _ _ _ ha (Trans.trans (moves_run (hg a) hb) ht)
  obtain ⟨t₂, hb', hs₂⟩ := hf a _ _ _ _ hb (Trans.trans ht hs₁.grows)
  exact ⟨t₂, Outcome.run_bind_eq_ok_iff.2 ⟨a, t₁, ha', hb'⟩, Trans.trans hs₁ hs₂⟩

theorem replays_bind_lift {x : Except Fault α} {f : α → Encoding β} (hf : ∀ a, x = .ok a → Replays (f a)) :
    Replays (liftM x >>= f) := by
  intro s b s₁ t h ht
  obtain ⟨a, rfl, h⟩ := Outcome.run_bind_lift_eq_ok_iff.1 h
  exact hf a rfl s b s₁ t h ht

theorem replays_checked (e : Expr) (v : SymValue) : Replays (checked e v) := by
  intro s u s₁ t h _
  obtain ⟨ht, rfl, _⟩ := run_checked_eq_ok_iff.1 h
  exact ⟨_, run_checked_eq_ok_iff.2 ⟨ht, rfl, rfl⟩, rfl, rfl, rfl, rfl⟩

theorem run_memoized_found {u : Unknown} {t : Encoder} {v : SymValue} (h : t.memo.find? u = some v)
    (make : Encoding SymValue) (after : Encoding Unit) :
    ∃ t', (memoized u make after).run t = (.ok v, t') ∧ t.Settled t' := by
  rw [run_memoized, h]
  exact ⟨_, rfl, rfl, rfl, rfl, rfl⟩

theorem replays_past (registry : Registry) (id o : Int) : Replays (past registry id o) := by
  intro s v s₁ t h ht
  have hv := ht.kept _ _ (find?_past h)
  rw [past_eq] at h ⊢
  split at h
  · cases h
  · next ho =>
    rw [if_neg ho]
    exact run_memoized_found hv _ _

theorem replays_input (name : String) (type : StreamType) (o : Int) : Replays (input name type o) := by
  intro s v s₁ t h ht
  have hv := ht.kept _ _ (find?_input h)
  rw [input_eq] at h ⊢
  split at h
  · cases h
  · next ho =>
    rw [if_neg ho]
    exact run_memoized_found hv _ _

theorem replays_outside (l : Lookup) : Replays (outside l) := by
  intro s v s₁ t h ht
  rw [outside_eq]
  exact run_memoized_found (ht.kept _ _ (find?_outside h)) _ _

theorem replays_binary (op : BinaryOp) (x y : SymValue) (type : StreamType) : Replays (binary op x y type) := by
  unfold binary
  split
  · refine replays_bind_lift fun (items, i) _ => ?_
    exact replays_bind (replays_outside _) (fun _ => Outcome.moves_lift _) fun _ => replays_lift _
  · exact replays_lift _

variable (registry : Registry)

theorem inductive_replays : Inductive registry (Outcome.Moves Encoder.Grows) (fun _ _ m => Replays m)
    (fun _ _ m => Replays m) where
  future _ _ _ := replays_throw _
  const _ _ _ := replays_lift _
  past _ _ _ _ _ _ := replays_bind (replays_past _ _ _) (fun _ => grows_checked _ _) fun _ => replays_checked _ _
  present t k id _ _ _ _ hg hm := by
    refine replays_bind_lift fun st hst => ?_
    have hst := Registry.get_eq_ok_iff.1 hst
    exact replays_bind (hm st hst) (fun _ => grows_checked _ _) fun _ => replays_checked _ _
  input _ _ _ _ := replays_bind (replays_input _ _ _) (fun _ => grows_checked _ _) fun _ => replays_checked _ _
  unary t op arg field o m _ _ hm := by
    refine replays_bind hm (fun x => ?_) fun x => ?_
    · exact Outcome.moves_bind_lift fun _ _ => Outcome.moves_bind_lift fun _ _ => grows_checked _ _
    · exact replays_bind_lift fun _ _ => replays_bind_lift fun _ _ => replays_checked _ _
  binary t op left right o m n _ _ hgn hm hn := by
    have hg : ∀ x y, Outcome.Moves Encoder.Grows (Encoding.binary op x y t >>= checked (.binary t op left right)) :=
      fun x y => Outcome.moves_bind (grows_binary op x y t) fun _ => grows_checked _ _
    refine replays_bind hm (fun x => Outcome.moves_bind hgn (hg x)) fun x => replays_bind hn (hg x) fun y => ?_
    exact replays_bind (replays_binary op x y t) (fun _ => grows_checked _ _) fun _ => replays_checked _ _
  ternary t op first second third o l m n _ _ hgm hgn hl hm hn := by
    have hg : ∀ x y z, Outcome.Moves Encoder.Grows
        ((Operator.ternary op x y z : Encoding SymValue) >>= checked (.ternary t op first second third)) :=
      fun x y z => Outcome.moves_bind_lift fun _ _ => grows_checked _ _
    refine replays_bind hl (fun x => Outcome.moves_bind hgm fun y => Outcome.moves_bind hgn (hg x y)) fun x => ?_
    refine replays_bind hm (fun y => Outcome.moves_bind hgn (hg x y)) fun y => replays_bind hn (hg x y) fun z => ?_
    exact replays_bind_lift fun _ _ => replays_checked _ _
  refused _ _ _ _ _ := replays_throw _
  exhausted _ _ := replays_throw _
  repeated _ _ := replays_bind (replays_note _) (fun _ => Outcome.moves_throw _) fun _ => replays_throw _
  unrolled _ _ _ hg hm := replays_bind (replays_note _) (fun _ => hg) fun _ => hm

theorem replays_encode (e : Expr) (o : Int) : Replays (encode registry e o) :=
  (inductive_replays registry).encode (inductive_grows registry) e o

theorem replays_unroll (fuel : Nat) (active : List (Int × Int)) (st : Stream) (total : Int) :
    Replays (unroll registry fuel active st total) :=
  ((inductive_replays registry).unroll (inductive_grows registry) fuel active st total).2

end Encoding

end OneStep
