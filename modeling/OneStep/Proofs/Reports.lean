import OneStep.Proofs.Isolation

namespace OneStep

def Supply.Matches (s s' : Supply) : Prop :=
  s'.count = s.count

structure Encoder.Matches (s s' : Encoder) : Prop where
  supply : s.supply.Matches s'.supply
  memo_eq : s'.memo = s.memo

namespace Supply

variable {α : Type}

abbrev Blind (m : Drawing α) : Prop :=
  Outcome.Tracks Matches id m m

theorem blind_drawScalar (t : StreamType) (hint : String) : Blind (drawScalar t hint) := by
  intro s s' hs
  have hc : (s.counted hint t).Matches (s'.counted hint t) := congrArg Nat.succ hs
  have hv (k : Scalar) : symbolFor s' hint k = symbolFor s hint k := by
    rw [symbolFor, symbolFor, hs]
  rw [run_drawScalar, run_drawScalar]
  cases t.tag with
  | error f => exact ⟨rfl, hs⟩
  | ok tag =>
    cases t.scalar with
    | error f => exact ⟨rfl, hc⟩
    | ok k =>
      simp only [hv]
      exact ⟨(id_map _).symm, hc⟩

theorem blind_draw (t : StreamType) (hint : String) : Blind (draw t hint) := by
  refine Inductive.draw (P := fun _ _ m => Blind m) (Q := fun _ m => Blind m) ⟨?_, ?_, ?_, ?_, ?_⟩ t hint
  · exact fun t hint _ _ => blind_drawScalar t hint
  · exact Outcome.tracks_pure rfl
  · intro t hint parts m n hm hn
    exact Outcome.tracks_bind hm fun v => Outcome.tracks_bind hn fun vs => Outcome.tracks_pure rfl
  · intro length element hint m hm
    exact Outcome.tracks_bind hm fun items => Outcome.tracks_pure rfl
  · intro name fields hint m hm
    exact Outcome.tracks_bind hm fun items => Outcome.tracks_pure rfl

end Supply

namespace Encoding

variable {α : Type}

abbrev Blind (m : Encoding α) : Prop :=
  Outcome.Tracks Encoder.Matches id m m

theorem blind_lift (x : Except Fault α) : Blind (liftM x) :=
  Outcome.tracks_lift (id_map x).symm

theorem blind_draw (t : StreamType) (hint : String) : Blind (draw t hint) := by
  intro s s' hs
  obtain ⟨hv, hc⟩ := Supply.blind_draw t hint s.supply s'.supply hs.supply
  exact ⟨hv, hc, hs.memo_eq⟩

theorem blind_note (e : Event) : Blind (note e) :=
  fun _ _ hs => ⟨rfl, hs.supply, hs.memo_eq⟩

theorem blind_memoized (u : Unknown) {make : Encoding SymValue} {after : Encoding Unit} (hm : Blind make)
    (ha : Blind after) : Blind (memoized u make after) := by
  intro s s' hs
  cases hu : s.memo.find? u with
  | some v =>
    rw [run_memoized, run_memoized, hs.memo_eq, hu]
    exact ⟨rfl, hs.supply, congrArg (fun memo : Memo => { memo with hits := memo.hits + 1 }) hs.memo_eq⟩
  | none =>
    rw [run_memoized_none hu, run_memoized_none (hs.memo_eq ▸ hu)]
    have hmiss : Blind miss := fun _ _ hs =>
      ⟨rfl, hs.supply, congrArg (fun memo : Memo => { memo with misses := memo.misses + 1 }) hs.memo_eq⟩
    have hremember (v : SymValue) : Blind (remember u v) := fun _ _ hs =>
      ⟨rfl, hs.supply, congrArg (Memo.add · v u) hs.memo_eq⟩
    have hdone (v : SymValue) : Blind (pure v) := Outcome.tracks_pure rfl
    exact Outcome.tracks_bind hmiss (fun _ => Outcome.tracks_bind hm fun v =>
      Outcome.tracks_bind (hremember v) fun _ => Outcome.tracks_bind ha fun _ => hdone v) s s' hs

theorem blind_checked (e : Expr) (v : SymValue) : Blind (checked e v) := by
  unfold checked
  refine Outcome.tracks_bind_lift fun tag _ => ?_
  split
  · intro s s' hs
    rw [run_share, run_share]
    exact ⟨rfl, hs.supply, hs.memo_eq⟩
  · exact Outcome.tracks_bind_lift fun _ _ => Outcome.tracks_throw _

theorem blind_past (registry : Registry) (id o : Int) : Blind (past registry id o) := by
  rw [past_eq]
  split
  · exact Outcome.tracks_throw _
  · refine blind_memoized (.past id o) ?_ (blind_note _)
    exact Outcome.tracks_bind_lift fun _ _ => Outcome.tracks_bind_lift fun _ _ =>
      Outcome.tracks_bind_lift fun _ _ => blind_draw _ _

theorem blind_input (name : String) (t : StreamType) (o : Int) : Blind (input name t o) := by
  rw [input_eq]
  split
  · exact Outcome.tracks_throw _
  · refine blind_memoized (.input name o) ?_ (Outcome.tracks_pure rfl)
    exact Outcome.tracks_bind_lift fun _ _ => blind_draw _ _

theorem blind_outside (l : Lookup) : Blind (outside l) := by
  rw [outside_eq]
  exact blind_memoized _ (blind_draw _ _) (Outcome.tracks_pure rfl)

theorem blind_binary (op : BinaryOp) (x y : SymValue) (t : StreamType) : Blind (binary op x y t) := by
  unfold binary
  split
  · exact Outcome.tracks_bind_lift fun (items, i) _ =>
      Outcome.tracks_bind (blind_outside _) fun w => blind_lift _
  · exact blind_lift _

theorem inductive_blind (registry : Registry) :
    Inductive registry (fun _ => True) (fun _ _ m => Blind m) (fun _ _ m => Blind m) where
  future _ _ _ := Outcome.tracks_throw _
  const _ _ _ := blind_lift _
  past _ _ _ _ _ _ := Outcome.tracks_bind (blind_past _ _ _) fun v => blind_checked _ v
  present _ _ _ _ _ _ _ _ hm := Outcome.tracks_bind_lift fun st hst =>
    Outcome.tracks_bind (hm st (Registry.get_eq_ok_iff.1 hst)) fun v => blind_checked _ v
  input _ _ _ _ := Outcome.tracks_bind (blind_input _ _ _) fun v => blind_checked _ v
  unary _ _ _ _ _ _ _ _ hm := Outcome.tracks_bind hm fun _ => Outcome.tracks_bind_lift fun _ _ =>
    Outcome.tracks_bind_lift fun v _ => blind_checked _ v
  binary t op _ _ _ _ _ _ _ _ hm hn := Outcome.tracks_bind hm fun x => Outcome.tracks_bind hn fun y =>
    Outcome.tracks_bind (blind_binary op x y t) fun v => blind_checked _ v
  ternary _ _ _ _ _ _ _ _ _ _ _ _ _ hl hm hn := Outcome.tracks_bind hl fun _ => Outcome.tracks_bind hm fun _ =>
    Outcome.tracks_bind hn fun _ => Outcome.tracks_bind_lift fun v _ => blind_checked _ v
  refused _ _ _ _ _ := Outcome.tracks_throw _
  exhausted _ _ := Outcome.tracks_throw _
  repeated _ _ := Outcome.tracks_bind (blind_note _) fun _ => Outcome.tracks_throw _
  unrolled _ _ _ _ hm := Outcome.tracks_bind (blind_note _) fun _ => hm

theorem blind_encodeProperty (registry : Registry) (e : Expr) : Blind (encodeProperty registry e) := by
  have he : Blind (encode registry e 0) := (inductive_blind registry).encode (.trivially registry _) e 0
  refine Outcome.tracks_bind he fun v => ?_
  rcases v with ⟨_ | w | w | p, t⟩ | xs | xs
  · exact Outcome.tracks_pure rfl
  all_goals exact Outcome.tracks_throw _

end Encoding

end OneStep
