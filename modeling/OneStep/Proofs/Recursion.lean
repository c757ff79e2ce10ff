import OneStep.Proofs.Faults
import OneStep.Proofs.Names

namespace OneStep

namespace Outcome

variable {α β σ : Type}

def Extends (m m' : ExceptT Fault (StateM σ) α) : Prop :=
  ∀ s, Decides (m.run s).1 → m'.run s = m.run s

theorem extends_refl (m : ExceptT Fault (StateM σ) α) : Extends m m :=
  fun _ _ => rfl

theorem Extends.trans {m m' m'' : ExceptT Fault (StateM σ) α} (h : Extends m m') (h' : Extends m' m'') :
    Extends m m'' := by
  intro s hs
  have hm := h s hs
  exact (h' s (hm ▸ hs)).trans hm

theorem extends_of_endless {m m' : ExceptT Fault (StateM σ) α} (h : ∀ s, (m.run s).1 = .error .endless) :
    Extends m m' :=
  fun s hs => absurd (h s) hs

theorem extends_bind {m m' : ExceptT Fault (StateM σ) α} {f f' : α → ExceptT Fault (StateM σ) β}
    (hm : Extends m m') (hf : ∀ a, Extends (f a) (f' a)) : Extends (m >>= f) (m' >>= f') := by
  intro s hs
  have hd := (decides_run_bind_iff.1 hs).1
  rw [run_bind, run_bind, hm s hd]
  rcases hr : m.run s with ⟨e | a, s₁⟩
  · rfl
  · exact hf a s₁ ((decides_run_bind_iff.1 hs).2 a s₁ hr)

theorem extends_bind_lift {x : Except Fault α} {f f' : α → ExceptT Fault (StateM σ) β}
    (hf : ∀ a, x = .ok a → Extends (f a) (f' a)) : Extends (liftM x >>= f) (liftM x >>= f') := by
  intro s hs
  rw [run_bind, run_lift] at hs ⊢
  rw [run_bind, run_lift]
  cases x with
  | error e => rfl
  | ok a => exact hf a rfl s hs

end Outcome

namespace Encoding

variable {registry : Registry}

def finishUnary (t : StreamType) (op : UnaryOp) (arg : Expr) (field : Datum) (x : SymValue) : Encoding SymValue := do
  let position ← positionTaken op arg field
  let v ← Operator.unary op x t (position.map Int.ofNat)
  checked (.unary t op arg field) v

def finishBinary (t : StreamType) (op : BinaryOp) (left right : Expr) (x y : SymValue) : Encoding SymValue := do
  let v ← binary op x y t
  checked (.binary t op left right) v

def finishTernary (t : StreamType) (op : TernaryOp) (first second third : Expr) (x y z : SymValue) :
    Encoding SymValue := do
  let v ← Operator.ternary op x y z
  checked (.ternary t op first second third) v

theorem grows_finishUnary (t : StreamType) (op : UnaryOp) (arg : Expr) (field : Datum) (x : SymValue) :
    Outcome.Moves Encoder.Grows (finishUnary t op arg field x) :=
  Outcome.moves_bind_lift fun _ _ => Outcome.moves_bind_lift fun _ _ => grows_checked _ _

theorem grows_finishBinary (t : StreamType) (op : BinaryOp) (left right : Expr) (x y : SymValue) :
    Outcome.Moves Encoder.Grows (finishBinary t op left right x y) :=
  Outcome.moves_bind (grows_binary op x y t) fun _ => grows_checked _ _

theorem grows_finishTernary (t : StreamType) (op : TernaryOp) (first second third : Expr) (x y z : SymValue) :
    Outcome.Moves Encoder.Grows (finishTernary t op first second third x y z) :=
  Outcome.moves_bind_lift fun _ _ => grows_checked _ _

theorem ends_finishUnary (t : StreamType) (op : UnaryOp) (arg : Expr) (field : Datum) (x : SymValue) :
    Outcome.Ends (finishUnary t op arg field x) :=
  Outcome.ends_bind (Outcome.ends_lift (decides_positionTaken op arg field)) fun _ =>
    Outcome.ends_bind (Outcome.ends_lift (Operator.decides_unary op x t _)) fun _ => ends_checked _ _

theorem ends_finishBinary (t : StreamType) (op : BinaryOp) (left right : Expr) (x y : SymValue) :
    Outcome.Ends (finishBinary t op left right x y) :=
  Outcome.ends_bind (ends_binary op x y t) fun _ => ends_checked _ _

theorem ends_finishTernary (t : StreamType) (op : TernaryOp) (first second third : Expr) (x y z : SymValue) :
    Outcome.Ends (finishTernary t op first second third x y z) :=
  Outcome.ends_bind (Outcome.ends_lift (Operator.decides_ternary op x y z)) fun _ => ends_checked _ _

theorem encodeWith_drop (registry : Registry) (present : Stream → Int → Encoding SymValue) (o : Int) (t : StreamType)
    (k id : Int) :
    encodeWith registry present o (.drop t k id) =
      if o + k < 0 then past registry id (o + k) >>= checked (.drop t k id)
      else (do
        let st ← registry.get id
        let v ← present st (o + k)
        checked (.drop t k id) v) := by
  rw [encodeWith]

section

variable {o : Int} (ho : o ≤ 0) (registry : Registry) (present : Stream → Int → Encoding SymValue)
include ho

theorem encodeAt_of_nonpos (e : Expr) : encodeAt registry present e o = encodeWith registry present o e := by
  rw [encodeAt_eq, if_neg (by omega)]

theorem encodeAt_unary (t : StreamType) (op : UnaryOp) (arg : Expr) (field : Datum) :
    encodeAt registry present (.unary t op arg field) o =
      encodeAt registry present arg o >>= finishUnary t op arg field := by
  rw [encodeAt_of_nonpos ho, encodeAt_of_nonpos ho, encodeWith_unary]
  rfl

theorem encodeAt_binary (t : StreamType) (op : BinaryOp) (left right : Expr) :
    encodeAt registry present (.binary t op left right) o = encodeAt registry present left o >>= fun x =>
      encodeAt registry present right o >>= finishBinary t op left right x := by
  rw [encodeAt_of_nonpos ho, encodeAt_of_nonpos ho, encodeAt_of_nonpos ho, encodeWith]
  rfl

theorem encodeAt_ternary (t : StreamType) (op : TernaryOp) (first second third : Expr) :
    encodeAt registry present (.ternary t op first second third) o = encodeAt registry present first o >>= fun x =>
      encodeAt registry present second o >>= fun y =>
        encodeAt registry present third o >>= finishTernary t op first second third x y := by
  rw [encodeAt_of_nonpos ho, encodeAt_of_nonpos ho, encodeAt_of_nonpos ho, encodeAt_of_nonpos ho, encodeWith]
  rfl

theorem encodeAt_drop (t : StreamType) (k id : Int) (hk : 0 ≤ o + k) {st : Stream} (hst : registry.find? id = some st) :
    encodeAt registry present (.drop t k id) o = present st (o + k) >>= checked (.drop t k id) := by
  rw [encodeAt_of_nonpos ho, encodeWith_drop, if_neg (by omega), Registry.get_eq_ok_iff.2 hst]
  rfl

end

theorem extends_encodeWith {present present' : Stream → Int → Encoding SymValue}
    (h : ∀ st total, Outcome.Extends (present st total) (present' st total)) (o : Int) (e : Expr) :
    Outcome.Extends (encodeWith registry present o e) (encodeWith registry present' o e) := by
  induction e with
  | drop t k id =>
    rw [encodeWith_drop, encodeWith_drop]
    split
    · exact Outcome.extends_refl _
    · exact Outcome.extends_bind_lift fun st _ =>
        Outcome.extends_bind (h st (o + k)) fun _ => Outcome.extends_refl _
  | unary t op arg field ih =>
    rw [encodeWith_unary, encodeWith_unary]
    exact Outcome.extends_bind ih fun _ => Outcome.extends_refl _
  | binary t op left right ihl ihr =>
    exact Outcome.extends_bind ihl fun _ => Outcome.extends_bind ihr fun _ => Outcome.extends_refl _
  | ternary t op first second third ih₁ ih₂ ih₃ =>
    exact Outcome.extends_bind ih₁ fun _ => Outcome.extends_bind ih₂ fun _ =>
      Outcome.extends_bind ih₃ fun _ => Outcome.extends_refl _
  | _ => exact Outcome.extends_refl _

theorem extends_encodeAt {present present' : Stream → Int → Encoding SymValue}
    (h : ∀ st total, Outcome.Extends (present st total) (present' st total)) (e : Expr) (o : Int) :
    Outcome.Extends (encodeAt registry present e o) (encodeAt registry present' e o) := by
  rw [encodeAt_eq, encodeAt_eq]
  split
  · exact Outcome.extends_refl _
  · exact extends_encodeWith h o e

def unrollTo (registry : Registry) : Nat → Stream → Int → Encoding SymValue
  | 0, _, _ => throw .endless
  | depth + 1, st, total => do
    note (.unrolling st.id total st.buffer.length)
    encodeAt registry (unrollTo registry depth) st.expr (total - st.buffer.length)

def encodeTo (registry : Registry) (depth : Nat) (e : Expr) (o : Int) : Encoding SymValue :=
  encodeAt registry (unrollTo registry depth) e o

theorem unrollTo_succ (registry : Registry) (depth : Nat) (st : Stream) (total : Int) :
    unrollTo registry (depth + 1) st total = (do
      note (.unrolling st.id total st.buffer.length)
      encodeTo registry depth st.expr (total - st.buffer.length)) :=
  rfl

theorem extends_unrollTo_succ (registry : Registry) (depth : Nat) (st : Stream) (total : Int) :
    Outcome.Extends (unrollTo registry depth st total) (unrollTo registry (depth + 1) st total) := by
  induction depth generalizing st total with
  | zero => exact Outcome.extends_of_endless fun _ => rfl
  | succ depth ih =>
    rw [unrollTo_succ, unrollTo_succ]
    exact Outcome.extends_bind (Outcome.extends_refl _) fun _ => extends_encodeAt ih _ _

theorem extends_unrollTo {depth depth' : Nat} (h : depth ≤ depth') (st : Stream) (total : Int) :
    Outcome.Extends (unrollTo registry depth st total) (unrollTo registry depth' st total) := by
  induction h with
  | refl => exact Outcome.extends_refl _
  | step _ ih => exact ih.trans (extends_unrollTo_succ registry _ st total)

theorem extends_encodeTo {depth depth' : Nat} (h : depth ≤ depth') (e : Expr) (o : Int) :
    Outcome.Extends (encodeTo registry depth e o) (encodeTo registry depth' e o) :=
  extends_encodeAt (extends_unrollTo h) e o

theorem extends_unroll (fuel : Nat) (active : List (Int × Int)) (st : Stream) (total : Int) :
    Outcome.Extends (unroll registry fuel active st total) (unrollTo registry fuel st total) := by
  induction fuel generalizing active st total with
  | zero => exact Outcome.extends_of_endless fun _ => rfl
  | succ fuel ih =>
    rw [unroll_succ_eq, unrollTo_succ]
    refine Outcome.extends_bind (Outcome.extends_refl _) fun _ => ?_
    split
    · exact Outcome.extends_of_endless fun _ => rfl
    · exact extends_encodeAt (fun st total => ih _ st total) _ _

theorem extends_watched (fuel : Nat) (active : List (Int × Int)) (e : Expr) (o : Int) :
    Outcome.Extends (encodeAt registry (unroll registry fuel active) e o) (encodeTo registry fuel e o) :=
  extends_encodeAt (extends_unroll fuel active) e o

theorem extends_unroll_of_subset {fuel fuel' : Nat} (hf : fuel ≤ fuel') {active active' : List (Int × Int)}
    (ha : active' ⊆ active) (st : Stream) (total : Int) :
    Outcome.Extends (unroll registry fuel active st total) (unroll registry fuel' active' st total) := by
  induction fuel generalizing fuel' active active' st total with
  | zero => exact Outcome.extends_of_endless fun _ => rfl
  | succ fuel ih =>
    obtain ⟨fuel', rfl⟩ := Nat.exists_eq_add_of_le' (Nat.le_trans (Nat.le_add_left 1 fuel) hf)
    rw [unroll_succ_eq, unroll_succ_eq]
    refine Outcome.extends_bind (Outcome.extends_refl _) fun _ => ?_
    split
    · exact Outcome.extends_of_endless fun _ => rfl
    · next hnew =>
      rw [if_neg fun h => hnew (ha h)]
      exact extends_encodeAt (ih (Nat.le_of_succ_le_succ hf) (List.cons_subset_cons _ ha)) _ _

theorem extends_encode {fuel : Nat} (hf : fuel ≤ places registry + 1) (active : List (Int × Int)) (e : Expr) (o : Int) :
    Outcome.Extends (encodeAt registry (unroll registry fuel active) e o) (encode registry e o) :=
  extends_encodeAt (extends_unroll_of_subset hf (List.nil_subset active)) e o

theorem run_encodeTo_of_run_encode {e : Expr} {o : Int} {s : Encoder} {r : Except Fault SymValue × Encoder}
    (h : (encode registry e o).run s = r) (hr : Outcome.Decides r.1) {depth : Nat}
    (hd : Outcome.Decides ((encodeTo registry depth e o).run s).1) : (encodeTo registry depth e o).run s = r := by
  subst h
  have hl := extends_encodeTo (Nat.le_max_left depth (places registry + 1)) e o s hd
  have hw := (extends_watched _ [] e o).trans (extends_encodeTo (Nat.le_max_right depth _) e o) s hr
  exact hl.symm.trans hw

namespace Inductive

variable {G : Encoding SymValue → Prop} {P : Expr → Int → Encoding SymValue → Prop}
  {S : Stream → Int → Encoding SymValue → Prop}

theorem encodeAt (hi : Inductive registry G P S)
    (hg : Inductive registry (fun _ => True) (fun _ _ m => G m) (fun _ _ m => G m))
    {present : Stream → Int → Encoding SymValue} (hp : ∀ st total, G (present st total) ∧ S st total (present st total))
    (e : Expr) (o : Int) :
    G (Encoding.encodeAt registry present e o) ∧ P e o (Encoding.encodeAt registry present e o) := by
  rw [encodeAt_eq]
  split
  · next ho => exact ⟨hg.future e o ho, hi.future e o ho⟩
  · next ho =>
    have ho' : o ≤ 0 := by omega
    have hge := hg.encodeWith (fun st total => ⟨trivial, (hp st total).1⟩) ho' fun _ => trivial
    exact ⟨hge e, hi.encodeWith hp ho' hge e⟩

theorem unrollTo (hi : Inductive registry G P S)
    (hg : Inductive registry (fun _ => True) (fun _ _ m => G m) (fun _ _ m => G m)) (depth : Nat) (st : Stream)
    (total : Int) :
    G (Encoding.unrollTo registry depth st total) ∧ S st total (Encoding.unrollTo registry depth st total) := by
  induction depth generalizing st total with
  | zero => exact ⟨hg.exhausted st total, hi.exhausted st total⟩
  | succ depth ih =>
    obtain ⟨hge, he⟩ := hi.encodeAt hg ih st.expr (total - st.buffer.length)
    exact ⟨hg.unrolled st total _ trivial hge, hi.unrolled st total _ hge he⟩

theorem encodeTo (hi : Inductive registry G P S)
    (hg : Inductive registry (fun _ => True) (fun _ _ m => G m) (fun _ _ m => G m)) (depth : Nat) (e : Expr) (o : Int) :
    P e o (Encoding.encodeTo registry depth e o) :=
  (hi.encodeAt hg (hi.unrollTo hg depth) e o).2

end Inductive

def Placed (registry : Registry) (p : Int × Int) : Prop :=
  ∃ st, registry.find? p.1 = some st ∧ 0 ≤ p.2 ∧ p.2 ≤ st.buffer.length

def placesOf (st : Int × Stream) : List (Int × Int) :=
  (List.range (st.2.buffer.length + 1)).map fun n : Nat => (st.1, (n : Int))

theorem length_placesOf (entries : List (Int × Stream)) (n : Nat) :
    entries.foldl (fun n (_, st) => n + (st.buffer.length + 1)) n = n + (entries.flatMap placesOf).length := by
  induction entries generalizing n with
  | nil => rfl
  | cons entry entries ih =>
    rw [List.foldl_cons, ih, List.flatMap_cons, List.length_append, placesOf, List.length_map, List.length_range,
      Nat.add_assoc]

theorem Placed.mem_placesOf {p : Int × Int} (h : Placed registry p) : p ∈ registry.entries.flatMap placesOf := by
  obtain ⟨id, total⟩ := p
  obtain ⟨st, hst, hz, hl⟩ := h
  obtain ⟨⟨id', st'⟩, hf, rfl⟩ := Option.map_eq_some_iff.1 hst
  have hid : id' = id := by simpa using List.find?_some hf
  have hn : total.toNat < st'.buffer.length + 1 := by
    simp only at hl
    omega
  refine List.mem_flatMap.2 ⟨_, List.mem_of_find?_eq_some hf, List.mem_map.2 ⟨total.toNat, List.mem_range.2 hn, ?_⟩⟩
  rw [Int.toNat_of_nonneg hz, hid]

theorem length_le_places {ps : List (Int × Int)} (hp : ∀ p ∈ ps, Placed registry p) (hn : ps.Nodup) :
    ps.length ≤ places registry := by
  have hs : ps ⊆ registry.entries.flatMap placesOf := fun p h => (hp p h).mem_placesOf
  rw [places, length_placesOf, Nat.zero_add]
  exact (List.subperm_of_subset hn hs).length_le

structure Alike (a b : Registry) (present present' : Stream → Int → Encoding SymValue) (id : Int) : Prop where
  past : ∀ total, Encoding.past a id total = Encoding.past b id total
  present : ∀ total, 0 ≤ total →
    ((a.get id : Encoding Stream) >>= fun st => present st total) =
      (b.get id : Encoding Stream) >>= fun st => present' st total

theorem encodeWith_congr {a b : Registry} {present present' : Stream → Int → Encoding SymValue} (o : Int) {e : Expr}
    (h : ∀ id ∈ e.streams, Alike a b present present' id) : encodeWith a present o e = encodeWith b present' o e := by
  induction e with
  | drop t k id =>
    have hid := h id (List.mem_singleton_self id)
    rw [encodeWith_drop, encodeWith_drop, hid.past]
    split
    · rfl
    · next hk => rw [← bind_assoc, ← bind_assoc, hid.present (o + k) (by omega)]
  | unary t op arg field ih =>
    rw [encodeWith_unary, encodeWith_unary, ih fun id hi => h id (List.mem_append_right _ hi)]
  | binary t op left right ihl ihr =>
    rw [encodeWith, encodeWith, ihl fun id hi => h id (List.mem_append_left _ (List.mem_append_right _ hi)),
      ihr fun id hi => h id (List.mem_append_right _ hi)]
  | ternary t op first second third ih₁ ih₂ ih₃ =>
    rw [encodeWith, encodeWith,
      ih₁ fun id hi => h id (List.mem_append_left _ (List.mem_append_left _ (List.mem_append_right _ hi))),
      ih₂ fun id hi => h id (List.mem_append_left _ (List.mem_append_right _ hi)),
      ih₃ fun id hi => h id (List.mem_append_right _ hi)]
  | _ => rfl

theorem unroll_succ_of_enough (hr : ∀ id st, registry.find? id = some st → st.id = id) {fuel : Nat}
    {active : List (Int × Int)} (ha : ∀ p ∈ active, Placed registry p) (hn : active.Nodup)
    (hf : places registry < active.length + fuel) {id : Int} {st : Stream} (hst : registry.find? id = some st)
    {total : Int} (ht : 0 ≤ total) :
    unroll registry (fuel + 1) active st total = unroll registry fuel active st total := by
  induction fuel generalizing active id st total with
  | zero =>
    have := length_le_places ha hn
    omega
  | succ fuel ih =>
    rw [unroll_succ_eq, unroll_succ_eq]
    congr 1
    funext _
    split
    · rfl
    · next hnew =>
      rw [encodeAt_eq, encodeAt_eq]
      split
      · rfl
      · next ho =>
        have hplaced : Placed registry (st.id, total) := ⟨st, hr id st hst ▸ hst, ht, by simp only; omega⟩
        have ha' : ∀ p ∈ (st.id, total) :: active, Placed registry p := List.forall_mem_cons.2 ⟨hplaced, ha⟩
        refine encodeWith_congr _ fun id' _ => ⟨fun _ => rfl, fun total' ht' => ?_⟩
        cases hget : registry.get id' with
        | error f => rfl
        | ok st' =>
          exact ih ha' (List.nodup_cons.2 ⟨hnew, hn⟩) (by simp only [List.length_cons]; omega)
            (Registry.get_eq_ok_iff.1 hget) ht'

theorem encode_eq_of_enough (hr : ∀ id st, registry.find? id = some st → st.id = id) {fuel : Nat}
    (hf : places registry < fuel) (e : Expr) (o : Int) :
    encode registry e o = encodeAt registry (unroll registry fuel []) e o := by
  induction hf with
  | refl => rfl
  | @step fuel hf ih =>
    rw [ih, encodeAt_eq, encodeAt_eq]
    split
    · rfl
    · refine encodeWith_congr _ fun id _ => ⟨fun _ => rfl, fun total ht => ?_⟩
      cases hget : registry.get id with
      | error f => rfl
      | ok st =>
        exact (unroll_succ_of_enough hr (by simp) List.nodup_nil (by simpa using Nat.lt_of_succ_le hf)
          (Registry.get_eq_ok_iff.1 hget) ht).symm

end Encoding

end OneStep
