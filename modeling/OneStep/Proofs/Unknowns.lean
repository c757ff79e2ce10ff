import OneStep.Proofs.Draws
import OneStep.Proofs.Encoded
import OneStep.Proofs.Steps

namespace OneStep

namespace Table

variable {κ ν : Type} [BEq κ] [LawfulBEq κ] [DecidableEq κ]

theorem find?_add (t : Table κ ν) (key key' : κ) (v : ν) :
    (t.add key v).find? key' = (t.find? key').or (if key = key' then some v else none) := by
  simp only [find?, add, List.find?_append, Option.map_or, List.find?_singleton, beq_iff_eq]
  split <;> simp

end Table

inductive Unknown where
  | past (id offset : Int)
  | input (name : String) (offset : Int)
  | outside (lookup : Lookup)
  deriving DecidableEq

namespace Memo

def find? (m : Memo) : Unknown → Option SymValue
  | .past id o => m.past.find? (id, o)
  | .input name o => m.inputs.find? (name, o)
  | .outside l => m.lookups.find? l

def add (m : Memo) (v : SymValue) : Unknown → Memo
  | .past id o => { m with past := m.past.add (id, o) v }
  | .input name o => { m with inputs := m.inputs.add (name, o) v }
  | .outside l => { m with lookups := m.lookups.add l v }

theorem find?_add (m : Memo) (v : SymValue) (u u' : Unknown) :
    (m.add v u).find? u' = (m.find? u').or (if u = u' then some v else none) := by
  cases u <;> cases u' <;> simp [add, find?, Table.find?_add]

theorem found_or_added {m : Memo} {v w : SymValue} {u u' : Unknown} (h : (m.add v u).find? u' = some w) :
    m.find? u' = some w ∨ u = u' ∧ v = w := by
  rw [find?_add] at h
  rcases Option.or_eq_some_iff.1 h with h | ⟨_, h⟩
  · exact .inl h
  · split at h
    · next hu => exact .inr ⟨hu, Option.some.inj h⟩
    · cases h

def All (A : Unknown → SymValue → Prop) (m : Memo) : Prop :=
  ∀ u v, m.find? u = some v → A u v

theorem All.add {A : Unknown → SymValue → Prop} {m : Memo} (hm : m.All A) {u : Unknown} {v : SymValue} (hv : A u v) :
    (m.add v u).All A := by
  intro u' w hw
  rcases found_or_added hw with hw | ⟨rfl, rfl⟩
  · exact hm u' w hw
  · exact hv

end Memo

namespace Encoder

def met (s : Encoder) : Encoder :=
  { s with memo.hits := s.memo.hits + 1 }

def missed (s : Encoder) : Encoder :=
  { s with memo.misses := s.memo.misses + 1 }

end Encoder

namespace Encoding

def memoized (u : Unknown) (make : Encoding SymValue) (after : Encoding Unit) : Encoding SymValue := do
  match (← get).memo.find? u with
  | some v =>
    hit
    return v
  | none =>
    miss
    let v ← make
    modify fun encoder => { encoder with memo := encoder.memo.add v u }
    after
    return v

def drawPast (registry : Registry) (id o : Int) : Encoding SymValue := do
  let st ← registry.get id
  let stream ← writeInt id
  let offset ← writeInt o
  draw st.type s!"s{stream}_{offset}"

def drawInput (name : String) (t : StreamType) (o : Int) : Encoding SymValue := do
  let offset ← writeInt o
  draw t s!"{name}_{offset}"

theorem run_memoized (u : Unknown) (make : Encoding SymValue) (after : Encoding Unit) (s : Encoder) :
    (memoized u make after).run s = match s.memo.find? u with
      | some v => (.ok v, s.met)
      | none => match make.run s.missed with
        | (.ok v, s₁) => (do after; return v : Encoding SymValue).run { s₁ with memo := s₁.memo.add v u }
        | (.error f, s₁) => (.error f, s₁) := by
  have hg : (get : Encoding Encoder).run s = (.ok s, s) := rfl
  rw [memoized, Outcome.run_bind_of_ok hg]
  cases s.memo.find? u with
  | some v => rfl
  | none =>
    show ((make >>= _) : Encoding SymValue).run s.missed = _
    rw [Outcome.run_bind]
    rcases make.run s.missed with ⟨_ | v, s₁⟩ <;> rfl

theorem run_memoized_ok {u : Unknown} {make : Encoding SymValue} {after : Encoding Unit} {s s' : Encoder} {v : SymValue}
    (h : (memoized u make after).run s = (.ok v, s')) :
    s.memo.find? u = some v ∧ s' = s.met ∨
      s.memo.find? u = none ∧ ∃ s₁, make.run s.missed = (.ok v, s₁) ∧
        after.run { s₁ with memo := s₁.memo.add v u } = (.ok (), s') := by
  rw [run_memoized] at h
  split at h
  · next w hw =>
    cases h
    exact .inl ⟨hw, rfl⟩
  · next hn =>
    split at h
    · next w s₁ hm =>
      obtain ⟨_, s₂, ha, h⟩ := Outcome.run_bind_eq_ok_iff.1 h
      cases h
      exact .inr ⟨hn, s₁, hm, ha⟩
    · cases h

theorem keeps_memoized {A : Unknown → SymValue → Prop} {F : Fault → Prop} {u : Unknown} {make : Encoding SymValue}
    {after : Encoding Unit} (hm : Outcome.Keeps (fun s => s.memo.All A) F (A u) make)
    (ha : Outcome.Keeps (fun s => s.memo.All A) F (fun _ => True) after) :
    Outcome.Keeps (fun s => s.memo.All A) F (A u) (memoized u make after) := by
  intro s hs
  rw [run_memoized]
  cases hu : s.memo.find? u with
  | some v =>
    refine ⟨hs, fun w hw => ?_, fun f hf => ?_⟩
    · cases hw
      exact hs u v hu
    · cases hf
  | none =>
    obtain ⟨hi, hv, hf⟩ := hm s.missed hs
    rcases hr : make.run s.missed with ⟨f | v, s₁⟩
    · rw [hr] at hi hf
      exact ⟨hi, fun w hw => (by cases hw), hf⟩
    · rw [hr] at hi hv
      exact Outcome.keeps_bind ha (fun _ _ => Outcome.keeps_of_ok fun s hs => ⟨v, s, rfl, hv v rfl, hs⟩) _
        (Memo.All.add hi (hv v rfl))

theorem past_eq (registry : Registry) (id o : Int) :
    past registry id o = if 0 ≤ o then throw (.pastOffset o)
      else memoized (.past id o) (drawPast registry id o) (note (.pastSymbol id o)) := by
  unfold past
  split
  · rfl
  · simp only [memoized, drawPast, bind_assoc]
    rfl

theorem input_eq (name : String) (t : StreamType) (o : Int) :
    input name t o = if 0 < o then throw (.inputOffset o)
      else memoized (.input name o) (drawInput name t o) (pure ()) := by
  unfold input
  split
  · rfl
  · simp only [memoized, drawInput, bind_assoc]
    rfl

theorem outside_eq (l : Lookup) :
    outside l = memoized (.outside l) (draw l.element "index_out_of_range") (pure ()) := by
  rfl

end Encoding

structure Encoder.Grows (s s' : Encoder) : Prop where
  count_le : s.supply.count ≤ s'.supply.count
  kept : ∀ u v, s.memo.find? u = some v → s'.memo.find? u = some v
  shaped : (∀ l v, s.memo.find? (.outside l) = some v → v.Conforms l.element) →
    ∀ l v, s'.memo.find? (.outside l) = some v → v.Conforms l.element

namespace Encoder

theorem grows_of_memo_eq {s s' : Encoder} (hc : s.supply.count ≤ s'.supply.count)
    (hm : ∀ u, s'.memo.find? u = s.memo.find? u) : s.Grows s' where
  count_le := hc
  kept u _ h := (hm u).trans h
  shaped h l v hv := h l v ((hm _).symm.trans hv)

instance : IsPreorder Encoder Grows where
  refl _ := grows_of_memo_eq (Nat.le_refl _) fun _ => rfl
  trans _ _ _ h h' := {
    count_le := Nat.le_trans h.count_le h'.count_le
    kept := fun u v hv => h'.kept u v (h.kept u v hv)
    shaped := fun hs => h'.shaped (h.shaped hs) }

theorem grows_add {s : Encoder} {u : Unknown} {v : SymValue}
    (hv : ∀ l, u = .outside l → v.Conforms l.element) : s.Grows { s with memo := s.memo.add v u } where
  count_le := Nat.le_refl _
  kept u' v' h := by simp [Memo.find?_add, h]
  shaped h l v' hl := by
    rcases Memo.found_or_added hl with hl | ⟨hu, rfl⟩
    · exact h l v' hl
    · exact hv l hu

end Encoder

namespace Encoding

theorem run_draw (t : StreamType) (hint : String) (s : Encoder) :
    (draw t hint).run s =
      (((Supply.draw t hint).run s.supply).1, { s with supply := ((Supply.draw t hint).run s.supply).2 }) :=
  rfl

theorem grows_draw (t : StreamType) (hint : String) : Outcome.Moves Encoder.Grows (draw t hint) := by
  intro s
  exact Encoder.grows_of_memo_eq (Supply.count_le_draw t hint s.supply) fun _ => rfl

theorem conforms_of_draw {t : StreamType} {hint : String} {s s' : Encoder} {v : SymValue}
    (h : (draw t hint).run s = (.ok v, s')) : v.Conforms t := by
  rw [run_draw] at h
  exact Supply.conforms_of_draw (Prod.ext (Prod.mk.inj h).1 rfl)

theorem grows_note (e : Event) : Outcome.Moves Encoder.Grows (note e) :=
  fun _ => Encoder.grows_of_memo_eq (Nat.le_refl _) fun _ => rfl

theorem moves_memoized {R : Encoder → Encoder → Prop} [IsPreorder Encoder R] {u : Unknown} {make : Encoding SymValue}
    {after : Encoding Unit} (hmet : ∀ s, R s s.met) (hmissed : ∀ s, R s s.missed)
    (hadd : ∀ s v s', make.run s = (.ok v, s') → R s' { s' with memo := s'.memo.add v u }) (hm : Outcome.Moves R make)
    (ha : Outcome.Moves R after) : Outcome.Moves R (memoized u make after) := by
  intro s
  rw [run_memoized]
  split
  · exact hmet s
  · have h := hm s.missed
    split
    · next v s₁ hr =>
      rw [hr] at h
      have hv : Outcome.Moves R (do after; return v : Encoding SymValue) :=
        Outcome.moves_bind ha fun _ => Outcome.moves_pure v
      exact Trans.trans (hmissed s) (Trans.trans h (Trans.trans (hadd _ v s₁ hr) (hv _)))
    · next f s₁ hr =>
      rw [hr] at h
      exact Trans.trans (hmissed s) h

theorem grows_memoized {u : Unknown} {make : Encoding SymValue} {after : Encoding Unit}
    (hm : Outcome.Moves Encoder.Grows make) (ha : Outcome.Moves Encoder.Grows after)
    (hv : ∀ l s v s', u = .outside l → make.run s = (.ok v, s') → v.Conforms l.element) :
    Outcome.Moves Encoder.Grows (memoized u make after) :=
  moves_memoized (fun _ => Encoder.grows_of_memo_eq (Nat.le_refl _) fun _ => rfl)
    (fun _ => Encoder.grows_of_memo_eq (Nat.le_refl _) fun _ => rfl)
    (fun s v s' hr => Encoder.grows_add fun l hu => hv l s v s' hu hr) hm ha

theorem moves_past {R : Encoder → Encoder → Prop} [IsPreorder Encoder R] (registry : Registry) {id o : Int}
    (hd : ∀ t hint, Outcome.Moves R (draw t hint)) (hn : ∀ e, Outcome.Moves R (note e))
    (hm : o < 0 → ∀ make after, Outcome.Moves R make → Outcome.Moves R after →
      Outcome.Moves R (memoized (.past id o) make after)) : Outcome.Moves R (past registry id o) := by
  rw [past_eq]
  split
  · exact Outcome.moves_throw _
  · next ho =>
    refine hm (by omega) _ _ ?_ (hn _)
    exact Outcome.moves_bind_lift fun st _ => Outcome.moves_bind_lift fun _ _ =>
      Outcome.moves_bind_lift fun _ _ => hd st.type _

theorem moves_input {R : Encoder → Encoder → Prop} [IsPreorder Encoder R] {name : String} (t : StreamType) {o : Int}
    (hd : ∀ t hint, Outcome.Moves R (draw t hint))
    (hm : o ≤ 0 → ∀ make after, Outcome.Moves R make → Outcome.Moves R after →
      Outcome.Moves R (memoized (.input name o) make after)) : Outcome.Moves R (input name t o) := by
  rw [input_eq]
  split
  · exact Outcome.moves_throw _
  · next ho =>
    refine hm (by omega) _ _ ?_ (Outcome.moves_pure _)
    exact Outcome.moves_bind_lift fun _ _ => hd t _

theorem grows_past (registry : Registry) (id o : Int) : Outcome.Moves Encoder.Grows (past registry id o) :=
  moves_past registry grows_draw grows_note fun _ _ _ hm ha => grows_memoized hm ha (by simp)

theorem grows_input (name : String) (t : StreamType) (o : Int) : Outcome.Moves Encoder.Grows (input name t o) :=
  moves_input t grows_draw fun _ _ _ hm ha => grows_memoized hm ha (by simp)

theorem grows_outside (l : Lookup) : Outcome.Moves Encoder.Grows (outside l) := by
  rw [outside_eq]
  refine grows_memoized (grows_draw _ _) (Outcome.moves_pure _) ?_
  rintro _ s v s' ⟨⟩ h
  exact conforms_of_draw h

theorem grows_share (v : SymValue) : Outcome.Moves Encoder.Grows (share v) :=
  fun _ => Encoder.grows_of_memo_eq (Nat.le_refl _) fun _ => rfl

section

variable {R : Encoder → Encoder → Prop} [IsPreorder Encoder R]

theorem moves_checked (hs : ∀ v, Outcome.Moves R (share v)) (e : Expr) (v : SymValue) :
    Outcome.Moves R (checked e v) := by
  unfold checked
  refine Outcome.moves_bind_lift fun tag _ => ?_
  split
  · exact hs v
  · exact Outcome.moves_bind_lift fun _ _ => Outcome.moves_throw _

theorem moves_binary (ho : ∀ l, Outcome.Moves R (outside l)) (op : BinaryOp) (x y : SymValue) (t : StreamType) :
    Outcome.Moves R (binary op x y t) := by
  unfold binary
  split
  · refine Outcome.moves_bind_lift fun (items, i) _ => ?_
    exact Outcome.moves_bind (ho _) fun _ => Outcome.moves_lift _
  · exact Outcome.moves_lift _

theorem inductive_moves (registry : Registry) (hp : ∀ id o, Outcome.Moves R (past registry id o))
    (hi : ∀ name t o, Outcome.Moves R (input name t o)) (ho : ∀ l, Outcome.Moves R (outside l))
    (hs : ∀ v, Outcome.Moves R (share v)) (hn : ∀ e, Outcome.Moves R (note e)) :
    Inductive registry (fun _ => True) (fun _ _ m => Outcome.Moves R m) (fun _ _ m => Outcome.Moves R m) where
  future _ _ _ := Outcome.moves_throw _
  const _ _ _ := Outcome.moves_lift _
  past _ _ _ _ _ _ := Outcome.moves_bind (hp _ _) fun _ => moves_checked hs _ _
  present _ _ _ _ _ _ _ _ hm := Outcome.moves_bind_lift fun st hst =>
    Outcome.moves_bind (hm st (Registry.get_eq_ok_iff.1 hst)) fun _ => moves_checked hs _ _
  input _ _ _ _ := Outcome.moves_bind (hi _ _ _) fun _ => moves_checked hs _ _
  unary _ _ _ _ _ _ _ _ hm := Outcome.moves_bind hm fun _ => Outcome.moves_bind (Outcome.moves_lift _) fun _ =>
    Outcome.moves_bind (Outcome.moves_lift _) fun _ => moves_checked hs _ _
  binary _ _ _ _ _ _ _ _ _ _ hm hn := Outcome.moves_bind hm fun _ => Outcome.moves_bind hn fun _ =>
    Outcome.moves_bind (moves_binary ho _ _ _ _) fun _ => moves_checked hs _ _
  ternary _ _ _ _ _ _ _ _ _ _ _ _ _ hl hm hn := Outcome.moves_bind hl fun _ => Outcome.moves_bind hm fun _ =>
    Outcome.moves_bind hn fun _ => Outcome.moves_bind (Outcome.moves_lift _) fun _ => moves_checked hs _ _
  refused _ _ _ _ _ := Outcome.moves_throw _
  exhausted _ _ := Outcome.moves_throw _
  repeated _ _ := Outcome.moves_bind (hn _) fun _ => Outcome.moves_throw _
  unrolled _ _ _ _ hm := Outcome.moves_bind (hn _) fun _ => hm

end

theorem grows_checked (e : Expr) (v : SymValue) : Outcome.Moves Encoder.Grows (checked e v) :=
  moves_checked grows_share e v

theorem grows_binary (op : BinaryOp) (x y : SymValue) (t : StreamType) :
    Outcome.Moves Encoder.Grows (binary op x y t) :=
  moves_binary grows_outside op x y t

theorem inductive_grows (registry : Registry) : Inductive registry (fun _ => True)
    (fun _ _ m => Outcome.Moves Encoder.Grows m) (fun _ _ m => Outcome.Moves Encoder.Grows m) :=
  inductive_moves registry (grows_past registry) grows_input grows_outside grows_share grows_note

theorem grows_encode (registry : Registry) (e : Expr) (o : Int) :
    Outcome.Moves Encoder.Grows (encode registry e o) :=
  (inductive_grows registry).encode (.trivially registry _) e o

end Encoding

structure Encoder.Recalls (u : Unknown) (v : SymValue) (s s' : Encoder) : Prop where
  found : s.memo.find? u = some v
  count_eq : s'.supply.count = s.supply.count
  memo_eq : ∀ u', s'.memo.find? u' = s.memo.find? u'

structure Encoder.Draws (u : Unknown) (t : StreamType) (hint : String) (v : SymValue) (s s' : Encoder) : Prop where
  missing : s.memo.find? u = none
  drawn : ∃ supply, (Supply.draw t hint).run s.supply = (.ok v, supply) ∧ s'.supply.count = supply.count
  memo_eq : ∀ u', s'.memo.find? u' = (s.memo.find? u').or (if u = u' then some v else none)

namespace Encoder

theorem Recalls.find? {u : Unknown} {v : SymValue} {s s' : Encoder} (h : Recalls u v s s') :
    s'.memo.find? u = some v :=
  (h.memo_eq u).trans h.found

theorem Draws.find? {u : Unknown} {t : StreamType} {hint : String} {v : SymValue} {s s' : Encoder}
    (h : Draws u t hint v s s') : s'.memo.find? u = some v := by
  rw [h.memo_eq, h.missing, if_pos rfl]
  rfl

end Encoder

namespace Encoding

theorem run_draw_eq_ok_iff {t : StreamType} {hint : String} {s s' : Encoder} {v : SymValue} :
    (draw t hint).run s = (.ok v, s') ↔
      ∃ supply, (Supply.draw t hint).run s.supply = (.ok v, supply) ∧ s' = { s with supply } := by
  rw [run_draw]
  constructor
  · intro h
    obtain ⟨hv, hs⟩ := Prod.mk.inj h
    exact ⟨_, Prod.ext hv rfl, hs.symm⟩
  · rintro ⟨supply, h, rfl⟩
    rw [h]

theorem isWritable_digit {n : Int} (h : n.natAbs < 10) : Text.isWritable n = true := by
  unfold Text.isWritable
  have hl : 10 ≤ 10 ^ Text.digitLimit := Nat.le_self_pow (by decide) 10
  rw [Nat.pow_eq]
  exact decide_eq_true (by omega)

-- 3600 hexadecimal digits are more than 4300 decimal ones
theorem not_isWritable_hex : Text.isWritable (16 ^ 3600 - 1) = false := by
  unfold Text.isWritable
  decide +kernel

theorem writeInt_of_isWritable {n : Int} (h : Text.isWritable n = true) : writeInt n = .ok (toString n) :=
  if_pos h

theorem writeInt_eq_ok {n : Int} {text : String} (h : writeInt n = .ok text) : text = toString n := by
  unfold writeInt at h
  split at h <;> cases h
  rfl

theorem found_or_drawn {D : StreamType → String → Prop} {u : Unknown} {make : Encoding SymValue}
    {after : Encoding Unit} {s s' : Encoder} {v : SymValue}
    (hm : ∀ s s' v, make.run s = (.ok v, s') → ∃ t hint, D t hint ∧ (draw t hint).run s = (.ok v, s'))
    (ha : ∀ s s', after.run s = (.ok (), s') → s'.supply.count = s.supply.count ∧ s'.memo = s.memo)
    (h : (memoized u make after).run s = (.ok v, s')) :
    s.Recalls u v s' ∨ ∃ t hint, D t hint ∧ s.Draws u t hint v s' := by
  rcases run_memoized_ok h with ⟨hv, rfl⟩ | ⟨hn, s₁, hr, hs⟩
  · exact .inl ⟨hv, rfl, fun _ => rfl⟩
  · obtain ⟨t, hint, hd, hr⟩ := hm _ _ _ hr
    obtain ⟨supply, hd', rfl⟩ := run_draw_eq_ok_iff.1 hr
    obtain ⟨hc, hs⟩ := ha _ _ hs
    refine .inr ⟨t, hint, hd, hn, ⟨supply, hd', hc⟩, fun u' => ?_⟩
    rw [hs, Memo.find?_add]
    rfl

def pastHint (id o : Int) : String :=
  s!"s{id}_{o}"

def inputHint (name : String) (o : Int) : String :=
  s!"{name}_{o}"

theorem past_ok {registry : Registry} {id o : Int} {s s' : Encoder} {v : SymValue}
    (h : (past registry id o).run s = (.ok v, s')) :
    s.Recalls (.past id o) v s' ∨
      ∃ st, registry.find? id = some st ∧ s.Draws (.past id o) st.type (pastHint id o) v s' := by
  rw [past_eq] at h
  split at h
  · cases h
  · refine (found_or_drawn (D := fun t hint => ∃ st, registry.find? id = some st ∧ t = st.type ∧ hint = pastHint id o)
      ?_ ?_ h).imp_right ?_
    · intro s s' v h
      obtain ⟨st, hst, h⟩ := Outcome.run_bind_lift_eq_ok_iff.1 h
      obtain ⟨_, hid, h⟩ := Outcome.run_bind_lift_eq_ok_iff.1 h
      obtain ⟨_, ho, h⟩ := Outcome.run_bind_lift_eq_ok_iff.1 h
      rw [writeInt_eq_ok hid, writeInt_eq_ok ho] at h
      exact ⟨_, _, ⟨st, Registry.get_eq_ok_iff.1 hst, rfl, rfl⟩, h⟩
    · rintro s s' ⟨⟩
      exact ⟨rfl, rfl⟩
    · rintro ⟨_, _, ⟨st, hst, rfl, rfl⟩, h⟩
      exact ⟨st, hst, h⟩

theorem input_ok {name : String} {t : StreamType} {o : Int} {s s' : Encoder} {v : SymValue}
    (h : (input name t o).run s = (.ok v, s')) :
    s.Recalls (.input name o) v s' ∨ s.Draws (.input name o) t (inputHint name o) v s' := by
  rw [input_eq] at h
  split at h
  · cases h
  · refine (found_or_drawn (D := fun t' hint => t' = t ∧ hint = inputHint name o) ?_ ?_ h).imp_right ?_
    · intro s s' v h
      obtain ⟨_, ho, h⟩ := Outcome.run_bind_lift_eq_ok_iff.1 h
      rw [writeInt_eq_ok ho] at h
      exact ⟨_, _, ⟨rfl, rfl⟩, h⟩
    · rintro s s' ⟨⟩
      exact ⟨rfl, rfl⟩
    · rintro ⟨_, _, ⟨rfl, rfl⟩, h⟩
      exact h

theorem outside_ok {l : Lookup} {s s' : Encoder} {v : SymValue} (h : (outside l).run s = (.ok v, s')) :
    s.Recalls (.outside l) v s' ∨ s.Draws (.outside l) l.element "index_out_of_range" v s' := by
  rw [outside_eq] at h
  refine (found_or_drawn (D := fun t hint => t = l.element ∧ hint = "index_out_of_range") ?_ ?_ h).imp_right ?_
  · intro s s' v h
    exact ⟨_, _, ⟨rfl, rfl⟩, h⟩
  · rintro s s' ⟨⟩
    exact ⟨rfl, rfl⟩
  · rintro ⟨_, _, ⟨rfl, rfl⟩, h⟩
    exact h

theorem index_ok {x y v : SymValue} {t : StreamType} {s s' : Encoder}
    (h : (binary .index x y t).run s = (.ok v, s')) :
    ∃ items i w, x = .array items ∧ y = i.operand ∧
      (outside ⟨t, .array items, .bits i.width, i.term⟩).run s = (.ok w, s') ∧ Operator.lookup items i w = .ok v := by
  obtain ⟨⟨items, i⟩, hi, hl⟩ := Outcome.run_bind_lift_eq_ok_iff.1 h
  obtain ⟨w, s₁, hw, hv⟩ := Outcome.run_bind_eq_ok_iff.1 hl
  obtain ⟨hv, hs⟩ := Outcome.run_lift_eq_ok_iff.1 hv
  obtain ⟨hx, hy⟩ := Operator.indexOperands_eq_ok_iff.1 hi
  exact ⟨items, i, w, hx, hy, hs ▸ hx ▸ hw, hv⟩

theorem run_draw_scalar {k : Scalar} {hint : String} (h : Text.hasHalves (Supply.hintText hint) = false) (s : Encoder) :
    (draw (.ofScalar k) hint).run s =
      (.ok (s.supply.symbolFor hint k), { s with supply := s.supply.counted hint (.ofScalar k) }) := by
  have hd : Supply.draw (.ofScalar k) hint = Supply.drawScalar (.ofScalar k) hint := by
    cases k <;> exact Supply.draw.eq_def ..
  rw [run_draw_eq_ok_iff, hd]
  exact ⟨_, Supply.run_drawScalar_eq_ok_iff.2 ⟨k, rfl, h, rfl, rfl⟩, rfl⟩

def drawn (s : Encoder) (u : Unknown) (hint : String) (k : Scalar) : Encoder :=
  { s.missed with
    supply := s.supply.counted hint (.ofScalar k)
    memo := s.missed.memo.add (s.supply.symbolFor hint k) u }

theorem run_past_new {registry : Registry} {id o : Int} {st : Stream} {k : Scalar} {s : Encoder}
    (hst : registry.find? id = some st) (ht : st.type = .ofScalar k) (ho : o < 0) (hi : Text.isWritable id = true)
    (hw : Text.isWritable o = true) (hh : Text.hasHalves (Supply.hintText (pastHint id o)) = false)
    (hn : s.memo.find? (.past id o) = none) :
    ∃ s', (past registry id o).run s = (.ok (s.supply.symbolFor (pastHint id o) k), s') := by
  have hd : (drawPast registry id o).run s.missed = _ :=
    Outcome.run_bind_lift_eq_ok_iff.2 ⟨_, Registry.get_eq_ok_iff.2 hst,
      Outcome.run_bind_lift_eq_ok_iff.2 ⟨_, writeInt_of_isWritable hi,
        Outcome.run_bind_lift_eq_ok_iff.2 ⟨_, writeInt_of_isWritable hw, ht ▸ run_draw_scalar hh s.missed⟩⟩⟩
  rw [past_eq, if_neg (by omega), run_memoized, hn]
  simp only [hd]
  exact ⟨_, rfl⟩

theorem run_input_new (name : String) (k : Scalar) {o : Int} {s : Encoder} (ho : o ≤ 0)
    (hw : Text.isWritable o = true) (hh : Text.hasHalves (Supply.hintText (inputHint name o)) = false)
    (hn : s.memo.find? (.input name o) = none) :
    (input name (.ofScalar k) o).run s =
      (.ok (s.supply.symbolFor (inputHint name o) k), drawn s (.input name o) (inputHint name o) k) := by
  have hd : (drawInput name (.ofScalar k) o).run s.missed = _ :=
    Outcome.run_bind_lift_eq_ok_iff.2 ⟨_, writeInt_of_isWritable hw, run_draw_scalar hh s.missed⟩
  rw [input_eq, if_neg (by omega), run_memoized, hn]
  simp only [hd]
  rfl

theorem run_encodeWith_input (registry : Registry) (present : Stream → Int → Encoding SymValue) {name : String}
    (hh : Text.hasHalves (Supply.hintText (inputHint name 0)) = false) {s : Encoder}
    (hn : s.memo.find? (.input name 0) = none) :
    ∃ s', (encodeWith registry present 0 (.input .bool name)).run s =
        (.ok (s.supply.symbolFor (inputHint name 0) .bool), s') ∧ s'.supply.count = s.supply.count + 1 ∧
      s'.memo.find? (.input name 0) = some (s.supply.symbolFor (inputHint name 0) .bool) ∧
      ∀ u, s.memo.find? u = none → u ≠ .input name 0 → s'.memo.find? u = none := by
  have hw : Text.isWritable 0 = true := isWritable_digit (by decide)
  have hi := run_input_new name .bool (Int.le_refl 0) hw hh hn
  rw [encodeWith]
  obtain ⟨s', hv, hc, hm⟩ := exists_checked (e := .input .bool name) (v := s.supply.symbolFor (inputHint name 0) .bool)
    rfl (drawn s (.input name 0) (inputHint name 0) .bool)
  refine ⟨s', Outcome.run_bind_eq_ok_iff.2 ⟨_, _, hi, hv⟩, congrArg Supply.count hc, ?_, fun u hu hne => ?_⟩
  · have hu : s.missed.memo.find? (.input name 0) = none := hn
    rw [hm, drawn, Memo.find?_add, hu, if_pos rfl]
    rfl
  · rw [hm, drawn, Memo.find?_add, if_neg hne.symm]
    exact (Option.or_none).trans hu

theorem run_encodeWith_input_found (registry : Registry) (present : Stream → Int → Encoding SymValue) {name : String}
    {s : Encoder} {t : Term .bool} (h : s.memo.find? (.input name 0) = some (.scalar .bool t)) :
    ∃ s', (encodeWith registry present 0 (.input .bool name)).run s = (.ok (.scalar .bool t), s') := by
  have hi : (input name .bool 0).run s = (.ok (.scalar .bool t), s.met) := by
    rw [input_eq, if_neg (by decide), run_memoized, h]
  obtain ⟨s', hv, _⟩ := exists_checked (e := .input .bool name) (v := .scalar .bool t) rfl s.met
  exact ⟨s', Outcome.run_bind_eq_ok_iff.2 ⟨_, _, hi, hv⟩⟩

theorem run_equal_inputs (registry : Registry) {x y : String} (hxy : x ≠ y)
    (hx : Text.hasHalves (Supply.hintText (inputHint x 0)) = false)
    (hy : Text.hasHalves (Supply.hintText (inputHint y 0)) = false) {s : Encoder} (hm : s.memo = {}) :
    ∃ s', (encodeProperty registry (.binary .bool .eq (.input .bool x) (.input .bool y))).run s =
      (.ok (.binary .iff (.symbol (.ofHint (Supply.hintText (inputHint x 0)) s.supply.count) .bool)
        (.symbol (.ofHint (Supply.hintText (inputHint y 0)) (s.supply.count + 1)) .bool)), s') ∧
      s'.supply.count = s.supply.count + 2 := by
  have hn : ∀ u, s.memo.find? u = none := fun u => by rw [hm]; cases u <;> rfl
  let present := unroll registry (places registry + 1) []
  obtain ⟨s₁, h₁, hc₁, _, hm₁⟩ := run_encodeWith_input registry present hx (hn _)
  obtain ⟨s₂, h₂, hc₂, _⟩ := run_encodeWith_input registry present hy (hm₁ (.input y 0) (hn _) (by simp [hxy.symm]))
  have hv : (s₁.supply.symbolFor (inputHint y 0) .bool) =
      .scalar .bool (.symbol (.ofHint (Supply.hintText (inputHint y 0)) (s.supply.count + 1)) .bool) := by
    rw [Supply.symbolFor, hc₁]
  rw [hv] at h₂
  obtain ⟨s₃, h₃, hc₃, _⟩ := exists_checked (e := .binary .bool .eq (.input .bool x) (.input .bool y))
    (v := .scalar .bool (.binary .iff (.symbol (.ofHint (Supply.hintText (inputHint x 0)) s.supply.count) .bool)
      (.symbol (.ofHint (Supply.hintText (inputHint y 0)) (s.supply.count + 1)) .bool))) rfl s₂
  refine ⟨s₃, run_encodeProperty_eq_ok_iff.2 ?_, by rw [hc₃, hc₂, hc₁]⟩
  rw [encode, encodeAt_eq, if_neg (by decide), encodeWith, Outcome.run_bind_of_ok h₁, Outcome.run_bind_of_ok h₂]
  exact h₃

end Encoding

def Assignment.marking (index : Nat) : Assignment
  | s, .bool => s.index == some index
  | _, k => k.default

end OneStep
