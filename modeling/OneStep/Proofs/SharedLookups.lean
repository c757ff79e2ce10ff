import OneStep.Proofs.Constants
import OneStep.Proofs.Freshness
import OneStep.Proofs.Stability

namespace OneStep

namespace StreamType

mutual

def hasScalar : StreamType → Bool
  | .array length element => length != 0 && element.hasScalar
  | .struct _ fields => someScalar fields
  | _ => true

def someScalar : List (String × StreamType) → Bool
  | [] => false
  | (_, t) :: fields => t.hasScalar || someScalar fields

end

theorem someScalar_iff (fields : List (String × StreamType)) :
    someScalar fields = true ↔ ∃ f ∈ fields, f.2.hasScalar = true := by
  induction fields with
  | nil => simp [someScalar]
  | cons f fields ih => simp [someScalar, ih]

end StreamType

namespace Value

variable {α : Scalar → Type}

theorem leavesOf_ne_nil {v : Value α} {items : List (Value α)} (hv : v ∈ items) (h : v.leaves ≠ []) :
    leavesOf items ≠ [] := by
  induction items with
  | nil => cases hv
  | cons u items ih =>
    rw [leavesOf, ne_eq, List.append_eq_nil_iff]
    rintro ⟨hu, hi⟩
    rcases List.mem_cons.1 hv with rfl | hv
    · exact h hu
    · exact ih hv hi

theorem Conforms.leaves_ne_nil {t : StreamType} {v : Value α} (h : v.Conforms t) (hs : t.hasScalar = true) :
    v.leaves ≠ [] := by
  induction v using shape_induction generalizing t with
  | scalar s leaf => exact List.cons_ne_nil _ _
  | array items ih =>
    obtain ⟨element, rfl, hi⟩ := (conforms_array t items).1 h
    rw [StreamType.hasScalar, Bool.and_eq_true, bne_iff_ne] at hs
    obtain ⟨u, hu⟩ := List.exists_mem_of_length_pos (Nat.pos_of_ne_zero hs.1)
    exact leavesOf_ne_nil hu (ih u hu (hi u hu) hs.2)
  | struct items ih =>
    obtain ⟨name, fields, rfl, hi⟩ := (conforms_struct t items).1 h
    rw [StreamType.hasScalar, StreamType.someScalar_iff] at hs
    obtain ⟨f, hf, hs⟩ := hs
    obtain ⟨u, hu, hc⟩ := Outcome.forall₂_exists_of_mem hi hf
    exact leavesOf_ne_nil hu (ih u hu hc hs)

end Value

def Lookup.IsPlain (l : Lookup) : Prop :=
  ∀ name ∈ l.element.names, Text.Avoids isZero name

def Encoder.Parted (s : Encoder) : Prop :=
  SymValue.Apart (fun (l : Lookup) v => l.IsPlain ∧ s.memo.find? (.outside l) = some v) s.supply.count

def Encoder.KeepsParted (s s' : Encoder) : Prop :=
  s.Parted → s'.Parted

namespace Encoder

instance : IsPreorder Encoder KeepsParted where
  refl _ := id
  trans _ _ _ h h' := h' ∘ h

theorem keepsParted_of_eq {s s' : Encoder} (hc : s.supply.count ≤ s'.supply.count)
    (hm : ∀ l, s'.memo.find? (.outside l) = s.memo.find? (.outside l)) : s.KeepsParted s' := by
  intro hs
  refine hs.extend (N := fun _ => False) hc (fun l v hv => .inl ?_) (fun _ _ h => h.elim)
  rwa [hm] at hv

theorem keepsParted_add {s : Encoder} {l : Lookup} {v : SymValue} {supply : Supply}
    (hd : (Supply.draw l.element "index_out_of_range").run s.supply = (.ok v, supply)) :
    s.KeepsParted { s with supply, memo := s.memo.add v (.outside l) } := by
  intro hs
  have hle : s.supply.count ≤ supply.count := by
    have h := Supply.count_le_draw l.element "index_out_of_range" s.supply
    rwa [hd] at h
  refine hs.extend (N := (· = l)) hle ?_ (fun _ _ h h' => h.trans h'.symm)
  intro l' v' ⟨hp, hv⟩
  change (s.memo.add v (.outside l)).find? (.outside l') = some v' at hv
  rcases Memo.found_or_added hv with hold | ⟨hl, rfl⟩
  · exact .inl ⟨hp, hold⟩
  · obtain rfl := Unknown.outside.inj hl
    exact .inr ⟨rfl, Supply.drawnBetween_of_draw (Supply.avoids_outsideHint isZero_unprinted hp) hd⟩

end Encoder

namespace Encoding

theorem keepsParted_draw (t : StreamType) (hint : String) : Outcome.Moves Encoder.KeepsParted (draw t hint) :=
  fun s => Encoder.keepsParted_of_eq (Supply.count_le_draw t hint s.supply) fun _ => rfl

theorem keepsParted_note (e : Event) : Outcome.Moves Encoder.KeepsParted (note e) :=
  fun _ => Encoder.keepsParted_of_eq (Nat.le_refl _) fun _ => rfl

theorem keepsParted_share (v : SymValue) : Outcome.Moves Encoder.KeepsParted (share v) :=
  fun _ => Encoder.keepsParted_of_eq (Nat.le_refl _) fun _ => rfl

theorem keepsParted_memoized {u : Unknown} {make : Encoding SymValue} {after : Encoding Unit}
    (hu : ∀ l, u ≠ .outside l) (hm : Outcome.Moves Encoder.KeepsParted make)
    (ha : Outcome.Moves Encoder.KeepsParted after) : Outcome.Moves Encoder.KeepsParted (memoized u make after) := by
  refine moves_memoized (fun _ => Encoder.keepsParted_of_eq (Nat.le_refl _) fun _ => rfl)
    (fun _ => Encoder.keepsParted_of_eq (Nat.le_refl _) fun _ => rfl) (fun _ v s' _ => ?_) hm ha
  refine Encoder.keepsParted_of_eq (Nat.le_refl _) fun l => ?_
  rw [Memo.find?_add, if_neg (hu l), Option.or_none]

theorem keepsParted_past (registry : Registry) (id o : Int) :
    Outcome.Moves Encoder.KeepsParted (past registry id o) :=
  moves_past registry keepsParted_draw keepsParted_note fun _ _ _ => keepsParted_memoized (by simp)

theorem keepsParted_input (name : String) (t : StreamType) (o : Int) :
    Outcome.Moves Encoder.KeepsParted (input name t o) :=
  moves_input t keepsParted_draw fun _ _ _ => keepsParted_memoized (by simp)

-- here the general lemma on recall is of no use: what is added has to be what was drawn last
theorem keepsParted_outside (l : Lookup) : Outcome.Moves Encoder.KeepsParted (outside l) := by
  intro s
  rw [outside_eq, run_memoized]
  cases s.memo.find? (.outside l) with
  | some v => exact Encoder.keepsParted_of_eq (Nat.le_refl _) fun _ => rfl
  | none =>
    have hs : s.KeepsParted s.missed := Encoder.keepsParted_of_eq (Nat.le_refl _) fun _ => rfl
    rcases hr : (draw l.element "index_out_of_range").run s.missed with ⟨f | v, s₁⟩
    · exact Trans.trans hs (moves_run (keepsParted_draw _ _) hr)
    · obtain ⟨supply, hd, rfl⟩ := run_draw_eq_ok_iff.1 hr
      exact Trans.trans hs (Encoder.keepsParted_add hd)

theorem keepsParted_encode (registry : Registry) (e : Expr) (o : Int) :
    Outcome.Moves Encoder.KeepsParted (encode registry e o) :=
  (inductive_moves registry (keepsParted_past registry) keepsParted_input keepsParted_outside keepsParted_share
    keepsParted_note).encode (.trivially registry _) e o

end Encoding

def Operator.Index.bits (i : Operator.Index) : (w : Width) × Term (.bits w) :=
  ⟨i.width, i.term⟩

theorem Operator.Index.operand_inj {i j : Operator.Index} :
    i.operand = j.operand ↔ i.isSigned = j.isSigned ∧ i.bits = j.bits := by
  rcases i with ⟨_ | _, w, x⟩ <;> rcases j with ⟨_ | _, w', y⟩ <;> simp [bits]

namespace Encoding

def lookupOf (t : StreamType) (items : List SymValue) (i : Operator.Index) : Lookup :=
  ⟨t, .array items, .bits i.width, i.term⟩

theorem lookupOf_inj {t t' : StreamType} {items items' : List SymValue} {i i' : Operator.Index} :
    lookupOf t items i = lookupOf t' items' i' ↔ t = t' ∧ items = items' ∧ i.bits = i'.bits := by
  obtain ⟨b, w, x⟩ := i
  obtain ⟨b', w', y⟩ := i'
  simp [lookupOf, Operator.Index.bits]

inductive Asks (registry : Registry) : Call → Encoder → StreamType → List SymValue → Operator.Index → Prop where
  | index {t : StreamType} {left right : Expr} {o : Int} {s s₁ s₂ : Encoder} {items : List SymValue}
    {i : Operator.Index} (now : o ≤ 0) (array : (encode registry left o).run s = (.ok (.array items), s₁))
    (index : (encode registry right o).run s₁ = (.ok i.operand, s₂)) :
    Asks registry ⟨.binary t .index left right, o, s⟩ s₂ t items i

def Receives (registry : Registry) (c : Call) (t : StreamType) (items : List SymValue) (i : Operator.Index)
    (w : SymValue) : Prop :=
  ∃ s s', Asks registry c s t items i ∧ (outside (lookupOf t items i)).run s = (.ok w, s')

variable {registry : Registry} {c c' : Call} {s s' : Encoder} {t t' : StreamType} {items items' : List SymValue}
  {i i' : Operator.Index} {w w' : SymValue} {ps : List (Int × Int)} {todo : List (Expr × Int)}

theorem finishBinary_index (t : StreamType) (left right : Expr) (items : List SymValue) (i : Operator.Index) :
    finishBinary t .index left right (.array items) i.operand = (outside (lookupOf t items i) >>= fun w =>
      liftM (Operator.lookup items i w)) >>= checked (.binary t .index left right) := by
  have hi : Operator.indexOperands (.array items) i.operand = .ok (items, i) :=
    Operator.indexOperands_eq_ok_iff.2 ⟨rfl, rfl⟩
  rw [finishBinary, binary, lookup, hi]
  rfl

namespace Asks

theorem run_eq (h : Asks registry c s t items i) :
    ∃ left right, c.run registry = (finishBinary t .index left right (.array items) i.operand).run s := by
  cases h with
  | @index _ left right _ _ _ _ _ _ now array index =>
    refine ⟨left, right, ?_⟩
    rw [Call.run, encode, encodeAt_binary now]
    exact (Outcome.run_bind_of_ok array).trans (Outcome.run_bind_of_ok index)

theorem decides (h : Asks registry c s t items i) : Outcome.Decides (c.run registry).1 := by
  obtain ⟨left, right, hr⟩ := h.run_eq
  rw [hr]
  exact ends_finishBinary _ _ _ _ _ _ s

theorem grows_run (h : Asks registry c s t items i) : s.Grows (c.run registry).2 := by
  obtain ⟨left, right, hr⟩ := h.run_eq
  rw [hr]
  exact grows_finishBinary _ _ _ _ _ _ s

theorem ended (h : Asks registry c s t items i) (hn : Nests registry c ps c') :
    c' = c ∨ (c'.run registry).2.Grows s := by
  cases hn with
  | here => exact .inl rfl
  | within step rest =>
    refine .inr ?_
    cases h with
    | @index _ left right o s₀ s₁ _ _ _ _ array index =>
      cases step with
      | left =>
        have hl : Call.run registry ⟨left, o, s₀⟩ = (.ok (.array items), s₁) := array
        obtain ⟨_, hg⟩ := rest.decides (Outcome.decides_of_ok hl)
        rw [hl] at hg
        exact Trans.trans hg (moves_run (grows_encode registry right o) index)
      | right _ before =>
        cases before.symm.trans array
        have hr : Call.run registry ⟨right, o, s₁⟩ = (.ok i.operand, s) := index
        obtain ⟨_, hg⟩ := rest.decides (Outcome.decides_of_ok hr)
        rwa [hr] at hg
  | unrolled step =>
    cases h with
    | index => cases step

end Asks

namespace Receives

theorem of_run {left right : Expr} {v : SymValue} (he : c.expr = .binary t .index left right)
    (h : c.run registry = (.ok v, s')) :
    ∃ items i w, Receives registry c t items i w ∧ Operator.lookup items i w = .ok v := by
  obtain ⟨e, o, s⟩ := c
  obtain rfl : e = _ := he
  have now : o ≤ 0 := nonpos_of_ok h
  rw [Call.run, encode, encodeAt_binary now] at h
  obtain ⟨x, s₁, hx, h⟩ := Outcome.run_bind_eq_ok_iff.1 h
  obtain ⟨y, s₂, hy, h⟩ := Outcome.run_bind_eq_ok_iff.1 h
  obtain ⟨u, s₃, hu, hc⟩ := Outcome.run_bind_eq_ok_iff.1 h
  obtain ⟨_, rfl, _⟩ := run_checked_eq_ok_iff.1 hc
  obtain ⟨items, i, w, rfl, rfl, hw, hv⟩ := index_ok hu
  exact ⟨items, i, w, ⟨s₂, s₃, .index now hx hy, hw⟩, hv⟩

theorem find? (h : Receives registry c t items i w) :
    (c.run registry).2.memo.find? (.outside (lookupOf t items i)) = some w := by
  obtain ⟨s, s', ha, hw⟩ := h
  obtain ⟨left, right, hr⟩ := ha.run_eq
  have hg : s'.Grows (c.run registry).2 := by
    rw [hr, finishBinary_index, bind_assoc, Outcome.run_bind_of_ok hw]
    exact Outcome.moves_bind (Outcome.moves_lift _) (grows_checked _) s'
  exact hg.kept _ _ (find?_outside hw)

theorem find?_of_nests (h : Receives registry c t items i w) (h' : Receives registry c' t' items' i' w')
    (hn : Nests registry c ps c') :
    (c.run registry).2.memo.find? (.outside (lookupOf t' items' i')) = some w' := by
  obtain ⟨s, _, ha, _⟩ := h
  rcases ha.ended hn with rfl | hg
  · exact h'.find?
  · exact (Trans.trans hg ha.grows_run : Encoder.Grows _ _).kept _ _ h'.find?

theorem find?_of_precedes (h : Receives registry c t items i w) (hp : Precedes registry c c') :
    (c'.run registry).2.memo.find? (.outside (lookupOf t items i)) = some w :=
  (Trans.trans hp.2 (grows_encode registry c'.expr c'.offset c'.state) : Encoder.Grows _ _).kept _ _ h.find?

theorem exists_last (h : Receives registry c t items i w) (h' : Receives registry c' t' items' i' w')
    (hc : Makes registry s todo c) (hc' : Makes registry s todo c') :
    ∃ last, Makes registry s todo last ∧
      (last.run registry).2.memo.find? (.outside (lookupOf t items i)) = some w ∧
      (last.run registry).2.memo.find? (.outside (lookupOf t' items' i')) = some w' := by
  rcases hc.compare hc' with ⟨_, hn⟩ | ⟨_, hn⟩ | hp | hp
  · exact ⟨c, hc, h.find?, h.find?_of_nests h' hn⟩
  · exact ⟨c', hc', h'.find?_of_nests h hn, h'.find?⟩
  · exact ⟨c', hc', h.find?_of_precedes hp, h'.find?⟩
  · exact ⟨c, hc, h.find?, h'.find?_of_precedes hp⟩

theorem eq_of_lookup_eq (h : Receives registry c t items i w) (h' : Receives registry c' t' items' i' w')
    (hc : Makes registry s todo c) (hc' : Makes registry s todo c')
    (he : lookupOf t items i = lookupOf t' items' i') : w = w' := by
  obtain ⟨last, _, hw, hw'⟩ := h.exists_last h' hc hc'
  rw [he] at hw
  exact Option.some.inj (hw.symm.trans hw')

end Receives

theorem parted_of_empty (h : s.memo = {}) : s.Parted := by
  have hn (l : Lookup) : s.memo.find? (.outside l) = none := by rw [h]; rfl
  constructor
  · rintro l v ⟨_, hv⟩
    cases (hn l).symm.trans hv
  · rintro l v l' v' ⟨_, hv⟩
    cases (hn l).symm.trans hv

theorem Makes.parted_run (h : Makes registry s todo c) (hs : s.memo = {}) : (c.run registry).2.Parted :=
  keepsParted_encode registry _ _ _ (h.moves (keepsParted_encode registry) keepsParted_note (parted_of_empty hs))

theorem Makes.conforms_run (h : Makes registry s todo c) (hs : s.memo = {}) {l : Lookup}
    (hw : (c.run registry).2.memo.find? (.outside l) = some w) : w.Conforms l.element := by
  have hg : s.Grows (c.run registry).2 := Trans.trans h.grows (grows_encode registry c.expr c.offset c.state)
  refine hg.shaped (fun l v hv => ?_) l w hw
  rw [hs] at hv
  cases hv

theorem Receives.lookup_eq (h : Receives registry c t items i w) (h' : Receives registry c' t' items' i' w)
    (hc : Makes registry s todo c) (hc' : Makes registry s todo c') (hs : s.memo = {}) (ht : t.hasScalar = true)
    (hz : ∀ name ∈ t.names ++ t'.names, '\x00' ∉ name.toList) : lookupOf t items i = lookupOf t' items' i' := by
  obtain ⟨last, hl, hw, hw'⟩ := h.exists_last h' hc hc'
  have hp : (lookupOf t items i).IsPlain := fun name hn => avoids_isZero.2 (hz name (List.mem_append_left _ hn))
  have hp' : (lookupOf t' items' i').IsPlain := fun name hn => avoids_isZero.2 (hz name (List.mem_append_right _ hn))
  obtain ⟨low, hb⟩ := (hl.parted_run hs).drawn _ _ ⟨hp, hw⟩
  have hne := hb.names_ne_nil ((hl.conforms_run hs hw).leaves_ne_nil ht)
  obtain ⟨name, hn⟩ := List.exists_mem_of_ne_nil _ hne
  by_contra hl'
  exact (hl.parted_run hs).disjoint _ _ _ _ ⟨hp, hw⟩ ⟨hp', hw'⟩ hl' hn hn

theorem lookups_share_by_bits (registry : Registry) (todo : List (Expr × Int)) {s : Encoder} (hs : s.memo = {}) :
    -- a lookup that succeeds is made with the unknown that it is given
    (∀ c t left right v s', c.expr = .binary t .index left right → c.run registry = (.ok v, s') →
      ∃ items i w, Receives registry c t items i w ∧ Operator.lookup items i w = .ok v) ∧
    ∀ c c' t t' items items' i i' w w', Makes registry s todo c → Makes registry s todo c' →
      Receives registry c t items i w → Receives registry c' t' items' i' w' →
      (t = t' ∧ Value.array items = Value.array items' ∧ i.operand = i'.operand → w = w') ∧
      (t.hasScalar = true → (∀ name ∈ t.names ++ t'.names, '\x00' ∉ name.toList) →
        (w = w' ↔ t = t' ∧ Value.array items = Value.array items' ∧ i.bits = i'.bits) ∧
        -- indices that are read alike are the same if their bits are
        (i.isSigned = i'.isSigned →
          (w = w' ↔ t = t' ∧ Value.array items = Value.array items' ∧ i.operand = i'.operand))) := by
  refine ⟨fun c t left right v s' he h => Receives.of_run he h, ?_⟩
  intro c c' t t' items items' i i' w w' hc hc' h h'
  simp only [Value.array.injEq, Operator.Index.operand_inj]
  have hsame : t = t' ∧ items = items' ∧ i.bits = i'.bits → w = w' :=
    fun he => h.eq_of_lookup_eq h' hc hc' (lookupOf_inj.2 he)
  refine ⟨fun he => hsame ⟨he.1, he.2.1, he.2.2.2⟩, fun ht hz => ?_⟩
  have hiff : w = w' ↔ t = t' ∧ items = items' ∧ i.bits = i'.bits := by
    refine ⟨fun he => ?_, hsame⟩
    subst he
    exact lookupOf_inj.1 (h.lookup_eq h' hc hc' hs ht hz)
  exact ⟨hiff, fun hb => by rw [hiff, and_iff_right hb]⟩

def marks : List SymValue :=
  [.scalar .bool (.bool true), .scalar .bool (.bool true)]

def marksAt (t : StreamType) (n : Int) : Expr :=
  .binary .bool .index (.const (.array 2 .bool) (.tuple [.bool true, .bool true])) (.const t (.int n))

theorem exists_receives_marksAt {n : Int} (h : Constant.encode t (.int n) = .ok i.operand) (s : Encoder) :
    ∃ w, Receives {} ⟨marksAt t n, 0, s⟩ .bool marks i w := by
  have hm : Constant.encode (.array 2 .bool) (.tuple [.bool true, .bool true]) = .ok (.array marks) := rfl
  have hw : ∃ w s', (outside (lookupOf .bool marks i)).run s = (.ok w, s') := by
    rw [outside_eq, run_memoized]
    cases s.memo.find? (.outside (lookupOf .bool marks i)) with
    | some w => exact ⟨w, _, rfl⟩
    | none =>
      have hd := @run_draw_scalar .bool "index_out_of_range" (by decide) s.missed
      have he : (draw (lookupOf .bool marks i).element "index_out_of_range").run s.missed = _ := hd
      simp only [he]
      exact ⟨_, _, rfl⟩
  obtain ⟨w, s', hw⟩ := hw
  exact ⟨w, s, s', .index (Int.le_refl 0) (Constant.run_encode_const hm (Int.le_refl 0) s)
    (Constant.run_encode_const h (Int.le_refl 0) s), hw⟩

theorem exists_receives_both (i i' : Operator.Index) {n n' : Int} (h : Constant.encode t (.int n) = .ok i.operand)
    (h' : Constant.encode t' (.int n') = .ok i'.operand) :
    ∃ c c' w w', Makes {} {} [(marksAt t n, 0), (marksAt t' n', 0)] c ∧
      Makes {} {} [(marksAt t n, 0), (marksAt t' n', 0)] c' ∧
      Receives {} c .bool marks i w ∧ Receives {} c' .bool marks i' w' := by
  obtain ⟨w, hw⟩ := exists_receives_marksAt h {}
  obtain ⟨w', hw'⟩ := exists_receives_marksAt h' ((encode {} (marksAt t n) 0).run {}).2
  obtain ⟨_, _, ha, _⟩ := id hw
  exact ⟨_, _, w, w', .now (.here _), .later ha.decides (.now (.here _)), hw, hw'⟩

def eightBits (isSigned : Bool) (n : Nat) : Operator.Index :=
  ⟨isSigned, .w8, .bits (BitVec.ofNat 8 n)⟩

theorem minus_one_and_two_receive_different : ({} : Encoder).memo = {} ∧ StreamType.bool.hasScalar = true ∧
    ∃ c c' w w', Makes {} {} [(marksAt (.int 8) (-1), 0), (marksAt (.int 8) (-2), 0)] c ∧
      Makes {} {} [(marksAt (.int 8) (-1), 0), (marksAt (.int 8) (-2), 0)] c' ∧
      Receives {} c .bool marks (eightBits true 255) w ∧ Receives {} c' .bool marks (eightBits true 254) w' ∧
      w ≠ w' := by
  refine ⟨rfl, rfl, ?_⟩
  obtain ⟨c, c', w, w', hc, hc', h, h'⟩ :=
    exists_receives_both (eightBits true 255) (eightBits true 254)
      (show Constant.encode (.int 8) (.int (-1)) = _ from rfl) (show Constant.encode (.int 8) (.int (-2)) = _ from rfl)
  have hiff := ((lookups_share_by_bits {} _ rfl).2 c c' _ _ _ _ _ _ w w' hc hc' h h').2 rfl (by simp [StreamType.names])
  have hne : (eightBits true 255).bits ≠ (eightBits true 254).bits := by
    intro he
    injection he with _ ht
    cases ht
  exact ⟨c, c', w, w', hc, hc', h, h', fun he => hne (hiff.1.1 he).2.2⟩

theorem minus_one_and_greatest_receive_the_same :
    ∃ c c' w, Makes {} {} [(marksAt (.int 8) (-1), 0), (marksAt (.word 8) 255, 0)] c ∧
      Makes {} {} [(marksAt (.int 8) (-1), 0), (marksAt (.word 8) 255, 0)] c' ∧
      Receives {} c .bool marks (eightBits true 255) w ∧ Receives {} c' .bool marks (eightBits false 255) w ∧
      (eightBits true 255).operand ≠ (eightBits false 255).operand := by
  obtain ⟨c, c', w, w', hc, hc', h, h'⟩ :=
    exists_receives_both (eightBits true 255) (eightBits false 255)
      (show Constant.encode (.int 8) (.int (-1)) = _ from rfl) (show Constant.encode (.word 8) (.int 255) = _ from rfl)
  obtain rfl : w = w' := h.eq_of_lookup_eq h' hc hc' rfl
  refine ⟨c, c', w, hc, hc', h, h', fun he => ?_⟩
  cases (Operator.Index.operand_inj.1 he).1

end Encoding

end OneStep
