import OneStep.Proofs.Recursion
import OneStep.Proofs.Validity
import OneStep.Prover

namespace OneStep

namespace Table

variable {κ ν : Type} [BEq κ] [LawfulBEq κ] [DecidableEq κ]

theorem contains_add (t : Table κ ν) (key key' : κ) (v : ν) :
    (t.add key v).contains key' = (t.contains key' || decide (key = key')) := by
  rw [contains, find?_add, contains]
  by_cases h : key = key' <;> simp [h]

theorem foldlM_eq_ok_iff {pairs : List (κ × ν)} {t t' : Table κ ν} :
    pairs.foldlM (fun t (key, value) => if t.contains key then .error key else .ok (t.add key value)) t = Except.ok t' ↔
      ((pairs.map (·.1)).Nodup ∧ ∀ p ∈ pairs, t.contains p.1 = false) ∧ t' = ⟨t.entries ++ pairs⟩ := by
  induction pairs generalizing t with
  | nil =>
    constructor
    · rintro ⟨⟩
      simp
    · rintro ⟨_, rfl⟩
      simp [pure, Except.pure]
  | cons p pairs ih =>
    obtain ⟨key, v⟩ := p
    simp only [List.foldlM_cons]
    cases hc : t.contains key with
    | true =>
      simp only [if_true, List.forall_mem_cons, hc, Bool.true_eq_false, false_and, and_false, iff_false]
      rintro ⟨⟩
    | false =>
      have hne : (∀ p ∈ pairs, (t.add key v).contains p.1 = false) ↔
          (∀ p ∈ pairs, t.contains p.1 = false) ∧ key ∉ pairs.map (·.1) := by
        simp only [contains_add, Bool.or_eq_false_iff, decide_eq_false_iff_not, List.mem_map, not_exists, not_and]
        exact ⟨fun h => ⟨fun p hp => (h p hp).1, fun p hp he => (h p hp).2 he.symm⟩,
          fun h p hp => ⟨h.1 p hp, fun he => h.2 p hp he.symm⟩⟩
      refine (ih (t := t.add key v)).trans ?_
      rw [hne, List.map_cons, List.nodup_cons, List.forall_mem_cons, add, List.append_assoc]
      simp only [hc, true_and, List.singleton_append]
      exact and_congr_left fun _ => ⟨fun h => ⟨⟨h.2.2, h.1⟩, h.2.1⟩, fun h => ⟨h.1.2, h.2, h.1.1⟩⟩

end Table

namespace Registry

variable {streams : List Stream} {registry : Registry}

theorem ofStreams_eq_ok_iff : ofStreams streams = .ok registry ↔
    (streams.map (·.id)).Nodup ∧ registry = ⟨streams.map fun st => (st.id, st)⟩ := by
  have hkeys : (streams.map fun st => (st.id, st)).map (·.1) = streams.map (·.id) := by simp
  have hlist : ofStreams streams = .ok registry ↔ Table.ofList (streams.map fun st => (st.id, st)) = .ok registry := by
    unfold ofStreams
    cases Table.ofList (streams.map fun st => (st.id, st)) <;> simp
  rw [hlist, Table.ofList, Table.foldlM_eq_ok_iff, hkeys]
  exact and_congr_left fun _ => and_iff_left fun _ _ => rfl

theorem find?_ofStreams_iff (h : ofStreams streams = .ok registry) {id : Int} {st : Stream} :
    registry.find? id = some st ↔ st ∈ streams ∧ st.id = id := by
  refine ⟨find?_ofStreams h, ?_⟩
  rintro ⟨hst, rfl⟩
  obtain ⟨hn, rfl⟩ := ofStreams_eq_ok_iff.1 h
  cases hf : (⟨streams.map fun st => (st.id, st)⟩ : Registry).find? st.id with
  | none =>
    rw [Table.find?, Option.map_eq_none_iff, List.find?_eq_none] at hf
    exact absurd (beq_self_eq_true st.id) (hf _ (List.mem_map_of_mem hst))
  | some st' =>
    obtain ⟨hst', hid⟩ := find?_ofStreams h hf
    rw [List.inj_on_of_nodup_map hn hst' hst hid]

end Registry

structure Stream.Alike (st st' : Stream) : Prop where
  type_eq : st.type = st'.type
  expr_eq : st.expr = st'.expr
  length_eq : st.buffer.length = st'.buffer.length

def Registry.Agree (a b : Registry) (id : Int) : Prop :=
  a.find? id = none ∧ b.find? id = none ∨ ∃ st st', a.find? id = some st ∧ b.find? id = some st' ∧ st.Alike st'

theorem Registry.agree_of_eq {a b : Registry} {id : Int} (h : b.find? id = a.find? id) : a.Agree b id := by
  cases hst : a.find? id with
  | none => exact .inl ⟨hst, h.trans hst⟩
  | some st => exact .inr ⟨st, st, hst, h.trans hst, rfl, rfl, rfl⟩

namespace Encoding

variable {a b : Registry}

theorem get_eq_of_none {id : Int} (ha : a.find? id = none) (hb : b.find? id = none) : a.get id = b.get id := by
  rw [Registry.get, Registry.get, ha, hb]

theorem past_eq_of_agree {id : Int} (h : a.Agree b id) (o : Int) : past a id o = past b id o := by
  have hd : drawPast a id o = drawPast b id o := by
    unfold drawPast
    rcases h with ⟨ha, hb⟩ | ⟨st, st', ha, hb, alike⟩
    · rw [get_eq_of_none ha hb]
    · rw [Registry.get_eq_ok_iff.2 ha, Registry.get_eq_ok_iff.2 hb]
      exact congrArg (fun t => (do draw t s!"s{← writeInt id}_{← writeInt o}" : Encoding SymValue)) alike.type_eq
  rw [past_eq, past_eq, hd]

theorem encodeAt_eq_of_agree {present present' : Stream → Int → Encoding SymValue} {e : Expr}
    (h : ∀ id, e.Reaches a id → a.Agree b id)
    (hp : ∀ id st st', a.find? id = some st → b.find? id = some st' → st.Alike st' →
      (∀ id', st.expr.Reaches a id' → a.Agree b id') → present st = present' st') (o : Int) :
    encodeAt a present e o = encodeAt b present' e o := by
  rw [encodeAt_eq, encodeAt_eq]
  split
  · rfl
  · refine encodeWith_congr o fun id hid => ⟨past_eq_of_agree (h id (.direct hid)), fun total _ => ?_⟩
    rcases h id (.direct hid) with ⟨ha, hb⟩ | ⟨st, st', ha, hb, alike⟩
    · rw [get_eq_of_none ha hb]
      cases hget : b.get id with
      | error f => rfl
      | ok st => cases hb.symm.trans (Registry.get_eq_ok_iff.1 hget)
    · rw [Registry.get_eq_ok_iff.2 ha, Registry.get_eq_ok_iff.2 hb]
      have hst := hp id st st' ha hb alike fun id' hr => h id' (.through hid ha hr)
      exact congrFun hst total

theorem unroll_eq_of_agree (ha : ∀ id st, a.find? id = some st → st.id = id)
    (hb : ∀ id st, b.find? id = some st → st.id = id) {id : Int} {st st' : Stream} (hst : a.find? id = some st)
    (hst' : b.find? id = some st') (alike : st.Alike st')
    (h : ∀ id', st.expr.Reaches a id' → a.Agree b id') (fuel : Nat) (active : List (Int × Int)) (total : Int) :
    unroll a fuel active st total = unroll b fuel active st' total := by
  induction fuel generalizing id st st' active total with
  | zero => rfl
  | succ fuel ih =>
    have hid : st.id = st'.id := (ha id st hst).trans (hb id st' hst').symm
    rw [unroll_succ_eq, unroll_succ_eq, hid, alike.length_eq, ← alike.expr_eq]
    congr 1
    funext _
    split
    · rfl
    · exact encodeAt_eq_of_agree h (fun _ _ _ h₁ h₂ h₃ h₄ => funext (ih h₁ h₂ h₃ h₄ _)) _

theorem encode_eq_of_agree (ha : ∀ id st, a.find? id = some st → st.id = id)
    (hb : ∀ id st, b.find? id = some st → st.id = id) {e : Expr} (h : ∀ id, e.Reaches a id → a.Agree b id) (o : Int) :
    encode a e o = encode b e o := by
  -- the two have different numbers of places, but fuel for both is enough for either
  have hfuel : places a < max (places a) (places b) + 1 := by omega
  have hfuel' : places b < max (places a) (places b) + 1 := by omega
  rw [encode_eq_of_enough ha hfuel, encode_eq_of_enough hb hfuel']
  exact encodeAt_eq_of_agree h (fun _ _ _ h₁ h₂ h₃ h₄ => funext (unroll_eq_of_agree ha hb h₁ h₂ h₃ h₄ _ _)) o

end Encoding

structure Property.Same (p : Property) (a b : Registry) : Prop where
  formula : Encoding.encodeProperty a p.expr = Encoding.encodeProperty b p.expr
  outcome : ∀ {σ : Type} (solvers : Solvers σ) settings path,
    Prover.proveProperty solvers settings path a p = Prover.proveProperty solvers settings path b p

namespace Property.Same

variable {streams streams' : List Stream} {a b : Registry} {p : Property}

theorem of_agree (ha : Registry.ofStreams streams = .ok a) (hb : Registry.ofStreams streams' = .ok b)
    (h : ∀ id, p.expr.Reaches a id → a.Agree b id) : p.Same a b := by
  have he := Encoding.encode_eq_of_agree (fun _ _ hst => (Registry.find?_ofStreams ha hst).2)
    (fun _ _ hst => (Registry.find?_ofStreams hb hst).2) h 0
  have hp : Encoding.encodeProperty a p.expr = Encoding.encodeProperty b p.expr := by
    rw [Encoding.encodeProperty, Encoding.encodeProperty, he]
  refine ⟨hp, fun solvers settings path => ?_⟩
  rw [Prover.proveProperty, Prover.proveProperty, Prover.encodeProperty, Prover.encodeProperty, hp]

theorem of_mem_iff (ha : Registry.ofStreams streams = .ok a) (hb : Registry.ofStreams streams' = .ok b)
    (h : ∀ st, p.expr.Reaches a st.id → (st ∈ streams' ↔ st ∈ streams)) : p.Same a b := by
  refine of_agree ha hb fun id hid => Registry.agree_of_eq ?_
  ext st
  rw [Registry.find?_ofStreams_iff hb, Registry.find?_ofStreams_iff ha]
  exact and_congr_left fun hst => h st (hst ▸ hid)

theorem of_buffers (ha : Registry.ofStreams streams = .ok a) {buffer : Stream → List Datum}
    (hb : Registry.ofStreams (streams.map fun st => { st with buffer := buffer st }) = .ok b)
    (h : ∀ st ∈ streams, (buffer st).length = st.buffer.length) : p.Same a b := by
  refine of_agree ha hb fun id _ => ?_
  cases hst : a.find? id with
  | some st =>
    obtain ⟨hmem, hid⟩ := Registry.find?_ofStreams ha hst
    have hst' := (Registry.find?_ofStreams_iff hb).2 ⟨List.mem_map_of_mem hmem, hid⟩
    exact .inr ⟨st, _, hst, hst', rfl, rfl, (h st hmem).symm⟩
  | none =>
    refine .inl ⟨hst, ?_⟩
    cases hst' : b.find? id with
    | none => rfl
    | some st' =>
      obtain ⟨hmem', hid⟩ := Registry.find?_ofStreams hb hst'
      obtain ⟨st, hmem, rfl⟩ := List.mem_map.1 hmem'
      cases hst.symm.trans ((Registry.find?_ofStreams_iff ha).2 ⟨hmem, hid⟩)

end Property.Same

theorem property_depends_on_reached {streams : List Stream} {a : Registry} (ha : Registry.ofStreams streams = .ok a)
    (p : Property) :
    (∀ streams' b, Registry.ofStreams streams' = .ok b → (∀ id, p.expr.Reaches a id → a.Agree b id) → p.Same a b) ∧
    (∀ streams', streams.Perm streams' → ∃ b, Registry.ofStreams streams' = .ok b ∧ p.Same a b) ∧
    (∀ more b, Registry.ofStreams (streams ++ more) = .ok b → (∀ st ∈ more, ¬ p.expr.Reaches a st.id) → p.Same a b) ∧
    (∀ kept : Stream → Bool, (∀ st ∈ streams, p.expr.Reaches a st.id → kept st = true) →
      ∃ b, Registry.ofStreams (streams.filter kept) = .ok b ∧ p.Same a b) ∧
    (∀ buffer : Stream → List Datum, (∀ st ∈ streams, (buffer st).length = st.buffer.length) →
      ∃ b, Registry.ofStreams (streams.map fun st => { st with buffer := buffer st }) = .ok b ∧ p.Same a b) := by
  have hn := (Registry.ofStreams_eq_ok_iff.1 ha).1
  refine ⟨fun streams' b hb h => .of_agree ha hb h, ?_, ?_, ?_, ?_⟩
  · intro streams' hperm
    have hb := Registry.ofStreams_eq_ok_iff.2 ⟨(hperm.map (·.id)).nodup hn, rfl⟩
    exact ⟨_, hb, .of_mem_iff ha hb fun st _ => hperm.mem_iff.symm⟩
  · intro more b hb hmore
    refine .of_mem_iff ha hb fun st hid => ?_
    rw [List.mem_append]
    exact or_iff_left fun hst => hmore st hst hid
  · intro kept hkept
    have hsub : (streams.filter kept).Sublist streams := List.filter_sublist
    have hb := Registry.ofStreams_eq_ok_iff.2 ⟨(hsub.map (·.id)).nodup hn, rfl⟩
    refine ⟨_, hb, .of_mem_iff ha hb fun st hid => ?_⟩
    rw [List.mem_filter]
    exact and_iff_left_of_imp fun hst => hkept st hst hid
  · intro buffer hlen
    have hn' : ((streams.map fun st => { st with buffer := buffer st }).map (·.id)).Nodup := by
      rw [List.map_map]
      exact hn
    have hb := Registry.ofStreams_eq_ok_iff.2 ⟨hn', rfl⟩
    exact ⟨_, hb, .of_buffers ha hb hlen⟩

def latch (buffer : List Datum) : Stream :=
  ⟨0, .bool, buffer, .drop .bool 0 0⟩

theorem latch_reaches {buffer : List Datum} {others : List Stream} {a : Registry}
    (ha : Registry.ofStreams (latch buffer :: others) = .ok a) {id : Int}
    (h : (Expr.drop .bool 0 0).Reaches a id) : id = 0 := by
  generalize he : Expr.drop .bool 0 0 = e at h
  induction h with
  | direct mem =>
    subst he
    exact List.mem_singleton.1 mem
  | through mem found _ ih =>
    subst he
    obtain rfl := List.mem_singleton.1 mem
    have hst := (Registry.find?_ofStreams_iff ha).2 ⟨List.mem_cons_self .., rfl⟩
    cases found.symm.trans hst
    exact ih rfl

theorem latch_depends_on_itself : ∃ a b,
    Registry.ofStreams [latch [.bool true], ⟨1, .bool, [], .drop .bool 0 1⟩] = .ok a ∧
    Registry.ofStreams [latch [.text "not a truth value"]] = .ok b ∧
    Property.Same ⟨"latch", .drop .bool 0 0⟩ a b := by
  have ha : Registry.ofStreams [latch [.bool true], ⟨1, .bool, [], .drop .bool 0 1⟩] =
    .ok ⟨[(0, latch [.bool true]), (1, ⟨1, .bool, [], .drop .bool 0 1⟩)]⟩ := rfl
  have hb : Registry.ofStreams [latch [.text "not a truth value"]] =
    .ok ⟨[(0, latch [.text "not a truth value"])]⟩ := rfl
  refine ⟨_, _, ha, hb, (property_depends_on_reached ha _).1 _ _ hb fun id hid => ?_⟩
  obtain rfl := latch_reaches ha hid
  exact .inr ⟨_, _, rfl, rfl, rfl, rfl, rfl⟩

end OneStep
