import OneStep.Proofs.Freshness
import OneStep.Proofs.Progress
import OneStep.Solver.Script

namespace OneStep

namespace Supply

theorem isMasked_of_isDigit {c : Char} (h : c.isDigit = true) : isMasked c = false := by
  simp only [Char.isDigit, Bool.and_eq_true, decide_eq_true_eq, ge_iff_le, UInt32.le_iff_toNat_le] at h
  have h0 : '0'.val.toNat = 48 := rfl
  have h9 : '9'.val.toNat = 57 := rfl
  have hn : 48 ≤ c.toNat ∧ c.toNat ≤ 57 := by
    simp only [Char.toNat]
    omega
  have hne : ∀ d : Char, 57 < d.toNat → c ≠ d := by
    rintro d hd rfl
    omega
  have hb : Text.isBlank c = false := by
    simp only [Text.isBlank, Bool.or_eq_false_iff, Bool.and_eq_false_iff, decide_eq_false_iff_not, beq_eq_false_iff_ne]
    omega
  simp [isMasked, hb, hne '|' (by decide), hne '\\' (by decide)]

theorem isMasked_of_mem_plainHint (afterMask : Bool) (cs : List Char) :
    ∀ c ∈ plainHint afterMask cs, isMasked c = false := by
  fun_induction plainHint afterMask cs with
  | case1 => simp
  | case2 c cs _ ih => exact ih
  | case3 _ c cs _ _ ih => exact List.forall_mem_cons.2 ⟨by decide, ih⟩
  | case4 _ c cs hc ih => exact List.forall_mem_cons.2 ⟨Bool.eq_false_iff.2 hc, ih⟩

theorem unmasked_hintText (hint : String) : Text.Avoids isMasked (hintText hint) := by
  simp only [hintText]
  split
  · exact Text.avoids_of_all (by decide)
  · unfold Text.Avoids
    rw [String.toList_ofList]
    exact isMasked_of_mem_plainHint false _

end Supply

namespace Symbol

theorem unmasked_fullName {hint : String} (h : Text.Avoids Supply.isMasked hint) (i : Nat) :
    Text.Avoids Supply.isMasked (fullName hint i) := by
  simp only [fullName, Text.avoids_append]
  exact ⟨⟨h, Text.avoids_of_all (by decide)⟩, fun c hc => Supply.isMasked_of_isDigit (Text.isDigit_of_mem_nat hc)⟩

theorem unmasked_ofName {cs : List Char} (h : ∀ c ∈ cs, Supply.isMasked c = false) :
    Text.Avoids Supply.isMasked (ofName cs).name := by
  have hcut : Text.Avoids Supply.isMasked (name ⟨String.ofList cs, none⟩) := by
    simp only [name]
    split
    · exact Text.avoids_of_all (by decide)
    · unfold Text.Avoids
      rwa [String.toList_ofList]
  unfold ofName
  dsimp only
  split
  · next hint hr =>
    split
    · refine unmasked_fullName (fun c hc => h c ?_) _
      have hm : c ∈ cs.reverse.dropWhile Char.isDigit := by
        rw [String.toList_ofList, List.mem_reverse] at hc
        exact hr ▸ List.mem_cons_of_mem _ hc
      exact List.mem_reverse.1 ((List.dropWhile_sublist _).mem hm)
    · exact hcut
  · exact hcut

theorem unmasked_ofHint {hint : String} (h : Text.Avoids Supply.isMasked hint) (i : Nat) :
    Text.Avoids Supply.isMasked (ofHint hint i).name := by
  unfold ofHint
  split
  · exact unmasked_ofName fun c hc => h c ((List.takeWhile_sublist _).mem hc)
  · exact unmasked_fullName h i

theorem mem_fullName (hint : String) (i : Nat) : '!' ∈ (fullName hint i).toList := by
  have hm : '!' ∈ "!".toList := by decide
  simp only [fullName, String.toList_append, List.mem_append]
  exact .inl (.inr hm)

end Symbol

inductive Script.NamesFunction : String → Prop
  | one (f : Function) (p : Precision) : NamesFunction (functionText f.name p)
  | two (f : Function2) (p : Precision) : NamesFunction (functionText f.name p)

theorem Script.NamesFunction.ne_fullName {name : String} (h : NamesFunction name) (hint : String) (i : Nat) :
    name ≠ Symbol.fullName hint i := by
  rintro rfl
  have hm := Symbol.mem_fullName hint i
  generalize Symbol.fullName hint i = name at h hm
  cases h with
  | one f p => revert hm; cases f <;> cases p <;> decide
  | two f p => revert hm; cases f <;> cases p <;> decide

namespace Supply

theorem unmasked_of_draw {t : StreamType} {hint : String} {s s' : Supply} {v : SymValue}
    (h : (draw t hint).run s = (.ok v, s')) : ∀ name ∈ v.names, Text.Avoids isMasked name := by
  have hl : ∀ leaf ∈ v.leaves, ∀ m ∈ leaf.2.symbols, Text.Avoids isMasked m.1.name := by
    refine Inductive.draw
      (P := fun _ _ m => ∀ s v s', m.run s = (.ok v, s') →
        ∀ leaf ∈ v.leaves, ∀ m ∈ leaf.2.symbols, Text.Avoids isMasked m.1.name)
      (Q := fun _ m => ∀ s vs s', m.run s = (.ok vs, s') →
        ∀ leaf ∈ Value.leavesOf vs, ∀ m ∈ leaf.2.symbols, Text.Avoids isMasked m.1.name)
      ⟨?_, ?_, ?_, ?_, ?_⟩ t hint s v s' h
    · intro t hint _ _ s v s' h
      obtain ⟨k, _, _, rfl, _⟩ := run_drawScalar_eq_ok_iff.1 h
      intro leaf hleaf m hm
      have hu := Symbol.unmasked_ofHint (unmasked_hintText hint) s.count
      simp only [symbolFor, Value.leaves, List.mem_singleton] at hleaf
      subst hleaf
      simp only [Term.symbols, List.mem_singleton] at hm
      simpa only [hm] using hu
    · rintro s _ _ ⟨⟩ leaf hleaf
      cases hleaf
    · intro t hint parts m n hm hn s vs s' h leaf hleaf
      obtain ⟨v, s₁, hv, h⟩ := Outcome.run_bind_eq_ok_iff.1 h
      obtain ⟨vs, s₂, hvs, h⟩ := Outcome.run_bind_eq_ok_iff.1 h
      cases h
      rcases List.mem_append.1 hleaf with hleaf | hleaf
      · exact hm _ _ _ hv leaf hleaf
      · exact hn _ _ _ hvs leaf hleaf
    · intro length element hint m hm s v s' h
      obtain ⟨items, s₁, hi, h⟩ := Outcome.run_bind_eq_ok_iff.1 h
      cases h
      exact hm _ _ _ hi
    · intro name fields hint m hm s v s' h
      obtain ⟨items, s₁, hi, h⟩ := Outcome.run_bind_eq_ok_iff.1 h
      cases h
      exact hm _ _ _ hi
  intro name hname
  obtain ⟨m, hm, rfl⟩ := List.mem_map.1 hname
  obtain ⟨leaf, hleaf, hm⟩ := List.mem_flatMap.1 hm
  exact hl leaf hleaf m hm

inductive Allocates : Nat → List (StreamType × String) → List SymValue → Nat → Prop
  | nil (count : Nat) : Allocates count [] [] count
  | cons {count last : Nat} {t : StreamType} {hint : String} {parts : List (StreamType × String)} {v : SymValue}
      {vs : List SymValue} (conforms : v.Conforms t)
      (leaves : v.leaves = (numbered count (leafHints t hint)).map SymValue.symbolLeaf)
      (rest : Allocates (count + (leafHints t hint).length) parts vs last) :
      Allocates count ((t, hint) :: parts) (v :: vs) last

theorem Allocates.names_eq {count last : Nat} {parts : List (StreamType × String)} {vs : List SymValue}
    (h : Allocates count parts vs last) :
    vs.flatMap SymValue.names = (numbered count (partHints parts)).map (·.2.name) := by
  induction h with
  | nil count => rfl
  | @cons count last t hint parts v vs _ leaves _ ih =>
    have hp : partHints ((t, hint) :: parts) = leafHints t hint ++ partHints parts := rfl
    rw [List.flatMap_cons, ih, SymValue.names_of_leaves leaves, hp, numbered_append, List.map_append]

theorem allocates_of_drawAll {parts : List (StreamType × String)} {s s' : Supply} {vs : List SymValue}
    (hz : ∀ p ∈ parts, Avoids isZero p.1 p.2) (h : (drawAll parts).run s = (.ok vs, s')) :
    Allocates s.count parts vs s'.count := by
  induction parts generalizing s vs with
  | nil =>
    cases h
    exact .nil _
  | cons p parts ih =>
    obtain ⟨t, hint⟩ := p
    obtain ⟨v, s₁, hv, h⟩ := Outcome.run_bind_eq_ok_iff.1 h
    obtain ⟨vs, s₂, hvs, h⟩ := Outcome.run_bind_eq_ok_iff.1 h
    cases h
    have hd := leaves_of_draw (hz _ (List.mem_cons_self ..)) hv
    refine .cons (conforms_of_draw hv) hd.leaves ?_
    rw [← hd.count]
    exact ih (fun p hp => hz p (List.mem_cons_of_mem _ hp)) hvs

theorem exists_drawAll {parts : List (StreamType × String)} (hk : ∀ p ∈ parts, p.1.isKnown = true)
    (h : ∀ p ∈ parts, Avoids Text.isHalf p.1 p.2) (s : Supply) : ∃ vs s', (drawAll parts).run s = (.ok vs, s') := by
  induction parts generalizing s with
  | nil => exact ⟨[], s, rfl⟩
  | cons p parts ih =>
    obtain ⟨v, s₁, hv⟩ := exists_draw (hk p (List.mem_cons_self ..)) (h p (List.mem_cons_self ..)) s
    obtain ⟨vs, s₂, hvs⟩ := ih (fun p hp => hk p (List.mem_cons_of_mem _ hp))
      (fun p hp => h p (List.mem_cons_of_mem _ hp)) s₁
    exact ⟨v :: vs, s₂, Outcome.run_bind_eq_ok_iff.2 ⟨v, s₁, hv, Outcome.run_bind_eq_ok_iff.2 ⟨vs, s₂, hvs, rfl⟩⟩⟩

theorem forall₂_of_drawAll {P : StreamType × String → SymValue → Prop}
    (hP : ∀ t hint s v s', (draw t hint).run s = (.ok v, s') → P (t, hint) v) {parts : List (StreamType × String)}
    {s s' : Supply} {vs : List SymValue} (h : (drawAll parts).run s = (.ok vs, s')) : List.Forall₂ P parts vs := by
  induction parts generalizing s vs with
  | nil =>
    cases h
    exact .nil
  | cons p parts ih =>
    obtain ⟨v, s₁, hv, h⟩ := Outcome.run_bind_eq_ok_iff.1 h
    obtain ⟨vs, s₂, hvs, h⟩ := Outcome.run_bind_eq_ok_iff.1 h
    cases h
    exact .cons (hP _ _ _ _ _ hv) (ih hvs)

theorem drawn_names_unique (requests : List (StreamType × String)) (s : Supply)
    (hk : ∀ r ∈ requests, r.1.isKnown = true) :
    ((∀ r ∈ requests, Avoids Text.isHalf r.1 r.2) → ∃ vs s', (drawAll requests).run s = (.ok vs, s')) ∧
      ∀ vs s', (drawAll requests).run s = (.ok vs, s') →
        List.Forall₂ (fun r v => v.Conforms r.1) requests vs ∧
        (∀ name ∈ vs.flatMap SymValue.names, Text.Avoids isMasked name) ∧
        ((∀ r ∈ requests, Avoids isZero r.1 r.2) →
          Allocates s.count requests vs s'.count ∧ (vs.flatMap SymValue.names).Nodup ∧
          ∀ name ∈ vs.flatMap SymValue.names, ¬ Script.NamesFunction name) := by
  refine ⟨fun hh => exists_drawAll hk hh s, fun vs s' h => ⟨?_, ?_, fun hz => ?_⟩⟩
  · exact forall₂_of_drawAll (fun t hint s v s' h => conforms_of_draw h) h
  · have hu := forall₂_of_drawAll (P := fun _ v => ∀ name ∈ v.names, Text.Avoids isMasked name)
      (fun t hint s v s' h => unmasked_of_draw h) h
    intro name hname
    obtain ⟨v, hv, hname⟩ := List.mem_flatMap.1 hname
    obtain ⟨_, _, hv⟩ := Outcome.forall₂_exists_of_mem hu.flip hv
    exact hv name hname
  · have ha := allocates_of_drawAll hz h
    refine ⟨ha, ha.names_eq ▸ nodup_numbered .., fun name hname hf => ?_⟩
    obtain ⟨hint, i, he, _⟩ := name_of_numbered (ha.names_eq ▸ hname)
    exact hf.ne_fullName hint i he

theorem avoids_of_all {bad : Char → Bool} {requests : List (StreamType × String)}
    (h : (requests.all fun r => (r.2 :: r.1.names).all fun name => name.toList.all fun c => !bad c) = true) :
    ∀ r ∈ requests, Avoids bad r.1 r.2 := by
  intro r hr
  have hall := List.all_eq_true.1 (List.all_eq_true.1 h r hr)
  exact ⟨Text.avoids_of_all (hall _ (List.mem_cons_self ..)),
    fun name hn => Text.avoids_of_all (hall name (List.mem_cons_of_mem _ hn))⟩

def awkward : List (StreamType × String) :=
  [(.struct "S" [("a b", .bool), ("xs", .array 2 (.int 8))], "k!0|\\ "), (.array 0 .bool, ""), (.bool, "k!0|\\ ")]

theorem awkward_names_unique : (∀ r ∈ awkward, r.1.isKnown = true) ∧
    ∃ vs s', (drawAll awkward).run {} = (.ok vs, s') ∧ Allocates 0 awkward vs s'.count ∧
      (vs.flatMap SymValue.names).Nodup ∧
      ∀ name ∈ vs.flatMap SymValue.names, Text.Avoids isMasked name ∧ ¬ Script.NamesFunction name := by
  have hk : ∀ r ∈ awkward, r.1.isKnown = true := by decide
  obtain ⟨he, hv⟩ := drawn_names_unique awkward {} hk
  obtain ⟨vs, s', h⟩ := he (avoids_of_all (by decide))
  obtain ⟨_, hu, hz⟩ := hv vs s' h
  obtain ⟨ha, hn, hf⟩ := hz (avoids_of_all (by decide))
  exact ⟨hk, vs, s', h, ha, hn, fun name hname => ⟨hu name hname, hf name hname⟩⟩

theorem run_draw_bool {hint : String} (h : Text.hasHalves (hintText hint) = false) (s : Supply) :
    (draw .bool hint).run s = (.ok (symbolFor s hint .bool), counted s hint .bool) := by
  have hd : draw .bool hint = drawScalar .bool hint := rfl
  rw [hd]
  exact run_drawScalar_eq_ok_iff.2 ⟨.bool, rfl, h, rfl, rfl⟩

theorem zero_in_hint_repeats_name :
    (∃ vs s', (drawAll [(.bool, "k\x00 1"), (.bool, "k\x00 2")]).run {} = (.ok vs, s') ∧
      ¬ (vs.flatMap SymValue.names).Nodup) ∧
    ∃ v s', (draw .bool "sin_f64\x00").run {} = (.ok v, s') ∧
      ∃ name ∈ v.names, Script.NamesFunction name := by
  constructor
  · refine ⟨_, _, Outcome.run_bind_eq_ok_iff.2 ⟨_, _, run_draw_bool (by decide) {}, Outcome.run_bind_eq_ok_iff.2
      ⟨_, _, Outcome.run_bind_eq_ok_iff.2 ⟨_, _, run_draw_bool (by decide) _, rfl⟩, rfl⟩⟩, ?_⟩
    have hs : Symbol.ofHint (hintText "k\x00 1") 0 = Symbol.ofHint (hintText "k\x00 2") 1 := by decide
    have hn : ∀ k k' : Symbol, k = k' → ¬ [k.name, k'.name].Nodup := by
      rintro k _ rfl
      simp
    exact hn _ _ hs
  · refine ⟨_, _, run_draw_bool (by decide) {}, _, List.mem_singleton.2 rfl, ?_⟩
    have hs : Script.functionText Function.sin.name .double = (Symbol.ofHint (hintText "sin_f64\x00") 0).name := by
      decide
    have hf : ∀ name, Script.functionText Function.sin.name .double = name → Script.NamesFunction name := by
      rintro _ rfl
      exact .one .sin .double
    exact hf _ hs

end Supply

end OneStep
