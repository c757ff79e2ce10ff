import OneStep.Proofs.Nesting

namespace OneStep

def Expr.drops : Expr → List (Int × Int) :=
  gather fun
    | .drop _ k id => [(k, id)]
    | _ => []

def Expr.Forward (e : Expr) : Prop :=
  ∀ d ∈ e.drops, 0 ≤ d.1

namespace Encoding

variable {registry : Registry}

inductive Refers (registry : Registry) (i w j : Int) : Prop where
  | drop {k : Int} {st target : Stream} (source : registry.find? i = some st) (mem : (k, j) ∈ st.expr.drops)
    (found : registry.find? j = some target) (weight : w = k - target.buffer.length)

inductive Walk (registry : Registry) : Int → List Int → Int → Int → Prop where
  | nil (i : Int) : Walk registry i [] 0 i
  | cons {i j k w w' : Int} {ids : List Int} (step : Refers registry i w j) (rest : Walk registry j ids w' k) :
    Walk registry i (i :: ids) (w + w') k

namespace Walk

variable {i j k w w' : Int} {ids as bs : List Int}

theorem append (h : Walk registry i as w j) (h' : Walk registry j bs w' k) :
    Walk registry i (as ++ bs) (w + w') k := by
  induction h with
  | nil i => simpa using h'
  | cons step _ ih =>
    rw [Int.add_assoc]
    exact .cons step (ih h')

theorem split (h : Walk registry i (as ++ bs) w k) :
    ∃ j w₁ w₂, Walk registry i as w₁ j ∧ Walk registry j bs w₂ k ∧ w = w₁ + w₂ := by
  induction as generalizing i w with
  | nil => exact ⟨i, 0, w, .nil i, h, by simp⟩
  | cons a as ih =>
    cases h with
    | @cons _ j' _ w' w'' _ step rest =>
      obtain ⟨j, w₁, w₂, h₁, h₂, rfl⟩ := ih rest
      exact ⟨j, w' + w₁, w₂, .cons step h₁, h₂, (Int.add_assoc _ _ _).symm⟩

theorem head_eq (h : Walk registry i (j :: ids) w k) : i = j := by
  cases h
  rfl

end Walk

theorem exists_split_of_not_nodup {α : Type} {xs : List α} (h : ¬ xs.Nodup) :
    ∃ as x bs cs, xs = as ++ x :: (bs ++ x :: cs) := by
  induction xs with
  | nil => exact absurd List.nodup_nil h
  | cons y xs ih =>
    by_cases hy : y ∈ xs
    · obtain ⟨bs, cs, rfl⟩ := List.append_of_mem hy
      exact ⟨[], y, bs, cs, rfl⟩
    · obtain ⟨as, x, bs, cs, rfl⟩ := ih fun hxs => h (List.nodup_cons.2 ⟨hy, hxs⟩)
      exact ⟨y :: as, x, bs, cs, rfl⟩

def Contracting (registry : Registry) : Prop :=
  ∀ i ids w, Walk registry i ids w i → ids ≠ [] → ids.Nodup → w < 0

theorem Contracting.weight_neg (hc : Contracting registry) {i w : Int} {ids : List Int} (h : Walk registry i ids w i)
    (hne : ids ≠ []) : w < 0 := by
  induction hn : ids.length using Nat.strong_induction_on generalizing i w ids with
  | _ n ih =>
    by_cases hd : ids.Nodup
    · exact hc i ids w h hne hd
    · obtain ⟨as, x, bs, cs, rfl⟩ := exists_split_of_not_nodup hd
      obtain ⟨j, w₁, w', h₁, h', rfl⟩ := h.split
      obtain rfl := h'.head_eq
      rw [← List.cons_append] at h'
      obtain ⟨j', w₂, w₃, h₂, h₃, rfl⟩ := h'.split
      obtain rfl := h₃.head_eq
      simp only [List.length_append, List.length_cons] at hn
      have hin := ih _ (by simp only [List.length_cons]; omega) h₂ (by simp) rfl
      have hout := ih _ (by simp only [List.length_append, List.length_cons]; omega) (h₁.append h₃) (by simp) rfl
      omega

variable {c c' : Call} {p : Int × Int} {ps : List (Int × Int)}

theorem Within.drops (h : Within registry c c') : c'.offset = c.offset ∧ ∀ d ∈ c'.expr.drops, d ∈ c.expr.drops := by
  cases h with
  | arg => exact ⟨rfl, fun _ hd => List.mem_append_right _ hd⟩
  | left => exact ⟨rfl, fun _ hd => List.mem_append_left _ (List.mem_append_right _ hd)⟩
  | right => exact ⟨rfl, fun _ hd => List.mem_append_right _ hd⟩
  | first => exact ⟨rfl, fun _ hd => List.mem_append_left _ (List.mem_append_left _ (List.mem_append_right _ hd))⟩
  | second => exact ⟨rfl, fun _ hd => List.mem_append_left _ (List.mem_append_right _ hd)⟩
  | third => exact ⟨rfl, fun _ hd => List.mem_append_right _ hd⟩

theorem Unrolls.refers (h : Unrolls registry c p c') {i : Int} {st : Stream} (hst : registry.find? i = some st)
    (hd : ∀ d ∈ c.expr.drops, d ∈ st.expr.drops) : ∃ w, Refers registry i w p.1 ∧ c'.offset = c.offset + w := by
  cases h with
  | @drop t k id o s target _ _ stream =>
    have hmem : (k, id) ∈ (Expr.drop t k id).drops := List.mem_singleton_self _
    exact ⟨_, ⟨hst, hd _ hmem, stream, rfl⟩, by simp only; omega⟩

theorem Nests.walk (h : Nests registry c ps c') {i : Int} {st : Stream} (hst : registry.find? i = some st)
    (hd : ∀ d ∈ c.expr.drops, d ∈ st.expr.drops) :
    ∃ ids w j target, Walk registry i ids w j ∧ c'.offset = c.offset + w ∧ registry.find? j = some target ∧
      ∀ d ∈ c'.expr.drops, d ∈ target.expr.drops := by
  induction h generalizing i st with
  | here c => exact ⟨[], 0, i, st, .nil i, by simp, hst, hd⟩
  | within step _ ih =>
    obtain ⟨ho, hsub⟩ := step.drops
    rw [← ho]
    exact ih hst fun d hmem => hd d (hsub d hmem)
  | unrolled step _ ih =>
    obtain ⟨w, hrefers, ho⟩ := step.refers hst hd
    obtain ⟨_, target, htarget, he, _⟩ := step.stream
    obtain ⟨ids, w', j, target', hw, ho', hrest⟩ := ih htarget fun d hmem => he ▸ hmem
    exact ⟨i :: ids, w + w', j, target', .cons hrefers hw, by omega, hrest⟩

theorem exists_closed_walk (h : Nests registry c (ps ++ [p]) c') (hp : p ∈ ps) :
    ∃ ids, ids ≠ [] ∧ Walk registry p.1 ids 0 p.1 := by
  obtain ⟨as, bs, c₀, c₁, c₂, c₃, _, hu, h₂, hu'⟩ := h.exists_cycle hp
  obtain ⟨_, st, hst, he, _⟩ := hu.stream
  obtain ⟨ids, w, j, target, hw, ho, htarget, hd⟩ := h₂.walk hst fun d hmem => he ▸ hmem
  obtain ⟨w', hrefers, ho'⟩ := hu'.refers htarget hd
  have hsame := (hu'.entry_eq hu).2
  have hzero : w + (w' + 0) = 0 := by omega
  exact ⟨ids ++ [j], by simp, hzero ▸ hw.append (.cons hrefers (.nil p.1))⟩

theorem Contracting.decides (hc : Contracting registry) (hr : ∀ id st, registry.find? id = some st → st.id = id)
    (c : Call) : Outcome.Decides (c.run registry).1 := by
  by_contra hd
  obtain ⟨ps, p, c', h, hp⟩ := exists_repeated_of_run hr hd
  obtain ⟨ids, hne, hw⟩ := exists_closed_walk h hp
  exact absurd (hc.weight_neg hw hne) (Int.lt_irrefl 0)

theorem Unrolls.offset_range (h : Unrolls registry c p c') : ∃ st, registry.find? p.1 = some st ∧ c'.expr = st.expr ∧
    -(st.buffer.length : Int) ≤ c'.offset ∧
      (c'.offset ≤ 0 ∨ c'.run registry = (.error (.instantOffset c'.offset), c'.state)) := by
  obtain ⟨hz, st, hst, he, ho⟩ := h.stream
  refine ⟨st, hst, he, by omega, or_iff_not_imp_left.2 fun hpos => ?_⟩
  rw [Call.run, encode, encodeAt_eq, if_pos (by omega)]
  rfl

theorem Nests.nonpos (h : Nests registry c ps c') (ho : c'.offset ≤ 0) : c.offset ≤ 0 := by
  cases h with
  | here => exact ho
  | within step => cases step <;> assumption
  | unrolled step => cases step; assumption

theorem Nests.placed (h : Nests registry c ps c') (ho : c'.offset ≤ 0) (hp : p ∈ ps) : Placed registry p := by
  obtain ⟨as, bs, rfl⟩ := List.append_of_mem hp
  obtain ⟨c₀, c₁, _, hu, h⟩ := h.split
  obtain ⟨hz, st, hst, _, hoff⟩ := hu.stream
  have hle := h.nonpos ho
  exact ⟨st, hst, hz, by omega⟩

theorem Nests.nodup (h : Nests registry c ps c') (hd : Outcome.Decides (c.run registry).1) : ps.Nodup := by
  by_contra hn
  obtain ⟨as, p, bs, cs, rfl⟩ := exists_split_of_not_nodup hn
  obtain ⟨c₀, c₁, h₀, hu, h⟩ := h.split
  obtain ⟨c₂, c₃, h₂, hu', _⟩ := h.split
  have hrep := (h₀.snoc hu).trans (h₂.snoc hu')
  rw [← List.append_assoc] at hrep
  exact not_decides_of_repeated hrep (by simp) _ (decides_runTo_of_run hd)

def longestBuffer (streams : List Stream) : Nat :=
  streams.foldr (fun st n => max st.buffer.length n) 0

theorem length_le_longestBuffer {streams : List Stream} {st : Stream} (h : st ∈ streams) :
    st.buffer.length ≤ longestBuffer streams := by
  induction streams with
  | nil => cases h
  | cons st' streams ih =>
    rw [longestBuffer, List.foldr_cons]
    rcases List.mem_cons.1 h with rfl | h
    · exact Nat.le_max_left ..
    · exact Nat.le_trans (ih h) (Nat.le_max_right ..)

theorem places_le {streams : List Stream} (hr : Registry.ofStreams streams = .ok registry) :
    places registry ≤ streams.length * (longestBuffer streams + 1) := by
  have hle : ∀ n ∈ streams.map fun st => (placesOf (st.id, st)).length, n ≤ longestBuffer streams + 1 := by
    intro n hn
    obtain ⟨st, hst, rfl⟩ := List.mem_map.1 hn
    rw [placesOf, List.length_map, List.length_range]
    exact Nat.succ_le_succ (length_le_longestBuffer hst)
  rw [places, length_placesOf, Registry.entries_ofStreams hr, Nat.zero_add, List.flatMap_map, List.length_flatMap]
  simpa using List.sum_le_card_nsmul _ _ hle

end Encoding

def Unknown.Recent (n : Nat) : Unknown → Prop
  | .past _ o => -n ≤ o ∧ o ≤ -1
  | .input _ o => -n ≤ o ∧ o ≤ 0
  | .outside _ => True

def Encoder.SameBefore (n : Nat) (s s' : Encoder) : Prop :=
  ∀ u : Unknown, ¬ u.Recent n → s'.memo.find? u = s.memo.find? u

instance (n : Nat) : IsPreorder Encoder (Encoder.SameBefore n) where
  refl _ _ _ := rfl
  trans _ _ _ h h' u hu := (h' u hu).trans (h u hu)

namespace Encoding

variable {n : Nat}

theorem sameBefore_of_memo_eq {s s' : Encoder} (h : s'.memo.find? = s.memo.find?) : s.SameBefore n s' :=
  fun u _ => congrFun h u

theorem sameBefore_draw (t : StreamType) (hint : String) : Outcome.Moves (Encoder.SameBefore n) (draw t hint) :=
  fun _ => sameBefore_of_memo_eq rfl

theorem sameBefore_note (e : Event) : Outcome.Moves (Encoder.SameBefore n) (note e) :=
  fun _ => sameBefore_of_memo_eq rfl

theorem sameBefore_memoized {u : Unknown} (hu : u.Recent n) {make : Encoding SymValue} {after : Encoding Unit}
    (hm : Outcome.Moves (Encoder.SameBefore n) make) (ha : Outcome.Moves (Encoder.SameBefore n) after) :
    Outcome.Moves (Encoder.SameBefore n) (memoized u make after) := by
  refine moves_memoized (fun _ => sameBefore_of_memo_eq rfl) (fun _ => sameBefore_of_memo_eq rfl) ?_ hm ha
  intro _ v s' _ u' hu'
  have hne : u ≠ u' := fun h => hu' (h ▸ hu)
  rw [Memo.find?_add, if_neg hne, Option.or_none]

theorem sameBefore_past (registry : Registry) {id o : Int} (ho : -n ≤ o) :
    Outcome.Moves (Encoder.SameBefore n) (past registry id o) := by
  refine moves_past registry sameBefore_draw sameBefore_note fun hn _ _ => sameBefore_memoized ?_
  exact ⟨ho, by omega⟩

theorem sameBefore_input (name : String) (t : StreamType) {o : Int} (ho : -n ≤ o) :
    Outcome.Moves (Encoder.SameBefore n) (input name t o) := by
  refine moves_input t sameBefore_draw fun hn _ _ => sameBefore_memoized ?_
  exact ⟨ho, hn⟩

theorem sameBefore_outside (l : Lookup) : Outcome.Moves (Encoder.SameBefore n) (outside l) := by
  have hu : (Unknown.outside l).Recent n := trivial
  rw [outside_eq]
  exact sameBefore_memoized hu (sameBefore_draw _ _) (Outcome.moves_pure _)

theorem sameBefore_checked (e : Expr) (v : SymValue) : Outcome.Moves (Encoder.SameBefore n) (checked e v) :=
  moves_checked (fun _ _ => sameBefore_of_memo_eq rfl) e v

theorem sameBefore_binary (op : BinaryOp) (x y : SymValue) (t : StreamType) :
    Outcome.Moves (Encoder.SameBefore n) (binary op x y t) :=
  moves_binary sameBefore_outside op x y t

theorem inductive_sameBefore (hl : ∀ id st, registry.find? id = some st → st.buffer.length ≤ n ∧ st.expr.Forward) :
    Inductive registry (fun _ => True)
      (fun e o m => e.Forward → -n ≤ o → Outcome.Moves (Encoder.SameBefore n) m)
      (fun st total m => (∃ id, registry.find? id = some st) → 0 ≤ total → Outcome.Moves (Encoder.SameBefore n) m) where
  future _ _ _ _ _ := Outcome.moves_throw _
  const _ _ _ _ _ := Outcome.moves_lift _
  past t k id o _ _ hf ho := by
    have hk : 0 ≤ k := hf (k, id) (List.mem_singleton_self _)
    exact Outcome.moves_bind (sameBefore_past registry (by omega)) fun _ => sameBefore_checked _ _
  present t k id o m _ hk _ hm _ _ := by
    refine Outcome.moves_bind_lift fun st hst => ?_
    have hst := Registry.get_eq_ok_iff.1 hst
    exact Outcome.moves_bind (hm st hst ⟨id, hst⟩ hk) fun _ => sameBefore_checked _ _
  input t name o _ _ ho := Outcome.moves_bind (sameBefore_input name t ho) fun _ => sameBefore_checked _ _
  unary t op arg field o m _ _ hm hf ho := by
    have hx := hm (fun d hd => hf d (List.mem_append_right _ hd)) ho
    exact Outcome.moves_bind hx fun _ => Outcome.moves_bind_lift fun _ _ => Outcome.moves_bind_lift fun _ _ =>
      sameBefore_checked _ _
  binary t op left right o m n _ _ _ hm hn hf ho := by
    have hx := hm (fun d hd => hf d (List.mem_append_left _ (List.mem_append_right _ hd))) ho
    have hy := hn (fun d hd => hf d (List.mem_append_right _ hd)) ho
    exact Outcome.moves_bind hx fun x => Outcome.moves_bind hy fun y =>
      Outcome.moves_bind (sameBefore_binary op x y t) fun _ => sameBefore_checked _ _
  ternary t op first second third o l m n _ _ _ _ hl hm hn hf ho := by
    have hx := hl (fun d hd => hf d (List.mem_append_left _ (List.mem_append_left _ (List.mem_append_right _ hd)))) ho
    have hy := hm (fun d hd => hf d (List.mem_append_left _ (List.mem_append_right _ hd))) ho
    have hz := hn (fun d hd => hf d (List.mem_append_right _ hd)) ho
    exact Outcome.moves_bind hx fun x => Outcome.moves_bind hy fun y => Outcome.moves_bind hz fun z =>
      Outcome.moves_bind_lift fun _ _ => sameBefore_checked _ _
  refused _ _ _ _ _ _ _ := Outcome.moves_throw _
  exhausted _ _ _ _ := Outcome.moves_throw _
  repeated _ _ _ _ := Outcome.moves_bind (sameBefore_note _) fun _ => Outcome.moves_throw _
  unrolled st total m _ hm := by
    rintro ⟨id, hst⟩ ht
    obtain ⟨hlen, hf⟩ := hl id st hst
    exact Outcome.moves_bind (sameBefore_note _) fun _ => hm hf (by omega)

theorem recent_of_new {streams : List Stream} (hr : Registry.ofStreams streams = .ok registry)
    (hs : ∀ st ∈ streams, st.expr.Forward) {e : Expr} (he : e.Forward) {s : Encoder} {u : Unknown}
    (hold : s.memo.find? u = none) (hnew : ((encode registry e 0).run s).2.memo.find? u ≠ none) :
    u.Recent (longestBuffer streams) := by
  have hl : ∀ id st, registry.find? id = some st → st.buffer.length ≤ longestBuffer streams ∧ st.expr.Forward := by
    intro id st hst
    have hmem := (Registry.find?_ofStreams hr hst).1
    exact ⟨length_le_longestBuffer hmem, hs st hmem⟩
  by_contra hu
  have hsame := (inductive_sameBefore hl).encode (.trivially registry _) e 0 he (by omega) s u hu
  exact hnew (hsame.trans hold)

theorem unrolling_ends {streams : List Stream} (hr : Registry.ofStreams streams = .ok registry) :
    (Contracting registry → ∀ e o s, o ≤ 0 → ∃ r s', (encode registry e o).run s = (r, s') ∧ Outcome.Decides r ∧
      ∃ depth, (encodeTo registry depth e o).run s = (r, s')) ∧
    (∀ e o s,
      ((∀ depth, ((encodeTo registry depth e o).run s).1 = .error .endless) ↔
        ∃ ps p c, Nests registry ⟨e, o, s⟩ (ps ++ [p]) c ∧ p ∈ ps) ∧
      (((encode registry e o).run s).1 = .error .endless ↔
        ∀ depth, ((encodeTo registry depth e o).run s).1 = .error .endless) ∧
      ∀ depth, Outcome.Decides ((encodeTo registry depth e o).run s).1 →
        (encodeTo registry depth e o).run s = (encode registry e o).run s) ∧
    (∀ c id total c', Unrolls registry c (id, total) c' → ∃ st, registry.find? id = some st ∧ c'.expr = st.expr ∧
      -(st.buffer.length : Int) ≤ c'.offset ∧
      (c'.offset ≤ 0 ∨ c'.run registry = (.error (.instantOffset c'.offset), c'.state))) ∧
    (∀ c ps c', Outcome.Decides (c.run registry).1 → Nests registry c ps c' → c'.offset ≤ 0 →
      ps.length ≤ streams.length * (longestBuffer streams + 1)) ∧
    (∀ e s u, (∀ st ∈ streams, st.expr.Forward) → e.Forward → s.memo.find? u = none →
      ((encode registry e 0).run s).2.memo.find? u ≠ none → u.Recent (longestBuffer streams)) := by
  have hid : ∀ id st, registry.find? id = some st → st.id = id := fun id st hst => (Registry.find?_ofStreams hr hst).2
  refine ⟨fun hc e o s _ => ?_, fun e o s => ⟨?_, ?_, ?_⟩, ?_, ?_, ?_⟩
  · have hd := hc.decides hid ⟨e, o, s⟩
    exact ⟨_, _, rfl, hd, _, extends_watched _ [] e o s hd⟩
  · exact endless_iff_repeated (c := ⟨e, o, s⟩) hid
  · exact run_endless_iff (c := ⟨e, o, s⟩) hid
  · intro depth hd
    exact runTo_eq_run (c := ⟨e, o, s⟩) hid hd
  · intro c id total c' h
    exact h.offset_range
  · intro c ps c' hd h ho
    exact Nat.le_trans (length_le_places (fun p hp => h.placed ho hp) (h.nodup hd)) (places_le hr)
  · intro e s u hs he hold hnew
    exact recent_of_new hr hs he hold hnew

def alternation : List Stream :=
  [⟨0, .bool, [.bool true], .drop .bool 0 1⟩, ⟨1, .bool, [], .unary .bool .not (.drop .bool 0 0) (.text "")⟩]

theorem alternation_weight (hr : Registry.ofStreams alternation = .ok registry) {i j w : Int} {ids : List Int}
    (h : Walk registry i ids w j) : 2 * w = j - i - ids.length := by
  induction h with
  | nil i => simp
  | @cons i j k w w' ids step _ ih =>
    obtain ⟨source, mem, found, rfl⟩ := step
    obtain ⟨hs, rfl⟩ := Registry.find?_ofStreams hr source
    obtain ⟨ht, hj⟩ := Registry.find?_ofStreams hr found
    simp only [alternation, List.mem_cons, List.not_mem_nil, or_false] at hs ht
    rcases hs with rfl | rfl
    · obtain ⟨rfl, rfl⟩ := Prod.mk.inj (List.mem_singleton.1 mem)
      rcases ht with rfl | rfl
      · cases hj
      · simp only [List.length_cons, List.length_nil]
        omega
    · obtain ⟨rfl, rfl⟩ := Prod.mk.inj (List.mem_singleton.1 mem)
      rcases ht with rfl | rfl
      · simp only [List.length_cons, List.length_nil]
        omega
      · cases hj

theorem alternation_unrolling_ends : ∃ registry, Registry.ofStreams alternation = .ok registry ∧ Contracting registry ∧
    ∀ e o s, o ≤ 0 → ∃ r s', (encode registry e o).run s = (r, s') ∧ Outcome.Decides r := by
  have hr : Registry.ofStreams alternation = .ok ⟨alternation.map fun st => (st.id, st)⟩ := rfl
  have hc : Contracting ⟨alternation.map fun st => (st.id, st)⟩ := by
    intro i ids w h hne _
    have hw := alternation_weight hr h
    have hpos := List.length_pos_iff.2 hne
    omega
  refine ⟨_, hr, hc, fun e o s ho => ?_⟩
  obtain ⟨r, s', h, hd, _⟩ := (unrolling_ends hr).1 hc e o s ho
  exact ⟨r, s', h, hd⟩

end Encoding

end OneStep
