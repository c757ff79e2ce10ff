import OneStep.Proofs.Freshness
import OneStep.Proofs.Progress

namespace OneStep

inductive Request where
  | past (id offset : Int)
  | input (name : String) (t : StreamType) (offset : Int)
  | outside (element : StreamType) (array index : SymValue)

def Fault.isMissingStream : Fault → Bool
  | .reported (.missingStream _) => true
  | _ => false

namespace Request

variable {registry : Registry} {r : Request} {s : Encoder}

def ask (registry : Registry) : Request → Encoding SymValue
  | .past id o => Encoding.past registry id o
  | .input name t o => Encoding.input name t o
  | .outside element array index => Encoding.outsideOf element array index

def unknown? : Request → Option Unknown
  | .past id o => if 0 ≤ o then none else some (.past id o)
  | .input name _ o => if 0 < o then none else some (.input name o)
  | .outside element array (.scalar s t) => some (.outside ⟨element, array, s.kind, t⟩)
  | .outside _ _ _ => none

def type? (registry : Registry) : Request → Option StreamType
  | .past id _ => (registry.find? id).map (·.type)
  | .input _ t _ => some t
  | .outside element _ _ => some element

def hint : Request → String
  | .past id o => Encoding.pastHint id o
  | .input name _ o => Encoding.inputHint name o
  | .outside .. => "index_out_of_range"

def names (registry : Registry) : Request → List String
  | .past id _ => (registry.find? id).elim [] (·.type.names)
  | .input name t _ => name :: t.names
  | .outside element _ _ => element.names

def numbers : Request → List Int
  | .past id o => [id, o]
  | .input _ _ o => [o]
  | .outside .. => []

structure Sayable (registry : Registry) (r : Request) : Prop where
  known : ∀ t, r.type? registry = some t → t.isKnown = true
  named : ∀ name ∈ r.names registry, Text.Avoids Text.isHalf name
  written : ∀ n ∈ r.numbers, Text.isWritable n = true

theorem avoids_hint {bad : Char → Bool} (hb : Text.Unprinted bad)
    (h : ∀ name ∈ r.names registry, Text.Avoids bad name) {t : StreamType} (ht : r.type? registry = some t) :
    Supply.Avoids bad t r.hint := by
  cases r with
  | past id o =>
    obtain ⟨st, hst, rfl⟩ := Option.map_eq_some_iff.1 ht
    rw [names, hst] at h
    exact Supply.avoids_pastHint hb id o h
  | input name t o =>
    cases ht
    exact Supply.avoids_inputHint hb o (h name (List.mem_cons_self ..)) fun n hn => h n (List.mem_cons_of_mem _ hn)
  | outside element array index =>
    cases ht
    exact Supply.avoids_outsideHint hb h

def drawing (registry : Registry) : Request → Except Fault (StreamType × String)
  | .past id o => do
    let st ← registry.get id
    let stream ← writeInt id
    let offset ← writeInt o
    return (st.type, s!"s{stream}_{offset}")
  | .input name t o => do
    let offset ← writeInt o
    return (t, s!"{name}_{offset}")
  | .outside element _ _ => return (element, "index_out_of_range")

theorem drawing_ok {t : StreamType} {hint : String} (h : r.drawing registry = .ok (t, hint)) :
    r.type? registry = some t ∧ hint = r.hint := by
  cases r with
  | past id o =>
    obtain ⟨st, hst, h⟩ := Outcome.bind_eq_ok_iff.1 h
    obtain ⟨_, hid, h⟩ := Outcome.bind_eq_ok_iff.1 h
    obtain ⟨_, ho, h⟩ := Outcome.bind_eq_ok_iff.1 h
    cases h
    rw [Encoding.writeInt_eq_ok hid, Encoding.writeInt_eq_ok ho]
    exact ⟨by rw [type?, Registry.get_eq_ok_iff.1 hst]; rfl, rfl⟩
  | input name t o =>
    obtain ⟨_, ho, h⟩ := Outcome.bind_eq_ok_iff.1 h
    cases h
    rw [Encoding.writeInt_eq_ok ho]
    exact ⟨rfl, rfl⟩
  | outside element array index =>
    cases h
    exact ⟨rfl, rfl⟩

theorem drawing_error {f : Fault} (hw : ∀ n ∈ r.numbers, Text.isWritable n = true)
    (h : r.drawing registry = .error f) : f.isMissingStream = true := by
  cases r with
  | past id o =>
    have hid := Encoding.writeInt_of_isWritable (hw id (List.mem_cons_self ..))
    have ho := Encoding.writeInt_of_isWritable (hw o (List.mem_cons_of_mem _ (List.mem_cons_self ..)))
    rw [drawing, Registry.get, hid, ho] at h
    split at h <;> cases h
    rfl
  | input name t o =>
    rw [drawing, Encoding.writeInt_of_isWritable (hw o (List.mem_cons_self ..))] at h
    cases h
  | outside element array index => cases h

def make (registry : Registry) (r : Request) : Encoding SymValue := do
  let (t, hint) ← r.drawing registry
  Encoding.draw t hint

def record : Request → Encoding Unit
  | .past id o => Encoding.note (.pastSymbol id o)
  | _ => pure ()

theorem ask_eq {u : Unknown} (h : r.unknown? = some u) :
    r.ask registry = Encoding.memoized u (r.make registry) r.record := by
  cases r with
  | past id o =>
    rw [unknown?] at h
    split at h <;> cases h
    next ho =>
    rw [ask, Encoding.past_eq, if_neg ho]
    congr 1
    rw [Encoding.drawPast, make, drawing]
    cases registry.get id <;> cases writeInt id <;> cases writeInt o <;> rfl
  | input name t o =>
    rw [unknown?] at h
    split at h <;> cases h
    next ho =>
    rw [ask, Encoding.input_eq, if_neg ho]
    congr 1
    rw [Encoding.drawInput, make, drawing]
    cases writeInt o <;> rfl
  | outside element array index =>
    cases index <;> cases h
    rfl

theorem ask_refused (registry : Registry) (h : r.unknown? = none) :
    ∃ f, f.isMissingStream = false ∧ r.ask registry = throw f := by
  cases r with
  | past id o =>
    rw [unknown?] at h
    split at h <;> cases h
    next ho => exact ⟨.pastOffset o, rfl, by rw [ask, Encoding.past_eq, if_pos ho]⟩
  | input name t o =>
    rw [unknown?] at h
    split at h <;> cases h
    next ho => exact ⟨.inputOffset o, rfl, by rw [ask, Encoding.input_eq, if_pos ho]⟩
  | outside element array index =>
    cases index <;> cases h <;> exact ⟨.noTerm, rfl, rfl⟩

theorem run_make (registry : Registry) (r : Request) (s : Encoder) :
    (r.make registry).run s = match r.drawing registry with
      | .ok (t, hint) => (Encoding.draw t hint).run s
      | .error f => (.error f, s) := by
  rw [make]
  cases r.drawing registry <;> rfl

inductive Answered (registry : Registry) (r : Request) (s : Encoder) : Except Fault SymValue × Encoder → Prop where
  | refused {f : Fault} (asked : r.unknown? = none) (other : f.isMissingStream = false) :
    Answered registry r s (.error f, s)
  | recalled {u : Unknown} {v : SymValue} (asked : r.unknown? = some u) (found : s.memo.find? u = some v) :
    Answered registry r s (.ok v, s.met)
  | drawn {u : Unknown} {t : StreamType} {v : SymValue} {supply supply' : Supply} (asked : r.unknown? = some u)
    (missing : s.memo.find? u = none) (type : r.type? registry = some t)
    (draw : (Supply.draw t r.hint).run s.supply = (.ok v, supply)) (count_eq : supply'.count = supply.count) :
    Answered registry r s (.ok v, { s with supply := supply', memo := s.missed.memo.add v u })
  | failed {u : Unknown} {f : Fault} {supply : Supply} (asked : r.unknown? = some u)
    (missing : s.memo.find? u = none) (count_le : s.supply.count ≤ supply.count)
    (reason : r.Sayable registry → f.isMissingStream = true) :
    Answered registry r s (.error f, { s.missed with supply })

theorem answered_ask (registry : Registry) (r : Request) (s : Encoder) :
    Answered registry r s ((r.ask registry).run s) := by
  cases hu : r.unknown? with
  | none =>
    obtain ⟨f, hf, h⟩ := ask_refused registry hu
    rw [h]
    exact .refused hu hf
  | some u =>
    rw [ask_eq hu, Encoding.run_memoized]
    cases hm : s.memo.find? u with
    | some v => exact .recalled hu hm
    | none =>
      rw [run_make]
      cases hd : r.drawing registry with
      | error f => exact .failed hu hm (Nat.le_refl _) fun h => drawing_error h.written hd
      | ok d =>
        obtain ⟨t, hint⟩ := d
        obtain ⟨ht, rfl⟩ := drawing_ok hd
        have hc := Supply.count_le_draw t r.hint s.supply
        rcases hr : (Supply.draw t r.hint).run s.supply with ⟨f | v, supply⟩
        · rw [hr] at hc
          simp only [Encoding.run_draw, Encoder.missed, hr]
          refine .failed hu hm hc fun h => ?_
          obtain ⟨v, supply, hv⟩ := Supply.exists_draw (h.known t ht) (avoids_hint Text.isHalf_unprinted h.named ht)
            s.supply
          cases hr.symm.trans hv
        · simp only [Encoding.run_draw, Encoder.missed, hr]
          cases r with
          | past id o =>
            let noted : Supply := { supply with journal := .pastSymbol id o :: supply.journal }
            exact .drawn hu hm ht hr (rfl : noted.count = supply.count)
          | input name t o => exact .drawn hu hm ht hr rfl
          | outside element array index => exact .drawn hu hm ht hr rfl

end Request

theorem Table.nodup_keys_add {κ ν : Type} [BEq κ] [LawfulBEq κ] {t : Table κ ν} {key : κ} (v : ν)
    (h : t.keys.Nodup) (hn : t.find? key = none) : (t.add key v).keys.Nodup := by
  simp only [find?, Option.map_eq_none_iff, List.find?_eq_none, beq_iff_eq] at hn
  simp only [keys, add, List.map_append, List.map_cons, List.map_nil]
  refine List.nodup_append.2 ⟨h, List.nodup_singleton key, fun k hk k' hk' => ?_⟩
  obtain ⟨p, hp, rfl⟩ := List.mem_map.1 hk
  cases List.mem_singleton.1 hk'
  exact hn p hp

namespace Memo

structure Extends (m m' : Memo) : Prop where
  past : m.past.entries <+: m'.past.entries
  inputs : m.inputs.entries <+: m'.inputs.entries
  lookups : m.lookups.entries <+: m'.lookups.entries

structure SameTables (m m' : Memo) : Prop where
  past : m'.past = m.past
  inputs : m'.inputs = m.inputs
  lookups : m'.lookups = m.lookups

structure Distinct (m : Memo) : Prop where
  past : m.past.keys.Nodup
  inputs : m.inputs.keys.Nodup
  lookups : m.lookups.keys.Nodup

variable {m m' : Memo} {u : Unknown} {v : SymValue}

instance : IsPreorder Memo Extends where
  refl _ := ⟨List.prefix_rfl, List.prefix_rfl, List.prefix_rfl⟩
  trans _ _ _ h h' := ⟨h.past.trans h'.past, h.inputs.trans h'.inputs, h.lookups.trans h'.lookups⟩

theorem Extends.find? (h : m.Extends m') (hv : m.find? u = some v) : m'.find? u = some v := by
  cases u <;> obtain ⟨p, hp, rfl⟩ := Option.map_eq_some_iff.1 hv
  · exact Option.map_eq_some_iff.2 ⟨p, h.past.find?_eq_some hp, rfl⟩
  · exact Option.map_eq_some_iff.2 ⟨p, h.inputs.find?_eq_some hp, rfl⟩
  · exact Option.map_eq_some_iff.2 ⟨p, h.lookups.find?_eq_some hp, rfl⟩

theorem extends_add (m : Memo) (v : SymValue) (u : Unknown) : m.Extends (m.add v u) := by
  cases u <;> constructor <;> first | exact List.prefix_rfl | exact List.prefix_append ..

theorem Distinct.add (h : m.Distinct) (v : SymValue) (hn : m.find? u = none) : (m.add v u).Distinct := by
  cases u with
  | past id o => exact ⟨Table.nodup_keys_add v h.past hn, h.inputs, h.lookups⟩
  | input name o => exact ⟨h.past, Table.nodup_keys_add v h.inputs hn, h.lookups⟩
  | outside l => exact ⟨h.past, h.inputs, Table.nodup_keys_add v h.lookups hn⟩

@[simp]
theorem hits_add (m : Memo) (v : SymValue) (u : Unknown) : (m.add v u).hits = m.hits := by
  cases u <;> rfl

@[simp]
theorem misses_add (m : Memo) (v : SymValue) (u : Unknown) : (m.add v u).misses = m.misses := by
  cases u <;> rfl

@[simp]
theorem size_add (m : Memo) (v : SymValue) (u : Unknown) : (m.add v u).size = m.size + 1 := by
  cases u <;> simp [size, add, Table.size, Table.add] <;> omega

end Memo

namespace Request.Answered

variable {registry : Registry} {r : Request} {s : Encoder} {x : Except Fault SymValue × Encoder} {u : Unknown}
  {v : SymValue}

theorem memo_extends (h : r.Answered registry s x) : s.memo.Extends x.2.memo := by
  cases h with
  | @drawn u _ v =>
    have ha := Memo.extends_add s.missed.memo v u
    exact ⟨ha.past, ha.inputs, ha.lookups⟩
  | _ => exact ⟨List.prefix_rfl, List.prefix_rfl, List.prefix_rfl⟩

theorem memo_distinct (h : r.Answered registry s x) (hs : s.memo.Distinct) : x.2.memo.Distinct := by
  have hm : s.missed.memo.Distinct := ⟨hs.past, hs.inputs, hs.lookups⟩
  cases h with
  | drawn _ missing => exact hm.add _ missing
  | _ => exact ⟨hs.past, hs.inputs, hs.lookups⟩

theorem count_le (h : r.Answered registry s x) : s.supply.count ≤ x.2.supply.count := by
  cases h with
  | @drawn _ t _ _ _ _ _ _ draw count_eq =>
    have hc := Supply.count_le_draw t r.hint s.supply
    rw [draw] at hc
    exact Nat.le_trans hc count_eq.ge
  | failed _ _ count_le => exact count_le
  | _ => exact Nat.le_refl _

theorem sameTables (h : r.Answered registry s x) {f : Fault} (hx : x.1 = .error f) : s.memo.SameTables x.2.memo := by
  cases h with
  | refused => exact ⟨rfl, rfl, rfl⟩
  | failed => exact ⟨rfl, rfl, rfl⟩
  | _ => cases hx

theorem found (h : r.Answered registry s x) (hx : x.1 = .ok v) :
    ∃ u, r.unknown? = some u ∧ x.2.memo.find? u = some v := by
  cases h with
  | recalled asked found =>
    cases hx
    exact ⟨_, asked, found⟩
  | drawn asked missing =>
    cases hx
    refine ⟨_, asked, ?_⟩
    rw [Memo.find?_add, if_pos rfl]
    exact congrArg (Option.or · _) missing
  | _ => cases hx

theorem held_or_drawn (h : r.Answered registry s x) (hv : x.2.memo.find? u = some v) :
    s.memo.find? u = some v ∨ r.unknown? = some u ∧ x.1 = .ok v ∧ ∃ t supply, r.type? registry = some t ∧
      (Supply.draw t r.hint).run s.supply = (.ok v, supply) ∧ x.2.supply.count = supply.count := by
  cases h with
  | drawn asked missing type draw count_eq =>
    rcases Memo.found_or_added hv with hv | ⟨rfl, rfl⟩
    · exact .inl hv
    · exact .inr ⟨asked, rfl, _, _, type, draw, count_eq⟩
  | _ => exact .inl hv

theorem hits_add_misses (h : r.Answered registry s x) :
    x.2.memo.hits + x.2.memo.misses = s.memo.hits + s.memo.misses + if r.unknown?.isSome then 1 else 0 := by
  cases h with
  | refused asked => simp [asked]
  | recalled asked => simp [asked, Encoder.met, Nat.add_right_comm]
  | drawn asked => simp [asked, Encoder.missed, Nat.add_assoc]
  | failed asked => simp [asked, Encoder.missed, Nat.add_assoc]

theorem misses_add_size (h : r.Answered registry s x) : x.2.memo.misses + s.memo.size =
    s.memo.misses + x.2.memo.size + if r.unknown?.isSome && !x.1.isOk then 1 else 0 := by
  have hm : s.missed.memo.misses = s.memo.misses + 1 := rfl
  have hs : s.missed.memo.size = s.memo.size := rfl
  cases h with
  | refused asked => simp [asked]
  | recalled asked => simp [Encoder.met, Memo.size, Except.isOk, Except.toBool]
  | drawn asked => simp [hm, hs, Except.isOk, Except.toBool, Nat.add_assoc, Nat.add_comm 1]
  | failed asked => simp [asked, hm, hs, Except.isOk, Except.toBool, Nat.add_right_comm]

theorem lacksStream (h : r.Answered registry s x) (hr : r.Sayable registry) :
    (r.unknown?.isSome && !x.1.isOk) = match x.1 with
      | .ok _ => false
      | .error f => f.isMissingStream := by
  cases h with
  | refused asked other => simp [asked, other]
  | recalled => simp [Except.isOk, Except.toBool]
  | drawn => simp [Except.isOk, Except.toBool]
  | failed asked _ _ reason => simp [asked, reason hr, Except.isOk, Except.toBool]

end Request.Answered

structure Memos where
  supply : Supply := {}
  memo : Nat → Memo := fun _ => {}

structure Answer where
  memo : Nat
  request : Request
  result : Except Fault SymValue

namespace Answer

def isPlaced (n : Nat) (a : Answer) : Bool :=
  a.memo == n && a.request.unknown?.isSome

def isFailed (n : Nat) (a : Answer) : Bool :=
  a.isPlaced n && !a.result.isOk

def lacksStream (n : Nat) (a : Answer) : Bool :=
  a.memo == n && match a.result with
    | .ok _ => false
    | .error f => f.isMissingStream

structure Gives (registry : Registry) (n : Nat) (u : Unknown) (v : SymValue) (a : Answer) : Prop where
  memo : a.memo = n
  asked : a.request.unknown? = some u
  result : a.result = .ok v
  typed : ∃ t, a.request.type? registry = some t ∧ v.Conforms t

end Answer

namespace Memos

variable {registry : Registry} {m : Memos} {n k : Nat} {r : Request} {u : Unknown} {v : SymValue}
  {calls : List (Nat × Request)}

def run (registry : Registry) (m : Memos) (n : Nat) (r : Request) : Except Fault SymValue × Encoder :=
  (r.ask registry).run { supply := m.supply, memo := m.memo n }

def answer (registry : Registry) (m : Memos) (n : Nat) (r : Request) : Answer :=
  ⟨n, r, (m.run registry n r).1⟩

def next (registry : Registry) (m : Memos) (n : Nat) (r : Request) : Memos :=
  let s := (m.run registry n r).2
  { supply := s.supply, memo := Function.update m.memo n s.memo }

def after (registry : Registry) : Memos → List (Nat × Request) → Memos
  | m, [] => m
  | m, (n, r) :: calls => (m.next registry n r).after registry calls

def answers (registry : Registry) : Memos → List (Nat × Request) → List Answer
  | _, [] => []
  | m, (n, r) :: calls => m.answer registry n r :: (m.next registry n r).answers registry calls

theorem answered (registry : Registry) (m : Memos) (n : Nat) (r : Request) :
    r.Answered registry { supply := m.supply, memo := m.memo n } (m.run registry n r) :=
  Request.answered_ask registry r _

theorem memo_next_self (registry : Registry) (m : Memos) (n : Nat) (r : Request) :
    (m.next registry n r).memo n = (m.run registry n r).2.memo :=
  Function.update_self ..

theorem memo_next_of_ne (h : k ≠ n) : (m.next registry n r).memo k = m.memo k :=
  Function.update_of_ne h ..

theorem memo_next {P : Memo → Memo → Prop} (hp : ∀ memo, P memo memo)
    (h : P (m.memo n) (m.run registry n r).2.memo) (k : Nat) : P (m.memo k) ((m.next registry n r).memo k) := by
  by_cases hk : k = n
  · subst hk
    rw [memo_next_self]
    exact h
  · rw [memo_next_of_ne hk]
    exact hp (m.memo k)

theorem extends_after (registry : Registry) (m : Memos) (calls : List (Nat × Request)) (k : Nat) :
    (m.memo k).Extends ((m.after registry calls).memo k) := by
  induction calls generalizing m with
  | nil => exact refl (m.memo k)
  | cons c calls ih =>
    exact Trans.trans (memo_next (P := Memo.Extends) refl (answered registry m c.1 c.2).memo_extends k) (ih _)

theorem result_of_found (hu : r.unknown? = some u) (hv : (m.memo n).find? u = some v) :
    (m.run registry n r).1 = .ok v := by
  rw [run, Request.ask_eq hu, Encoding.run_memoized]
  simp only [hv]

theorem result_again (h : (m.run registry n r).1 = .ok v) {r' : Request} (hr : r'.unknown? = r.unknown?)
    (more : List (Nat × Request)) : (((m.next registry n r).after registry more).run registry n r').1 = .ok v := by
  obtain ⟨u, hu, hv⟩ := (answered registry m n r).found h
  refine result_of_found (hr.trans hu) ((extends_after registry _ more n).find? ?_)
  rw [memo_next_self]
  exact hv

theorem distinct_after (registry : Registry) {m : Memos} (h : ∀ n, (m.memo n).Distinct)
    (calls : List (Nat × Request)) (n : Nat) : ((m.after registry calls).memo n).Distinct := by
  induction calls generalizing m with
  | nil => exact h n
  | cons c calls ih =>
    have hc := (answered registry m c.1 c.2).memo_distinct
    exact ih fun k => memo_next (P := fun a b => a.Distinct → b.Distinct) (fun _ => id) hc k (h k)

theorem held_or_drawn (h : ((m.next registry n r).memo k).find? u = some v) :
    (m.memo k).find? u = some v ∨ n = k ∧ r.unknown? = some u ∧ (m.run registry n r).1 = .ok v ∧
      ∃ t supply, r.type? registry = some t ∧ (Supply.draw t r.hint).run m.supply = (.ok v, supply) ∧
        (m.next registry n r).supply.count = supply.count := by
  by_cases hk : k = n
  · subst hk
    rw [memo_next_self] at h
    exact ((answered registry m k r).held_or_drawn h).imp_right fun h => ⟨rfl, h⟩
  · rw [memo_next_of_ne hk] at h
    exact .inl h

theorem held_or_given (h : ((m.after registry calls).memo k).find? u = some v) :
    (m.memo k).find? u = some v ∨ ∃ a ∈ m.answers registry calls, a.Gives registry k u v := by
  induction calls generalizing m with
  | nil => exact .inl h
  | cons c calls ih =>
    rcases ih h with h | ⟨a, ha, hg⟩
    · rcases held_or_drawn h with h | ⟨hk, hu, hx, t, supply, ht, hd, _⟩
      · exact .inl h
      · exact .inr ⟨_, List.mem_cons_self .., hk, hu, hx, t, ht, Supply.conforms_of_draw hd⟩
    · exact .inr ⟨a, List.mem_cons_of_mem _ ha, hg⟩

structure Apart (m : Memos) : Prop where
  drawn : ∀ n u v, (m.memo n).find? u = some v → ∃ low, v.DrawnBetween low m.supply.count
  disjoint : ∀ n u v n' u' v', (m.memo n).find? u = some v → (m.memo n').find? u' = some v' → (n, u) ≠ (n', u') →
    v.names.Disjoint v'.names

theorem Apart.next (h : m.Apart) (hz : ∀ name ∈ r.names registry, Text.Avoids isZero name) (n : Nat) :
    (m.next registry n r).Apart := by
  have hm : SymValue.Apart (fun (k : Nat × Unknown) v => (m.memo k.1).find? k.2 = some v) m.supply.count :=
    ⟨fun k => h.drawn k.1 k.2, fun k v k' v' => h.disjoint k.1 k.2 v k'.1 k'.2 v'⟩
  have hd (k : Nat × Unknown) (v : SymValue) (hv : ((m.next registry n r).memo k.1).find? k.2 = some v) :
      (m.memo k.1).find? k.2 = some v ∨
        (n = k.1 ∧ r.unknown? = some k.2) ∧ v.DrawnBetween m.supply.count (m.next registry n r).supply.count := by
    refine (held_or_drawn hv).imp_right ?_
    rintro ⟨hk, hu, _, t, supply, ht, hd, hc⟩
    exact ⟨⟨hk, hu⟩, hc ▸ Supply.drawnBetween_of_draw (Request.avoids_hint isZero_unprinted hz ht) hd⟩
  have hn (k k' : Nat × Unknown) (hk : n = k.1 ∧ r.unknown? = some k.2) (hk' : n = k'.1 ∧ r.unknown? = some k'.2) :
      k = k' :=
    Prod.ext (hk.1.symm.trans hk'.1) (Option.some.inj (hk.2.symm.trans hk'.2))
  have hm' := hm.extend (answered registry m n r).count_le hd hn
  exact ⟨fun k u => hm'.drawn (k, u), fun k u v k' u' v' => hm'.disjoint (k, u) v (k', u') v'⟩

theorem Apart.after (h : m.Apart) (hz : ∀ c ∈ calls, ∀ name ∈ c.2.names registry, Text.Avoids isZero name) :
    (m.after registry calls).Apart := by
  induction calls generalizing m with
  | nil => exact h
  | cons c calls ih =>
    obtain ⟨hc, hz⟩ := List.forall_mem_cons.1 hz
    exact ih (h.next hc c.1) hz

theorem isPlaced_answer : (m.answer registry n r).isPlaced k = (n == k && r.unknown?.isSome) :=
  rfl

theorem isFailed_answer : (m.answer registry n r).isFailed k =
    (n == k && (r.unknown?.isSome && !(m.run registry n r).1.isOk)) :=
  Bool.and_assoc ..

theorem isFailed_eq_lacksStream (h : r.Sayable registry) :
    (m.answer registry n r).isFailed k = (m.answer registry n r).lacksStream k := by
  rw [isFailed_answer, (answered registry m n r).lacksStream h]
  rfl

theorem hits_add_misses_next (registry : Registry) (m : Memos) (n : Nat) (r : Request) (k : Nat) :
    ((m.next registry n r).memo k).hits + ((m.next registry n r).memo k).misses =
      (m.memo k).hits + (m.memo k).misses + if (m.answer registry n r).isPlaced k then 1 else 0 := by
  rw [isPlaced_answer]
  by_cases hk : n = k
  · subst hk
    rw [memo_next_self, (answered registry m n r).hits_add_misses, beq_self_eq_true, Bool.true_and]
  · rw [memo_next_of_ne (Ne.symm hk), beq_false_of_ne hk]
    rfl

theorem misses_add_size_next (registry : Registry) (m : Memos) (n : Nat) (r : Request) (k : Nat) :
    ((m.next registry n r).memo k).misses + (m.memo k).size = (m.memo k).misses +
      ((m.next registry n r).memo k).size + if (m.answer registry n r).isFailed k then 1 else 0 := by
  rw [isFailed_answer]
  by_cases hk : n = k
  · subst hk
    rw [memo_next_self, (answered registry m n r).misses_add_size, beq_self_eq_true, Bool.true_and]
  · rw [memo_next_of_ne (Ne.symm hk), beq_false_of_ne hk]
    rfl

theorem hits_add_misses_after (registry : Registry) (m : Memos) (calls : List (Nat × Request)) (k : Nat) :
    ((m.after registry calls).memo k).hits + ((m.after registry calls).memo k).misses =
      (m.memo k).hits + (m.memo k).misses + (m.answers registry calls).countP (·.isPlaced k) := by
  induction calls generalizing m with
  | nil => rfl
  | cons c calls ih =>
    have hn := hits_add_misses_next registry m c.1 c.2 k
    rw [after, answers, ih, List.countP_cons]
    omega

theorem misses_add_size_after (registry : Registry) (m : Memos) (calls : List (Nat × Request)) (k : Nat) :
    ((m.after registry calls).memo k).misses + (m.memo k).size = (m.memo k).misses +
      ((m.after registry calls).memo k).size + (m.answers registry calls).countP (·.isFailed k) := by
  induction calls generalizing m with
  | nil => rfl
  | cons c calls ih =>
    have ih := ih (m.next registry c.1 c.2)
    have hn := misses_add_size_next registry m c.1 c.2 k
    rw [after, answers, List.countP_cons]
    omega

theorem countP_isFailed {m : Memos} (hs : ∀ c ∈ calls, c.2.Sayable registry) :
    (m.answers registry calls).countP (·.isFailed k) = (m.answers registry calls).countP (·.lacksStream k) := by
  induction calls generalizing m with
  | nil => rfl
  | cons c calls ih =>
    obtain ⟨hc, hs⟩ := List.forall_mem_cons.1 hs
    rw [answers, List.countP_cons, List.countP_cons, ih hs, isFailed_eq_lacksStream hc]

theorem sameTables_next {f : Fault} (h : (m.run registry n r).1 = .error f) (k : Nat) :
    (m.memo k).SameTables ((m.next registry n r).memo k) :=
  memo_next (P := Memo.SameTables) (fun _ => ⟨rfl, rfl, rfl⟩) ((answered registry m n r).sameTables h) k

theorem apart_empty : ({} : Memos).Apart := by
  have hn (u : Unknown) : ({} : Memo).find? u = none := by cases u <;> rfl
  constructor
  · intro n u v hv
    cases (hn u).symm.trans hv
  · intro n u v n' u' v' hv
    cases (hn u).symm.trans hv

theorem memos_disciplined (registry : Registry) (calls : List (Nat × Request)) :
    let m := ({} : Memos).after registry calls
    let answers := ({} : Memos).answers registry calls
    -- what has succeeded gives the same value for ever, and no entry is replaced or taken away
    (∀ n r v, (m.run registry n r).1 = .ok v → ∀ more r', r'.unknown? = r.unknown? →
      (((m.next registry n r).after registry more).run registry n r').1 = .ok v) ∧
    (∀ n more, (m.memo n).Distinct ∧ (m.memo n).Extends ((m.after registry more).memo n)) ∧
    -- each value has the shape of the type asked for, and symbols of its own for all of its leaves
    (∀ n u v, (m.memo n).find? u = some v → ∃ a ∈ answers, a.Gives registry n u v) ∧
    ((∀ c ∈ calls, ∀ name ∈ c.2.names registry, '\x00' ∉ name.toList) →
      (∀ n u v, (m.memo n).find? u = some v → v.IsFresh) ∧
      ∀ n u v n' u' v', (m.memo n).find? u = some v → (m.memo n').find? u' = some v' → (n, u) ≠ (n', u') →
        v.names.Disjoint v'.names) ∧
    -- entries, hits and misses account for what was asked
    (∀ n, (m.memo n).hits + (m.memo n).misses = answers.countP (·.isPlaced n)) ∧
    (∀ n, (m.memo n).size + answers.countP (·.isFailed n) = (m.memo n).misses) ∧
    ((∀ c ∈ calls, c.2.Sayable registry) →
      ∀ n, (m.memo n).size + answers.countP (·.lacksStream n) = (m.memo n).misses) ∧
    ∀ n r f, (m.run registry n r).1 = .error f → ∀ k, (m.memo k).SameTables ((m.next registry n r).memo k) := by
  intro m answers
  have hz : ({} : Memo).Distinct := ⟨List.nodup_nil, List.nodup_nil, List.nodup_nil⟩
  have hsize (n : Nat) : (m.memo n).size + answers.countP (·.isFailed n) = (m.memo n).misses := by
    have h := misses_add_size_after registry {} calls n
    simpa [Memo.size, Table.size] using h.symm
  refine ⟨fun n r v h more r' hr => result_again h hr more,
    fun n more => ⟨distinct_after registry (fun _ => hz) calls n, extends_after registry m more n⟩,
    fun n u v hv => ?_, fun hnames => ?_, fun n => ?_, hsize, fun hs n => ?_,
    fun n r f h k => sameTables_next h k⟩
  · rcases held_or_given hv with h | h
    · cases u <;> cases h
    · exact h
  · have ha := apart_empty.after fun c hc name hn => avoids_isZero.2 (hnames c hc name hn)
    refine ⟨fun n u v hv => ?_, ha.disjoint⟩
    obtain ⟨low, hd⟩ := ha.drawn n u v hv
    exact hd.isFresh
  · have h := hits_add_misses_after registry {} calls n
    simpa using h
  · rw [← countP_isFailed hs]
    exact hsize n

def feedbackCalls : List (Nat × Request) :=
  [(0, .past 0 (-1)), (1, .past 0 (-1)), (0, .past 7 (-1)), (0, .past 0 0), (0, .input "x" (.array 2 .bool) 0)]

theorem sayable_feedbackCalls : ∀ c ∈ feedbackCalls, c.2.Sayable ⟨[(0, feedback 0)]⟩ := by
  have hk : ∀ c ∈ feedbackCalls, (c.2.type? ⟨[(0, feedback 0)]⟩).all StreamType.isKnown = true := by decide
  have hn : ∀ c ∈ feedbackCalls, ∀ name ∈ c.2.names ⟨[(0, feedback 0)]⟩, Text.hasHalves name = false := by decide
  have hw : ∀ c ∈ feedbackCalls, ∀ n ∈ c.2.numbers, n.natAbs < 10 := by decide
  intro c hc
  exact ⟨fun t ht => by simpa [ht] using hk c hc, fun name h => Text.avoids_isHalf.2 (hn c hc name h),
    fun n h => Encoding.isWritable_digit (hw c hc n h)⟩

theorem feedback_memos_disciplined :
    let registry : Registry := ⟨[(0, feedback 0)]⟩
    let m := ({} : Memos).after registry feedbackCalls
    (∀ c ∈ feedbackCalls, ∀ name ∈ c.2.names registry, '\x00' ∉ name.toList) ∧
    (∀ c ∈ feedbackCalls, c.2.Sayable registry) ∧
    (∀ u v u' v', (m.memo 0).find? u = some v → (m.memo 1).find? u' = some v' → v.names.Disjoint v'.names) ∧
    (m.memo 0).size + (({} : Memos).answers registry feedbackCalls).countP (·.lacksStream 0) = (m.memo 0).misses := by
  intro registry m
  have hz : ∀ c ∈ feedbackCalls, ∀ name ∈ c.2.names registry, '\x00' ∉ name.toList := by decide
  obtain ⟨_, _, _, hd, _, _, hm, _⟩ := memos_disciplined registry feedbackCalls
  exact ⟨hz, sayable_feedbackCalls, fun u v u' v' hv hv' => (hd hz).2 0 u v 1 u' v' hv hv' (by simp),
    hm sayable_feedbackCalls 0⟩

theorem next_input (registry : Registry) (m : Memos) (n : Nat) (name : String)
    (hh : Text.hasHalves (Supply.hintText (Encoding.inputHint name 0)) = false)
    (hn : (m.memo n).find? (.input name 0) = none) :
    ((m.next registry n (.input name .bool 0)).memo n).find? (.input name 0) =
        some (m.supply.symbolFor (Encoding.inputHint name 0) .bool) ∧
      (m.next registry n (.input name .bool 0)).supply.count = m.supply.count + 1 := by
  have hr := Encoding.run_input_new name .bool (s := { supply := m.supply, memo := m.memo n }) (Int.le_refl 0)
    (Encoding.isWritable_digit (by decide)) hh hn
  obtain ⟨u, hu, hv⟩ := (answered registry m n (.input name .bool 0)).found (congrArg Prod.fst hr)
  cases hu
  refine ⟨?_, congrArg (fun x => x.2.supply.count) hr⟩
  rw [memo_next_self]
  exact hv

theorem zero_in_names_joins_unknowns :
    let m := ({} : Memos).after {} [(0, .input "k\x00 1" .bool 0), (0, .input "k\x00 2" .bool 0)]
    ∃ v v', (m.memo 0).find? (.input "k\x00 1" 0) = some v ∧ (m.memo 0).find? (.input "k\x00 2" 0) = some v' ∧
      ¬ v.names.Disjoint v'.names := by
  obtain ⟨h₁, hc⟩ := next_input {} {} 0 "k\x00 1" (by decide) rfl
  have hn : ((({} : Memos).next {} 0 (.input "k\x00 1" .bool 0)).memo 0).find? (.input "k\x00 2" 0) = none := by
    refine Option.eq_none_iff_forall_ne_some.2 fun v hv => ?_
    rcases held_or_drawn hv with h | ⟨_, hu, _⟩
    · cases h
    · exact absurd hu (by decide)
  obtain ⟨h₂, _⟩ := next_input {} _ 0 "k\x00 2" (by decide) hn
  refine ⟨_, _, (extends_after {} _ [(0, .input "k\x00 2" .bool 0)] 0).find? h₁, h₂, ?_⟩
  have hs : Symbol.ofHint (Supply.hintText (Encoding.inputHint "k\x00 1" 0)) 0 =
      Symbol.ofHint (Supply.hintText (Encoding.inputHint "k\x00 2" 0)) (0 + 1) := by decide +kernel
  rw [Supply.symbolFor, Supply.symbolFor, hc]
  exact fun hd => hd (List.mem_singleton_self _) (List.mem_singleton.2 (congrArg Symbol.name hs))

end Memos

end OneStep
