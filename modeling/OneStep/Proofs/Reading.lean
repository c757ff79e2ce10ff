import OneStep.Proofs.Printed
import OneStep.Proofs.Sessions

namespace OneStep.SExpr

open Text

def Balanced (ts : List Token) : Prop :=
  ts.count .left = ts.count .right ∧ ∀ ps, ps <+: ts → ps.count .right ≤ ps.count .left

def Closes (depth : Nat) (ts : List Token) : Prop :=
  depth + ts.count .left = ts.count .right ∧ ∀ ps, ps <+: ts → ps.count .right ≤ depth + ps.count .left

section

variable {depth : Nat} {t : Token} {ts : List Token}

theorem closes_zero : Closes 0 ts ↔ Balanced ts := by
  simp [Closes, Balanced]

theorem closes_nil : Closes depth [] ↔ depth = 0 := by
  simp [Closes]

theorem closes_cons : Closes depth (t :: ts) ↔ depth + (t :: ts).count .left = (t :: ts).count .right ∧
    ∀ ps, ps <+: ts → (t :: ps).count .right ≤ depth + (t :: ps).count .left := by
  simp only [Closes, List.prefix_cons_iff]
  refine and_congr_right fun _ => ⟨fun h ps hps => h _ (.inr ⟨ps, rfl, hps⟩), ?_⟩
  rintro h ps (rfl | ⟨qs, rfl, hqs⟩)
  · simp
  · exact h qs hqs

theorem closes_left : Closes depth (.left :: ts) ↔ Closes (depth + 1) ts := by
  rw [closes_cons]
  simp [Closes, Nat.add_comm, Nat.add_left_comm]

theorem closes_atom {s : String} : Closes depth (.atom s :: ts) ↔ Closes depth ts := by
  rw [closes_cons]
  simp [Closes]

theorem closes_right : Closes (depth + 1) (.right :: ts) ↔ Closes depth ts := by
  rw [closes_cons]
  simp [Closes, Nat.add_right_comm]

theorem not_closes_right : ¬ Closes 0 (.right :: ts) := by
  intro h
  have := (closes_cons.1 h).2 [] List.nil_prefix
  simp at this

end

theorem isSome_readInto (inner : List SExpr) (outer : List (List SExpr)) (ts : List Token) :
    (readInto inner outer ts).isSome ↔ Closes outer.length ts := by
  induction ts generalizing inner outer with
  | nil => cases outer <;> simp [readInto, closes_nil]
  | cons t ts ih =>
    cases t with
    | left => rw [readInto, ih, closes_left, List.length_cons]
    | atom s => rw [readInto, ih, closes_atom]
    | right =>
      cases outer with
      | nil => simp [readInto, not_closes_right]
      | cons around outer => rw [readInto, ih, List.length_cons, closes_right]

def opened (inner : List SExpr) : List (List SExpr) → List Token
  | [] => flattenItems inner.reverse
  | around :: outer => opened around outer ++ .left :: flattenItems inner.reverse

theorem flattenItems_append (es es' : List SExpr) : flattenItems (es ++ es') = flattenItems es ++ flattenItems es' := by
  induction es with
  | nil => rfl
  | cons e es ih => simp [flattenItems, ih]

theorem opened_cons (e : SExpr) (inner : List SExpr) (outer : List (List SExpr)) :
    opened (e :: inner) outer = opened inner outer ++ flatten e := by
  cases outer <;> simp [opened, flattenItems_append, flattenItems]

theorem flattenItems_readInto {inner es : List SExpr} {outer : List (List SExpr)} {ts : List Token}
    (h : readInto inner outer ts = some es) : flattenItems es = opened inner outer ++ ts := by
  induction ts generalizing inner outer with
  | nil =>
    cases outer with
    | nil =>
      cases h
      simp [opened]
    | cons around outer => cases h
  | cons t ts ih =>
    cases t with
    | left =>
      rw [ih h]
      simp [opened, flattenItems]
    | atom s =>
      rw [ih h, opened_cons]
      simp [flatten]
    | right =>
      cases outer with
      | nil => cases h
      | cons around outer =>
        rw [ih h, opened_cons]
        simp [opened, flatten]

section

variable {c : Char} {a cs : List Char} {ts : List Token}

inductive Spaced : List Token → List Char → Prop
  | nil {b : List Char} (blank : Blank b) : Spaced [] b
  | cons {t : Token} {b cs : List Char} {ts : List Token} (blank : Blank b) (apart : ∀ s, t = .atom s → Apart cs)
      (rest : Spaced ts cs) : Spaced (t :: ts) (b ++ (t.text.toList ++ cs))

theorem Lexes.mem_of_mem_text (h : Lexes cs ts) {t : Token} (ht : t ∈ ts) (hc : c ∈ t.text.toList) : c ∈ cs := by
  induction h with
  | nil => cases ht
  | blank _ _ ih => exact List.mem_cons_of_mem _ (ih ht)
  | left _ ih =>
    rcases List.mem_cons.1 ht with rfl | ht
    · exact List.mem_append_left _ hc
    · exact List.mem_cons_of_mem _ (ih ht)
  | right _ ih =>
    rcases List.mem_cons.1 ht with rfl | ht
    · exact List.mem_append_left _ hc
    · exact List.mem_cons_of_mem _ (ih ht)
  | atom _ _ ih =>
    rcases List.mem_cons.1 ht with rfl | ht
    · rw [Token.text, String.toList_ofList] at hc
      exact List.mem_append_left _ hc
    · exact List.mem_append_right _ (ih ht)

theorem Spaced.exists_text (h : Spaced ts cs) (hc : c ∈ cs) (hb : isBlank c = false) :
    ∃ t ∈ ts, c ∈ t.text.toList := by
  induction h with
  | nil blank => exact absurd (blank c hc) (by simp [hb])
  | cons blank _ _ ih =>
    simp only [List.mem_append] at hc
    rcases hc with hc | hc | hc
    · exact absurd (blank c hc) (by simp [hb])
    · exact ⟨_, List.mem_cons_self .., hc⟩
    · obtain ⟨t, ht, hc⟩ := ih hc
      exact ⟨t, List.mem_cons_of_mem _ ht, hc⟩

theorem AtomBefore.respace {cs' : List Char} (h : AtomBefore cs a) (hapart : Apart cs')
    (hmem : ∀ c ∈ cs', isBlank c = false → c ∈ cs) : AtomBefore cs' a := by
  cases h with
  | barred unbarred => exact .barred unbarred
  | quoted _ => exact .quoted (longest_of_apart hapart)
  | @bare c run plain _ unclosed =>
    refine .bare plain hapart fun hc hm => unclosed hc (List.mem_append.2 ?_)
    exact (List.mem_append.1 hm).imp_right fun hm => hmem c hm (isBlank_of_isPlain (plain c (List.mem_cons_self ..)))

theorem Lexes.respace {cs' : List Char} (h : Lexes cs ts) (hs : Spaced ts cs') : Lexes cs' ts := by
  induction h generalizing cs' with
  | nil =>
    cases hs with
    | nil blank => exact List.append_nil cs' ▸ Lexes.nil.pad blank
  | blank _ _ ih => exact ih hs
  | left _ ih =>
    cases hs with
    | cons blank _ rest => exact .pad blank (.left (ih rest))
  | right _ ih =>
    cases hs with
    | cons blank _ rest => exact .pad blank (.right (ih rest))
  | atom atom hlex ih =>
    cases hs with
    | cons blank apart rest =>
      rw [Token.text, String.toList_ofList]
      refine .pad blank (.atom (atom.respace (apart _ rfl) fun c hc hb => ?_) (ih rest))
      obtain ⟨t, ht, hc⟩ := rest.exists_text hc hb
      exact hlex.mem_of_mem_text ht hc

end

theorem renderItems_eq (items : List SExpr) : renderItems items = " ".intercalate (items.map render) := by
  induction items with
  | nil => simp [renderItems]
  | cons e items ih =>
    cases items with
    | nil => simp [renderItems]
    | cons d items =>
      rw [renderItems, ih]
      · simp
      · simp

theorem Spaced.pad {b cs : List Char} {ts : List Token} (hb : Blank b) (h : Spaced ts cs) : Spaced ts (b ++ cs) := by
  have happend : ∀ {b'}, Blank b' → Blank (b ++ b') := fun hb' c hc => (List.mem_append.1 hc).elim (hb c) (hb' c)
  cases h with
  | nil blank => exact .nil (happend blank)
  | cons blank apart rest =>
    rw [← List.append_assoc]
    exact .cons (happend blank) apart rest

theorem apart_blank {b : List Char} (hb : Blank b) (hne : b ≠ []) (cs : List Char) : Apart (b ++ cs) := by
  cases b with
  | nil => exact absurd rfl hne
  | cons c b =>
    rintro d ⟨⟩
    simp [isPlain, hb c (List.mem_cons_self ..)]

theorem spaced_items {b : String} (hb : Blank b.toList) (hne : b ≠ "") {items : List SExpr}
    (h : ∀ e ∈ items, ∀ {ts cs}, Apart cs → Spaced ts cs → Spaced (flatten e ++ ts) ((render e).toList ++ cs))
    {ts : List Token} {cs : List Char} (ha : Apart cs) (hs : Spaced ts cs) :
    Spaced (flattenItems items ++ ts) ((b.intercalate (items.map render)).toList ++ cs) := by
  induction items with
  | nil => simpa [flattenItems] using hs
  | cons e items ih =>
    obtain ⟨he, hitems⟩ := List.forall_mem_cons.1 h
    cases items with
    | nil => simpa [flattenItems] using he ha hs
    | cons d items =>
      have hrest := he (apart_blank hb (by simpa using hne) _) ((ih hitems).pad hb)
      rw [flattenItems, List.append_assoc, List.map_cons, List.map_cons, String.intercalate_cons_cons]
      simpa using hrest

theorem blank_nil : Blank [] := by
  simp [Blank]

theorem spaced_render (e : SExpr) : ∀ {ts cs}, Apart cs → Spaced ts cs →
    Spaced (flatten e ++ ts) ((render e).toList ++ cs) := by
  induction e using items_induction with
  | atom s =>
    intro ts cs ha hs
    exact .cons blank_nil (fun _ _ => ha) hs
  | list items ih =>
    intro ts cs _ hs
    have hspace : Blank " ".toList := List.all_eq_true.1 (by decide)
    have hclose : Spaced (.right :: ts) (')' :: cs) := .cons blank_nil (by simp) hs
    have hapart : Apart (')' :: cs) := by
      rintro c ⟨⟩
      decide
    have hopen := Spaced.cons (t := .left) blank_nil (by simp) (spaced_items hspace (by decide) ih hapart hclose)
    rw [flatten, render, renderItems_eq]
    simpa [Token.text] using hopen

theorem tokens_rendered {text b : String} {es : List SExpr} (h : tokens text = flattenItems es) (hb : Blank b.toList)
    (hne : b ≠ "") : tokens (b.intercalate (es.map render)) = flattenItems es := by
  have hs : Spaced (flattenItems es ++ []) ((b.intercalate (es.map render)).toList ++ []) :=
    spaced_items hb hne (fun e _ => spaced_render e) (by simp [Apart]) (.nil blank_nil)
  rw [List.append_nil, List.append_nil] at hs
  exact ((lexes_iff.2 h).respace hs).tokensOf_eq

theorem meets_read {text : String} {tops : List SExpr} (h : read? text = some tops) :
    Outcome.Meets (Eq .noName) (Model.read text) := by
  rw [Model.read, h]
  exact Outcome.yields_bind (Model.meets_collect (fun _ _ _ => rfl) []) fun _ _ => trivial

theorem read_eq_unbalanced_iff (text : String) :
    Model.read text = .error (solverFailure "Unbalanced parentheses in solver model" []) ↔ read? text = none := by
  constructor
  · intro h
    cases hr : read? text with
    | none => rfl
    | some tops =>
      have hm := meets_read hr
      rw [h] at hm
      cases hm
  · intro h
    rw [Model.read, h]

theorem reading_exact (text : String) :
    (∀ ts, Lexes text.toList ts ↔ tokens text = ts) ∧
    ((∃ es, read? text = some es) ↔ Balanced (tokens text)) ∧
    (Model.read text = .error (solverFailure "Unbalanced parentheses in solver model" []) ↔
      ¬ Balanced (tokens text)) ∧
    (∀ es, read? text = some es → flattenItems es = tokens text ∧
      ∀ b : String, Blank b.toList → b ≠ "" → read? (b.intercalate (es.map render)) = some es) ∧
    text.toList.count '(' = (tokens text).count .left + (enclosedText (tokens text)).count '(' ∧
    text.toList.count ')' = (tokens text).count .right + (enclosedText (tokens text)).count ')' ∧
    ∀ s, .atom s ∈ tokens text → '(' ∈ s.toList ∨ ')' ∈ s.toList → Encloses s.toList := by
  have hlex : Lexes text.toList (tokens text) := lexes_iff.2 rfl
  have hread : (read? text).isSome ↔ Balanced (tokens text) := (isSome_readInto [] [] _).trans closes_zero
  obtain ⟨hl, hr⟩ := hlex.count_parens
  refine ⟨fun ts => lexes_iff, ?_, ?_, fun es hes => ?_, hl, hr, fun s => hlex.encloses⟩
  · rw [← hread, Option.isSome_iff_exists]
  · rw [read_eq_unbalanced_iff, ← hread, Option.not_isSome_iff_eq_none]
  · have htokens : flattenItems es = tokens text := flattenItems_readInto hes
    exact ⟨htokens, fun b hb hne => read?_of_tokens (tokens_rendered htokens.symm hb hne)⟩

theorem sample_read_again : ∃ es, read? "(x |)(|y \x22(\x22\x22\x22 ) \x22" = some es ∧
    " ".intercalate (es.map render) = "(x |)(| y \x22(\x22\x22\x22) \x22" ∧
    read? "(x |)(| y \x22(\x22\x22\x22) \x22" = some es := by
  have ht : tokens "(x |)(|y \x22(\x22\x22\x22 ) \x22" = flattenItems
      [.list [.atom "x", .atom "|)(|", .atom "y", .atom "\x22(\x22\x22\x22"], .atom "\x22"] := by decide +kernel
  have hspace : Blank " ".toList := List.all_eq_true.1 (by decide)
  have hr := read?_of_tokens ht
  obtain ⟨_, _, _, hes, _⟩ := reading_exact "(x |)(|y \x22(\x22\x22\x22 ) \x22"
  have hagain := (hes _ hr).2 " " hspace (by decide)
  have he : " ".intercalate (List.map render [.list [.atom "x", .atom "|)(|", .atom "y", .atom "\x22(\x22\x22\x22"],
      .atom "\x22"]) = "(x |)(| y \x22(\x22\x22\x22) \x22" := by decide +kernel
  rw [he] at hagain
  exact ⟨_, hr, he, hagain⟩

end OneStep.SExpr
