import OneStep.Proofs.Lexing

namespace OneStep.SExpr

open Text

theorem items_induction {motive : SExpr → Prop} (atom : ∀ s, motive (.atom s))
    (list : ∀ items, (∀ e ∈ items, motive e) → motive (.list items)) (e : SExpr) : motive e :=
  @SExpr.rec motive (fun items => ∀ e ∈ items, motive e) atom list (by simp)
    (fun _ _ he hs => List.forall_mem_cons.2 ⟨he, hs⟩) e

inductive IsAtom : List Char → Prop
  | bare {c : Char} {cs : List Char} (plain : ∀ d ∈ c :: cs, isPlain d = true) (unbarred : c ≠ '|')
      (unquoted : c ≠ '\x22') : IsAtom (c :: cs)
  | barred {body : List Char} (unbarred : '|' ∉ body) : IsAtom ('|' :: (body ++ ['|']))
  | quoted (body : List Char) : IsAtom ('\x22' :: (doubled body ++ ['\x22']))

theorem IsAtom.before {a cs : List Char} (h : IsAtom a) (hcs : Apart cs) : AtomBefore cs a := by
  cases h with
  | bare plain unbarred unquoted => exact .bare plain hcs fun hc => absurd hc (not_or.2 ⟨unbarred, unquoted⟩)
  | barred unbarred => exact .barred unbarred
  | quoted body => exact .quoted (longest_of_apart hcs)

inductive Prints : List Token → List Char → Prop
  | nil {b : List Char} (blank : Blank b) : Prints [] b
  | left {b cs : List Char} {ts : List Token} (blank : Blank b) (rest : Prints ts cs) :
      Prints (.left :: ts) (b ++ '(' :: cs)
  | right {b cs : List Char} {ts : List Token} (blank : Blank b) (rest : Prints ts cs) :
      Prints (.right :: ts) (b ++ ')' :: cs)
  | atom {b a cs : List Char} {ts : List Token} (blank : Blank b) (isAtom : IsAtom a) (apart : Apart cs)
      (rest : Prints ts cs) : Prints (.atom (String.ofList a) :: ts) (b ++ (a ++ cs))

theorem Prints.lexes {ts : List Token} {cs : List Char} (h : Prints ts cs) : Lexes cs ts := by
  induction h with
  | @nil b blank => exact List.append_nil b ▸ Lexes.nil.pad blank
  | left blank _ ih => exact .pad blank (.left ih)
  | right blank _ ih => exact .pad blank (.right ih)
  | atom blank isAtom apart _ ih => exact .pad blank (.atom (isAtom.before apart) ih)

theorem Prints.tokensOf_eq {ts : List Token} {cs : List Char} (h : Prints ts cs) : tokensOf cs = ts :=
  h.lexes.tokensOf_eq

theorem readInto_items {items : List SExpr} (h : ∀ e ∈ items, ∀ inner outer rest,
      readInto inner outer (flatten e ++ rest) = readInto (e :: inner) outer rest)
    (inner : List SExpr) (outer : List (List SExpr)) (rest : List Token) :
    readInto inner outer (flattenItems items ++ rest) = readInto (items.reverse ++ inner) outer rest := by
  induction items generalizing inner with
  | nil => rfl
  | cons e items ih =>
    obtain ⟨he, hs⟩ := List.forall_mem_cons.1 h
    rw [flattenItems, List.append_assoc, he, ih hs, List.reverse_cons, List.append_assoc]
    rfl

theorem readInto_flatten (e : SExpr) : ∀ inner outer rest,
    readInto inner outer (flatten e ++ rest) = readInto (e :: inner) outer rest := by
  induction e using items_induction with
  | atom s => exact fun _ _ _ => rfl
  | list items ih =>
    intro inner outer rest
    rw [flatten, List.append_assoc, List.cons_append, readInto, readInto_items ih, List.append_nil]
    simp [readInto]

theorem read?_of_tokens {tops : List SExpr} {text : String} (h : tokens text = flattenItems tops) :
    read? text = some tops := by
  have hr := readInto_items (fun e (_ : e ∈ tops) => readInto_flatten e) [] [] []
  rw [List.append_nil, List.append_nil] at hr
  rw [read?, h, hr]
  simp [readInto]

theorem read?_of_prints {tops : List SExpr} {text : String} (h : Prints (flattenItems tops) text.toList) :
    read? text = some tops :=
  read?_of_tokens h.tokensOf_eq

def Token.text : Token → String
  | .left => "("
  | .right => ")"
  | .atom s => s

def gap : Token → Token → String
  | .left, _ => ""
  | _, .right => ""
  | _, _ => " "

def spell : List Token → String
  | [] => ""
  | [t] => t.text
  | t :: u :: ts => t.text ++ gap t u ++ spell (u :: ts)

def spaceBefore : List Token → String
  | [] | .right :: _ => ""
  | _ => " "

theorem spell_cons {t : Token} (ht : t ≠ .left) (ts : List Token) :
    spell (t :: ts) = t.text ++ (spaceBefore ts ++ spell ts) := by
  cases ts with
  | nil => simp [spell, spaceBefore]
  | cons u ts =>
    have hg : gap t u = spaceBefore (u :: ts) := by
      cases t with
      | left => exact absurd rfl ht
      | right => cases u <;> rfl
      | atom s => cases u <;> rfl
    rw [spell, hg, String.append_assoc]

theorem spaceBefore_flatten (e : SExpr) (ts : List Token) : spaceBefore (flatten e ++ ts) = " " := by
  cases e with
  | atom s => rfl
  | list items => simp [flatten, spaceBefore]

theorem spell_items {items : List SExpr}
    (h : ∀ e ∈ items, ∀ ts, spell (flatten e ++ ts) = render e ++ (spaceBefore ts ++ spell ts)) (ts : List Token) :
    spell (flattenItems items ++ .right :: ts) = renderItems items ++ spell (.right :: ts) := by
  induction items with
  | nil => simp [flattenItems, renderItems]
  | cons e items ih =>
    obtain ⟨he, hs⟩ := List.forall_mem_cons.1 h
    rw [flattenItems, List.append_assoc, he, ih hs]
    cases items with
    | nil => simp [flattenItems, renderItems, spaceBefore]
    | cons d items =>
      have hr : renderItems (e :: d :: items) = render e ++ " " ++ renderItems (d :: items) := by simp [renderItems]
      rw [flattenItems, List.append_assoc, spaceBefore_flatten, hr, String.append_assoc, String.append_assoc]

theorem spell_flatten (e : SExpr) : ∀ ts, spell (flatten e ++ ts) = render e ++ (spaceBefore ts ++ spell ts) := by
  induction e using items_induction with
  | atom s =>
    intro ts
    exact spell_cons (by simp) ts
  | list items ih =>
    intro ts
    have hopen : ∀ us, spell (.left :: us) = "(" ++ spell us := by
      intro us
      cases us with
      | nil => simp [spell, Token.text]
      | cons u us => simp [spell, gap, Token.text]
    rw [flatten, List.append_assoc, List.cons_append, hopen, List.singleton_append, spell_items ih,
      spell_cons (by simp), render, String.append_assoc, String.append_assoc]
    rfl

theorem render_eq (e : SExpr) : render e = spell (flatten e) := by
  have h := spell_flatten e []
  simpa [spell, spaceBefore] using h.symm

def laid (pieces : List (String × Token)) : List Char :=
  pieces.flatMap fun p => p.1.toList ++ p.2.text.toList

def isWord : List Char → Bool
  | [] => false
  | c :: cs =>
    if c = '|' then cs.getLast? == some '|' && !cs.dropLast.contains '|' else c != '\x22' && (c :: cs).all isPlain

theorem isAtom_of_isWord {cs : List Char} (h : isWord cs = true) : IsAtom cs := by
  cases cs with
  | nil => cases h
  | cons c cs =>
    rw [isWord] at h
    split at h
    · next hc =>
      simp only [Bool.and_eq_true, beq_iff_eq, Bool.not_eq_true', List.contains_eq_mem, decide_eq_false_iff_not] at h
      obtain ⟨body, rfl⟩ := List.getLast?_eq_some_iff.1 h.1
      rw [List.dropLast_concat] at h
      rw [hc]
      exact .barred h.2
    · next hc =>
      simp only [Bool.and_eq_true, bne_iff_ne, List.all_eq_true] at h
      exact .bare h.2 hc h.1

def isLaid : List (String × Token) → Bool
  | [] => true
  | (b, t) :: rest => b.toList.all isBlank && isLaid rest &&
    match t with
    | .atom s => isWord s.toList && (laid rest).head?.all fun c => !isPlain c
    | _ => true

theorem prints_laid {pieces : List (String × Token)} (h : isLaid pieces = true) :
    Prints (pieces.map (·.2)) (laid pieces) := by
  induction pieces with
  | nil => exact .nil (by simp [Blank, laid])
  | cons p pieces ih =>
    obtain ⟨b, t⟩ := p
    simp only [isLaid, Bool.and_eq_true, List.all_eq_true] at h
    obtain ⟨⟨hb, hrest⟩, ht⟩ := h
    have hl : laid ((b, t) :: pieces) = b.toList ++ (t.text.toList ++ laid pieces) := by simp [laid]
    rw [hl]
    cases t with
    | left => exact .left hb (ih hrest)
    | right => exact .right hb (ih hrest)
    | atom s =>
      obtain ⟨hw, hnext⟩ := Bool.and_eq_true_iff.1 ht
      have ha : Apart (laid pieces) := by
        intro c hc
        simpa [Option.mem_def.1 hc] using hnext
      have hp := Prints.atom hb (isAtom_of_isWord hw) ha (ih hrest)
      rwa [String.ofList_toList] at hp

mutual

def map (f : String → String) : SExpr → SExpr
  | .atom s => .atom (f s)
  | .list items => .list (mapItems f items)

def mapItems (f : String → String) : List SExpr → List SExpr
  | [] => []
  | e :: items => map f e :: mapItems f items

end

theorem mapItems_eq (f : String → String) (items : List SExpr) : mapItems f items = items.map (map f) := by
  induction items with
  | nil => rfl
  | cons e items ih => rw [mapItems, ih, List.map_cons]

theorem readInto_map (f : String → String) (inner : List SExpr) (outer : List (List SExpr)) (ts : List Token) :
    readInto (inner.map (map f)) (outer.map (List.map (map f))) (ts.map (Token.map f)) =
      (readInto inner outer ts).map (List.map (map f)) := by
  induction ts generalizing inner outer with
  | nil => cases outer <;> simp [readInto]
  | cons t ts ih =>
    cases t with
    | left => exact ih [] (inner :: outer)
    | atom s => exact ih (.atom s :: inner) outer
    | right =>
      cases outer with
      | nil => rfl
      | cons around outer =>
        rw [List.map_cons, List.map_cons, Token.map, readInto, readInto, ← ih]
        · simp [map, mapItems_eq]
        · simp

theorem read?_congr {text text' : String} {gap gap' : Bool}
    (h : squeeze [] gap text.toList = squeeze [] gap' text'.toList) :
    (read? text).map (List.map (map squeezed)) = (read? text').map (List.map (map squeezed)) := by
  have ht : (tokens text).map (Token.map squeezed) = (tokens text').map (Token.map squeezed) := by
    have := congrArg tokensOf h
    rwa [tokensOf_squeeze, tokensOf_squeeze] at this
  have hr := readInto_map squeezed [] [] (tokens text)
  rw [ht] at hr
  exact hr.symm.trans (readInto_map squeezed [] [] (tokens text'))

end OneStep.SExpr
