import OneStep.Solver.SExpr

namespace OneStep

namespace Text

def Blank (b : List Char) : Prop :=
  ∀ c ∈ b, isBlank c = true

def squeeze (last : List Char) (gap : Bool) : List Char → List Char
  | [] => if gap then last else []
  | c :: cs =>
    if isBlank c then squeeze last true cs
    else if gap then ' ' :: c :: squeeze last false cs
    else c :: squeeze last false cs

variable {last : List Char} {gap : Bool} {c : Char} {cs b : List Char}

@[simp] theorem squeeze_nil : squeeze last gap [] = if gap then last else [] := rfl

theorem squeeze_blank (h : isBlank c = true) : squeeze last gap (c :: cs) = squeeze last true cs :=
  if_pos h

theorem squeeze_false (h : isBlank c = false) : squeeze last false (c :: cs) = c :: squeeze last false cs :=
  if_neg (ne_true_of_eq_false h)

theorem squeeze_true (h : isBlank c = false) : squeeze last true (c :: cs) = ' ' :: c :: squeeze last false cs :=
  if_neg (ne_true_of_eq_false h)

theorem squeeze_append (x : List Char) (h : isBlank c = false) (y : List Char) (last' : List Char) :
    squeeze last gap (x ++ c :: y) = squeeze last' gap (x ++ [c]) ++ squeeze last false y := by
  induction x generalizing gap with
  | nil => cases gap <;> simp [squeeze_false h, squeeze_true h]
  | cons d x ih =>
    cases hd : isBlank d with
    | true => simp only [List.cons_append, squeeze_blank hd, ih]
    | false =>
      cases gap with
      | false => simp only [List.cons_append, squeeze_false hd, ih]
      | true => simp only [List.cons_append, squeeze_true hd, ih]

theorem squeeze_gap (hb : Blank b) (hne : b ≠ []) : squeeze last gap (b ++ cs) = squeeze last true cs := by
  induction b generalizing gap with
  | nil => exact absurd rfl hne
  | cons c b ih =>
    rw [List.cons_append, squeeze_blank (hb c (List.mem_cons_self ..))]
    cases b with
    | nil => rfl
    | cons d b => exact ih (fun c hc => hb c (List.mem_cons_of_mem _ hc)) (List.cons_ne_nil _ _)

theorem squeeze_append_gap (gap : Bool) (x : List Char) (hb : Blank b) (hne : b ≠ []) (y : List Char) :
    squeeze [] gap (x ++ (b ++ y)) = squeeze [] gap x ++ squeeze [] true y := by
  induction x generalizing gap with
  | nil => rw [List.nil_append, squeeze_gap hb hne]; simp
  | cons d x ih =>
    cases hd : isBlank d with
    | true => simp only [List.cons_append, squeeze_blank hd, ih]
    | false =>
      cases gap with
      | false => simp only [List.cons_append, squeeze_false hd, ih]
      | true => simp only [List.cons_append, squeeze_true hd, ih]

theorem squeeze_of_solid (h : ∀ c ∈ cs, isBlank c = false) : squeeze last false cs = cs := by
  induction cs with
  | nil => simp
  | cons c cs ih =>
    rw [squeeze_false (h c (List.mem_cons_self ..)), ih fun c hc => h c (List.mem_cons_of_mem _ hc)]

theorem eq_of_squeeze_solid {w : List Char} (hw : ∀ c ∈ w, isBlank c = false)
    (h : squeeze [' '] gap cs = w) : gap = false ∧ cs = w := by
  induction cs generalizing gap w with
  | nil =>
    cases gap with
    | false => exact ⟨rfl, h⟩
    | true =>
      subst h
      exact absurd (hw ' ' (List.mem_singleton.2 rfl)) (by decide)
  | cons c cs ih =>
    cases hc : isBlank c with
    | true =>
      rw [squeeze_blank hc] at h
      cases (ih hw h).1
    | false =>
      cases gap with
      | true =>
        rw [squeeze_true hc] at h
        subst h
        exact absurd (hw ' ' (List.mem_cons_self ..)) (by decide)
      | false =>
        rw [squeeze_false hc] at h
        subst h
        rw [← (ih (fun c hm => hw c (List.mem_cons_of_mem _ hm)) rfl).2]
        exact ⟨rfl, rfl⟩

theorem squeeze_true_eq (cs : List Char) : squeeze [] true cs = [] ∨ ∃ rest, squeeze [] true cs = ' ' :: rest := by
  induction cs with
  | nil => exact .inl rfl
  | cons c cs ih =>
    cases hc : isBlank c with
    | true => rwa [squeeze_blank hc]
    | false => exact .inr ⟨_, squeeze_true hc⟩

end Text

namespace SExpr

open Text

@[simp] def closeBar : List Char → Option (List Char × List Char)
  | [] => none
  | c :: rest => if c = '|' then some ([c], rest) else (closeBar rest).map fun r => (c :: r.1, r.2)

@[simp] def closeQuote : List Char → Option (List Char × List Char)
  | [] => none
  | '\x22' :: '\x22' :: rest =>
    some (((closeQuote rest).map fun r => ('\x22' :: '\x22' :: r.1, r.2)).getD (['\x22'], '\x22' :: rest))
  | c :: rest => if c = '\x22' then some ([c], rest) else (closeQuote rest).map fun r => (c :: r.1, r.2)

theorem bar?_eq (done cs : List Char) : bar? done cs = (closeBar cs).map fun r => (done.reverse ++ r.1, r.2) := by
  induction cs generalizing done with
  | nil => rfl
  | cons c cs ih =>
    by_cases hc : c = '|'
    · simp [bar?, hc]
    · simp [bar?, hc, ih, Function.comp_def]

theorem quote?_eq (done : List Char) (last : Option (List Char × List Char)) (cs : List Char) :
    quote? done last cs = ((closeQuote cs).map fun r => (done.reverse ++ r.1, r.2)).or last := by
  fun_induction quote? done last cs with
  | case1 => rfl
  | case2 done last rest ih =>
    rw [ih, closeQuote]
    cases closeQuote rest <;> simp
  | case3 done last rest hne =>
    rw [closeQuote, if_pos rfl]
    · simp
    · exact hne
  | case4 done last c rest hne hc ih =>
    rw [closeQuote, if_neg hc, ih]
    · simp [Function.comp_def]
    · exact hne

theorem closeBar_squeeze (gap : Bool) (cs : List Char) :
    closeBar (squeeze [] gap cs) = (closeBar cs).map fun r => (squeeze [] gap r.1, squeeze [] false r.2) := by
  induction cs generalizing gap with
  | nil => simp
  | cons c cs ih =>
    cases hc : isBlank c with
    | true =>
      have hne : c ≠ '|' := by
        rintro rfl
        cases hc
      simp only [squeeze_blank hc, closeBar, if_neg hne, ih, Option.map_map, Function.comp_def]
    | false =>
      by_cases hbar : c = '|'
      · subst hbar
        cases gap <;> simp [squeeze_false hc, squeeze_true hc]
      · cases gap with
        | false => simp [squeeze_false hc, hbar, ih, Function.comp_def]
        | true => simp [squeeze_true hc, hbar, ih, Function.comp_def]

theorem squeeze_ne_cons {cs : List Char} {d : Char} (hd : isBlank d = false) (h : ∀ rest, cs ≠ d :: rest)
    (rest : List Char) : squeeze [] false cs ≠ d :: rest := by
  cases cs with
  | nil => simp
  | cons c cs =>
    cases hc : isBlank c with
    | true =>
      rw [squeeze_blank hc]
      rcases squeeze_true_eq cs with he | ⟨_, he⟩
      · simp [he]
      · rw [he]
        rintro ⟨⟩
        cases hd
    | false =>
      rw [squeeze_false hc]
      rintro ⟨⟩
      exact h cs rfl

theorem closeQuote_of_ne {c : Char} (h : c ≠ '\x22') (rest : List Char) :
    closeQuote (c :: rest) = (closeQuote rest).map fun r => (c :: r.1, r.2) := by
  rw [closeQuote, if_neg h]
  exact fun _ hc => absurd hc h

theorem closeQuote_lone {rest : List Char} (h : ∀ r, rest ≠ '\x22' :: r) :
    closeQuote ('\x22' :: rest) = some (['\x22'], rest) := by
  rw [closeQuote, if_pos rfl]
  exact fun r _ hr => h r hr

theorem closeQuote_squeeze (gap : Bool) (cs : List Char) :
    closeQuote (squeeze [] gap cs) = (closeQuote cs).map fun r => (squeeze [] gap r.1, squeeze [] false r.2) := by
  have hq : isBlank '\x22' = false := by decide
  fun_induction closeQuote cs generalizing gap with
  | case1 => simp
  | case2 rest ih =>
    cases gap with
    | false =>
      rw [squeeze_false hq, squeeze_false hq, closeQuote, ih]
      cases closeQuote rest <;> simp [squeeze_false hq]
    | true =>
      rw [squeeze_true hq, squeeze_false hq, closeQuote_of_ne (by decide), closeQuote, ih]
      cases closeQuote rest <;> simp [squeeze_false hq, squeeze_true hq]
  | case3 rest hne =>
    have hlone := closeQuote_lone (squeeze_ne_cons hq fun r hr => hne r rfl hr)
    cases gap with
    | false => simp [squeeze_false hq, hlone]
    | true => simp [squeeze_true hq, hlone]
  | case4 c rest hne hc ih =>
    cases hb : isBlank c with
    | true => simp [squeeze_blank hb, ih, Function.comp_def]
    | false =>
      cases gap with
      | false => simp [squeeze_false hb, closeQuote_of_ne hc, ih, Function.comp_def]
      | true => simp [squeeze_true hb, hc, ih, Function.comp_def]

theorem closeBar_split {cs body rest : List Char} (h : closeBar cs = some (body, rest)) :
    cs = body ++ rest ∧ ∃ x, body = x ++ ['|'] := by
  induction cs generalizing body with
  | nil => cases h
  | cons c cs ih =>
    by_cases hc : c = '|'
    · subst hc
      simp only [closeBar, if_true] at h
      cases h
      exact ⟨rfl, [], rfl⟩
    · simp only [closeBar, if_neg hc] at h
      obtain ⟨r, hr, he⟩ := Option.map_eq_some_iff.1 h
      cases he
      obtain ⟨rfl, x, hx⟩ := ih hr
      exact ⟨rfl, c :: x, by rw [hx]; rfl⟩

theorem closeQuote_split {cs body rest : List Char} (h : closeQuote cs = some (body, rest)) :
    cs = body ++ rest ∧ ∃ x, body = x ++ ['\x22'] := by
  fun_induction closeQuote cs generalizing body with
  | case1 => cases h
  | case2 cs ih =>
    cases hr : closeQuote cs with
    | none =>
      rw [hr] at h
      cases h
      exact ⟨rfl, [], rfl⟩
    | some r =>
      rw [hr] at h
      cases h
      obtain ⟨he, x, hx⟩ := ih hr
      exact ⟨by rw [he]; rfl, '\x22' :: '\x22' :: x, by rw [hx]; rfl⟩
  | case3 cs _ =>
    cases h
    exact ⟨rfl, [], rfl⟩
  | case4 c cs _ _ ih =>
    obtain ⟨r, hr, he⟩ := Option.map_eq_some_iff.1 h
    cases he
    obtain ⟨rfl, x, hx⟩ := ih hr
    exact ⟨rfl, c :: x, by rw [hx]; rfl⟩

def closed (c : Char) (rest : List Char) : Option (List Char × List Char) :=
  if c = '|' then closeBar rest else if c = '\x22' then closeQuote rest else none

theorem atomAt_eq (c : Char) (rest : List Char) :
    atomAt c rest = ((closed c rest).map fun r => (c :: r.1, r.2)).getD
      (c :: rest.takeWhile isPlain, rest.dropWhile isPlain) := by
  unfold atomAt closed
  by_cases hb : c = '|'
  · simp [hb, bar?_eq]
  · by_cases hq : c = '\x22'
    · simp [hq, quote?_eq]
    · simp [hb, hq]

theorem isBlank_of_isPlain {c : Char} (h : isPlain c = true) : isBlank c = false := by
  simp only [isPlain, Bool.and_eq_true, Bool.not_eq_true'] at h
  exact h.1.1

theorem closed_split {c : Char} {cs body rest : List Char} (h : closed c cs = some (body, rest)) :
    cs = body ++ rest ∧ ∃ x d, isBlank d = false ∧ body = x ++ [d] := by
  unfold closed at h
  split at h
  · obtain ⟨he, x, hx⟩ := closeBar_split h
    exact ⟨he, x, '|', by decide, hx⟩
  · split at h
    · obtain ⟨he, x, hx⟩ := closeQuote_split h
      exact ⟨he, x, '\x22', by decide, hx⟩
    · cases h

theorem closed_squeeze (c : Char) (cs : List Char) :
    closed c (squeeze [] false cs) = (closed c cs).map fun r => (squeeze [] false r.1, squeeze [] false r.2) := by
  unfold closed
  split
  · exact closeBar_squeeze false cs
  · split
    · exact closeQuote_squeeze false cs
    · rfl

theorem atomAt_split {c : Char} (hc : isBlank c = false) (rest : List Char) : ∃ x d,
    isBlank d = false ∧ (atomAt c rest).1 = x ++ [d] ∧ c :: rest = x ++ d :: (atomAt c rest).2 := by
  rw [atomAt_eq]
  cases h : closed c rest with
  | none =>
    have hne : c :: rest.takeWhile isPlain ≠ [] := List.cons_ne_nil _ _
    have he := List.dropLast_concat_getLast hne
    refine ⟨_, _, ?_, he.symm, ?_⟩
    · rcases List.mem_cons.1 (List.getLast_mem hne) with hd | hd
      · rw [hd]
        exact hc
      · exact isBlank_of_isPlain (List.all_eq_true.1 List.all_takeWhile _ hd)
    · rw [List.append_cons, he]
      simp
  | some r =>
    obtain ⟨he, x, d, hd, hx⟩ := closed_split h
    refine ⟨c :: x, d, hd, by simp [hx], ?_⟩
    rw [he, hx]
    simp

theorem plain_squeeze (cs : List Char) : (squeeze [] false cs).takeWhile isPlain = cs.takeWhile isPlain ∧
    (squeeze [] false cs).dropWhile isPlain = squeeze [] false (cs.dropWhile isPlain) := by
  induction cs with
  | nil => simp
  | cons c cs ih =>
    cases hp : isPlain c with
    | true => simp [squeeze_false (isBlank_of_isPlain hp), hp, ih]
    | false =>
      cases hc : isBlank c with
      | false => simp [squeeze_false hc, hp]
      | true =>
        have hs : isPlain ' ' = false := by decide
        rcases squeeze_true_eq cs with he | ⟨rest, he⟩ <;> simp [squeeze_blank hc, hp, he, hs]

theorem atomAt_squeeze {c : Char} (hc : isBlank c = false) (rest : List Char) :
    atomAt c (squeeze [] false rest) =
      (squeeze [' '] false (atomAt c rest).1, squeeze [] false (atomAt c rest).2) := by
  rw [atomAt_eq, atomAt_eq, closed_squeeze]
  cases h : closed c rest with
  | none =>
    have hs : ∀ d ∈ c :: rest.takeWhile isPlain, isBlank d = false := by
      intro d hd
      rcases List.mem_cons.1 hd with rfl | hd
      · exact hc
      · exact isBlank_of_isPlain (List.all_eq_true.1 List.all_takeWhile _ hd)
    obtain ⟨ht, hd⟩ := plain_squeeze rest
    simp [ht, hd, squeeze_of_solid hs]
  | some r =>
    obtain ⟨_, x, d, hd, hx⟩ := closed_split h
    have he : squeeze [' '] false r.1 = squeeze [] false r.1 := by
      rw [hx, squeeze_append x hd [] []]
      simp
    simp [squeeze_false hc, he]

def tokensOf (cs : List Char) : List Token :=
  tokensWithin cs.length cs

theorem length_atomAt {c : Char} (hc : isBlank c = false) (rest : List Char) :
    (atomAt c rest).2.length ≤ rest.length := by
  obtain ⟨x, d, _, _, he⟩ := atomAt_split hc rest
  have := congrArg List.length he
  simp only [List.length_cons, List.length_append] at this
  omega

theorem tokensWithin_congr {fuel fuel' : Nat} {cs : List Char} (h : cs.length ≤ fuel) (h' : cs.length ≤ fuel') :
    tokensWithin fuel cs = tokensWithin fuel' cs := by
  induction fuel generalizing fuel' cs with
  | zero =>
    obtain rfl := List.length_eq_zero_iff.1 (Nat.le_zero.1 h)
    cases fuel' <;> rfl
  | succ fuel ih =>
    cases cs with
    | nil => cases fuel' <;> rfl
    | cons c cs =>
      obtain ⟨fuel', rfl⟩ := Nat.exists_eq_add_of_lt (Nat.lt_of_lt_of_le (Nat.succ_pos _) h')
      rw [Nat.zero_add] at h' ⊢
      have hrest : ∀ rest : List Char, rest.length ≤ cs.length → tokensWithin fuel rest = tokensWithin fuel' rest :=
        fun rest hr => ih (Nat.le_trans hr (Nat.le_of_succ_le_succ h)) (Nat.le_trans hr (Nat.le_of_succ_le_succ h'))
      simp only [tokensWithin, hrest cs (Nat.le_refl _)]
      cases hb : isBlank c with
      | true => simp
      | false => simp only [hrest _ (length_atomAt hb cs)]

section

variable {c : Char} {cs : List Char}

theorem tokensOf_nil : tokensOf [] = [] := rfl

theorem tokensOf_left : tokensOf ('(' :: cs) = .left :: tokensOf cs := rfl

theorem tokensOf_right : tokensOf (')' :: cs) = .right :: tokensOf cs := rfl

theorem tokensOf_blank (h : isBlank c = true) : tokensOf (c :: cs) = tokensOf cs := by
  have hl : c ≠ '(' := by
    rintro rfl
    cases h
  have hr : c ≠ ')' := by
    rintro rfl
    cases h
  simp only [tokensOf, List.length_cons, tokensWithin, if_neg hl, if_neg hr, h, if_true]

theorem tokensOf_atom (hc : isBlank c = false) (hl : c ≠ '(') (hr : c ≠ ')') :
    tokensOf (c :: cs) = .atom (String.ofList (atomAt c cs).1) :: tokensOf (atomAt c cs).2 := by
  simp only [tokensOf, List.length_cons, tokensWithin, if_neg hl, if_neg hr, hc, Bool.false_eq_true, if_false]
  rw [tokensWithin_congr (length_atomAt hc cs) (Nat.le_refl _)]

end

def Token.map (f : String → String) : Token → Token
  | .atom s => .atom (f s)
  | t => t

def squeezed (s : String) : String :=
  String.ofList (squeeze [' '] false s.toList)

theorem tokensOf_squeeze (gap : Bool) (cs : List Char) :
    tokensOf (squeeze [] gap cs) = (tokensOf cs).map (Token.map squeezed) := by
  induction hn : cs.length using Nat.strongRecOn generalizing gap cs with
  | _ n ih =>
    subst hn
    cases cs with
    | nil => simp [tokensOf_nil]
    | cons c cs =>
      have hrest : ∀ (rest : List Char) gap, rest.length ≤ cs.length →
          tokensOf (squeeze [] gap rest) = (tokensOf rest).map (Token.map squeezed) :=
        fun rest gap hr => ih rest.length (Nat.lt_succ_of_le hr) gap rest rfl
      cases hc : isBlank c with
      | true => rw [squeeze_blank hc, tokensOf_blank hc, hrest cs true (Nat.le_refl _)]
      | false =>
        have hgap : tokensOf (squeeze [] gap (c :: cs)) = tokensOf (c :: squeeze [] false cs) := by
          cases gap with
          | false => rw [squeeze_false hc]
          | true => rw [squeeze_true hc, tokensOf_blank (by decide)]
        rw [hgap]
        by_cases hl : c = '('
        · subst hl
          rw [tokensOf_left, tokensOf_left, hrest cs false (Nat.le_refl _)]
          rfl
        by_cases hr : c = ')'
        · subst hr
          rw [tokensOf_right, tokensOf_right, hrest cs false (Nat.le_refl _)]
          rfl
        rw [tokensOf_atom hc hl hr, tokensOf_atom hc hl hr, atomAt_squeeze hc, hrest _ false (length_atomAt hc cs)]
        simp [Token.map, squeezed]

end SExpr

end OneStep
