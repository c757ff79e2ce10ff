import OneStep.Proofs.Tokens

namespace OneStep.SExpr

open Text

def doubled (s : List Char) : List Char :=
  s.flatMap fun c => if c = '\x22' then [c, c] else [c]

-- a string can often be closed in several places, as a quote is also half of a doubled one: it ends at the last of them
def Longest (body rest : List Char) : Prop :=
  ∀ body' rest', doubled body ++ '\x22' :: rest = doubled body' ++ '\x22' :: rest' → rest.length ≤ rest'.length

def Apart (cs : List Char) : Prop :=
  ∀ c ∈ cs.head?, isPlain c = false

section

variable {c : Char} {cs body rest : List Char}

theorem doubled_quote (body : List Char) : doubled ('\x22' :: body) = '\x22' :: '\x22' :: doubled body := rfl

theorem doubled_cons (h : c ≠ '\x22') (body : List Char) : doubled (c :: body) = c :: doubled body := by
  simp [doubled, h]

theorem string_cases (h : c :: cs = doubled body ++ '\x22' :: rest) :
    c = '\x22' ∧ body = [] ∧ cs = rest ∨
    c = '\x22' ∧ (∃ b, body = '\x22' :: b ∧ cs = '\x22' :: (doubled b ++ '\x22' :: rest)) ∨
    c ≠ '\x22' ∧ ∃ b, body = c :: b ∧ cs = doubled b ++ '\x22' :: rest := by
  cases body with
  | nil =>
    obtain ⟨hc, hcs⟩ := List.cons.inj h
    exact .inl ⟨hc, rfl, hcs⟩
  | cons d b =>
    by_cases hd : d = '\x22'
    · subst hd
      obtain ⟨hc, hcs⟩ := List.cons.inj h
      exact .inr (.inl ⟨hc, b, rfl, hcs⟩)
    · rw [doubled_cons hd] at h
      obtain ⟨hc, hcs⟩ := List.cons.inj h
      exact .inr (.inr ⟨hc ▸ hd, b, by rw [hc], hcs⟩)

theorem quote_mem (body rest : List Char) : '\x22' ∈ doubled body ++ '\x22' :: rest := by
  simp

theorem longest_nil (h : ∀ r, rest = '\x22' :: r → '\x22' ∉ r) : Longest [] rest := by
  intro body' rest' he
  rcases string_cases he with ⟨_, _, rfl⟩ | ⟨_, b, _, hr⟩ | ⟨hne, _⟩
  · exact Nat.le_refl _
  · exact absurd (quote_mem b rest') (h _ hr)
  · exact absurd rfl hne

theorem Longest.cons (h : Longest body rest) (c : Char) : Longest (c :: body) rest := by
  intro body' rest' he
  by_cases hc : c = '\x22'
  · subst hc
    rw [doubled_quote, List.cons_append, List.cons_append] at he
    rcases string_cases he with ⟨_, _, rfl⟩ | ⟨_, b, rfl, hcs⟩ | ⟨hne, _⟩
    · simp only [List.length_cons, List.length_append]
      omega
    · exact h b rest' (List.cons.inj hcs).2
    · exact absurd rfl hne
  · rw [doubled_cons hc] at he
    rcases string_cases he with ⟨hq, _⟩ | ⟨hq, _⟩ | ⟨_, b, rfl, hcs⟩
    · exact absurd hq hc
    · exact absurd hq hc
    · exact h b rest' hcs

theorem longest_of_apart (h : Apart rest) : Longest body rest := by
  induction body with
  | nil =>
    refine longest_nil ?_
    rintro r rfl
    exact absurd (h '\x22' rfl) (by decide)
  | cons c body ih => exact ih.cons c

theorem closeQuote_cases (cs : List Char) : closeQuote cs = none ∧ '\x22' ∉ cs ∨ ∃ body rest,
    closeQuote cs = some (doubled body ++ ['\x22'], rest) ∧ cs = doubled body ++ '\x22' :: rest ∧
      Longest body rest := by
  fun_induction closeQuote cs with
  | case1 => exact .inl ⟨rfl, by simp⟩
  | case2 cs ih =>
    right
    rcases ih with ⟨he, hn⟩ | ⟨body, rest, he, rfl, hl⟩
    · refine ⟨[], '\x22' :: cs, by rw [he]; rfl, rfl, longest_nil ?_⟩
      rintro r ⟨⟩
      exact hn
    · exact ⟨'\x22' :: body, rest, by rw [he]; rfl, rfl, hl.cons '\x22'⟩
  | case3 cs hne => exact .inr ⟨[], cs, rfl, rfl, longest_nil fun r hr => absurd hr (hne r rfl)⟩
  | case4 c cs _ hc ih =>
    rcases ih with ⟨he, hn⟩ | ⟨body, rest, he, rfl, hl⟩
    · exact .inl ⟨by rw [he]; rfl, by simp [Ne.symm hc, hn]⟩
    · have hb := doubled_cons hc body
      exact .inr ⟨c :: body, rest, by rw [he, hb]; rfl, by rw [hb]; rfl, hl.cons c⟩

theorem closeQuote_of_longest (h : Longest body rest) :
    closeQuote (doubled body ++ '\x22' :: rest) = some (doubled body ++ ['\x22'], rest) := by
  rcases closeQuote_cases (doubled body ++ '\x22' :: rest) with ⟨_, hn⟩ | ⟨body', rest', he, hs, hl⟩
  · exact absurd (quote_mem body rest) hn
  · have hlen := Nat.le_antisymm (h _ _ hs) (hl _ _ hs.symm)
    obtain ⟨hb, hr⟩ := List.append_inj' hs (congrArg (· + 1) hlen)
    rw [he, hb, (List.cons.inj hr).2]

theorem closeQuote_eq_none (h : '\x22' ∉ cs) : closeQuote cs = none := by
  rcases closeQuote_cases cs with ⟨he, _⟩ | ⟨body, rest, _, rfl, _⟩
  · exact he
  · exact absurd (quote_mem body rest) h

theorem closeBar_append (h : '|' ∉ body) (cs : List Char) :
    closeBar (body ++ '|' :: cs) = some (body ++ ['|'], cs) := by
  induction body with
  | nil => rfl
  | cons c body ih =>
    obtain ⟨hc, hb⟩ := not_or.1 (mt List.mem_cons.2 h)
    simp [closeBar, Ne.symm hc, ih hb]

theorem closeBar_eq_none (h : '|' ∉ cs) : closeBar cs = none := by
  induction cs with
  | nil => rfl
  | cons c cs ih =>
    obtain ⟨hc, hcs⟩ := not_or.1 (mt List.mem_cons.2 h)
    rw [closeBar, if_neg (Ne.symm hc), ih hcs]
    rfl

end

inductive AtomBefore (rest : List Char) : List Char → Prop
  | barred {body : List Char} (unbarred : '|' ∉ body) : AtomBefore rest ('|' :: (body ++ ['|']))
  | quoted {body : List Char} (longest : Longest body rest) : AtomBefore rest ('\x22' :: (doubled body ++ ['\x22']))
  | bare {c : Char} {run : List Char} (plain : ∀ d ∈ c :: run, isPlain d = true) (apart : Apart rest)
      (unclosed : c = '|' ∨ c = '\x22' → c ∉ run ++ rest) : AtomBefore rest (c :: run)

inductive Lexes : List Char → List Token → Prop
  | nil : Lexes [] []
  | blank {c : Char} {cs : List Char} {ts : List Token} (blank : isBlank c = true) (rest : Lexes cs ts) :
      Lexes (c :: cs) ts
  | left {cs : List Char} {ts : List Token} (rest : Lexes cs ts) : Lexes ('(' :: cs) (.left :: ts)
  | right {cs : List Char} {ts : List Token} (rest : Lexes cs ts) : Lexes (')' :: cs) (.right :: ts)
  | atom {a cs : List Char} {ts : List Token} (atom : AtomBefore cs a) (rest : Lexes cs ts) :
      Lexes (a ++ cs) (.atom (String.ofList a) :: ts)

section

variable {c : Char} {a cs : List Char} {ts : List Token}

theorem closed_eq_none (h : c = '|' ∨ c = '\x22' → c ∉ cs) : closed c cs = none := by
  unfold closed
  split
  · next hc => exact closeBar_eq_none (hc ▸ h (.inl hc))
  · split
    · next hc => exact closeQuote_eq_none (hc ▸ h (.inr hc))
    · rfl

theorem ne_paren_of_isPlain (h : isPlain c = true) : c ≠ '(' ∧ c ≠ ')' := by
  constructor <;> rintro rfl <;> cases h

theorem AtomBefore.exists_atomAt (h : AtomBefore cs a) :
    ∃ c rest, a = c :: rest ∧ isPlain c = true ∧ atomAt c (rest ++ cs) = (a, cs) := by
  cases h with
  | barred unbarred => exact ⟨'|', _, rfl, by decide, by simp [atomAt_eq, closed, closeBar_append unbarred]⟩
  | quoted longest => exact ⟨'\x22', _, rfl, by decide, by simp [atomAt_eq, closed, closeQuote_of_longest longest]⟩
  | @bare c run plain apart unclosed =>
    obtain ⟨hc, hrun⟩ := List.forall_mem_cons.1 plain
    have hstop : cs.takeWhile isPlain = [] ∧ cs.dropWhile isPlain = cs := by
      cases cs with
      | nil => exact ⟨rfl, rfl⟩
      | cons d cs => simp [apart d rfl]
    refine ⟨c, run, rfl, hc, ?_⟩
    simp [atomAt_eq, closed_eq_none unclosed, List.takeWhile_append_of_pos hrun, List.dropWhile_append_of_pos hrun,
      hstop]

theorem AtomBefore.tokensOf_eq (h : AtomBefore cs a) : tokensOf (a ++ cs) = .atom (String.ofList a) :: tokensOf cs := by
  obtain ⟨c, rest, rfl, hc, hat⟩ := h.exists_atomAt
  obtain ⟨hl, hr⟩ := ne_paren_of_isPlain hc
  rw [List.cons_append, tokensOf_atom (isBlank_of_isPlain hc) hl hr, hat]

theorem Lexes.tokensOf_eq (h : Lexes cs ts) : tokensOf cs = ts := by
  induction h with
  | nil => rfl
  | blank blank _ ih => rw [tokensOf_blank blank, ih]
  | left _ ih => rw [tokensOf_left, ih]
  | right _ ih => rw [tokensOf_right, ih]
  | atom atom _ ih => rw [atom.tokensOf_eq, ih]

theorem exists_run (cs : List Char) :
    ∃ run rest, (∀ d ∈ run, isPlain d = true) ∧ Apart rest ∧ cs = run ++ rest := by
  induction cs with
  | nil => exact ⟨[], [], by simp, by simp [Apart], rfl⟩
  | cons c cs ih =>
    cases hc : isPlain c with
    | false => exact ⟨[], c :: cs, by simp, by simpa [Apart] using hc, rfl⟩
    | true =>
      obtain ⟨run, rest, hrun, hapart, rfl⟩ := ih
      exact ⟨c :: run, rest, List.forall_mem_cons.2 ⟨hc, hrun⟩, hapart, rfl⟩

theorem exists_atomBefore (hc : isPlain c = true) (cs : List Char) :
    ∃ a rest, c :: cs = a ++ rest ∧ rest.length ≤ cs.length ∧ AtomBefore rest a := by
  by_cases hbar : c = '|' ∧ '|' ∈ cs
  · obtain ⟨rfl, hm⟩ := hbar
    obtain ⟨body, rest, rfl, hn⟩ := List.eq_append_cons_of_mem hm
    exact ⟨_, rest, by simp, by simp only [List.length_append, List.length_cons]; omega, .barred hn⟩
  by_cases hquote : c = '\x22' ∧ '\x22' ∈ cs
  · obtain ⟨rfl, hm⟩ := hquote
    rcases closeQuote_cases cs with ⟨_, hn⟩ | ⟨body, rest, _, rfl, hlong⟩
    · exact absurd hm hn
    · exact ⟨_, rest, by simp, by simp only [List.length_append, List.length_cons]; omega, .quoted hlong⟩
  obtain ⟨run, rest, hrun, hapart, rfl⟩ := exists_run cs
  refine ⟨c :: run, rest, rfl, by simp, .bare (List.forall_mem_cons.2 ⟨hc, hrun⟩) hapart ?_⟩
  rintro (rfl | rfl) hm
  · exact hbar ⟨rfl, hm⟩
  · exact hquote ⟨rfl, hm⟩

theorem exists_lexes (cs : List Char) : ∃ ts, Lexes cs ts := by
  induction hn : cs.length using Nat.strongRecOn generalizing cs with
  | _ n ih =>
    subst hn
    cases cs with
    | nil => exact ⟨_, .nil⟩
    | cons c cs =>
      have hrest : ∀ rest : List Char, rest.length ≤ cs.length → ∃ ts, Lexes rest ts :=
        fun rest hr => ih rest.length (Nat.lt_succ_of_le hr) rest rfl
      obtain ⟨ts, hts⟩ := hrest cs (Nat.le_refl _)
      cases hb : isBlank c with
      | true => exact ⟨ts, .blank hb hts⟩
      | false =>
        by_cases hl : c = '('
        · subst hl
          exact ⟨_, .left hts⟩
        by_cases hr : c = ')'
        · subst hr
          exact ⟨_, .right hts⟩
        obtain ⟨a, rest, he, hlen, ha⟩ := exists_atomBefore (c := c) (by simp [isPlain, hb, hl, hr]) cs
        obtain ⟨us, hus⟩ := hrest rest hlen
        rw [he]
        exact ⟨_, .atom ha hus⟩

theorem lexes_iff : Lexes cs ts ↔ tokensOf cs = ts := by
  constructor
  · exact Lexes.tokensOf_eq
  · rintro rfl
    obtain ⟨ts, h⟩ := exists_lexes cs
    rwa [h.tokensOf_eq]

theorem Lexes.pad {b : List Char} (hb : Blank b) (h : Lexes cs ts) : Lexes (b ++ cs) ts := by
  induction b with
  | nil => exact h
  | cons c b ih =>
    obtain ⟨hc, hb⟩ := List.forall_mem_cons.1 hb
    exact .blank hc (ih hb)

def enclosedText : List Token → List Char
  | [] => []
  | .atom s :: ts => s.toList ++ enclosedText ts
  | _ :: ts => enclosedText ts

inductive Encloses : List Char → Prop
  | bars {body : List Char} (unbarred : '|' ∉ body) : Encloses ('|' :: (body ++ ['|']))
  | quotes (body : List Char) : Encloses ('\x22' :: (doubled body ++ ['\x22']))

theorem Lexes.count_parens (h : Lexes cs ts) : cs.count '(' = ts.count .left + (enclosedText ts).count '(' ∧
    cs.count ')' = ts.count .right + (enclosedText ts).count ')' := by
  induction h with
  | nil => exact ⟨rfl, rfl⟩
  | @blank c cs ts blank _ ih =>
    have hc : c ≠ '(' ∧ c ≠ ')' := by constructor <;> rintro rfl <;> cases blank
    simp [hc.1, hc.2, ih]
  | left _ ih => simp [enclosedText, ih, Nat.add_right_comm]
  | right _ ih => simp [enclosedText, ih, Nat.add_right_comm]
  | atom _ _ ih => simp [enclosedText, ih, Nat.add_left_comm]

theorem AtomBefore.encloses (h : AtomBefore cs a) (hp : '(' ∈ a ∨ ')' ∈ a) : Encloses a := by
  cases h with
  | barred unbarred => exact .bars unbarred
  | quoted _ => exact .quotes _
  | bare plain _ _ =>
    rcases hp with hm | hm
    · exact absurd rfl (ne_paren_of_isPlain (plain _ hm)).1
    · exact absurd rfl (ne_paren_of_isPlain (plain _ hm)).2

theorem Lexes.encloses (h : Lexes cs ts) {s : String} (hs : .atom s ∈ ts)
    (hp : '(' ∈ s.toList ∨ ')' ∈ s.toList) : Encloses s.toList := by
  induction h with
  | nil => cases hs
  | blank _ _ ih => exact ih hs
  | left _ ih => exact ih (by simpa using hs)
  | right _ ih => exact ih (by simpa using hs)
  | atom atom _ ih =>
    rcases List.mem_cons.1 hs with hs | hs
    · cases hs
      rw [String.toList_ofList] at hp ⊢
      exact atom.encloses hp
    · exact ih hs

end

end OneStep.SExpr
