import OneStep.Proofs.Tokens
import OneStep.Solver.Reply

namespace OneStep.Text

theorem strip_split (test : Char → Bool) (cs : List Char) : ∃ x y, cs = x ++ (strip test cs ++ y) ∧
    (∀ c ∈ x, test c = true) ∧ ∀ c ∈ y, test c = true := by
  refine ⟨cs.takeWhile test, ((cs.dropWhile test).reverse.takeWhile test).reverse, ?_, ?_, ?_⟩
  · rw [strip, ← List.reverse_append, List.takeWhile_append_dropWhile, List.reverse_reverse,
      List.takeWhile_append_dropWhile]
  · exact List.all_eq_true.1 List.all_takeWhile
  · intro c hc
    exact List.all_eq_true.1 List.all_takeWhile c (List.mem_reverse.1 hc)

theorem dropWhile_of_all {test : Char → Bool} {cs : List Char} (h : ∀ c ∈ cs, test c = true) :
    cs.dropWhile test = [] := by
  have h' : (cs ++ []).dropWhile test = [].dropWhile test := List.dropWhile_append_of_pos h
  rwa [List.append_nil] at h'

theorem strip_around {test : Char → Bool} {x y : List Char} (hx : ∀ c ∈ x, test c = true) (hy : ∀ c ∈ y, test c = true)
    (m : List Char) : strip test (x ++ (m ++ y)) = strip test m := by
  rw [strip, strip, List.dropWhile_append_of_pos hx, List.dropWhile_append]
  split
  · next h => rw [List.isEmpty_iff.1 h, dropWhile_of_all hy]
  · have hy' : ∀ c ∈ y.reverse, test c = true := fun c hc => hy c (List.mem_reverse.1 hc)
    rw [List.reverse_append, List.dropWhile_append_of_pos hy']

theorem strip_of_none {test : Char → Bool} {cs : List Char} (h : ∀ c ∈ cs, test c = false) : strip test cs = cs := by
  have hdrop : ∀ cs : List Char, (∀ c ∈ cs, test c = false) → cs.dropWhile test = cs := by
    intro cs hcs
    cases cs with
    | nil => rfl
    | cons c cs => simp [hcs c (List.mem_cons_self ..)]
  rw [strip, hdrop cs h, hdrop _ fun c hc => h c (List.mem_reverse.1 hc), List.reverse_reverse]

theorem squeeze_around {x y : List Char} (hx : Blank x) (hy : Blank y) (m : List Char) :
    squeeze [] true (x ++ (m ++ y)) = squeeze [] true m := by
  have hlead : ∀ cs, squeeze [] true (x ++ cs) = squeeze [] true cs := by
    intro cs
    by_cases h : x = []
    · rw [h, List.nil_append]
    · exact squeeze_gap hx h
  rw [hlead]
  by_cases h : y = []
  · rw [h, List.append_nil]
  · have hend : squeeze [] true [] = [] := rfl
    have happ := squeeze_append_gap true m hy h []
    rwa [List.append_nil, hend, List.append_nil] at happ

theorem squeeze_strip (cs : List Char) : squeeze [] true (strip isBlank cs) = squeeze [] true cs := by
  obtain ⟨x, y, he, hx, hy⟩ := strip_split isBlank cs
  have h := squeeze_around hx hy (strip isBlank cs)
  rw [← he] at h
  exact h.symm

theorem isBlank_of_isLineBreak {c : Char} (h : isLineBreak c = true) : isBlank c = true := by
  simp only [isLineBreak, isBlank, Bool.or_eq_true, Bool.and_eq_true, decide_eq_true_eq, beq_iff_eq] at h ⊢
  omega

theorem squeeze_lines (line cs : List Char) :
    squeeze [] true (line.reverse ++ cs) = (linesFrom line cs).flatMap (squeeze [] true) := by
  fun_induction linesFrom line cs with
  | case1 line h =>
    rw [List.isEmpty_iff.1 h]
    simp
  | case2 line h => simp
  | case3 line rest ih =>
    have hb : Blank ['\r', '\n'] := by simp [Blank]; decide
    rw [List.flatMap_cons, ← ih]
    exact squeeze_append_gap true line.reverse hb (by simp) rest
  | case4 line c rest _ hc ih =>
    have hb : Blank [c] := by simp [Blank, isBlank_of_isLineBreak hc]
    rw [List.flatMap_cons, ← ih]
    exact squeeze_append_gap true line.reverse hb (by simp) rest
  | case5 line c rest _ hc ih =>
    rw [← ih, List.reverse_cons, List.append_assoc]
    rfl

def kept (ls : List (List Char)) : List (List Char) :=
  (ls.map (strip isBlank)).filter fun line => !line.isEmpty

theorem kept_append (ls ls' : List (List Char)) : kept (ls ++ ls') = kept ls ++ kept ls' := by
  simp [kept]

theorem kept_of_blank {line : List Char} (h : Blank line) : kept [line] = [] := by
  have hs : strip isBlank line = [] := by
    rw [strip, dropWhile_of_all h]
    rfl
  simp [kept, hs]

theorem squeeze_intercalate (ls : List (List Char)) :
    squeeze [] true (['\n'].intercalate ls) = ls.flatMap (squeeze [] true) := by
  induction ls with
  | nil => simp
  | cons l ls ih =>
    cases ls with
    | nil => simp
    | cons l' ls =>
      have hb : Blank ['\n'] := by simp [Blank]; decide
      rw [List.intercalate_cons_cons, List.append_assoc, squeeze_append_gap true l hb (by simp), ih]
      rfl

theorem flatMap_kept (ls : List (List Char)) :
    (kept ls).flatMap (squeeze [] true) = ls.flatMap (squeeze [] true) := by
  induction ls with
  | nil => rfl
  | cons l ls ih =>
    have hone : (kept [l]).flatMap (squeeze [] true) = squeeze [] true l := by
      rw [← squeeze_strip l]
      cases h : strip isBlank l <;> simp [kept, h, squeeze]
    rw [← List.singleton_append, kept_append, List.flatMap_append, ih, hone]
    simp

theorem squeeze_joined (cs : List Char) :
    squeeze [] true (['\n'].intercalate (kept (linesFrom [] cs))) = squeeze [] true cs := by
  rw [squeeze_intercalate, flatMap_kept, ← squeeze_lines]
  rfl

theorem linesFrom_cons {c : Char} {rest : List Char} (h : ∀ r, c = '\r' → rest ≠ '\n' :: r) (line : List Char) :
    linesFrom line (c :: rest) =
      if isLineBreak c then line.reverse :: linesFrom [] rest else linesFrom (c :: line) rest := by
  rw [linesFrom]
  exact h

theorem linesFrom_append {x : List Char} (h : ∀ c ∈ x, isLineBreak c = false) (line rest : List Char) :
    linesFrom line (x ++ rest) = linesFrom (x.reverse ++ line) rest := by
  induction x generalizing line with
  | nil => rfl
  | cons c x ih =>
    obtain ⟨hc, hx⟩ := List.forall_mem_cons.1 h
    have hr : ∀ r, c = '\r' → x ++ rest ≠ '\n' :: r := by
      rintro r rfl
      cases hc
    rw [List.cons_append, linesFrom_cons hr, hc, if_neg (by simp), ih hx, List.reverse_cons, List.append_assoc]
    rfl

theorem kept_break {c : Char} (h : isLineBreak c = true) (line rest : List Char) :
    kept (linesFrom line (c :: rest)) = kept [line.reverse] ++ kept (linesFrom [] rest) := by
  by_cases hr : ∃ r, c = '\r' ∧ rest = '\n' :: r
  · -- the second character of the break starts an empty line, which is not kept
    obtain ⟨r, rfl, rfl⟩ := hr
    have hn : linesFrom [] ('\n' :: r) = [] :: linesFrom [] r := by
      rw [linesFrom_cons fun _ hc => absurd hc (by decide), if_pos (by decide)]
      rfl
    have hkept : kept ([] :: linesFrom [] r) = kept (linesFrom [] r) := rfl
    rw [linesFrom, hn, hkept, ← List.singleton_append, kept_append]
  · rw [linesFrom_cons fun r hc he => hr ⟨r, hc, he⟩, if_pos h, ← List.singleton_append, kept_append]

theorem kept_blank {b : List Char} (hb : Blank b) (line : List Char) (hl : Blank line) (rest : List Char) :
    ∃ line', Blank line' ∧ kept (linesFrom line (b ++ rest)) = kept (linesFrom line' rest) := by
  induction b generalizing line with
  | nil => exact ⟨line, hl, rfl⟩
  | cons c b ih =>
    obtain ⟨hc, hb⟩ := List.forall_mem_cons.1 hb
    cases hbreak : isLineBreak c with
    | true =>
      obtain ⟨line', hl', he⟩ := ih hb [] (by simp [Blank])
      refine ⟨line', hl', ?_⟩
      rw [List.cons_append, kept_break hbreak, kept_of_blank fun c hm => hl c (List.mem_reverse.1 hm), he,
        List.nil_append]
    | false =>
      obtain ⟨line', hl', he⟩ := ih hb (c :: line) (List.forall_mem_cons.2 ⟨hc, hl⟩)
      refine ⟨line', hl', ?_⟩
      have := linesFrom_append (x := [c]) (by simpa using hbreak) line (b ++ rest)
      rw [List.cons_append, ← he]
      exact congrArg kept this

theorem exists_break {b : List Char} (h : ∃ c ∈ b, isLineBreak c = true) : ∃ u c w, b = u ++ c :: w ∧
    isLineBreak c = true ∧ ∀ d ∈ u, isLineBreak d = false := by
  induction b with
  | nil =>
    obtain ⟨_, hc, _⟩ := h
    cases hc
  | cons d b ih =>
    cases hd : isLineBreak d with
    | true => exact ⟨[], d, b, rfl, hd, by simp⟩
    | false =>
      obtain ⟨c, hc, hbreak⟩ := h
      rcases List.mem_cons.1 hc with rfl | hc
      · exact absurd hbreak (by simp [hd])
      · obtain ⟨u, c, w, rfl, hbreak, hu⟩ := ih ⟨c, hc, hbreak⟩
        exact ⟨d :: u, c, w, rfl, hbreak, List.forall_mem_cons.2 ⟨hd, hu⟩⟩

theorem kept_word {word before after : List Char} (hb : Blank before) (ha : Blank after)
    (hbreak : ∃ c ∈ after, isLineBreak c = true) (hw : ∀ c ∈ word, isBlank c = false) (hne : word ≠ [])
    (rest : List Char) : ∃ w, Blank w ∧
    kept (linesFrom [] (before ++ (word ++ (after ++ rest)))) = word :: kept (linesFrom [] (w ++ rest)) := by
  obtain ⟨u, c, w, rfl, hc, hu⟩ := exists_break hbreak
  obtain ⟨line, hl, he⟩ := kept_blank hb [] (by simp [Blank]) (word ++ (u ++ c :: w ++ rest))
  refine ⟨w, fun d hd => ha d (List.mem_append_right _ (List.mem_cons_of_mem _ hd)), ?_⟩
  have hx : ∀ d ∈ word ++ u, isLineBreak d = false := by
    intro d hd
    rcases List.mem_append.1 hd with hd | hd
    · exact Bool.eq_false_iff.2 fun h => Bool.eq_false_iff.1 (hw d hd) (isBlank_of_isLineBreak h)
    · exact hu d hd
  have hsplit : word ++ (u ++ c :: w ++ rest) = (word ++ u) ++ (c :: (w ++ rest)) := by simp
  have hline : kept [((word ++ u).reverse ++ line).reverse] = [word] := by
    have hs : strip isBlank (line.reverse ++ (word ++ u)) = word := by
      rw [strip_around (fun d hd => hl d (List.mem_reverse.1 hd)) (fun d hd => ha d (List.mem_append_left _ hd)),
        strip_of_none hw]
    rw [List.reverse_append, List.reverse_reverse, kept, List.map_singleton, hs]
    simp [hne]
  rw [he, hsplit, linesFrom_append hx, kept_break hc, hline]
  rfl

end OneStep.Text
