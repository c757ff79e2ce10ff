import OneStep.Proofs.Outcome
import OneStep.Solver.Session

/-!
Commands of a script, as the lexical rules of SMT-LIB2 have them: brackets count outside of strings, quoted names and
comments only. A script that leaves nothing open may be followed by another one.
-/

namespace OneStep.Commands

inductive Mode where
  | code
  | comment
  | quoted (mark : Char)
  deriving DecidableEq

structure Scan where
  mode : Mode := .code
  depth : Nat := 0
  pending : List Char := []
  done : List String := []
  deriving DecidableEq

def isBreak (c : Char) : Bool :=
  c == '\n' || c == '\r'

def isMark (c : Char) : Bool :=
  c == '|' || c == '"'

def isDelimiter (c : Char) : Bool :=
  c == '(' || c == ')' || c == ';' || isMark c

namespace Scan

def keep (s : Scan) (c : Char) : Scan :=
  if s.depth = 0 then s else { s with pending := c :: s.pending }

def enter (s : Scan) (c : Char) (mode : Mode) : Scan :=
  { s.keep c with mode }

def opened (s : Scan) : Scan :=
  { s with depth := s.depth + 1, pending := '(' :: s.pending }

def closed (s : Scan) : Scan :=
  match s.depth with
  | 0 => s
  | 1 => { s with depth := 0, pending := [], done := String.ofList (')' :: s.pending).reverse :: s.done }
  | n + 2 => { s with depth := n + 1, pending := ')' :: s.pending }

def step (s : Scan) (c : Char) : Scan :=
  match s.mode with
  | .comment => if isBreak c then s.enter c .code else s
  | .quoted mark => if c = mark then s.enter c .code else s.keep c
  | .code =>
    if c = '(' then s.opened
    else if c = ')' then s.closed
    else if c = ';' then { s with mode := .comment }
    else if isMark c then s.enter c (.quoted c)
    else s.keep c

def run (s : Scan) (cs : List Char) : Scan :=
  cs.foldl step s

def after (s : Scan) (earlier : List String) : Scan :=
  { s with done := s.done ++ earlier }

variable (s : Scan) (earlier : List String)

theorem keep_after (c : Char) : (s.after earlier).keep c = (s.keep c).after earlier := by
  by_cases h : s.depth = 0 <;> simp [keep, after, h]

theorem enter_after (c : Char) (mode : Mode) : (s.after earlier).enter c mode = (s.enter c mode).after earlier := by
  rw [enter, keep_after, enter, after, after]

theorem closed_after : (s.after earlier).closed = s.closed.after earlier := by
  obtain ⟨mode, depth, pending, done⟩ := s
  rcases depth with _ | _ | depth <;> rfl

theorem step_after (c : Char) : (s.after earlier).step c = (s.step c).after earlier := by
  have hm : (s.after earlier).mode = s.mode := rfl
  unfold step
  rw [hm, keep_after, closed_after, enter_after, enter_after]
  cases s.mode with
  | comment => exact (apply_ite (after · earlier) ..).symm
  | quoted mark => exact (apply_ite (after · earlier) ..).symm
  | code =>
    dsimp only
    rw [apply_ite (after · earlier), apply_ite (after · earlier), apply_ite (after · earlier),
      apply_ite (after · earlier)]
    rfl

theorem run_after (cs : List Char) : (s.after earlier).run cs = (s.run cs).after earlier := by
  induction cs generalizing s with
  | nil => rfl
  | cons c cs ih =>
    rw [run, List.foldl_cons, step_after]
    exact ih (s.step c)

theorem run_append (cs ds : List Char) : s.run (cs ++ ds) = (s.run cs).run ds :=
  List.foldl_append ..

theorem run_bare {s : Scan} (hs : s.mode = .code) (hd : s.depth ≠ 0) {cs : List Char}
    (hc : cs.any isDelimiter = false) : s.run cs = { s with pending := cs.reverse ++ s.pending } := by
  induction cs generalizing s with
  | nil => rfl
  | cons c cs ih =>
    obtain ⟨hc, hcs⟩ := Bool.or_eq_false_iff.1 (List.any_cons.symm.trans hc)
    simp only [isDelimiter, Bool.or_eq_false_iff, beq_eq_false_iff_ne] at hc
    have hstep : s.step c = { s with pending := c :: s.pending } := by
      simp [step, keep, hs, hd, hc]
    rw [run, List.foldl_cons, hstep]
    refine (ih (s := { s with pending := c :: s.pending }) hs hd hcs).trans ?_
    simp

end Scan

def commands (text : String) : List String :=
  (Scan.run {} text.toList).done.reverse

def IsScript (text : String) : Prop :=
  Scan.run {} text.toList = { done := (commands text).reverse }

instance (text : String) : Decidable (IsScript text) :=
  inferInstanceAs (Decidable (_ = _))

theorem run_eq_iff {text : String} {found : List String} :
    Scan.run {} text.toList = { done := found.reverse } ↔ IsScript text ∧ commands text = found := by
  constructor
  · intro h
    have hc : commands text = found := by rw [commands, h, List.reverse_reverse]
    exact ⟨by rw [IsScript, h, hc], hc⟩
  · rintro ⟨h, rfl⟩
    exact h

theorem isScript_append {a b : String} (ha : IsScript a) (hb : IsScript b) :
    IsScript (a ++ b) ∧ commands (a ++ b) = commands a ++ commands b := by
  rw [← run_eq_iff, String.toList_append, Scan.run_append, ha, List.reverse_append]
  have h := Scan.run_after {} (commands a).reverse b.toList
  rw [hb] at h
  exact h

theorem isScript_empty : IsScript "" ∧ commands "" = [] := by
  rw [← run_eq_iff]
  rfl

theorem isScript_break : IsScript "\n" ∧ commands "\n" = [] := by
  rw [← run_eq_iff]
  rfl

theorem isScript_lines {lines : List String} (h : ∀ line ∈ lines, IsScript line) :
    IsScript ("\n".intercalate lines) ∧ commands ("\n".intercalate lines) = lines.flatMap commands := by
  induction lines with
  | nil => exact isScript_empty
  | cons line lines ih =>
    obtain ⟨hline, hlines⟩ := List.forall_mem_cons.1 h
    obtain ⟨hrest, hr⟩ := ih hlines
    cases lines with
    | nil => exact ⟨hline, by simp⟩
    | cons next lines =>
      obtain ⟨hb, he⟩ := isScript_append hline isScript_break.1
      obtain ⟨hs, hc⟩ := isScript_append hb hrest
      rw [String.intercalate_cons_cons]
      exact ⟨hs, by rw [hc, he, hr, isScript_break.2, List.append_nil, ← List.flatMap_cons]⟩

def isSpace (c : Char) : Bool :=
  c == ' ' || c == '\t' || isBreak c

def keyword (command : String) : String :=
  String.ofList ((command.toList.tail.dropWhile isSpace).takeWhile fun c => !isSpace c && !isDelimiter c)

def assertions (text : String) : List String :=
  (commands text).filter (keyword · = "assert")

def Bare (d : Datum) : Prop :=
  ∀ text, d.asText = .ok text → text.toList.any isDelimiter = false

theorem isScript_bracketed (cs : List Char) (h : cs.any isDelimiter = false) {command : String}
    (hc : command.toList = '(' :: (cs ++ [')'])) : IsScript command ∧ commands command = [command] := by
  have hopen : Scan.step {} '(' = { depth := 1, pending := ['('] } := rfl
  have hshut : Scan.step { depth := 1, pending := cs.reverse ++ ['('] } ')' = { done := [command] } := by
    have he : (')' :: (cs.reverse ++ ['('])).reverse = command.toList := by simp [hc]
    show ({ done := [String.ofList (')' :: (cs.reverse ++ ['('])).reverse] } : Scan) = _
    rw [he, String.ofList_toList]
  rw [← run_eq_iff, hc, Scan.run, List.foldl_cons, hopen, ← Scan.run, Scan.run_append,
    Scan.run_bare rfl Nat.one_ne_zero h]
  exact hshut

theorem isScript_optionText {key value : Datum} {line : String} (hk : Bare key) (hv : Bare value)
    (h : External.optionText key value = .ok line) : IsScript line ∧ commands line = [line] := by
  obtain ⟨k, hk', h⟩ := Outcome.bind_eq_ok_iff.1 h
  obtain ⟨v, hv', h⟩ := Outcome.bind_eq_ok_iff.1 h
  cases h
  have hvalue : v.toList.any isDelimiter = false := by
    cases value with
    | bool b => cases b <;> cases hv' <;> decide
    | _ => exact hv v hv'
  have hword : "set-option :".toList.any isDelimiter = false ∧ " ".toList.any isDelimiter = false := by decide
  refine isScript_bracketed ("set-option :".toList ++ k.toList ++ " ".toList ++ v.toList) ?_ (by simp [toString])
  rw [List.any_append, List.any_append, List.any_append, hword.1, hk k hk', hword.2, hvalue]
  rfl

theorem keyword_optionText {key value : Datum} {line : String} (h : External.optionText key value = .ok line) :
    keyword line = "set-option" := by
  obtain ⟨k, _, h⟩ := Outcome.bind_eq_ok_iff.1 h
  obtain ⟨v, _, h⟩ := Outcome.bind_eq_ok_iff.1 h
  cases h
  simp [keyword, toString, isSpace, isBreak, isDelimiter, isMark]

theorem isScript_fixed (command : String)
    (h : command ∈ ["(set-option :produce-models true)", "(get-model)", "(exit)"]) :
    IsScript command ∧ commands command = [command] := by
  simp only [List.mem_cons, List.not_mem_nil, or_false] at h
  rw [← run_eq_iff]
  rcases h with rfl | rfl | rfl <;> rfl

section

variable {smt2 : Printer} {lines : List String} {formulas : List (Term .bool)}

theorem commands_text (hl : ∀ line ∈ lines, IsScript line) (hb : IsScript (Script.body smt2 formulas)) :
    let text := Script.text smt2 { head := "(set-option :produce-models true)" :: lines, formulas }
    IsScript text ∧ commands text = "(set-option :produce-models true)" ::
      (lines.flatMap commands ++ commands (Script.body smt2 formulas) ++ ["(get-model)", "(exit)"]) := by
  obtain ⟨hset, hset'⟩ := isScript_fixed "(set-option :produce-models true)" (by simp)
  obtain ⟨hget, hget'⟩ := isScript_fixed "(get-model)" (by simp)
  obtain ⟨hexit, hexit'⟩ := isScript_fixed "(exit)" (by simp)
  have hall : ∀ line ∈ "(set-option :produce-models true)" :: lines ++
      [Script.body smt2 formulas, "(get-model)", "(exit)"], IsScript line := by
    simp only [List.cons_append, List.forall_mem_cons, List.forall_mem_append]
    exact ⟨hset, hl, hb, hget, hexit, List.forall_mem_nil _⟩
  obtain ⟨hs, hc⟩ := isScript_lines hall
  obtain ⟨ht, hc'⟩ := isScript_append hs isScript_break.1
  refine ⟨ht, hc'.trans ?_⟩
  rw [hc, isScript_break.2]
  simp [hset', hget', hexit']

theorem assertions_optionTexts {options : List (Datum × Datum)}
    (ho : List.Forall₂ (fun o line => External.optionText o.1 o.2 = .ok line) options lines)
    (hbare : ∀ o ∈ options, Bare o.1 ∧ Bare o.2) :
    (∀ line ∈ lines, IsScript line) ∧ (lines.flatMap commands).filter (keyword · = "assert") = [] := by
  induction ho with
  | nil => exact ⟨List.forall_mem_nil _, rfl⟩
  | cons h _ ih =>
    obtain ⟨ho, hrest⟩ := List.forall_mem_cons.1 hbare
    obtain ⟨hs, hc⟩ := isScript_optionText ho.1 ho.2 h
    obtain ⟨hall, hnone⟩ := ih hrest
    refine ⟨List.forall_mem_cons.2 ⟨hs, hall⟩, ?_⟩
    rw [List.flatMap_cons, hc, List.filter_append, hnone]
    simp [keyword_optionText h]

theorem assertions_text {options : List (Datum × Datum)}
    (ho : options.mapM (fun o => External.optionText o.1 o.2) = .ok lines)
    (hbare : ∀ o ∈ options, Bare o.1 ∧ Bare o.2) (hb : IsScript (Script.body smt2 formulas)) :
    assertions (Script.text smt2 { head := "(set-option :produce-models true)" :: lines, formulas }) =
      assertions (Script.body smt2 formulas) := by
  obtain ⟨hl, hnone⟩ := assertions_optionTexts (Outcome.mapM_eq_ok_iff.1 ho) hbare
  obtain ⟨_, hc⟩ := commands_text hl hb
  have hset : keyword "(set-option :produce-models true)" = "set-option" := by rfl
  have hend : keyword "(get-model)" = "get-model" ∧ keyword "(exit)" = "exit" := ⟨rfl, rfl⟩
  rw [assertions, hc, List.filter_cons, List.filter_append, List.filter_append, hnone, hset]
  simp [assertions, hend]

end

end OneStep.Commands
