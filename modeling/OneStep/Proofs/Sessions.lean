import OneStep.Proofs.Faults
import OneStep.Proofs.Verdicts

namespace OneStep

open Outcome

variable {F : Fault → Prop}

namespace Model

def isNameless : SExpr → Bool
  | .list [.atom "define-fun", .list _, .list [], _, _] => true
  | _ => false

theorem meets_definition? {e : SExpr} (h : isNameless e = true → F .noName) : Meets F (definition? e) := by
  unfold definition?
  split
  · split
    · trivial
    · exact h rfl
  · trivial

theorem meets_collect {entries : List SExpr} (h : ∀ e ∈ entries, isNameless e = true → F .noName)
    (model : List (String × String)) : Meets F (collect model entries) := by
  induction entries generalizing model with
  | nil => trivial
  | cons e rest ih =>
    obtain ⟨he, hrest⟩ := List.forall_mem_cons.1 h
    refine yields_bind (meets_definition? he) fun found _ => ?_
    cases found with
    | none => exact ih hrest model
    | some definition => exact ih hrest _

end Model

namespace Reply

def Nameless (reply : Reply) : Prop :=
  reply.firstLine? = some "sat" ∧
    ∃ tops, SExpr.read? reply.body = some tops ∧ ∃ e ∈ tops.flatMap Model.entries, Model.isNameless e = true

theorem meets_finding {reply : Reply} (hs : ∀ message details, F (solverFailure message details))
    (hn : reply.Nameless → F .noName) (hr : ∀ cause, reply = .raised cause → F cause.fault) (path : String) :
    Meets F (reply.finding path) := by
  rcases reply.reads_or_unreadable path with ⟨found, hf, _⟩ | ⟨f, hf, hu⟩
  · rw [hf]
    trivial
  · rw [hf]
    by_cases hsat : reply.firstLine? = some "sat"
    · have hread := hu.noModel hsat
      have hm : Meets F (Model.read reply.body) := by
        unfold Model.read
        split
        · exact hs _ _
        · next tops htops =>
          exact yields_bind (Model.meets_collect (fun e he hnameless => hn ⟨hsat, tops, htops, e, he, hnameless⟩) [])
            fun _ _ => trivial
      rw [hread] at hm
      exact hm
    · by_cases hraised : ∃ cause, reply = .raised cause
      · obtain ⟨cause, he⟩ := hraised
        rw [hu.raised cause he]
        exact hr cause he
      · obtain ⟨message, details, rfl⟩ := hu.reported hsat fun cause he => hraised ⟨cause, he⟩
        exact hs message details

end Reply

namespace External

theorem meets_optionText {key value : Datum} (h : (key.isWritable && value.isWritable) = true ∨ F .unwritable) :
    Meets F (optionText key value) := by
  have hk := Datum.meets_asText (h.imp_left fun h => (Bool.and_eq_true_iff.1 h).1)
  have hv := Datum.meets_asText (h.imp_left fun h => (Bool.and_eq_true_iff.1 h).2)
  refine yields_bind hk fun _ _ => ?_
  cases value with
  | bool b => trivial
  | _ => exact yields_bind hv fun _ _ => trivial

theorem meets_limit {e : External}
    (h : 0 < e.timeout → (.ofInt e.timeout : Binary .double) = .infinity false → F .hugeInteger) : Meets F e.limit := by
  unfold limit
  split
  · trivial
  · next hpos =>
    dsimp only
    split
    · next huge => exact h (Int.lt_of_not_ge hpos) huge
    · trivial

end External

namespace Engine

variable {σ : Type} (engine : Engine σ)

def configureAll : List (Datum × Datum) → σ → σ × Except String Unit
  | [], s => (s, .ok ())
  | (key, value) :: rest, s =>
    match engine.configure key value s with
    | (s, .ok ()) => configureAll rest s
    | (s, .error kind) => (s, .error kind)

def answer (formula : Term .bool) (s : σ) : Except String Finding :=
  match engine.assert formula s with
  | (s, .ok ()) => (engine.check s).2
  | (_, .error kind) => .error kind

def ask (options : List (Datum × Datum)) (formula : Term .bool) (s : σ) : Except String Finding :=
  match engine.configureAll options s with
  | (s, .ok ()) => engine.answer formula s
  | (_, .error kind) => .error kind

end Engine

namespace Session

variable {σ : Type}

theorem run_onEngine {α : Type} (s : σ) (step : σ → σ × Except String α) (session : Session σ) (p : Progress) :
    ((onEngine (some s) step).run.run session).run p =
      (((step s).2.mapError Fault.engine, .builtIn (some (step s).1)), p) := by
  rw [onEngine]
  rcases step s with ⟨s', _ | a⟩ <;> rfl

theorem run_configureBuiltIn (engine : Engine σ) (options : List (Datum × Datum)) (s : σ) (p : Progress) :
    ((options.forM fun (key, value) => configureOne engine key value).run.run (.builtIn (some s))).run p =
      (((engine.configureAll options s).2.mapError Fault.engine, .builtIn (some (engine.configureAll options s).1)),
        p) := by
  induction options generalizing s with
  | nil => rfl
  | cons o options ih =>
    have ho : ((configureOne engine o.1 o.2).run.run (.builtIn (some s))).run p = _ :=
      run_onEngine s (engine.configure o.1 o.2) (.builtIn (some s)) p
    rw [forM_configureOne_cons, Solving.run_bind, ho, Engine.configureAll]
    rcases engine.configure o.1 o.2 s with ⟨s', kind | ⟨⟩⟩
    · rfl
    · exact ih s'

theorem run_answer (solvers : Solvers σ) (formula : Term .bool) (s : σ) (p : Progress) : ∃ session,
    ((do assert solvers.engine formula; check solvers : Solving σ Finding).run.run (.builtIn (some s))).run p =
      (((solvers.engine.answer formula s).mapError Fault.engine, session), p) := by
  have ha : ((assert solvers.engine formula).run.run (.builtIn (some s))).run p = _ :=
    run_onEngine s (solvers.engine.assert formula) (.builtIn (some s)) p
  rw [Solving.run_bind, ha, Engine.answer]
  rcases solvers.engine.assert formula s with ⟨s', kind | ⟨⟩⟩
  · exact ⟨_, rfl⟩
  · exact ⟨_, run_onEngine s' solvers.engine.check (.builtIn (some s')) p⟩

theorem run_askBuiltIn (solvers : Solvers σ) (options : List (Datum × Datum)) (formula : Term .bool) (s : σ)
    (p : Progress) :
    ((do configure solvers.engine options; assert solvers.engine formula; check solvers : Solving σ Finding).alone
      (.builtIn (some s))).run p = ((solvers.engine.ask options formula s).mapError Fault.engine, p) := by
  have hc : ((configure solvers.engine options).run.run (.builtIn (some s))).run p = _ :=
    run_configureBuiltIn solvers.engine options s p
  rw [Solving.run_alone, Solving.run_bind, hc, Engine.ask]
  rcases solvers.engine.configureAll options s with ⟨s', kind | ⟨⟩⟩
  · rfl
  · obtain ⟨session, ha⟩ := run_answer solvers formula s' p
    exact congrArg (fun r => (r.1.1, r.2)) ha

end Session

namespace Prover

variable {σ : Type}

inductive Fails (solvers : Solvers σ) (settings : Settings) (path : String) (formula : Term .bool) : Fault → Prop where
  | limit (unset : settings.timeout = none) : Fails solvers settings path formula .noLimit
  | engine {options : List (Datum × Datum)} {number : Nat} {kind : String}
    (builtIn : ¬ (path ≠ "" ∨ settings.usesExternal = true)) (given : settings.sessionOptions = .ok options)
    (rejected : solvers.engine.ask options formula (solvers.engine.start number) = .error kind) :
    Fails solvers settings path formula (.engine kind)
  | line {options : List (Datum × Datum)} {key value : Datum} (external : path ≠ "" ∨ settings.usesExternal = true)
    (given : settings.sessionOptions = .ok options) (member : (key, value) ∈ options)
    (long : (key.isWritable && value.isWritable) = false) : Fails solvers settings path formula .unwritable
  | seconds {limit : Int} (external : path ≠ "" ∨ settings.usesExternal = true) (set : settings.timeout = some limit)
    (positive : 0 < limit) (huge : (.ofInt limit : Binary .double) = .infinity false) :
    Fails solvers settings path formula .hugeInteger
  | launch {launch : Launch} {number : Nat} {cause : LaunchFault} (external : path ≠ "" ∨ settings.usesExternal = true)
    (made : launchFor solvers.smt2 settings path formula = .ok launch)
    (raised : solvers.launch number launch = .raised cause) : Fails solvers settings path formula cause.fault
  | model {launch : Launch} {number : Nat} (external : path ≠ "" ∨ settings.usesExternal = true)
    (made : launchFor solvers.smt2 settings path formula = .ok launch)
    (nameless : (solvers.launch number launch).Nameless) : Fails solvers settings path formula .noName

variable {solvers : Solvers σ} {settings : Settings} {path : String} {formula : Term .bool}

theorem meets_sessionOptions (hf : ∀ f, Fails solvers settings path formula f → F f) :
    Meets F settings.sessionOptions := by
  unfold Settings.sessionOptions
  split
  · next hnone => exact hf _ (.limit hnone)
  · split <;> trivial

theorem meets_launchFor (he : path ≠ "" ∨ settings.usesExternal = true)
    (hs : ∀ message details, F (solverFailure message details))
    (hf : ∀ f, Fails solvers settings path formula f → F f) :
    Meets F (launchFor solvers.smt2 settings path formula) := by
  unfold launchFor
  split
  · exact hs _ _
  refine yields_bind (yields_self (meets_sessionOptions hf)) fun options ho => ?_
  have hlines : ∀ o ∈ options, Meets F (External.optionText o.1 o.2) := by
    intro o hm
    refine External.meets_optionText ?_
    cases hw : o.1.isWritable && o.2.isWritable with
    | true => exact .inl rfl
    | false => exact .inr (hf _ (.line he ho.2 hm hw))
  refine yields_bind (yields_mapM hlines) fun lines _ => ?_
  refine yields_bind (External.meets_limit fun hpos huge => ?_) fun _ _ => trivial
  cases ht : settings.timeout with
  | none =>
    have hl : (solverFor settings path).timeout = 0 := by rw [solverFor, ht, Option.getD_none]
    exact absurd (hl ▸ hpos) (Int.lt_irrefl 0)
  | some limit =>
    have hl : (solverFor settings path).timeout = limit := by rw [solverFor, ht, Option.getD_some]
    exact hf _ (.seconds he ht (hl ▸ hpos) (hl ▸ huge))

theorem halts_ask (hs : ∀ message details, F (solverFailure message details))
    (hf : ∀ f, Fails solvers settings path formula.negate f → F f) :
    Halts F (ask solvers settings path formula.negate) := by
  intro p
  by_cases he : path ≠ "" ∨ settings.usesExternal = true
  · obtain ⟨journal, ha⟩ := run_ask solvers he formula p
    have hl := meets_launchFor he hs hf
    rw [ha]
    cases hlaunch : launchFor solvers.smt2 settings path formula.negate with
    | error f =>
      rw [hlaunch] at hl
      exact hl
    | ok launch =>
      exact Reply.meets_finding hs (fun hn => hf _ (.model he hlaunch hn))
        (fun cause hc => hf _ (.launch he hlaunch hc)) launch.path
  · have hb : ¬ (!path.isEmpty || settings.usesExternal) = true := by simpa using he
    rw [ask_eq, Session.start, if_neg hb]
    generalize hopened : { p with sessions := p.sessions + 1 } = opened
    split
    · show Meets F (((question solvers settings formula.negate).alone
        (.builtIn (some (solvers.engine.start p.sessions)))).run opened).1
      have ho := meets_sessionOptions hf
      cases hoptions : settings.sessionOptions with
      | error f =>
        rw [hoptions] at ho
        rw [question, hoptions]
        exact ho
      | ok options =>
        rw [question_eq hoptions, Session.run_askBuiltIn]
        cases hr : solvers.engine.ask options formula.negate (solvers.engine.start p.sessions) with
        | ok found => trivial
        | error kind => exact hf _ (.engine he hoptions hr)
    · exact hs _ _

end Prover

end OneStep
