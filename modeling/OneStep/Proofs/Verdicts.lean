import OneStep.Proofs.Commands
import OneStep.Proofs.Reports

namespace OneStep

namespace Reply

def firstLine? : Reply → Option String
  | .output stdout _ => ((Text.lines stdout).map Text.trim).find? fun line => !line.isEmpty
  | _ => none

def body : Reply → String
  | .output stdout _ => "\n".intercalate (Finding.replyLines stdout).tail
  | _ => ""

def finding (path : String) : Reply → Except Fault Finding
  | .output stdout stderr => Finding.ofOutput stdout stderr
  | .failed cause => .error (External.unusable path cause)
  | .timeout => .ok { status := .unknown, reason := "timeout" }
  | .raised cause => .error cause.fault

structure Reads (reply : Reply) (found : Finding) : Prop where
  unsat : found.status = .unsat ↔ reply.firstLine? = some "unsat"
  sat : found.status = .sat ↔ reply.firstLine? = some "sat"
  unknown : found.status = .unknown ↔ reply.firstLine? = some "unknown" ∨ reply = .timeout
  model : found.status = .sat → Model.read reply.body = .ok found.model
  noModel : found.status ≠ .sat → found.model = []

structure Unreadable (reply : Reply) (f : Fault) : Prop where
  answered : reply ≠ .timeout
  notUnsat : reply.firstLine? ≠ some "unsat"
  notUnknown : reply.firstLine? ≠ some "unknown"
  noModel : reply.firstLine? = some "sat" → Model.read reply.body = .error f
  raised : ∀ cause, reply = .raised cause → f = cause.fault
  reported : reply.firstLine? ≠ some "sat" → (∀ cause, reply ≠ .raised cause) →
    ∃ message details, f = solverFailure message details

theorem firstLine?_output (stdout stderr : String) :
    (output stdout stderr).firstLine? = (Finding.replyLines stdout).head? :=
  (List.head?_filter ..).symm

theorem reads_or_unreadable (reply : Reply) (path : String) :
    (∃ found, reply.finding path = .ok found ∧ reply.Reads found) ∨
      ∃ f, reply.finding path = .error f ∧ reply.Unreadable f := by
  cases reply with
  | failed cause => exact .inr ⟨_, rfl, by constructor <;> simp [firstLine?, External.unusable]⟩
  | raised cause => exact .inr ⟨_, rfl, by constructor <;> simp [firstLine?]⟩
  | timeout => exact .inl ⟨_, rfl, by constructor <;> simp [firstLine?]⟩
  | output stdout stderr =>
    have hl := firstLine?_output stdout stderr
    cases hlines : Finding.replyLines stdout with
    | nil =>
      rw [hlines] at hl
      exact .inr ⟨_, by rw [finding, Finding.ofOutput, hlines], by constructor <;> simp [hl]⟩
    | cons line rest =>
      have hb : (output stdout stderr).body = "\n".intercalate rest := by rw [body, hlines, List.tail_cons]
      rw [hlines, List.head?_cons] at hl
      simp only [finding, Finding.ofOutput, hlines]
      by_cases hunsat : line = "unsat"
      · exact .inl ⟨_, if_pos hunsat, by constructor <;> simp [hl, hunsat]⟩
      by_cases hunknown : line = "unknown"
      · rw [if_neg hunsat, if_pos hunknown]
        exact .inl ⟨_, rfl, by constructor <;> simp [hl, hunknown]⟩
      by_cases hsat : line = "sat"
      · rw [if_neg hunsat, if_neg hunknown, if_pos hsat]
        cases hm : Model.read ("\n".intercalate rest) with
        | ok model => exact .inl ⟨_, rfl, by constructor <;> simp [hl, hb, hsat, hm]⟩
        | error f => exact .inr ⟨f, rfl, by constructor <;> simp [hl, hb, hsat, hm]⟩
      · rw [if_neg hunsat, if_neg hunknown, if_neg hsat]
        exact .inr ⟨_, rfl, by constructor <;> simp [hl, hunsat, hunknown, hsat]⟩

end Reply

namespace Solving

variable {σ α β : Type}

theorem run_bind (m : Solving σ α) (f : α → Solving σ β) (session : Session σ) (p : Progress) :
    ((m >>= f).run.run session).run p = match (m.run.run session).run p with
      | ((.ok a, session'), p') => ((f a).run.run session').run p'
      | ((.error e, session'), p') => ((.error e, session'), p') := by
  simp only [ExceptT.run, bind, ExceptT.bind, ExceptT.mk, StateT.bind, StateT.run]
  rcases m session p with ⟨⟨_ | a, session'⟩, p'⟩ <;> rfl

theorem run_alone (m : Solving σ α) (session : Session σ) (p : Progress) :
    (m.alone session).run p = (((m.run.run session).run p).1.1, ((m.run.run session).run p).2) :=
  rfl

end Solving

namespace Session

variable {σ : Type} (engine : Engine σ)

theorem run_configureOne (e : External) (key value : Datum) (p : Progress) :
    ((configureOne engine key value).run.run (.external e)).run p = match External.optionText key value with
      | .ok text => ((.ok (), .external { e with options := e.options ++ [text] }), p)
      | .error f => ((.error f, .external e), p) := by
  have hg : ((get : Solving σ (Session σ)).run.run (.external e)).run p = ((.ok (.external e), .external e), p) := rfl
  rw [configureOne, Solving.run_bind, hg]
  cases h : External.optionText key value with
  | ok text => rfl
  | error f => rfl

theorem forM_configureOne_cons (o : Datum × Datum) (options : List (Datum × Datum)) :
    ((o :: options).forM fun (key, value) => configureOne engine key value) =
      (do configureOne engine o.1 o.2
          options.forM fun (key, value) => configureOne engine key value : Solving σ Unit) :=
  rfl

theorem run_configureAll (e : External) (options : List (Datum × Datum)) (p : Progress) :
    ∃ session, ((options.forM fun (key, value) => configureOne engine key value).run.run (.external e)).run p =
      match options.mapM fun o => External.optionText o.1 o.2 with
      | .ok lines => ((.ok (), .external { e with options := e.options ++ lines }), p)
      | .error f => ((.error f, session), p) := by
  induction options generalizing e with
  | nil =>
    refine ⟨.external e, ?_⟩
    show ((Except.ok (), Session.external e), p) = ((.ok (), .external { e with options := e.options ++ [] }), p)
    rw [List.append_nil]
  | cons o options ih =>
    rw [forM_configureOne_cons, Solving.run_bind, run_configureOne, List.mapM_cons]
    cases External.optionText o.1 o.2 with
    | error f => exact ⟨.external e, rfl⟩
    | ok text =>
      obtain ⟨session, hr⟩ := ih { e with options := e.options ++ [text] }
      refine ⟨session, hr.trans ?_⟩
      cases options.mapM fun o => External.optionText o.1 o.2 with
      | error f => rfl
      | ok lines =>
        simp only [List.append_assoc]
        rfl

end Session

namespace External

def launch (smt2 : Printer) (e : External) (formula : Term .bool) : Except Fault Launch := do
  let script : Script := { head := "(set-option :produce-models true)" :: e.options, formulas := [formula] }
  return { path := e.path, args := e.args, timeout := ← e.limit, script, input := script.text smt2 }

end External

section

variable {σ : Type}

def Progress.launched (p : Progress) (solvers : Solvers σ) (journal : List Event) :
    Except Fault Launch → Except Fault Finding × Progress
  | .error f => (.error f, { p with supply.journal := journal })
  | .ok launch =>
    ((solvers.launch p.launches.length launch).finding launch.path,
      { p with supply.journal := journal, launches := launch :: p.launches })

theorem External.run_check (solvers : Solvers σ) (e : External) (formula : Term .bool) (p : Progress) :
    ∃ journal, (External.check solvers { e with formulas := [formula.negate] }).run p =
      p.launched solvers journal (e.launch solvers.smt2 formula.negate) := by
  let asked : External := { e with formulas := [formula.negate] }
  have hl : asked.limit = e.limit := rfl
  refine ⟨.script asked.path (asked.script.text solvers.smt2) :: p.supply.journal, ?_⟩
  rw [check, launch, hl]
  cases e.limit with
  | error f => rfl
  | ok timeout =>
    let made : Launch := ⟨e.path, e.args, timeout, asked.script, asked.script.text solvers.smt2⟩
    show (match solvers.launch p.launches.length made with
      | .output stdout stderr => liftM (Finding.ofOutput stdout stderr)
      | .failed cause => throw (unusable e.path cause)
      | .timeout => return { status := .unknown, reason := "timeout" }
      | .raised f => throw f.fault : Checking Finding).run _ =
        ((solvers.launch p.launches.length made).finding e.path, _)
    cases solvers.launch p.launches.length made <;> rfl

end

namespace Prover

def noPath : Fault :=
  solverFailure "External solver selected but no solver_path configured" []

def solverFor (settings : Settings) (path : String) : External where
  path := if path.isEmpty then settings.solverPath else path
  args := settings.solverArgs
  timeout := settings.timeout.getD 0

def launchFor (smt2 : Printer) (settings : Settings) (path : String) (formula : Term .bool) : Except Fault Launch :=
  if (solverFor settings path).path.isEmpty then .error noPath
  else do
    let options ← settings.sessionOptions
    let lines ← options.mapM fun o => External.optionText o.1 o.2
    External.launch smt2 { solverFor settings path with options := lines } formula

structure Sends (smt2 : Printer) (options : List (Datum × Datum)) (lines : List String) (formula : Term .bool)
    (input : String) : Prop where
  optionLines : options.mapM (fun o => External.optionText o.1 o.2) = .ok lines
  text : input = "\n".intercalate ("(set-option :produce-models true)" :: lines ++
    [Script.body smt2 [formula], "(get-model)", "(exit)"]) ++ "\n"
  commands : (∀ line ∈ lines, Commands.IsScript line) → Commands.IsScript (Script.body smt2 [formula]) →
    Commands.IsScript input ∧ Commands.commands input = "(set-option :produce-models true)" ::
      (lines.flatMap Commands.commands ++ Commands.commands (Script.body smt2 [formula]) ++ ["(get-model)", "(exit)"])
  asserts : (∀ o ∈ options, Commands.Bare o.1 ∧ Commands.Bare o.2) → Commands.IsScript (Script.body smt2 [formula]) →
    Commands.assertions input = Commands.assertions (Script.body smt2 [formula])

variable {σ : Type} {smt2 : Printer} {settings : Settings} {path : String}

theorem sends_of_launchFor {formula : Term .bool} {launch : Launch}
    (h : launchFor smt2 settings path formula = .ok launch) :
    launch.script.formulas = [formula] ∧ ∃ options lines, settings.sessionOptions = .ok options ∧
      Sends smt2 options lines formula launch.input := by
  unfold launchFor at h
  split at h
  · cases h
  · obtain ⟨options, ho, h⟩ := Outcome.bind_eq_ok_iff.1 h
    obtain ⟨lines, hl, h⟩ := Outcome.bind_eq_ok_iff.1 h
    obtain ⟨timeout, _, h⟩ := Outcome.bind_eq_ok_iff.1 h
    cases h
    exact ⟨rfl, options, lines, ho, hl, rfl, Commands.commands_text, Commands.assertions_text hl⟩

theorem start_eq (engine : Engine σ) (he : path ≠ "" ∨ settings.usesExternal = true) (number : Nat) :
    Session.start engine settings path number =
      if (solverFor settings path).path.isEmpty then .error noPath else .ok (.external (solverFor settings path)) := by
  have h : (!path.isEmpty || settings.usesExternal) = true := by simpa using he
  rw [Session.start, if_pos h]
  rfl

theorem ask_eq (solvers : Solvers σ) (formula : Term .bool) (p : Progress) :
    (ask solvers settings path formula).run p =
      (liftM (Session.start solvers.engine settings path p.sessions) >>= (question solvers settings formula).alone).run
        { p with sessions := p.sessions + 1 } :=
  rfl

theorem question_eq {options : List (Datum × Datum)} (ho : settings.sessionOptions = .ok options)
    (solvers : Solvers σ) (formula : Term .bool) : question solvers settings formula =
      Session.configure solvers.engine options >>= fun _ =>
        Session.assert solvers.engine formula >>= fun _ => Session.check solvers := by
  rw [question, ho]
  rfl

theorem run_ask (solvers : Solvers σ) (he : path ≠ "" ∨ settings.usesExternal = true) (formula : Term .bool)
    (p : Progress) :
    ∃ journal, (ask solvers settings path formula.negate).run p =
      { p with sessions := p.sessions + 1 }.launched solvers journal
        (launchFor solvers.smt2 settings path formula.negate) := by
  rw [ask_eq, start_eq solvers.engine he, launchFor]
  generalize hopened : { p with sessions := p.sessions + 1 } = opened
  cases (solverFor settings path).path.isEmpty with
  | true => exact ⟨opened.supply.journal, rfl⟩
  | false =>
    show ∃ journal, ((question solvers settings formula.negate).alone (.external (solverFor settings path))).run
      opened = _
    cases hs : settings.sessionOptions with
    | error f =>
      refine ⟨opened.supply.journal, ?_⟩
      rw [question, hs]
      rfl
    | ok options =>
      obtain ⟨session, ho⟩ := Session.run_configureAll solvers.engine (solverFor settings path) options opened
      have hc : ((Session.configure solvers.engine options).run.run
        (.external (solverFor settings path))).run opened = _ := ho
      rw [question_eq hs, Solving.run_alone, Solving.run_bind, hc]
      show ∃ journal, _ = opened.launched solvers journal (options.mapM _ >>= _)
      cases options.mapM fun o => External.optionText o.1 o.2 with
      | error f => exact ⟨opened.supply.journal, rfl⟩
      | ok lines => exact External.run_check solvers { solverFor settings path with options := lines } formula opened

def translate (registry : Registry) (count : Nat) (p : Property) : Except Fault (Term .bool) × Nat :=
  let run := (Encoding.encodeProperty registry p.expr).run { supply := { count } }
  (run.1, run.2.supply.count)

theorem run_translate (registry : Registry) (p : Property) (progress : Progress) :
    ∃ memo journal, (encodeProperty registry p.expr).run progress =
      (.ok ((translate registry progress.supply.count p).1, memo),
        { progress with supply := ⟨(translate registry progress.supply.count p).2, journal⟩ }) := by
  have hs : Encoder.Matches { supply := { count := progress.supply.count } } { supply := progress.supply } := ⟨rfl, rfl⟩
  obtain ⟨hr, hc, _⟩ := Encoding.blind_encodeProperty registry p.expr _ _ hs
  rcases hrun : (Encoding.encodeProperty registry p.expr).run { supply := progress.supply } with ⟨result, encoder⟩
  rw [hrun, id_map] at hr
  rw [hrun] at hc
  refine ⟨encoder.memo, encoder.supply.journal, ?_⟩
  rw [run_encodeProperty, hrun, translate, ← hr, ← hc]

structure Credited (settings : Settings) (p : Property) (reply : Reply) (o : Outcome) : Prop where
  name : o.name = .text p.name
  noError : o.error = .null
  valid : o.verdict = .valid ↔ reply.firstLine? = some "unsat"
  invalid : o.verdict = .invalid ↔ reply.firstLine? = some "sat"
  unknown : o.verdict = .unknown ↔ reply.firstLine? = some "unknown" ∨ reply = .timeout
  model : o.verdict = .invalid → ∃ model, Model.read reply.body = .ok model ∧
    o.counterexample =
      .object (if settings.includeCounterexamples then model.map fun (k, v) => (k, .text v) else [])
  noModel : o.verdict ≠ .invalid → o.counterexample = .map []

theorem verdict_eq_iff (s : Status) : (Verdict.ofStatus s = .valid ↔ s = .unsat) ∧
    (Verdict.ofStatus s = .invalid ↔ s = .sat) ∧ (Verdict.ofStatus s = .unknown ↔ s = .unknown) := by
  cases s <;> decide

theorem credited_outcomeOf {p : Property} {reply : Reply} {found : Finding} (h : reply.Reads found) :
    Credited settings p reply (outcomeOf settings p found) := by
  obtain ⟨hvalid, hinvalid, hunknown⟩ := verdict_eq_iff found.status
  refine ⟨rfl, rfl, hvalid.trans h.unsat, hinvalid.trans h.sat, hunknown.trans h.unknown, fun hv => ?_, fun hv => ?_⟩
  · exact ⟨found.model, h.model (hinvalid.1 hv), rfl⟩
  · have hm := h.noModel fun hs => hv (hinvalid.2 hs)
    simp [outcomeOf, hm, Datum.object]

inductive Settles (smt2 : Printer) (settings : Settings) (path : String) (reply : Launch → Reply) (p : Property) :
    Except Fault (Term .bool) → Outcome → List Launch → Prop
  | unsupported (construct : Datum) (details : List (Datum × Datum)) :
    Settles smt2 settings path reply p (.error (.reported (.unsupported construct details))) {
      name := .text p.name
      verdict := .unknown
      error := (Error.unsupported construct details).toDatum
      reason := (Error.unsupported construct details).message } []
  | credited {formula : Term .bool} {launch : Launch} {o : Outcome} {options : List (Datum × Datum)}
    {lines : List String} :
    launchFor smt2 settings path formula.negate = .ok launch → launch.script.formulas = [formula.negate] →
    settings.sessionOptions = .ok options → Sends smt2 options lines formula.negate launch.input →
    Credited settings p (reply launch) o → Settles smt2 settings path reply p (.ok formula) o [launch]

inductive Stops (smt2 : Printer) (settings : Settings) (path : String) (reply : Launch → Reply) :
    Except Fault (Term .bool) → Fault → List Launch → Prop
  | untranslated {f : Fault} : (∀ construct details, f ≠ .reported (.unsupported construct details)) →
    Stops smt2 settings path reply (.error f) f []
  | unlaunched {formula : Term .bool} {f : Fault} :
    launchFor smt2 settings path formula.negate = .error f → Stops smt2 settings path reply (.ok formula) f []
  | unreadable {formula : Term .bool} {launch : Launch} {f : Fault} :
    launchFor smt2 settings path formula.negate = .ok launch → (reply launch).Unreadable f →
    Stops smt2 settings path reply (.ok formula) f [launch]

theorem run_proveProperty (solvers : Solvers σ) (he : path ≠ "" ∨ settings.usesExternal = true) (registry : Registry)
    (p : Property) (progress : Progress) :
    let x := translate registry progress.supply.count p
    let reply := solvers.launch progress.launches.length
    ∃ result own journal sessions, (proveProperty solvers settings path registry p).run progress =
        (result, ⟨⟨x.2, journal⟩, sessions, own.reverse ++ progress.launches⟩) ∧
      match result with
      | .ok o => Settles solvers.smt2 settings path reply p x.1 o own
      | .error f => Stops solvers.smt2 settings path reply x.1 f own := by
  dsimp only
  obtain ⟨memo, journal, ht⟩ := run_translate registry p progress
  rw [proveProperty, Outcome.run_bind_of_ok ht]
  cases hx : (translate registry progress.supply.count p).1 with
  | ok formula =>
    let noted : Progress := {
      supply := ⟨(translate registry progress.supply.count p).2, .freeSymbols p.name memo.size :: journal⟩
      sessions := progress.sessions
      launches := progress.launches }
    obtain ⟨journal', ha⟩ := run_ask solvers he formula noted
    show ∃ result own journal sessions,
      ((ask solvers settings path formula.negate >>= _) : Checking Outcome).run noted = _ ∧ _
    cases hl : launchFor solvers.smt2 settings path formula.negate with
    | error f =>
      rw [hl] at ha
      exact ⟨.error f, [], journal', _, Outcome.run_bind_of_error ha, .unlaunched hl⟩
    | ok launch =>
      rw [hl] at ha
      rcases (solvers.launch progress.launches.length launch).reads_or_unreadable launch.path with
        ⟨found, hf, hr⟩ | ⟨f, hf, hu⟩
      · have ha : _ = (Except.ok found, _) := ha.trans (Prod.ext hf rfl)
        obtain ⟨hformulas, options, lines, ho, hsends⟩ := sends_of_launchFor hl
        exact ⟨.ok (outcomeOf settings p found), [launch], .verdict p.name _ :: journal', _,
          Outcome.run_bind_of_ok ha, .credited hl hformulas ho hsends (credited_outcomeOf hr)⟩
      · have ha : _ = (Except.error f, _) := ha.trans (Prod.ext hf rfl)
        exact ⟨.error f, [launch], journal', _, Outcome.run_bind_of_error ha, .unreadable hl hu⟩
  | error f =>
    by_cases hf : ∃ construct details, f = .reported (.unsupported construct details)
    · obtain ⟨construct, details, rfl⟩ := hf
      exact ⟨.ok _, [], _, _, rfl, .unsupported construct details⟩
    · refine ⟨.error f, [], journal, progress.sessions, ?_, ?_⟩
      case refine_2 => exact .untranslated fun construct details h => hf ⟨construct, details, h⟩
      split
      · next h => cases h
      · next h =>
        cases h
        exact absurd ⟨_, _, rfl⟩ hf
      · next h =>
        cases h
        rfl

def formulas (registry : Registry) : Nat → List Property → List (Except Fault (Term .bool))
  | _, [] => []
  | count, p :: ps => (translate registry count p).1 :: formulas registry (translate registry count p).2 ps

def translated (formulas : List (Except Fault (Term .bool))) : List (Term .bool) :=
  formulas.filterMap Except.toOption

def launchesFor (smt2 : Printer) (settings : Settings) (path : String)
    (formulas : List (Except Fault (Term .bool))) : Except Fault (List Launch) :=
  (translated formulas).mapM fun formula => launchFor smt2 settings path formula.negate

-- every property has its outcome; the number of its reply is that of the formulas before its own
structure Settled (smt2 : Printer) (settings : Settings) (path : String) (replies : Nat → Launch → Reply)
    (properties : List Property) (formulas : List (Except Fault (Term .bool))) (outcomes : List Outcome)
    (launches : List Launch) : Prop where
  length_eq : outcomes.length = properties.length
  launches_eq : launchesFor smt2 settings path formulas = .ok launches
  each : ∀ i p, properties[i]? = some p → ∃ x o own, formulas[i]? = some x ∧ outcomes[i]? = some o ∧
    Settles smt2 settings path (replies (translated (formulas.take i)).length) p x o own ∧
    own <+: launches.drop (translated (formulas.take i)).length

variable {replies : Nat → Launch → Reply} {reply : Launch → Reply} {p : Property} {properties : List Property}
  {x : Except Fault (Term .bool)} {xs : List (Except Fault (Term .bool))} {o : Outcome} {outcomes : List Outcome}
  {own made : List Launch}

theorem Settles.launches (h : Settles smt2 settings path reply p x o own)
    (hm : launchesFor smt2 settings path xs = .ok made) :
    launchesFor smt2 settings path (x :: xs) = .ok (own ++ made) := by
  cases h with
  | unsupported construct details => exact hm
  | credited hl _ _ _ _ => exact Outcome.mapM_eq_ok_iff.2 (.cons hl (Outcome.mapM_eq_ok_iff.1 hm))

theorem Settles.length_translated (h : Settles smt2 settings path reply p x o own)
    (xs : List (Except Fault (Term .bool))) :
    (translated (x :: xs)).length = own.length + (translated xs).length := by
  cases h with
  | unsupported construct details => exact (Nat.zero_add _).symm
  | credited _ _ _ _ _ => exact Nat.add_comm ..

theorem settled_nil : Settled smt2 settings path replies [] [] [] [] :=
  ⟨rfl, rfl, fun i p h => by cases h⟩

theorem settled_cons (h : Settles smt2 settings path (replies 0) p x o own)
    (hs : Settled smt2 settings path (fun n => replies (own.length + n)) properties xs outcomes made) :
    Settled smt2 settings path replies (p :: properties) (x :: xs) (o :: outcomes) (own ++ made) := by
  refine ⟨congrArg Nat.succ hs.length_eq, h.launches hs.launches_eq, fun i q hq => ?_⟩
  cases i with
  | zero =>
    cases hq
    exact ⟨x, o, own, rfl, rfl, h, List.prefix_append own made⟩
  | succ i =>
    obtain ⟨y, u, ours, hy, hu, hq, hp⟩ := hs.each i q hq
    refine ⟨y, u, ours, hy, hu, ?_⟩
    rw [List.take_succ_cons, h.length_translated, List.drop_length_add_append]
    exact ⟨hq, hp⟩

theorem Settled.credited {i : Nat} {formula : Term .bool} {launches : List Launch}
    (h : Settled smt2 settings path replies properties xs outcomes launches) (hp : properties[i]? = some p)
    (hx : xs[i]? = some (.ok formula)) (ho : outcomes[i]? = some o) :
    ∃ launch options lines, launches[(translated (xs.take i)).length]? = some launch ∧
      settings.sessionOptions = .ok options ∧ Sends smt2 options lines formula.negate launch.input ∧
      Credited settings p (replies (translated (xs.take i)).length launch) o := by
  obtain ⟨_, _, _, hx', ho', hs, hpre⟩ := h.each i p hp
  cases hx.symm.trans hx'
  cases ho.symm.trans ho'
  cases hs with
  | credited _ _ hoptions hsends hc =>
    obtain ⟨rest, hrest⟩ := hpre
    have hfirst := congrArg (·[0]?) hrest.symm
    rw [List.getElem?_drop, Nat.add_zero] at hfirst
    exact ⟨_, _, _, hfirst, hoptions, hsends, hc⟩

theorem run_proveAll (solvers : Solvers σ) (he : path ≠ "" ∨ settings.usesExternal = true) (registry : Registry)
    (properties : List Property) (progress : Progress) :
    let formulas := formulas registry progress.supply.count properties
    let replies := fun n => solvers.launch (progress.launches.length + n)
    ∃ result made supply sessions, (properties.mapM (proveProperty solvers settings path registry)).run progress =
        (result, ⟨supply, sessions, made.reverse ++ progress.launches⟩) ∧
      match result with
      | .ok outcomes => Settled solvers.smt2 settings path replies properties formulas outcomes made
      | .error f => ∃ n outcomes before p x own, made = before ++ own ∧
        Settled solvers.smt2 settings path replies (properties.take n) (formulas.take n) outcomes before ∧
        properties[n]? = some p ∧ formulas[n]? = some x ∧
        Stops solvers.smt2 settings path (replies before.length) x f own := by
  induction properties generalizing progress with
  | nil => exact ⟨.ok [], [], progress.supply, progress.sessions, rfl, settled_nil⟩
  | cons p properties ih =>
    obtain ⟨result, own, journal, sessions, hr, hp⟩ := run_proveProperty solvers he registry p progress
    rw [List.mapM_cons]
    cases result with
    | error f =>
      refine ⟨.error f, own, _, _, Outcome.run_bind_of_error hr, 0, [], [], p, _, own, rfl, settled_nil, rfl, rfl, hp⟩
    | ok o =>
      rw [Outcome.run_bind_of_ok hr]
      obtain ⟨result, made, supply, sessions, hr, hrest⟩ :=
        ih ⟨⟨_, journal⟩, sessions, own.reverse ++ progress.launches⟩
      have hn (n : Nat) :
          (own.reverse ++ progress.launches).length + n = progress.launches.length + (own.length + n) := by
        rw [List.length_append, List.length_reverse, Nat.add_comm own.length, Nat.add_assoc]
      simp only [hn] at hrest
      have hl : made.reverse ++ (own.reverse ++ progress.launches) = (own ++ made).reverse ++ progress.launches := by
        rw [List.reverse_append, List.append_assoc]
      cases result with
      | ok outcomes =>
        refine ⟨.ok (o :: outcomes), own ++ made, supply, sessions, ?_, settled_cons hp hrest⟩
        rw [Outcome.run_bind_of_ok hr, hl]
        rfl
      | error f =>
        obtain ⟨n, outcomes, before, q, x, last, rfl, hs, hq, hx, hstop⟩ := hrest
        refine ⟨.error f, own ++ (before ++ last), supply, sessions, ?_, n + 1, o :: outcomes, own ++ before, q, x,
          last, (List.append_assoc ..).symm, settled_cons hp hs, hq, hx, ?_⟩
        · rw [Outcome.run_bind_of_error hr, hl]
        · rw [List.length_append]
          exact hstop

theorem replies_credited (solvers : Solvers σ) (settings : Settings) (path : String) (spec : Spec)
    (he : path ≠ "" ∨ settings.usesExternal = true) :
    (∀ f, Registry.ofStreams spec.streams = .error f → (prove solvers settings path spec).run {} = (.error f, {})) ∧
    ∀ registry, Registry.ofStreams spec.streams = .ok registry →
      let formulas := formulas registry 0 spec.properties
      let run := (prove solvers settings path spec).run {}
      let launches := run.2.launches.reverse
      (∀ outcomes, run.1 = .ok outcomes →
        Settled solvers.smt2 settings path solvers.launch spec.properties formulas outcomes launches) ∧
      ∀ f, run.1 = .error f → ∃ n outcomes before p x own, launches = before ++ own ∧
        Settled solvers.smt2 settings path solvers.launch (spec.properties.take n) (formulas.take n) outcomes before ∧
        spec.properties[n]? = some p ∧ formulas[n]? = some x ∧
        Stops solvers.smt2 settings path (solvers.launch before.length) x f own := by
  refine ⟨fun f hr => ?_, fun registry hr => ?_⟩
  · rw [prove, hr]
    rfl
  · have hp : (prove solvers settings path spec).run {} =
        (spec.properties.mapM (proveProperty solvers settings path registry)).run {} := by
      rw [prove, hr]
      rfl
    obtain ⟨result, made, supply, sessions, hrun, h⟩ := run_proveAll solvers he registry spec.properties {}
    simp only [List.length_nil, Nat.zero_add] at h
    rw [hp, hrun]
    simp only [List.append_nil, List.reverse_reverse]
    refine ⟨?_, ?_⟩
    · rintro outcomes rfl
      exact h
    · rintro f rfl
      exact h

def plainPrinter : Printer := fun formulas =>
  String.join (formulas.map fun t => s!"(assert {Script.termText t})\n") ++ "(check-sat)\n"

def scripted (replies : Nat → Reply) : Solvers Unit where
  engine := {
    start := fun _ => ()
    configure := fun _ _ s => (s, .ok ())
    assert := fun _ s => (s, .ok ())
    check := fun s => (s, .ok { status := .unknown }) }
  smt2 := plainPrinter
  launch n _ := replies n

def mixed : Spec where
  streams := []
  properties := [⟨"always", .const .bool (.bool true)⟩, ⟨"open", .var .bool "v"⟩, ⟨"never", .const .bool (.bool false)⟩]

def twoReplies : Nat → Reply
  | 0 => .output "\n unsat \n(error)\n" ""
  | _ => .output "sat\n(model (define-fun |k!0| () Bool true))\n" ""

theorem twoReplies_readable (n : Nat) (f : Fault) : ¬ (twoReplies n).Unreadable f := by
  intro h
  cases n with
  | zero => exact h.notUnsat rfl
  | succ n =>
    have hm : Model.read (twoReplies (n + 1)).body = .ok [("k!0", "true")] := by
      show Model.read "(model (define-fun |k!0| () Bool true))" = _
      cbv
    exact absurd (hm.symm.trans (h.noModel rfl)) (by simp)

theorem printed_not_true :
    Script.body plainPrinter [(Term.bool true).negate] = "(assert (not true))\n(check-sat)" := by
  rfl

theorem printed_not_false :
    Script.body plainPrinter [(Term.bool false).negate] = "(assert (not false))\n(check-sat)" := by
  rfl

theorem mixed_replies_credited :
    ("solver" ≠ "" ∨ ({} : Settings).usesExternal = true) ∧ Registry.ofStreams mixed.streams = .ok {} ∧
    ∃ outcomes progress first second,
      (prove (scripted twoReplies) {} "solver" mixed).run {} = (.ok outcomes, progress) ∧
      outcomes.map (·.verdict) = [.valid, .unknown, .invalid] ∧ progress.launches = [second, first] ∧
      Commands.assertions first.input = ["(assert (not true))"] ∧
      Commands.assertions second.input = ["(assert (not false))"] := by
  have he : "solver" ≠ "" ∨ ({} : Settings).usesExternal = true := .inl (by decide)
  refine ⟨he, rfl, ?_⟩
  have h := (replies_credited (scripted twoReplies) {} "solver" mixed he).2 {} rfl
  revert h
  generalize (prove (scripted twoReplies) {} "solver" mixed).run {} = run
  obtain ⟨result, progress⟩ := run
  rintro ⟨hok, herror⟩
  cases result with
  | error f =>
    obtain ⟨n, _, before, p, x, own, _, _, _, hx, hs⟩ := herror f rfl
    cases hs with
    | untranslated hf =>
      have hm : Except.error f ∈ formulas {} 0 mixed.properties := List.mem_of_getElem? hx
      rcases List.mem_cons.1 hm with h | hm
      · cases h
      rcases List.mem_cons.1 hm with h | hm
      · cases h
        exact absurd rfl (hf _ _)
      · cases List.mem_singleton.1 hm
    | unlaunched h => cases h
    | unreadable _ h => exact absurd h (twoReplies_readable _ f)
  | ok outcomes =>
    have hs := hok outcomes rfl
    obtain ⟨a, b, c, rfl⟩ := List.length_eq_three.1 hs.length_eq
    obtain ⟨first, _, _, hfirst, ho, hsends, ha⟩ := hs.credited (i := 0) rfl rfl rfl
    obtain ⟨second, _, _, hsecond, ho', hsends', hc⟩ := hs.credited (i := 2) rfl rfl rfl
    cases ho
    cases ho'
    have hb : b.verdict = .unknown := by
      obtain ⟨_, _, _, hx, ho, hs, _⟩ := hs.each 1 _ rfl
      cases hx
      cases ho
      cases hs with
      | unsupported => rfl
    have hlength := (Outcome.mapM_eq_ok_iff.1 hs.launches_eq).length_eq
    obtain ⟨_, _, hl⟩ := List.length_eq_two.1 hlength.symm
    dsimp only at hl
    rw [hl] at hfirst hsecond
    cases hfirst
    cases hsecond
    refine ⟨[a, b, c], progress, first, second, rfl, ?_, List.reverse_eq_iff.1 hl, ?_, ?_⟩
    · simp [ha.valid.2 rfl, hb, hc.invalid.2 rfl]
    · have hbody : Script.body (scripted twoReplies).smt2 [(Term.bool true).negate] = _ := printed_not_true
      rw [hsends.asserts (List.forall_mem_nil _) (hbody ▸ rfl), hbody]
      rfl
    · have hbody : Script.body (scripted twoReplies).smt2 [(Term.bool false).negate] = _ := printed_not_false
      rw [hsends'.asserts (List.forall_mem_nil _) (hbody ▸ rfl), hbody]
      rfl

def seeded : Settings where
  solverOptions := [(.text "random_seed", .text "7) (assert false")]

theorem option_text_asserts : ∃ outcomes progress launch,
    (prove (scripted fun _ => .output "unsat" "") seeded "solver"
      ⟨[], [⟨"never", .const .bool (.bool false)⟩]⟩).run {} = (.ok outcomes, progress) ∧
    outcomes.map (·.verdict) = [.valid] ∧ progress.launches = [launch] ∧
    launch.script.formulas = [(Term.bool false).negate] ∧
    Commands.assertions launch.input = ["(assert false)", "(assert (not false))"] := by
  have hline : Commands.IsScript "(set-option :random_seed 7) (assert false)" := by rfl
  have hbody : Commands.IsScript (Script.body plainPrinter [(Term.bool false).negate]) := printed_not_false ▸ rfl
  obtain ⟨_, hc⟩ := Commands.commands_text (List.forall_mem_singleton.2 hline) hbody
  have hasserts := congrArg (List.filter (Commands.keyword · = "assert")) hc
  rw [printed_not_false] at hasserts
  exact ⟨_, _, _, rfl, rfl, rfl, rfl, hasserts⟩

end Prover

end OneStep
