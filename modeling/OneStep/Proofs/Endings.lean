import Mathlib
import OneStep.CommandLine.Run
import OneStep.Proofs.Rendering
import OneStep.Proofs.Sessions
import OneStep.Proofs.Stops

namespace OneStep

open Outcome

variable {F : Fault → Prop}

namespace Settings

def Holds (yaml : Document.Reader) (files : FileTree) (path : String) (entries : List (Datum × Datum)) : Prop :=
  ∃ content text d, files.read path = .ok content ∧ FileTree.decode content = .ok text ∧
    Document.read yaml (formatOf path) text = .ok (some d) ∧ orEmpty (formatOf path) d = .map entries

def textKeys : List String :=
  ["solver", "solver_path", "solver_args", "format"]

inductive Unread (yaml : Document.Reader) (files : FileTree) (path : String) : Fault → Prop where
  | zero (holds : path.toList.contains '\x00' = true) : Unread yaml files path .zeroInPath
  | encoding {content : ByteArray} (read : files.read path = .ok content) (invalid : String.fromUTF8? content = none) :
    Unread yaml files path .invalidEncoding
  | document {content : ByteArray} {text : String} {f : Fault} (read : files.read path = .ok content)
    (decoded : FileTree.decode content = .ok text) (fault : Document.read yaml (formatOf path) text = .error f) :
    Unread yaml files path f
  | timeout {entries : List (Datum × Datum)} {d : Datum} {f : Fault} (holds : Holds yaml files path entries)
    (found : Datum.findOpen? entries "timeout_ms" = some d) (fault : wholeNumber d = .error f) :
    Unread yaml files path f
  | integer {entries : List (Datum × Datum)} {key : String} {d : Datum} (holds : Holds yaml files path entries)
    (text : key ∈ textKeys) (found : Datum.find? entries key = some d) (long : d.isWritable = false) :
    Unread yaml files path .unwritable

variable {yaml : Document.Reader} {files : FileTree} {path : String} {entries : List (Datum × Datum)}

theorem meets_ofEntries
    (hw : ∀ key ∈ textKeys, ∀ d, Datum.find? entries key = some d → d.isWritable = true ∨ F .unwritable)
    (ht : ∀ d f, Datum.findOpen? entries "timeout_ms" = some d → wholeNumber d = .error f → F f) :
    Meets F (ofEntries entries) := by
  unfold ofEntries
  extract_lets base get textOr options counterexamples
  have htext : ∀ key ∈ textKeys, ∀ default, Meets F (textOr key default) := by
    intro key hk default
    unfold textOr
    split
    · next d hd => exact Datum.meets_asText (hw key hk d hd)
    · trivial
  refine yields_bind (htext "solver" (by decide) _) fun solver _ => ?_
  -- what follows on each setting, from the last to the first
  extract_lets afterPath
  have hpath : ∀ path, Meets F (afterPath path) := by
    intro path
    unfold afterPath
    extract_lets afterArgs
    have hargs : ∀ args, Meets F (afterArgs args) := by
      intro args
      unfold afterArgs
      extract_lets afterTimeout
      have htimeout : ∀ timeout, Meets F (afterTimeout timeout) := fun timeout =>
        yields_bind (htext "format" (by decide) _) fun _ _ => trivial
      split
      · next d hd =>
        cases hn : wholeNumber d with
        | ok n => exact htimeout (some n)
        | error f => exact ht d f hd hn
      · exact htimeout _
    split
    · next items hitems =>
      obtain ⟨d, hd, hu⟩ := Option.map_eq_some_iff.1 hitems
      have hall : ∀ x ∈ items, Meets F x.asText := by
        refine fun x hx => Datum.meets_asText ((hw "solver_args" (by decide) d hd).imp_left fun hd => ?_)
        exact Datum.isWritable_of_mem (d := .list items) hx (hu ▸ Datum.isWritable_unroll hd)
      exact yields_bind (yields_mapM hall) fun args _ => hargs args
    · exact hargs _
  split
  · exact yields_bind (htext "solver_path" (by decide) _) fun path _ => hpath path
  · exact hpath _

theorem meets_ofFile (hu : ∀ f, Unread yaml files path f → F f) : Meets F (ofFile yaml files path) := by
  unfold ofFile
  refine yields_bind (P := fun _ => True) ?check fun _ _ => ?_
  case check =>
    unfold Path.check
    split
    · next hz => exact hu _ (.zero hz)
    · trivial
  cases hread : files.read path with
  | error e => trivial
  | ok content =>
    have hdecode : Yields F (fun text => FileTree.decode content = .ok text) (FileTree.decode content) := by
      unfold FileTree.decode
      split
      · rfl
      · next hnone => exact hu _ (.encoding hread hnone)
    refine yields_bind hdecode fun text htext => ?_
    have hdocument : Yields F (fun d => Document.read yaml (formatOf path) text = .ok d)
        (Document.read yaml (formatOf path) text) := by
      cases hd : Document.read yaml (formatOf path) text with
      | ok d => rfl
      | error f => exact hu _ (.document hread htext hd)
    refine yields_bind hdocument fun d hd => ?_
    cases d with
    | none => trivial
    | some d =>
      dsimp only
      split
      · next entries hentries =>
        have hholds : Holds yaml files path entries := ⟨content, text, d, hread, htext, hd, hentries⟩
        refine yields_bind (meets_ofEntries (fun key hk d hd => ?_) fun d f hd hf => ?_) fun _ _ => trivial
        · cases hw : d.isWritable with
          | true => exact .inl rfl
          | false => exact .inr (hu _ (.integer hholds hk hd hw))
        · exact hu _ (.timeout hholds hd hf)
      · trivial

theorem meets_load {given : Option String} {start : String}
    (hu : ∀ path f, given.or (find? files start) = some path → Unread yaml files path f → F f) :
    Meets F (load yaml files given start) := by
  unfold load
  split
  · trivial
  · next path hpath => exact yields_bind (meets_ofFile fun f => hu path f hpath) fun _ _ => trivial

end Settings

namespace Prover

inductive Answers (settings : Settings) (p : Property) : Outcome → Prop where
  | found (f : Finding) : Answers settings p (outcomeOf settings p f)
  | unsupported (construct : Datum) (details : List (Datum × Datum)) : Answers settings p {
      name := .text p.name
      verdict := .unknown
      error := (Error.unsupported construct details).toDatum
      reason := (Error.unsupported construct details).message }

variable {settings : Settings} {p : Property} {o : Outcome}

theorem Answers.name (h : Answers settings p o) : o.name = .text p.name := by
  cases h <;> rfl

theorem map_name_eq {properties : List Property} {outcomes : List Outcome}
    (h : List.Forall₂ (Answers settings) properties outcomes) :
    outcomes.map (·.name) = properties.map fun p => .text p.name := by
  induction h with
  | nil => rfl
  | cons ha _ ih => exact congrArg₂ List.cons ha.name ih

theorem Answers.meets_toDatum (h : Answers settings p o) : Meets F o.toDatum := by
  cases h <;> trivial

theorem Answers.meets_lines (h : Answers settings p o) : Meets F o.lines := by
  have htext (s : String) : Meets F (Datum.text s).asText := Datum.meets_asText (.inl rfl)
  cases h with
  | unsupported construct details => trivial
  | found f =>
    refine yields_bind (htext p.name) fun _ _ => yields_bind (P := fun _ => True) ?cause fun _ _ => ?_
    case cause =>
      unfold Outcome.cause
      split
      · next h => cases h
      · split <;> trivial
    refine yields_bind (P := fun _ => True) ?assignment fun _ _ => trivial
    refine (yields_mapM (Q := fun _ => True) fun entry hentry => ?_).meets
    obtain ⟨⟨name, d⟩, hmem, rfl⟩ := List.mem_map.1 hentry
    obtain ⟨value, rfl⟩ : ∃ value, d = .text value := by
      split at hmem
      · obtain ⟨⟨_, value⟩, _, h⟩ := List.mem_map.1 hmem
        cases h
        exact ⟨value, rfl⟩
      · cases hmem
    exact yields_bind (htext name) fun _ _ => yields_bind (htext value) fun _ _ => trivial

end Prover

theorem CommandLine.exists_outcomesText {settings : Settings} {properties : List Property} {outcomes : List Outcome}
    (h : List.Forall₂ (Prover.Answers settings) properties outcomes) (format : String) :
    ∃ text, outcomesText format outcomes = .ok text := by
  have hall {β : Type} {shown : Outcome → Except Fault β}
      (hs : ∀ p o, Prover.Answers settings p o → Meets (fun _ => False) (shown o)) :
      Meets (fun _ => False) (outcomes.mapM shown) := by
    refine (yields_mapM (Q := fun _ => True) fun o ho => ?_).meets
    obtain ⟨p, _, hp⟩ := forall₂_exists_of_mem h.flip ho
    exact hs p o hp
  have hmeets : Meets (fun _ => False) (outcomesText format outcomes) := by
    unfold outcomesText Outcome.report
    split
    · exact yields_bind (hall fun p o hp => hp.meets_toDatum) fun _ _ => trivial
    · exact yields_bind (hall fun p o hp => hp.meets_lines) fun _ _ => trivial
  cases ht : outcomesText format outcomes with
  | ok text => exact ⟨text, rfl⟩
  | error f =>
    rw [ht] at hmeets
    exact hmeets.elim

theorem Spec.wellFormed_of_load {yaml : Document.Reader} {files : FileTree} {source : String} {spec : Spec}
    (h : load yaml files source = .ok spec) : spec.WellFormed := by
  unfold load at h
  obtain ⟨_, _, h⟩ := bind_eq_ok_iff.1 h
  split at h
  · cases h
  · obtain ⟨text, _, h⟩ := bind_eq_ok_iff.1 h
    obtain ⟨d, _, h⟩ := bind_eq_ok_iff.1 h
    cases d with
    | none => cases h
    | some d => exact wellFormed_ofDatum h

def Spec.Ends (spec : Spec) : Prop :=
  ∀ registry, Registry.ofStreams spec.streams = .ok registry → ∀ p ∈ spec.properties, ∀ supply,
    Decides ((Encoding.encodeProperty registry p.expr).run { supply }).1

def Spec.Poses (spec : Spec) (formula : Term .bool) : Prop :=
  ∃ registry p supply, Registry.ofStreams spec.streams = .ok registry ∧ p ∈ spec.properties ∧
    ((Encoding.encodeProperty registry p.expr).run { supply }).1 = .ok formula

namespace Prover

variable {σ : Type}

inductive Refuses (spec : Spec) : Error → Prop where
  | specification {registry : Registry} {p : Property} {supply : Supply} {e : Error}
    (streams : Registry.ofStreams spec.streams = .ok registry) (property : p ∈ spec.properties)
    (untranslated : ((Encoding.encodeProperty registry p.expr).run { supply }).1 = .error (.reported e))
    (supported : ∀ construct details, e ≠ .unsupported construct details) : Refuses spec e
  | solver (message details : Datum) : Refuses spec (.solver message details)

inductive Faults (solvers : Solvers σ) (settings : Settings) (path : String) (spec : Spec) : Fault → Prop where
  | refused {e : Error} (h : Refuses spec e) : Faults solvers settings path spec (.reported e)
  | translation {f : Fault} (h : spec.Stops f) : Faults solvers settings path spec f
  | question {formula : Term .bool} {f : Fault} (posed : spec.Poses formula)
    (h : Fails solvers settings path formula.negate f) : Faults solvers settings path spec f

variable {solvers : Solvers σ} {settings : Settings} {path : String} {spec : Spec} {registry : Registry}

theorem yields_proveProperty (hr : Registry.ofStreams spec.streams = .ok registry) (hw : spec.WellFormed)
    (he : spec.Ends) {p : Property} (hp : p ∈ spec.properties) (progress : Progress) :
    Yields (Faults solvers settings path spec) (Answers settings p)
      ((proveProperty solvers settings path registry p).run progress).1 := by
  have hhalts := Encoding.halts_encodeProperty hr hw hp { supply := progress.supply }
  have hends := he registry hr p hp progress.supply
  have htranslate := run_encodeProperty registry p.expr progress
  rcases hrun : (Encoding.encodeProperty registry p.expr).run { supply := progress.supply } with ⟨result, encoder⟩
  rw [hrun] at hhalts hends htranslate
  rw [proveProperty, Outcome.run_bind_of_ok htranslate]
  cases result with
  | ok formula =>
    have hposed : spec.Poses formula := ⟨registry, p, progress.supply, hr, hp, congrArg Prod.fst hrun⟩
    have hask : Halts (Faults solvers settings path spec) (ask solvers settings path formula.negate) :=
      halts_ask (fun message details => .refused (.solver _ _)) (fun f => .question hposed)
    refine yields_run_bind (P := fun _ => True) trivial fun _ noted _ => ?_
    exact yields_run_bind (hask noted) fun found _ _ => .found found
  | error f =>
    cases hhalts with
    | endless => exact absurd rfl hends
    | stops h =>
      have hf : Faults solvers settings path spec f := .translation h
      cases h <;> exact hf
    | reported e =>
      have hf (hs : ∀ construct details, e ≠ .unsupported construct details) :
          Faults solvers settings path spec (.reported e) := .refused (.specification hr hp (congrArg Prod.fst hrun) hs)
      cases e with
      | unsupported construct details => exact .unsupported construct details
      | _ => exact hf fun _ _ h => by cases h

theorem yields_prove (hw : spec.WellFormed) (he : spec.Ends) (progress : Progress) :
    Yields (Faults solvers settings path spec) (List.Forall₂ (Answers settings) spec.properties)
      ((prove solvers settings path spec).run progress).1 := by
  have hr : Meets (Faults solvers settings path spec) (Registry.ofStreams spec.streams) := by
    rw [Registry.ofStreams_eq_ok_iff.2 ⟨hw.distinct, rfl⟩]
    trivial
  exact yields_run_bind (yields_self hr) fun registry progress hr =>
    yields_run_mapM (fun p hp => yields_proveProperty hr.2 hw he hp) progress

end Prover

namespace CommandLine

variable {σ : Type}

structure Documented (spec : Spec) (settings : Settings) (result : Except Fault (List Outcome)) (ending : Ending) :
    Prop where
  status : ending.code = 0 ∨ ending.code = 1 ∨ ending.code = 2
  proved : ending.code = 0 ↔ ∃ outcomes, result = .ok outcomes ∧ ∀ o ∈ outcomes, o.verdict = .valid
  unproved : ending.code = 1 ↔ ∃ outcomes, result = .ok outcomes ∧ ∃ o ∈ outcomes, o.verdict ≠ .valid
  refused : ending.code = 2 ↔ ∃ e, result = .error (.reported e) ∧ Prover.Refuses spec e
  processed : ∀ outcomes, result = .ok outcomes → outcomes.map (·.name) = spec.properties.map fun p => .text p.name
  shown : ∀ outcomes, result = .ok outcomes →
    ∃ text, outcomesText settings.format outcomes = .ok text ∧ ending.stdout = text ++ "\n"
  report : ∀ e, result = .error (.reported e) → ending.stdout = e.toJson 2 ++ "\n"

def settingsFile? (files : FileTree) (r : ProveRequest) : Option String :=
  r.config.join.or (Settings.find? files (Path.ofSteps (files.absolute r.file).dropLast))

def verdicts (host : Host σ) (r : ProveRequest) (spec : Spec) (settings : Settings) (events : List Event) :
    Except Fault (List Outcome) :=
  ((Prover.prove host.toSolvers settings r.solverPath spec).run { supply := { journal := events.reverse } }).1

inductive Escapes (host : Host σ) (files : FileTree) (r : ProveRequest) (spec : Spec) : Fault → Prop where
  | noPath (asked : r.config = some none) : Escapes host files r spec .noPath
  | settings {path : String} {f : Fault} (inForce : settingsFile? files r = some path)
    (unread : Settings.Unread host.yaml files path f) : Escapes host files r spec f
  | translation {f : Fault} (stops : spec.Stops f) : Escapes host files r spec f
  | question {settings : Settings} {events : List Event} {formula : Term .bool} {f : Fault}
    (loaded : settingsFor host.yaml files r = .ok (settings, events)) (posed : spec.Poses formula)
    (fails : Prover.Fails host.toSolvers settings r.solverPath formula.negate f) : Escapes host files r spec f
  | print {settings : Settings} {events : List Event} {ending : Ending} {cause : PrintFault}
    (loaded : settingsFor host.yaml files r = .ok (settings, events))
    (documented : Documented spec settings (verdicts host r spec settings events) ending)
    (refused : host.console ending.stdout = some cause) : Escapes host files r spec cause.fault

variable {host : Host σ} {files : FileTree} {r : ProveRequest} {spec : Spec}

theorem meets_settingsFor : Meets (Escapes host files r spec) (settingsFor host.yaml files r) := by
  unfold settingsFor
  extract_lets start load
  have hload : ∀ given, r.config.join = given → Meets (Escapes host files r spec) (load given) := by
    rintro given rfl
    exact yields_bind (Settings.meets_load fun path f hpath hu => .settings hpath hu) fun _ _ => trivial
  clear_value load
  split
  · next hconfig => exact .noPath hconfig
  · next given _ hconfig => exact hload given (by rw [hconfig, Option.join_some])
  · next hconfig => exact hload none (by rw [hconfig, Option.join_none])

section

variable {settings : Settings} {events : List Event} {result : Except Fault (List Outcome)} {progress : Progress}
  (hf : files.holds r.file = true) (hs : Spec.load host.yaml files r.file = .ok spec)
  (hl : settingsFor host.yaml files r = .ok (settings, events)) (verbosity : Nat)
include hs

theorem run_work (h : (Prover.prove host.toSolvers settings r.solverPath spec).run
    { supply := { journal := events.reverse } } = (result, progress)) :
    (liftM (Spec.load host.yaml files r.file) >>= Prover.prove host.toSolvers settings r.solverPath : Checking _).run
      { supply := { journal := events.reverse } } = (result, progress) :=
  (Outcome.run_bind_of_ok (Outcome.run_lift_eq_ok_iff.2 ⟨hs, rfl⟩)).trans h

include hf hl

theorem prove_of_error {f : Fault} (h : (Prover.prove host.toSolvers settings r.solverPath spec).run
    { supply := { journal := events.reverse } } = (.error f, progress)) :
    prove host files verbosity r = refusal verbosity progress f >>= print host := by
  rw [prove, hf, if_neg (by decide), hl]
  dsimp only [bind, Except.bind]
  split
  next hrun =>
    cases hrun.symm.trans (run_work hs h)
    rfl

theorem prove_of_ok {outcomes : List Outcome} {text : String}
    (h : (Prover.prove host.toSolvers settings r.solverPath spec).run
      { supply := { journal := events.reverse } } = (.ok outcomes, progress))
    (ht : outcomesText settings.format outcomes = .ok text) :
    prove host files verbosity r = print host {
      code := if outcomes.all Outcome.isProved then 0 else 1
      stdout := text ++ "\n"
      stderr := reported verbosity progress.supply.journal.reverse
      launches := progress.launches } := by
  rw [prove, hf, if_neg (by decide), hl]
  dsimp only [bind, Except.bind]
  split
  next hrun =>
    cases hrun.symm.trans (run_work hs h)
    dsimp only
    rw [ht]

end

theorem prove_of_unread {f : Fault} (hf : files.holds r.file = true) (hl : settingsFor host.yaml files r = .error f)
    (verbosity : Nat) : prove host files verbosity r = .error f := by
  rw [prove, hf, if_neg (by decide), hl]
  rfl

theorem documented_of_ok {settings : Settings} {outcomes : List Outcome}
    (h : List.Forall₂ (Prover.Answers settings) spec.properties outcomes) {ending : Ending} {text : String}
    (ht : outcomesText settings.format outcomes = .ok text) (htext : ending.stdout = text ++ "\n")
    (hc : ending.code = if outcomes.all Outcome.isProved then 0 else 1) :
    Documented spec settings (.ok outcomes) ending := by
  have hall : outcomes.all Outcome.isProved = true ↔ ∀ o ∈ outcomes, o.verdict = .valid := by
    simp [List.all_eq_true, Outcome.isProved]
  have hnames := Prover.map_name_eq h
  by_cases hv : ∀ o ∈ outcomes, o.verdict = .valid
  · rw [if_pos (hall.2 hv)] at hc
    exact {
      status := .inl hc
      proved := by simpa [hc] using hv
      unproved := by simpa [hc] using hv
      refused := by simp [hc]
      processed := by simp [hnames]
      shown := by simp [ht, htext]
      report := by simp }
  · rw [if_neg (mt hall.1 hv)] at hc
    exact {
      status := .inr (.inl hc)
      proved := by simpa [hc] using hv
      unproved := by simpa [hc] using hv
      refused := by simp [hc]
      processed := by simp [hnames]
      shown := by simp [ht, htext]
      report := by simp }

theorem documented_of_refused {settings : Settings} {e : Error} (h : Prover.Refuses spec e) {ending : Ending}
    (hc : ending.code = 2) (ht : ending.stdout = e.toJson 2 ++ "\n") :
    Documented spec settings (.error (.reported e)) ending := by
  constructor <;> simp [hc, h, ht]

theorem documented_or_escapes {settings : Settings} {events : List Event} {ending : Ending} {verbosity : Nat}
    (hl : settingsFor host.yaml files r = .ok (settings, events))
    (hp : prove host files verbosity r = print host ending)
    (hd : Documented spec settings (verdicts host r spec settings events) ending) :
    (∃ settings events ending, settingsFor host.yaml files r = .ok (settings, events) ∧
      host.console ending.stdout = none ∧ prove host files verbosity r = .ok ending ∧
      Documented spec settings (verdicts host r spec settings events) ending) ∨
    ∃ f, prove host files verbosity r = .error f ∧ Escapes host files r spec f := by
  unfold print at hp
  split at hp
  · next hc => exact .inl ⟨settings, events, ending, hl, hc, hp, hd⟩
  · next cause hc => exact .inr ⟨_, hp, .print hl hd hc⟩

theorem refusal_of_fails {settings : Settings} {path : String} {formula : Term .bool} {f : Fault}
    {solvers : Solvers σ} (h : Prover.Fails solvers settings path formula f) (verbosity : Nat) (progress : Progress) :
    refusal verbosity progress f = .error f := by
  cases h with
  | @launch _ _ cause _ _ _ => cases cause <;> rfl
  | _ => rfl

theorem prove_status_documented (host : Host σ) (files : FileTree) (verbosity : Nat) (r : ProveRequest) (spec : Spec)
    (hf : files.holds r.file = true) (hs : Spec.load host.yaml files r.file = .ok spec) (he : spec.Ends) :
    (∃ settings events ending, settingsFor host.yaml files r = .ok (settings, events) ∧
      host.console ending.stdout = none ∧ prove host files verbosity r = .ok ending ∧
      Documented spec settings (verdicts host r spec settings events) ending) ∨
    ∃ f, prove host files verbosity r = .error f ∧ Escapes host files r spec f := by
  have hw := Spec.wellFormed_of_load hs
  have hsettings : Meets (Escapes host files r spec) (settingsFor host.yaml files r) := meets_settingsFor
  rcases hl : settingsFor host.yaml files r with f | ⟨settings, events⟩
  · rw [hl] at hsettings
    exact .inr ⟨f, prove_of_unread hf hl verbosity, hsettings⟩
  rw [← hl]
  have hy : Yields (Prover.Faults host.toSolvers settings r.solverPath spec) _ _ :=
    Prover.yields_prove hw he { supply := { journal := events.reverse } }
  rcases hrun : (Prover.prove host.toSolvers settings r.solverPath spec).run
    { supply := { journal := events.reverse } } with ⟨result, progress⟩
  have hv : verdicts host r spec settings events = result := congrArg Prod.fst hrun
  rw [hrun] at hy
  cases result with
  | ok outcomes =>
    obtain ⟨text, ht⟩ := exists_outcomesText hy settings.format
    exact documented_or_escapes hl (prove_of_ok hf hs hl verbosity hrun ht) (hv ▸ documented_of_ok hy ht rfl rfl)
  | error f =>
    have hp := prove_of_error hf hs hl verbosity hrun
    cases hy with
    | refused h => exact documented_or_escapes hl hp (hv ▸ documented_of_refused h rfl rfl)
    | translation h =>
      refine .inr ⟨f, hp.trans ?_, .translation h⟩
      cases h <;> rfl
    | question posed h =>
      refine .inr ⟨f, hp.trans ?_, .question hl posed h⟩
      rw [refusal_of_fails h]
      rfl

def ahead (buffer : List Datum) : Spec where
  streams := [⟨0, .bool, buffer, .const .bool (.bool true)⟩]
  properties := [⟨"next", .drop .bool 1 0⟩]

def directory (spec : Spec) : FileTree where
  entries := [(["s.json"], .file (Json.toLine spec.document).toUTF8)]

theorem holds_directory (spec : Spec) : (directory spec).holds "s.json" = true :=
  rfl

theorem decode_toUTF8 (text : String) :
    FileTree.decode text.toUTF8 = .ok (String.ofList (Text.plainLineEnds text.toList)) := by
  have h : String.fromUTF8? text.toUTF8 = some text := dif_pos text.isValidUTF8
  rw [FileTree.decode, h]

theorem load_directory {spec : Spec} (yaml : Document.Reader) (hs : Spec.ofDatum spec.document = .ok spec)
    (hd : Json.read (String.ofList (Text.plainLineEnds (Json.toLine spec.document).toList)) = .ok spec.document) :
    Spec.load yaml (directory spec) "s.json" = .ok spec := by
  have hp : Path.plain "s.json" = "s.json" := rfl
  have hc : Path.check "s.json" = .ok () := rfl
  have hf : Spec.formatOf "s.json" = .json := rfl
  have hr : (directory spec).read "s.json" = .ok (Json.toLine spec.document).toUTF8 := rfl
  simp only [Spec.load, hp, hc, hr, hf, decode_toUTF8, Document.read, hd, bind, Except.bind]
  exact hs

theorem start_directory (spec : Spec) : Path.ofSteps ((directory spec).absolute "s.json").dropLast = "/" :=
  rfl

theorem find?_directory (spec : Spec) : Settings.find? (directory spec) "/" = none :=
  rfl

theorem settingsFor_directory (yaml : Document.Reader) (spec : Spec) (solverPath : String) :
    settingsFor yaml (directory spec) { file := "s.json", solverPath } = .ok ({}, []) := by
  have hload : Settings.load yaml (directory spec) none "/" = .ok ({}, []) := by
    rw [Settings.load, Option.none_or, find?_directory]
  unfold settingsFor
  rw [start_directory]
  simp only [pure_bind, hload]
  rfl

theorem ends_ahead_filled (b : Bool) : (ahead [.bool b]).Ends := by
  intro registry hr p hp supply
  cases hr
  cases List.mem_singleton.1 hp
  exact decides_ok _

theorem ends_ahead_empty : (ahead []).Ends := by
  intro registry hr p hp supply
  cases hr
  cases List.mem_singleton.1 hp
  exact decides_error (e := .instantOffset 1) rfl

set_option maxRecDepth 2048 in
theorem load_ahead_filled (yaml : Document.Reader) :
    Spec.load yaml (directory (ahead [.bool true])) "s.json" = .ok (ahead [.bool true]) :=
  load_directory yaml rfl (by cbv)

set_option maxRecDepth 2048 in
theorem load_ahead_empty (yaml : Document.Reader) :
    Spec.load yaml (directory (ahead [])) "s.json" = .ok (ahead []) :=
  load_directory yaml rfl (by cbv)

theorem not_stops_ahead_filled (f : Fault) : ¬ (ahead [.bool true]).Stops f := by
  have hn : (ahead [.bool true]).nodes = [.const .bool (.bool true), .drop .bool 1 0] := rfl
  intro h
  cases h with
  | @ahead t k o st node stream positive beyond =>
    cases List.mem_singleton.1 stream
    have hk : t = .bool ∧ k = 1 := by simpa [hn] using node
    simp only [List.length_singleton] at beyond
    omega
  | integer long =>
    have h0 : Text.isWritable 0 = true := Encoding.isWritable_digit (by decide)
    have h1 : Text.isWritable 1 = true := Encoding.isWritable_digit (by decide)
    have hw : (ahead [.bool true]).isWritten = true := by
      rw [Spec.isWritten, hn]
      simp [ahead, Expr.isWritten, StreamType.isWritten, StreamType.isWritable, Datum.isWritable, h0, h1]
    exact absurd (hw.symm.trans long) (by simp)
  | name named half => cases named

def slow : Host Unit where
  toSolvers := Prover.scripted fun _ => .timeout
  yaml _ := .error .malformed
  console _ := none

theorem next_value_undecided :
    (directory (ahead [.bool true])).holds "s.json" = true ∧
    Spec.load slow.yaml (directory (ahead [.bool true])) "s.json" = .ok (ahead [.bool true]) ∧
    (ahead [.bool true]).Ends ∧ ∃ ending, ending.code = 1 ∧
      prove slow (directory (ahead [.bool true])) 0 { file := "s.json", solverPath := "solver" } = .ok ending := by
  have hf := holds_directory (ahead [.bool true])
  have hs := load_ahead_filled slow.yaml
  have he := ends_ahead_filled true
  have hl := settingsFor_directory slow.yaml (ahead [.bool true]) "solver"
  refine ⟨hf, hs, he, ?_⟩
  rcases prove_status_documented slow (directory (ahead [.bool true])) 0 { file := "s.json", solverPath := "solver" }
    (ahead [.bool true]) hf hs he with ⟨settings, events, ending, hl', _, hp, hd⟩ | ⟨f, _, hf⟩
  · cases hl.symm.trans hl'
    have hrun : verdicts slow { file := "s.json", solverPath := "solver" } (ahead [.bool true]) {} [] = .ok [{
        name := .text "next"
        verdict := .unknown
        reason := .text "timeout" }] := rfl
    exact ⟨ending, hd.unproved.2 ⟨_, hrun, _, List.mem_cons_self .., by decide⟩, hp⟩
  · cases hf with
    | noPath asked => cases asked
    | settings inForce unread =>
      rw [settingsFile?, start_directory, find?_directory] at inForce
      cases inForce
    | translation stops => exact absurd stops (not_stops_ahead_filled f)
    | question loaded posed fails =>
      cases hl.symm.trans loaded
      cases fails with
      | limit unset => cases unset
      | engine builtIn _ _ => exact absurd (.inl (by decide)) builtIn
      | line _ given member _ =>
        cases given
        cases member
      | seconds _ set positive _ =>
        cases set
        exact absurd positive (by decide)
      | launch _ _ raised => cases raised
      | model _ _ nameless => cases nameless.1
    | print _ _ refused => cases refused

theorem next_value_escapes :
    (directory (ahead [])).holds "s.json" = true ∧
    (∀ yaml, Spec.load yaml (directory (ahead [])) "s.json" = .ok (ahead [])) ∧ (ahead []).Ends ∧
    ∀ (σ : Type) (host : Host σ) verbosity,
      prove host (directory (ahead [])) verbosity { file := "s.json" } = .error (.instantOffset 1) := by
  have hf := holds_directory (ahead [])
  refine ⟨hf, load_ahead_empty, ends_ahead_empty, fun σ host verbosity => ?_⟩
  have hl := settingsFor_directory host.yaml (ahead []) ""
  have hrun : (Prover.prove host.toSolvers {} "" (ahead [])).run { supply := { journal := [].reverse } } =
    (.error (.instantOffset 1), _) := rfl
  exact prove_of_error (r := { file := "s.json" }) hf (load_ahead_empty host.yaml) hl verbosity hrun

end CommandLine

end OneStep
