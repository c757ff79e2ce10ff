import OneStep.Datum.Basic

namespace OneStep

inductive OptionKind where
  | flag
  | count
  | real
  | word
  | text
  deriving DecidableEq, Repr

namespace OptionKind

def ofDatum? : Datum → Option OptionKind
  | .bool _ => some .flag
  | .int _ => some .count
  | .float _ => some .real
  | .text _ => some .word
  | _ => none

end OptionKind

structure SolverOption where
  name : String
  value : Datum

structure OptionGroup where
  part : String
  options : List (String × OptionKind)

namespace OptionGroup

def ofKind (kind : OptionKind) (names : List String) : List (String × OptionKind) :=
  names.map (·, kind)

def general : List (String × OptionKind) :=
  ofKind .count ["rlimit", "max_memory"] ++
  ofKind .flag ["ctrl_c", "model", "proof", "unsat_core"]

def search : OptionGroup where
  part := "smt"
  options :=
    ofKind .flag [
      "auto_config", "macro_finder", "quasi_macros", "restricted_quasi_macros", "ematching", "delay_units",
      "elim_unconstrained", "solve_eqs", "solve_eqs.non_ground", "propagate_values", "bound_simplifier",
      "pull_nested_quantifiers", "refine_inj_axioms", "candidate_models", "mbqi", "mbqi.trace", "q.lite",
      "qi.profile", "induction", "bv.reflect", "bv.enable_int2bv", "bv.watch_diseq", "bv.eq_axioms", "bv.delay",
      "bv.size_reduce", "arith.random_initial_value", "arith.nl", "arith.nl.nra", "arith.nl.branching",
      "arith.nl.expensive_patching", "arith.nl.order", "arith.nl.expp", "arith.nl.tangents", "arith.nl.horner",
      "arith.nl.grobner", "arith.nl.grobner_propagate_quotients", "arith.nl.grobner_gcd_test",
      "arith.nl.grobner_exp_delay", "arith.nl.grobner_expand_terms", "arith.nl.propagate_linear_monomials",
      "arith.nl.optimize_bounds", "arith.nl.cross_nested", "arith.nl.log", "arith.propagate_eqs",
      "arith.int_eq_branch", "arith.ignore_int", "arith.dump_lemmas", "arith.dump_bound_lemmas",
      "arith.greatest_error_pivot", "arith.eager_eq_axioms", "arith.auto_config_simplex", "arith.min",
      "arith.print_stats", "arith.validate", "arith.enable_hnf", "arith.bprop_on_pivoted_rows",
      "arith.print_ext_var_names", "pb.learn_complements", "up.persist_clauses", "array.weak", "array.extensional",
      "clause_proof", "dack.eq", "theory_case_split", "theory_aware_branching", "seq.validate", "seq.split_w_len",
      "core.minimize", "core.extend_patterns", "core.extend_nonlocal_patterns", "core.validate", "recfun.native",
      "sls.enable", "sls.parallel"] ++
    ofKind .count [
      "random_seed", "relevancy", "phase_selection", "phase_caching_on", "phase_caching_off", "restart_strategy",
      "case_split", "delay_units_threshold", "max_conflicts", "restart.max", "cube_depth", "threads",
      "threads.max_conflicts", "threads.cube_frequency", "mbqi.max_cexs", "mbqi.max_cexs_incr",
      "mbqi.max_iterations", "mbqi.force_template", "q.lift_ite", "qi.profile_freq", "qi.max_instances",
      "qi.max_multi_patterns", "qi.quick_checker", "bv.solver", "arith.solver", "arith.nl.rounds",
      "arith.nl.horner_subs_fixed", "arith.nl.horner_frequency", "arith.nl.horner_row_length_limit",
      "arith.nl.grobner_row_length_limit", "arith.nl.grobner_frequency", "arith.nl.grobner_eqs_growth",
      "arith.nl.grobner_expr_size_growth", "arith.nl.grobner_expr_degree_growth",
      "arith.nl.grobner_max_simplified", "arith.nl.grobner_cnfl_to_report", "arith.nl.gr_q",
      "arith.nl.grobner_subs_fixed", "arith.nl.delay", "arith.propagation_mode", "arith.branch_cut_ratio",
      "arith.rep_freq", "arith.simplex_strategy", "pb.conflict_frequency", "dack", "dack.gc", "dack.threshold",
      "lemma_gc_strategy", "dt_lazy_splits", "seq.max_unfolding", "seq.min_unfolding",
      "core.extend_patterns.max_distance", "recfun.depth"] ++
    ofKind .real [
      "restart_factor", "qi.eager_threshold", "qi.lazy_threshold", "arith.epsilon", "dack.factor",
      "dack.gc_inv_decay"] ++
    ofKind .word ["logic", "string_solver", "seq.regex_orientation"] ++
    ofKind .text ["mbqi.id", "qi.cost"]

def simplifier : OptionGroup where
  part := "rewriter"
  options :=
    ofKind .flag [
      "flat", "flat_and_or", "push_ite_arith", "push_ite_bv", "pull_cheap_ite", "cache_all", "enable_der",
      "rewrite_patterns", "ignore_patterns_on_ground_qbody", "ite_extra_rules", "elim_and", "elim_ite", "local_ctx",
      "blast_distinct", "sort_disjunctions", "som", "hoist_mul", "hoist_cmul", "hoist_ite",
      "algebraic_number_evaluator", "mul_to_power", "expand_power", "expand_tan", "eq2ineq", "sort_sums",
      "gcd_rounding", "arith_lhs", "arith_ineq_lhs", "elim_to_real", "push_to_real", "elim_rem", "split_concat_eq",
      "bit2bool", "blast_eq_value", "elim_sign_ext", "hi_div0", "mul2concat", "bv_sort_ac", "bv_extract_prop",
      "bv_not_simpl", "bv_ite2id", "bv_le_extra", "bv_le2extract", "blast_select_store", "expand_select_store",
      "expand_store_eq", "expand_nested_stores", "expand_select_ite", "sort_store", "hi_fp_unspecified",
      "coalesce_chars"] ++
    ofKind .count [
      "max_memory", "max_steps", "bv_ineq_consistency_test_max", "local_ctx_limit", "blast_distinct_threshold",
      "som_blowup", "max_degree"]

def solver : OptionGroup where
  part := "solver"
  options :=
    ofKind .flag [
      "lemmas2console", "instantiations2console", "axioms2files", "slice", "proof.check", "proof.check_rup",
      "proof.save", "proof.trim"] ++
    ofKind .count ["timeout"] ++
    ofKind .word ["smtlib2_log", "cancel_backup_file", "proof.log"]

def combination : OptionGroup where
  part := "combined_solver"
  options := ofKind .count ["solver2_timeout", "solver2_unknown"] ++ ofKind .flag ["ignore_solver1"]

def evaluator : OptionGroup where
  part := "model_evaluator"
  options := ofKind .flag ["completion", "array_equalities", "array_as_stores"]

def all : List OptionGroup :=
  [search, simplifier, solver, combination, evaluator]

end OptionGroup

namespace SolverOption

def plainChar (c : Char) : Char :=
  if c = '-' ∨ c = ':' then '_' else c.toLower

def plainName (name : String) : String :=
  let cs := match name.toList.takeWhile (· != '\x00') with
    | ':' :: rest => rest
    | cs => cs
  if cs.isEmpty then "_" else String.ofList (cs.map plainChar)

def cutPart (name : String) : String × String :=
  let cs := name.toList
  (String.ofList (cs.takeWhile (· != '.')), String.ofList ((cs.dropWhile (· != '.')).drop 1))

def kind? (name : String) : Option OptionKind :=
  let name := plainName name
  match (OptionGroup.general ++ OptionGroup.all.flatMap (·.options)).lookup name with
  | some kind => some kind
  | none =>
    let (part, rest) := cutPart name
    OptionGroup.all.findSome? fun g => if g.part = part then g.options.lookup rest else none

def isKnown (o : SolverOption) : Bool :=
  match kind? o.name, OptionKind.ofDatum? o.value with
  | some expected, some given => expected == given
  | _, _ => false

def showsModels (o : SolverOption) : Bool :=
  match o.value with
  | .bool false => plainName o.name != "model"
  | _ => true

def allShowModels (options : List SolverOption) : Bool :=
  match options.reverse.find? fun o => plainName o.name = "model" with
  | some o => o.showsModels
  | none => true

end SolverOption

end OneStep
