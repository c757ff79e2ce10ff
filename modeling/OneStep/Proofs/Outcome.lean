import Mathlib.Data.List.Forall2
import Mathlib.Order.Defs.Unbundled
import OneStep.Fault

namespace OneStep.Outcome

variable {α β : Type}

theorem forall₂_imp_of_mem {R S : α → β → Prop} {xs : List α} {ys : List β}
    (hs : ∀ x ∈ xs, ∀ y ∈ ys, R x y → S x y) (h : List.Forall₂ R xs ys) : List.Forall₂ S xs ys := by
  induction h with
  | nil => exact .nil
  | cons hr _ ih =>
    exact .cons (hs _ (List.mem_cons_self ..) _ (List.mem_cons_self ..) hr)
      (ih fun x hx y hy => hs x (List.mem_cons_of_mem _ hx) y (List.mem_cons_of_mem _ hy))

theorem exists_forall₂ {R : α → β → Prop} {xs : List α} (h : ∀ x ∈ xs, ∃ y, R x y) :
    ∃ ys, List.Forall₂ R xs ys := by
  induction xs with
  | nil => exact ⟨[], .nil⟩
  | cons x xs ih =>
    obtain ⟨y, hy⟩ := h x (List.mem_cons_self ..)
    obtain ⟨ys, hys⟩ := ih fun z hz => h z (List.mem_cons_of_mem _ hz)
    exact ⟨y :: ys, .cons hy hys⟩

theorem forall₂_exists_of_mem {R : α → β → Prop} {xs : List α} {ys : List β} (h : List.Forall₂ R xs ys)
    {x : α} (hx : x ∈ xs) : ∃ y ∈ ys, R x y := by
  induction h with
  | nil => cases hx
  | cons hr _ ih =>
    rcases List.mem_cons.1 hx with rfl | hx
    · exact ⟨_, List.mem_cons_self .., hr⟩
    · obtain ⟨y, hy, hr⟩ := ih hx
      exact ⟨y, List.mem_cons_of_mem _ hy, hr⟩

theorem bind_eq_ok_iff {x : Except Fault α} {f : α → Except Fault β} {b : β} :
    (x >>= f) = .ok b ↔ ∃ a, x = .ok a ∧ f a = .ok b := by
  cases x with
  | error e => simp [bind, Except.bind]
  | ok a => simp [bind, Except.bind]

theorem map_eq_ok_iff {x : Except Fault α} {f : α → β} {b : β} :
    (f <$> x) = .ok b ↔ ∃ a, x = .ok a ∧ f a = b := by
  cases x with
  | error e => simp [Functor.map, Except.map]
  | ok a => simp [Functor.map, Except.map]

theorem mapM_eq_ok_iff {f : α → Except Fault β} {xs : List α} {ys : List β} :
    xs.mapM f = .ok ys ↔ List.Forall₂ (fun x y => f x = .ok y) xs ys := by
  induction xs generalizing ys with
  | nil => cases ys <;> simp [pure, Except.pure]
  | cons x xs ih =>
    simp only [List.mapM_cons, bind_eq_ok_iff, ih, pure, Except.pure, Except.ok.injEq]
    constructor
    · rintro ⟨y, hy, zs, hzs, rfl⟩
      exact .cons hy hzs
    · rintro (_ | ⟨hy, hzs⟩)
      exact ⟨_, hy, _, hzs, rfl⟩

theorem mapM_eq_some_iff {f : α → Option β} {xs : List α} {ys : List β} :
    xs.mapM f = some ys ↔ List.Forall₂ (fun x y => f x = some y) xs ys := by
  induction xs generalizing ys with
  | nil => cases ys <;> simp
  | cons x xs ih =>
    simp only [List.mapM_cons, Option.bind_eq_bind, Option.bind_eq_some_iff, ih, Option.pure_def,
      Option.some.injEq]
    constructor
    · rintro ⟨y, hy, zs, hzs, rfl⟩
      exact .cons hy hzs
    · rintro (_ | ⟨hy, hzs⟩)
      exact ⟨_, hy, _, hzs, rfl⟩

section

variable {F : Fault → Prop} {P : α → Prop} {Q : β → Prop}

def Yields (F : Fault → Prop) (P : α → Prop) : Except Fault α → Prop
  | .ok a => P a
  | .error f => F f

theorem Yields.imp {F' : Fault → Prop} {P' : α → Prop} {x : Except Fault α} (h : Yields F P x) (hf : ∀ f, F f → F' f)
    (hp : ∀ a, P a → P' a) : Yields F' P' x := by
  cases x with
  | error f => exact hf f h
  | ok a => exact hp a h

theorem Yields.faults {F' : Fault → Prop} {x : Except Fault α} (h : Yields F P x) (hf : ∀ f, F f → F' f) :
    Yields F' P x :=
  h.imp hf fun _ ha => ha

theorem Yields.of_ok {x : Except Fault α} (h : Yields F P x) {a : α} (hx : x = .ok a) : P a := by
  subst hx
  exact h

theorem yields_self {x : Except Fault α} (h : Yields F P x) : Yields F (fun a => P a ∧ x = .ok a) x := by
  cases x with
  | error f => exact h
  | ok a => exact ⟨h, rfl⟩

theorem yields_bind {x : Except Fault α} {f : α → Except Fault β} (hx : Yields F P x)
    (hf : ∀ a, P a → Yields F Q (f a)) : Yields F Q (x >>= f) := by
  cases x with
  | error e => exact hx
  | ok a => exact hf a hx

theorem yields_mapM {f : α → Except Fault β} {xs : List α} (hf : ∀ a ∈ xs, Yields F Q (f a)) :
    Yields F (fun ys => ∀ y ∈ ys, Q y) (xs.mapM f) := by
  induction xs with
  | nil => exact List.forall_mem_nil _
  | cons a xs ih =>
    rw [List.mapM_cons]
    obtain ⟨ha, hxs⟩ := List.forall_mem_cons.1 hf
    exact yields_bind ha fun b hb => yields_bind (ih hxs) fun ys hys => List.forall_mem_cons.2 ⟨hb, hys⟩

end

variable {σ : Type}

theorem run_lift (x : Except Fault α) (s : σ) : (liftM x : ExceptT Fault (StateM σ) α).run s = (x, s) := rfl

theorem run_bind (m : ExceptT Fault (StateM σ) α) (f : α → ExceptT Fault (StateM σ) β) (s : σ) :
    (m >>= f).run s = match m.run s with
      | (.ok a, s') => (f a).run s'
      | (.error e, s') => (.error e, s') := by
  simp only [ExceptT.run, bind, ExceptT.bind, ExceptT.mk, StateT.bind]
  rcases m s with ⟨_ | a, s'⟩ <;> rfl

theorem run_bind_eq_ok_iff {m : ExceptT Fault (StateM σ) α} {f : α → ExceptT Fault (StateM σ) β} {s s' : σ} {b : β} :
    (m >>= f).run s = (.ok b, s') ↔ ∃ a s₁, m.run s = (.ok a, s₁) ∧ (f a).run s₁ = (.ok b, s') := by
  rw [run_bind]
  rcases m.run s with ⟨_ | a, s₁⟩
  · constructor
    · intro h
      cases h
    · rintro ⟨a, s₂, h, _⟩
      cases h
  · constructor
    · intro h
      exact ⟨a, s₁, rfl, h⟩
    · rintro ⟨a', s₂, h, h'⟩
      cases h
      exact h'

theorem run_bind_of_ok {m : ExceptT Fault (StateM σ) α} {f : α → ExceptT Fault (StateM σ) β} {s s' : σ} {a : α}
    (h : m.run s = (.ok a, s')) : (m >>= f).run s = (f a).run s' := by
  rw [run_bind, h]

theorem run_bind_of_error {m : ExceptT Fault (StateM σ) α} {f : α → ExceptT Fault (StateM σ) β} {s s' : σ} {e : Fault}
    (h : m.run s = (.error e, s')) : (m >>= f).run s = (.error e, s') := by
  rw [run_bind, h]

theorem run_lift_eq_ok_iff {x : Except Fault α} {s s' : σ} {a : α} :
    (liftM x : ExceptT Fault (StateM σ) α).run s = (.ok a, s') ↔ x = .ok a ∧ s = s' := by
  rw [run_lift]
  constructor
  · intro h
    cases h
    exact ⟨rfl, rfl⟩
  · rintro ⟨rfl, rfl⟩
    rfl

theorem run_bind_lift_eq_ok_iff {x : Except Fault α} {f : α → ExceptT Fault (StateM σ) β} {s s' : σ} {b : β} :
    (liftM x >>= f).run s = (.ok b, s') ↔ ∃ a, x = .ok a ∧ (f a).run s = (.ok b, s') := by
  rw [run_bind_eq_ok_iff]
  constructor
  · rintro ⟨a, s₁, hx, h⟩
    obtain ⟨ha, rfl⟩ := run_lift_eq_ok_iff.1 hx
    exact ⟨a, ha, h⟩
  · rintro ⟨a, rfl, h⟩
    exact ⟨a, s, rfl, h⟩

theorem yields_run_bind {F : Fault → Prop} {P : α → Prop} {Q : β → Prop} {m : ExceptT Fault (StateM σ) α}
    {f : α → ExceptT Fault (StateM σ) β} {s : σ} (hm : Yields F P (m.run s).1)
    (hf : ∀ a s', P a → Yields F Q ((f a).run s').1) : Yields F Q ((m >>= f).run s).1 := by
  rw [run_bind]
  rcases hr : m.run s with ⟨e | a, s'⟩
  · rw [hr] at hm
    exact hm
  · rw [hr] at hm
    exact hf a s' hm

theorem yields_run_mapM {F : Fault → Prop} {R : α → β → Prop} {f : α → ExceptT Fault (StateM σ) β} {xs : List α}
    (hf : ∀ a ∈ xs, ∀ s, Yields F (R a) ((f a).run s).1) (s : σ) :
    Yields F (List.Forall₂ R xs) ((xs.mapM f).run s).1 := by
  induction xs generalizing s with
  | nil => exact .nil
  | cons a xs ih =>
    obtain ⟨ha, hxs⟩ := List.forall_mem_cons.1 hf
    rw [List.mapM_cons]
    exact yields_run_bind (ha s) fun b s' hb => yields_run_bind (ih hxs s') fun bs _ hbs => .cons hb hbs

section

variable {I : σ → Prop} {F : Fault → Prop} {Q : α → Prop} {T : β → Prop}

def Keeps (I : σ → Prop) (F : Fault → Prop) (Q : α → Prop) (m : ExceptT Fault (StateM σ) α) : Prop :=
  ∀ s, I s → I (m.run s).2 ∧ (∀ a, (m.run s).1 = .ok a → Q a) ∧ ∀ f, (m.run s).1 = .error f → F f

theorem keeps_of_ok {m : ExceptT Fault (StateM σ) α}
    (h : ∀ s, I s → ∃ a s', m.run s = (.ok a, s') ∧ Q a ∧ I s') : Keeps I F Q m := by
  intro s hs
  obtain ⟨a, s', hr, ha, hs'⟩ := h s hs
  rw [hr]
  refine ⟨hs', fun b hb => ?_, fun f hf => ?_⟩
  · cases hb
    exact ha
  · cases hf

theorem keeps_lift {x : Except Fault α} {a : α} (hx : x = .ok a) (ha : Q a) :
    Keeps I F Q (liftM x : ExceptT Fault (StateM σ) α) :=
  keeps_of_ok fun s hs => ⟨a, s, by rw [run_lift, hx], ha, hs⟩

theorem keeps_throw {f : Fault} (hf : F f) : Keeps I F Q (throw f : ExceptT Fault (StateM σ) α) := by
  refine fun s hs => ⟨hs, fun a h => ?_, fun g h => ?_⟩
  · cases h
  · cases h
    exact hf

theorem keeps_bind {m : ExceptT Fault (StateM σ) α} {f : α → ExceptT Fault (StateM σ) β}
    (hm : Keeps I F Q m) (hf : ∀ a, Q a → Keeps I F T (f a)) : Keeps I F T (m >>= f) := by
  intro s hs
  obtain ⟨hi, hq, hfault⟩ := hm s hs
  rw [run_bind]
  rcases hr : m.run s with ⟨e | a, s₁⟩
  · rw [hr] at hi hfault
    refine ⟨hi, fun _ h => ?_, fun _ h => ?_⟩
    · cases h
    · cases h
      exact hfault e rfl
  · rw [hr] at hi hq
    exact hf a (hq a rfl) s₁ hi

theorem keeps_bind_lift {x : Except Fault α} {a : α} {f : α → ExceptT Fault (StateM σ) β} (hx : x = .ok a)
    (hf : Keeps I F T (f a)) : Keeps I F T (liftM x >>= f) := by
  subst hx
  exact hf

end

section

variable {R : σ → σ → Prop} {g : α → α} {g' : β → β}

def Tracks (R : σ → σ → Prop) (g : α → α) (m m' : ExceptT Fault (StateM σ) α) : Prop :=
  ∀ s s', R s s' → (m'.run s').1 = g <$> (m.run s).1 ∧ R (m.run s).2 (m'.run s').2

theorem tracks_lift {x x' : Except Fault α} (h : x' = g <$> x) :
    Tracks R g (liftM x : ExceptT Fault (StateM σ) α) (liftM x') :=
  fun _ _ hs => ⟨h, hs⟩

theorem tracks_pure {a a' : α} (h : a' = g a) : Tracks R g (pure a : ExceptT Fault (StateM σ) α) (pure a') :=
  tracks_lift (congrArg Except.ok h)

theorem tracks_throw (f : Fault) : Tracks R g (throw f : ExceptT Fault (StateM σ) α) (throw f) :=
  fun _ _ hs => ⟨rfl, hs⟩

theorem tracks_bind {m m' : ExceptT Fault (StateM σ) α} {f f' : α → ExceptT Fault (StateM σ) β}
    (hm : Tracks R g m m') (hf : ∀ a, Tracks R g' (f a) (f' (g a))) : Tracks R g' (m >>= f) (m' >>= f') := by
  intro s s' hs
  obtain ⟨hv, ht⟩ := hm s s' hs
  rw [run_bind, run_bind]
  rcases hr : m.run s with ⟨e | a, s₁⟩
  · rcases hr' : m'.run s' with ⟨e' | a', s₁'⟩
    · rw [hr, hr'] at hv ht
      cases hv
      exact ⟨rfl, ht⟩
    · rw [hr, hr'] at hv
      cases hv
  · rcases hr' : m'.run s' with ⟨e' | a', s₁'⟩
    · rw [hr, hr'] at hv
      cases hv
    · rw [hr, hr'] at hv ht
      cases hv
      exact hf a s₁ s₁' ht

theorem tracks_bind_lift {x : Except Fault α} {f f' : α → ExceptT Fault (StateM σ) β}
    (hf : ∀ a, x = .ok a → Tracks R g' (f a) (f' a)) : Tracks R g' (liftM x >>= f) (liftM x >>= f') := by
  intro s s' hs
  rw [run_bind, run_bind, run_lift, run_lift]
  cases x with
  | error e => exact ⟨rfl, hs⟩
  | ok a => exact hf a rfl s s' hs

end

def Moves (R : σ → σ → Prop) (m : ExceptT Fault (StateM σ) α) : Prop :=
  ∀ s, R s (m.run s).2

variable {R : σ → σ → Prop} [IsPreorder σ R]

theorem moves_pure (a : α) : Moves R (pure a : ExceptT Fault (StateM σ) α) :=
  fun s => refl s

theorem moves_throw (f : Fault) : Moves R (throw f : ExceptT Fault (StateM σ) α) :=
  fun s => refl s

theorem moves_lift (x : Except Fault α) : Moves R (liftM x : ExceptT Fault (StateM σ) α) :=
  fun s => refl s

theorem moves_continue {m : ExceptT Fault (StateM σ) α} {f : α → ExceptT Fault (StateM σ) β} (hf : ∀ a, Moves R (f a))
    (s : σ) : R (m.run s).2 ((m >>= f).run s).2 := by
  rw [run_bind]
  rcases m.run s with ⟨_ | a, s₁⟩
  · exact refl s₁
  · exact hf a s₁

theorem moves_bind {m : ExceptT Fault (StateM σ) α} {f : α → ExceptT Fault (StateM σ) β}
    (hm : Moves R m) (hf : ∀ a, Moves R (f a)) : Moves R (m >>= f) :=
  fun s => Trans.trans (hm s) (moves_continue hf s)

theorem moves_bind_lift {x : Except Fault α} {f : α → ExceptT Fault (StateM σ) β}
    (hf : ∀ a, x = .ok a → Moves R (f a)) : Moves R (liftM x >>= f) := by
  intro s
  rw [run_bind, run_lift]
  cases x with
  | error e => exact refl s
  | ok a => exact hf a rfl s

end OneStep.Outcome
