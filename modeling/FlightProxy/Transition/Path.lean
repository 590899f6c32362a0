import Mathlib.Data.List.Basic

/-! # Finite runs of a partial transition function

A machine is a partial function `step : σ → ε → Option σ` from a state and an event label. A
`Path` is a run carrying exactly its labels; every step may be required to meet a condition on the
state it starts from, which is how protocol assumptions and side conditions enter. Paths compose,
split and replay deterministically, and an invariant of each step is an invariant of the whole run.
Nothing here mentions a concrete machine.
-/

namespace Transition

variable {σ ε : Type*}

/-- A finite run of `step` in which each step starts from a state meeting `ok`. -/
inductive Path (step : σ → ε → Option σ) (ok : σ → ε → Prop) : σ → List ε → σ → Prop
  | nil (s : σ) : Path step ok s [] s
  | cons {s mid t : σ} {e : ε} {es : List ε} :
      ok s e → step s e = some mid → Path step ok mid es t → Path step ok s (e :: es) t

/-- The event tape alone determines the run. -/
def replay (step : σ → ε → Option σ) : σ → List ε → Option σ
  | s, [] => some s
  | s, e :: es => (step s e).bind fun mid => replay step mid es

/-- A step may be taken unconditionally. -/
abbrev always : σ → ε → Prop := fun _ _ => True

/-- A step of the run meets a condition on it and on the state it starts from. -/
def Takes (step : σ → ε → Option σ) (ok R : σ → ε → Prop) (s : σ) (es : List ε) (t : σ) : Prop :=
  ∃ first e second mid, es = first ++ e :: second ∧ Path step ok s first mid ∧
    Path step ok mid (e :: second) t ∧ R mid e

/-- Two events stand on an extended tape in this order if they did before, or the second is new. -/
theorem pair_snoc {first second last : ε} {es : List ε}
    (pair : List.Sublist [first, second] (es ++ [last])) :
    List.Sublist [first, second] es ∨ first ∈ es ∧ second = last := by
  obtain ⟨before, after, split, left, right⟩ := List.sublist_append_iff.mp pair
  rcases List.sublist_singleton.mp right with rfl | rfl
  · rw [List.append_nil] at split
    exact .inl (split ▸ left)
  · have split' : [first] ++ [second] = before ++ [last] := split
    obtain ⟨rfl, same⟩ := List.append_inj' split' rfl
    exact .inr ⟨List.singleton_sublist.mp left, List.cons.inj same |>.1⟩

namespace Path

variable {step : σ → ε → Option σ} {ok ok' : σ → ε → Prop} {s mid t : σ} {e : ε}
  {es first second : List ε}

@[simp] theorem nil_iff : Path step ok s [] t ↔ t = s := by
  constructor
  · intro path; cases path; rfl
  · rintro rfl; exact .nil _

theorem cons_iff : Path step ok s (e :: es) t ↔
    ok s e ∧ ∃ mid, step s e = some mid ∧ Path step ok mid es t := by
  constructor
  · intro path
    cases path with
    | cons allowed taken rest => exact ⟨allowed, _, taken, rest⟩
  · rintro ⟨allowed, mid, taken, rest⟩
    exact .cons allowed taken rest

/-- Paths compose at their shared endpoint. -/
theorem append (left : Path step ok s first mid) (right : Path step ok mid second t) :
    Path step ok s (first ++ second) t := by
  induction left with
  | nil => exact right
  | cons allowed taken _ ih => exact .cons allowed taken (ih right)

theorem append_iff : Path step ok s (first ++ second) t ↔
    ∃ mid, Path step ok s first mid ∧ Path step ok mid second t := by
  constructor
  · intro path
    induction first generalizing s with
    | nil => exact ⟨s, .nil s, path⟩
    | cons e es ih =>
      obtain ⟨allowed, next, taken, rest⟩ := cons_iff.mp path
      obtain ⟨mid, left, right⟩ := ih rest
      exact ⟨mid, .cons allowed taken left, right⟩
  · rintro ⟨mid, left, right⟩
    exact left.append right

/-- One further step at the end of a run. -/
theorem snoc (path : Path step ok s es mid) (allowed : ok mid e) (taken : step mid e = some t) :
    Path step ok s (es ++ [e]) t :=
  path.append (.cons allowed taken (.nil t))

/-- Side conditions may be weakened along a run, using that its steps are taken. -/
theorem mono (path : Path step ok s es t)
    (weaker : ∀ s e s', ok s e → step s e = some s' → ok' s e) : Path step ok' s es t := by
  induction path with
  | nil => exact .nil _
  | cons allowed taken _ ih => exact .cons (weaker _ _ _ allowed taken) taken ih

/-- Every event of a run is on its tape. -/
theorem along (path : Path step ok s es t) : Path step (fun s e => ok s e ∧ e ∈ es) s es t := by
  induction path with
  | nil => exact .nil _
  | cons allowed taken _ ih =>
    refine .cons ⟨allowed, List.mem_cons_self⟩ taken (ih.mono ?_)
    exact fun _ _ _ here _ => ⟨here.1, List.mem_cons_of_mem _ here.2⟩

/-- Every step of a run is taken on the way to its end. -/
theorem toward (path : Path step ok s es t) : Path step (fun s e => ok s e ∧
    ∀ s', step s e = some s' → ∃ rest, Path step ok s' rest t) s es t := by
  induction path with
  | nil => exact .nil _
  | @cons s mid t e es allowed taken rest ih =>
    refine .cons ⟨allowed, fun s' taken' => ?_⟩ taken ih
    obtain rfl := Option.some.inj (taken.symm.trans taken')
    exact ⟨es, rest⟩

/-- The invariant rule: what every allowed step preserves, every run preserves. -/
theorem preserves {I : σ → Prop} (path : Path step ok s es t) (initial : I s)
    (preserved : ∀ s e s', I s → ok s e → step s e = some s' → I s') : I t := by
  induction path with
  | nil => exact initial
  | cons allowed taken _ ih => exact ih (preserved _ _ _ initial allowed taken)

/-- An invariant of the run may be assumed at each of its steps. -/
theorem strengthen {I : σ → Prop} (path : Path step ok s es t) (initial : I s)
    (preserved : ∀ s e s', I s → ok s e → step s e = some s' → I s') :
    Path step (fun s e => ok s e ∧ I s) s es t := by
  induction path with
  | nil => exact .nil _
  | cons allowed taken _ ih =>
    exact .cons ⟨allowed, initial⟩ taken (ih (preserved _ _ _ initial allowed taken))

/-- The invariant rule for a fact about the state and the tape that led to it. -/
theorem records {I : List ε → σ → Prop} (path : Path step ok s es t) (initial : I [] s)
    (preserved : ∀ es s e s', I es s → ok s e → step s e = some s' → I (es ++ [e]) s') : I es t := by
  have extends_tape : ∀ first, I first s → I (first ++ es) t := by
    clear initial
    induction path with
    | nil =>
      intro first holds
      rwa [List.append_nil]
    | @cons s mid t e es allowed taken _ ih =>
      intro first holds
      have next := ih (first ++ [e]) (preserved _ _ _ _ holds allowed taken)
      rwa [List.append_assoc, List.singleton_append] at next
  exact extends_tape [] initial

/-- What the last state has escaped, every step has: a defect that no step repairs is absent from
the states before and after each step. -/
theorem avoid {D : σ → Prop} (path : Path step ok s es t)
    (persists : ∀ s e s', D s → ok s e → step s e = some s' → D s') (sound : ¬ D t) :
    ¬ D s ∧ Path step (fun s e => ok s e ∧ ∀ s', step s e = some s' → ¬ D s') s es t := by
  induction path with
  | nil => exact ⟨sound, .nil _⟩
  | cons allowed taken _ ih =>
    obtain ⟨later, rest⟩ := ih sound
    refine ⟨fun defect => later (persists _ _ _ defect allowed taken), ?_⟩
    refine .cons ⟨allowed, fun s' taken' => ?_⟩ taken rest
    obtain rfl := Option.some.inj (taken.symm.trans taken')
    exact later

/-- The last step of a run is such a step. -/
theorem takes_snoc {R : σ → ε → Prop} (path : Path step ok s es mid) (allowed : ok mid e)
    (taken : step mid e = some t) (meets : R mid e) : Takes step ok R s (es ++ [e]) t :=
  ⟨es, e, [], mid, rfl, path, .cons allowed taken (.nil t), meets⟩

/-- A further step leaves the earlier ones taken. -/
theorem snoc_takes {R : σ → ε → Prop} (takes : Takes step ok R s es mid) (allowed : ok mid e)
    (taken : step mid e = some t) : Takes step ok R s (es ++ [e]) t := by
  obtain ⟨before, d, after, u, rfl, path, rest, meets⟩ := takes
  refine ⟨before, d, after ++ [e], u, ?_, path, rest.snoc allowed taken, meets⟩
  rw [List.append_assoc, List.cons_append]

/-- The first step of a run is such a step, or a later one is. -/
theorem takes_cons_iff {R : σ → ε → Prop} (allowed : ok s e) (taken : step s e = some mid)
    (rest : Path step ok mid es t) :
    Takes step ok R s (e :: es) t ↔ R s e ∨ Takes step ok R mid es t := by
  constructor
  · rintro ⟨first, d, second, u, same, before, after, meets⟩
    cases first with
    | nil =>
      obtain ⟨rfl, rfl⟩ := List.cons.inj same
      obtain rfl := nil_iff.mp before
      exact .inl meets
    | cons d' first =>
      obtain ⟨rfl, rfl⟩ := List.cons.inj same
      obtain ⟨-, mid', taken', before'⟩ := cons_iff.mp before
      obtain rfl := Option.some.inj (taken.symm.trans taken')
      exact .inr ⟨first, d, second, u, rfl, before', after, meets⟩
  · rintro (meets | ⟨first, d, second, u, rfl, before, after, meets⟩)
    · exact ⟨[], e, es, s, rfl, .nil s, .cons allowed taken rest, meets⟩
    · exact ⟨e :: first, d, second, u, rfl, .cons allowed taken before, after, meets⟩

/-- What is had at first and, once lost, never had again is lost by the end exactly when some step
of the run loses it. -/
theorem lost_iff {I K : σ → Prop} {R : σ → ε → Prop} (path : Path step ok s es t) (initial : I s)
    (had : K s) (preserved : ∀ s e s', I s → ok s e → step s e = some s' → I s')
    (loses : ∀ s e s', I s → K s → ok s e → step s e = some s' → (¬ K s' ↔ R s e))
    (gone : ∀ s e s', I s → ¬ K s → ok s e → step s e = some s' → ¬ K s') :
    ¬ K t ↔ Takes step ok R s es t := by
  induction path with
  | nil =>
    refine iff_of_false (not_not_intro had) ?_
    rintro ⟨first, e, second, mid, same, -⟩
    simp at same
  | @cons s mid t e es allowed taken rest ih =>
    have initial' := preserved _ _ _ initial allowed taken
    rw [takes_cons_iff allowed taken rest]
    by_cases lost : R s e
    · refine iff_of_true ?_ (.inl lost)
      refine (rest.preserves (I := fun s => I s ∧ ¬ K s)
        ⟨initial', (loses _ _ _ initial had allowed taken).mpr lost⟩ ?_).2
      rintro u d u' ⟨holds, absent⟩ allowed taken
      exact ⟨preserved _ _ _ holds allowed taken, gone _ _ _ holds absent allowed taken⟩
    · have kept := not_not.mp (mt (loses _ _ _ initial had allowed taken).mp lost)
      rw [ih initial' kept, or_iff_right lost]

/-- A view of the state that follows some of the events, and ignores the others, runs along. -/
theorem project {τ δ : Type*} {step' : τ → δ → Option τ} {ok' : τ → δ → Prop} (view : σ → τ)
    (label : ε → Option δ) (path : Path step ok s es t)
    (follows : ∀ s e s', ok s e → step s e = some s' → ∀ d, label e = some d →
      ok' (view s) d ∧ step' (view s) d = some (view s'))
    (ignores : ∀ s e s', ok s e → step s e = some s' → label e = none → view s' = view s) :
    Path step' ok' (view s) (es.filterMap label) (view t) := by
  induction path with
  | nil => exact .nil _
  | @cons s mid t e es allowed taken _ ih =>
    cases image : label e with
    | none =>
      rw [List.filterMap_cons_none image, ← ignores s e mid allowed taken image]
      exact ih
    | some d =>
      rw [List.filterMap_cons_some image]
      obtain ⟨allowed', taken'⟩ := follows s e mid allowed taken d image
      exact .cons allowed' taken' ih

/-- Another system that takes the same events runs along. -/
theorem simulates {τ : Type*} {step' : τ → ε → Option τ} {ok' : τ → ε → Prop} {R : σ → τ → Prop} {u : τ}
    (path : Path step ok s es t) (related : R s u)
    (follows : ∀ s e s' u, R s u → ok s e → step s e = some s' →
      ok' u e ∧ ∃ u', step' u e = some u' ∧ R s' u') : ∃ u', Path step' ok' u es u' ∧ R t u' := by
  induction path generalizing u with
  | nil => exact ⟨u, .nil u, related⟩
  | @cons s mid t e es allowed taken _ ih =>
    obtain ⟨allowed', v, taken', related'⟩ := follows s e mid u related allowed taken
    obtain ⟨u', rest, last⟩ := ih related'
    exact ⟨u', .cons allowed' taken' rest, last⟩

/-- A view that each step leaves as it is, or takes one step further, runs along. -/
theorem refines {τ δ : Type*} {step' : τ → δ → Option τ} {ok' : τ → δ → Prop} (view : σ → τ)
    (path : Path step ok s es t) (follows : ∀ s e s', ok s e → step s e = some s' →
      view s' = view s ∨ ∃ d, ok' (view s) d ∧ step' (view s) d = some (view s')) :
    ∃ ds, Path step' ok' (view s) ds (view t) := by
  induction path with
  | nil => exact ⟨[], .nil _⟩
  | @cons s mid t e es allowed taken _ ih =>
    obtain ⟨ds, rest⟩ := ih
    rcases follows s e mid allowed taken with same | ⟨d, allowed', taken'⟩
    · exact ⟨ds, same ▸ rest⟩
    · exact ⟨d :: ds, .cons allowed' taken' rest⟩

end Path

variable {step : σ → ε → Option σ} {s t : σ} {es : List ε}

/-- Replay is exactly the unconditional run of the tape. -/
theorem replay_eq_some_iff : replay step s es = some t ↔ Path step always s es t := by
  induction es generalizing s with
  | nil => simp only [replay, Option.some.injEq, Path.nil_iff, eq_comm]
  | cons e es ih =>
    simp only [replay, Option.bind_eq_some_iff, Path.cons_iff, true_and, ih]

/-- A replay that tests each step before it is taken is a run whose steps pass the test. -/
theorem path_of_guarded {ok : σ → ε → Bool}
    (ran : replay (fun s e => if ok s e then step s e else none) s es = some t) :
    Path step (fun s e => ok s e = true) s es t := by
  induction es generalizing s with
  | nil =>
    obtain rfl := Option.some.inj ran
    exact .nil _
  | cons e es ih =>
    obtain ⟨mid, taken, rest⟩ := Option.bind_eq_some_iff.mp ran
    have taken : (if ok s e then step s e else none) = some mid := taken
    split_ifs at taken with allowed
    exact .cons allowed taken (ih rest)

end Transition
