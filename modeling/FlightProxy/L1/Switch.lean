import FlightProxy.L1.Capacity
import FlightProxy.Model.Switch

/-! # Disabling L1

putL1 reads `l1_enabled_` before it takes the lock under which setL1Enabled empties L1. As long as
no L1 is disabled between the read and the section of a putL1, a disabled L1 is empty, and an enabled
one has only values of putL1 calls that have read `l1_enabled_` since.
-/

namespace FlightProxy.Switch

open Recency Transition
open scoped List

variable {Call : Type*}

/-- The call of putL1, alone or in get or put, that reads `l1_enabled_`. -/
def Event.tester : Event Call → Option Call
  | .putL1 c _ _ | .put c _ _ | .promote c => some c
  | _ => none

/-- L1 is not disabled between the test and the section of a putL1. -/
def Timely (es : List (Event Call)) : Prop :=
  ∀ test c d, test.tester = some c → ¬ [test, .setL1Enabled d false, .putL1_unique c] <+ es

/-- The section of a putL1 for the key. -/
def Stores (key : Bytes) (s : State Call) (e : Event Call) : Prop :=
  ∃ c caller value, e = .putL1_unique c ∧ s.point c = .storing caller key value

variable [DecidableEq Call] {md5 : Bytes → Bytes} {s t : State Call} {e : Event Call}
  {es : List (Event Call)} {c d : Call} {store : Store} {key value : Bytes} {within : Bool}
  {found : Option Bytes} {caller : Caller} {l1 : L1}

/-- The last section of a putL1 for the key on the tape stores the value, and L1 has not been disabled
since that putL1 read `l1_enabled_`. -/
def Latest (md5 : Bytes → Bytes) (s : State Call) (es : List (Event Call)) (t : State Call)
    (key value : Bytes) : Prop :=
  ∃ before test between c after u u' caller,
    es = (before ++ test :: between) ++ .putL1_unique c :: after ∧ test.tester = some c ∧
      (∀ d, .setL1Enabled d false ∉ between ++ after) ∧
      Path (State.step? md5) always s (before ++ test :: between) u ∧
      u.point c = .storing caller key value ∧ u.step? md5 (.putL1_unique c) = some u' ∧
      Path (State.step? md5) (fun u e => ¬ Stores key u e) u' after t

/-! ## What a step does -/

/-- A step that leaves the cache as `l1`, and takes no putL1 to its section. -/
structure Moved (s : State Call) (l1 : L1) (t : State Call) : Prop where
  l1 : t.store.l1 = l1
  storing : ∀ {d caller key value}, t.point d = .storing caller key value →
    s.point d = .storing caller key value

/-- What a step does to L1 and to the putL1 calls before their section. -/
inductive Effect (s t : State Call) : Event Call → Prop
  | switched (c : Call) (enabled : Bool) :
      Moved s (s.store.l1.setL1Enabled enabled) t → Effect s t (.setL1Enabled c enabled)
  | used (c : Call) (key : Bytes) :
      Moved s (s.store.l1.getL1_unique key).2 t → Effect s t (.getL1_unique c)
  | stored (c : Call) (caller : Caller) (key value : Bytes) :
      s.point c = .storing caller key value → Moved s (s.store.l1.putL1_unique key value) t →
      Effect s t (.putL1_unique c)
  | kept (e : Event Call) : (∀ c enabled, e ≠ .setL1Enabled c enabled) →
      (∀ c, e ≠ .putL1_unique c) → t.store.l1 = s.store.l1 →
      (∀ d caller key value, t.point d = .storing caller key value →
        s.point d = .storing caller key value ∨
          e.tester = some d ∧ s.store.l1.l1_enabled_ = true) →
      Effect s t e

namespace State

theorem moved_move {next : Point} (kept : store.l1 = l1)
    (other : ∀ caller key value, next ≠ .storing caller key value) :
    Moved s l1 (s.move store c next) := by
  constructor
  · exact kept
  · intro d caller key value storing
    simp only [move] at storing
    by_cases same : d = c
    · subst same
      rw [Function.update_self] at storing
      exact absurd storing (other _ _ _)
    · rwa [Function.update_of_ne same] at storing

theorem moved_answer (kept : store.l1 = l1) : Moved s l1 (s.answer store c key within found) := by
  cases within with
  | false =>
    rw [answer]
    exact moved_move kept (by simp)
  | true =>
    cases found with
    | some value =>
      rw [answer]
      exact moved_move kept (by simp)
    | none =>
      rw [answer]
      exact moved_move kept (by simp)

theorem moved_stored (kept : store.l1 = l1) : Moved s l1 (s.stored store c key value caller) := by
  cases caller with
  | putL1 =>
    rw [stored]
    exact moved_move kept (by simp)
  | get =>
    rw [stored]
    exact moved_move kept (by simp)
  | put =>
    rw [stored]
    exact moved_move kept (by simp)

theorem moved_seek : Moved s s.store.l1 (s.seek c within key) := by
  rw [seek]
  split_ifs
  · exact moved_move rfl (by simp)
  · exact moved_answer rfl

omit [DecidableEq Call] in
/-- A step that is none of the sections under the unique lock, and no test of putL1. -/
theorem effect_of_moved (unswitched : ∀ c enabled, e ≠ .setL1Enabled c enabled)
    (unstored : ∀ c, e ≠ .putL1_unique c) (moved : Moved s s.store.l1 t) : Effect s t e :=
  .kept e unswitched unstored moved.l1 fun _ _ _ _ storing => .inl (moved.storing storing)

/-- putL1 gets to its section only if it finds `l1_enabled_` set. -/
theorem effect_of_test (tester : e.tester = some c)
    (unswitched : ∀ c enabled, e ≠ .setL1Enabled c enabled)
    (unstored : ∀ c, e ≠ .putL1_unique c) : Effect s (s.test c caller key value) e := by
  by_cases enabled : s.store.l1.l1_enabled_ = true
  · have tested : s.test c caller key value = s.move s.store c (.storing caller key value) :=
      if_pos enabled
    rw [tested]
    apply Effect.kept e unswitched unstored
    · rfl
    · intro d caller' k v storing
      by_cases same : d = c
      · exact .inr ⟨same ▸ tester, enabled⟩
      · simp only [move, Function.update_of_ne same] at storing
        exact .inl storing
  · have tested : s.test c caller key value = s.stored s.store c key value caller := if_neg enabled
    rw [tested]
    exact effect_of_moved unswitched unstored (moved_stored rfl)

theorem effect_of_step (taken : s.step? md5 e = some t) : Effect s t e := by
  cases e with
  | setL1Enabled c enabled =>
    simp only [step?, setL1Enabled] at taken
    split at taken
    · obtain rfl := Option.some.inj taken
      apply Effect.switched
      exact moved_move rfl (by simp)
    · contradiction
  | getL1 c key =>
    simp only [step?, getL1] at taken
    split at taken
    · obtain rfl := Option.some.inj taken
      exact effect_of_moved (by simp) (by simp) moved_seek
    · contradiction
  | get c query =>
    simp only [step?, getL1] at taken
    split at taken
    · obtain rfl := Option.some.inj taken
      exact effect_of_moved (by simp) (by simp) moved_seek
    · contradiction
  | getL1_shared c =>
    simp only [step?, getL1_shared] at taken
    split at taken
    · split_ifs at taken
      · obtain rfl := Option.some.inj taken
        exact effect_of_moved (by simp) (by simp) (moved_move rfl (by simp))
      · obtain rfl := Option.some.inj taken
        exact effect_of_moved (by simp) (by simp) (moved_answer rfl)
    · contradiction
  | getL1_unique c =>
    simp only [step?, getL1_unique] at taken
    split at taken
    · next within key _ =>
      obtain rfl := Option.some.inj taken
      apply Effect.used c key
      exact moved_answer rfl
    · contradiction
  | getL2 c reached =>
    simp only [step?, getL2] at taken
    split at taken
    · split at taken
      · obtain rfl := Option.some.inj taken
        exact effect_of_moved (by simp) (by simp) (moved_move rfl (by simp))
      · obtain rfl := Option.some.inj taken
        apply effect_of_moved (by simp) (by simp)
        split_ifs
        · exact moved_move rfl (by simp)
        · exact moved_move rfl (by simp)
    · contradiction
  | putL1 c key value =>
    simp only [step?, putL1] at taken
    split at taken
    · obtain rfl := Option.some.inj taken
      exact effect_of_test rfl (by simp) (by simp)
    · contradiction
  | put c query result =>
    simp only [step?, putL1] at taken
    split at taken
    · obtain rfl := Option.some.inj taken
      exact effect_of_test rfl (by simp) (by simp)
    · contradiction
  | promote c =>
    simp only [step?, promote] at taken
    split at taken
    · obtain rfl := Option.some.inj taken
      exact effect_of_test rfl (by simp) (by simp)
    · contradiction
  | putL1_unique c =>
    simp only [step?, putL1_unique] at taken
    split at taken
    · next caller key value ready =>
      obtain rfl := Option.some.inj taken
      apply Effect.stored c caller key value ready
      exact moved_stored rfl
    · contradiction
  | putL2 c reached =>
    simp only [step?, putL2] at taken
    split at taken
    · next key value _ =>
      obtain rfl := Option.some.inj taken
      apply effect_of_moved (by simp) (by simp)
      have same : (s.store.putL2 reached key value).l1 = s.store.l1 := by
        rw [Store.putL2]
        split_ifs <;> rfl
      exact moved_move same (by simp)
    · contradiction

end State

/-- Without another step between, the test and the section are the putL1 of the cache. -/
theorem path_of_putL1 (md5 : Bytes → Bytes) (idle : s.point c = .idle) (key value : Bytes) :
    ∃ es t, Path (State.step? md5) always s es t ∧ t.store = s.store.putL1 key value := by
  have tests : s.step? md5 (.putL1 c key value) = some (s.test c .putL1 key value) := by
    simp only [State.step?, State.putL1, idle]
  by_cases enabled : s.store.l1.l1_enabled_ = true
  · have tested : s.test c .putL1 key value = s.move s.store c (.storing .putL1 key value) :=
      if_pos enabled
    rw [tested] at tests
    have stores : (s.move s.store c (.storing .putL1 key value)).step? md5 (.putL1_unique c) =
        some ((s.move s.store c (.storing .putL1 key value)).stored
          { s.store with l1 := s.store.l1.putL1_unique key value } c key value .putL1) := by
      simp only [State.step?, State.putL1_unique, State.move, Function.update_self]
    refine ⟨_, _, .cons trivial tests (.cons trivial stores (.nil _)), ?_⟩
    rw [Store.putL1, L1.putL1, if_pos enabled]
    rfl
  · have tested : s.test c .putL1 key value = s.stored s.store c key value .putL1 := if_neg enabled
    rw [tested] at tests
    refine ⟨_, _, .cons trivial tests (.nil _), ?_⟩
    rw [Store.putL1, L1.putL1, if_neg enabled]
    rfl

/-! ## A run -/

/-- While L1 is disabled it is empty, and a putL1 before its section has read `l1_enabled_` earlier. -/
structure Quiet (es : List (Event Call)) (s : State Call) : Prop where
  linked : s.store.l1.Linked
  tested : ∀ {c caller key value}, s.point c = .storing caller key value →
    ∃ test ∈ es, test.tester = some c
  empty : s.store.l1.l1_enabled_ = false → s.store.l1.l1_list_ = []
  overtaken : s.store.l1.l1_enabled_ = false → ∀ {c caller key value},
    s.point c = .storing caller key value →
      ∃ test d, test.tester = some c ∧ [test, .setL1Enabled d false] <+ es

omit [DecidableEq Call] in
theorem Timely.of_append {more : List (Event Call)} (timely : Timely (es ++ more)) : Timely es :=
  fun test c d tester late => timely test c d tester (late.trans (List.sublist_append_left es more))

omit [DecidableEq Call] in
/-- A step that leaves L1 as it was, or as a getL1 does. -/
theorem Quiet.kept (quiet : Quiet es s) (linked : t.store.l1.Linked)
    (enabled : t.store.l1.l1_enabled_ = s.store.l1.l1_enabled_)
    (length : t.store.l1.l1_list_.length = s.store.l1.l1_list_.length)
    (storing : ∀ d caller key value, t.point d = .storing caller key value →
      s.point d = .storing caller key value ∨
        e.tester = some d ∧ s.store.l1.l1_enabled_ = true) : Quiet (es ++ [e]) t := by
  constructor
  · exact linked
  · intro c caller key value ready
    rcases storing _ _ _ _ ready with before | ⟨tester, -⟩
    · obtain ⟨test, member, tester⟩ := quiet.tested before
      exact ⟨test, List.mem_append_left _ member, tester⟩
    · exact ⟨e, List.mem_append_right _ List.mem_cons_self, tester⟩
  · intro disabled
    rw [enabled] at disabled
    rw [quiet.empty disabled, List.length_nil] at length
    exact List.length_eq_zero_iff.mp length
  · intro disabled c caller key value ready
    rw [enabled] at disabled
    rcases storing _ _ _ _ ready with before | ⟨-, set⟩
    · obtain ⟨test, d, tester, earlier⟩ := quiet.overtaken disabled before
      exact ⟨test, d, tester, earlier.trans (List.sublist_append_left es [e])⟩
    · rw [disabled] at set
      contradiction

theorem Quiet.step (quiet : Quiet es s) (timely : Timely (es ++ [e]))
    (taken : s.step? md5 e = some t) : Quiet (es ++ [e]) t := by
  cases State.effect_of_step taken with
  | switched c enabled moved =>
    obtain ⟨l1, storing⟩ := moved
    constructor
    · rw [l1]
      exact quiet.linked.step (b := .setL1Enabled enabled) rfl
    · intro d caller key value ready
      obtain ⟨test, member, tester⟩ := quiet.tested (storing ready)
      exact ⟨test, List.mem_append_left _ member, tester⟩
    · intro disabled
      rw [l1] at disabled ⊢
      cases enabled with
      | true => contradiction
      | false => rfl
    · intro disabled d caller key value ready
      rw [l1] at disabled
      cases enabled with
      | true => contradiction
      | false =>
        obtain ⟨test, member, tester⟩ := quiet.tested (storing ready)
        exact ⟨test, c, tester, (List.singleton_sublist.mpr member).append (List.Sublist.refl _)⟩
  | used c key moved =>
    obtain ⟨l1, storing⟩ := moved
    apply quiet.kept
    · rw [l1]
      exact quiet.linked.step (b := .getL1 key) rfl
    · rw [l1, L1.getL1_unique_l1_enabled_]
    · rw [l1, L1.length_getL1_unique]
    · exact fun d caller key value ready => .inl (storing ready)
  | stored c caller key value ready moved =>
    obtain ⟨l1, storing⟩ := moved
    have enabled : t.store.l1.l1_enabled_ = s.store.l1.l1_enabled_ := by
      rw [l1, L1.putL1_unique_l1_enabled_]
    have set : s.store.l1.l1_enabled_ = true := by
      by_contra disabled
      obtain ⟨test, d, tester, earlier⟩ := quiet.overtaken (Bool.not_eq_true _ ▸ disabled) ready
      exact timely test c d tester (earlier.append (List.Sublist.refl [Event.putL1_unique c]))
    constructor
    · rw [l1]
      exact quiet.linked.step (b := .putL1 key value) rfl
    · intro d caller key value ready
      obtain ⟨test, member, tester⟩ := quiet.tested (storing ready)
      exact ⟨test, List.mem_append_left _ member, tester⟩
    · intro disabled
      rw [enabled, set] at disabled
      contradiction
    · intro disabled
      rw [enabled, set] at disabled
      contradiction
  | kept e unswitched unstored l1 storing =>
    apply quiet.kept
    · rw [l1]
      exact quiet.linked
    · rw [l1]
    · rw [l1]
    · exact storing

omit [DecidableEq Call] in
theorem quiet_init {l1_max_size_ : ℕ} {l1_enabled_ redis_enabled_ : Bool}
    {redis : Bytes → Option Bytes} :
    Quiet [] (State.init l1_max_size_ l1_enabled_ redis_enabled_ redis : State Call) := by
  constructor
  · exact L1.linked_empty l1_max_size_ l1_enabled_
  · intro c caller key value ready
    contradiction
  · exact fun _ => rfl
  · intro _ c caller key value ready
    contradiction

/-- Another step leaves the last store of a value where it was. -/
theorem Latest.snoc {first : State Call} (latest : Latest md5 first es s key value)
    (spares : ¬ Stores key s e) (switch : ∀ d, e ≠ .setL1Enabled d false)
    (taken : s.step? md5 e = some t) : Latest md5 first (es ++ [e]) t key value := by
  obtain ⟨before, test, between, c, after, u, u', caller, rfl, tester, enabled, path, ready, stores,
    rest⟩ := latest
  refine ⟨before, test, between, c, after ++ [e], u, u', caller, ?_, tester, ?_, path, ready, stores,
    rest.snoc spares taken⟩
  · simp only [List.append_assoc, List.cons_append]
  · intro d member
    rw [← List.append_assoc] at member
    rcases List.mem_append.mp member with old | last
    · exact enabled d old
    · exact switch d (List.mem_singleton.mp last).symm

/-- The section of a putL1 is the last store of its key. -/
theorem Latest.of_section {first : State Call} (quiet : Quiet es s)
    (path : Path (State.step? md5) always first es s) (timely : Timely (es ++ [.putL1_unique c]))
    (ready : s.point c = .storing caller key value) (taken : s.step? md5 (.putL1_unique c) = some t) :
    Latest md5 first (es ++ [.putL1_unique c]) t key value := by
  obtain ⟨test, member, tester⟩ := quiet.tested ready
  obtain ⟨before, between, rfl⟩ := List.append_of_mem member
  refine ⟨before, test, between, c, [], s, t, caller, rfl, tester, ?_, path, ready, taken, .nil t⟩
  intro d member
  rw [List.append_nil] at member
  have late : [test, .setL1Enabled d false] <+ before ++ test :: between :=
    ((List.singleton_sublist.mpr member).cons_cons test).trans (List.sublist_append_right _ _)
  exact timely test c d tester (late.append (List.Sublist.refl [Event.putL1_unique c]))

theorem latest_step {first : State Call} (quiet : Quiet es s)
    (path : Path (State.step? md5) always first es s) (timely : Timely (es ++ [e]))
    (latest : ∀ key value, lookup key s.store.l1.contents = some value →
      Latest md5 first es s key value) (taken : s.step? md5 e = some t)
    (bound : lookup key t.store.l1.contents = some value) :
    Latest md5 first (es ++ [e]) t key value := by
  cases State.effect_of_step taken with
  | switched c enabled moved =>
    rw [moved.l1] at bound
    cases enabled with
    | true => exact (latest key value bound).snoc (by simp [Stores]) (by simp) taken
    | false => contradiction
  | used c used moved =>
    rw [moved.l1, (L1.getL1_unique_spec quiet.linked used).2.1, lookup_touch] at bound
    exact (latest key value bound).snoc (by simp [Stores]) (by simp) taken
  | stored c caller stored result ready moved =>
    rw [moved.l1] at bound
    rcases quiet.linked.lookup_putL1_unique bound with ⟨other, before⟩ | ⟨rfl, rfl⟩
    · apply (latest key value before).snoc _ (by simp) taken
      rintro ⟨d, caller', value', same, ready'⟩
      obtain rfl := Event.putL1_unique.inj same
      rw [ready] at ready'
      exact other (Point.storing.inj ready').2.1.symm
    · exact .of_section quiet path timely ready taken
  | kept e unswitched unstored l1 storing =>
    rw [l1] at bound
    apply (latest key value bound).snoc _ (fun d => unswitched d false) taken
    rintro ⟨d, caller', value', same, -⟩
    exact unstored d same

/-- While L1 is never disabled between the test and the section of a putL1: a disabled L1 is empty, and
a value that L1 returns is that of a putL1 that has read `l1_enabled_` after L1 was last disabled. -/
theorem empty_of_timely {l1_max_size_ : ℕ} {l1_enabled_ redis_enabled_ : Bool}
    {redis : Bytes → Option Bytes}
    (run : Path (State.step? md5) always
      (State.init l1_max_size_ l1_enabled_ redis_enabled_ redis : State Call) es t)
    (timely : Timely es) :
    (t.store.l1.l1_enabled_ = false →
        t.store.l1.l1_list_ = [] ∧ ∀ key, t.store.l1.l1_map_ key = none) ∧
      ∀ key value, (t.store.l1.getL1_unique key).1 = some value →
        Latest md5 (State.init l1_max_size_ l1_enabled_ redis_enabled_ redis) es t key value := by
  have kept : Path (State.step? md5) always
      (State.init l1_max_size_ l1_enabled_ redis_enabled_ redis) es t ∧
      (Timely es → Quiet es t ∧ ∀ key value, lookup key t.store.l1.contents = some value →
        Latest md5 (State.init l1_max_size_ l1_enabled_ redis_enabled_ redis) es t key value) := by
    apply run.records (I := fun es s => Path (State.step? md5) always
      (State.init l1_max_size_ l1_enabled_ redis_enabled_ redis) es s ∧
      (Timely es → Quiet es s ∧ ∀ key value, lookup key s.store.l1.contents = some value →
        Latest md5 (State.init l1_max_size_ l1_enabled_ redis_enabled_ redis) es s key value))
    · refine ⟨.nil _, fun _ => ⟨quiet_init, fun key value bound => ?_⟩⟩
      contradiction
    · rintro es s e s' ⟨path, holds⟩ allowed taken
      refine ⟨path.snoc allowed taken, fun timely => ?_⟩
      obtain ⟨quiet, latest⟩ := holds timely.of_append
      exact ⟨quiet.step timely taken,
        fun key value bound => latest_step quiet path timely latest taken bound⟩
  obtain ⟨quiet, latest⟩ := kept.2 timely
  constructor
  · intro disabled
    exact ⟨quiet.empty disabled, fun key => quiet.linked.unmapped (quiet.empty disabled)⟩
  · intro key value answer
    rw [(L1.getL1_unique_spec quiet.linked key).1] at answer
    exact latest key value answer

/-- L1 is disabled between the test and the section of a putL1. -/
def overtaken : List (Event ℕ) :=
  [.putL1 0 [0x71] [0x5a], .setL1Enabled 1 false, .putL1_unique 0]

/-- After `overtaken` the disabled L1 has an entry. -/
theorem not_empty : ¬ ∀ (md5 : Bytes → Bytes) (es : List (Event ℕ)) (t : State ℕ),
    Path (State.step? md5) always (.init 1000 true false fun _ => none) es t →
      t.store.l1.l1_enabled_ = false → t.store.l1.l1_list_ = [] := by
  intro empty
  have run : ∃ t : State ℕ, Path (State.step? id) always (.init 1000 true false fun _ => none)
      overtaken t ∧ t.store.l1.l1_enabled_ = false ∧ t.store.l1.l1_list_ ≠ [] :=
    ⟨_, replay_eq_some_iff.mp rfl, rfl, by decide +kernel⟩
  obtain ⟨t, path, disabled, entry⟩ := run
  exact entry (empty id _ t path disabled)

/-- A value is stored, L1 disabled, and enabled again; then a putL1 stores another value. -/
def resumed : List (Event ℕ) :=
  [.putL1 0 [0x71] [0x5a], .putL1_unique 0, .setL1Enabled 1 false, .setL1Enabled 2 true,
    .putL1 3 [0x71] [0x45], .putL1_unique 3]

/-- After `resumed` L1 has the second value. -/
theorem empty_of_timely_run : ∃ t : State ℕ, (t.store.l1.getL1_unique [0x71]).1 = some [0x45] ∧
    Latest id (.init 1000 true false fun _ => none) resumed t [0x71] [0x45] := by
  have run : ∃ t : State ℕ, Path (State.step? id) always (.init 1000 true false fun _ => none)
      resumed t ∧ (t.store.l1.getL1_unique [0x71]).1 = some [0x45] := by
    refine ⟨_, replay_eq_some_iff.mp rfl, ?_⟩
    decide +kernel
  have timely : Timely resumed := by
    intro test c d tester late
    have disabled : d = 1 := by
      have member := late.subset (List.mem_cons_of_mem _ List.mem_cons_self)
      simpa [resumed] using member
    subst disabled
    have storer : c = 0 ∨ c = 3 := by
      have member := late.subset (List.mem_cons_of_mem _ (List.mem_cons_of_mem _ List.mem_cons_self))
      simpa [resumed] using member
    have tests : test = .putL1 0 [0x71] [0x5a] ∨ test = .putL1 3 [0x71] [0x45] := by
      have member := late.subset List.mem_cons_self
      simp only [resumed, List.mem_cons, List.not_mem_nil, or_false] at member
      rcases member with rfl | rfl | rfl | rfl | rfl | rfl <;> simp_all [Event.tester]
    rcases storer with rfl | rfl
    · rcases tests with rfl | rfl
      · revert late
        decide
      · contradiction
    · rcases tests with rfl | rfl
      · contradiction
      · revert late
        decide
  obtain ⟨t, path, answer⟩ := run
  exact ⟨t, answer, (empty_of_timely path timely).2 _ _ answer⟩

end FlightProxy.Switch
