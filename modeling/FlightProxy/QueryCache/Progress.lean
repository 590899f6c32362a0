import FlightProxy.Model.ProxyServer
import FlightProxy.QueryCache.Calls
import FlightProxy.SingleFlight.Progress
import FlightProxy.Transition.Progress
import Mathlib.Algebra.Order.BigOperators.Group.Finset
import Mathlib.Data.Finset.Dedup

/-! # Every call returns

The calls in progress run to their ends, in whatever order their blocks are taken, and within a number
of blocks that depends only on how many calls there are: a call of doSingleFlight has five blocks after
its first, and a call of notifyFlightResult four and one for each callback.
-/

namespace FlightProxy.QueryCache

open Transition

variable {Call : Type*}

/-- The blocks left to run of a doSingleFlight call, with those left in `singleflight_`. -/
def DoCall.left (flight : ℕ) : DoCall → ℕ
  | .present _ => 5
  | .missed _ => 4
  | .electing _ => 3
  | .fetched _ _ => 2
  | .hit _ _ => 1
  | .flying _ => flight
  | .idle | .served _ _ | .threw _ => 0

/-- The blocks left to run of a notifyFlightResult call. -/
def NotifyCall.left (callbacks flight : ℕ) : NotifyCall → ℕ
  | .pushing _ _ => callbacks + 4
  | .publishing _ _ => callbacks + 3
  | .flying _ _ => flight
  | .idle => 0

theorem DoCall.left_mono {fewer more : ℕ} (le : fewer ≤ more) {d : DoCall} :
    d.left fewer ≤ d.left more := by
  cases d <;> first | exact le | exact Nat.le_refl _

theorem NotifyCall.left_mono {callbacks fewer more : ℕ} (le : fewer ≤ more) {m : NotifyCall} :
    m.left callbacks fewer ≤ m.left callbacks more := by
  cases m <;> first | exact le | exact Nat.le_refl _

/-- The first block of a call. -/
def Event.begins : Event Call → Bool
  | .getL1_shared _ _ | .putL1 _ _ _ => true
  | _ => false

namespace State

def doing_left (s : State Call) (c : Call) : ℕ := (s.doing c).left (s.singleflight_.doing c).left

def notifying_left (s : State Call) (callbacks : ℕ) (n : Call) : ℕ :=
  (s.notifying n).left callbacks ((s.singleflight_.notifying n).left callbacks)

/-- The call of doSingleFlight threw what its callback threw. -/
def Threw (s : State Call) (c : Call) : Prop :=
  (∃ query, s.doing c = .threw query) ∨ ∃ key f, s.singleflight_.doing c = .threw key f

/-- No call is in progress. -/
structure Quiet (s : State Call) : Prop where
  doing : ∀ c, s.doing c = .idle ∨ s.returned c ≠ none ∨ s.Threw c
  notifying : ∀ n, s.notifying n = .idle ∨ s.settled n = true

/-- What the runs keep that begin only these calls. -/
structure Bounded (md5 : Bytes → Bytes) (calls notifiers : Finset Call) (s : State Call) : Prop where
  tied : s.Tied md5
  enrolled : s.singleflight_.Enrolled
  orderly : s.singleflight_.Orderly
  doing : ∀ {c}, s.doing c ≠ .idle → c ∈ calls
  notifying : ∀ {n}, s.notifying n ≠ .idle → n ∈ notifiers
  entered : ∀ {c query}, s.doing c = .flying query → s.singleflight_.doing c ≠ .idle
  looked_up : ∀ {n query result}, s.notifying n = .flying query result →
    s.singleflight_.notifying n ≠ .idle

variable {md5 : Bytes → Bytes} {store : Store} {calls notifiers : Finset Call} {s s' t : State Call}
  {c n : Call} {e : Event Call} {es : List (Event Call)}

theorem bounded_init : (init store : State Call).Bounded md5 ∅ ∅ :=
  ⟨tied_init, SingleFlight.State.enrolled_init, SingleFlight.State.orderly_init,
    fun begun => absurd rfl begun, fun begun => absurd rfl begun, nofun, nofun⟩

/-- There are no more callbacks than calls. -/
private theorem Bounded.few (bounded : s.Bounded md5 calls notifiers) {callbacks : List Call}
    (nodup : callbacks.Nodup)
    (waiters : ∀ c ∈ callbacks, ∃ key f, s.singleflight_.doing c = .waiter key f) :
    callbacks.length ≤ calls.card := by
  classical
  rw [← List.toFinset_card_of_nodup nodup]
  apply Finset.card_le_card
  intro c member
  obtain ⟨key, f, waiter⟩ := waiters c (List.mem_toFinset.mp member)
  obtain ⟨query, flying, -⟩ := bounded.tied.doing (c := c) (by rw [waiter]; rfl)
  apply bounded.doing
  rw [flying]
  exact DoCall.noConfusion

theorem Bounded.fits (bounded : s.Bounded md5 calls notifiers) (f : Call) :
    (s.singleflight_.flight f).callbacks.length ≤ calls.card := by
  apply bounded.few (bounded.orderly.nodup f)
  intro c member
  obtain ⟨key, waiter⟩ := bounded.enrolled.callbacks member
  exact ⟨key, f, waiter⟩

theorem Bounded.mono {calls' notifiers' : Finset Call} (bounded : s.Bounded md5 calls notifiers)
    (more : calls ⊆ calls') (more' : notifiers ⊆ notifiers') : s.Bounded md5 calls' notifiers' :=
  ⟨bounded.tied, bounded.enrolled, bounded.orderly, fun begun => more (bounded.doing begun),
    fun begun => more' (bounded.notifying begun), bounded.entered, bounded.looked_up⟩

variable [DecidableEq Call]

/-- A call that has entered `singleflight_` stays there. -/
private theorem entered_of_step (taken : s.step? md5 e = some s')
    (entered : s.singleflight_.doing c ≠ .idle) : s'.singleflight_.doing c ≠ .idle := by
  rcases singleflight_cases taken with ⟨d, -, block⟩ | ⟨-, same⟩
  · rw [ne_eq, ← SingleFlight.DoCall.key_eq_none_iff] at entered ⊢
    rcases SingleFlight.State.key_cases block c with kept | ⟨key, -, -, now⟩
    · rwa [kept]
    · rw [now]
      exact Option.some_ne_none _
  · rwa [same]

private theorem looked_up_of_step (taken : s.step? md5 e = some s')
    (looked_up : s.singleflight_.notifying n ≠ .idle) : s'.singleflight_.notifying n ≠ .idle := by
  rcases singleflight_cases taken with ⟨d, -, block⟩ | ⟨-, same⟩
  · rw [ne_eq, ← SingleFlight.NotifyCall.sends_eq_none_iff] at looked_up ⊢
    rcases SingleFlight.State.sends_cases block n with kept | ⟨key, result, -, -, now⟩
    · rwa [kept]
    · rw [now]
      exact Option.some_ne_none _
  · rwa [same]

/-- A call of notifyFlightResult enters `singleflight_` by its lookup. -/
private theorem flying_cases {query result : Bytes} (taken : s.step? md5 e = some s')
    (flying : s'.notifying n = .flying query result) :
    s.notifying n = .flying query result ∨ ∃ key, e = .flight (.lookup n key result) := by
  rw [or_iff_not_imp_left]
  intro before
  cases e with
  | flight d =>
    obtain ⟨flights, -, ⟨c, query', -, -, rfl⟩ | ⟨m, query', result', rfl, -, rfl⟩ |
      ⟨-, -, rfl⟩⟩ := flight_cases taken
    · exact absurd flying before
    · simp only [Function.update_apply] at flying
      split_ifs at flying with same
      · obtain ⟨rfl, rfl⟩ := NotifyCall.flying.inj flying
        exact ⟨_, by rw [same]⟩
      · exact absurd flying before
    · exact absurd flying before
  | putL1 m query' result' =>
    obtain ⟨-, rfl⟩ := putL1_cases taken
    simp only [Function.update_apply] at flying
    split_ifs at flying
    exact absurd flying before
  | putL2 m reached =>
    obtain ⟨query', result', -, rfl⟩ := putL2_cases taken
    simp only [Function.update_apply] at flying
    split_ifs at flying
    exact absurd flying before
  | getL1_shared c query' =>
    obtain ⟨-, ⟨-, rfl⟩ | ⟨-, rfl⟩⟩ := getL1_shared_cases taken <;> exact absurd flying before
  | getL1_unique c =>
    obtain ⟨query', -, ⟨value, -, rfl⟩ | ⟨-, rfl⟩⟩ := getL1_unique_cases taken <;>
      exact absurd flying before
  | getL2 c reached =>
    obtain ⟨query', -, ⟨value, -, rfl⟩ | ⟨-, stats_, rfl⟩⟩ := getL2_cases taken <;>
      exact absurd flying before
  | promote c =>
    obtain ⟨query', value, -, rfl⟩ := promote_cases taken
    exact absurd flying before
  | call_back c outcome =>
    obtain ⟨query', value, -, rfl⟩ := call_back_cases outcome taken
    exact absurd flying before

theorem Bounded.step (bounded : s.Bounded md5 calls notifiers)
    (asks : ∀ c query, e = .getL1_shared c query → c ∈ calls)
    (puts : ∀ n query result, e = .putL1 n query result → n ∈ notifiers)
    (taken : s.step? md5 e = some s') : s'.Bounded md5 calls notifiers := by
  have flights : s'.singleflight_.Enrolled ∧ s'.singleflight_.Orderly := by
    rcases singleflight_cases taken with ⟨d, -, block⟩ | ⟨-, same⟩
    · exact ⟨bounded.enrolled.step block, bounded.orderly.step bounded.enrolled block⟩
    · rw [same]
      exact ⟨bounded.enrolled, bounded.orderly⟩
  refine ⟨bounded.tied.step taken, flights.1, flights.2, ?_, ?_, ?_, ?_⟩
  · intro c begun
    by_cases before : s.doing c = .idle
    · rcases doing_cases taken c with same | ⟨-, kept | ⟨query, here, -⟩⟩
      · exact absurd (same.trans before) begun
      · rw [before] at kept
        cases next : s'.doing c with
        | idle => exact absurd next begun
        | _ =>
          rw [next] at kept
          contradiction
      · exact asks c query here
    · exact bounded.doing before
  · intro n begun
    by_cases before : s.notifying n = .idle
    · rcases notifying_cases taken n with same | ⟨-, kept | ⟨query, result, here, -⟩⟩
      · exact absurd (same.trans before) begun
      · rw [before] at kept
        cases next : s'.notifying n with
        | idle => exact absurd next begun
        | pushing | publishing | flying =>
          rw [next] at kept
          contradiction
      · exact puts n query result here
    · exact bounded.notifying before
  · intro c query flying
    rcases moves_of_step taken c with same | moves
    · exact entered_of_step taken (bounded.entered (same.symm.trans flying))
    · generalize s'.doing c = next at moves flying
      cases moves with
      | flies query' electing =>
        obtain ⟨flights, block, -⟩ := flight_cases taken
        rcases singleflight_cases taken with ⟨d, here, block⟩ | ⟨other, -⟩
        · obtain rfl := Event.flight.inj here
          obtain ⟨-, ⟨-, after⟩ | ⟨f, -, -, after⟩⟩ := SingleFlight.State.elect_cases block
          · simp [after, SingleFlight.State.lead]
          · simp [after]
        · exact absurd rfl (other _)
      | calls_back query' value outcome => cases outcome <;> contradiction
      | present | missed | hit | lost | fetched | absent | promoted => contradiction
  · intro n query result flying
    rcases flying_cases taken flying with before | ⟨key, rfl⟩
    · exact looked_up_of_step taken (bounded.looked_up before)
    · rcases singleflight_cases taken with ⟨d, here, block⟩ | ⟨other, -⟩
      · obtain rfl := Event.flight.inj here
        obtain ⟨-, ⟨-, after⟩ | ⟨f, -, after⟩⟩ := SingleFlight.State.lookup_cases block
        · simp [after]
        · simp [after]
      · exact absurd rfl (other _)

/-! ## Blocks left to run -/

/-- Each block of a call in progress leaves it at least one block less. -/
private theorem left_of_step {callbacks : ℕ} (tied : s.Tied md5)
    (fits : ∀ f, (s.singleflight_.flight f).callbacks.length ≤ callbacks)
    (continues : e.begins = false) (taken : s.step? md5 e = some s') :
    (∀ c, s'.doing_left c ≤ s.doing_left c) ∧
      (∀ n, s'.notifying_left callbacks n ≤ s.notifying_left callbacks n) ∧
        ((∃ c, s'.doing_left c < s.doing_left c) ∨
          ∃ n, s'.notifying_left callbacks n < s.notifying_left callbacks n) := by
  have moved : ∀ (c : Call) (next : DoCall), next.left (s.singleflight_.doing c).left <
      s.doing_left c → (∀ d, (Function.update s.doing c next d).left (s.singleflight_.doing d).left ≤
        s.doing_left d) ∧ ∃ d, (Function.update s.doing c next d).left
          (s.singleflight_.doing d).left < s.doing_left d := by
    intro c next less
    exact SingleFlight.left_update (fun d doing => DoCall.left (s.singleflight_.doing d).left doing) s.doing
      next less
  cases e with
  | getL1_shared c query => contradiction
  | putL1 n query result => contradiction
  | getL1_unique c =>
    obtain ⟨query, present, ⟨value, -, rfl⟩ | ⟨-, rfl⟩⟩ := getL1_unique_cases taken
    · obtain ⟨others, some⟩ := moved c (.hit query value) (by
        simp [doing_left, present, DoCall.left])
      exact ⟨others, fun _ => Nat.le_refl _, .inl some⟩
    · obtain ⟨others, some⟩ := moved c (.missed query) (by
        simp [doing_left, present, DoCall.left])
      exact ⟨others, fun _ => Nat.le_refl _, .inl some⟩
  | getL2 c reached =>
    obtain ⟨query, missed, ⟨value, -, rfl⟩ | ⟨-, stats_, rfl⟩⟩ := getL2_cases taken
    · obtain ⟨others, some⟩ := moved c (.fetched query value) (by
        simp [doing_left, missed, DoCall.left])
      exact ⟨others, fun _ => Nat.le_refl _, .inl some⟩
    · obtain ⟨others, some⟩ := moved c (.electing query) (by
        simp [doing_left, missed, DoCall.left])
      exact ⟨others, fun _ => Nat.le_refl _, .inl some⟩
  | promote c =>
    obtain ⟨query, value, fetched, rfl⟩ := promote_cases taken
    obtain ⟨others, some⟩ := moved c (.hit query value) (by
      rw [doing_left, fetched]
      exact Nat.one_lt_two)
    exact ⟨others, fun _ => Nat.le_refl _, .inl some⟩
  | call_back c outcome =>
    obtain ⟨query, value, hit, rfl⟩ := call_back_cases outcome taken
    obtain ⟨others, some⟩ := moved c (.after query value outcome) (by
      rw [doing_left, hit]
      cases outcome <;> exact Nat.one_pos)
    exact ⟨others, fun _ => Nat.le_refl _, .inl some⟩
  | putL2 n reached =>
    obtain ⟨query, result, pushing, rfl⟩ := putL2_cases taken
    obtain ⟨others, some⟩ := SingleFlight.left_update
      (fun m notifying => NotifyCall.left callbacks ((s.singleflight_.notifying m).left callbacks) notifying)
      s.notifying (c := n) (.publishing query result) (by
        rw [pushing]
        simp only [NotifyCall.left]
        omega)
    exact ⟨fun _ => Nat.le_refl _, others, .inr some⟩
  | flight d =>
    obtain ⟨flights, block, ⟨c, query, rfl, electing, rfl⟩ | ⟨n, query, result, rfl, publishing, rfl⟩ |
      ⟨elections, lookups, rfl⟩⟩ := flight_cases taken
    · obtain ⟨next, doing, same, few⟩ : ∃ next, flights.doing = Function.update s.singleflight_.doing c next ∧
          flights.notifying = s.singleflight_.notifying ∧ next.left < 3 := by
        obtain ⟨-, ⟨-, rfl⟩ | ⟨f, -, -, rfl⟩⟩ := SingleFlight.State.elect_cases block
        · exact ⟨_, rfl, rfl, Nat.succ_pos 2⟩
        · exact ⟨_, rfl, rfl, Nat.lt_succ_self 2⟩
      refine ⟨fun d => ?_, fun n => ?_, .inl ⟨c, ?_⟩⟩
      · simp only [doing_left, move, doing, Function.update_apply]
        split_ifs with here
        · rw [here, electing]
          exact few.le
        · exact le_rfl
      · simp only [notifying_left, move, same, le_refl]
      · simp only [doing_left, move, doing, Function.update_self]
        rw [electing]
        exact few
    · obtain ⟨next, notifying, same, few⟩ : ∃ next,
          flights.notifying = Function.update s.singleflight_.notifying n next ∧
            flights.doing = s.singleflight_.doing ∧ next.left callbacks < callbacks + 3 := by
        obtain ⟨-, ⟨-, rfl⟩ | ⟨f, -, rfl⟩⟩ := SingleFlight.State.lookup_cases block
        · exact ⟨_, rfl, rfl, Nat.succ_pos _⟩
        · exact ⟨_, rfl, rfl, Nat.lt_succ_self _⟩
      refine ⟨fun d => ?_, fun m => ?_, .inr ⟨n, ?_⟩⟩
      · simp only [doing_left, same, le_refl]
      · simp only [notifying_left, notifying, Function.update_apply]
        split_ifs with here
        · rw [here, publishing]
          exact few.le
        · exact le_rfl
      · simp only [notifying_left, notifying, Function.update_self]
        rw [publishing]
        exact few
    · obtain ⟨calls, notifiers, some⟩ := SingleFlight.State.left_of_step fits elections lookups block
      refine ⟨fun c => DoCall.left_mono (calls c), fun n => NotifyCall.left_mono (notifiers n), ?_⟩
      rcases some with ⟨c, less⟩ | ⟨n, less⟩
      · left
        cases doing : s.singleflight_.doing c with
        | joining key f | calling key f result =>
          obtain ⟨query, flying, -⟩ := tied.doing (c := c) (by rw [doing]; rfl)
          refine ⟨c, ?_⟩
          simp only [doing_left, flying]
          exact less
        | idle | leader | waiter | threw =>
          rw [doing] at less
          contradiction
      · right
        cases notifying : s.singleflight_.notifying n with
        | publishing key result f | notifying key result f rest =>
          obtain ⟨query, flying, -⟩ := tied.notifying (n := n) (by rw [notifying]; rfl)
          refine ⟨n, ?_⟩
          simp only [notifying_left, flying]
          exact less
        | idle | returned =>
          rw [notifying] at less
          contradiction

/-- All blocks left to run. -/
def left (s : State Call) (calls notifiers : Finset Call) : ℕ :=
  ∑ c ∈ calls, s.doing_left c + ∑ n ∈ notifiers, s.notifying_left calls.card n

theorem Bounded.uses (bounded : s.Bounded md5 calls notifiers) (continues : e.begins = false)
    (taken : s.step? md5 e = some s') : s'.left calls notifiers < s.left calls notifiers := by
  obtain ⟨doing, notifying, some⟩ := left_of_step bounded.tied bounded.fits continues taken
  rcases some with ⟨c, less⟩ | ⟨n, less⟩
  · apply Nat.add_lt_add_of_lt_of_le
    · refine Finset.sum_lt_sum (fun c _ => doing c) ⟨c, ?_, less⟩
      apply bounded.doing
      intro idle
      rw [doing_left, doing_left, idle] at less
      exact Nat.not_lt_zero _ less
    · exact Finset.sum_le_sum fun n _ => notifying n
  · apply Nat.add_lt_add_of_le_of_lt
    · exact Finset.sum_le_sum fun c _ => doing c
    · refine Finset.sum_lt_sum (fun n _ => notifying n) ⟨n, ?_, less⟩
      apply bounded.notifying
      intro idle
      rw [notifying_left, notifying_left, idle] at less
      exact Nat.not_lt_zero _ less

omit [DecidableEq Call] in
/-- A call has at most five blocks left, and a call of notifyFlightResult at most four and one for each
callback. -/
theorem Bounded.left_le (bounded : s.Bounded md5 calls notifiers) :
    s.left calls notifiers ≤ calls.card * 5 + notifiers.card * (calls.card + 4) := by
  apply Nat.add_le_add
  · apply Finset.sum_le_card_nsmul
    intro c _
    rw [doing_left]
    cases s.doing c with
    | flying query => cases s.singleflight_.doing c <;> simp [DoCall.left, SingleFlight.DoCall.left]
    | _ => simp [DoCall.left]
  · apply Finset.sum_le_card_nsmul
    intro n _
    rw [notifying_left]
    cases s.notifying n with
    | flying query result =>
      cases notifying : s.singleflight_.notifying n with
      | notifying key result f rest =>
        have few := bounded.few (bounded.orderly.snapshot notifying) (by
          intro c member
          obtain ⟨key', waiter⟩ := bounded.enrolled.snapshot notifying member
          exact ⟨key', f, waiter⟩)
        simp only [NotifyCall.left, SingleFlight.NotifyCall.left]
        omega
      | _ => simp [NotifyCall.left, SingleFlight.NotifyCall.left]
    | _ => simp [NotifyCall.left]

/-- While `singleflight_` has a block to run, one can be taken. -/
private theorem Bounded.flight_progress (bounded : s.Bounded md5 calls notifiers)
    (more : (∃ c, 0 < (s.singleflight_.doing c).left) ∨
      ∃ n callbacks, 0 < (s.singleflight_.notifying n).left callbacks) :
    ∃ e : Event Call, e.begins = false ∧ s.step? md5 e ≠ none := by
  obtain ⟨d, elections, lookups, enabled⟩ := bounded.orderly.progress more
  refine ⟨.flight d, rfl, ?_⟩
  have entered : s.enter md5 d = some s := by
    unfold enter
    split
    · next c key => exact absurd rfl (elections c key)
    · next n key result => exact absurd rfl (lookups n key result)
    · rfl
  simpa [step?, flight, entered] using enabled

/-- A call that is up for election can be elected, unless a direct callback is about to run. -/
private theorem Bounded.elects (bounded : s.Bounded md5 calls notifiers) {query : Bytes}
    (electing : s.doing c = .electing query)
    (none : ∀ c, (s.singleflight_.doing c).left = 0) :
    s.step? md5 (.flight (.elect c (hash_query md5 query))) ≠ Option.none := by
  have idle : s.singleflight_.doing c = .idle := by
    by_contra entered
    rw [← SingleFlight.DoCall.key_eq_none_iff] at entered
    obtain ⟨key, carries⟩ := Option.ne_none_iff_exists'.mp entered
    obtain ⟨query', flying, -⟩ := bounded.tied.doing carries
    cases electing.symm.trans flying
  have free : ∀ f, (s.singleflight_.flight f).mutex = Option.none := by
    apply bounded.orderly.free
    intro c key f result calling
    have nothing := none c
    rw [calling] at nothing
    contradiction
  have block : s.singleflight_.step? (.elect c (hash_query md5 query)) ≠ Option.none := by
    simp only [SingleFlight.State.step?, SingleFlight.State.elect, if_pos idle]
    split
    · next f _ =>
      rw [if_pos (free f)]
      split_ifs <;> exact Option.some_ne_none _
    · exact Option.some_ne_none _
  have entered : s.enter md5 (.elect c (hash_query md5 query)) = some (s.move c (.flying query)) := by
    simp [enter, electing]
  simpa [step?, flight, entered] using block

/-- Where no call in progress can go on, there is none. -/
theorem Bounded.quiet_of_rests (bounded : s.Bounded md5 calls notifiers)
    (rests : Rests (step? md5) (fun _ e => e.begins = false) s) : s.Quiet := by
  have stuck : ∀ e : Event Call, e.begins = false → s.step? md5 e ≠ none → False :=
    fun e continues enabled => enabled (rests e continues)
  have settled : ∀ c, (s.singleflight_.doing c).left = 0 := by
    intro c
    by_contra more
    obtain ⟨e, continues, enabled⟩ := bounded.flight_progress (.inl ⟨c, Nat.pos_of_ne_zero more⟩)
    exact stuck e continues enabled
  have settled' : ∀ n callbacks, (s.singleflight_.notifying n).left callbacks = 0 := by
    intro n callbacks
    by_contra more
    obtain ⟨e, continues, enabled⟩ :=
      bounded.flight_progress (.inr ⟨n, callbacks, Nat.pos_of_ne_zero more⟩)
    exact stuck e continues enabled
  constructor
  · intro c
    cases doing : s.doing c with
    | idle => exact .inl rfl
    | present query =>
      refine (stuck (.getL1_unique c) rfl ?_).elim
      simp only [step?, getL1_unique, doing]
      split <;> exact Option.some_ne_none _
    | missed query =>
      refine (stuck (.getL2 c false) rfl ?_).elim
      simp only [step?, getL2, doing]
      split <;> exact Option.some_ne_none _
    | fetched query value => exact (stuck (.promote c) rfl (by simp [step?, promote, doing])).elim
    | hit query value => exact (stuck (.call_back c .returned) rfl (by simp [step?, call_back, doing])).elim
    | electing query => exact (stuck _ rfl (bounded.elects doing settled)).elim
    | served query value => exact .inr (.inl (by simp [returned, doing]))
    | threw query => exact .inr (.inr (.inl ⟨query, doing⟩))
    | flying query =>
      right
      have nothing := settled c
      have entered := bounded.entered doing
      cases flight : s.singleflight_.doing c with
      | idle => exact absurd flight entered
      | joining key f | calling key f result =>
        rw [flight] at nothing
        contradiction
      | leader key => exact .inl (by simp [returned, doing, flight])
      | waiter key f => exact .inl (by simp [returned, doing, flight])
      | threw key f => exact .inr (.inr ⟨key, f, flight⟩)
  · intro n
    cases notifying : s.notifying n with
    | idle => exact .inl rfl
    | pushing query result => exact (stuck (.putL2 n false) rfl (by simp [step?, putL2, notifying])).elim
    | publishing query result =>
      have idle : s.singleflight_.notifying n = .idle := by
        by_contra entered
        rw [← SingleFlight.NotifyCall.sends_eq_none_iff] at entered
        obtain ⟨⟨key, result'⟩, carries⟩ := Option.ne_none_iff_exists'.mp entered
        obtain ⟨query', flying, -⟩ := bounded.tied.notifying carries
        cases notifying.symm.trans flying
      refine (stuck (.flight (.lookup n (hash_query md5 query) result)) rfl ?_).elim
      have block : s.singleflight_.step? (.lookup n (hash_query md5 query) result) ≠ none := by
        simp only [SingleFlight.State.step?, SingleFlight.State.lookup, if_pos idle]
        split <;> exact Option.some_ne_none _
      simpa [step?, flight, enter, notifying] using block
    | flying query result =>
      right
      have nothing := settled' n 0
      have looked_up := bounded.looked_up notifying
      cases flight : s.singleflight_.notifying n with
      | idle => exact absurd flight looked_up
      | publishing key result f | notifying key result f rest =>
        rw [flight] at nothing
        contradiction
      | returned key result found => simp [QueryCache.State.settled, flight]

end State

/-! ## Runs -/

/-- The calls that a run begins. -/
def callers [DecidableEq Call] (es : List (Event Call)) : Finset Call :=
  (es.filterMap fun
    | .getL1_shared c _ => some c
    | _ => none).toFinset

/-- The calls of notifyFlightResult that a run begins. -/
def notifiers [DecidableEq Call] (es : List (Event Call)) : Finset Call :=
  (es.filterMap fun
    | .putL1 n _ _ => some n
    | _ => none).toFinset

namespace State

variable {md5 : Bytes → Bytes} {store : Store} [DecidableEq Call] {s : State Call} {es : List (Event Call)}

theorem bounded_of_run (run : Path (step? md5) always (init store) es s) :
    s.Bounded md5 (callers es) (notifiers es) := by
  apply run.records (I := fun es s => s.Bounded md5 (callers es) (notifiers es)) bounded_init
  intro es s e s' bounded _ taken
  have more : callers es ⊆ callers (es ++ [e]) ∧ notifiers es ⊆ notifiers (es ++ [e]) := by
    constructor
    all_goals
      intro c member
      simp only [callers, notifiers, List.mem_toFinset, List.filterMap_append] at member ⊢
      exact List.mem_append_left _ member
  apply (bounded.mono more.1 more.2).step ?_ ?_ taken
  · rintro c query rfl
    simp [callers]
  · rintro n query result rfl
    simp [notifiers]

/-- From every state that a run can reach, the calls in progress return: however their blocks are
ordered, they run at most five for each call of doSingleFlight, and four and one for each callback for
each call of notifyFlightResult, and where none is left to run no call is in progress. -/
theorem quiesces_of_run (md5 : Bytes → Bytes) (store : Store)
    (run : Path (step? md5) always (init store) es s) :
    (∀ {es' t}, Path (step? md5) (fun _ e => e.begins = false) s es' t →
      es'.length ≤ (callers es).card * 5 + (notifiers es).card * ((callers es).card + 4) ∧
        (Rests (step? md5) (fun _ e => e.begins = false) t → t.Quiet)) ∧
      ∃ es' t, Path (step? md5) (fun _ e => e.begins = false) s es' t ∧ t.Quiet := by
  have bounded := bounded_of_run run
  have kept : ∀ s e s', Bounded md5 (callers es) (notifiers es) s → Event.begins e = false →
      step? md5 s e = some s' → Bounded md5 (callers es) (notifiers es) s' := by
    intro s e s' bounded continues taken
    apply bounded.step ?_ ?_ taken
    · rintro c query rfl
      contradiction
    · rintro n query result rfl
      contradiction
  have used : ∀ s e s', Bounded md5 (callers es) (notifiers es) s → Event.begins e = false →
      step? md5 s e = some s' → left s' (callers es) (notifiers es) < left s (callers es) (notifiers es) :=
    fun s e s' bounded continues taken => bounded.uses continues taken
  constructor
  · intro es' t path
    constructor
    · have length := path.length_le bounded kept used
      have most := bounded.left_le
      omega
    · exact (path.preserves bounded kept).quiet_of_rests
  · obtain ⟨es', t, path, rests⟩ := exists_rest bounded kept used
    exact ⟨es', t, path, (path.preserves bounded kept).quiet_of_rests rests⟩

end State

/-- One call leads, one is about to join its flight, and the result has been put in L1. -/
def midway : List (Event ℕ) :=
  [.getL1_shared 0 [0x71], .getL2 0 false, .flight (.elect 0 (hash_query id [0x71])),
    .getL1_shared 1 [0x71], .getL2 1 false, .flight (.elect 1 (hash_query id [0x71])),
    .putL1 0 [0x71] [0x5a]]

/-- After `midway` the calls in progress return. -/
theorem quiesces_of_run_run : ∃ s : State ℕ, s.returned 1 = none ∧ s.settled 0 = false ∧
    ∃ es' t, Path (State.step? id) (fun _ e => e.begins = false) s es' t ∧ t.Quiet := by
  have run : ∃ s : State ℕ, Path (State.step? id) always (.init {}) midway s ∧
      s.returned 1 = none ∧ s.settled 0 = false := by
    refine ⟨_, replay_eq_some_iff.mp rfl, ?_, ?_⟩ <;> rfl
  obtain ⟨s, path, unreturned, unsettled⟩ := run
  exact ⟨s, unreturned, unsettled, (State.quiesces_of_run id {} path).2⟩

end FlightProxy.QueryCache
