import FlightProxy.L1.Roomy
import FlightProxy.QueryCache.Calls
import FlightProxy.SingleFlight.Election
import Mathlib.Data.Finset.Image

/-! # How often a query is sent to the server

With room for every query in L1, what a leader stores stays found, so whoever looks the query up
after that is a hit. A caller that missed the cache before is not: it arrives at `singleflight_`
later, and leads again when the first flight is published by then.
-/

namespace FlightProxy.QueryCache

open Recency

variable {Call : Type*}

/-- The query of a call past its cache miss that has not entered `singleflight_`. -/
def DoCall.missing : DoCall → Option Bytes
  | .missed query | .electing query => some query
  | _ => none

namespace State

/-- Calls only ask for the given queries, and only a leader notifies, for its own query and once. -/
def Permitted (md5 : Bytes → Bytes) (queries : Finset Bytes) (s : State Call) : Event Call → Prop
  | .getL1_shared _ query => query ∈ queries
  | .putL1 n query _ => s.Leads md5 query n
  | _ => True

/-- The query is not up for election once a notifier has published under its key. -/
def Timely (md5 : Bytes → Bytes) (query : Bytes) (s : State Call) : Event Call → Prop
  | .flight e => s.singleflight_.Timely (hash_query md5 query) e
  | _ => True

/-- No call is between its cache miss and its election when a notifier publishes under the key. -/
def Prompt (md5 : Bytes → Bytes) (query : Bytes) (s : State Call) : Event Call → Prop
  | .flight (.publish n) =>
    (s.singleflight_.notifying n).refers.map Prod.fst = some (hash_query md5 query) →
      ∀ c query', (s.doing c).missing = some query' → hash_query md5 query' ≠ hash_query md5 query
  | _ => True

/-- Every query in use has its place in L1, and every call in `singleflight_` uses its own key. -/
structure Warm (md5 : Bytes → Bytes) (queries : Finset Bytes) (s : State Call) : Prop where
  roomy : s.store.l1.Roomy (queries.image (hash_query md5))
  asked : ∀ {c query}, (s.doing c).query = some query → query ∈ queries
  stored : ∀ {n query}, (s.notifying n).query = some query → query ∈ queries ∧
    lookup (hash_query md5 query) s.store.l1.contents ≠ none
  leads : ∀ {c key}, s.singleflight_.doing c = .leader key →
    ∃ query, s.doing c = .flying query ∧ hash_query md5 query = key
  flying : ∀ {n key f}, (s.singleflight_.notifying n).refers = some (key, f) →
    ∃ query result, s.notifying n = .flying query result ∧ hash_query md5 query = key

variable [DecidableEq Call] {md5 : Bytes → Bytes} {queries : Finset Bytes} {s s' : State Call}
  {c n : Call} {query : Bytes} {e : Event Call}

omit [DecidableEq Call] in
theorem warm_init {store : Store} (linked : store.l1.Linked) (enabled : store.l1.l1_enabled_ = true)
    (empty : store.l1.contents = []) (fits : queries.card ≤ store.l1.l1_max_size_) :
    (init store : State Call).Warm md5 queries := by
  refine ⟨⟨linked, enabled, ?_, Finset.card_image_le.trans fits⟩, ?_, ?_, ?_, ?_⟩
  · intro key member
    rw [init, empty] at member
    contradiction
  all_goals intros; contradiction

/-- A call that is not in `singleflight_` moves, and the store keeps what it has bound. -/
private theorem Warm.moved (warm : s.Warm md5 queries) {store : Store} {next : DoCall}
    (roomy : store.l1.Roomy (queries.image (hash_query md5)))
    (bound : ∀ key, lookup key s.store.l1.contents ≠ none → lookup key store.l1.contents ≠ none)
    (grounded : ∀ query, s.doing c ≠ .flying query)
    (asked : ∀ query, next.query = some query → query ∈ queries) :
    ({ s with store := store }.move c next).Warm md5 queries := by
  refine ⟨roomy, ?_, ?_, ?_, warm.flying⟩
  · intro d query same
    simp only [move, Function.update_apply] at same
    split_ifs at same
    · exact asked query same
    · exact warm.asked same
  · intro n query same
    obtain ⟨known, present⟩ := warm.stored same
    exact ⟨known, bound _ present⟩
  · intro d key leads
    obtain ⟨query, flying, same⟩ := warm.leads leads
    refine ⟨query, ?_, same⟩
    simp only [move]
    rw [Function.update_of_ne, flying]
    rintro rfl
    exact grounded query flying

/-- A notifier that is not in `singleflight_` moves, and the store keeps what it has bound. -/
private theorem Warm.notified (warm : s.Warm md5 queries) {store : Store} {next : NotifyCall}
    (roomy : store.l1.Roomy (queries.image (hash_query md5)))
    (bound : ∀ key, lookup key s.store.l1.contents ≠ none → lookup key store.l1.contents ≠ none)
    (grounded : ∀ query result, s.notifying n ≠ .flying query result)
    (stored : ∀ query, next.query = some query → query ∈ queries ∧
      lookup (hash_query md5 query) store.l1.contents ≠ none) :
    Warm md5 queries { s with
      store := store, notifying := Function.update s.notifying n next } := by
  refine ⟨roomy, warm.asked, ?_, warm.leads, ?_⟩
  · intro m query same
    simp only [Function.update_apply] at same
    split_ifs at same
    · exact stored query same
    · obtain ⟨known, present⟩ := warm.stored same
      exact ⟨known, bound _ present⟩
  · intro m key f refers
    obtain ⟨query, result, flying, same⟩ := warm.flying refers
    refine ⟨query, result, ?_, same⟩
    simp only
    rw [Function.update_of_ne, flying]
    rintro rfl
    exact grounded query result flying

omit [DecidableEq Call] in
private theorem Warm.known (warm : s.Warm md5 queries) (same : (s.doing c).query = some query) :
    hash_query md5 query ∈ queries.image (hash_query md5) :=
  Finset.mem_image_of_mem _ (warm.asked same)

omit [DecidableEq Call] in
/-- Storing a known query binds it and forgets no other. -/
private theorem Warm.put (warm : s.Warm md5 queries) (known : query ∈ queries) (result : Bytes) :
    let l1 := s.store.l1.putL1 (hash_query md5 query) result
    l1.Roomy (queries.image (hash_query md5)) ∧
      lookup (hash_query md5 query) l1.contents ≠ none ∧
      ∀ key, lookup key s.store.l1.contents ≠ none → lookup key l1.contents ≠ none := by
  obtain ⟨roomy, contents⟩ := warm.roomy.putL1 (Finset.mem_image_of_mem _ known) result
  refine ⟨roomy, ?_, ?_⟩
  · rw [contents, lookup_store_self]
    exact Option.some_ne_none _
  · intro key present
    rw [contents]
    by_cases same : key = hash_query md5 query
    · rw [same, lookup_store_self]
      exact Option.some_ne_none _
    · rw [lookup_store_of_ne same]
      exact present

private theorem Warm.flight {d : SingleFlight.Event Call} (warm : s.Warm md5 queries)
    (taken : s.flight md5 d = some s') : s'.Warm md5 queries := by
  obtain ⟨flights, step, rest⟩ := flight_cases taken
  have leads : ∀ c key, flights.doing c = .leader key →
      d = .elect c key ∨ s.singleflight_.doing c = .leader key := by
    intro c key leads
    obtain ⟨c', key', rfl, -, -, rfl⟩ | kept := SingleFlight.State.leader_cases step
    · simp only [SingleFlight.State.lead, Function.update_apply] at leads
      split_ifs at leads with same
      · rw [same, SingleFlight.DoCall.leader.inj leads]
        exact .inl rfl
      · exact .inr leads
    · exact .inr ((kept c key).mp leads)
  have refers : ∀ n key f, (flights.notifying n).refers = some (key, f) →
      (s.singleflight_.notifying n).refers = some (key, f) ∨ ∃ result, d = .lookup n key result :=
    fun n key f refers => SingleFlight.State.refers_cases refers step
  rcases rest with ⟨c, query, rfl, electing, rfl⟩ | ⟨n, query, result, rfl, publishing, rfl⟩ |
    ⟨elections, lookups, rfl⟩
  · refine ⟨warm.roomy, ?_, warm.stored, ?_, ?_⟩
    · intro d query' same
      simp only [move, Function.update_apply] at same
      split_ifs at same
      · exact warm.asked (c := c) (by rw [electing]; exact same)
      · exact warm.asked same
    · intro d key told
      simp only [move, Function.update_apply]
      split_ifs with here
      · refine ⟨query, rfl, ?_⟩
        rcases leads d key told with elected | before
        · exact (SingleFlight.Event.elect.inj elected).2
        · obtain ⟨query', flying, -⟩ := warm.leads before
          rw [here, electing] at flying
          contradiction
      · rcases leads d key told with elected | before
        · exact absurd (SingleFlight.Event.elect.inj elected).1.symm here
        · exact warm.leads before
    · intro n key f named
      rcases refers n key f named with before | ⟨result, looked⟩
      · exact warm.flying before
      · contradiction
  · refine ⟨warm.roomy, warm.asked, ?_, ?_, ?_⟩
    · intro m query' same
      simp only [Function.update_apply] at same
      split_ifs at same
      · exact warm.stored (n := n) (by rw [publishing]; exact same)
      · exact warm.stored same
    · intro c key told
      rcases leads c key told with elected | before
      · contradiction
      · exact warm.leads before
    · intro m key f named
      simp only [Function.update_apply]
      split_ifs with here
      · refine ⟨query, result, rfl, ?_⟩
        rcases refers m key f named with before | ⟨result', looked⟩
        · obtain ⟨query', result', flying, -⟩ := warm.flying before
          rw [here, publishing] at flying
          contradiction
        · exact (SingleFlight.Event.lookup.inj looked).2.1
      · rcases refers m key f named with before | ⟨result', looked⟩
        · exact warm.flying before
        · exact absurd (SingleFlight.Event.lookup.inj looked).1.symm here
  · refine ⟨warm.roomy, warm.asked, warm.stored, ?_, ?_⟩
    · intro c key told
      rcases leads c key told with elected | before
      · exact absurd elected (elections c key)
      · exact warm.leads before
    · intro n key f named
      rcases refers n key f named with before | ⟨result, looked⟩
      · exact warm.flying before
      · exact absurd looked (lookups n key result)

theorem Warm.step (warm : s.Warm md5 queries) (permitted : s.Permitted md5 queries e)
    (taken : s.step? md5 e = some s') : s'.Warm md5 queries := by
  have touched : ∀ query key, lookup key s.store.l1.contents ≠ none →
      lookup key (s.store.l1.getL1_unique query).2.contents ≠ none := by
    intro query key bound
    rw [(L1.getL1_unique_spec warm.roomy.linked query).2.1, lookup_touch]
    exact bound
  cases e with
  | getL1_shared c query =>
    obtain ⟨idle, ⟨-, rfl⟩ | ⟨-, rfl⟩⟩ := getL1_shared_cases taken
    all_goals
      refine warm.moved warm.roomy (fun _ => id) (by simp [idle]) ?_
      rintro query' same
      obtain rfl := Option.some.inj same
      exact permitted
  | getL1_unique c =>
    obtain ⟨query, present, ⟨value, -, rfl⟩ | ⟨-, rfl⟩⟩ := getL1_unique_cases taken
    all_goals
      refine warm.moved (warm.roomy.getL1_unique _) (touched _) (by simp [present]) ?_
      intro query' same
      exact warm.asked (c := c) (by rw [present]; exact same)
  | getL2 c reached =>
    obtain ⟨query, missed, ⟨value, -, rfl⟩ | ⟨-, stats_, rfl⟩⟩ := getL2_cases taken
    all_goals
      refine warm.moved warm.roomy (fun _ => id) (by simp [missed]) ?_
      intro query' same
      exact warm.asked (c := c) (by rw [missed]; exact same)
  | promote c =>
    obtain ⟨query, value, fetched, rfl⟩ := promote_cases taken
    obtain ⟨roomy, -, bound⟩ := warm.put (warm.asked (c := c) (by rw [fetched]; rfl)) value
    refine warm.moved roomy bound (by simp [fetched]) ?_
    intro query' same
    exact warm.asked (c := c) (by rw [fetched]; exact same)
  | call_back c outcome =>
    obtain ⟨query, value, hit, rfl⟩ := call_back_cases outcome taken
    refine warm.moved warm.roomy (fun _ => id) (by simp [hit]) ?_
    intro query' same
    refine warm.asked (c := c) ?_
    rw [hit]
    cases outcome <;> exact same
  | putL1 n query result =>
    obtain ⟨idle, rfl⟩ := putL1_cases taken
    have known : query ∈ queries := warm.asked (c := n) (by rw [permitted.1]; rfl)
    obtain ⟨roomy, present, bound⟩ := warm.put known result
    refine warm.notified roomy bound (by simp [idle]) ?_
    rintro query' same
    obtain rfl := Option.some.inj same
    exact ⟨known, present⟩
  | putL2 n reached =>
    obtain ⟨query, result, pushing, rfl⟩ := putL2_cases taken
    have same : (s.store.putL2 reached (hash_query md5 query) result).l1 = s.store.l1 := by
      rw [Store.putL2]
      split_ifs <;> rfl
    refine warm.notified (by rw [same]; exact warm.roomy) (by rw [same]; exact fun _ => id)
      (by simp [pushing]) ?_
    rw [same]
    intro query' named
    exact warm.stored (n := n) (by rw [pushing]; exact named)
  | flight d => exact warm.flight taken

/-- A call misses the cache only while its key is not bound. -/
private theorem Warm.missing_cases (warm : s.Warm md5 queries)
    (missing : (s'.doing c).missing = some query) (taken : s.step? md5 e = some s') :
    (s.doing c).missing = some query ∨
      lookup (hash_query md5 query) s.store.l1.contents = none := by
  rcases moves_of_step taken c with same | moves
  · exact .inl (same ▸ missing)
  · generalize s'.doing c = next at moves missing
    cases moves with
    | present | hit | fetched | promoted | flies => contradiction
    | missed query' idle absent =>
      obtain rfl := Option.some.inj missing
      right
      by_contra bound
      rw [warm.roomy.linked.getL1_shared_iff.mpr ⟨warm.roomy.enabled, bound⟩] at absent
      contradiction
    | lost query' present absent =>
      obtain rfl := Option.some.inj missing
      exact .inr ((L1.getL1_unique_spec warm.roomy.linked _).1.symm.trans absent)
    | absent query' reached before =>
      rw [before]
      exact .inl missing
    | calls_back query' value outcome => cases outcome <;> contradiction

/-- Once a notifier has published under the query's key, no call with that key is past a miss. -/
def Settled (md5 : Bytes → Bytes) (query : Bytes) (s : State Call) : Prop :=
  s.singleflight_.Published (hash_query md5 query) →
    ∀ c query', (s.doing c).missing = some query' → hash_query md5 query' ≠ hash_query md5 query

theorem Settled.step (warm : s.Warm md5 queries) (settled : s.Settled md5 query)
    (prompt : s.Prompt md5 query e) (taken : s.step? md5 e = some s') : s'.Settled md5 query := by
  rintro published c query' missing same
  have before : s.singleflight_.Published (hash_query md5 query) → False := by
    intro before
    rcases warm.missing_cases missing taken with earlier | absent
    · exact settled before c query' earlier same
    · obtain ⟨n, f, refers, -⟩ := before
      obtain ⟨query'', result, flying, named⟩ := warm.flying refers
      have held : (s.notifying n).query = some query'' := by rw [flying]; rfl
      obtain ⟨-, bound⟩ := warm.stored held
      rw [named, ← same] at bound
      exact bound absent
  rcases singleflight_cases taken with ⟨d, rfl, step⟩ | ⟨-, kept⟩
  · obtain ⟨n, f, refers, set⟩ := published
    rcases SingleFlight.State.published_cases refers set step with ⟨earlier, was⟩ | ⟨rfl, held, -⟩
    · exact before ⟨n, f, earlier, was⟩
    · rcases warm.missing_cases missing taken with earlier | absent
      · exact prompt (by rw [held]; rfl) c query' earlier same
      · obtain ⟨query'', result, flying, named⟩ := warm.flying held
        have held : (s.notifying n).query = some query'' := by rw [flying]; rfl
        obtain ⟨-, bound⟩ := warm.stored held
        rw [named, ← same] at bound
        exact bound absent
  · rw [kept] at published
    exact before published

end State

open State

variable [DecidableEq Call] {md5 : Bytes → Bytes} {queries : Finset Bytes} {store : Store}
  {es : List (Event Call)} {s : State Call}

/-- A query that is never elected after its first publication is led at most once. -/
private theorem unique_of_timely {s t : State Call} (query : Bytes)
    (run : Transition.Path (step? md5) (fun s e => s.Permitted md5 queries e ∧ s.Timely md5 query e)
      s es t) (initial : s.singleflight_ = .init) {c d : Call}
    (first : t.Leads md5 query c) (second : t.Leads md5 query d) : c = d := by
  by_contra distinct
  have flights := flights_of_run (SingleFlight.State.Timely (hash_query md5 query)) run
    fun _ _ allowed => allowed.2
  rw [initial] at flights
  exact SingleFlight.uncontested_of_timely flights ⟨c, d, distinct, first.2, second.2⟩

private theorem contested_step {key : Bytes} {e : Event Call} {s' : State Call}
    (contested : s.singleflight_.Contested key) (taken : s.step? md5 e = some s') :
    s'.singleflight_.Contested key := by
  rcases singleflight_cases taken with ⟨d, rfl, step⟩ | ⟨-, kept⟩
  · exact SingleFlight.State.Contested.step contested step
  · rw [kept]
    exact contested

private theorem marked_step {e : Event Call} {s' : State Call}
    (marked : s.singleflight_.Marked) (taken : s.step? md5 e = some s') :
    s'.singleflight_.Marked := by
  rcases singleflight_cases taken with ⟨d, rfl, step⟩ | ⟨-, kept⟩
  · exact marked.step step
  · rw [kept]
    exact marked

/-- A step that leaves its key uncontested elects nobody after the first publication. -/
private theorem timely_of_uncontested {e : Event Call} {s' : State Call} (query : Bytes)
    (marked : s.singleflight_.Marked) (taken : s.step? md5 e = some s')
    (uncontested : ¬ s'.singleflight_.Contested (hash_query md5 query)) :
    s.Timely md5 query e := by
  cases e with
  | flight d =>
    cases d with
    | elect c key =>
      rintro rfl published
      rcases singleflight_cases taken with ⟨d, same, step⟩ | ⟨other, -⟩
      · obtain rfl := Event.flight.inj same
        exact uncontested (marked.contested_of_late published step)
      · exact other _ rfl
    | _ => trivial
  | _ => trivial

/-- When MD5 tells the queries apart, a query led at most once is never elected late. -/
private theorem timely_of_unique (warm : (State.init store : State Call).Warm md5 queries)
    (run : Transition.Path (step? md5) (Permitted md5 queries) (.init store) es s) {query : Bytes}
    (asked : query ∈ queries) (apart : Set.InjOn (hash_query md5) queries)
    (unique : ∀ c d, s.Leads md5 query c → s.Leads md5 query d → c = d) :
    Transition.Path (step? md5) (fun s e => s.Permitted md5 queries e ∧ s.Timely md5 query e)
      (.init store) es s := by
  have final := run.preserves warm fun _ _ _ warm permitted taken => warm.step permitted taken
  have leads : ∀ c, s.singleflight_.doing c = .leader (hash_query md5 query) →
      s.Leads md5 query c := by
    intro c told
    obtain ⟨query', flying, same⟩ := final.leads told
    obtain rfl := apart (final.asked (c := c) (by rw [flying]; rfl)) asked same
    exact ⟨flying, told⟩
  have uncontested : ¬ s.singleflight_.Contested (hash_query md5 query) := by
    rintro ⟨c, d, distinct, first, second⟩
    exact distinct (unique c d (leads c first) (leads d second))
  have marked := run.strengthen (I := fun s => s.singleflight_.Marked)
    SingleFlight.State.marked_init fun _ _ _ marked _ taken => marked_step marked taken
  obtain ⟨-, avoids⟩ := marked.avoid
    (D := fun s => s.singleflight_.Contested (hash_query md5 query))
    (fun _ _ _ contested _ taken => contested_step contested taken) uncontested
  refine avoids.mono ?_
  rintro s e s' ⟨⟨permitted, marked⟩, escapes⟩ taken
  exact ⟨permitted, timely_of_uncontested query marked taken (escapes s' taken)⟩

/-- An election past a publication is one of a call that missed the cache before. -/
private theorem timely_of_settled {e : Event Call} {s' : State Call} {query : Bytes}
    (settled : s.Settled md5 query) (taken : s.step? md5 e = some s') : s.Timely md5 query e := by
  cases e with
  | flight d =>
    cases d with
    | elect c key =>
      rintro rfl published
      obtain ⟨flights, -, ⟨c', query', same, electing, -⟩ | ⟨n, query', result, same, -⟩ |
        ⟨other, -⟩⟩ := flight_cases taken
      · obtain ⟨rfl, key⟩ := SingleFlight.Event.elect.inj same
        exact settled published c query' (by rw [electing]; rfl) key.symm
      · contradiction
      · exact other _ _ rfl
    | _ => trivial
  | _ => trivial

private theorem timely_of_prompt (warm : (State.init store : State Call).Warm md5 queries)
    {query : Bytes}
    (run : Transition.Path (step? md5) (fun s e => s.Permitted md5 queries e ∧ s.Prompt md5 query e)
      (.init store) es s) :
    Transition.Path (step? md5) (fun s e => s.Permitted md5 queries e ∧ s.Timely md5 query e)
      (.init store) es s := by
  have initial : (State.init store : State Call).Settled md5 query := by
    rintro ⟨n, f, refers, -⟩
    cases refers
  have settled := run.strengthen
    (I := fun s => s.Warm md5 queries ∧ s.Settled md5 query) ⟨warm, initial⟩ ?_
  · refine settled.mono ?_
    rintro s e s' ⟨⟨permitted, -⟩, -, settled⟩ taken
    exact ⟨permitted, timely_of_settled settled taken⟩
  · rintro s e s' ⟨warm, settled⟩ ⟨permitted, prompt⟩ taken
    exact ⟨warm.step permitted taken, settled.step warm prompt taken⟩

/-- With room for all queries, a query is led at most once when it is never elected after its first
publication, and, if MD5 tells the queries apart, only then. It suffices that no call is between its
cache miss and its election when a result is published. -/
theorem one_leader_of_timely (linked : store.l1.Linked) (enabled : store.l1.l1_enabled_ = true)
    (empty : store.l1.contents = []) (fits : queries.card ≤ store.l1.l1_max_size_)
    (run : Transition.Path (step? md5) (Permitted md5 queries) (.init store) es s) (query : Bytes) :
    (Transition.Path (step? md5) (fun s e => s.Permitted md5 queries e ∧ s.Timely md5 query e)
        (.init store) es s → ∀ c d, s.Leads md5 query c → s.Leads md5 query d → c = d) ∧
      (query ∈ queries → Set.InjOn (hash_query md5) queries →
        (∀ c d, s.Leads md5 query c → s.Leads md5 query d → c = d) →
          Transition.Path (step? md5) (fun s e => s.Permitted md5 queries e ∧ s.Timely md5 query e)
            (.init store) es s) ∧
      (Transition.Path (step? md5) (fun s e => s.Permitted md5 queries e ∧ s.Prompt md5 query e)
          (.init store) es s →
        Transition.Path (step? md5) (fun s e => s.Permitted md5 queries e ∧ s.Timely md5 query e)
          (.init store) es s) := by
  have warm : (State.init store : State Call).Warm md5 queries :=
    warm_init linked enabled empty fits
  refine ⟨?_, ?_, timely_of_prompt warm⟩
  · intro timely c d first second
    exact unique_of_timely query timely rfl first second
  · intro asked apart unique
    exact timely_of_unique warm run asked apart unique

/-- A caller misses the cache; the leader stores, publishes and erases; the caller is elected. -/
def lateElection : List (Event ℕ) :=
  [.getL1_shared 1 [0x71], .getL2 1 false, .getL1_shared 0 [0x71], .getL2 0 false,
    .flight (.elect 0 [0x37, 0x31]), .putL1 0 [0x71] [0x61], .putL2 0 false,
    .flight (.lookup 0 [0x37, 0x31] [0x61]), .flight (.publish 0), .flight (.erase 0),
    .flight (.elect 1 [0x37, 0x31])]

/-- Both callers of `lateElection` lead. -/
theorem not_one_leader_of_timely :
    ¬ ∀ (es : List (Event ℕ)) (s : State ℕ),
      Transition.Path (step? id) (Permitted id {[0x71]}) (.init {}) es s →
        ∀ c d, s.Leads id [0x71] c → s.Leads id [0x71] d → c = d := by
  intro unique
  have asked : ([0x71] : Bytes) ∈ ({[0x71]} : Finset Bytes) := Finset.mem_singleton_self _
  have run : ∃ s : State ℕ,
      Transition.Path (step? id) (Permitted id {[0x71]}) (.init {}) lateElection s ∧
        s.Leads id [0x71] 0 ∧ s.Leads id [0x71] 1 :=
    ⟨_, .cons asked rfl (.cons trivial rfl (.cons asked rfl (.cons trivial rfl (.cons trivial rfl
      (.cons ⟨rfl, rfl⟩ rfl (.cons trivial rfl (.cons trivial rfl (.cons trivial rfl
        (.cons trivial rfl (.cons trivial rfl (.nil _))))))))))), ⟨rfl, rfl⟩, ⟨rfl, rfl⟩⟩
  obtain ⟨s, path, first, second⟩ := run
  exact absurd (unique _ s path 0 1 first second) (by decide)

/-- A leader that publishes while nobody is on the way: the next caller is a hit. -/
theorem one_leader_of_timely_run :
    ∃ s : State ℕ, s.Leads id [0x71] 0 ∧ s.doing 1 = .hit [0x71] [0x61] ∧
      ∀ c d, s.Leads id [0x71] c → s.Leads id [0x71] d → c = d := by
  have asked : ([0x71] : Bytes) ∈ ({[0x71]} : Finset Bytes) := Finset.mem_singleton_self _
  have run : ∃ s : State ℕ, Transition.Path (step? id)
      (fun s e => s.Permitted id {[0x71]} e ∧ s.Timely id [0x71] e) (.init {})
      [.getL1_shared 0 [0x71], .getL2 0 false, .flight (.elect 0 [0x37, 0x31]),
        .putL1 0 [0x71] [0x61], .putL2 0 false, .flight (.lookup 0 [0x37, 0x31] [0x61]),
        .flight (.publish 0), .flight (.erase 0), .getL1_shared 1 [0x71], .getL1_unique 1] s ∧
      s.Leads id [0x71] 0 ∧ s.doing 1 = .hit [0x71] [0x61] := by
    refine ⟨_, .cons ⟨asked, trivial⟩ rfl (.cons ⟨trivial, trivial⟩ rfl (.cons ⟨trivial, ?_⟩ rfl
      (.cons ⟨⟨rfl, rfl⟩, trivial⟩ rfl (.cons ⟨trivial, trivial⟩ rfl (.cons ⟨trivial, trivial⟩ rfl
        (.cons ⟨trivial, trivial⟩ rfl (.cons ⟨trivial, trivial⟩ rfl (.cons ⟨asked, trivial⟩ rfl
          (.cons ⟨trivial, trivial⟩ rfl (.nil _)))))))))), ⟨rfl, rfl⟩, rfl⟩
    rintro - ⟨n, f, refers, -⟩
    cases refers
  obtain ⟨s, path, leads, hit⟩ := run
  have permitted : Transition.Path (step? id) (Permitted id {[0x71]}) (.init {}) _ s :=
    path.mono fun _ _ _ allowed _ => allowed.1
  exact ⟨s, leads, hit, (one_leader_of_timely (L1.linked_empty 1000 true) rfl rfl (by decide)
    permitted [0x71]).1 path⟩

end FlightProxy.QueryCache
