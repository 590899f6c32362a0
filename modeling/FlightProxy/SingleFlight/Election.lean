import FlightProxy.SingleFlight.Callbacks
import FlightProxy.SingleFlight.Leadership

/-! # How often a key elects a leader

Until a notifier publishes under a key, the first leader's unready flight stays there and everyone
else joins it; an election after that publication always adds a leader. So a key has a single leader
exactly when all its elections come before its first publication.
-/

namespace FlightProxy.SingleFlight

variable {Call : Type*}

namespace State

/-- A notifier has published under the key. -/
def Published (s : State Call) (key : Bytes) : Prop :=
  ∃ n f, (s.notifying n).refers = some (key, f) ∧ (s.notifying n).published = true

/-- The key is not up for election once a notifier has published under it. -/
def Timely (key : Bytes) (s : State Call) : Event Call → Prop
  | .elect _ key' => key' = key → ¬ s.Published key
  | _ => True

/-- Two callers were told `IS_LEADER` for the key. -/
def Contested (key : Bytes) (s : State Call) : Prop :=
  ∃ c d, c ≠ d ∧ s.doing c = .leader key ∧ s.doing d = .leader key

/-- Every published flight is ready, and leads to a caller that was told `IS_LEADER`. -/
structure Marked (s : State Call) : Prop where
  led : s.Led
  ready : ∀ {n key f}, (s.notifying n).refers = some (key, f) → (s.notifying n).published = true →
    (s.flight f).ready = true

theorem marked_init : (init : State Call).Marked :=
  ⟨led_init, by intros; contradiction⟩

variable [DecidableEq Call] {s s' : State Call} {c n f : Call} {key key' result : Bytes}
  {e : Event Call}

/-- A step tells one idle caller `IS_LEADER`, under a key without an unready flight, or nobody. -/
theorem leader_cases (taken : s.step? e = some s') :
    (∃ c key, e = .elect c key ∧ s.doing c = .idle ∧
        (∀ f, s.flights_ key = some f → (s.flight f).ready = true) ∧ s' = s.lead c key) ∨
      ∀ f key, s'.doing f = .leader key ↔ s.doing f = .leader key := by
  have moves : ∀ {c : Call} {next : DoCall Call} (_ : ∀ key, s.doing c ≠ .leader key)
      (_ : ∀ key, next ≠ .leader key) (f : Call) (key : Bytes),
      Function.update s.doing c next f = .leader key ↔ s.doing f = .leader key := by
    intro c next before after f key
    rw [Function.update_apply]
    split_ifs with same
    · rw [same]
      exact iff_of_false (after key) (before key)
    · exact Iff.rfl
  cases e with
  | elect c key =>
    obtain ⟨idle, ⟨replaceable, rfl⟩ | ⟨f, -, -, rfl⟩⟩ := elect_cases taken
    · exact .inl ⟨c, key, rfl, idle, replaceable, rfl⟩
    · exact .inr (moves (by simp [idle]) (by simp))
  | join c =>
    obtain ⟨key, f, joining, -, ⟨-, rfl⟩ | ⟨-, rfl⟩⟩ := join_cases taken
    · exact .inr (moves (by simp [joining]) (by simp))
    · exact .inr (moves (by simp [joining]) (by simp))
  | call_back c outcome =>
    obtain ⟨key, f, result, calling, rfl⟩ := call_back_cases taken
    refine .inr (moves (by simp [calling]) ?_)
    exact fun _ => DoCall.refers_ne_leader (DoCall.refers_after ..)
  | lookup n key result =>
    obtain ⟨-, ⟨-, rfl⟩ | ⟨f, -, rfl⟩⟩ := lookup_cases taken
    · exact .inr fun _ _ => Iff.rfl
    · exact .inr fun _ _ => Iff.rfl
  | publish n =>
    obtain ⟨key, result, f, -, -, rfl⟩ := publish_cases taken
    exact .inr fun _ _ => Iff.rfl
  | notify n outcome =>
    obtain ⟨key, result, f, c, rest, -, rfl⟩ := notify_cases outcome taken
    exact .inr fun _ _ => Iff.rfl
  | erase n =>
    obtain ⟨key, result, f, -, rfl⟩ := erase_cases taken
    exact .inr fun _ _ => Iff.rfl

/-- Who has been told `IS_LEADER` stays so. -/
theorem leader_persists (leads : s.doing f = .leader key) (taken : s.step? e = some s') :
    s'.doing f = .leader key :=
  (doing_of_done (by rw [leads]; rfl) taken).trans leads

theorem Contested.step (contested : s.Contested key) (taken : s.step? e = some s') :
    s'.Contested key := by
  obtain ⟨c, d, distinct, first, second⟩ := contested
  exact ⟨c, d, distinct, leader_persists first taken, leader_persists second taken⟩

/-- What a notifier has published stays published: the calls that move have published nothing yet,
or keep the key and the flight of what they have. -/
theorem published_kept {next : NotifyCall Call}
    (along : (s.notifying n).published = true → next.refers = (s.notifying n).refers ∧
      next.published = true)
    (published : s.Published key) :
    ∃ m f, (Function.update s.notifying n next m).refers = some (key, f) ∧
      (Function.update s.notifying n next m).published = true := by
  obtain ⟨m, f, refers, set⟩ := published
  refine ⟨m, f, ?_⟩
  rw [Function.update_apply]
  split_ifs with same
  · subst same
    obtain ⟨kept, still⟩ := along set
    exact ⟨kept.trans refers, still⟩
  · exact ⟨refers, set⟩

theorem Published.step (published : s.Published key) (taken : s.step? e = some s') :
    s'.Published key := by
  cases e with
  | elect c key' =>
    obtain ⟨-, ⟨-, rfl⟩ | ⟨f, -, -, rfl⟩⟩ := elect_cases taken
    · exact published
    · exact published
  | join c =>
    obtain ⟨key', f, -, -, ⟨-, rfl⟩ | ⟨-, rfl⟩⟩ := join_cases taken
    · exact published
    · exact published
  | call_back c outcome =>
    obtain ⟨key', f, result, -, rfl⟩ := call_back_cases taken
    exact published
  | lookup n key' result =>
    obtain ⟨idle, ⟨-, rfl⟩ | ⟨f, -, rfl⟩⟩ := lookup_cases taken
    · exact published_kept (by simp [idle, NotifyCall.published]) published
    · exact published_kept (by simp [idle, NotifyCall.published]) published
  | publish n =>
    obtain ⟨key', result, f, publishing, -, rfl⟩ := publish_cases taken
    exact published_kept (by simp [publishing, NotifyCall.published]) published
  | notify n outcome =>
    obtain ⟨key', result, f, c, rest, notifying, rfl⟩ := notify_cases outcome taken
    refine published_kept ?_ published
    simp [notifying, NotifyCall.refers, NotifyCall.published]
  | erase n =>
    obtain ⟨key', result, f, notifying, rfl⟩ := erase_cases taken
    refine published_kept ?_ published
    simp [notifying, NotifyCall.refers, NotifyCall.published]

/-- A ready flight of a leader stays ready: a flight is reset only for a caller that was idle. -/
theorem ready_persists (leads : s.doing f = .leader key) (ready : (s.flight f).ready = true)
    (taken : s.step? e = some s') : (s'.flight f).ready = true := by
  cases e with
  | elect c key' =>
    obtain ⟨idle, ⟨-, rfl⟩ | ⟨g, -, -, rfl⟩⟩ := elect_cases taken
    · simp only [lead]
      rw [Function.update_of_ne, ready]
      rintro rfl
      rw [leads] at idle
      contradiction
    · exact ready
  | join c =>
    obtain ⟨key', g, -, -, ⟨-, rfl⟩ | ⟨-, rfl⟩⟩ := join_cases taken
    · rw [ready_acquire, ready]
    · rw [ready_enrol, ready]
  | call_back c outcome =>
    obtain ⟨key', g, result, -, rfl⟩ := call_back_cases taken
    rw [ready_release, ready]
  | lookup n key' result =>
    obtain ⟨-, ⟨-, rfl⟩ | ⟨g, -, rfl⟩⟩ := lookup_cases taken
    · exact ready
    · exact ready
  | publish n =>
    obtain ⟨key', result, g, -, -, rfl⟩ := publish_cases taken
    simp only [Function.update_apply]
    split_ifs
    · rfl
    · exact ready
  | notify n outcome =>
    obtain ⟨key', result, g, c, rest, -, rfl⟩ := notify_cases outcome taken
    exact ready
  | erase n =>
    obtain ⟨key', result, g, -, rfl⟩ := erase_cases taken
    exact ready

/-- A notifier's reference is the one it had, or the one it has just looked up. -/
theorem refers_cases (refers : (s'.notifying n).refers = some (key, f))
    (taken : s.step? e = some s') :
    (s.notifying n).refers = some (key, f) ∨ ∃ result, e = .lookup n key result := by
  cases e with
  | elect c key' =>
    obtain ⟨-, ⟨-, rfl⟩ | ⟨g, -, -, rfl⟩⟩ := elect_cases taken
    · exact .inl refers
    · exact .inl refers
  | join c =>
    obtain ⟨key', g, -, -, ⟨-, rfl⟩ | ⟨-, rfl⟩⟩ := join_cases taken
    · exact .inl refers
    · exact .inl refers
  | call_back c outcome =>
    obtain ⟨key', g, result, -, rfl⟩ := call_back_cases taken
    exact .inl refers
  | lookup m key' result =>
    obtain ⟨-, ⟨-, rfl⟩ | ⟨g, -, rfl⟩⟩ := lookup_cases taken
    · simp only [Function.update_apply] at refers
      split_ifs at refers
      · contradiction
      · exact .inl refers
    · simp only [Function.update_apply] at refers
      split_ifs at refers with same
      · obtain ⟨rfl, -⟩ := Prod.mk.inj (Option.some.inj refers)
        exact .inr ⟨result, by rw [same]⟩
      · exact .inl refers
  | publish m =>
    obtain ⟨key', result, g, publishing, -, rfl⟩ := publish_cases taken
    simp only [Function.update_apply] at refers
    split_ifs at refers with same
    · rw [same, publishing]
      exact .inl refers
    · exact .inl refers
  | notify m outcome =>
    obtain ⟨key', result, g, c, rest, notifying, rfl⟩ := notify_cases outcome taken
    simp only [Function.update_apply] at refers
    split_ifs at refers with same
    · rw [same, notifying]
      exact .inl refers
    · exact .inl refers
  | erase m =>
    obtain ⟨key', result, g, notifying, rfl⟩ := erase_cases taken
    simp only [Function.update_apply] at refers
    split_ifs at refers with same
    · rw [same, notifying]
      exact .inl refers
    · exact .inl refers

/-- What a notifier has published it has published now, or before. -/
private theorem published_earlier (published : (s'.notifying n).published = true)
    (other : e ≠ .publish n) (taken : s.step? e = some s') : (s.notifying n).published = true := by
  cases e with
  | elect c key' =>
    obtain ⟨-, ⟨-, rfl⟩ | ⟨g, -, -, rfl⟩⟩ := elect_cases taken
    · exact published
    · exact published
  | join c =>
    obtain ⟨key', g, -, -, ⟨-, rfl⟩ | ⟨-, rfl⟩⟩ := join_cases taken
    · exact published
    · exact published
  | call_back c outcome =>
    obtain ⟨key', g, result, -, rfl⟩ := call_back_cases taken
    exact published
  | lookup m key' result =>
    obtain ⟨-, ⟨-, rfl⟩ | ⟨g, -, rfl⟩⟩ := lookup_cases taken
    all_goals
      simp only [Function.update_apply] at published
      split_ifs at published
      · contradiction
      · exact published
  | publish m =>
    obtain ⟨key', result, g, -, -, rfl⟩ := publish_cases taken
    simp only [Function.update_apply] at published
    split_ifs at published with same
    · rw [same] at other
      contradiction
    · exact published
  | notify m outcome =>
    obtain ⟨key', result, g, c, rest, notifying, rfl⟩ := notify_cases outcome taken
    simp only [Function.update_apply] at published
    split_ifs at published with same
    · rw [same, notifying]
      rfl
    · exact published
  | erase m =>
    obtain ⟨key', result, g, notifying, rfl⟩ := erase_cases taken
    simp only [Function.update_apply] at published
    split_ifs at published with same
    · rw [same, notifying]
      rfl
    · exact published

/-- The notifier that a step moves past its publication has just set its flight ready. -/
theorem published_cases (refers : (s'.notifying n).refers = some (key, f))
    (published : (s'.notifying n).published = true) (taken : s.step? e = some s') :
    ((s.notifying n).refers = some (key, f) ∧ (s.notifying n).published = true) ∨
      (e = .publish n ∧ (s.notifying n).refers = some (key, f) ∧ (s'.flight f).ready = true) := by
  rcases refers_cases refers taken with before | ⟨result, rfl⟩
  · by_cases publishes : e = .publish n
    · subst publishes
      obtain ⟨key', result, g, publishing, -, rfl⟩ := publish_cases taken
      rw [publishing] at before
      obtain ⟨rfl, rfl⟩ := Prod.mk.inj (Option.some.inj before)
      refine .inr ⟨rfl, by rw [publishing]; rfl, ?_⟩
      simp only [Function.update_self]
      rfl
    · exact .inl ⟨before, published_earlier published publishes taken⟩
  · have earlier := published_earlier published (by simp) taken
    rw [(lookup_cases taken).1] at earlier
    contradiction

theorem Marked.step (marked : s.Marked) (taken : s.step? e = some s') : s'.Marked := by
  refine ⟨marked.led.step taken, ?_⟩
  intro n key f refers published
  rcases published_cases refers published taken with ⟨before, earlier⟩ | ⟨-, -, ready⟩
  · exact ready_persists (marked.led.notifying before) (marked.ready before earlier) taken
  · exact ready

/-- An election under a published key leaves two leaders: the caller, or the one it joins, beside
the leader of the published flight. -/
theorem Marked.contested_of_late (marked : s.Marked) (published : s.Published key)
    (taken : s.step? (.elect c key) = some s') : s'.Contested key := by
  obtain ⟨n, f, refers, set⟩ := published
  have leads := marked.led.notifying refers
  have ready := marked.ready refers set
  obtain ⟨idle, ⟨-, rfl⟩ | ⟨g, entry, unready, rfl⟩⟩ := elect_cases taken
  · refine ⟨c, f, ?_, Function.update_self .., leader_persists leads taken⟩
    rintro rfl
    rw [leads] at idle
    contradiction
  · have other := marked.led.entry entry
    refine ⟨g, f, ?_, leader_persists other taken, leader_persists leads taken⟩
    rintro rfl
    rw [ready] at unready
    contradiction

/-- The key has one leader at most, whose unready flight holds the key until it is published. -/
structure Alone (key : Bytes) (s : State Call) : Prop where
  marked : s.Marked
  unique : ∀ {c d}, s.doing c = .leader key → s.doing d = .leader key → c = d
  holds : ∀ {f}, ¬ s.Published key → s.doing f = .leader key →
    s.flights_ key = some f ∧ (s.flight f).ready = false

omit [DecidableEq Call] in
theorem alone_init : (init : State Call).Alone key :=
  ⟨marked_init, by intros; contradiction, by intros; contradiction⟩

/-- A step that publishes nothing under the key and elects no leader leaves its leader's flight. -/
private theorem holds_of_quiet (marked : s.Marked) (leads : s.doing f = .leader key)
    (entry : s.flights_ key = some f) (unready : (s.flight f).ready = false)
    (unpublished : ¬ s'.Published key) (quiet : ∀ c key', e = .elect c key' → s'.flights_ = s.flights_ ∧
      s'.flight = s.flight) (taken : s.step? e = some s') :
    s'.flights_ key = some f ∧ (s'.flight f).ready = false := by
  cases e with
  | elect c key' =>
    obtain ⟨map, flights⟩ := quiet c key' rfl
    rw [map, flights]
    exact ⟨entry, unready⟩
  | join c =>
    obtain ⟨key', g, -, -, ⟨-, rfl⟩ | ⟨-, rfl⟩⟩ := join_cases taken
    · exact ⟨entry, by rw [ready_acquire, unready]⟩
    · exact ⟨entry, by rw [ready_enrol, unready]⟩
  | call_back c outcome =>
    obtain ⟨key', g, result, -, rfl⟩ := call_back_cases taken
    exact ⟨entry, by rw [ready_release, unready]⟩
  | lookup n key' result =>
    obtain ⟨-, ⟨-, rfl⟩ | ⟨g, -, rfl⟩⟩ := lookup_cases taken
    · exact ⟨entry, unready⟩
    · exact ⟨entry, unready⟩
  | publish n =>
    obtain ⟨key', result, g, publishing, -, rfl⟩ := publish_cases taken
    refine ⟨entry, ?_⟩
    simp only
    rw [Function.update_of_ne, unready]
    rintro rfl
    -- publishing the leader's own flight would publish under its key
    have held : (s.notifying n).refers = some (key', f) := by rw [publishing]; rfl
    have other := marked.led.notifying held
    obtain rfl := DoCall.leader.inj (leads.symm.trans other)
    refine unpublished ⟨n, f, ?_, ?_⟩
    all_goals
      simp only [Function.update_self]
      rfl
  | notify n outcome =>
    obtain ⟨key', result, g, c, rest, -, rfl⟩ := notify_cases outcome taken
    exact ⟨entry, unready⟩
  | erase n =>
    obtain ⟨key', result, g, -, rfl⟩ := erase_cases taken
    refine ⟨?_, unready⟩
    simp only
    rw [Function.update_of_ne, entry]
    rintro rfl
    refine unpublished ⟨n, g, ?_, ?_⟩
    all_goals
      simp only [Function.update_self]
      rfl

theorem Alone.step (alone : s.Alone key) (timely : s.Timely key e) (taken : s.step? e = some s') :
    s'.Alone key := by
  have marked := alone.marked.step taken
  have earlier : ¬ s'.Published key → ¬ s.Published key := mt fun published => published.step taken
  obtain ⟨c, key', rfl, idle, replaceable, rfl⟩ | kept := leader_cases taken
  · by_cases same : key' = key
    · subst same
      -- a caller that may lead the key is its first leader
      have first : ∀ f, s.doing f ≠ .leader key' := by
        intro f leads
        obtain ⟨entry, unready⟩ := alone.holds (timely rfl) leads
        rw [replaceable f entry] at unready
        contradiction
      have only : ∀ f, (s.lead c key').doing f = .leader key' → f = c := by
        intro f leads
        simp only [lead, Function.update_apply] at leads
        split_ifs at leads with here
        · exact here
        · exact absurd leads (first f)
      refine ⟨marked, fun left right => (only _ left).trans (only _ right).symm, ?_⟩
      intro f _ leads
      obtain rfl := only f leads
      simp only [lead, Function.update_self, true_and]
    · have kept : ∀ f, (s.lead c key').doing f = .leader key → s.doing f = .leader key ∧ f ≠ c := by
        intro f leads
        simp only [lead, Function.update_apply] at leads
        split_ifs at leads with here
        · exact absurd (DoCall.leader.inj leads) same
        · exact ⟨leads, here⟩
      refine ⟨marked, fun left right => alone.unique (kept _ left).1 (kept _ right).1, ?_⟩
      intro f unpublished leads
      obtain ⟨leads, distinct⟩ := kept f leads
      simp only [lead]
      rw [Function.update_of_ne (Ne.symm same), Function.update_of_ne distinct]
      exact alone.holds (earlier unpublished) leads
  · refine ⟨marked, fun left right => alone.unique ((kept _ key).mp left) ((kept _ key).mp right), ?_⟩
    intro f unpublished leads
    have leads := (kept f key).mp leads
    obtain ⟨entry, unready⟩ := alone.holds (earlier unpublished) leads
    refine holds_of_quiet alone.marked leads entry unready unpublished ?_ taken
    rintro c key' rfl
    obtain ⟨idle, ⟨-, rfl⟩ | ⟨g, -, -, rfl⟩⟩ := elect_cases taken
    · have elected := (kept c key').mp (Function.update_self ..)
      rw [idle] at elected
      contradiction
    · exact ⟨rfl, rfl⟩

end State

open State

/-- A key whose elections all come before its first publication elects one leader at most. -/
theorem uncontested_of_timely [DecidableEq Call] {es : List (Event Call)} {s : State Call}
    {key : Bytes} (run : Transition.Path step? (Timely key) .init es s) : ¬ s.Contested key := by
  have alone := run.preserves (I := Alone key) alone_init
    fun _ _ _ alone timely taken => alone.step timely taken
  rintro ⟨c, d, distinct, first, second⟩
  exact distinct (alone.unique first second)

end FlightProxy.SingleFlight
