import Mathlib.Data.List.Induction
import Mathlib.Logic.Function.Basic

/-! # Memos of a machine

A machine takes queries one after another. A memo in front of it computes the answer to a query on the
machine, or recalls one that was computed for a query of the same key. What it forgets, and when it
computes again, is left open; a memo that forgets nothing is a function of the queries.
-/

namespace Memo

/-- A deterministic machine: its next state after a query, and the response. -/
abbrev Machine (σ α β : Type*) := σ → α → σ × β

/-- How a query was answered. -/
inductive Answer (β : Type*)
  | computed (value : β)
  | recalled (value : β)
deriving DecidableEq, Repr

namespace Answer

variable {β : Type*}

def value : Answer β → β
  | .computed value | .recalled value => value

def isComputed : Answer β → Bool
  | .computed _ => true
  | .recalled _ => false

end Answer

variable {σ α β κ : Type*} {m : Machine σ α β} {key : α → κ} {s : σ} {a b : α} {v : β}
  {history first second : List (α × Answer β)} {entry : α × Answer β}

/-- The machine after a history: it has executed what was computed. -/
def state (m : Machine σ α β) (s : σ) (history : List (α × Answer β)) : σ :=
  history.foldl (fun s entry => if entry.2.isComputed then (m s entry.1).1 else s) s

theorem state_append : state m s (first ++ second) = state m (state m s first) second :=
  List.foldl_append ..

@[simp] theorem state_computed : state m s (history ++ [(a, .computed v)]) = (m (state m s history) a).1 :=
  state_append

@[simp] theorem state_recalled : state m s (history ++ [(a, .recalled v)]) = state m s history :=
  state_append

/-- A history of a memo: each answer is what the machine responds, or one that was computed before for
the same key. -/
inductive Remembers (m : Machine σ α β) (key : α → κ) (s : σ) : List (α × Answer β) → Prop
  | nil : Remembers m key s []
  | computes {history : List (α × Answer β)} (a : α) (earlier : Remembers m key s history) :
      Remembers m key s (history ++ [(a, .computed (m (state m s history) a).2)])
  | recalls {history : List (α × Answer β)} {a b : α} {v : β} (earlier : Remembers m key s history)
      (known : (b, .computed v) ∈ history) (same : key b = key a) :
      Remembers m key s (history ++ [(a, .recalled v)])

namespace Remembers

/-- An answer was computed for a query of the same key, here or earlier, in the state of the machine
at that time. -/
theorem origin (remembers : Remembers m key s history) (split : history = first ++ entry :: second) :
    ∃ earlier b later, first ++ [entry] = earlier ++ (b, .computed entry.2.value) :: later ∧
      key b = key entry.1 ∧ entry.2.value = (m (state m s earlier) b).2 := by
  induction remembers generalizing first entry second with
  | nil => simp at split
  | @computes history a _ ih =>
    induction second using List.reverseRecOn with
    | nil =>
      obtain ⟨rfl, same⟩ := List.append_inj' split rfl
      obtain rfl := List.singleton_inj.mp same
      exact ⟨history, a, [], rfl, rfl, rfl⟩
    | append_singleton second last =>
      rw [← List.cons_append, ← List.append_assoc] at split
      exact ih (List.append_inj' split rfl).1
  | @recalls history a b v _ known same ih =>
    induction second using List.reverseRecOn with
    | nil =>
      obtain ⟨rfl, last⟩ := List.append_inj' split rfl
      obtain rfl := List.singleton_inj.mp last
      obtain ⟨before, after, here⟩ := List.append_of_mem known
      obtain ⟨earlier, b', later, split', same', computed⟩ := ih here
      have computed : v = (m (state m s earlier) b').2 := computed
      rw [here, ← List.singleton_append, ← List.append_assoc, split']
      refine ⟨earlier, b', later ++ after ++ [(a, .recalled v)], ?_, same'.trans same, computed⟩
      simp [Answer.value]
    | append_singleton second last =>
      rw [← List.cons_append, ← List.append_assoc] at split
      exact ih (List.append_inj' split rfl).1

end Remembers

/-! ## Machines that only respond -/

/-- No query changes what the machine responds to another. -/
def Inert (m : Machine σ α β) : Prop := ∀ s a b, (m (m s a).1 b).2 = (m s b).2

theorem Inert.state (inert : Inert m) (history : List (α × Answer β)) (b : α) :
    (m (Memo.state m s history) b).2 = (m s b).2 := by
  induction history using List.reverseRecOn with
  | nil => rfl
  | append_singleton history entry ih =>
    obtain ⟨a, _ | _⟩ := entry
    · rw [state_computed, inert]
      exact ih
    · rw [state_recalled]
      exact ih

/-- A memo is transparent if no query changes what the machine responds and a key tells what it does. -/
theorem Remembers.transparent (remembers : Remembers m key s history) (inert : Inert m)
    (separates : ∀ s a b, key a = key b → (m s a).2 = (m s b).2) {entry : α × Answer β}
    (member : entry ∈ history) : entry.2.value = (m s entry.1).2 := by
  obtain ⟨first, second, split⟩ := List.append_of_mem member
  obtain ⟨earlier, b, -, -, same, computed⟩ := remembers.origin split
  rw [computed, inert.state, separates s b entry.1 same]

/-! ## Memos that forget nothing -/

section Table

variable [DecidableEq κ]

/-- A query is put to the machine unless its key is in the table. -/
def ask (m : Machine σ α β) (key : α → κ) (memo : σ × (κ → Option β)) (a : α) :
    (σ × (κ → Option β)) × Answer β :=
  match memo.2 (key a) with
  | some value => (memo, .recalled value)
  | none =>
    (((m memo.1 a).1, Function.update memo.2 (key a) (some (m memo.1 a).2)), .computed (m memo.1 a).2)

theorem ask_known {memo : σ × (κ → Option β)} (known : memo.2 (key a) = some v) :
    ask m key memo a = (memo, .recalled v) := by
  rw [ask, known]

theorem ask_unknown {memo : σ × (κ → Option β)} (unknown : memo.2 (key a) = none) :
    ask m key memo a = (((m memo.1 a).1, Function.update memo.2 (key a) (some (m memo.1 a).2)),
      .computed (m memo.1 a).2) := by
  rw [ask, unknown]

/-- The history of a memo that starts with an empty table. -/
def recording (m : Machine σ α β) (key : α → κ) (s : σ) (queries : List α) :
    (σ × (κ → Option β)) × List (α × Answer β) :=
  queries.foldl (fun memo a => ((ask m key memo.1 a).1, memo.2 ++ [(a, (ask m key memo.1 a).2)]))
    ((s, fun _ => none), [])

theorem recording_concat (queries : List α) (a : α) : recording m key s (queries ++ [a]) =
    ((ask m key (recording m key s queries).1 a).1,
      (recording m key s queries).2 ++ [(a, (ask m key (recording m key s queries).1 a).2)]) := by
  rw [recording, List.foldl_append]
  rfl

/-- What has been computed for a key, first. -/
def computed (key : α → κ) (history : List (α × Answer β)) (k : κ) : Option β :=
  history.findSome? fun entry =>
    if key entry.1 = k ∧ entry.2.isComputed then some entry.2.value else none

theorem computed_concat (k : κ) : computed key (history ++ [entry]) k =
    (computed key history k).or
      (if key entry.1 = k ∧ entry.2.isComputed then some entry.2.value else none) := by
  rw [computed, List.findSome?_append, List.findSome?_singleton]
  rfl

theorem computed_isSome {k : κ} : (computed key history k).isSome = true ↔
    ∃ b v, (b, .computed v) ∈ history ∧ key b = k := by
  rw [computed, List.isSome_findSome?, List.any_eq_true]
  constructor
  · rintro ⟨⟨b, _ | _⟩, member, found⟩
    · split_ifs at found with here
      · exact ⟨b, _, member, here.1⟩
      · contradiction
    · simp [Answer.isComputed] at found
  · rintro ⟨b, v, member, same⟩
    exact ⟨_, member, by simp [same, Answer.isComputed]⟩

/-- No key is computed twice. -/
def Once (key : α → κ) (history : List (α × Answer β)) : Prop :=
  ∀ first a v second, history = first ++ (a, .computed v) :: second → computed key first (key a) = none

theorem Once.append_left (once : Once key (first ++ second)) : Once key first := by
  rintro before a v after rfl
  exact once before a v (after ++ second) (by simp)

theorem once_nil : Once (β := β) key [] := by
  intro first a v second split
  simp at split

/-- A query may be computed if its key has not been. -/
theorem Once.concat (once : Once key history)
    (unknown : entry.2.isComputed = true → computed key history (key entry.1) = none) :
    Once key (history ++ [entry]) := by
  intro first a v second split
  induction second using List.reverseRecOn with
  | nil =>
    obtain ⟨rfl, last⟩ := List.append_inj' split rfl
    obtain rfl := List.singleton_inj.mp last
    exact unknown rfl
  | append_singleton second last =>
    rw [← List.cons_append, ← List.append_assoc] at split
    exact once first a v second (List.append_inj' split rfl).1

/-- What is computed once is what is found. -/
theorem Once.computed_of_mem (once : Once key history) (known : (b, .computed v) ∈ history) :
    computed key history (key b) = some v := by
  obtain ⟨before, after, rfl⟩ := List.append_of_mem known
  have none := once before b v after rfl
  rw [computed] at none ⊢
  rw [List.findSome?_append, none, Option.none_or, List.findSome?_cons]
  simp [Answer.isComputed, Answer.value]

/-- A memo that computes no key twice is the table's. -/
theorem Remembers.eq_recording (remembers : Remembers m key s history) (once : Once key history) :
    recording m key s (history.map Prod.fst) = ((state m s history, computed key history), history) := by
  induction remembers with
  | nil => rfl
  | @computes history a _ ih =>
    have unknown := once history a _ [] rfl
    have table : computed key (history ++ [(a, .computed (m (state m s history) a).2)]) =
        Function.update (computed key history) (key a) (some (m (state m s history) a).2) := by
      funext k
      rw [computed_concat, Function.update_apply]
      by_cases here : k = key a
      · simp [here, unknown, Answer.isComputed, Answer.value]
      · simp [here, Ne.symm here]
    rw [List.map_append, List.map_singleton, recording_concat, ih once.append_left,
      ask_unknown unknown, state_computed, table]
  | @recalls history a b v _ known same ih =>
    have found : computed key history (key a) = some v := by
      rw [← same]
      exact once.append_left.computed_of_mem known
    have table : computed key (history ++ [(a, .recalled v)]) = computed key history := by
      funext k
      rw [computed_concat]
      simp [Answer.isComputed]
    rw [List.map_append, List.map_singleton, recording_concat, ih once.append_left, ask_known found,
      state_recalled, table]

end Table

end Memo
