import Mathlib.Tactic.TypeStar
import Mathlib.Data.List.Basic

/-! # Reading settings one after another

A record has a value under each key, of a type that depends on the key. Reading goes through the keys in
order and overwrites the values that it finds, until a read fails: what it has overwritten by then stays.
Nothing here mentions a concrete record or document.
-/

namespace Settings

variable {Record Key Error Node : Type*} {Value : Key → Type*}

/-- The values of a record, each of which can be set on its own. -/
structure Fields (Record : Type*) {Key : Type*} (Value : Key → Type*) where
  get : Record → (k : Key) → Value k
  set : (k : Key) → Value k → Record → Record
  get_set : ∀ k v r, get (set k v r) k = v
  get_set_of_ne : ∀ {j k} v r, j ≠ k → get (set k v r) j = get r j

/-- What is under a path of a document, if every node on the way is defined. -/
def look {Label : Type*} (child : Node → Label → Except Error (Option Node)) :
    Node → List Label → Except Error (Option Node)
  | node, [] => .ok (some node)
  | node, key :: path =>
    match child node key with
    | .error e => .error e
    | .ok none => .ok none
    | .ok (some node) => look child node path

/-- A scalar is made into a value, if it is there. -/
def convert {α : Type*} (as : Node → Except Error α) :
    Except Error (Option Node) → Except Error (Option α)
  | .error e => .error e
  | .ok none => .ok none
  | .ok (some node) => (as node).map some

/-- The first exception. -/
def firstError (read : (k : Key) → Except Error (Option (Value k))) : List Key → Option Error
  | [] => none
  | k :: ks =>
    match read k with
    | .error e => some e
    | .ok _ => firstError read ks

/-- The reads come to this key. -/
def reaches [DecidableEq Key] (read : (k : Key) → Except Error (Option (Value k)))
    (k : Key) : List Key → Bool
  | [] => false
  | j :: ks =>
    match read j with
    | .error _ => false
    | .ok _ => j = k || reaches read k ks

/-- The value that the reads set under this key. -/
def given [DecidableEq Key] (read : (k : Key) → Except Error (Option (Value k))) (ks : List Key)
    (k : Key) : Option (Value k) :=
  if reaches read k ks then
    match read k with
    | .error _ => none
    | .ok value => value
  else none

namespace Fields

/-- The value that has been read, if any, is set. -/
def put (fields : Fields Record Value) (k : Key) (value : Option (Value k)) (r : Record) : Record :=
  match value with
  | some v => fields.set k v r
  | none => r

/-- The reads in order, up to the first that fails. -/
def readAll (fields : Fields Record Value) (read : (k : Key) → Except Error (Option (Value k))) :
    List Key → Record → Except Error Unit × Record
  | [], r => (.ok (), r)
  | k :: ks, r =>
    match read k with
    | .error e => (.error e, r)
    | .ok value => fields.readAll read ks (fields.put k value r)

variable {fields : Fields Record Value} {read : (k : Key) → Except Error (Option (Value k))} {k : Key}
  {ks : List Key} {r : Record} {e : Error}

@[simp] theorem get_put (value : Option (Value k)) :
    fields.get (fields.put k value r) k = value.getD (fields.get r k) := by
  cases value with
  | none => rfl
  | some v => exact fields.get_set k v r

theorem get_put_of_ne {j : Key} (value : Option (Value k)) (other : j ≠ k) :
    fields.get (fields.put k value r) j = fields.get r j := by
  cases value with
  | none => rfl
  | some v => exact fields.get_set_of_ne v r other

/-- What is not read stays. -/
theorem get_readAll_of_notMem (absent : k ∉ ks) :
    fields.get (fields.readAll read ks r).2 k = fields.get r k := by
  induction ks generalizing r with
  | nil => rfl
  | cons j ks ih =>
    rw [List.mem_cons, not_or] at absent
    unfold readAll
    split
    · rfl
    · rw [ih absent.2, get_put_of_ne _ absent.1]

/-- The reads before the first that fails have been carried out, and no other. -/
theorem readAll_spec (fields : Fields Record Value)
    (read : (k : Key) → Except Error (Option (Value k))) {ks : List Key} (nodup : ks.Nodup)
    (r : Record) :
    ∃ done rest, ks = done ++ rest ∧
      (∀ k, k ∈ done → ∃ value, read k = .ok value ∧
        fields.get (fields.readAll read ks r).2 k = value.getD (fields.get r k)) ∧
      (∀ k, k ∉ done → fields.get (fields.readAll read ks r).2 k = fields.get r k) ∧
      (rest = [] ∧ (fields.readAll read ks r).1 = .ok () ∨
        ∃ k later e, rest = k :: later ∧ read k = .error e ∧
          (fields.readAll read ks r).1 = .error e) := by
  induction ks generalizing r with
  | nil => exact ⟨[], [], rfl, by simp, fun _ _ => rfl, .inl ⟨rfl, rfl⟩⟩
  | cons j ks ih =>
    obtain ⟨absent, nodup⟩ := List.nodup_cons.mp nodup
    cases reads : read j with
    | error e =>
      have stops : fields.readAll read (j :: ks) r = (.error e, r) := by
        simp only [readAll, reads]
      rw [stops]
      exact ⟨[], j :: ks, rfl, by simp, fun _ _ => rfl, .inr ⟨j, ks, e, rfl, reads, rfl⟩⟩
    | ok value =>
      have goes : fields.readAll read (j :: ks) r =
          fields.readAll read ks (fields.put j value r) := by
        simp only [readAll, reads]
      obtain ⟨done, rest, rfl, carried, kept, ends⟩ := ih nodup (fields.put j value r)
      rw [goes]
      refine ⟨j :: done, rest, rfl, ?_, ?_, ends⟩
      · intro k member
        rcases List.mem_cons.mp member with rfl | later
        · refine ⟨value, reads, ?_⟩
          rw [get_readAll_of_notMem absent, get_put]
        · obtain ⟨value', reads', same⟩ := carried k later
          have other : k ≠ j := by
            rintro rfl
            exact absent (List.mem_append_left _ later)
          rw [get_put_of_ne _ other] at same
          exact ⟨value', reads', same⟩
      · intro k absent
        rw [List.mem_cons, not_or] at absent
        rw [kept k absent.2, get_put_of_ne _ absent.1]

theorem readAll_fst : (fields.readAll read ks r).1 =
    match firstError read ks with
    | none => .ok ()
    | some e => .error e := by
  induction ks generalizing r with
  | nil => rfl
  | cons k ks ih =>
    cases reads : read k with
    | error e => simp only [readAll, firstError, reads]
    | ok value => simp only [readAll, firstError, reads, ih]

theorem get_readAll [DecidableEq Key] (nodup : ks.Nodup) :
    fields.get (fields.readAll read ks r).2 k = (given read ks k).getD (fields.get r k) := by
  induction ks generalizing r with
  | nil => rfl
  | cons j ks ih =>
    obtain ⟨absent, nodup⟩ := List.nodup_cons.mp nodup
    cases reads : read j with
    | error e => simp [readAll, given, reaches, reads]
    | ok value =>
      by_cases same : j = k
      · subst same
        simp [readAll, given, reaches, reads, get_readAll_of_notMem absent]
      · have skips : given read (j :: ks) k = given read ks k := by
          simp [given, reaches, reads, same]
        have goes : fields.readAll read (j :: ks) r =
            fields.readAll read ks (fields.put j value r) := by
          simp only [readAll, reads]
        rw [goes, skips, ih nodup, get_put_of_ne value (Ne.symm same)]

end Fields

end Settings
