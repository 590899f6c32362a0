import FlightProxy.Config.Loading
import Mathlib.Data.List.Induction

/-! # The configuration after many loads

A load overrides what it sets and leaves the rest, also where it fails half-way. A file that is not there
makes the configuration valid without resetting a setting or the message of an earlier failure.
-/

namespace FlightProxy.Config

open Settings

variable {Node : Type}

/-- A call of loadFromFile or loadFromString, with what yaml-cpp returns or throws. -/
inductive Load (Node : Type)
  | file (loaded : Loaded Node)
  | string (loaded : Loaded Node)
deriving DecidableEq, Repr

def Load.run (yaml : Yaml Node) (c : Config) : Load Node → Except Exception Bool × Config
  | .file loaded => loadFromFile yaml loaded c
  | .string loaded => loadFromString yaml loaded c

/-- The one configuration of the process, after these loads. -/
def loads (yaml : Yaml Node) (ls : List (Load Node)) : Config :=
  ls.foldl (fun c l => (l.run yaml c).2) init

namespace Load

def loaded : Load Node → Loaded Node
  | .file loaded | .string loaded => loaded

/-- The exception that a load catches, or none if it succeeds; it may also leave the outcome of the last
load. -/
def outcome (yaml : Yaml Node) : Load Node → Option (Option Exception)
  | .file (.node config) | .string (.node config) => some (firstError (yaml.read config) Setting.order)
  | .file (.bad_file _) => none
  | .string (.bad_file what) => some (some (.yaml what))
  | .file (.throws (.yaml what)) | .string (.throws (.yaml what)) => some (some (.yaml what))
  | .file (.throws (.other _)) | .string (.throws (.other _)) => none

/-- Whether the configuration is valid, where the load decides it. -/
def valid (yaml : Yaml Node) : Load Node → Option Bool
  | .file (.bad_file _) => some true
  | l => (l.outcome yaml).map Option.isNone

/-- The error message, where the load sets it. -/
def message (yaml : Yaml Node) (l : Load Node) : Option String :=
  (l.outcome yaml).map fun e => (e.map Exception.error_message).getD ""

/-- The value that a load sets. -/
def gives (yaml : Yaml Node) (k : Setting) (l : Load Node) : Option k.Value :=
  match l.loaded with
  | .node config => given (yaml.read config) Setting.order k
  | _ => none

end Load

variable {yaml : Yaml Node} {config : Node} {k : Setting} {c : Config}

theorem get_parseYaml : (parseYaml yaml config c).2.get k =
    (given (yaml.read config) Setting.order k).getD (c.get k) := by
  have read : settings.get (settings.readAll (yaml.read config) Setting.order c).2 k =
      (given (yaml.read config) Setting.order k).getD (settings.get c k) :=
    Fields.get_readAll Setting.nodup_order
  change get (settings.readAll (yaml.read config) Setting.order c).2 k =
    (given (yaml.read config) Setting.order k).getD (c.get k) at read
  rw [parseYaml_eq, ← read]
  rcases settings.readAll (yaml.read config) Setting.order c with ⟨_ | _, c'⟩ <;> simp [fail]

theorem parseYaml_outcome : (parseYaml yaml config c).2.valid_ =
      (firstError (yaml.read config) Setting.order).isNone ∧
    (parseYaml yaml config c).2.error_message_ =
      ((firstError (yaml.read config) Setting.order).map Exception.error_message).getD "" := by
  have ran : (settings.readAll (yaml.read config) Setting.order c).1 = _ := Fields.readAll_fst
  rw [parseYaml_eq]
  cases first : firstError (yaml.read config) Setting.order with
  | none =>
    rw [first] at ran
    rcases result : settings.readAll (yaml.read config) Setting.order c with ⟨_ | _, c'⟩
    · rw [result] at ran
      contradiction
    · exact ⟨rfl, rfl⟩
  | some e =>
    rw [first] at ran
    rcases result : settings.readAll (yaml.read config) Setting.order c with ⟨_ | _, c'⟩
    · rw [result] at ran
      obtain rfl := Except.error.inj ran
      exact ⟨rfl, rfl⟩
    · rw [result] at ran
      contradiction

/-- What one load does to each member. -/
theorem Load.run_spec (yaml : Yaml Node) (c : Config) (l : Load Node) :
    (∀ k, (l.run yaml c).2.get k = (l.gives yaml k).getD (c.get k)) ∧
      (l.run yaml c).2.valid_ = (l.valid yaml).getD c.valid_ ∧
      (l.run yaml c).2.error_message_ = (l.message yaml).getD c.error_message_ := by
  cases l with
  | file loaded =>
    cases loaded with
    | node config => exact ⟨fun k => get_parseYaml, parseYaml_outcome.1, parseYaml_outcome.2⟩
    | bad_file what => exact ⟨fun k => get_with c k true c.error_message_, rfl, rfl⟩
    | throws e =>
      cases e with
      | yaml what => exact ⟨fun k => get_with c k false _, rfl, rfl⟩
      | other what => exact ⟨fun k => rfl, rfl, rfl⟩
  | string loaded =>
    cases loaded with
    | node config => exact ⟨fun k => get_parseYaml, parseYaml_outcome.1, parseYaml_outcome.2⟩
    | bad_file what => exact ⟨fun k => get_with c k false _, rfl, rfl⟩
    | throws e =>
      cases e with
      | yaml what => exact ⟨fun k => get_with c k false _, rfl, rfl⟩
      | other what => exact ⟨fun k => rfl, rfl, rfl⟩

/-- The configuration is valid exactly if the load that has returned succeeded. -/
theorem Load.valid_of_run {l : Load Node} {succeeded : Bool}
    (returned : (l.run yaml c).1 = .ok succeeded) : (l.run yaml c).2.valid_ = succeeded := by
  have parsed (config : Node) : (parseYaml yaml config c).2.valid_ = (parseYaml yaml config c).1 := by
    rw [parseYaml_eq]
    rcases settings.readAll (yaml.read config) Setting.order c with ⟨_ | _, c'⟩ <;> rfl
  cases l with
  | file loaded =>
    cases loaded with
    | node config => exact (parsed config).trans (Except.ok.inj returned)
    | bad_file what => exact Except.ok.inj returned
    | throws e =>
      cases e with
      | yaml what => exact Except.ok.inj returned
      | other what => contradiction
  | string loaded =>
    cases loaded with
    | node config => exact (parsed config).trans (Except.ok.inj returned)
    | bad_file what => exact Except.ok.inj returned
    | throws e =>
      cases e with
      | yaml what => exact Except.ok.inj returned
      | other what => contradiction

theorem loads_concat (ls : List (Load Node)) (l : Load Node) :
    loads yaml (ls ++ [l]) = (l.run yaml (loads yaml ls)).2 := by
  rw [loads, List.foldl_append]
  rfl

/-- After any loads, each setting has the value that the last load to set it has given it, or its
default; the configuration is valid if the last load to decide it succeeded or found no file; and the
message is that of the last load which had an outcome, so a file that is not there keeps the message of
an earlier failure. A further load leaves it valid exactly if it returns true. -/
theorem loads_spec (yaml : Yaml Node) (ls : List (Load Node)) :
    (∀ k, (loads yaml ls).get k = (ls.reverse.findSome? (Load.gives yaml k)).getD (init.get k)) ∧
      (loads yaml ls).valid_ = (ls.reverse.findSome? (Load.valid yaml)).getD true ∧
      (loads yaml ls).error_message_ = (ls.reverse.findSome? (Load.message yaml)).getD "" ∧
      ∀ l succeeded, (Load.run yaml (loads yaml ls) l).1 = .ok succeeded →
        (loads yaml (ls ++ [l])).valid_ = succeeded := by
  suffices members : (∀ k, (loads yaml ls).get k =
        (ls.reverse.findSome? (Load.gives yaml k)).getD (init.get k)) ∧
      (loads yaml ls).valid_ = (ls.reverse.findSome? (Load.valid yaml)).getD true ∧
      (loads yaml ls).error_message_ = (ls.reverse.findSome? (Load.message yaml)).getD "" by
    refine ⟨members.1, members.2.1, members.2.2, fun l succeeded returned => ?_⟩
    rw [loads_concat]
    exact Load.valid_of_run returned
  induction ls using List.reverseRecOn with
  | nil => exact ⟨fun k => rfl, rfl, rfl⟩
  | append_singleton ls l ih =>
    obtain ⟨settings, valid, message⟩ := ih
    obtain ⟨settings', valid', message'⟩ := l.run_spec yaml (loads yaml ls)
    rw [loads_concat, List.reverse_append, List.reverse_singleton, List.singleton_append]
    refine ⟨fun k => ?_, ?_, ?_⟩
    · rw [settings' k, settings k, List.findSome?_cons]
      cases l.gives yaml k <;> rfl
    · rw [valid', valid, List.findSome?_cons]
      cases l.valid yaml <;> rfl
    · rw [message', message, List.findSome?_cons]
      cases l.message yaml <;> rfl

end FlightProxy.Config
