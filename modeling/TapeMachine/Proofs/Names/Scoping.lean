import Mathlib.Data.List.Infix
import TapeMachine.Proofs.Names.Scope

/-!
Contract: what is left of nested scopes once they have been left.

Owns: what can be asked of an environment and what can be done to it, sequences that leave every
scope they enter and no other, and the environment behind such a sequence; the visible names.

Leaving and binding concern the innermost scope only. As long as a sequence stays inside a scope,
all scopes around it therefore remain what they were, however deep it goes in between.
-/

namespace TapeMachine

variable {α : Type}

/-- What can be asked of an environment. -/
inductive NameQuery where
  | get (name : String)
  | contains (name : String)
  | names
  | size
  | isEmpty
  | depth
deriving DecidableEq, Repr

inductive NameAnswer (α : Type) where
  | value (found : Option α)
  | truth (value : Bool)
  | names (found : List String)
  | number (count : Nat)
deriving DecidableEq, Repr

inductive ScopeRequest (α : Type) where
  | nest
  | unnest
  | define (name : String) (value : α)
  | ask (query : NameQuery)
deriving DecidableEq, Repr

namespace ScopeRequest

def enters : ScopeRequest α → Bool
  | .nest => true
  | _ => false

def leaves : ScopeRequest α → Bool
  | .unnest => true
  | _ => false

/-- Every scope that a sequence leaves is one that it has entered, and it leaves them all. -/
structure Balanced (requests : List (ScopeRequest α)) : Prop where
  inside : ∀ front, front <+: requests → front.countP leaves ≤ front.countP enters
  closed : requests.countP leaves = requests.countP enters

instance (requests : List (ScopeRequest α)) : Decidable (Balanced requests) :=
  decidable_of_iff
    ((∀ front ∈ requests.inits, front.countP leaves ≤ front.countP enters) ∧
      requests.countP leaves = requests.countP enters)
    ⟨fun both => ⟨fun front isFront => both.1 front ((List.mem_inits _ _).mpr isFront), both.2⟩,
      fun balanced =>
        ⟨fun front member => balanced.inside front ((List.mem_inits _ _).mp member),
          balanced.closed⟩⟩

end ScopeRequest

namespace Environment

def answer (environment : Environment α) : NameQuery → NameAnswer α
  | .get name => .value (environment.get? name)
  | .contains name => .truth (environment.contains name)
  | .names => .names environment.names
  | .size => .number environment.size
  | .isEmpty => .truth environment.isEmpty
  | .depth => .number environment.depth

/-- The environment behind a request. A question changes nothing. -/
def behind (environment : Environment α) : ScopeRequest α → Environment α
  | .nest => environment.nest
  | .unnest => environment.unnest
  | .define name value => environment.define name value
  | .ask _ => environment

def after (environment : Environment α) (requests : List (ScopeRequest α)) : Environment α :=
  requests.foldl behind environment

@[simp] theorem after_cons (environment : Environment α) (request : ScopeRequest α)
    (others : List (ScopeRequest α)) :
    environment.after (request :: others) = (environment.behind request).after others := rfl

@[simp] theorem after_append (environment : Environment α) (first second : List (ScopeRequest α)) :
    environment.after (first ++ second) = (environment.after first).after second :=
  List.foldl_append

/-! ## The scopes around a sequence -/

/-- A number of scopes have been entered from a base, whose own scopes are as they were. -/
structure Above (base : Environment α) (height : Nat) (environment : Environment α) : Prop where
  outermost : environment.outermost = base.outermost
  nested : ∃ inner, inner.length = height ∧ environment.nested = inner ++ base.nested

namespace Above

variable {base environment : Environment α} {height : Nat}

theorem eq_base (above : Above base 0 environment) : environment = base := by
  obtain ⟨inner, none, nested⟩ := above.nested
  rw [List.eq_nil_of_length_eq_zero none, List.nil_append] at nested
  calc environment
      = ⟨environment.outermost, environment.nested⟩ := rfl
    _ = ⟨base.outermost, base.nested⟩ := by rw [above.outermost, nested]

theorem nest (above : Above base height environment) :
    Above base (height + 1) environment.nest := by
  obtain ⟨inner, length, nested⟩ := above.nested
  refine ⟨above.outermost, .empty :: inner, ?_, ?_⟩
  · rw [List.length_cons, length]
  · rw [Environment.nest, nested, List.cons_append]

/-- What is left is a scope above the base. -/
theorem unnest (above : Above base (height + 1) environment) :
    Above base height environment.unnest := by
  obtain ⟨inner, length, nested⟩ := above.nested
  cases inner with
  | nil => simp at length
  | cons innermost others =>
      refine ⟨above.outermost, others, ?_, ?_⟩
      · simpa using length
      · rw [Environment.unnest, nested, List.cons_append, List.tail_cons]

/-- What is bound is bound in a scope above the base. -/
theorem define (above : Above base (height + 1) environment) (name : String) (value : α) :
    Above base (height + 1) (environment.define name value) := by
  obtain ⟨inner, length, nested⟩ := above.nested
  cases inner with
  | nil => simp at length
  | cons innermost others =>
      rw [Environment.define, nested, List.cons_append]
      refine ⟨above.outermost, innermost.insert name value :: others, ?_, ?_⟩
      · simpa using length
      · rw [List.cons_append]

/-- A request that is made above the base leaves the base alone. -/
theorem behind (above : Above base (height + 1) environment) (request : ScopeRequest α) :
    Above base (height + 1 + [request].countP ScopeRequest.enters -
      [request].countP ScopeRequest.leaves) (environment.behind request) := by
  cases request with
  | nest => exact above.nest
  | unnest => exact above.unnest
  | define name value => exact above.define name value
  | ask query => exact above

/-- A sequence that never leaves more scopes than there are above the base leaves the base alone. -/
theorem after {requests : List (ScopeRequest α)} (above : Above base (height + 1) environment)
    (inside : ∀ front, front <+: requests →
      front.countP ScopeRequest.leaves ≤ height + front.countP ScopeRequest.enters) :
    Above base (height + 1 + requests.countP ScopeRequest.enters -
      requests.countP ScopeRequest.leaves) (environment.after requests) := by
  induction requests generalizing environment height with
  | nil => exact above
  | cons request others inductionHypothesis =>
      have counts (counted : ScopeRequest α → Bool) (rest : List (ScopeRequest α)) :
          (request :: rest).countP counted = [request].countP counted + rest.countP counted := by
        rw [← List.countP_append, List.singleton_append]
      have first := inside [request] ⟨others, rfl⟩
      obtain ⟨lower, reached⟩ : ∃ lower,
          lower + 1 = height + 1 + [request].countP ScopeRequest.enters -
            [request].countP ScopeRequest.leaves :=
        ⟨height + [request].countP ScopeRequest.enters - [request].countP ScopeRequest.leaves,
          by omega⟩
      have next := above.behind request
      rw [← reached] at next
      have rest := inductionHypothesis next fun front isFront => by
        have longer := inside (request :: front) ((List.prefix_cons_inj request).mpr isFront)
        rw [counts ScopeRequest.leaves front, counts ScopeRequest.enters front] at longer
        omega
      have height_eq :
          lower + 1 + others.countP ScopeRequest.enters - others.countP ScopeRequest.leaves =
            height + 1 + (request :: others).countP ScopeRequest.enters -
              (request :: others).countP ScopeRequest.leaves := by
        rw [counts ScopeRequest.leaves others, counts ScopeRequest.enters others]
        omega
      rwa [height_eq] at rest

end Above

/-- Behind a balanced sequence that was made inside a scope of its own, nothing has changed. -/
theorem after_nest_unnest (environment : Environment α) {body : List (ScopeRequest α)}
    (balanced : ScopeRequest.Balanced body) :
    environment.after (.nest :: (body ++ [.unnest])) = environment := by
  have base : Above environment 0 environment := ⟨rfl, [], rfl, rfl⟩
  have entered : Above environment 1 (environment.nest.after body) := by
    have above := base.nest.after fun front isFront => by
      rw [Nat.zero_add]
      exact balanced.inside front isFront
    rwa [balanced.closed, Nat.add_sub_cancel] at above
  rw [after_cons, after_append]
  exact entered.unnest.eq_base

/-! ## Visible names -/

theorem mem_names {environment : Environment α} {name : String} :
    name ∈ environment.names ↔ environment.contains name = true := by
  rw [names, mem_sortNames, contains, get?, List.findSome?_isSome_iff, List.mem_flatMap]
  exact exists_congr fun scope => and_congr_right fun _ => (scope.isSome_get? name).symm

theorem ascending_names (environment : Environment α) : environment.names.Pairwise (· < ·) :=
  ascending_sortNames _

/-! ## Scoping -/

/-- A sequence that enters a scope, stays in it and leaves it at the end changes no answer,
whatever it binds on the way; and the visible names of any environment are those that it contains,
in ascending order and each of them once. -/
theorem scope_leaves_no_trace (environment : Environment α) (body : List (ScopeRequest α))
    (balanced : ScopeRequest.Balanced body) :
    (∀ query, (environment.after (.nest :: (body ++ [.unnest]))).answer query =
        environment.answer query) ∧
      environment.names.Pairwise (· < ·) ∧
      ∀ name, name ∈ environment.names ↔ environment.contains name = true := by
  refine ⟨fun query => ?_, environment.ascending_names, fun name => mem_names⟩
  rw [environment.after_nest_unnest balanced]

/-- Two names, one of which is bound in an inner scope only. -/
def shadowed : Environment Nat :=
  ((Environment.empty.define "f" 1).nest.define "g" 2)

/-- Shadows both names, two scopes deep, and rebinds one of them in between. -/
def shadowing : List (ScopeRequest Nat) :=
  [.define "f" 3, .nest, .define "g" 4, .nest, .define "f" 5, .define "h" 6, .ask (.get "f"),
    .unnest, .unnest, .define "f" 7, .nest, .unnest, .ask .names]

theorem scope_leaves_no_trace_shadowing :
    ScopeRequest.Balanced shadowing ∧
      (shadowed.nest.after shadowing).answer (.get "f") = .value (some 7) ∧
      (∀ query, (shadowed.after (.nest :: (shadowing ++ [.unnest]))).answer query =
        shadowed.answer query) ∧
      shadowed.answer (.get "f") = .value (some 1) := by
  have balanced : ScopeRequest.Balanced shadowing := by decide
  exact ⟨balanced, by decide, (scope_leaves_no_trace shadowed shadowing balanced).1, by decide⟩

end Environment

end TapeMachine
