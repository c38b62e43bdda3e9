import TapeMachine.Names.Table

/-!
Contract: names bound in nested scopes.

Owns: entering and leaving a scope, binding in the innermost scope, and looking a name up from the
inside out.

Leaving a scope forgets what was bound in it. The outermost scope is never left.
-/

namespace TapeMachine

structure Environment (α : Type) where
  outermost : NameTable α
  /-- The scopes that have been entered, innermost first. -/
  nested : List (NameTable α)
deriving Repr

namespace Environment

variable {α : Type}

def empty : Environment α :=
  ⟨.empty, []⟩

def nest (environment : Environment α) : Environment α :=
  { environment with nested := .empty :: environment.nested }

/-- Leaves the innermost scope; the outermost one stays. -/
def unnest (environment : Environment α) : Environment α :=
  { environment with nested := environment.nested.tail }

def define (environment : Environment α) (name : String) (value : α) : Environment α :=
  match environment.nested with
  | [] => { environment with outermost := environment.outermost.insert name value }
  | innermost :: others => { environment with nested := innermost.insert name value :: others }

def scopes (environment : Environment α) : List (NameTable α) :=
  environment.nested ++ [environment.outermost]

/-- What the innermost scope that binds a name binds it to. -/
def get? (environment : Environment α) (name : String) : Option α :=
  environment.scopes.findSome? fun scope => scope.get? name

def contains (environment : Environment α) (name : String) : Bool :=
  (environment.get? name).isSome

/-- Every name that is bound in some scope, in ascending order. -/
def names (environment : Environment α) : List String :=
  sortNames (environment.scopes.flatMap fun scope => scope.entries.map Prod.fst)

def depth (environment : Environment α) : Nat :=
  environment.nested.length

def size (environment : Environment α) : Nat :=
  environment.names.length

def isEmpty (environment : Environment α) : Bool :=
  environment.scopes.all NameTable.isEmpty

end Environment

end TapeMachine
