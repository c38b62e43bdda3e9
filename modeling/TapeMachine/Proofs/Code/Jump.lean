import TapeMachine.Proofs.Code.Site

/-!
Contract: where the jumps of lowered code lead.

Owns: the jumps of each statement, and for every jump of a sequence the statements that it stays
inside of and those that it does not enter.

Does not own: jumps to labels, which leave the sequence.
-/

namespace TapeMachine

/-! ## Where jumps lead -/

/-- Some jump at one index of a sequence leads to another index. -/
def JumpsTo (code : Array Instruction) (source target : Nat) : Prop :=
  ∃ instruction, code[source]? = some instruction ∧ instruction.target? source = some target

/-- The indices of a statement's own jumps, each with the index that it leads to: from behind a
condition past the body or to the jump behind the then branch, from there past the else branch, and
from behind the body of a loop back to the condition. -/
def Site.routes (site : Site) : List (Nat × Nat) :=
  match site.statement with
  | .ifThen condition _ _ => [(site.start + condition.code.length + 1, site.finish)]
  | .ifElse condition thenBody _ _ =>
      let first := site.start + condition.code.length + 2
      let second := first + 1 + thenBody.code.length
      [(first, second), (second, site.finish)]
  | .whileLoop condition _ _ =>
      [(site.start + condition.code.length + 1, site.finish), (site.finish - 1, site.start)]
  | _ => []

namespace Site

variable {site : Site} {index source target : Nat} {instruction : Instruction} {offset : Int}

/-- A statement's own jumps take its routes: those that go on with a jump are jumps back, and those
that test a value are jumps forward. -/
theorem route_of_own (owned : (index, instruction) ∈ site.own)
    (jumps : instruction.jumpOffset? = some offset) :
    ∃ target, jumpTarget index offset = some target ∧ (index, target) ∈ site.routes ∧
      offset.natAbs < site.statement.code.length ∧
      (instruction = .jump offset ∧ offset < 0 ∨ instruction = .jumpIf offset ∧ 0 ≤ offset) := by
  rcases site with ⟨start, statement⟩
  cases statement with
  | ifThen condition body line =>
      simp only [own, List.mem_cons, Prod.mk.injEq, List.not_mem_nil, or_false] at owned
      rcases owned with ⟨rfl, rfl⟩ | ⟨rfl, rfl⟩
      · simp [Instruction.jumpOffset?] at jumps
      · obtain rfl := Option.some.inj jumps
        refine ⟨_, jumpTarget_forward _ _, ?_, ?_, by simp⟩
        · simp only [routes, finish, Statement.length_ifThen, List.mem_singleton, Prod.mk.injEq,
            true_and]
          omega
        · rw [Statement.length_ifThen]
          omega
  | ifElse condition thenBody elseBody line =>
      simp only [own, List.mem_cons, Prod.mk.injEq, List.not_mem_nil, or_false] at owned
      rcases owned with ⟨rfl, rfl⟩ | ⟨rfl, rfl⟩ | ⟨rfl, rfl⟩ | ⟨rfl, rfl⟩
      · simp [Instruction.jumpOffset?] at jumps
      · simp [Instruction.jumpOffset?] at jumps
      · obtain rfl := Option.some.inj jumps
        refine ⟨_, jumpTarget_forward _ _, by simp [routes], ?_, by simp⟩
        rw [Statement.length_ifElse]
        omega
      · obtain rfl := Option.some.inj jumps
        refine ⟨_, jumpTarget_forward _ _, ?_, ?_, by simp⟩
        · simp only [routes, finish, Statement.length_ifElse, List.mem_cons, Prod.mk.injEq,
            List.not_mem_nil, or_false, true_and]
          omega
        · rw [Statement.length_ifElse]
          omega
  | whileLoop condition body line =>
      simp only [own, List.mem_cons, Prod.mk.injEq, List.not_mem_nil, or_false] at owned
      rcases owned with ⟨rfl, rfl⟩ | ⟨rfl, rfl⟩ | ⟨rfl, rfl⟩
      · simp [Instruction.jumpOffset?] at jumps
      · obtain rfl := Option.some.inj jumps
        refine ⟨_, jumpTarget_forward _ _, ?_, ?_, .inr ⟨rfl, Int.natCast_nonneg _⟩⟩
        · simp only [routes, finish, Statement.length_whileLoop, List.mem_cons, Prod.mk.injEq,
            List.not_mem_nil, or_false, true_and]
          omega
        · rw [Statement.length_whileLoop]
          omega
      · obtain rfl := Option.some.inj jumps
        refine ⟨_, jumpTarget_backward (by omega) (by omega), ?_, ?_, .inl ⟨rfl, by omega⟩⟩
        · simp only [routes, finish, Statement.length_whileLoop, List.mem_cons, Prod.mk.injEq,
            List.not_mem_nil, or_false]
          omega
        · rw [Statement.length_whileLoop]
          omega
  | empty line => simp [own] at owned
  | _ =>
      obtain ⟨-, rfl⟩ := Prod.mk.inj (List.mem_singleton.mp owned)
      simp [Instruction.jumpOffset?] at jumps

/-- Every route of a statement is that of a jump of its own. -/
theorem own_of_route (route : (source, target) ∈ site.routes) :
    ∃ instruction, (source, instruction) ∈ site.own ∧
      instruction.target? source = some target := by
  rcases site with ⟨start, statement⟩
  cases statement with
  | ifThen condition body line =>
      obtain ⟨rfl, rfl⟩ := Prod.mk.inj (List.mem_singleton.mp route)
      refine ⟨.jumpIf body.code.length, by simp [own], ?_⟩
      rw [Instruction.target?, Instruction.jumpOffset?, Option.bind_some, jumpTarget_forward]
      simp only [finish, Statement.length_ifThen, Option.some.injEq]
      omega
  | ifElse condition thenBody elseBody line =>
      simp only [routes, List.mem_cons, Prod.mk.injEq, List.not_mem_nil, or_false] at route
      rcases route with ⟨rfl, rfl⟩ | ⟨rfl, rfl⟩
      · refine ⟨.jumpIf thenBody.code.length, by simp [own], ?_⟩
        rw [Instruction.target?, Instruction.jumpOffset?, Option.bind_some, jumpTarget_forward]
      · refine ⟨.jumpIf elseBody.code.length, by simp [own], ?_⟩
        rw [Instruction.target?, Instruction.jumpOffset?, Option.bind_some, jumpTarget_forward]
        simp only [finish, Statement.length_ifElse, Option.some.injEq]
        omega
  | whileLoop condition body line =>
      simp only [routes, finish, Statement.length_whileLoop, List.mem_cons, Prod.mk.injEq,
        List.not_mem_nil, or_false] at route
      rcases route with ⟨rfl, rfl⟩ | ⟨rfl, rfl⟩
      · refine ⟨.jumpIf (body.code.length + 1 : Nat), by simp [own], ?_⟩
        rw [Instruction.target?, Instruction.jumpOffset?, Option.bind_some, jumpTarget_forward]
        simp only [Option.some.injEq]
        omega
      · refine ⟨.jump (-(body.code.length + 2 + condition.code.length : Nat)), ?_, ?_⟩
        · simp only [own, List.mem_cons, Prod.mk.injEq, List.not_mem_nil, or_false, and_true]
          omega
        · rw [Instruction.target?, Instruction.jumpOffset?, Option.bind_some,
            jumpTarget_backward (by omega) (by omega)]
          simp only [Option.some.injEq]
          omega
  | _ => simp [routes] at route

theorem route_within (route : (source, target) ∈ site.routes) :
    site.Spans source ∧ site.start ≤ target ∧ target ≤ site.finish := by
  rcases site with ⟨start, statement⟩
  cases statement with
  | ifThen condition body line =>
      obtain ⟨rfl, rfl⟩ := Prod.mk.inj (List.mem_singleton.mp route)
      simp only [Spans, finish, Statement.length_ifThen]
      omega
  | ifElse condition thenBody elseBody line =>
      simp only [routes, List.mem_cons, Prod.mk.injEq, List.not_mem_nil, or_false] at route
      simp only [Spans, finish, Statement.length_ifElse] at route ⊢
      omega
  | whileLoop condition body line =>
      simp only [routes, List.mem_cons, Prod.mk.injEq, List.not_mem_nil, or_false] at route
      simp only [Spans, finish, Statement.length_whileLoop] at route ⊢
      omega
  | _ => simp [routes] at route

end Site

/-! ## Jumps and the statements around them -/

/-- A route does not leave a statement that it begins in, and does not lead into the middle of one
that it begins outside of. -/
def Site.Admits (site : Site) (source target : Nat) : Prop :=
  (site.Spans source → site.start ≤ target ∧ target ≤ site.finish) ∧
    (¬ site.Spans source → target ≤ site.start ∨ site.finish ≤ target)

/-- Every statement admits every route of every other one. -/
def Orderly (sites : List Site) : Prop :=
  ∀ first ∈ sites, ∀ second ∈ sites, ∀ source target, (source, target) ∈ first.routes →
    second.Admits source target

/-- Statements on the two sides of an index have nothing to do with each other. -/
theorem Orderly.append {first second : List Site} (boundary : Nat)
    (before : ∀ site ∈ first, site.finish ≤ boundary)
    (behind : ∀ site ∈ second, boundary ≤ site.start) (left : Orderly first)
    (right : Orderly second) : Orderly (first ++ second) := by
  intro one member other otherMember source target route
  obtain ⟨spans, low, high⟩ := Site.route_within route
  simp only [Site.Spans] at spans
  rcases List.mem_append.mp member with inFirst | inSecond
  · rcases List.mem_append.mp otherMember with otherFirst | otherSecond
    · exact left one inFirst other otherFirst source target route
    · have := before one inFirst
      have := behind other otherSecond
      simp only [Site.Admits, Site.Spans]
      omega
  · rcases List.mem_append.mp otherMember with otherFirst | otherSecond
    · have := behind one inSecond
      have := before other otherFirst
      simp only [Site.Admits, Site.Spans]
      omega
    · exact right one inSecond other otherSecond source target route

/-- The routes of a statement lead past the statements inside of it, to the front of one, or behind
one. -/
theorem Statement.admits_inside (statement : Statement) (start : Nat) :
    ∀ site ∈ statement.sitesInside start, ∀ source target,
      (source, target) ∈ (⟨start, statement⟩ : Site).routes → site.Admits source target := by
  intro site member source target route
  cases statement with
  | ifThen condition body line =>
      obtain ⟨low, high⟩ := (Block.cut body _ site member).within
      obtain ⟨rfl, rfl⟩ := Prod.mk.inj (List.mem_singleton.mp route)
      rw [Code.length_instructions] at high
      simp only [Site.Admits, Site.Spans, Site.finish, Statement.length_ifThen] at high ⊢
      omega
  | ifElse condition thenBody elseBody line =>
      simp only [Site.routes, List.mem_cons, Prod.mk.injEq, List.not_mem_nil, or_false] at route
      simp only [Site.Admits, Site.Spans, Site.finish, Statement.length_ifElse] at route ⊢
      rcases List.mem_append.mp member with first | second
      · obtain ⟨low, high⟩ := (Block.cut thenBody _ site first).within
        rw [Code.length_instructions, Site.finish] at high
        omega
      · obtain ⟨low, high⟩ := (Block.cut elseBody _ site second).within
        rw [Code.length_instructions, Site.finish] at high
        omega
  | whileLoop condition body line =>
      obtain ⟨low, high⟩ := (Block.cut body _ site member).within
      rw [Code.length_instructions, Site.finish] at high
      simp only [Site.routes, List.mem_cons, Prod.mk.injEq, List.not_mem_nil, or_false] at route
      simp only [Site.Admits, Site.Spans, Site.finish, Statement.length_whileLoop] at route ⊢
      omega
  | _ => simp [Site.routes] at route

/-- A statement that is put around others in an orderly way. -/
theorem Statement.orderly_sites {statement : Statement} {start : Nat}
    (inside : Orderly (statement.sitesInside start)) : Orderly (statement.sites start) := by
  intro one member other otherMember source target route
  obtain ⟨spans, low, high⟩ := Site.route_within route
  rcases List.mem_cons.mp otherMember with rfl | otherInside
  · -- the statement itself has all routes inside of it
    have within : start ≤ one.start ∧ one.finish ≤ (⟨start, statement⟩ : Site).finish := by
      rcases List.mem_cons.mp member with rfl | deeper
      · exact ⟨Nat.le_refl _, Nat.le_refl _⟩
      · simpa [Site.finish] using (Statement.cut statement start one deeper).within
    simp only [Site.Admits, Site.Spans] at spans ⊢
    omega
  · rcases List.mem_cons.mp member with rfl | deeper
    · exact statement.admits_inside start other otherInside source target route
    · exact inside one deeper other otherInside source target route

mutual

theorem Statement.orderly : (statement : Statement) → (start : Nat) →
    Orderly (statement.sitesInside start)
  | .ifThen _ body _, _ => Block.orderly body _
  | .ifElse condition thenBody elseBody _, start => by
      refine .append (start + condition.code.length + 3 + thenBody.code.length) ?_ ?_
        (Block.orderly thenBody _) (Block.orderly elseBody _)
      · intro site member
        simpa using (Block.cut thenBody _ site member).within.2
      · intro site member
        exact Nat.le_of_succ_le (Block.cut elseBody _ site member).within.1
  | .whileLoop _ body _, _ => Block.orderly body _
  | .empty _, _ | .move .., _ | .write .., _ | .goto .., _ | .halt _, _ => by
      simp [Statement.sitesInside, Orderly]

theorem Block.orderly : (block : Block) → (start : Nat) → Orderly (block.sites start)
  | .mk statements _, start => Statement.orderlyOf statements start

theorem Statement.orderlyOf : (statements : List Statement) → (start : Nat) →
    Orderly (Statement.sitesOf start statements)
  | [], _ => by simp [Statement.sitesOf, Orderly]
  | first :: others, start => by
      rw [Statement.sitesOf_cons]
      refine .append (start + first.code.length) ?_ ?_
        (Statement.orderly_sites (Statement.orderly first start)) (Statement.orderlyOf others _)
      · intro site member
        rcases List.mem_cons.mp member with rfl | inside
        · exact Nat.le_refl _
        · simpa using (Statement.cut first start site inside).within.2
      · intro site member
        exact (Statement.cutOf others _ site member).within.1

end

/-! ## Jumps of a sequence -/

namespace Statement

variable {statements : List Statement}

/-- Every jump of a sequence is a statement's own. -/
theorem own_of_jump {index : Nat} {instruction : Instruction} {offset : Int}
    (found : (sequence statements)[index]? = some instruction)
    (jumps : instruction.jumpOffset? = some offset) :
    ∃ site ∈ sitesOf 0 statements, (index, instruction) ∈ site.own := by
  rcases ownedBy_sites found with operand | owned
  · cases instruction <;> simp [Instruction.isOperand, Instruction.jumpOffset?] at operand jumps
  · exact owned

/-- The jumps of a sequence take the routes of its statements, and no others. -/
theorem jumpsTo_iff {source target : Nat} :
    JumpsTo (sequence statements) source target ↔
      ∃ site ∈ sitesOf 0 statements, (source, target) ∈ site.routes := by
  constructor
  · rintro ⟨instruction, found, leads⟩
    obtain ⟨offset, jumps, reached⟩ := Option.bind_eq_some_iff.mp leads
    obtain ⟨site, member, own⟩ := own_of_jump found jumps
    obtain ⟨other, same, route, -⟩ := Site.route_of_own own jumps
    obtain rfl := Option.some.inj (reached.symm.trans same)
    exact ⟨site, member, route⟩
  · rintro ⟨site, member, route⟩
    obtain ⟨instruction, own, leads⟩ := Site.own_of_route route
    exact ⟨instruction, Site.found_of_own (contains_site member) own, leads⟩

/-- No jump leaves a statement that contains it, and none leads into the middle of one that does
not. -/
theorem admits_of_jumpsTo {source target : Nat} (leads : JumpsTo (sequence statements) source target)
    {site : Site} (member : site ∈ sitesOf 0 statements) : site.Admits source target := by
  obtain ⟨one, among, route⟩ := jumpsTo_iff.mp leads
  exact orderlyOf statements 0 one among site member source target route

end Statement

/-- Of some statements, at any depth, each stands in the sequence they are lowered to, and the jumps
of the sequence are those that take the statements' routes: past the body, to the other branch, or
back to the condition. No jump leaves a statement that it stands in or the sequence, and none leads
into the middle of a statement that it does not stand in. Jumps that go on lead back and those that
test a value lead forward, by offsets that are smaller than the sequence. The sequences of a program
are such ones. -/
theorem jumps_closed_and_exact (statements : List Statement) :
    let code := Statement.sequence statements
    let sites := Statement.sitesOf 0 statements
    (∀ site ∈ sites, Contains code site.start site.statement.code.instructions) ∧
      (∀ source target, JumpsTo code source target ↔
        ∃ site ∈ sites, (source, target) ∈ site.routes) ∧
      (∀ source target, JumpsTo code source target → target ≤ code.size ∧ ∀ site ∈ sites,
        (site.Spans source → site.start ≤ target ∧ target ≤ site.finish) ∧
          (¬ site.Spans source → target ≤ site.start ∨ site.finish ≤ target)) ∧
      (∀ source instruction offset, code[source]? = some instruction →
        instruction.jumpOffset? = some offset →
        (∃ target, JumpsTo code source target) ∧ offset.natAbs < code.size ∧
          (instruction = .jump offset ∧ offset < 0 ∨ instruction = .jumpIf offset ∧ 0 ≤ offset)) ∧
      ∀ program : Program,
        program.executable.main.instructions = Statement.sequence program.statements ∧
          ∀ name, program.executable.instructions? (.label name) =
            (program.body? name).map fun body => Statement.sequence body.statements := by
  refine ⟨fun site => Statement.contains_site, fun source target => Statement.jumpsTo_iff, ?_, ?_,
    ?_⟩
  · intro source target leads
    refine ⟨?_, fun site => Statement.admits_of_jumpsTo leads⟩
    obtain ⟨site, member, route⟩ := Statement.jumpsTo_iff.mp leads
    exact Nat.le_trans (Site.route_within route).2.2 (Statement.finish_le_size member)
  · intro source instruction offset found jumps
    obtain ⟨site, member, own⟩ := Statement.own_of_jump found jumps
    obtain ⟨target, reached, route, short, direction⟩ := Site.route_of_own own jumps
    have inside := Statement.finish_le_size member
    rw [Site.finish] at inside
    exact ⟨⟨target, Statement.jumpsTo_iff.mpr ⟨site, member, route⟩⟩, by omega, direction⟩
  · exact fun program =>
      ⟨Option.some.inj program.instructions?_main, program.instructions?_label⟩

end TapeMachine
