import TapeMachine.Proofs.Code.Site
import TapeMachine.Proofs.Grammar.Language

/-!
Contract: the labels of a program, as parsing records them and as lowering does.

Owns: the bodies of all labels, that parsing ends with these in the outermost scope and with no
other scope open, that lowering turns each of them into code, and that every call leads to one.

The same definitions are recorded on two paths. Parsing binds a name twice, to nothing in front of
the body and to the body behind it, and looks jumps up while it goes on; lowering binds it once, when
all of the text has been read.
-/

namespace TapeMachine

namespace Program

/-- What the labels of a program are bound to: the bodies of their last definitions. -/
def bodyTable (program : Program) : NameTable Block :=
  .ofList (program.labels.map fun definition => (definition.name, definition.body))

variable (program : Program)

theorem get?_bodyTable (name : String) : program.bodyTable.get? name = program.body? name := by
  rw [bodyTable, NameTable.get?_ofList, body?, ← List.map_reverse, List.find?_map, Option.map_map]
  rfl

theorem labels_executable :
    program.executable.labels = program.bodyTable.map fun body => .ofCode body.code := by
  rw [bodyTable, NameTable.map_ofList, List.map_map]
  rfl

theorem mem_names_bodyTable (name : String) :
    name ∈ program.bodyTable.names ↔ ∃ definition ∈ program.labels, definition.name = name := by
  rw [NameTable.mem_names, get?_bodyTable, body?_isSome, ← names_labels, List.mem_map]

end Program

/-- In the outermost scope, items bind the labels that they define to their bodies. -/
theorem Item.foldl_declare (items : List Item) (table : NameTable (Option Block)) :
    items.foldl Item.declare ⟨table, []⟩ =
      ⟨(Program.labels ⟨items⟩).foldl
        (fun table definition => table.insert definition.name (some definition.body)) table, []⟩ := by
  induction items generalizing table with
  | nil => rfl
  | cons item others inductionHypothesis =>
      cases item with
      | statement entry => exact inductionHypothesis table
      | label definition =>
          have bound : (Item.label definition).declare ⟨table, []⟩ =
              ⟨table.insert definition.name (some definition.body), []⟩ :=
            congrArg (Environment.mk · []) (table.insert_insert _ _ _)
          rw [List.foldl_cons, bound, inductionHypothesis]
          rfl

theorem Program.foldl_declare (program : Program) :
    program.items.foldl Item.declare .empty = ⟨program.bodyTable.map some, []⟩ := by
  rw [Environment.empty, Item.foldl_declare, bodyTable, NameTable.map_ofList, List.map_map,
    NameTable.ofList, List.foldl_map]
  rfl

/-- Behind a program, every label is bound to the body of its last definition, and no scope is left
open. -/
theorem labels_of_parse {text : List Char} {program : Program} {parser : Parser}
    (parsed : (Buffer.ofText text).parse = (.ok program, parser)) :
    parser.labels = ⟨program.bodyTable.map some, []⟩ := by
  obtain ⟨behind, stands, ensured⟩ := Grammar.ensures_program
    (Parser.ofBuffer (.ofText text)).limit _ _ _ (parser_at_start text)
  unfold Buffer.parse at parsed
  dsimp only at parsed
  cases ran : Grammar.program (Parser.ofBuffer (.ofText text)).limit (.ofBuffer (.ofText text)) with
  | error error last => simp [ran] at parsed
  | ok found last =>
      rw [ran] at parsed stands ensured
      obtain ⟨same, rfl⟩ := Prod.mk.inj parsed
      obtain rfl := Except.ok.inj same
      rw [← Program.foldl_declare]
      exact stands.labels.trans ensured.2.1

/-- What is called from the statements of an item is defined. -/
theorem Program.Resolved.call_defined {program : Program} (resolved : program.Resolved)
    {statements : List Statement} (among : ∀ name ∈ Statement.gotosOf statements,
      ∃ item ∈ program.items, name ∈ item.gotos) {label : String}
    (called : .call label ∈ Statement.sequence statements) : label ∈ program.bodyTable.names := by
  obtain ⟨item, member, jumps⟩ := among label (Statement.mem_gotosOf_of_call called)
  rw [NameTable.mem_names, get?_bodyTable]
  exact resolved.body? member jumps

/-- Behind an accepted text the labels of parsing and those of the executable have the same names,
which are those that the text defines. Each is bound to the body of its last definition, on the one
side as a tree and on the other as code. What is called by the main sequence or from any definition,
replaced or not, is defined. -/
theorem labels_agree (text : List Char) (program : Program) (parser : Parser)
    (parsed : (Buffer.ofText text).parse = (.ok program, parser)) :
    ∃ executable, (Buffer.ofText text).compile = .ok executable ∧
      parser.labels.depth = 0 ∧ parser.labels.names = executable.labelNames ∧
      (∀ name, name ∈ executable.labelNames ↔
        ∃ definition ∈ program.labels, definition.name = name) ∧
      (∀ before definition after, program.labels = before ++ definition :: after →
        (∀ other ∈ after, other.name ≠ definition.name) →
        parser.labels.get? definition.name = some (some definition.body) ∧
          executable.labels.get? definition.name = some (.ofCode definition.body.code)) ∧
      (∀ label, .call label ∈ executable.main.instructions → label ∈ executable.labelNames) ∧
      ∀ definition ∈ program.labels, ∀ label,
        .call label ∈ (Sequence.ofCode definition.body.code).instructions →
          label ∈ executable.labelNames := by
  have accepted := accepted_of_parse (congrArg Prod.fst parsed)
  have visible := labels_of_parse parsed
  have names : program.executable.labelNames = program.bodyTable.names := by
    rw [Executable.labelNames, program.labels_executable, NameTable.names_map]
  refine ⟨program.executable, by rw [Buffer.compile_eq, parsed]; rfl, ?_, ?_, ?_, ?_, ?_, ?_⟩
  · rw [visible]
    rfl
  · rw [visible, names, ← program.bodyTable.names_map some]
    simp [Environment.names, Environment.scopes, NameTable.names]
  · rw [names]
    exact program.mem_names_bodyTable
  · intro before definition after split last
    have body := Program.body?_eq_some_iff.mpr ⟨before, definition, after, split, rfl, rfl, last⟩
    constructor
    · rw [visible]
      simp [Environment.get?, Environment.scopes, NameTable.get?_map, program.get?_bodyTable, body]
    · rw [program.labels_get?, body]
      rfl
  · intro label called
    rw [names]
    rw [Option.some.inj program.instructions?_main] at called
    refine accepted.resolved.call_defined (fun name jumps => ?_) called
    obtain ⟨entry, member, own⟩ := Statement.mem_gotosOf.mp jumps
    exact ⟨.statement entry, Program.mem_statements.mp member, own⟩
  · intro definition member label called
    rw [names]
    rw [Block.instructions_code] at called
    refine accepted.resolved.call_defined (fun name jumps => ?_) called
    rw [← Block.gotos_eq] at jumps
    exact ⟨.label definition, Program.mem_labels.mp member, jumps⟩

/-- A label that is defined twice and jumps to itself the second time. -/
def redefinedText : List Char :=
  "f: \x7b\x7d f: \x7b goto f; \x7d".toList

theorem labels_agree_redefinedText :
    ∃ program parser executable, (Buffer.ofText redefinedText).parse = (.ok program, parser) ∧
      (Buffer.ofText redefinedText).compile = .ok executable ∧
      parser.labels.names = executable.labelNames ∧ "f" ∈ executable.labelNames ∧
      executable.labels.get? "f" = some ⟨#[.call "f"], #[1]⟩ := by
  have checked : ((Buffer.ofText redefinedText).parse.1.toOption.map fun program =>
      program.labels.map fun definition => (definition.name, Sequence.ofCode definition.body.code)) =
        some [("f", ⟨#[], #[]⟩), ("f", ⟨#[.call "f"], #[1]⟩)] := by
    decide +kernel
  rcases parsed : (Buffer.ofText redefinedText).parse with ⟨outcome, parser⟩
  cases outcome with
  | error error =>
      rw [parsed] at checked
      contradiction
  | ok program =>
      rw [parsed] at checked
      obtain ⟨first, others, split, -, rest⟩ := List.map_eq_cons_iff.mp (Option.some.inj checked)
      obtain ⟨second, behind, rfl, same, none⟩ := List.map_eq_cons_iff.mp rest
      obtain rfl := List.map_eq_nil_iff.mp none
      obtain ⟨named, code⟩ := Prod.mk.inj same
      obtain ⟨executable, compiled, -, names, defined, bound, -⟩ :=
        labels_agree redefinedText program parser parsed
      refine ⟨program, parser, executable, rfl, compiled, names, ?_, ?_⟩
      · exact (defined "f").mpr ⟨second, by simp [split], named⟩
      · have last := (bound [first] second [] split (by simp)).2
        rwa [named, code] at last

end TapeMachine
