import TapeMachine.Proofs.Token.Outlook
import TapeMachine.Proofs.Token.Request

/-!
Contract: a lexer as an ideal cursor.

Owns: what readers ask of a lexer, the cursor that answers out of a list of tokens and knows nothing
but its place and its marks, and the agreement of a lexer with the cursor over all of its tokens.

The agreement goes through outlooks: a request does the same to a lexer and to its outlook, and the
outlook of a cursor is what its list has from the place and from each of the marks on.
-/

namespace TapeMachine

inductive LexerRequest where
  | next
  | hasNext
  | openMark
  | rewindMark
  | closeMark
  | depth
deriving DecidableEq, Repr

inductive LexerAnswer where
  | done
  | token (found : Except LexError (Option Lexeme))
  | follows (found : Except LexError Bool)
  | depth (count : Nat)

namespace Lexer

def respond (lexer : Lexer) : LexerRequest → LexerAnswer × Lexer
  | .next => (.token lexer.next.1, lexer.next.2)
  | .hasNext => (.follows lexer.hasNext.1, lexer.hasNext.2)
  | .openMark => (.done, lexer.openMark)
  | .rewindMark => (.done, lexer.rewindMark)
  | .closeMark => (.done, lexer.closeMark)
  | .depth => (.depth lexer.depth, lexer)

/-- The answers to requests that are made one after the other. -/
def answers (lexer : Lexer) : List LexerRequest → List LexerAnswer
  | [] => []
  | request :: others => (lexer.respond request).1 :: (lexer.respond request).2.answers others

end Lexer

/-! ## Requests to an outlook -/

namespace Outlook

def respond (outlook : Outlook) : LexerRequest → LexerAnswer × Outlook
  | .next => (.token outlook.next.1, outlook.next.2)
  | .hasNext => (.follows outlook.hasNext, outlook)
  | .openMark => (.done, outlook.openMark)
  | .rewindMark => (.done, outlook.rewindMark)
  | .closeMark => (.done, outlook.closeMark)
  | .depth => (.depth outlook.marked.length, outlook)

def answers (outlook : Outlook) : List LexerRequest → List LexerAnswer
  | [] => []
  | request :: others => (outlook.respond request).1 :: (outlook.respond request).2.answers others

end Outlook

namespace Lexer

/-- A request does to the outlook of a lexer what it does to the lexer. -/
theorem respond_spec {lexer : Lexer} (steady : lexer.Steady) (request : LexerRequest) :
    (lexer.respond request).1 = (lexer.outlook.respond request).1 ∧
      (lexer.respond request).2.Steady ∧
      (lexer.respond request).2.outlook = (lexer.outlook.respond request).2 := by
  cases request with
  | next =>
      obtain ⟨found, steadyNext, after⟩ := next_spec steady
      exact ⟨congrArg LexerAnswer.token found, steadyNext, after⟩
  | hasNext =>
      obtain ⟨found, steadyNext, after⟩ := hasNext_spec steady
      exact ⟨congrArg LexerAnswer.follows found, steadyNext, after⟩
  | openMark => exact ⟨rfl, openMark_spec steady⟩
  | rewindMark => exact ⟨rfl, rewindMark_spec steady⟩
  | closeMark => exact ⟨rfl, closeMark_spec steady⟩
  | depth =>
      have depth : lexer.depth = lexer.outlook.marked.length := by simp [Lexer.depth, outlook]
      exact ⟨congrArg LexerAnswer.depth depth, steady, rfl⟩

theorem answers_eq_outlook {lexer : Lexer} (steady : lexer.Steady) (requests : List LexerRequest) :
    lexer.answers requests = lexer.outlook.answers requests := by
  induction requests generalizing lexer with
  | nil => rfl
  | cons request others inductionHypothesis =>
      obtain ⟨answer, steadyNext, after⟩ := respond_spec steady request
      rw [answers, Outlook.answers, answer, inductionHypothesis steadyNext, after]

end Lexer

/-! ## The ideal cursor -/

/-- A place in a list of tokens, and the marked places, innermost first. -/
structure TokenCursor where
  position : Nat
  marks : List Nat
deriving DecidableEq, Repr

namespace TokenCursor

def start : TokenCursor :=
  ⟨0, []⟩

/-- The end of the tokens is the end of the input, or an error that comes up every time. -/
def respond (tokens : List Lexeme) (ending : Option LexError) (cursor : TokenCursor) :
    LexerRequest → LexerAnswer × TokenCursor
  | .next =>
      match tokens[cursor.position]?, ending with
      | some lexeme, _ =>
          (.token (.ok (some lexeme)), { cursor with position := cursor.position + 1 })
      | none, some error => (.token (.error error), cursor)
      | none, none => (.token (.ok none), cursor)
  | .hasNext =>
      match tokens[cursor.position]?, ending with
      | some _, _ => (.follows (.ok true), cursor)
      | none, some error => (.follows (.error error), cursor)
      | none, none => (.follows (.ok false), cursor)
  | .openMark => (.done, { cursor with marks := cursor.position :: cursor.marks })
  | .rewindMark => (.done, { cursor with position := cursor.marks.head?.getD cursor.position })
  | .closeMark => (.done, { cursor with marks := cursor.marks.tail })
  | .depth => (.depth cursor.marks.length, cursor)

def answers (tokens : List Lexeme) (ending : Option LexError) (cursor : TokenCursor) :
    List LexerRequest → List LexerAnswer
  | [] => []
  | request :: others =>
      (cursor.respond tokens ending request).1 ::
        (cursor.respond tokens ending request).2.answers tokens ending others

def outlook (tokens : List Lexeme) (ending : Option LexError) (cursor : TokenCursor) : Outlook where
  ahead := tokens.drop cursor.position
  marked := cursor.marks.map fun mark => tokens.drop mark
  ending := ending

/-- The token at the place of the cursor is the first one of its outlook. -/
theorem ahead_cases (tokens : List Lexeme) (ending : Option LexError) (cursor : TokenCursor) :
    (∃ lexeme, tokens[cursor.position]? = some lexeme ∧
        (cursor.outlook tokens ending).ahead = lexeme :: tokens.drop (cursor.position + 1)) ∨
      (tokens[cursor.position]? = none ∧ (cursor.outlook tokens ending).ahead = []) := by
  cases found : tokens[cursor.position]? with
  | some lexeme =>
      obtain ⟨within, rfl⟩ := List.getElem?_eq_some_iff.mp found
      exact .inl ⟨_, rfl, List.drop_eq_getElem_cons within⟩
  | none => exact .inr ⟨rfl, List.drop_eq_nil_of_le (List.getElem?_eq_none_iff.mp found)⟩

variable {tokens : List Lexeme} {ending : Option LexError}

/-- A request does to the outlook of a cursor what it does to the cursor. -/
theorem respond_spec (cursor : TokenCursor) (request : LexerRequest) :
    ((cursor.outlook tokens ending).respond request).1 =
        (cursor.respond tokens ending request).1 ∧
      ((cursor.outlook tokens ending).respond request).2 =
        (cursor.respond tokens ending request).2.outlook tokens ending := by
  cases request with
  | next =>
      simp only [Outlook.respond, Outlook.next, respond]
      rcases ahead_cases tokens ending cursor with ⟨lexeme, found, front⟩ | ⟨missing, finished⟩
      · simp only [found, front]
        exact ⟨trivial, rfl⟩
      · simp only [missing, finished]
        cases ending <;> exact ⟨rfl, rfl⟩
  | hasNext =>
      simp only [Outlook.respond, Outlook.hasNext, respond]
      rcases ahead_cases tokens ending cursor with ⟨lexeme, found, front⟩ | ⟨missing, finished⟩
      · simp only [found, front]
        exact ⟨trivial, trivial⟩
      · simp only [missing, finished]
        cases ending <;> exact ⟨rfl, rfl⟩
  | openMark => exact ⟨rfl, rfl⟩
  | rewindMark =>
      refine ⟨rfl, ?_⟩
      simp only [Outlook.respond, Outlook.rewindMark, respond, outlook, List.head?_map,
        Outlook.mk.injEq, and_true]
      cases cursor.marks.head? <;> rfl
  | closeMark => simp [Outlook.respond, Outlook.closeMark, respond, outlook]
  | depth => simp [Outlook.respond, respond, outlook]

theorem answers_outlook (cursor : TokenCursor) (requests : List LexerRequest) :
    (cursor.outlook tokens ending).answers requests = cursor.answers tokens ending requests := by
  induction requests generalizing cursor with
  | nil => rfl
  | cons request others inductionHypothesis =>
      obtain ⟨answer, after⟩ := cursor.respond_spec request
      rw [Outlook.answers, answers, answer, after, inductionHypothesis]

end TokenCursor

/-! ## A lexer over a buffer -/

namespace Lexer

/-- The tokens of a lexer and their end are all that its answers depend on. -/
theorem answers_ofBuffer {buffer : Buffer} (sound : buffer.Sound) (requests : List LexerRequest) :
    (ofBuffer buffer).answers requests =
      TokenCursor.start.answers (ofBuffer buffer).tokenize.1 (ofBuffer buffer).tokenize.2.1
        requests := by
  obtain ⟨ahead, ending⟩ := tokenize_spec (steady_ofBuffer sound)
  rw [answers_eq_outlook (steady_ofBuffer sound), ahead, ending, ← TokenCursor.answers_outlook]
  rfl

/-- Whatever is asked of a lexer in whatever order, it answers like a cursor over the tokens of its
whole input, which end at the end of the input or at the first error. -/
theorem answers_as_cursor {start : Buffer} (fresh : start.Fresh) (history : List BufferRequest)
    (requests : List LexerRequest) :
    let lexer := ofBuffer (start.after history)
    lexer.answers requests =
      TokenCursor.start.answers lexer.tokenize.1 lexer.tokenize.2.1 requests :=
  answers_ofBuffer (fresh.plain.sound.after history) requests

/-- Going back behind a closed mark, and asking on at an error. -/
theorem answers_as_cursor_merging :
    (Buffer.ofText "left 1; $".toList).Fresh ∧
      let lexer := ofBuffer ((Buffer.ofText "left 1; $".toList).after [])
      let requests : List LexerRequest :=
        [.rewindMark, .openMark, .next, .openMark, .next, .hasNext, .closeMark, .rewindMark, .next,
          .next, .closeMark, .closeMark, .next, .next, .hasNext, .depth, .next]
      lexer.answers requests =
        TokenCursor.start.answers lexer.tokenize.1 lexer.tokenize.2.1 requests :=
  ⟨.ofText _, answers_as_cursor (.ofText _) [] _⟩

end Lexer

end TapeMachine
